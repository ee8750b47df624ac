import EggReplay.Core.Reports

/-!
When a regression report succeeds: its findings name exactly the differences between the
two outcomes, and each header name that differs is found or suppressed once.
-/

namespace EggReplay.Core.ReportVerdicts

open EggReplay.Library.Text
open EggReplay.Core.FlowRecord
open EggReplay.Core.ServerSentEvents
open EggReplay.Core.Matching
open EggReplay.Core.BodyWildcards
open EggReplay.Core.FieldWildcards
open EggReplay.Core.Reports

/-! ### Equality of outcomes -/

/-- The values under a name, in order, whatever letter case either is written in. -/
def fieldValues (name : String) (headers : List HeaderEntry) : List String :=
  (headers.filter fun header => eqIgnoreAsciiCase header.name name).map (·.value)

/-- Volatile and present on both sides. -/
def Tolerated (policy : ComparisonPolicy) (left right : List HeaderEntry)
    (name : String) : Prop :=
  policy.isVolatile name = true ∧ fieldValues name left ≠ [] ∧ fieldValues name right ≠ []

def SameFields (policy : ComparisonPolicy) (left right : List HeaderEntry) : Prop :=
  ∀ name, ¬Tolerated policy left right name → fieldValues name left = fieldValues name right

inductive SameOutcome (policy : ComparisonPolicy) (baselineBody candidateBody : Bytes) :
    FlowOutcome → FlowOutcome → Prop where
  | response {expected actual : HttpResponse}
      (status : expected.status = actual.status)
      (headers : SameFields policy expected.headers actual.headers)
      (trailers : SameFields policy expected.trailers actual.trailers)
      (body : baselineBody = candidateBody) :
      SameOutcome policy baselineBody candidateBody (.response expected) (.response actual)
  | error {expected actual : FlowError}
      (category : expected.category = actual.category)
      (phase : expected.phase = actual.phase) :
      SameOutcome policy baselineBody candidateBody (.error expected) (.error actual)

/-- The same entries, where only entries of different names have changed places. -/
inductive Reordered : List HeaderEntry → List HeaderEntry → Prop where
  | refl (headers : List HeaderEntry) : Reordered headers headers
  | cons (header : HeaderEntry) {left right : List HeaderEntry} (h : Reordered left right) :
      Reordered (header :: left) (header :: right)
  | swap {first second : HeaderEntry} (rest : List HeaderEntry)
      (h : eqIgnoreAsciiCase first.name second.name = false) :
      Reordered (first :: second :: rest) (second :: first :: rest)
  | trans {left middle right : List HeaderEntry} (h : Reordered left middle)
      (h' : Reordered middle right) : Reordered left right

inductive ReorderedOutcome : FlowOutcome → FlowOutcome → Prop where
  | response {left right : HttpResponse} (status : left.status = right.status)
      (headers : Reordered left.headers right.headers)
      (trailers : Reordered left.trailers right.trailers) :
      ReorderedOutcome (.response left) (.response right)
  | error (error : FlowError) : ReorderedOutcome (.error error) (.error error)

theorem isVolatile_toAsciiLowercase (policy : ComparisonPolicy) (name : String) :
    policy.isVolatile (toAsciiLowercase name) = policy.isVolatile name := by
  rw [ComparisonPolicy.isVolatile, ComparisonPolicy.isVolatile]
  apply congrArg policy.volatileHeaders.any
  funext header
  rw [eqIgnoreAsciiCase, eqIgnoreAsciiCase, toAsciiLowercase_idem]

theorem fieldValues_eq_headerValues (name : String) (headers : List HeaderEntry) :
    fieldValues name headers = headerValues (toAsciiLowercase name) headers := rfl

theorem fieldValues_toAsciiLowercase (name : String) (headers : List HeaderEntry) :
    fieldValues (toAsciiLowercase name) headers = fieldValues name headers := by
  rw [fieldValues_eq_headerValues, fieldValues_eq_headerValues, toAsciiLowercase_idem]

theorem SameFields.symm {policy : ComparisonPolicy} {left right : List HeaderEntry}
    (h : SameFields policy left right) : SameFields policy right left := by
  intro name hname
  refine (h name ?_).symm
  rintro ⟨hvolatile, hleft, hright⟩
  exact hname ⟨hvolatile, hright, hleft⟩

theorem SameOutcome.symm {policy : ComparisonPolicy} {left right : FlowOutcome}
    {leftBody rightBody : Bytes} (h : SameOutcome policy leftBody rightBody left right) :
    SameOutcome policy rightBody leftBody right left := by
  cases h with
  | response status headers trailers body =>
      exact .response status.symm headers.symm trailers.symm body.symm
  | error category phase => exact .error category.symm phase.symm

theorem sameOutcome_response_iff {policy : ComparisonPolicy} {baselineBody candidateBody : Bytes}
    {expected actual : HttpResponse} :
    SameOutcome policy baselineBody candidateBody (.response expected) (.response actual) ↔
      expected.status = actual.status ∧ SameFields policy expected.headers actual.headers ∧
        SameFields policy expected.trailers actual.trailers ∧ baselineBody = candidateBody := by
  constructor
  · intro h
    cases h with
    | response status headers trailers body => exact ⟨status, headers, trailers, body⟩
  · rintro ⟨status, headers, trailers, body⟩
    exact .response status headers trailers body

theorem SameOutcome.refl (policy : ComparisonPolicy) (body : Bytes) (outcome : FlowOutcome) :
    SameOutcome policy body body outcome outcome := by
  cases outcome with
  | response => exact .response rfl (fun _ _ => rfl) (fun _ _ => rfl) rfl
  | error => exact .error rfl rfl

theorem Reordered.fieldValues_eq {left right : List HeaderEntry} (h : Reordered left right)
    (name : String) : fieldValues name left = fieldValues name right := by
  induction h with
  | refl => rfl
  | cons header h ih =>
      rw [fieldValues, fieldValues, List.filter_cons, List.filter_cons]
      split
      · exact congrArg (header.value :: ·) ih
      · exact ih
  | @swap first second rest hne =>
      have hone : ¬(eqIgnoreAsciiCase first.name name = true ∧
          eqIgnoreAsciiCase second.name name = true) := by
        rintro ⟨hfirst, hsecond⟩
        rw [eqIgnoreAsciiCase, decide_eq_true_eq] at hfirst hsecond
        rw [eqIgnoreAsciiCase, hfirst, hsecond] at hne
        simp at hne
      rw [fieldValues, fieldValues]
      simp only [List.filter_cons]
      split
      · rename_i hfirst
        have hsecond : ¬eqIgnoreAsciiCase second.name name = true :=
          fun hsecond => hone ⟨hfirst, hsecond⟩
        rw [if_neg hsecond, if_neg hsecond]
      · rfl
  | trans h h' ih ih' => exact ih.trans ih'

/-! ### Header comparison -/

theorem headerMap_eq (headers : List HeaderEntry) :
    headerMap headers = normalizeHeaders headers ∅ := by
  rw [headerMap, normalizeHeaders]
  simp

theorem valuesAt_headerMap (name : String) (headers : List HeaderEntry) :
    valuesAt name (headerMap headers) = headerValues name headers := by
  rw [headerMap_eq, valuesAt_normalizeHeaders, if_neg (Finset.notMem_empty name)]

theorem mem_of_valuesAt {name : String} {groups : HeaderGroups}
    (h : valuesAt name groups ≠ []) : name ∈ groups.map (·.1) := by
  induction groups with
  | nil => exact absurd rfl h
  | cons group rest ih =>
      obtain ⟨other, values⟩ := group
      rw [valuesAt] at h
      split at h
      · rename_i heq
        exact List.mem_cons.mpr (.inl heq.symm)
      · exact List.mem_cons_of_mem _ (ih h)

theorem mem_headerNames {name : String} {left right : HeaderGroups} :
    name ∈ headerNames left right ↔ name ∈ left.map (·.1) ∨ name ∈ right.map (·.1) := by
  rw [headerNames, List.mem_insertionSort, List.mem_dedup, List.mem_append]

theorem nodup_headerNames (left right : HeaderGroups) : (headerNames left right).Nodup :=
  (List.perm_insertionSort _ _).nodup_iff.mpr (List.nodup_dedup _)

section Headers

variable (policy : ComparisonPolicy) (kind : DiffKind) (lead : String)

/-- What the comparison of one name reports, if anything. -/
def headerFinding (left right : HeaderGroups) (name : String) : Option DiffFinding :=
  let a := valuesAt name left
  let b := valuesAt name right
  if policy.isVolatile name && !a.isEmpty && !b.isEmpty then none
  else if a ≠ b then
    some { kind := kind, field := lead ++ "." ++ name,
           baseline := presence a, candidate := presence b }
  else none

def headerSuppression (left right : HeaderGroups) (name : String) : Option SuppressedHeader :=
  if policy.isVolatile name && !(valuesAt name left).isEmpty && !(valuesAt name right).isEmpty
  then some { field := lead ++ "." ++ name, reason := .volatileHeader }
  else none

theorem compareHeader_eq (left right : HeaderGroups) (found : Comparison) (name : String) :
    compareHeader policy kind lead left right found name =
      { findings := found.findings ++
          (headerFinding policy kind lead left right name).toList
        suppressed := found.suppressed ++
          (headerSuppression policy lead left right name).toList } := by
  unfold compareHeader headerFinding headerSuppression
  dsimp only
  split
  · simp [Comparison.suppress]
  · split
    · simp [Comparison.push]
    · simp

theorem foldl_compareHeader (left right : HeaderGroups) (names : List String)
    (found : Comparison) :
    names.foldl (compareHeader policy kind lead left right) found =
      { findings := found.findings ++
          names.filterMap (headerFinding policy kind lead left right)
        suppressed := found.suppressed ++
          names.filterMap (headerSuppression policy lead left right) } := by
  induction names generalizing found with
  | nil => simp
  | cons name names ih =>
      rw [List.foldl_cons, ih, compareHeader_eq, List.filterMap_cons, List.filterMap_cons]
      cases headerFinding policy kind lead left right name <;>
        cases headerSuppression policy lead left right name <;> simp

/-- All that one call of `compareHeaders` adds. -/
def headerDifferences (baseline candidate : List HeaderEntry) : Comparison where
  findings := (headerNames (headerMap baseline) (headerMap candidate)).filterMap
    (headerFinding policy kind lead (headerMap baseline) (headerMap candidate))
  suppressed := (headerNames (headerMap baseline) (headerMap candidate)).filterMap
    (headerSuppression policy lead (headerMap baseline) (headerMap candidate))

theorem compareHeaders_eq (baseline candidate : List HeaderEntry) (found : Comparison) :
    compareHeaders policy kind lead baseline candidate found =
      { findings := found.findings ++
          (headerDifferences policy kind lead baseline candidate).findings
        suppressed := found.suppressed ++
          (headerDifferences policy kind lead baseline candidate).suppressed } :=
  foldl_compareHeader policy kind lead _ _ _ found

theorem toAsciiLowercase_of_headerValues {name : String} {headers : List HeaderEntry}
    (h : headerValues name headers ≠ []) : toAsciiLowercase name = name := by
  obtain ⟨value, hvalue⟩ := List.exists_mem_of_ne_nil _ h
  obtain ⟨header, hheader, -⟩ := List.mem_map.mp hvalue
  have hname : toAsciiLowercase header.name = name := by
    simpa using (List.mem_filter.mp hheader).2
  rw [← hname, toAsciiLowercase_idem]

theorem not_tolerated_iff {baseline candidate : List HeaderEntry} {name : String} :
    ¬Tolerated policy baseline candidate name ↔
      (policy.isVolatile name && !(fieldValues name baseline).isEmpty &&
        !(fieldValues name candidate).isEmpty) = false := by
  rw [Tolerated]
  simp only [Bool.and_eq_false_iff, Bool.not_eq_false', List.isEmpty_iff, not_and_or, not_not,
    ne_eq, Bool.not_eq_true, or_assoc]

theorem headerFinding_eq_none_iff {baseline candidate : List HeaderEntry} {name : String} :
    headerFinding policy kind lead (headerMap baseline) (headerMap candidate)
        (toAsciiLowercase name) = none ↔
      (¬Tolerated policy baseline candidate name →
        fieldValues name baseline = fieldValues name candidate) := by
  rw [not_tolerated_iff, headerFinding]
  simp only [valuesAt_headerMap, ← fieldValues_eq_headerValues, isVolatile_toAsciiLowercase]
  split
  · rename_i htolerated
    simp [htolerated]
  · rename_i htolerated
    rw [Bool.not_eq_true] at htolerated
    simp [htolerated]

theorem mem_headerNames_of_ne {baseline candidate : List HeaderEntry} {name : String}
    (h : fieldValues name baseline ≠ fieldValues name candidate) :
    toAsciiLowercase name ∈ headerNames (headerMap baseline) (headerMap candidate) := by
  rw [mem_headerNames]
  rw [fieldValues_eq_headerValues, fieldValues_eq_headerValues, ← valuesAt_headerMap,
    ← valuesAt_headerMap] at h
  by_contra hneither
  rw [not_or] at hneither
  apply h
  rw [not_not.mp fun hleft => hneither.1 (mem_of_valuesAt hleft),
    not_not.mp fun hright => hneither.2 (mem_of_valuesAt hright)]

/-- No finding about headers is agreement on all that is compared. -/
theorem headerDifferences_findings_eq_nil_iff {baseline candidate : List HeaderEntry} :
    (headerDifferences policy kind lead baseline candidate).findings = [] ↔
      SameFields policy baseline candidate := by
  rw [headerDifferences, List.filterMap_eq_nil_iff]
  constructor
  · intro h name hname
    by_contra hne
    have hnone := h _ (mem_headerNames_of_ne hne)
    exact hne ((headerFinding_eq_none_iff policy kind lead).mp hnone hname)
  · intro h name hname
    by_cases hlower : toAsciiLowercase name = name
    · rw [← hlower, headerFinding_eq_none_iff]
      exact h name
    · -- no header has this name, so both sides have no value
      have hempty : ∀ headers, valuesAt name (headerMap headers) = [] := by
        intro headers
        rw [valuesAt_headerMap]
        by_contra hvalues
        exact hlower (toAsciiLowercase_of_headerValues hvalues)
      simp [headerFinding, hempty]

theorem field_of_headerFinding {left right : HeaderGroups} {name : String}
    {finding : DiffFinding}
    (h : headerFinding policy kind lead left right name = some finding) :
    finding.field = lead ++ "." ++ name := by
  unfold headerFinding at h
  dsimp only at h
  split at h
  · exact absurd h (by simp)
  · split at h
    · rw [← Option.some.inj h]
    · exact absurd h (by simp)

theorem field_of_headerSuppression {left right : HeaderGroups} {name : String}
    {suppressed : SuppressedHeader}
    (h : headerSuppression policy lead left right name = some suppressed) :
    suppressed.field = lead ++ "." ++ name := by
  unfold headerSuppression at h
  split at h
  · rw [← Option.some.inj h]
  · exact absurd h (by simp)

/-- Where what is made of each name names it, a name is named as often as it gives
something. -/
theorem countP_filterMap_field {α : Type} {names : List String} {name : String}
    {make : String → Option α} {field : α → String}
    (hfield : ∀ other item, make other = some item → field item = lead ++ "." ++ other)
    (hnodup : names.Nodup) (hmem : name ∈ names) :
    (names.filterMap make).countP (fun item => field item = lead ++ "." ++ name) =
      (make name).toList.length := by
  rw [List.countP_filterMap]
  have hone : ∀ other ∈ names, ((make other).map
      (fun item => decide (field item = lead ++ "." ++ name))).getD false =
        (other == name && (make name).isSome) := by
    intro other _
    cases hmake : make other with
    | none =>
        by_cases heq : other = name
        · rw [← heq, hmake]
          simp
        · simp [heq]
    | some item =>
        by_cases heq : other = name
        · rw [← heq, hmake]
          simp [hfield other item hmake]
        · have hne : ¬lead ++ "." ++ other = lead ++ "." ++ name :=
            fun h => heq (String.append_right_inj _ |>.mp h)
          simp [hfield other item hmake, heq, hne]
  rw [List.countP_congr fun other hother => by rw [hone other hother]]
  cases make name with
  | none => simp
  | some item =>
      simp only [Option.isSome_some, Bool.and_true, Option.toList_some, List.length_singleton]
      exact List.count_eq_one_of_mem hnodup hmem

/-- How many entries of a comparison name a field. -/
def mentions (field : String) (findings : List DiffFinding)
    (suppressed : List SuppressedHeader) : Nat :=
  findings.countP (fun finding => finding.field = field) +
    suppressed.countP (fun suppressed => suppressed.field = field)

theorem headerDifferences_mentions {baseline candidate : List HeaderEntry} {name : String}
    (h : fieldValues name baseline ≠ fieldValues name candidate) :
    mentions (lead ++ "." ++ toAsciiLowercase name)
        (headerDifferences policy kind lead baseline candidate).findings
        (headerDifferences policy kind lead baseline candidate).suppressed = 1 := by
  have hmem := mem_headerNames_of_ne h
  have hnodup := nodup_headerNames (headerMap baseline) (headerMap candidate)
  rw [mentions, headerDifferences,
    countP_filterMap_field lead (fun _ _ => field_of_headerFinding policy kind lead) hnodup
      hmem,
    countP_filterMap_field lead (fun _ _ => field_of_headerSuppression policy lead) hnodup
      hmem]
  unfold headerFinding headerSuppression
  simp only [valuesAt_headerMap, ← fieldValues_eq_headerValues]
  split
  · rfl
  · rfl

end Headers

/-! ### The report -/

section Report

variable {sha256 : Bytes → String} {policy : ComparisonPolicy}

theorem compareSseBodies_of_disabled (hsse : policy.isSseEnabled = false)
    (expected actual : HttpResponse) (baseline candidate : Bytes) (found : Comparison) :
    compareSseBodies policy expected actual baseline candidate found = found := by
  rw [compareSseBodies, hsse, Bool.false_and, Bool.false_and, if_neg Bool.false_ne_true]

/-- What the status and the bodies contribute. -/
def statusDifference (expected actual : HttpResponse) : List DiffFinding :=
  (compareStatus expected actual {}).findings

def bodyDifference (sha256 : Bytes → String) (baseline candidate : Bytes) : List DiffFinding :=
  (compareBodies sha256 baseline candidate {}).findings

theorem compareBodies_eq (baseline candidate : Bytes) (found : Comparison) :
    compareBodies sha256 baseline candidate found =
      { findings := found.findings ++ bodyDifference sha256 baseline candidate
        suppressed := found.suppressed } := by
  unfold bodyDifference compareBodies
  split
  · rfl
  · simp

theorem compareStatus_eq (expected actual : HttpResponse) :
    compareStatus expected actual {} =
      { findings := statusDifference expected actual, suppressed := [] } := by
  unfold statusDifference compareStatus
  split <;> rfl

theorem compareOutcomes_response (hsse : policy.isSseEnabled = false)
    (expected actual : HttpResponse) (baseline candidate : Bytes) :
    compareOutcomes sha256 policy baseline candidate (.response expected) (.response actual) =
      { findings := statusDifference expected actual ++
          (headerDifferences policy .header "response.headers" expected.headers
            actual.headers).findings ++
          (headerDifferences policy .trailer "response.trailers" expected.trailers
            actual.trailers).findings ++ bodyDifference sha256 baseline candidate
        suppressed :=
          (headerDifferences policy .header "response.headers" expected.headers
            actual.headers).suppressed ++
          (headerDifferences policy .trailer "response.trailers" expected.trailers
            actual.trailers).suppressed } := by
  rw [compareOutcomes, compareSseBodies_of_disabled hsse, compareBodies_eq,
    compareHeaders_eq, compareHeaders_eq, compareStatus_eq]
  rfl

theorem statusDifference_eq_nil_iff {expected actual : HttpResponse} :
    statusDifference expected actual = [] ↔ expected.status = actual.status := by
  rw [statusDifference, compareStatus]
  split
  · rename_i hne
    simp [Comparison.push, hne]
  · rename_i heq
    simpa using heq

theorem bodyDifference_eq_nil_iff {baseline candidate : Bytes}
    (hsha : sha256 baseline = sha256 candidate → baseline = candidate) :
    bodyDifference sha256 baseline candidate = [] ↔ baseline = candidate := by
  rw [bodyDifference, compareBodies]
  split
  · rename_i hne
    simp only [Comparison.push, List.nil_append, List.cons_ne_nil, false_iff]
    rintro rfl
    simp at hne
  · rename_i heq
    rw [not_or, not_not, not_not] at heq
    exact iff_of_true rfl (hsha heq.1)

theorem compareOutcomes_findings_eq_nil_iff (hsse : policy.isSseEnabled = false)
    {baseline candidate : Bytes}
    (hsha : sha256 baseline = sha256 candidate → baseline = candidate)
    {expected actual : FlowOutcome} :
    (compareOutcomes sha256 policy baseline candidate expected actual).findings = [] ↔
      SameOutcome policy baseline candidate expected actual := by
  cases expected with
  | response expected =>
      cases actual with
      | response actual =>
          rw [compareOutcomes_response hsse]
          simp only [List.append_eq_nil_iff, statusDifference_eq_nil_iff,
            bodyDifference_eq_nil_iff hsha, headerDifferences_findings_eq_nil_iff,
            sameOutcome_response_iff, and_assoc]
      | error actual =>
          refine iff_of_false (by simp [compareOutcomes, Comparison.push]) ?_
          rintro ⟨⟩
  | error expected =>
      cases actual with
      | response actual =>
          refine iff_of_false (by simp [compareOutcomes, Comparison.push]) ?_
          rintro ⟨⟩
      | error actual =>
          rw [compareOutcomes]
          split
          · rename_i hne
            refine iff_of_false (by simp [Comparison.push]) ?_
            rintro (_ | ⟨hcategory, hphase⟩)
            rcases hne with hne | hne
            · exact hne hcategory
            · exact hne hphase
          · rename_i heq
            rw [not_or, not_not, not_not] at heq
            exact iff_of_true rfl (.error heq.1 heq.2)

theorem headerDifferences_congr {kind : DiffKind} {lead : String}
    {baseline baseline' candidate candidate' : List HeaderEntry}
    (hbaseline : Reordered baseline baseline') (hcandidate : Reordered candidate candidate') :
    headerDifferences policy kind lead baseline candidate =
      headerDifferences policy kind lead baseline' candidate' := by
  have hmap : ∀ {left right : List HeaderEntry}, Reordered left right →
      headerMap left = headerMap right := by
    intro left right h
    rw [headerMap_eq, headerMap_eq, normalizeHeaders_eq_iff]
    intro name _
    by_cases hlower : toAsciiLowercase name = name
    · have hvalues := h.fieldValues_eq name
      rwa [fieldValues_eq_headerValues, fieldValues_eq_headerValues, hlower] at hvalues
    · have hempty : ∀ headers, headerValues name headers = [] := by
        intro headers
        by_contra hvalues
        exact hlower (toAsciiLowercase_of_headerValues hvalues)
      rw [hempty, hempty]
  rw [headerDifferences, headerDifferences, hmap hbaseline, hmap hcandidate]

/-- A report does not depend on the order of differently named headers. -/
theorem compareOutcomes_reordered (hsse : policy.isSseEnabled = false)
    {baseline candidate : Bytes} {expected expected' actual actual' : FlowOutcome}
    (hexpected : ReorderedOutcome expected expected')
    (hactual : ReorderedOutcome actual actual') :
    compareOutcomes sha256 policy baseline candidate expected actual =
      compareOutcomes sha256 policy baseline candidate expected' actual' := by
  cases hexpected with
  | response status headers trailers =>
      cases hactual with
      | response status' headers' trailers' =>
          rw [compareOutcomes_response hsse, compareOutcomes_response hsse,
            headerDifferences_congr headers headers', headerDifferences_congr trailers trailers',
            statusDifference, statusDifference, compareStatus, compareStatus, status, status']
      | error => rfl
  | error =>
      cases hactual with
      | response => rfl
      | error => rfl

theorem append_ne_of_apart {left right : String} (h : Apart left right) (a b : String) :
    left ++ a ≠ right ++ b := by
  intro heq
  have hnone := h.stripLead_eq_none a
  rw [heq, stripLead_eq_some.mpr rfl] at hnone
  exact absurd hnone (by simp)

theorem headerDifferences_mentions_apart {kind : DiffKind} {lead wanted : String}
    (h : Apart (lead ++ ".") wanted) (baseline candidate : List HeaderEntry) (name : String) :
    mentions (wanted ++ name)
        (headerDifferences policy kind lead baseline candidate).findings
        (headerDifferences policy kind lead baseline candidate).suppressed = 0 := by
  rw [mentions, Nat.add_eq_zero_iff, List.countP_eq_zero, List.countP_eq_zero]
  constructor
  · intro finding hfinding
    obtain ⟨other, -, hother⟩ := List.mem_filterMap.mp hfinding
    rw [field_of_headerFinding policy kind lead hother]
    simpa using append_ne_of_apart h other name
  · intro suppressed hsuppressed
    obtain ⟨other, -, hother⟩ := List.mem_filterMap.mp hsuppressed
    rw [field_of_headerSuppression policy lead hother]
    simpa using append_ne_of_apart h other name

theorem statusDifference_mentions {expected actual : HttpResponse} {wanted : String}
    (h : Apart "response.status" wanted) (name : String) :
    mentions (wanted ++ name) (statusDifference expected actual) [] = 0 := by
  have hne : "response.status" ≠ wanted ++ name := by
    simpa using append_ne_of_apart h "" name
  rw [statusDifference, compareStatus]
  split
  · simp [mentions, Comparison.push, hne]
  · rfl

theorem bodyDifference_mentions {baseline candidate : Bytes} {wanted : String}
    (h : Apart "response.body" wanted) (name : String) :
    mentions (wanted ++ name) (bodyDifference sha256 baseline candidate) [] = 0 := by
  have hne : "response.body" ≠ wanted ++ name := by
    simpa using append_ne_of_apart h "" name
  rw [bodyDifference, compareBodies]
  split
  · simp [mentions, Comparison.push, hne]
  · rfl

/-- How often the comparison of two responses names a field, part by part. -/
theorem compareOutcomes_mentions (hsse : policy.isSseEnabled = false)
    (expected actual : HttpResponse) (baseline candidate : Bytes) {wanted : String}
    (hstatus : Apart "response.status" wanted) (hbody : Apart "response.body" wanted)
    (name : String) :
    mentions (wanted ++ name)
        (compareOutcomes sha256 policy baseline candidate (.response expected)
          (.response actual)).findings
        (compareOutcomes sha256 policy baseline candidate (.response expected)
          (.response actual)).suppressed =
      mentions (wanted ++ name)
          (headerDifferences policy .header "response.headers" expected.headers
            actual.headers).findings
          (headerDifferences policy .header "response.headers" expected.headers
            actual.headers).suppressed +
        mentions (wanted ++ name)
          (headerDifferences policy .trailer "response.trailers" expected.trailers
            actual.trailers).findings
          (headerDifferences policy .trailer "response.trailers" expected.trailers
            actual.trailers).suppressed := by
  rw [compareOutcomes_response hsse]
  have hstatusNone : mentions (wanted ++ name) (statusDifference expected actual) [] = 0 :=
    statusDifference_mentions hstatus name
  have hbodyNone :
      mentions (wanted ++ name) (bodyDifference sha256 baseline candidate) [] = 0 :=
    bodyDifference_mentions hbody name
  simp only [mentions, List.countP_append, List.countP_nil] at hstatusNone hbodyNone ⊢
  omega

theorem mentions_report (baseline candidate : Flow) (baselineBody candidateBody : Bytes)
    (scheduler : ReportScheduler) (field : String) :
    mentions field
        (compareFlows sha256 baseline candidate baselineBody candidateBody
          scheduler).findings
        (compareFlows sha256 baseline candidate baselineBody candidateBody
          scheduler).suppressed =
      mentions field
        (compareOutcomes sha256 .default baselineBody candidateBody baseline.outcome
          candidate.outcome).findings
        (compareOutcomes sha256 .default baselineBody candidateBody baseline.outcome
          candidate.outcome).suppressed := by
  rw [mentions, mentions]
  congr 1
  · exact (List.mergeSort_perm _ _).countP_eq _
  · exact (List.mergeSort_perm _ _).countP_eq _

theorem isSuccess_compareFlows_iff (baseline candidate : Flow)
    (baselineBody candidateBody : Bytes) (scheduler : ReportScheduler) :
    (compareFlows sha256 baseline candidate baselineBody candidateBody
        scheduler).isSuccess = true ↔
      (compareOutcomes sha256 .default baselineBody candidateBody baseline.outcome
        candidate.outcome).findings = [] := by
  rw [RegressionReport.isSuccess, List.isEmpty_iff]
  exact ⟨fun h => List.perm_nil.mp (h ▸ (List.mergeSort_perm _ _).symm),
    fun h => List.perm_nil.mp (h ▸ List.mergeSort_perm _ _)⟩

/-- Each name on which the two sides differ is found or suppressed exactly once. -/
def AccountedFor (report : RegressionReport) (lead : String)
    (baseline candidate : List HeaderEntry) : Prop :=
  ∀ name, fieldValues name baseline ≠ fieldValues name candidate →
    mentions (lead ++ "." ++ toAsciiLowercase name) report.findings report.suppressed = 1

theorem accountedFor_headers {baseline candidate : Flow} {baselineBody candidateBody : Bytes}
    {scheduler : ReportScheduler} {expected actual : HttpResponse}
    (hexpected : baseline.outcome = .response expected)
    (hactual : candidate.outcome = .response actual) :
    AccountedFor (compareFlows sha256 baseline candidate baselineBody candidateBody scheduler)
      "response.headers" expected.headers actual.headers := by
  intro name hne
  rw [mentions_report, hexpected, hactual,
    compareOutcomes_mentions rfl expected actual _ _ (by decide) (by decide),
    headerDifferences_mentions .default .header "response.headers" hne,
    headerDifferences_mentions_apart (by decide)]

theorem accountedFor_trailers {baseline candidate : Flow} {baselineBody candidateBody : Bytes}
    {scheduler : ReportScheduler} {expected actual : HttpResponse}
    (hexpected : baseline.outcome = .response expected)
    (hactual : candidate.outcome = .response actual) :
    AccountedFor (compareFlows sha256 baseline candidate baselineBody candidateBody scheduler)
      "response.trailers" expected.trailers actual.trailers := by
  intro name hne
  rw [mentions_report, hexpected, hactual,
    compareOutcomes_mentions rfl expected actual _ _ (by decide) (by decide),
    headerDifferences_mentions .default .trailer "response.trailers" hne,
    headerDifferences_mentions_apart (by decide)]

/-- A report succeeds exactly on semantic equality, so that success is symmetric and
reflexive and does not depend on the order of differently named headers, and no header
that differs goes unmentioned. -/
theorem report_succeeds_iff {baselineBody candidateBody : Bytes}
    (hsha : sha256 baselineBody = sha256 candidateBody → baselineBody = candidateBody)
    (baseline candidate : Flow) (scheduler : ReportScheduler) :
    let report := compareFlows sha256 baseline candidate baselineBody candidateBody scheduler
    (report.isSuccess = true ↔
      SameOutcome .default baselineBody candidateBody baseline.outcome candidate.outcome) ∧
    report.isSuccess =
      (compareFlows sha256 candidate baseline candidateBody baselineBody
        scheduler).isSuccess ∧
    (compareFlows sha256 baseline baseline baselineBody baselineBody
      scheduler).isSuccess = true ∧
    (∀ baseline' candidate' : Flow, ReorderedOutcome baseline.outcome baseline'.outcome →
      ReorderedOutcome candidate.outcome candidate'.outcome →
      (compareFlows sha256 baseline' candidate' baselineBody candidateBody
        scheduler).isSuccess = report.isSuccess) ∧
    ∀ expected actual, baseline.outcome = .response expected →
      candidate.outcome = .response actual →
      AccountedFor report "response.headers" expected.headers actual.headers ∧
        AccountedFor report "response.trailers" expected.trailers actual.trailers := by
  have hsymm : sha256 candidateBody = sha256 baselineBody → candidateBody = baselineBody :=
    fun h => (hsha h.symm).symm
  refine ⟨?_, ?_, ?_, ?_, ?_⟩
  · rw [isSuccess_compareFlows_iff, compareOutcomes_findings_eq_nil_iff rfl hsha]
  · rw [Bool.eq_iff_iff, isSuccess_compareFlows_iff, isSuccess_compareFlows_iff,
      compareOutcomes_findings_eq_nil_iff rfl hsha,
      compareOutcomes_findings_eq_nil_iff rfl hsymm]
    exact ⟨SameOutcome.symm, SameOutcome.symm⟩
  · rw [isSuccess_compareFlows_iff, compareOutcomes_findings_eq_nil_iff rfl fun _ => rfl]
    exact SameOutcome.refl _ _ _
  · intro baseline' candidate' hbaseline hcandidate
    rw [Bool.eq_iff_iff, isSuccess_compareFlows_iff, isSuccess_compareFlows_iff,
      compareOutcomes_reordered rfl hbaseline hcandidate]
  · intro expected actual hexpected hactual
    exact ⟨accountedFor_headers hexpected hactual, accountedFor_trailers hexpected hactual⟩

end Report

def datedFlow (date : String) (mode : String) : Flow :=
  { plainFlow [] with
    outcome := .response
      { status := 200
        headers := [{ name := "Date", value := date }, { name := "x-mode", value := mode }]
        body := .empty, trailers := [] } }

/-- The digests of the empty body and of `a`. -/
def sampleSha256 (body : Bytes) : String :=
  if body = [] then "e3b0c44298fc1c149afbf4c8996fb92427ae41e4649b934ca495991b7852b855"
  else "ca978112ca1bbdcafac231b39a23dc4da786eff8147c4e72b9807785afee48bb"

theorem dated_report_accounts_for_mode :
    fieldValues "X-Mode" [⟨"Date", "Mon"⟩, ⟨"x-mode", "fast"⟩] ≠
        fieldValues "X-Mode" [⟨"Date", "Tue"⟩, ⟨"x-mode", "slow"⟩] ∧
      mentions "response.headers.x-mode"
        (compareFlows sampleSha256 (datedFlow "Mon" "fast") (datedFlow "Tue" "slow") [] [97]
          .sequential).findings
        (compareFlows sampleSha256 (datedFlow "Mon" "fast") (datedFlow "Tue" "slow") [] [97]
          .sequential).suppressed = 1 := by
  have hne : fieldValues "X-Mode" [⟨"Date", "Mon"⟩, ⟨"x-mode", "fast"⟩] ≠
      fieldValues "X-Mode" [⟨"Date", "Tue"⟩, ⟨"x-mode", "slow"⟩] := by decide
  have hreport := @report_succeeds_iff sampleSha256 [] [97] (by decide)
    (datedFlow "Mon" "fast") (datedFlow "Tue" "slow") .sequential
  have hfield : "response.headers" ++ "." ++ toAsciiLowercase "X-Mode" =
      "response.headers.x-mode" := by decide
  have haccounted := (hreport.2.2.2.2 _ _ rfl rfl).1
  refine ⟨hne, ?_⟩
  rw [← hfield]
  exact haccounted "X-Mode" hne

end EggReplay.Core.ReportVerdicts
