import EggReplay.Core.Consumption

/-!
Redacted headers and query keys as wildcards of the strict matcher: what a redacted flow
is compared in, and that nothing else is left out of the comparison.
-/

namespace EggReplay.Core.FieldWildcards

open EggReplay.Library.Text
open EggReplay.Core.FlowRecord
open EggReplay.Core.Redaction
open EggReplay.Core.Matching
open EggReplay.Core.BodyWildcards
open EggReplay.Core.Consumption

/-! ### Header groups -/

/-- The values of one name, in order, whatever the letter case it is written in. -/
def headerValues (name : String) (headers : List HeaderEntry) : List String :=
  (headers.filter fun header => toAsciiLowercase header.name = name).map (·.value)

def valuesAt (name : String) : HeaderGroups → List String
  | [] => []
  | (other, values) :: rest => if other = name then values else valuesAt name rest

/-- Names in ascending order, each with a value. -/
structure Ordered (groups : HeaderGroups) : Prop where
  ascending : groups.Pairwise fun a b => a.1 < b.1
  nonempty : ∀ group ∈ groups, group.2 ≠ []

theorem Ordered.tail {group : String × List String} {groups : HeaderGroups}
    (h : Ordered (group :: groups)) : Ordered groups where
  ascending := (List.pairwise_cons.mp h.ascending).2
  nonempty := fun other hother => h.nonempty other (List.mem_cons_of_mem _ hother)

theorem valuesAt_eq_nil {name : String} {groups : HeaderGroups}
    (h : ∀ group ∈ groups, name < group.1) : valuesAt name groups = [] := by
  induction groups with
  | nil => rfl
  | cons group groups ih =>
      rw [valuesAt, if_neg (ne_of_gt (h group List.mem_cons_self))]
      exact ih fun other hother => h other (List.mem_cons_of_mem _ hother)

theorem fst_mem_pushGrouped {name value : String} {groups : HeaderGroups}
    {group : String × List String} (h : group ∈ pushGrouped name value groups) :
    group.1 = name ∨ ∃ other ∈ groups, group.1 = other.1 := by
  induction groups with
  | nil =>
      rw [pushGrouped, List.mem_singleton] at h
      exact .inl (by rw [h])
  | cons first rest ih =>
      obtain ⟨other, values⟩ := first
      rw [pushGrouped] at h
      split at h
      · rename_i heq
        rcases List.mem_cons.mp h with rfl | h
        · exact .inl heq.symm
        · exact .inr ⟨group, List.mem_cons_of_mem _ h, rfl⟩
      · split at h
        · rcases List.mem_cons.mp h with rfl | h
          · exact .inl rfl
          · exact .inr ⟨group, h, rfl⟩
        · rcases List.mem_cons.mp h with rfl | h
          · exact .inr ⟨(other, values), List.mem_cons_self, rfl⟩
          · rcases ih h with heq | ⟨found, hfound, heq⟩
            · exact .inl heq
            · exact .inr ⟨found, List.mem_cons_of_mem _ hfound, heq⟩

theorem ordered_pushGrouped {name value : String} {groups : HeaderGroups}
    (h : Ordered groups) : Ordered (pushGrouped name value groups) := by
  induction groups with
  | nil =>
      refine ⟨List.pairwise_singleton _ _, ?_⟩
      intro group hgroup
      rw [pushGrouped, List.mem_singleton] at hgroup
      simp [hgroup]
  | cons first rest ih =>
      obtain ⟨other, values⟩ := first
      have hascending := List.pairwise_cons.mp h.ascending
      rw [pushGrouped]
      split
      · refine ⟨List.pairwise_cons.mpr hascending, ?_⟩
        intro group hgroup
        rcases List.mem_cons.mp hgroup with rfl | hgroup
        · simp
        · exact h.nonempty group (List.mem_cons_of_mem _ hgroup)
      · rename_i hne
        split
        · rename_i hless
          refine ⟨List.pairwise_cons.mpr ⟨?_, h.ascending⟩, ?_⟩
          · intro group hgroup
            rcases List.mem_cons.mp hgroup with rfl | hgroup
            · exact hless
            · exact hless.trans (hascending.1 group hgroup)
          · intro group hgroup
            rcases List.mem_cons.mp hgroup with rfl | hgroup
            · simp
            · exact h.nonempty group hgroup
        · rename_i hnotLess
          have hother : other < name := lt_of_le_of_ne (not_lt.mp hnotLess) (Ne.symm hne)
          refine ⟨List.pairwise_cons.mpr ⟨?_, (ih h.tail).ascending⟩, ?_⟩
          · intro group hgroup
            rcases fst_mem_pushGrouped hgroup with heq | ⟨found, hfound, heq⟩
            · rwa [heq]
            · rw [heq]
              exact hascending.1 found hfound
          · intro group hgroup
            rcases List.mem_cons.mp hgroup with rfl | hgroup
            · exact h.nonempty _ List.mem_cons_self
            · exact (ih h.tail).nonempty group hgroup

theorem valuesAt_pushGrouped {name value : String} {groups : HeaderGroups}
    (h : Ordered groups) (wanted : String) :
    valuesAt wanted (pushGrouped name value groups) =
      valuesAt wanted groups ++ if name = wanted then [value] else [] := by
  induction groups with
  | nil =>
      rw [pushGrouped, valuesAt]
      rfl
  | cons first rest ih =>
      obtain ⟨other, values⟩ := first
      have hascending := List.pairwise_cons.mp h.ascending
      rw [pushGrouped]
      split
      · rename_i heq
        subst heq
        by_cases hwanted : name = wanted
        · simp [valuesAt, hwanted]
        · simp [valuesAt, hwanted]
      · rename_i hne
        split
        · rename_i hless
          by_cases hwanted : name = wanted
          · subst hwanted
            have hnone : valuesAt name ((other, values) :: rest) = [] := by
              apply valuesAt_eq_nil
              intro group hgroup
              rcases List.mem_cons.mp hgroup with rfl | hgroup
              · exact hless
              · exact hless.trans (hascending.1 group hgroup)
            rw [hnone, valuesAt, if_pos rfl, if_pos rfl]
            rfl
          · rw [valuesAt, if_neg hwanted, if_neg hwanted, List.append_nil]
        · by_cases hwanted : other = wanted
          · have hother : name ≠ wanted := fun heq => hne (heq.trans hwanted.symm)
            rw [valuesAt, valuesAt, if_pos hwanted, if_pos hwanted, if_neg hother,
              List.append_nil]
          · rw [valuesAt, valuesAt, if_neg hwanted, if_neg hwanted, ih h.tail]

theorem Ordered.eq_of_valuesAt {left right : HeaderGroups} (hleft : Ordered left)
    (hright : Ordered right) (h : ∀ name, valuesAt name left = valuesAt name right) :
    left = right := by
  induction left generalizing right with
  | nil =>
      rcases right with _ | ⟨⟨other, values⟩, rest⟩
      · rfl
      · have hvalues := h other
        rw [valuesAt, valuesAt, if_pos rfl] at hvalues
        exact absurd hvalues.symm (hright.nonempty _ List.mem_cons_self)
  | cons first rest ih =>
      obtain ⟨name, values⟩ := first
      have hascending := List.pairwise_cons.mp hleft.ascending
      have hhead := h name
      rw [valuesAt, if_pos rfl] at hhead
      have hvalues := hleft.nonempty _ List.mem_cons_self
      rcases right with _ | ⟨⟨other, others⟩, more⟩
      · exact absurd hhead hvalues
      · have hothers := List.pairwise_cons.mp hright.ascending
        have hfound := h other
        rw [valuesAt, valuesAt, if_pos rfl] at hfound
        -- the smaller of the two first names would be missing on the other side
        have heq : name = other := by
          rcases lt_trichotomy name other with hless | heq | hless
          · rw [valuesAt_eq_nil] at hhead
            · exact absurd hhead hvalues
            · intro group hgroup
              rcases List.mem_cons.mp hgroup with rfl | hgroup
              · exact hless
              · exact hless.trans (hothers.1 group hgroup)
          · exact heq
          · rw [if_neg (ne_of_gt hless), valuesAt_eq_nil] at hfound
            · exact absurd hfound.symm (hright.nonempty _ List.mem_cons_self)
            · exact fun group hgroup => hless.trans (hascending.1 group hgroup)
        subst heq
        rw [if_pos rfl] at hfound
        rw [hfound, ih hleft.tail hright.tail]
        intro wanted
        by_cases hwanted : name = wanted
        · subst hwanted
          rw [valuesAt_eq_nil hascending.1, valuesAt_eq_nil hothers.1]
        · have hrest := h wanted
          rwa [valuesAt, valuesAt, if_neg hwanted, if_neg hwanted] at hrest

theorem ordered_normalizeHeaders (headers : List HeaderEntry) (ignored : Finset String) :
    Ordered (normalizeHeaders headers ignored) := by
  unfold normalizeHeaders
  induction headers using List.reverseRecOn with
  | nil => exact ⟨List.Pairwise.nil, fun group hgroup => absurd hgroup List.not_mem_nil⟩
  | append_singleton before header ih =>
      rw [List.foldl_append]
      simp only [List.foldl_cons, List.foldl_nil]
      split
      · exact ih
      · exact ordered_pushGrouped ih

theorem valuesAt_normalizeHeaders (headers : List HeaderEntry) (ignored : Finset String)
    (name : String) :
    valuesAt name (normalizeHeaders headers ignored) =
      if name ∈ ignored then [] else headerValues name headers := by
  induction headers using List.reverseRecOn with
  | nil =>
      rw [normalizeHeaders, headerValues]
      simp [valuesAt]
  | append_singleton before header ih =>
      have hstep : normalizeHeaders (before ++ [header]) ignored =
          if toAsciiLowercase header.name ∈ ignored then normalizeHeaders before ignored
          else pushGrouped (toAsciiLowercase header.name) header.value
            (normalizeHeaders before ignored) := by
        rw [normalizeHeaders, List.foldl_append]
        rfl
      have hvalues : headerValues name (before ++ [header]) = headerValues name before ++
          if toAsciiLowercase header.name = name then [header.value] else [] := by
        rw [headerValues, List.filter_append, List.map_append, headerValues]
        by_cases h : toAsciiLowercase header.name = name
        · simp [h]
        · simp [h]
      rw [hstep, hvalues]
      by_cases hignored : toAsciiLowercase header.name ∈ ignored
      · rw [if_pos hignored, ih]
        split
        · rfl
        · rename_i hname
          have hne : toAsciiLowercase header.name ≠ name := by
            rintro rfl
            exact hname hignored
          rw [if_neg hne, List.append_nil]
      · rw [if_neg hignored, valuesAt_pushGrouped (ordered_normalizeHeaders before ignored), ih]
        split
        · rename_i hname
          have hne : toAsciiLowercase header.name ≠ name := by
            rintro rfl
            exact hignored hname
          rw [if_neg hne]
          rfl
        · rfl

/-- Equal groups are equal value lists for every name that is not ignored. -/
theorem normalizeHeaders_eq_iff {left right : List HeaderEntry} {ignored : Finset String} :
    normalizeHeaders left ignored = normalizeHeaders right ignored ↔
      ∀ name ∉ ignored, headerValues name left = headerValues name right := by
  constructor
  · intro h name hname
    have hvalues := congrArg (valuesAt name) h
    rwa [valuesAt_normalizeHeaders, valuesAt_normalizeHeaders, if_neg hname,
      if_neg hname] at hvalues
  · intro h
    apply (ordered_normalizeHeaders left ignored).eq_of_valuesAt
      (ordered_normalizeHeaders right ignored)
    intro name
    rw [valuesAt_normalizeHeaders, valuesAt_normalizeHeaders]
    split
    · rfl
    · rename_i hname
      exact h name hname

/-! ### Markers of a redacted flow -/

/-- The names of the request headers that the configuration redacts. -/
def redactedNames (config : RedactionConfig) (flow : Flow) : Finset String :=
  (flow.request.headers.map fun header => toAsciiLowercase header.name).toFinset.filter
    (· ∈ config.headers)

def redactedKeys (config : RedactionConfig) (flow : Flow) : Finset String :=
  (flow.request.query.map (·.key)).toFinset.filter (· ∈ config.queryKeys)

variable {config : RedactionConfig} {flow : Flow} {profile : String}

/-- Two strings that no string starts with both of. -/
def Apart (left right : String) : Prop :=
  ¬left.toList <+: right.toList ∧ ¬right.toList <+: left.toList

instance (left right : String) : Decidable (Apart left right) :=
  inferInstanceAs (Decidable (_ ∧ _))

theorem Apart.stripLead_eq_none {left right : String} (h : Apart left right)
    (tail : String) : stripLead (left ++ tail) right = none := by
  rw [stripLead, if_neg]
  rw [startsWith_iff, String.toList_append]
  intro hlead
  rcases Nat.le_total left.toList.length right.toList.length with hle | hle
  · exact h.1 (List.prefix_of_prefix_length_le (List.prefix_append _ _) hlead hle)
  · exact h.2 (List.prefix_of_prefix_length_le hlead (List.prefix_append _ _) hle)

theorem markedFields_headerMarkers_eq_nil {names : Finset String} {lead wanted : String}
    (headers : List HeaderEntry) (h : Apart (lead ++ ".") wanted) :
    markedFields wanted (headerMarkers names lead profile headers) = [] := by
  apply markedFields_eq_nil
  intro marker hmarker
  obtain ⟨header, -, rfl⟩ := List.mem_map.mp hmarker
  exact h.stripLead_eq_none _

theorem markedFields_queryMarkers_eq_nil {keys : Finset String} {wanted : String}
    (query : List QueryPair) (h : Apart "request.query." wanted) :
    markedFields wanted (queryMarkers keys profile query) = [] := by
  apply markedFields_eq_nil
  intro marker hmarker
  obtain ⟨pair, -, rfl⟩ := List.mem_map.mp hmarker
  exact h.stripLead_eq_none _

theorem markedFields_outcomeMarkers_eq_nil {names : Finset String} {wanted : String}
    (outcome : FlowOutcome) (hheaders : Apart ("response.headers" ++ ".") wanted)
    (htrailers : Apart ("response.trailers" ++ ".") wanted) :
    markedFields wanted (outcomeMarkers names profile outcome) = [] := by
  cases outcome with
  | response response =>
      rw [outcomeMarkers, markedFields_append, markedFields_headerMarkers_eq_nil _ hheaders,
        markedFields_headerMarkers_eq_nil _ htrailers, List.append_nil]
  | error failure => rfl

theorem markedFields_headerMarkers (names : Finset String) (headers : List HeaderEntry) :
    markedFields "request.headers." (headerMarkers names "request.headers" profile headers) =
      (headers.filter fun header => toAsciiLowercase header.name ∈ names).map (·.name) := by
  rw [markedFields, headerMarkers, List.filterMap_map]
  have hstrip : ((fun marker : RedactionMarker => stripLead marker.field "request.headers.") ∘
      fun header : HeaderEntry =>
        { field := "request.headers" ++ "." ++ header.name, profile := profile }) =
      some ∘ (·.name) := by
    funext header
    exact stripLead_append "request.headers." header.name
  exact (congrArg (fun f => (headers.filter _).filterMap f) hstrip).trans
    (congrFun List.filterMap_eq_map _)

theorem markedFields_queryMarkers (keys : Finset String) (query : List QueryPair) :
    markedFields "request.query." (queryMarkers keys profile query) =
      (query.filter fun pair => pair.key ∈ keys).map (·.key) := by
  rw [markedFields, queryMarkers, List.filterMap_map]
  have hstrip : ((fun marker : RedactionMarker => stripLead marker.field "request.query.") ∘
      fun pair : QueryPair => { field := "request.query." ++ pair.key, profile := profile }) =
      some ∘ (·.key) := by
    funext pair
    exact stripLead_append "request.query." pair.key
  exact (congrArg (fun f => (query.filter _).filterMap f) hstrip).trans
    (congrFun List.filterMap_eq_map _)

theorem redactedRequestHeaders_redactFlow :
    redactedRequestHeaders (redactFlow flow config profile).redactions =
      redactedRequestHeaders flow.redactions ∪ redactedNames config flow := by
  rw [redactedRequestHeaders, redactFlow]
  simp only [markedFields_append]
  rw [markedFields_headerMarkers, markedFields_headerMarkers_eq_nil _ (by decide),
    markedFields_outcomeMarkers_eq_nil _ (by decide) (by decide),
    markedFields_queryMarkers_eq_nil _ (by decide)]
  ext name
  simp [redactedRequestHeaders, redactedNames]
  aesop

theorem redactedRequestQuery_redactFlow :
    redactedRequestQuery (redactFlow flow config profile).redactions =
      redactedRequestQuery flow.redactions ∪ redactedKeys config flow := by
  rw [redactedRequestQuery, redactFlow]
  simp only [markedFields_append]
  rw [markedFields_queryMarkers, markedFields_headerMarkers_eq_nil _ (by decide),
    markedFields_headerMarkers_eq_nil _ (by decide),
    markedFields_outcomeMarkers_eq_nil _ (by decide) (by decide)]
  ext key
  simp [redactedRequestQuery, redactedKeys]
  aesop

theorem redactedBodyJsonPaths_redactFlow :
    redactedBodyJsonPaths (redactFlow flow config profile).redactions false =
      redactedBodyJsonPaths flow.redactions false := by
  rw [redactedBodyJsonPaths, if_neg (by simp), redactFlow]
  simp only [markedFields_append]
  rw [markedFields_queryMarkers_eq_nil _ (by decide),
    markedFields_headerMarkers_eq_nil _ (by decide),
    markedFields_headerMarkers_eq_nil _ (by decide),
    markedFields_outcomeMarkers_eq_nil _ (by decide) (by decide)]
  simp [redactedBodyJsonPaths]

theorem redactedBodyFormKeys_redactFlow :
    redactedBodyFormKeys (redactFlow flow config profile).redactions =
      redactedBodyFormKeys flow.redactions := by
  rw [redactedBodyFormKeys, redactFlow]
  simp only [markedFields_append]
  rw [markedFields_queryMarkers_eq_nil _ (by decide),
    markedFields_headerMarkers_eq_nil _ (by decide),
    markedFields_headerMarkers_eq_nil _ (by decide),
    markedFields_outcomeMarkers_eq_nil _ (by decide) (by decide)]
  simp [redactedBodyFormKeys]

/-! ### Comparison -/

/-- Agreement of two requests outside some headers and query keys. -/
structure AgreesApartFrom (names keys : Finset String) (actual recorded : HttpRequest) :
    Prop where
  method : actual.method = recorded.method
  scheme : toAsciiLowercase actual.scheme = toAsciiLowercase recorded.scheme
  authority : toAsciiLowercase actual.authority = toAsciiLowercase recorded.authority
  path : (if actual.path = "" then "/" else actual.path) =
    if recorded.path = "" then "/" else recorded.path
  headers : ∀ name ∉ names, headerValues name actual.headers = headerValues name recorded.headers
  query : (actual.query.filter fun pair => pair.key ∉ keys) =
    recorded.query.filter fun pair => pair.key ∉ keys

theorem headerValues_redactHeader {names ignored : Finset String} {headers : List HeaderEntry}
    {name : String} (h : name ∉ ignored)
    (hignored : ∀ header ∈ headers, toAsciiLowercase header.name ∈ names →
      toAsciiLowercase header.name ∈ ignored) :
    headerValues name (headers.map (redactHeader names)) = headerValues name headers := by
  induction headers with
  | nil => rfl
  | cons header rest ih =>
      have hrest := ih fun other hother => hignored other (List.mem_cons_of_mem _ hother)
      have hsame : toAsciiLowercase (redactHeader names header).name =
          toAsciiLowercase header.name := by
        unfold redactHeader
        split <;> rfl
      rw [headerValues] at hrest ⊢
      rw [List.map_cons, headerValues, List.filter_cons, List.filter_cons, hsame]
      by_cases hname : toAsciiLowercase header.name = name
      · have hkept : redactHeader names header = header := by
          rw [redactHeader, if_neg]
          intro hredacted
          exact h (hname ▸ hignored header List.mem_cons_self hredacted)
        rw [if_pos (by simpa using hname), if_pos (by simpa using hname), List.map_cons,
          List.map_cons, hrest, hkept]
        rfl
      · rw [if_neg (by simpa using hname), if_neg (by simpa using hname), hrest]
        rfl

theorem filter_redactPair {keys ignored : Finset String} {query : List QueryPair}
    (h : ∀ pair ∈ query, pair.key ∈ keys → pair.key ∈ ignored) :
    ((query.map (redactPair keys)).filter fun pair => pair.key ∉ ignored) =
      query.filter fun pair => pair.key ∉ ignored := by
  induction query with
  | nil => rfl
  | cons pair rest ih =>
      have hrest := ih fun other hother => h other (List.mem_cons_of_mem _ hother)
      have hsame : (redactPair keys pair).key = pair.key := by
        unfold redactPair
        split <;> rfl
      rw [List.map_cons, List.filter_cons, List.filter_cons, hsame, hrest]
      by_cases hkey : pair.key ∈ keys
      · rw [if_neg (by simpa using h pair List.mem_cons_self hkey),
          if_neg (by simpa using h pair List.mem_cons_self hkey)]
      · rw [redactPair, if_neg hkey]

theorem filterQuery_eq (query : List QueryPair) (redacted : Finset String) :
    filterQuery query redacted = query.filter fun pair => pair.key ∉ redacted := by
  rw [filterQuery]
  split
  · rename_i h
    simp [h]
  · rfl

theorem dimensions_eq_nil_iff_apart {matcher : Matcher} {actual : HttpRequest}
    {candidate : MatchCandidate} :
    matcher.dimensions actual candidate = [] ↔
      AgreesApartFrom
        (matcher.ignoredHeaders ∪ redactedRequestHeaders candidate.flow.redactions)
        (redactedRequestQuery candidate.flow.redactions) actual candidate.flow.request := by
  simp only [Matcher.dimensions, List.append_eq_nil_iff, ite_eq_right_iff, List.cons_ne_nil,
    imp_false, not_or, not_not, filterQuery_eq, normalizeHeaders_eq_iff]
  simp only [Matcher.normalize]
  constructor
  · rintro ⟨⟨⟨⟨⟨hscheme, hauthority⟩, hpath⟩, hquery⟩, hheaders⟩, hmethod⟩
    exact ⟨hmethod, hscheme, hauthority, hpath, hheaders, hquery⟩
  · rintro ⟨hmethod, hscheme, hauthority, hpath, hheaders, hquery⟩
    exact ⟨⟨⟨⟨⟨hscheme, hauthority⟩, hpath⟩, hquery⟩, hheaders⟩, hmethod⟩

theorem dimensions_eq_nil_iff {matcher : Matcher} {actual : HttpRequest}
    {candidate : MatchCandidate} (hignored : matcher.ignoredHeaders = ∅) :
    matcher.dimensions actual candidate = [] ↔
      AgreesApartFrom (redactedRequestHeaders candidate.flow.redactions)
        (redactedRequestQuery candidate.flow.redactions) actual candidate.flow.request := by
  rw [dimensions_eq_nil_iff_apart, hignored, Finset.empty_union]

/-- Redaction changes nothing that is compared outside the redacted fields. -/
theorem agreesApartFrom_redactFlow {names keys : Finset String} {actual : HttpRequest}
    (hnames : redactedNames config flow ⊆ names) (hkeys : redactedKeys config flow ⊆ keys) :
    AgreesApartFrom names keys actual (redactFlow flow config profile).request ↔
      AgreesApartFrom names keys actual flow.request := by
  have hheaders : ∀ name ∉ names,
      headerValues name (flow.request.headers.map (redactHeader config.headers)) =
        headerValues name flow.request.headers := by
    intro name hname
    apply headerValues_redactHeader hname
    intro header hheader hredacted
    apply hnames
    rw [redactedNames, Finset.mem_filter, List.mem_toFinset]
    exact ⟨List.mem_map_of_mem hheader, hredacted⟩
  have hquery := @filter_redactPair config.queryKeys keys flow.request.query <| by
    intro pair hpair hredacted
    apply hkeys
    rw [redactedKeys, Finset.mem_filter, List.mem_toFinset]
    exact ⟨List.mem_map_of_mem hpair, hredacted⟩
  constructor
  · rintro ⟨hmethod, hscheme, hauthority, hpath, hagree, hpairs⟩
    refine ⟨hmethod, hscheme, hauthority, hpath, ?_, hpairs.trans hquery⟩
    exact fun name hname => (hagree name hname).trans (hheaders name hname)
  · rintro ⟨hmethod, hscheme, hauthority, hpath, hagree, hpairs⟩
    refine ⟨hmethod, hscheme, hauthority, hpath, ?_, hpairs.trans hquery.symm⟩
    exact fun name hname => (hagree name hname).trans (hheaders name hname).symm

/-! ### Selection -/

variable {N : Type}

def Describes (codec : BodyCodec N) (body : Bytes) : BodyRef → Prop
  | .absent | .empty => body = []
  | .blob reference =>
      reference.sha256 = codec.sha256 body ∧ reference.length = body.length

/-- The two ways a flow becomes a candidate: with its body bytes, or with the reference
to them that the flow holds. -/
inductive CandidateOf (codec : BodyCodec N) (flow : Flow) (body : Bytes) :
    MatchCandidate → Prop
  | held : CandidateOf codec flow body (.new flow body)
  | stored (h : Describes codec body flow.request.body) :
      CandidateOf codec flow body (.fromFlow flow)

theorem CandidateOf.flow_eq {codec : BodyCodec N} {body : Bytes} {candidate : MatchCandidate}
    (h : CandidateOf codec flow body candidate) : candidate.flow = flow := by
  cases h <;> rfl

variable [DecidableEq N] {codec : BodyCodec N} {recordedBody actualBody : Bytes}
  {candidate : MatchCandidate}

theorem CandidateOf.bodyMatchesLazy_iff (h : CandidateOf codec flow recordedBody candidate)
    (hjson : redactedBodyJsonPaths flow.redactions false = ∅)
    (hform : redactedBodyFormKeys flow.redactions = ∅)
    (hdigest : codec.sha256 actualBody = codec.sha256 recordedBody → actualBody = recordedBody)
    (limit index : Nat) (narrowed : Bool) (loader : Loader) :
    (Matcher.strict limit).bodyMatchesLazy codec actualBody narrowed index candidate loader =
        true ↔ actualBody = recordedBody := by
  rw [Matcher.bodyMatchesLazy, if_neg (by simp [h.flow_eq, hjson, hform])]
  cases h with
  | held =>
      by_cases hempty : recordedBody = []
      · simp [Matcher.bodyMatchesPlain, MatchCandidate.new, bodyMatch, Matcher.strict,
          Matcher.new, hempty]
      · simp [Matcher.bodyMatchesPlain, MatchCandidate.new, bodyMatch, Matcher.strict,
          Matcher.new, hempty]
  | stored hbody =>
      rcases hreference : flow.request.body with _ | _ | reference
      · rw [hreference, Describes] at hbody
        simp [Matcher.bodyMatchesPlain, MatchCandidate.fromFlow, CandidateBody.fromBodyRef,
          hreference, hbody]
      · rw [hreference, Describes] at hbody
        simp [Matcher.bodyMatchesPlain, MatchCandidate.fromFlow, CandidateBody.fromBodyRef,
          hreference, hbody]
      · rw [hreference, Describes] at hbody
        simp only [Matcher.bodyMatchesPlain, MatchCandidate.fromFlow, CandidateBody.fromBodyRef,
          hreference, hbody, Matcher.strict, Matcher.new, Bool.and_eq_true, decide_eq_true_eq]
        constructor
        · exact fun hsame => hdigest hsame.2
        · rintro rfl
          exact ⟨rfl, rfl⟩

/-- The strict matcher finds no dimension of the only candidate to differ. -/
def Selected (codec : BodyCodec N) (limit : Nat) (arrival : Arrival)
    (candidate : MatchCandidate) : Prop :=
  (selectArrival codec (Matcher.strict limit) [candidate] .once MatcherSession.new arrival).1 =
    .matched 0

theorem selected_iff {limit : Nat} {arrival : Arrival} :
    Selected codec limit arrival candidate ↔
      matchesAt codec (Matcher.strict limit) arrival 0 candidate = true := by
  rw [Selected, (selectArrival_answer [candidate] .once MatcherSession.new arrival).matched_iff]
  constructor
  · rintro ⟨⟨found, hfound, hmatches⟩, -⟩
    obtain rfl := Option.some.inj hfound
    exact hmatches
  · intro hmatches
    exact ⟨⟨candidate, rfl, hmatches⟩, rfl, fun _ hless => absurd hless (Nat.not_lt_zero _)⟩

/-- A redacted flow is selected for exactly the requests that agree with the flow as it was
recorded, outside the fields that this or an earlier redaction marked. -/
theorem redactFlow_selected_iff {limit : Nat} {arrival : Arrival}
    (hcandidate : CandidateOf codec (redactFlow flow config profile) recordedBody candidate)
    (hjson : redactedBodyJsonPaths (redactFlow flow config profile).redactions false = ∅)
    (hform : redactedBodyFormKeys (redactFlow flow config profile).redactions = ∅)
    (hdigest : codec.sha256 arrival.body = codec.sha256 recordedBody →
      arrival.body = recordedBody) :
    Selected codec limit arrival candidate ↔
      AgreesApartFrom (redactedRequestHeaders flow.redactions ∪ redactedNames config flow)
          (redactedRequestQuery flow.redactions ∪ redactedKeys config flow) arrival.request
          flow.request ∧
        arrival.body = recordedBody := by
  rw [selected_iff, matchesAt, Bool.and_eq_true, decide_eq_true_eq,
    hcandidate.bodyMatchesLazy_iff hjson hform hdigest, dimensions_eq_nil_iff rfl,
    hcandidate.flow_eq, redactedRequestHeaders_redactFlow, redactedRequestQuery_redactFlow,
    agreesApartFrom_redactFlow Finset.subset_union_right Finset.subset_union_right]

def cookieFlow (redactions : List RedactionMarker) : Flow :=
  { plainFlow redactions with
    request := { plainRequest with headers := [{ name := "Cookie", value := "a" }] } }

def emptyArrival : Arrival where
  request := plainRequest
  body := []
  loader := fun _ _ => none

theorem cookieFlow_selected :
    Selected sampleCodec 0 emptyArrival
        (.new (redactFlow (cookieFlow []) .defaultSecure "default") []) ↔
      AgreesApartFrom
          (redactedRequestHeaders (cookieFlow []).redactions ∪
            redactedNames .defaultSecure (cookieFlow []))
          (redactedRequestQuery (cookieFlow []).redactions ∪
            redactedKeys .defaultSecure (cookieFlow []))
          emptyArrival.request (cookieFlow []).request ∧ emptyArrival.body = [] :=
  redactFlow_selected_iff .held (by decide) (by decide) fun _ => rfl

/-- A marker that the flow already carries is a wildcard too, although the configuration
redacts nothing. -/
theorem earlier_marker_is_wildcard :
    ¬∀ (flow : Flow) (config : RedactionConfig) (profile : String) (limit : Nat)
        (arrival : Arrival) (recordedBody : Bytes) (candidate : MatchCandidate),
      (∀ name ∈ config.headers, toAsciiLowercase name = name) →
      CandidateOf sampleCodec (redactFlow flow config profile) recordedBody candidate →
      redactedBodyJsonPaths (redactFlow flow config profile).redactions false = ∅ →
      redactedBodyFormKeys (redactFlow flow config profile).redactions = ∅ →
      (Selected sampleCodec limit arrival candidate ↔
        AgreesApartFrom (redactedNames config flow) (redactedKeys config flow) arrival.request
            flow.request ∧
          arrival.body = recordedBody) := by
  intro h
  let marked := cookieFlow [{ field := "request.headers.cookie", profile := "default" }]
  let config : RedactionConfig := { headers := ∅, queryKeys := ∅, jsonPaths := ∅ }
  have hiff := h marked config "default" 0 emptyArrival []
    (.new (redactFlow marked config "default") []) (by simp [config]) .held
    (by decide) (by decide)
  have hselected : Selected sampleCodec 0 emptyArrival
      (.new (redactFlow marked config "default") []) := by
    unfold Selected
    decide
  have hcookie := (hiff.mp hselected).1.headers "cookie" (by simp [redactedNames, config])
  exact absurd hcookie (by decide)

end EggReplay.Core.FieldWildcards
