import EggReplay.Core.FieldWildcards
import EggReplay.Core.NearMisses

/-!
Candidates that refer to their request bodies, and candidates that hold them: how far a
selection over the former agrees with one over the latter, and which bodies it loads.
-/

namespace EggReplay.Core.LazyBodies

open EggReplay.Library.Text
open EggReplay.Library.JsonText
open EggReplay.Core.FlowRecord
open EggReplay.Core.Redaction
open EggReplay.Core.Matching
open EggReplay.Core.BodyWildcards
open EggReplay.Core.Consumption
open EggReplay.Core.FieldWildcards
open EggReplay.Core.NearMisses

variable {N : Type}

/-! ### Candidates -/

/-- A flow without redaction markers, and the bytes of its request body. -/
structure StoredFlow (codec : BodyCodec N) where
  flow : Flow
  bytes : Bytes
  unredacted : flow.redactions = []
  describes : Describes codec bytes flow.request.body

def StoredFlow.lazy {codec : BodyCodec N} (stored : StoredFlow codec) : MatchCandidate :=
  .fromFlow stored.flow

def StoredFlow.materialized {codec : BodyCodec N} (stored : StoredFlow codec) : MatchCandidate :=
  .new stored.flow stored.bytes

def Serves {codec : BodyCodec N} (stored : List (StoredFlow codec)) (loader : Loader) : Prop :=
  ∀ index entry, stored[index]? = some entry → loader index entry.lazy = some entry.bytes

/-! ### Near misses without a comparison of bodies -/

def addBody (dimensions : List MatchDimension) : List MatchDimension :=
  if .body ∈ dimensions then dimensions else dimensions ++ [.body]

def NearMiss.withBody (miss : NearMiss) : NearMiss :=
  nearMiss miss.candidateIndex (addBody miss.dimensions)

/-- Every near miss differs in its body too. -/
def MatchResult.withBody : MatchResult → MatchResult
  | .matched index => .matched index
  | .noMatch near => .noMatch (sortMisses (near.map NearMiss.withBody))
  | .exhausted near => .exhausted (sortMisses (near.map NearMiss.withBody))

/-- The selection over references to the bodies, by the one over the bodies themselves. -/
def AgreesIn : BodyMatchMode → MatchResult × MatcherSession → MatchResult × MatcherSession → Prop
  | .exactBytes, lazy, materialized => lazy = materialized
  | .exactText, lazy, materialized => lazy = materialized
  | .semanticJson, lazy, materialized =>
      lazy = (MatchResult.withBody materialized.1, materialized.2)

/-! ### The loader -/

/-- The bytes that a redacted candidate is compared with, and the candidates that are loaded
for it. -/
def expectedBytesLogged (loader : Loader) (index : Nat) (candidate : MatchCandidate) :
    Option Bytes × List Nat :=
  match candidate.body with
  | .digest _ _ => (loader index candidate, [index])
  | .inline bytes =>
      if bytes ≠ [] then (some bytes, [])
      else if candidate.requestBody ≠ [] then (some candidate.requestBody, [])
      else (loader index candidate, [index])
  | .absent | .empty => (some [], [])

section

variable [DecidableEq N] (matcher : Matcher) (codec : BodyCodec N)

def bodyMatchesRedactedLogged (actualBody : Bytes) (index : Nat) (candidate : MatchCandidate)
    (loader : Loader) : Bool × List Nat :=
  let redactedJson := redactedBodyJsonPaths candidate.flow.redactions false
  let redactedForm := redactedBodyFormKeys candidate.flow.redactions
  match expectedBytesLogged loader index candidate with
  | (none, loads) => (false, loads)
  | (some expected, loads) =>
      let form := if redactedForm = ∅ then none
        else tryFormWildcard codec actualBody expected redactedForm
      match form with
      | some result => (result, loads)
      | none =>
          (bodyMatchWithJson codec actualBody expected (matcher.ignoredJsonPaths ∪ redactedJson),
            loads)

def bodyMatchesPlainLogged (actualBody : Bytes) (narrowed : Bool) (index : Nat)
    (candidate : MatchCandidate) (loader : Loader) : Bool × List Nat :=
  match candidate.body with
  | .absent | .empty => (decide (actualBody = []), [])
  | .digest sha256 length =>
      let same := decide (actualBody.length = length) && decide (codec.sha256 actualBody = sha256)
      match matcher.bodyMode with
      | .exactBytes => (same, [])
      | .exactText => (same && isUtf8 actualBody, [])
      | .semanticJson =>
          if narrowed = false then (false, [])
          else match loader index candidate with
            | some expected =>
                (bodyMatch codec .semanticJson actualBody expected matcher.ignoredJsonPaths,
                  [index])
            | none => (false, [index])
  | .inline expected =>
      let bytes := if expected = [] then candidate.requestBody else expected
      (bodyMatch codec matcher.bodyMode actualBody bytes matcher.ignoredJsonPaths, [])

def bodyMatchesLazyLogged (actualBody : Bytes) (narrowed : Bool) (index : Nat)
    (candidate : MatchCandidate) (loader : Loader) : Bool × List Nat :=
  if redactedBodyJsonPaths candidate.flow.redactions false ≠ ∅ ∨
      redactedBodyFormKeys candidate.flow.redactions ≠ ∅ then
    if narrowed = true then
      bodyMatchesRedactedLogged matcher codec actualBody index candidate loader
    else (false, [])
  else bodyMatchesPlainLogged matcher codec actualBody narrowed index candidate loader

/-- The loop over the candidates, with the indices that the loader is called for. -/
def selectFromLogged (actual : HttpRequest) (actualBody : Bytes) (mode : ConsumptionMode)
    (session : MatcherSession) (loader : Loader) :
    Nat → List MatchCandidate → Scan → (MatchResult × MatcherSession) × List Nat
  | _, [], scan => ((scan.result, session), [])
  | index, candidate :: rest, scan =>
      let dimensions := matcher.dimensions actual candidate
      let narrowed := decide (dimensions = [])
      let bodyMatch :=
        bodyMatchesLazyLogged matcher codec actualBody narrowed index candidate loader
      if narrowed = true ∧ bodyMatch.1 = true then
        if session.isAvailable index mode = true then
          ((.matched index, session.consume index mode), bodyMatch.2)
        else
          let later := selectFromLogged actual actualBody mode session loader (index + 1) rest
            { scan with matchingConsumed := true }
          (later.1, bodyMatch.2 ++ later.2)
      else
        let later := selectFromLogged actual actualBody mode session loader (index + 1) rest
          (scan.differs matcher index
            (dimensions ++ if bodyMatch.1 = true then [] else [.body]))
        (later.1, bodyMatch.2 ++ later.2)

/-- The candidates for which a selection calls the loader, in the order of the calls. -/
def loaded (actual : HttpRequest) (actualBody : Bytes) (candidates : List MatchCandidate)
    (mode : ConsumptionMode) (session : MatcherSession) (loader : Loader) : List Nat :=
  (selectFromLogged matcher codec actual actualBody mode session loader 0 candidates
    { near := [], matchingConsumed := false }).2

end

variable [DecidableEq N] {codec : BodyCodec N} {matcher : Matcher}

theorem expectedBytesLogged_fst (loader : Loader) (index : Nat) (candidate : MatchCandidate) :
    (expectedBytesLogged loader index candidate).1 = expectedBytes loader index candidate := by
  rw [expectedBytesLogged, expectedBytes]
  cases candidate.body with
  | absent => rfl
  | empty => rfl
  | digest sha256 length => rfl
  | inline bytes =>
      dsimp only
      split
      · rfl
      · split
        · rfl
        · rfl

theorem bodyMatchesRedactedLogged_fst (actualBody : Bytes) (index : Nat)
    (candidate : MatchCandidate) (loader : Loader) :
    (bodyMatchesRedactedLogged matcher codec actualBody index candidate loader).1 =
      matcher.bodyMatchesRedacted codec actualBody index candidate loader := by
  rw [bodyMatchesRedactedLogged, Matcher.bodyMatchesRedacted, ← expectedBytesLogged_fst]
  rcases expectedBytesLogged loader index candidate with ⟨_ | expected, loads⟩
  · rfl
  · dsimp only
    generalize (if redactedBodyFormKeys candidate.flow.redactions = ∅ then none
      else tryFormWildcard codec actualBody expected
        (redactedBodyFormKeys candidate.flow.redactions)) = form
    cases form with
    | none => rfl
    | some result => rfl

theorem bodyMatchesPlainLogged_fst (actualBody : Bytes) (narrowed : Bool) (index : Nat)
    (candidate : MatchCandidate) (loader : Loader) :
    (bodyMatchesPlainLogged matcher codec actualBody narrowed index candidate loader).1 =
      matcher.bodyMatchesPlain codec actualBody narrowed index candidate loader := by
  rw [bodyMatchesPlainLogged, Matcher.bodyMatchesPlain]
  cases candidate.body with
  | absent => rfl
  | empty => rfl
  | inline expected => rfl
  | digest sha256 length =>
      dsimp only
      cases matcher.bodyMode with
      | exactBytes => rfl
      | exactText => rfl
      | semanticJson =>
          dsimp only
          split
          · rfl
          · cases loader index candidate with
            | none => rfl
            | some expected => rfl

theorem bodyMatchesLazyLogged_fst (actualBody : Bytes) (narrowed : Bool) (index : Nat)
    (candidate : MatchCandidate) (loader : Loader) :
    (bodyMatchesLazyLogged matcher codec actualBody narrowed index candidate loader).1 =
      matcher.bodyMatchesLazy codec actualBody narrowed index candidate loader := by
  rw [bodyMatchesLazyLogged, Matcher.bodyMatchesLazy]
  split
  · cases narrowed with
    | false => rfl
    | true => exact bodyMatchesRedactedLogged_fst actualBody index candidate loader
  · exact bodyMatchesPlainLogged_fst actualBody narrowed index candidate loader

/-- The calls of the loader can be left out of account. -/
theorem selectFromLogged_fst (actual : HttpRequest) (actualBody : Bytes) (mode : ConsumptionMode)
    (session : MatcherSession) (loader : Loader) (index : Nat) (candidates : List MatchCandidate)
    (scan : Scan) :
    (selectFromLogged matcher codec actual actualBody mode session loader index candidates
        scan).1 =
      matcher.selectFrom codec actual actualBody mode session loader index candidates scan := by
  induction candidates generalizing index scan with
  | nil => rfl
  | cons candidate rest ih =>
      rw [selectFromLogged, Matcher.selectFrom]
      dsimp only
      rw [bodyMatchesLazyLogged_fst]
      split
      · split
        · rfl
        · exact ih (index + 1) _
      · exact ih (index + 1) _

theorem expectedBytesLogged_snd (loader : Loader) (index : Nat) (candidate : MatchCandidate) :
    (expectedBytesLogged loader index candidate).2.Sublist [index] := by
  rw [expectedBytesLogged]
  split
  · exact List.Sublist.refl _
  · split
    · exact List.nil_sublist _
    · split
      · exact List.nil_sublist _
      · exact List.Sublist.refl _
  · exact List.nil_sublist _
  · exact List.nil_sublist _

theorem bodyMatchesRedactedLogged_snd (actualBody : Bytes) (index : Nat)
    (candidate : MatchCandidate) (loader : Loader) :
    (bodyMatchesRedactedLogged matcher codec actualBody index candidate loader).2 =
      (expectedBytesLogged loader index candidate).2 := by
  rw [bodyMatchesRedactedLogged]
  rcases expectedBytesLogged loader index candidate with ⟨_ | expected, loads⟩
  · rfl
  · dsimp only
    split
    · rfl
    · rfl

/-- One candidate is loaded at most once, and only where no other dimension differs. -/
theorem bodyMatchesLazyLogged_snd (actualBody : Bytes) (narrowed : Bool) (index : Nat)
    (candidate : MatchCandidate) (loader : Loader) :
    (bodyMatchesLazyLogged matcher codec actualBody narrowed index candidate loader).2.Sublist
      (if narrowed = true then [index] else []) := by
  rw [bodyMatchesLazyLogged]
  split
  · split
    · rw [bodyMatchesRedactedLogged_snd]
      exact expectedBytesLogged_snd loader index candidate
    · exact List.nil_sublist _
  · rw [bodyMatchesPlainLogged]
    cases candidate.body with
    | absent => exact List.nil_sublist _
    | empty => exact List.nil_sublist _
    | inline expected => exact List.nil_sublist _
    | digest sha256 length =>
        dsimp only
        cases matcher.bodyMode with
        | exactBytes => exact List.nil_sublist _
        | exactText => exact List.nil_sublist _
        | semanticJson =>
            cases narrowed with
            | false => exact List.nil_sublist _
            | true =>
                cases loader index candidate with
                | none => exact List.Sublist.refl _
                | some expected => exact List.Sublist.refl _

/-- The candidates that differ in no dimension other than the body, the first of all of which has
the given index. -/
def narrowedFrom (matcher : Matcher) (actual : HttpRequest) : Nat → List MatchCandidate → List Nat
  | _, [] => []
  | index, candidate :: rest =>
      (if decide (matcher.dimensions actual candidate = []) = true then [index] else []) ++
        narrowedFrom matcher actual (index + 1) rest

theorem mem_narrowedFrom {actual : HttpRequest} {index found : Nat}
    {candidates : List MatchCandidate}
    (h : found ∈ narrowedFrom matcher actual index candidates) :
    ∃ k candidate, found = index + k ∧ candidates[k]? = some candidate ∧
      matcher.dimensions actual candidate = [] := by
  induction candidates generalizing index with
  | nil => exact absurd h List.not_mem_nil
  | cons candidate rest ih =>
      rw [narrowedFrom] at h
      rcases List.mem_append.mp h with hhead | hrest
      · split at hhead
        · rename_i hnarrowed
          exact ⟨0, candidate, List.mem_singleton.mp hhead, rfl, of_decide_eq_true hnarrowed⟩
        · exact absurd hhead List.not_mem_nil
      · obtain ⟨k, later, hfound, hlater, hdimensions⟩ := ih hrest
        exact ⟨k + 1, later, by omega, hlater, hdimensions⟩

theorem narrowedFrom_pairwise (actual : HttpRequest) (index : Nat)
    (candidates : List MatchCandidate) :
    (narrowedFrom matcher actual index candidates).Pairwise (· < ·) := by
  induction candidates generalizing index with
  | nil => exact List.Pairwise.nil
  | cons candidate rest ih =>
      rw [narrowedFrom]
      apply List.pairwise_append.mpr
      refine ⟨?_, ih (index + 1), ?_⟩
      · split
        · exact List.pairwise_singleton _ _
        · exact List.Pairwise.nil
      · intro left hleft right hright
        obtain ⟨k, later, rfl, -, -⟩ := mem_narrowedFrom hright
        split at hleft
        · obtain rfl := List.mem_singleton.mp hleft
          omega
        · exact absurd hleft List.not_mem_nil

theorem selectFromLogged_snd (actual : HttpRequest) (actualBody : Bytes) (mode : ConsumptionMode)
    (session : MatcherSession) (loader : Loader) (index : Nat) (candidates : List MatchCandidate)
    (scan : Scan) :
    (selectFromLogged matcher codec actual actualBody mode session loader index candidates
      scan).2.Sublist (narrowedFrom matcher actual index candidates) := by
  induction candidates generalizing index scan with
  | nil => exact List.Sublist.refl _
  | cons candidate rest ih =>
      have hhead := @bodyMatchesLazyLogged_snd N _ codec matcher actualBody
        (decide (matcher.dimensions actual candidate = [])) index candidate loader
      rw [selectFromLogged, narrowedFrom]
      dsimp only
      split
      · split
        · exact hhead.trans (List.sublist_append_left _ _)
        · exact hhead.append (ih (index + 1) _)
      · exact hhead.append (ih (index + 1) _)

/-- The candidates are loaded in their order, each once at most, and only those that differ in no
dimension other than the body. -/
structure LoadsNarrowed (matcher : Matcher) (actual : HttpRequest)
    (candidates : List MatchCandidate) (loads : List Nat) : Prop where
  once : loads.Nodup
  narrowed : ∀ index ∈ loads, ∃ candidate, candidates[index]? = some candidate ∧
    matcher.dimensions actual candidate = []

theorem loaded_narrowed (actual : HttpRequest) (actualBody : Bytes)
    (candidates : List MatchCandidate) (mode : ConsumptionMode) (session : MatcherSession)
    (loader : Loader) :
    LoadsNarrowed matcher actual candidates
      (loaded matcher codec actual actualBody candidates mode session loader) := by
  have hloads := @selectFromLogged_snd N _ codec matcher actual actualBody mode
    session loader 0 candidates { near := [], matchingConsumed := false }
  constructor
  · exact hloads.nodup ((narrowedFrom_pairwise actual 0 candidates).imp Nat.ne_of_lt)
  · intro index hindex
    obtain ⟨k, candidate, hk, hcandidate, hdimensions⟩ :=
      mem_narrowedFrom (hloads.subset hindex)
    rw [Nat.zero_add] at hk
    subst hk
    exact ⟨candidate, hcandidate, hdimensions⟩

/-! ### Near misses of both selections -/

theorem candidateIndex_withBody (miss : NearMiss) :
    (NearMiss.withBody miss).candidateIndex = miss.candidateIndex := rfl

/-- The order of the misses is settled once all of them are at hand. -/
theorem sortMisses_withBody {near : List NearMiss} (h : Indexed near) :
    sortMisses ((sortMisses near).map NearMiss.withBody) =
      sortMisses (near.map NearMiss.withBody) := by
  have hdistinct : (near.map NearMiss.withBody).Pairwise fun left right =>
      left.candidateIndex ≠ right.candidateIndex :=
    List.pairwise_map.mpr h.distinct
  have hperm : ((sortMisses near).map NearMiss.withBody).Perm (near.map NearMiss.withBody) :=
    (List.mergeSort_perm near _).map NearMiss.withBody
  have hsorted := hperm.pairwise_iff (R := fun left right : NearMiss =>
    left.candidateIndex ≠ right.candidateIndex) fun hne => hne.symm
  refine List.Perm.eq_of_pairwise ?_ (ordered_sortMisses_of_distinct (hsorted.mpr hdistinct))
    (ordered_sortMisses_of_distinct hdistinct) ?_
  · intro left right _ _ hless hgreater
    rw [Before] at hless hgreater
    omega
  · exact (List.mergeSort_perm _ _).trans (hperm.trans (List.mergeSort_perm _ _).symm)

/-- The misses that the loop has met before the candidate with the given index. -/
structure Earlier (index : Nat) (near : List NearMiss) : Prop where
  indexed : Indexed near
  less : ∀ miss ∈ near, miss.candidateIndex < index

theorem Earlier.succ {index : Nat} {near : List NearMiss} (h : Earlier index near) :
    Earlier (index + 1) near :=
  ⟨h.indexed, fun miss hmiss => Nat.lt_succ_of_lt (h.less miss hmiss)⟩

theorem Earlier.snoc {index : Nat} {near : List NearMiss} (h : Earlier index near)
    (dimensions : List MatchDimension) :
    Earlier (index + 1) (near ++ [nearMiss index dimensions]) := by
  constructor
  · apply List.pairwise_append.mpr
    refine ⟨h.indexed, List.pairwise_singleton _ _, ?_⟩
    intro left hleft right hright
    obtain rfl := List.mem_singleton.mp hright
    exact h.less left hleft
  · intro miss hmiss
    rcases List.mem_append.mp hmiss with hmiss | hmiss
    · exact Nat.lt_succ_of_lt (h.less miss hmiss)
    · obtain rfl := List.mem_singleton.mp hmiss
      exact Nat.lt_succ_self index

theorem Earlier.differs {index : Nat} {scan : Scan} (h : Earlier index scan.near)
    {dimensions : List MatchDimension} (hdiffers : dimensions ≠ []) :
    Earlier (index + 1) (scan.differs matcher index dimensions).near := by
  rw [differs_of_ne_nil scan hdiffers]
  split
  · exact h.snoc dimensions
  · exact h.succ

def Scan.withBody (scan : Scan) : Scan :=
  { scan with near := scan.near.map NearMiss.withBody }

theorem addBody_ne_nil {dimensions : List MatchDimension} (h : dimensions ≠ []) :
    addBody dimensions ≠ [] := by
  rw [addBody]
  split
  · exact h
  · exact List.append_ne_nil_of_right_ne_nil _ (List.cons_ne_nil _ _)

theorem differs_withBody (scan : Scan) {index : Nat} {dimensions : List MatchDimension}
    (h : dimensions ≠ []) :
    Scan.withBody (scan.differs matcher index dimensions) =
      (Scan.withBody scan).differs matcher index (addBody dimensions) := by
  have hroom : (Scan.withBody scan).near.length = scan.near.length := List.length_map _
  rw [Scan.differs, Scan.differs, hroom]
  by_cases hspace : scan.near.length < matcher.maxNearMisses
  · rw [if_pos ⟨h, hspace⟩, if_pos ⟨addBody_ne_nil h, hspace⟩, Scan.withBody, Scan.withBody,
      List.map_append]
    rfl
  · rw [if_neg fun both => hspace both.2, if_neg fun both => hspace both.2]

theorem result_withBody {scan : Scan} (h : Indexed scan.near) :
    (Scan.withBody scan).result = MatchResult.withBody scan.result := by
  have hnear : sortMisses (Scan.withBody scan).near =
      sortMisses ((sortMisses scan.near).map NearMiss.withBody) :=
    (sortMisses_withBody h).symm
  have hconsumed : (Scan.withBody scan).matchingConsumed = scan.matchingConsumed := rfl
  rw [Scan.result, Scan.result, hconsumed]
  split
  · exact congrArg MatchResult.exhausted hnear
  · exact congrArg MatchResult.noMatch hnear

/-- A selection in which every differing candidate differs in its body too. -/
theorem selectFrom_withBody {arrival : Arrival} {mode : ConsumptionMode}
    {session : MatcherSession} {lazies candidates : List MatchCandidate} {index : Nat}
    {scan : Scan} (hearlier : Earlier index scan.near)
    (hlength : lazies.length = candidates.length)
    (h : ∀ k lazy candidate, lazies[k]? = some lazy → candidates[k]? = some candidate →
      differences codec matcher arrival (index + k) lazy =
        if differences codec matcher arrival (index + k) candidate = [] then []
        else addBody (differences codec matcher arrival (index + k) candidate)) :
    matcher.selectFrom codec arrival.request arrival.body mode session arrival.loader index
        lazies (Scan.withBody scan) =
      let selection := matcher.selectFrom codec arrival.request arrival.body mode session
        arrival.loader index candidates scan
      (MatchResult.withBody selection.1, selection.2) := by
  induction lazies generalizing candidates index scan with
  | nil =>
      obtain rfl := List.length_eq_zero_iff.mp hlength.symm
      rw [Matcher.selectFrom, Matcher.selectFrom, result_withBody hearlier.indexed]
  | cons lazy rest ih =>
      cases candidates with
      | nil => cases hlength
      | cons candidate rest' =>
          have hhead := h 0 lazy candidate rfl rfl
          rw [Nat.add_zero] at hhead
          have hrest : ∀ k lazy candidate, rest[k]? = some lazy → rest'[k]? = some candidate →
              differences codec matcher arrival (index + 1 + k) lazy =
                if differences codec matcher arrival (index + 1 + k) candidate = [] then []
                else addBody (differences codec matcher arrival (index + 1 + k) candidate) := by
            intro k next next' hnext hnext'
            have hstep := h (k + 1) next next' hnext hnext'
            rwa [← Nat.add_assoc, Nat.add_right_comm] at hstep
          rw [selectFrom_cons_differences, selectFrom_cons_differences, hhead]
          by_cases hsame : differences codec matcher arrival index candidate = []
          · rw [if_pos hsame, if_pos rfl, if_pos hsame]
            split
            · rfl
            · have hconsumed : Earlier (index + 1)
                  { scan with matchingConsumed := true : Scan }.near := hearlier.succ
              exact ih hconsumed (Nat.succ.inj hlength) hrest
          · rw [if_neg hsame, if_neg (addBody_ne_nil hsame), if_neg hsame,
              ← differs_withBody scan hsame]
            exact ih (hearlier.differs hsame) (Nat.succ.inj hlength) hrest

/-! ### Agreement -/

theorem bodyMatchesLazy_unredacted {candidate : MatchCandidate}
    (h : candidate.flow.redactions = []) (actualBody : Bytes) (narrowed : Bool) (index : Nat)
    (loader : Loader) :
    matcher.bodyMatchesLazy codec actualBody narrowed index candidate loader =
      matcher.bodyMatchesPlain codec actualBody narrowed index candidate loader := by
  rw [Matcher.bodyMatchesLazy, h]
  exact if_neg (by decide)

theorem bodyMatchesPlain_materialized (stored : StoredFlow codec) (actualBody : Bytes)
    (narrowed : Bool) (index : Nat) (loader : Loader) :
    matcher.bodyMatchesPlain codec actualBody narrowed index stored.materialized loader =
      bodyMatch codec matcher.bodyMode actualBody stored.bytes matcher.ignoredJsonPaths := by
  rw [Matcher.bodyMatchesPlain, StoredFlow.materialized, MatchCandidate.new]
  dsimp only
  rw [ite_self]

omit [DecidableEq N] in
/-- The digest and the length of a body stand for its bytes. -/
theorem decide_same {stored : StoredFlow codec} {actualBody : Bytes} {reference : BlobRef}
    (hbody : stored.flow.request.body = .blob reference)
    (hdigest : codec.sha256 actualBody = codec.sha256 stored.bytes → actualBody = stored.bytes) :
    (decide (actualBody.length = reference.length) &&
        decide (codec.sha256 actualBody = reference.sha256)) =
      decide (actualBody = stored.bytes) := by
  have hdescribes := stored.describes
  rw [hbody, Describes] at hdescribes
  rw [hdescribes.1, hdescribes.2, ← Bool.decide_and]
  apply decide_eq_decide.mpr
  constructor
  · intro hsame
    exact hdigest hsame.2
  · rintro rfl
    exact ⟨rfl, rfl⟩

theorem bodyMatchesPlain_lazy_exact {stored : StoredFlow codec} {actualBody : Bytes}
    (hmode : matcher.bodyMode ≠ .semanticJson)
    (hdigest : codec.sha256 actualBody = codec.sha256 stored.bytes → actualBody = stored.bytes)
    (narrowed : Bool) (index : Nat) (loader : Loader) :
    matcher.bodyMatchesPlain codec actualBody narrowed index stored.lazy loader =
      bodyMatch codec matcher.bodyMode actualBody stored.bytes matcher.ignoredJsonPaths := by
  have hdescribes := stored.describes
  have hempty : stored.bytes = [] → decide (actualBody = []) =
      bodyMatch codec matcher.bodyMode actualBody stored.bytes matcher.ignoredJsonPaths := by
    intro hbytes
    rw [hbytes]
    cases hm : matcher.bodyMode with
    | exactBytes => rfl
    | semanticJson => exact absurd hm hmode
    | exactText =>
        rw [bodyMatch]
        by_cases hactual : actualBody = []
        · rw [hactual]
          decide
        · rw [decide_eq_false hactual, Bool.false_and]
  rw [Matcher.bodyMatchesPlain, StoredFlow.lazy, MatchCandidate.fromFlow]
  dsimp only
  cases hbody : stored.flow.request.body with
  | absent =>
      rw [hbody] at hdescribes
      exact hempty hdescribes
  | empty =>
      rw [hbody] at hdescribes
      exact hempty hdescribes
  | blob reference =>
      rw [CandidateBody.fromBodyRef]
      dsimp only
      rw [decide_same hbody hdigest]
      cases hm : matcher.bodyMode with
      | exactBytes => rfl
      | exactText => rfl
      | semanticJson => exact absurd hm hmode

theorem bodyMatch_semantic_nil (hempty : ∀ value, codec.fromSlice [] ≠ .ok value)
    {actual expected : Bytes} (h : actual = [] ∨ expected = []) (ignored : Finset String) :
    bodyMatch codec .semanticJson actual expected ignored = false := by
  have hnone : ∀ body : Bytes, body = [] → ∃ message, codec.fromSlice body = .error message := by
    rintro body rfl
    cases hparse : codec.fromSlice [] with
    | error message => exact ⟨message, rfl⟩
    | ok value => exact absurd hparse (hempty value)
  rw [bodyMatch, bodyMatchWithJson]
  rcases h with h | h
  · obtain ⟨message, hmessage⟩ := hnone actual h
    rw [hmessage]
  · obtain ⟨message, hmessage⟩ := hnone expected h
    rw [hmessage]
    split
    · contradiction
    · rfl

/-- Without other differences the stored body is loaded and compared as JSON; a candidate that
differs otherwise is not loaded. -/
theorem bodyMatchesPlain_lazy_semantic {stored : StoredFlow codec} {actualBody : Bytes}
    {index : Nat} {loader : Loader} (hmode : matcher.bodyMode = .semanticJson)
    (hempty : ∀ value, codec.fromSlice [] ≠ .ok value)
    (hreferred : actualBody = [] → ∃ reference, stored.flow.request.body = .blob reference)
    (hload : loader index stored.lazy = some stored.bytes) (narrowed : Bool) :
    matcher.bodyMatchesPlain codec actualBody narrowed index stored.lazy loader =
      (narrowed &&
        bodyMatch codec .semanticJson actualBody stored.bytes matcher.ignoredJsonPaths) := by
  have hdescribes := stored.describes
  have hnothing : stored.bytes = [] →
      (∀ reference, stored.flow.request.body ≠ .blob reference) → decide (actualBody = []) =
        (narrowed &&
          bodyMatch codec .semanticJson actualBody stored.bytes matcher.ignoredJsonPaths) := by
    intro hbytes hnot
    rw [bodyMatch_semantic_nil hempty (.inr hbytes), Bool.and_false]
    apply decide_eq_false
    intro hactual
    obtain ⟨reference, hreference⟩ := hreferred hactual
    exact hnot reference hreference
  rw [Matcher.bodyMatchesPlain, hmode, hload]
  rw [StoredFlow.lazy, MatchCandidate.fromFlow]
  dsimp only
  cases hbody : stored.flow.request.body with
  | absent =>
      rw [hbody] at hdescribes hnothing
      exact hnothing hdescribes (by rintro _ ⟨⟩)
  | empty =>
      rw [hbody] at hdescribes hnothing
      exact hnothing hdescribes (by rintro _ ⟨⟩)
  | blob reference =>
      rw [CandidateBody.fromBodyRef]
      dsimp only
      cases narrowed with
      | false => rfl
      | true => rfl

theorem body_not_mem_dimensions (actual : HttpRequest) (candidate : MatchCandidate) :
    MatchDimension.body ∉ matcher.dimensions actual candidate := by
  have hsingle : ∀ (p : Prop) [Decidable p] (dimension : MatchDimension),
      dimension ≠ .body → .body ∉ if p then [dimension] else [] := by
    intro p _ dimension hne
    split
    · rw [List.mem_singleton]
      exact hne.symm
    · exact List.not_mem_nil
  rw [Matcher.dimensions]
  simp only [List.mem_append, not_or]
  exact ⟨⟨⟨⟨hsingle _ _ (by rintro ⟨⟩), hsingle _ _ (by rintro ⟨⟩)⟩, hsingle _ _ (by rintro ⟨⟩)⟩, hsingle _ _ (by rintro ⟨⟩)⟩,
    hsingle _ _ (by rintro ⟨⟩)⟩

/-- A request, the stored flows it is matched against, and a loader for them. SHA-256 tells the
request body from the stored ones, and no JSON text is empty. -/
structure Setting (codec : BodyCodec N) where
  matcher : Matcher
  arrival : Arrival
  stored : List (StoredFlow codec)
  mode : ConsumptionMode
  session : MatcherSession
  serves : Serves stored arrival.loader
  distinguished : ∀ entry ∈ stored,
    codec.sha256 arrival.body = codec.sha256 entry.bytes → arrival.body = entry.bytes
  no_empty_json : ∀ value, codec.fromSlice [] ≠ .ok value

def Setting.lazySelection (setting : Setting codec) : MatchResult × MatcherSession :=
  selectArrival codec setting.matcher (setting.stored.map StoredFlow.lazy) setting.mode
    setting.session setting.arrival

def Setting.materializedSelection (setting : Setting codec) : MatchResult × MatcherSession :=
  selectArrival codec setting.matcher (setting.stored.map StoredFlow.materialized) setting.mode
    setting.session setting.arrival

def Setting.loads (setting : Setting codec) : List Nat :=
  loaded setting.matcher codec setting.arrival.request setting.arrival.body
    (setting.stored.map StoredFlow.lazy) setting.mode setting.session setting.arrival.loader

theorem differences_exact {setting : Setting codec}
    (hmode : setting.matcher.bodyMode ≠ .semanticJson) {entry : StoredFlow codec}
    (hentry : entry ∈ setting.stored) (index : Nat) :
    differences codec setting.matcher setting.arrival index entry.lazy =
      differences codec setting.matcher setting.arrival index entry.materialized := by
  have hdimensions : setting.matcher.dimensions setting.arrival.request entry.lazy =
      setting.matcher.dimensions setting.arrival.request entry.materialized := rfl
  rw [differences, differences, hdimensions, bodyMatchesLazy_unredacted entry.unredacted,
    bodyMatchesLazy_unredacted entry.unredacted,
    bodyMatchesPlain_materialized,
    bodyMatchesPlain_lazy_exact hmode (setting.distinguished entry hentry)]

theorem differences_semantic {setting : Setting codec}
    (hmode : setting.matcher.bodyMode = .semanticJson)
    (hreferred : setting.arrival.body = [] → ∀ entry ∈ setting.stored,
      ∃ reference, entry.flow.request.body = .blob reference)
    {index : Nat} {entry : StoredFlow codec} (hentry : setting.stored[index]? = some entry) :
    differences codec setting.matcher setting.arrival index entry.lazy =
      if differences codec setting.matcher setting.arrival index entry.materialized = [] then []
      else addBody (differences codec setting.matcher setting.arrival index
        entry.materialized) := by
  have hdimensions : setting.matcher.dimensions setting.arrival.request entry.lazy =
      setting.matcher.dimensions setting.arrival.request entry.materialized := rfl
  have hmem := List.mem_of_getElem? hentry
  have hno := @body_not_mem_dimensions setting.matcher setting.arrival.request
    entry.materialized
  rw [differences, differences, hdimensions, bodyMatchesLazy_unredacted entry.unredacted,
    bodyMatchesLazy_unredacted entry.unredacted,
    bodyMatchesPlain_materialized,
    bodyMatchesPlain_lazy_semantic hmode setting.no_empty_json
      (fun hactual => hreferred hactual entry hmem) (setting.serves index entry hentry), hmode]
  generalize setting.matcher.dimensions setting.arrival.request entry.materialized =
    dimensions at hno
  generalize bodyMatch codec .semanticJson setting.arrival.body entry.bytes
    setting.matcher.ignoredJsonPaths = same
  cases dimensions with
  | nil =>
      cases same with
      | false => rfl
      | true => rfl
  | cons dimension rest =>
      have hwithout : addBody (dimension :: rest) = dimension :: rest ++ [.body] := if_neg hno
      have hwith : addBody (dimension :: rest ++ [.body]) = dimension :: rest ++ [.body] :=
        if_pos (List.mem_append_right _ List.mem_cons_self)
      cases same with
      | false => exact hwith.symm
      | true =>
          rw [if_pos rfl, List.append_nil, hwithout]
          rfl

/-- Over references to the bodies a selection agrees with one over the bodies, except that in the
semantic mode a candidate that differs otherwise is listed as if its body differed too. Only
bodies of candidates without another difference are loaded, each once at most. -/
theorem lazy_selection_agrees (setting : Setting codec)
    (hreferred : setting.matcher.bodyMode = .semanticJson → setting.arrival.body = [] →
      ∀ entry ∈ setting.stored, ∃ reference, entry.flow.request.body = .blob reference) :
    AgreesIn setting.matcher.bodyMode setting.lazySelection setting.materializedSelection ∧
      LoadsNarrowed setting.matcher setting.arrival.request
        (setting.stored.map StoredFlow.lazy) setting.loads := by
  refine ⟨?_, loaded_narrowed _ _ _ _ _ _⟩
  have hlength : (setting.stored.map StoredFlow.lazy).length =
      (setting.stored.map StoredFlow.materialized).length := by
    rw [List.length_map, List.length_map]
  have hsame : ∀ (k : Nat) (lazy materialized : MatchCandidate),
      (setting.stored.map StoredFlow.lazy)[k]? = some lazy →
      (setting.stored.map StoredFlow.materialized)[k]? = some materialized →
        ∃ entry : StoredFlow codec, setting.stored[k]? = some entry ∧ entry.lazy = lazy ∧
          entry.materialized = materialized := by
    intro k lazy materialized hlazy hmaterialized
    rw [List.getElem?_map, Option.map_eq_some_iff] at hlazy hmaterialized
    obtain ⟨entry, hentry, rfl⟩ := hlazy
    obtain ⟨entry', hentry', rfl⟩ := hmaterialized
    obtain rfl := Option.some.inj (hentry.symm.trans hentry')
    exact ⟨entry, hentry, rfl, rfl⟩
  have hexact : setting.matcher.bodyMode ≠ .semanticJson →
      setting.lazySelection = setting.materializedSelection := by
    intro hmode
    apply selectFrom_congr hlength
    intro k lazy materialized hlazy hmaterialized
    obtain ⟨entry, hentry, rfl, rfl⟩ := hsame k lazy materialized hlazy hmaterialized
    exact differences_exact hmode (List.mem_of_getElem? hentry) _
  cases hmode : setting.matcher.bodyMode with
  | exactBytes => exact hexact (by rw [hmode]; rintro ⟨⟩)
  | exactText => exact hexact (by rw [hmode]; rintro ⟨⟩)
  | semanticJson =>
      have hstart : Earlier 0 ({ near := [], matchingConsumed := false } : Scan).near :=
        ⟨List.Pairwise.nil, fun miss hmiss => absurd hmiss List.not_mem_nil⟩
      apply selectFrom_withBody hstart hlength
      intro k lazy materialized hlazy hmaterialized
      obtain ⟨entry, hentry, rfl, rfl⟩ := hsame k lazy materialized hlazy hmaterialized
      rw [Nat.zero_add]
      exact differences_semantic hmode (hreferred hmode) hentry

/-! ### A candidate that is not loaded -/

/-- The text `1`, under its digest. -/
def oneCodec : BodyCodec Nat :=
  { sampleCodec with
    sha256 := fun body =>
      if body = [0x31] then "6b86b273ff34fce19d6b804eff5a3f5747ada4eaa22f1d49c01e52ddb7875b4b"
      else "" }

def oneReference : BlobRef where
  sha256 := "6b86b273ff34fce19d6b804eff5a3f5747ada4eaa22f1d49c01e52ddb7875b4b"
  length := 1

def oneAt (path : String) : StoredFlow oneCodec where
  flow := { plainFlow [] with
    request := { plainRequest with path := path, body := .blob oneReference } }
  bytes := [0x31]
  unredacted := rfl
  describes := ⟨rfl, rfl⟩

/-- A request for one path, and a recorded one for another path with the same body. -/
def elsewhere : Setting oneCodec where
  matcher := { Matcher.strict 4 with bodyMode := .semanticJson }
  arrival := {
    request := { plainRequest with path := "/a" }
    body := [0x31]
    loader := fun _ _ => some [0x31] }
  stored := [oneAt "/b"]
  mode := .once
  session := MatcherSession.new
  serves := by
    intro index entry hentry
    obtain rfl := List.mem_singleton.mp (List.mem_of_getElem? hentry)
    rfl
  distinguished := by
    intro entry hentry _
    obtain rfl := List.mem_singleton.mp hentry
    rfl
  no_empty_json := sampleCodec_lawful.parse_empty

/-- The body of the candidate is the same JSON text, but without a load it is listed as
different. -/
theorem unloaded_body_listed :
    ¬ ∀ setting : Setting oneCodec,
      setting.lazySelection = setting.materializedSelection ∧
        LoadsNarrowed setting.matcher setting.arrival.request
          (setting.stored.map StoredFlow.lazy) setting.loads := by
  intro h
  have hlazy : elsewhere.lazySelection.1 = .noMatch [nearMiss 0 [.path, .body]] := by
    decide +kernel
  have hmaterialized : elsewhere.materializedSelection.1 = .noMatch [nearMiss 0 [.path]] := by
    decide +kernel
  rw [(h elsewhere).1, hmaterialized] at hlazy
  exact absurd hlazy (by decide)

theorem elsewhere_selection_agrees :
    AgreesIn .semanticJson elsewhere.lazySelection elsewhere.materializedSelection ∧
      LoadsNarrowed elsewhere.matcher elsewhere.arrival.request
        (elsewhere.stored.map StoredFlow.lazy) elsewhere.loads :=
  lazy_selection_agrees elsewhere fun _ hbody => absurd hbody (List.cons_ne_nil _ _)

end EggReplay.Core.LazyBodies
