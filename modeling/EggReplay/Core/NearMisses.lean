import EggReplay.Core.Consumption

/-!
The near misses of a selection that matched nothing: which of the differing candidates are
listed, and when these are the closest ones.
-/

namespace EggReplay.Core.NearMisses

open EggReplay.Library.Text
open EggReplay.Core.FlowRecord
open EggReplay.Core.Redaction
open EggReplay.Core.Matching
open EggReplay.Core.BodyWildcards
open EggReplay.Core.Consumption

/-! ### Shortlists -/

/-- The order of near misses: by cost, then by candidate. -/
def Before (left right : NearMiss) : Prop :=
  left.cost < right.cost ∨ left.cost = right.cost ∧ left.candidateIndex < right.candidateIndex

/-- The `bound` cheapest of all misses, in order. -/
structure Closest (bound : Nat) (all near : List NearMiss) : Prop where
  length : near.length = min bound all.length
  ordered : near.Pairwise Before
  subset : ∀ miss ∈ near, miss ∈ all
  cheapest : ∀ miss ∈ all, miss ∉ near → ∀ listed ∈ near, Before listed miss

/-- Misses in the order of their candidates. -/
def Indexed (misses : List NearMiss) : Prop :=
  misses.Pairwise fun left right => left.candidateIndex < right.candidateIndex

def sortMisses (misses : List NearMiss) : List NearMiss :=
  misses.mergeSort fun a b =>
    decide (a.cost < b.cost ∨ a.cost = b.cost ∧ a.candidateIndex ≤ b.candidateIndex)

variable {bound : Nat} {all : List NearMiss}

theorem Indexed.nodup (h : Indexed all) : all.Nodup := by
  apply h.imp
  rintro left right hless rfl
  exact absurd hless (Nat.lt_irrefl _)

theorem sortMisses_pairwise (misses : List NearMiss) :
    (sortMisses misses).Pairwise fun a b =>
      a.cost < b.cost ∨ a.cost = b.cost ∧ a.candidateIndex ≤ b.candidateIndex := by
  have h : (sortMisses misses).Pairwise fun a b : NearMiss =>
      decide (a.cost < b.cost ∨ a.cost = b.cost ∧ a.candidateIndex ≤ b.candidateIndex) = true := by
    apply List.pairwise_mergeSort
    · intro a b c hab hbc
      rw [decide_eq_true_eq] at hab hbc ⊢
      omega
    · intro a b
      rw [Bool.or_eq_true, decide_eq_true_eq, decide_eq_true_eq]
      omega
  exact h.imp fun hle => of_decide_eq_true hle

/-- Candidates are listed once, so that the sorted list is strictly ordered. -/
theorem ordered_sortMisses_of_distinct
    (h : all.Pairwise fun left right => left.candidateIndex ≠ right.candidateIndex) :
    (sortMisses all).Pairwise Before := by
  have hindices : (sortMisses all).Pairwise fun a b => a.candidateIndex ≠ b.candidateIndex :=
    ((List.mergeSort_perm all _).pairwise_iff fun hne => hne.symm).mpr h
  refine (sortMisses_pairwise all).imp₂ ?_ hindices
  intro left right hle hne
  rw [Before]
  omega

theorem Indexed.distinct (h : Indexed all) :
    all.Pairwise fun left right => left.candidateIndex ≠ right.candidateIndex :=
  h.imp Nat.ne_of_lt

theorem ordered_sortMisses (h : Indexed all) : (sortMisses all).Pairwise Before :=
  ordered_sortMisses_of_distinct h.distinct

/-- The first misses are the closest ones where none that follows is cheaper. -/
theorem closest_take_iff (h : Indexed all) :
    Closest bound all (sortMisses (all.take bound)) ↔
      ∀ later ∈ all.drop bound, ∀ earlier ∈ all.take bound, earlier.cost ≤ later.cost := by
  have hsplit : (all.take bound ++ all.drop bound).Pairwise fun left right =>
      left.candidateIndex < right.candidateIndex := by
    rw [List.take_append_drop]
    exact h
  obtain ⟨htake, hdrop, hacross⟩ := List.pairwise_append.mp hsplit
  have hmem : ∀ miss, miss ∈ sortMisses (all.take bound) ↔ miss ∈ all.take bound :=
    fun miss => List.mem_mergeSort
  constructor
  · intro hclosest later hlater earlier hearlier
    have hunlisted : later ∉ sortMisses (all.take bound) := by
      intro hlisted
      exact Nat.lt_irrefl _ (hacross later ((hmem later).mp hlisted) later hlater)
    have hbefore := hclosest.cheapest later (List.mem_of_mem_drop hlater) hunlisted earlier
      ((hmem earlier).mpr hearlier)
    rw [Before] at hbefore
    omega
  · intro hcheaper
    refine ⟨?_, ordered_sortMisses htake, ?_, ?_⟩
    · rw [sortMisses, List.length_mergeSort, List.length_take]
    · intro miss hmiss
      exact List.mem_of_mem_take ((hmem miss).mp hmiss)
    · intro miss hmiss hunlisted listed hlisted
      rw [hmem] at hunlisted hlisted
      rw [← List.take_append_drop bound all, List.mem_append] at hmiss
      have hlater := hmiss.resolve_left hunlisted
      have hcost := hcheaper miss hlater listed hlisted
      have hindex := hacross listed hlisted miss hlater
      rw [Before]
      omega

/-! ### The differing candidates -/

section

variable {N : Type} [DecidableEq N] (codec : BodyCodec N) (matcher : Matcher)

/-- Every dimension in which the candidate differs; none where it matches. -/
def differences (arrival : Arrival) (index : Nat) (candidate : MatchCandidate) :
    List MatchDimension :=
  let dimensions := matcher.dimensions arrival.request candidate
  dimensions ++
    if matcher.bodyMatchesLazy codec arrival.body (decide (dimensions = [])) index candidate
      arrival.loader = true then [] else [.body]

def nearMiss (index : Nat) (dimensions : List MatchDimension) : NearMiss where
  candidateIndex := index
  cost := min dimensions.length 255
  dimensions := dimensions
  summary := "candidate differs in explicit request dimensions"

/-- The misses of the candidates that differ, the first of which has the given index. -/
def allMisses (arrival : Arrival) : Nat → List MatchCandidate → List NearMiss
  | _, [] => []
  | index, candidate :: rest =>
      let dimensions := differences codec matcher arrival index candidate
      if dimensions = [] then allMisses arrival (index + 1) rest
      else nearMiss index dimensions :: allMisses arrival (index + 1) rest

end

def listedMisses : MatchResult → Option (List NearMiss)
  | .matched _ => none
  | .noMatch near => some near
  | .exhausted near => some near

variable {N : Type} [DecidableEq N] {codec : BodyCodec N} {matcher : Matcher}

theorem le_of_mem_allMisses {arrival : Arrival} {index : Nat} {candidates : List MatchCandidate}
    {miss : NearMiss} (h : miss ∈ allMisses codec matcher arrival index candidates) :
    index ≤ miss.candidateIndex := by
  induction candidates generalizing index with
  | nil => exact absurd h List.not_mem_nil
  | cons candidate rest ih =>
      rw [allMisses] at h
      split at h
      · exact Nat.le_of_succ_le (ih h)
      · rcases List.mem_cons.mp h with rfl | h
        · exact Nat.le_refl index
        · exact Nat.le_of_succ_le (ih h)

theorem indexed_allMisses (arrival : Arrival) (index : Nat) (candidates : List MatchCandidate) :
    Indexed (allMisses codec matcher arrival index candidates) := by
  induction candidates generalizing index with
  | nil => exact List.Pairwise.nil
  | cons candidate rest ih =>
      rw [allMisses]
      split
      · exact ih (index + 1)
      · refine List.Pairwise.cons ?_ (ih (index + 1))
        intro miss hmiss
        exact le_of_mem_allMisses hmiss

theorem differs_of_ne_nil (scan : Scan) {index : Nat} {dimensions : List MatchDimension}
    (h : dimensions ≠ []) :
    (scan.differs matcher index dimensions).near =
      if scan.near.length < matcher.maxNearMisses then
        scan.near ++ [nearMiss index dimensions] else scan.near := by
  rw [Scan.differs]
  split
  · rename_i hspace
    rw [if_pos hspace.2]
    rfl
  · rename_i hspace
    rw [if_neg fun hless => hspace ⟨h, hless⟩]

theorem differences_eq_nil {arrival : Arrival} {index : Nat} {candidate : MatchCandidate} :
    differences codec matcher arrival index candidate = [] ↔
      matcher.dimensions arrival.request candidate = [] ∧
        matcher.bodyMatchesLazy codec arrival.body true index candidate arrival.loader = true := by
  rw [differences, List.append_eq_nil_iff]
  apply and_congr_right
  intro hnarrowed
  rw [decide_eq_true hnarrowed]
  split
  · rename_i hbody
    exact ⟨fun _ => hbody, fun _ => rfl⟩
  · rename_i hbody
    exact ⟨(by rintro ⟨⟩), fun h => absurd h hbody⟩

/-- One candidate of the loop, by the dimensions in which it differs. -/
theorem selectFrom_cons_differences (arrival : Arrival) (mode : ConsumptionMode)
    (session : MatcherSession) (index : Nat) (candidate : MatchCandidate)
    (rest : List MatchCandidate) (scan : Scan) :
    matcher.selectFrom codec arrival.request arrival.body mode session arrival.loader index
        (candidate :: rest) scan =
      if differences codec matcher arrival index candidate = [] then
        if session.isAvailable index mode = true then
          (.matched index, session.consume index mode)
        else matcher.selectFrom codec arrival.request arrival.body mode session arrival.loader
          (index + 1) rest { scan with matchingConsumed := true }
      else matcher.selectFrom codec arrival.request arrival.body mode session arrival.loader
        (index + 1) rest
          (scan.differs matcher index (differences codec matcher arrival index candidate)) := by
  rw [Matcher.selectFrom]
  have hmatches : (decide (matcher.dimensions arrival.request candidate = []) = true ∧
      matcher.bodyMatchesLazy codec arrival.body
        (decide (matcher.dimensions arrival.request candidate = [])) index candidate
        arrival.loader = true) ↔ differences codec matcher arrival index candidate = [] := by
    rw [differences_eq_nil, decide_eq_true_eq]
    apply and_congr_right
    intro hnarrowed
    rw [decide_eq_true hnarrowed]
  by_cases hsame : differences codec matcher arrival index candidate = []
  · rw [if_pos hsame, if_pos (hmatches.mpr hsame)]
  · rw [if_neg hsame, if_neg fun h => hsame (hmatches.mp h)]
    rfl

/-- A selection depends on the dimensions in which each candidate differs, and on nothing else
of the request and the candidates. -/
theorem selectFrom_congr {N' : Type} [DecidableEq N'] {codec' : BodyCodec N'}
    {arrival arrival' : Arrival} {mode : ConsumptionMode} {session : MatcherSession}
    {candidates candidates' : List MatchCandidate} {index : Nat} {scan : Scan}
    (hlength : candidates.length = candidates'.length)
    (h : ∀ k candidate candidate', candidates[k]? = some candidate →
      candidates'[k]? = some candidate' →
        differences codec matcher arrival (index + k) candidate =
          differences codec' matcher arrival' (index + k) candidate') :
    matcher.selectFrom codec arrival.request arrival.body mode session arrival.loader index
        candidates scan =
      matcher.selectFrom codec' arrival'.request arrival'.body mode session arrival'.loader index
        candidates' scan := by
  induction candidates generalizing candidates' index scan with
  | nil =>
      obtain rfl := List.length_eq_zero_iff.mp hlength.symm
      rfl
  | cons candidate rest ih =>
      cases candidates' with
      | nil => cases hlength
      | cons candidate' rest' =>
          have hhead := h 0 candidate candidate' rfl rfl
          rw [Nat.add_zero] at hhead
          have hrest : ∀ later : Scan,
              matcher.selectFrom codec arrival.request arrival.body mode session arrival.loader
                  (index + 1) rest later =
                matcher.selectFrom codec' arrival'.request arrival'.body mode session
                  arrival'.loader (index + 1) rest' later := by
            intro later
            apply ih (Nat.succ.inj hlength)
            intro k next next' hnext hnext'
            have hstep := h (k + 1) next next' hnext hnext'
            rwa [← Nat.add_assoc, Nat.add_right_comm] at hstep
          rw [selectFrom_cons_differences, selectFrom_cons_differences, hhead, hrest, hrest]

/-- The scan keeps the first misses that it has room for. -/
theorem listedMisses_selectFrom (arrival : Arrival) (mode : ConsumptionMode)
    (session : MatcherSession) (index : Nat) (candidates : List MatchCandidate) (scan : Scan)
    {near : List NearMiss}
    (h : listedMisses (matcher.selectFrom codec arrival.request arrival.body mode session
      arrival.loader index candidates scan).1 = some near) :
    near = sortMisses (scan.near ++ (allMisses codec matcher arrival index candidates).take
      (matcher.maxNearMisses - scan.near.length)) := by
  induction candidates generalizing index scan with
  | nil =>
      rw [Matcher.selectFrom, Scan.result] at h
      rw [allMisses, List.take_nil, List.append_nil]
      dsimp only at h
      split at h
      · exact (Option.some.inj h).symm
      · exact (Option.some.inj h).symm
  | cons candidate rest ih =>
      rw [selectFrom_cons_differences] at h
      rw [allMisses]
      split at h
      · rename_i hsame
        rw [if_pos hsame]
        split at h
        · cases h
        · exact ih (index + 1) { scan with matchingConsumed := true } h
      · rename_i hdiffers
        rw [if_neg hdiffers]
        have hrest := ih (index + 1) _ h
        rw [differs_of_ne_nil scan hdiffers] at hrest
        split at hrest
        · rename_i hspace
          obtain ⟨room, hroom⟩ : ∃ room, matcher.maxNearMisses - scan.near.length = room + 1 :=
            ⟨matcher.maxNearMisses - scan.near.length - 1, by omega⟩
          have hleft : matcher.maxNearMisses - (scan.near ++ [nearMiss index
              (differences codec matcher arrival index candidate)]).length = room := by
            rw [List.length_append, List.length_singleton]
            omega
          rw [hroom, List.take_succ_cons, hrest, hleft, List.append_assoc]
          rfl
        · rename_i hspace
          have hfull : matcher.maxNearMisses - scan.near.length = 0 := by omega
          rw [hfull, List.take_zero] at hrest ⊢
          exact hrest

/-- The near misses of a selection without a match are the closest candidates exactly where no
candidate that follows the first `maxNearMisses` differing ones is cheaper than one of them. -/
theorem near_misses_closest_iff (arrival : Arrival) (candidates : List MatchCandidate)
    (mode : ConsumptionMode) (session : MatcherSession) {near : List NearMiss}
    (hlisted : listedMisses (selectArrival codec matcher candidates mode session arrival).1 =
      some near) :
    Closest matcher.maxNearMisses (allMisses codec matcher arrival 0 candidates) near ↔
      ∀ later ∈ (allMisses codec matcher arrival 0 candidates).drop matcher.maxNearMisses,
        ∀ earlier ∈ (allMisses codec matcher arrival 0 candidates).take matcher.maxNearMisses,
          earlier.cost ≤ later.cost := by
  have hnear := listedMisses_selectFrom arrival mode session 0 candidates _ hlisted
  rw [List.nil_append, List.length_nil, Nat.sub_zero] at hnear
  rw [hnear]
  exact closest_take_iff (indexed_allMisses arrival 0 candidates)

/-- The first candidate differs in more dimensions than the second one. -/
def unorderedCandidates : List MatchCandidate :=
  [.fromFlow { plainFlow [] with request := { plainRequest with path := "/b", method := "GET" } },
    .fromFlow (flowAt "/c")]

theorem unordered_near_miss_not_closest :
    ¬ ∀ (matcher : Matcher) (arrival : Arrival) (candidates : List MatchCandidate)
      (mode : ConsumptionMode) (session : MatcherSession) (near : List NearMiss),
      listedMisses (selectArrival sampleCodec matcher candidates mode session arrival).1 =
          some near →
        Closest matcher.maxNearMisses (allMisses sampleCodec matcher arrival 0 candidates) near := by
  intro h
  have hclosest := h (Matcher.strict 1) (arrivalAt "/a") unorderedCandidates .once
    MatcherSession.new [nearMiss 0 [.path, .method]] (by decide +kernel)
  have hbefore := hclosest.cheapest (nearMiss 1 [.path]) (by decide) (by decide)
    (nearMiss 0 [.path, .method]) List.mem_cons_self
  rw [Before] at hbefore
  exact absurd hbefore (by decide)

theorem ordered_near_miss_closest :
    Closest 1 (allMisses sampleCodec (Matcher.strict 1) (arrivalAt "/a") 0
      unorderedCandidates.reverse) [nearMiss 0 [.path]] :=
  (@near_misses_closest_iff _ _ _ (Matcher.strict 1) (arrivalAt "/a")
    unorderedCandidates.reverse .once MatcherSession.new _ (by decide +kernel)).mpr
    (by decide)

end EggReplay.Core.NearMisses
