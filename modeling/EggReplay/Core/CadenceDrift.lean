import EggReplay.Core.Reports

/-!
The comparison of two response timelines: a relation on timelines without a cadence tolerance,
and a bound on how far they drift apart with one.
-/

namespace EggReplay.Core.CadenceDrift

open EggReplay.Library.Checks
open EggReplay.Library.Text
open EggReplay.Core.FlowRecord
open EggReplay.Core.StreamTimeline
open EggReplay.Core.Reports

/-- A timeline whose response the validation accepts. -/
structure ValidTimeline extends FlowStreamEvents where
  valid : validateDirection response = .ok ()

/-! ### Shapes -/

/-- An event up to the values of its trailers and the case of their names. -/
def shape : StreamEventKind → StreamEventKind
  | .trailers fields =>
      .trailers (fields.map fun field => { name := toAsciiLowercase field.name, value := "" })
  | .data offset length => .data offset length
  | .finish => .finish
  | .error offset category phase => .error offset category phase

def responseShape (events : FlowStreamEvents) : List StreamEventKind :=
  events.response.map fun event => shape event.event

theorem zip_all_iff {α β : Type} [DecidableEq β] (f : α → β) (left right : List α) :
    left.length = right.length ∧
        (left.zip right).all (fun pair => decide (f pair.1 = f pair.2)) = true ↔
      left.map f = right.map f := by
  induction left generalizing right with
  | nil =>
      cases right with
      | nil => simp
      | cons b right => simp
  | cons a left ih =>
      cases right with
      | nil => simp
      | cons b right =>
          rw [List.length_cons, List.length_cons, Nat.add_right_cancel_iff, List.zip_cons_cons,
            List.all_cons, Bool.and_eq_true, decide_eq_true_eq, List.map_cons, List.map_cons,
            List.cons.injEq, ← ih right]
          exact and_left_comm

theorem sameStreamEvent_iff (left right : StreamEventKind) :
    sameStreamEvent left right = true ↔ shape left = shape right := by
  cases left with
  | trailers left =>
      cases right with
      | trailers right =>
          have hnames := zip_all_iff (fun field : HeaderEntry => toAsciiLowercase field.name)
            left right
          rw [sameStreamEvent, shape, shape, Bool.and_eq_true, beq_iff_eq]
          simp only [eqIgnoreAsciiCase]
          rw [hnames, StreamEventKind.trailers.injEq]
          constructor
          · intro h
            have hmap := congrArg (List.map fun name => HeaderEntry.mk name "") h
            simpa only [List.map_map, Function.comp_def] using hmap
          · intro h
            have hmap := congrArg (List.map HeaderEntry.name) h
            simpa only [List.map_map, Function.comp_def] using hmap
      | data offset length => simp [sameStreamEvent, shape]
      | finish => simp [sameStreamEvent, shape]
      | error offset category phase => simp [sameStreamEvent, shape]
  | data offset length => cases right <;> simp [sameStreamEvent, shape]
  | finish => cases right <;> simp [sameStreamEvent, shape]
  | error offset category phase => cases right <;> simp [sameStreamEvent, shape, and_assoc]

theorem any_zip_iff (left right : List StreamEvent) :
    (left.length ≠ right.length ∨
        (left.zip right).any (fun pair => !sameStreamEvent pair.1.event pair.2.event) = true) ↔
      (left.map fun event => shape event.event) ≠ right.map fun event => shape event.event := by
  have hzip := zip_all_iff (fun event : StreamEvent => shape event.event) left right
  rw [ne_eq, ne_eq, ← hzip, not_and_or]
  apply or_congr_right
  rw [List.any_eq_true, Bool.not_eq_true, List.all_eq_false]
  apply exists_congr
  intro pair
  apply and_congr_right
  intro _
  rw [Bool.not_eq_true', ← Bool.not_eq_true, sameStreamEvent_iff, decide_eq_true_eq]

/-! ### Findings -/

def countFinding (left right : List StreamEvent) : DiffFinding :=
  { kind := .streamEvent, field := "stream.response.events",
    baseline := Nat.repr left.length ++ " ordered events",
    candidate := Nat.repr right.length ++ " ordered events" }

/-- What the comparison finds in the order in which it looks. -/
def foundEvents (baseline candidate : FlowStreamEvents) (tolerance : Option Nat) :
    List DiffFinding :=
  (if responseShape baseline ≠ responseShape candidate then
      [countFinding baseline.response candidate.response]
    else []) ++
    match tolerance with
    | some tolerance => cadenceFindings tolerance 0 0 0 baseline.response candidate.response
    | none => []

def byField (left right : DiffFinding) : Bool := decide (left.field ≤ right.field)

theorem compareStreamEvents_eq (baseline candidate : FlowStreamEvents)
    (tolerance : Option Nat) :
    compareStreamEvents baseline candidate tolerance =
      (foundEvents baseline candidate tolerance).mergeSort byField := by
  have hshape := any_zip_iff baseline.response candidate.response
  unfold compareStreamEvents foundEvents responseShape
  dsimp only
  rw [if_congr hshape rfl rfl]
  rfl

theorem compareStreamEvents_perm (baseline candidate : FlowStreamEvents)
    (tolerance : Option Nat) :
    (compareStreamEvents baseline candidate tolerance).Perm
      (foundEvents baseline candidate tolerance) := by
  rw [compareStreamEvents_eq]
  exact List.mergeSort_perm _ _

theorem compareStreamEvents_eq_nil {baseline candidate : FlowStreamEvents}
    {tolerance : Option Nat} :
    compareStreamEvents baseline candidate tolerance = [] ↔
      foundEvents baseline candidate tolerance = [] := by
  have hperm := compareStreamEvents_perm baseline candidate tolerance
  constructor
  · intro h
    rw [h] at hperm
    exact hperm.symm.eq_nil
  · intro h
    rw [h] at hperm
    exact hperm.eq_nil

theorem compareStreamEvents_none_eq_nil {baseline candidate : FlowStreamEvents} :
    compareStreamEvents baseline candidate none = [] ↔
      responseShape baseline = responseShape candidate := by
  rw [compareStreamEvents_eq_nil, foundEvents, List.append_nil]
  by_cases h : responseShape baseline = responseShape candidate
  · rw [if_neg (not_not.mpr h)]
    exact iff_of_true rfl h
  · rw [if_pos h]
    exact iff_of_false (List.cons_ne_nil _ _) h

/-! ### A wider tolerance -/

theorem cadenceFindings_sublist {narrow wide : Nat} (h : narrow ≤ wide)
    (index lastLeft lastRight : Nat) (left right : List StreamEvent) :
    (cadenceFindings wide index lastLeft lastRight left right).Sublist
      (cadenceFindings narrow index lastLeft lastRight left right) := by
  induction left generalizing index lastLeft lastRight right with
  | nil => exact List.Sublist.refl _
  | cons a left ih =>
      cases right with
      | nil => exact List.Sublist.refl _
      | cons b right =>
          have hrest := ih (index + 1) a.deltaNs b.deltaNs right
          rw [cadenceFindings, cadenceFindings]
          split_ifs with hwide hnarrow hnarrow
          · exact hrest.cons_cons _
          · omega
          · exact hrest.cons _
          · exact hrest

theorem foundEvents_sublist {narrow wide : Nat} (h : narrow ≤ wide)
    (baseline candidate : FlowStreamEvents) :
    (foundEvents baseline candidate (some wide)).Sublist
      (foundEvents baseline candidate (some narrow)) :=
  (List.Sublist.refl _).append (cadenceFindings_sublist h _ _ _ _ _)

/-! ### The two timelines exchanged -/

def exchanged (finding : DiffFinding) : DiffFinding :=
  { finding with baseline := finding.candidate, candidate := finding.baseline }

theorem cadenceFindings_exchanged (tolerance index lastLeft lastRight : Nat)
    (left right : List StreamEvent) :
    cadenceFindings tolerance index lastRight lastLeft right left =
      (cadenceFindings tolerance index lastLeft lastRight left right).map exchanged := by
  induction left generalizing index lastLeft lastRight right with
  | nil =>
      cases right with
      | nil => rfl
      | cons b right => rfl
  | cons a left ih =>
      cases right with
      | nil => rfl
      | cons b right =>
          have hgaps := Nat.add_comm (b.deltaNs - lastRight - (a.deltaNs - lastLeft))
            (a.deltaNs - lastLeft - (b.deltaNs - lastRight))
          rw [cadenceFindings, cadenceFindings, ih, hgaps]
          split_ifs
          · rfl
          · rfl

theorem foundEvents_exchanged (baseline candidate : FlowStreamEvents) (tolerance : Option Nat) :
    foundEvents candidate baseline tolerance =
      (foundEvents baseline candidate tolerance).map exchanged := by
  unfold foundEvents
  rw [List.map_append, if_congr ne_comm rfl rfl]
  congr 1
  · split_ifs
    · rfl
    · rfl
  · cases tolerance with
    | none => rfl
    | some tolerance => exact cadenceFindings_exchanged _ _ _ _ _ _

theorem compareStreamEvents_exchanged (baseline candidate : FlowStreamEvents)
    (tolerance : Option Nat) :
    compareStreamEvents candidate baseline tolerance =
      (compareStreamEvents baseline candidate tolerance).map exchanged := by
  rw [compareStreamEvents_eq, compareStreamEvents_eq, foundEvents_exchanged]
  have hsort := @List.map_mergeSort _ _ byField byField exchanged
    (foundEvents baseline candidate tolerance) fun _ _ _ _ => rfl
  exact hsort.symm

/-! ### Drift -/

theorem validateEvent_delta {state next : DirectionState} {event : StreamEvent}
    (h : validateEvent state event = .ok next) :
    state.lastDelta ≤ event.deltaNs ∧ next.lastDelta = event.deltaNs := by
  rcases event with ⟨delta, ⟨offset, length⟩ | fields | _ | ⟨offset, category, phase⟩⟩
  · obtain ⟨⟨-, hdelta, -⟩, -, rfl⟩ := validateEvent_data_eq_ok.mp h
    exact ⟨hdelta, rfl⟩
  · obtain ⟨⟨-, hdelta, -⟩, -, rfl⟩ := validateEvent_trailers_eq_ok.mp h
    exact ⟨hdelta, rfl⟩
  · obtain ⟨⟨-, hdelta, -⟩, rfl⟩ := validateEvent_finish_eq_ok.mp h
    exact ⟨hdelta, rfl⟩
  · obtain ⟨⟨-, hdelta, -⟩, -, rfl⟩ := validateEvent_error_eq_ok.mp h
    exact ⟨hdelta, rfl⟩

/-- Every event comes no earlier than the one before it, from a time on. -/
def Rising : Nat → List StreamEvent → Prop
  | _, [] => True
  | last, event :: rest => last ≤ event.deltaNs ∧ Rising event.deltaNs rest

theorem rising_of_checkFold {state final : DirectionState} {events : List StreamEvent}
    (h : checkFold validateEvent state events = .ok final) : Rising state.lastDelta events := by
  induction events generalizing state with
  | nil => exact True.intro
  | cons event rest ih =>
      rw [checkFold_cons, bind_eq_ok] at h
      obtain ⟨next, hstep, hrest⟩ := h
      obtain ⟨hdelta, hnext⟩ := validateEvent_delta hstep
      have hrising := ih hrest
      rw [hnext] at hrising
      exact ⟨hdelta, hrising⟩

theorem ValidTimeline.rising (timeline : ValidTimeline) : Rising 0 timeline.response := by
  obtain ⟨final, hfinal⟩ := validateDirection_eq_ok.mp timeline.valid
  exact rising_of_checkFold hfinal

/-- Where no gap is found, two timelines that lie `apart` so far drift by at most the tolerance
with each event. -/
theorem drift_of_cadenceFindings {tolerance index lastLeft lastRight apart : Nat}
    {left right : List StreamEvent}
    (h : cadenceFindings tolerance index lastLeft lastRight left right = [])
    (hleft : Rising lastLeft left) (hright : Rising lastRight right)
    (hapart : |(lastLeft : ℤ) - lastRight| ≤ apart) (i : Nat) (hi : i < left.length)
    (hj : i < right.length) :
    |(left[i].deltaNs : ℤ) - right[i].deltaNs| ≤ apart + (i + 1) * tolerance := by
  induction left generalizing index lastLeft lastRight apart right i with
  | nil => exact absurd hi (Nat.not_lt_zero _)
  | cons a left ih =>
      cases right with
      | nil => exact absurd hj (Nat.not_lt_zero _)
      | cons b right =>
          obtain ⟨ha, hleft⟩ := hleft
          obtain ⟨hb, hright⟩ := hright
          rw [cadenceFindings] at h
          split_ifs at h with hgap
          -- the gap is exact because neither subtraction saturates
          have hstep : |(a.deltaNs : ℤ) - b.deltaNs| ≤ (apart + tolerance : Nat) := by
            rw [abs_le] at hapart ⊢
            omega
          cases i with
          | zero =>
              rw [List.getElem_cons_zero, List.getElem_cons_zero]
              push_cast at hstep ⊢
              linarith
          | succ i =>
              have hrest := ih h hleft hright hstep i (Nat.lt_of_succ_lt_succ hi)
                (Nat.lt_of_succ_lt_succ hj)
              rw [List.getElem_cons_succ, List.getElem_cons_succ]
              push_cast at hrest ⊢
              linarith

theorem length_eq_of_responseShape {a b : FlowStreamEvents} (h : responseShape a = responseShape b) :
    a.response.length = b.response.length := by
  have hlength := congrArg List.length h
  rwa [responseShape, responseShape, List.length_map, List.length_map] at hlength

theorem drift_le {a b : ValidTimeline} {tolerance : Nat}
    (h : compareStreamEvents a.toFlowStreamEvents b.toFlowStreamEvents (some tolerance) = []) :
    a.response.length = b.response.length ∧
      ∀ (i : Nat) (hi : i < a.response.length) (hj : i < b.response.length),
        |(a.response[i].deltaNs : ℤ) - b.response[i].deltaNs| ≤ (i + 1) * tolerance := by
  obtain ⟨hcount, hcadence⟩ := List.append_eq_nil_iff.mp (compareStreamEvents_eq_nil.mp h)
  constructor
  · apply length_eq_of_responseShape
    by_contra hshape
    rw [if_pos hshape] at hcount
    cases hcount
  · intro i hi hj
    have hstart : |((0 : Nat) : ℤ) - (0 : Nat)| ≤ (0 : Nat) := by simp
    have hdrift := drift_of_cadenceFindings hcadence a.rising b.rising hstart i hi hj
    rwa [Nat.cast_zero, zero_add] at hdrift

/-- Without cadence the comparison is an equivalence; a wider tolerance finds no more, the
timelines can be exchanged, and a comparison that finds nothing bounds the drift. -/
theorem stream_comparison :
    (Equivalence fun a b : ValidTimeline =>
        compareStreamEvents a.toFlowStreamEvents b.toFlowStreamEvents none = []) ∧
      (∀ (a b : ValidTimeline) (narrow wide : Nat), narrow ≤ wide →
        (compareStreamEvents a.toFlowStreamEvents b.toFlowStreamEvents (some wide)).Subperm
          (compareStreamEvents a.toFlowStreamEvents b.toFlowStreamEvents (some narrow))) ∧
      (∀ (a b : ValidTimeline) (tolerance : Nat),
        compareStreamEvents b.toFlowStreamEvents a.toFlowStreamEvents (some tolerance) =
          (compareStreamEvents a.toFlowStreamEvents b.toFlowStreamEvents (some tolerance)).map
            exchanged) ∧
      ∀ (a b : ValidTimeline) (tolerance : Nat),
        compareStreamEvents a.toFlowStreamEvents b.toFlowStreamEvents (some tolerance) = [] →
        a.response.length = b.response.length ∧
          ∀ (i : Nat) (hi : i < a.response.length) (hj : i < b.response.length),
            |(a.response[i].deltaNs : ℤ) - b.response[i].deltaNs| ≤ (i + 1) * tolerance := by
  refine ⟨⟨?_, ?_, ?_⟩, ?_, ?_, ?_⟩
  · intro a
    exact compareStreamEvents_none_eq_nil.mpr rfl
  · intro a b hab
    rw [compareStreamEvents_none_eq_nil] at hab ⊢
    exact hab.symm
  · intro a b c hab hbc
    rw [compareStreamEvents_none_eq_nil] at hab hbc ⊢
    exact hab.trans hbc
  · intro a b narrow wide hle
    have hwide := compareStreamEvents_perm a.toFlowStreamEvents b.toFlowStreamEvents (some wide)
    have hnarrow := compareStreamEvents_perm a.toFlowStreamEvents b.toFlowStreamEvents
      (some narrow)
    have hfound := (foundEvents_sublist hle a.toFlowStreamEvents b.toFlowStreamEvents).subperm
    exact hwide.subperm.trans (hfound.trans hnarrow.symm.subperm)
  · intro a b tolerance
    exact compareStreamEvents_exchanged _ _ _
  · intro a b tolerance h
    exact drift_le h

/-- Two bytes and the end, the second byte after `second` nanoseconds. -/
def twoBytes (second : Nat) (h : second + 1 ≤ maxStreamDelayNs) : ValidTimeline where
  flowId := "flow"
  startOffsetNs := 0
  request := []
  response := [⟨0, .data 0 1⟩, ⟨second, .data 1 1⟩, ⟨second + 1, .finish⟩]
  valid := by
    have hsecond : second ≤ maxStreamDelayNs := Nat.le_of_succ_le h
    simp [validateDirection_eq_ok, validateEvent_data_eq_ok, validateEvent_finish_eq_ok, h,
      hsecond, saturatingAdd, u64Max]

theorem twoBytes_drift :
    (compareStreamEvents (twoBytes 100 (by decide)).toFlowStreamEvents
        (twoBytes 1000 (by decide)).toFlowStreamEvents (some 10000)).Subperm
        (compareStreamEvents (twoBytes 100 (by decide)).toFlowStreamEvents
          (twoBytes 1000 (by decide)).toFlowStreamEvents (some 10)) ∧
      |((100 : Nat) : ℤ) - (1000 : Nat)| ≤ ((1 : Nat) + 1) * (10000 : Nat) :=
  ⟨stream_comparison.2.1 _ _ 10 10000 (by decide),
    (stream_comparison.2.2.2 (twoBytes 100 (by decide)) (twoBytes 1000 (by decide)) 10000
      (by decide +kernel)).2 1 (by decide) (by decide)⟩

end EggReplay.Core.CadenceDrift
