import EggReplay.Library.TransitionSystem

/-!
What a run has emitted: a history beside the state of a system, and the invariant rule for the two
together.
-/

namespace EggReplay.Library.Histories

open EggReplay.Library.TransitionSystem

variable {σ α β : Type}

/-- What the steps of a run emit, in order. -/
def emitted (step : σ → α → Option σ) (emit : σ → α → Option β) : σ → List α → List β
  | _, [] => []
  | state, action :: rest =>
      (emit state action).toList ++
        match step state action with
        | none => []
        | some next => emitted step emit next rest

variable {step : σ → α → Option σ} {emit : σ → α → Option β} {state final : σ} {history : List β}
  {actions : List α}

/-- The invariant rule for a state and the history before it. -/
theorem emitted_invariant {invariant : σ → List β → Prop}
    (hpreserved : ∀ state history action next, invariant state history →
      step state action = some next → invariant next (history ++ (emit state action).toList))
    (hrun : run step state actions = some final) (hstart : invariant state history) :
    invariant final (history ++ emitted step emit state actions) := by
  induction actions generalizing state history with
  | nil =>
      obtain rfl := Option.some.inj hrun
      rw [emitted, List.append_nil]
      exact hstart
  | cons action rest ih =>
      obtain ⟨next, hstep, hrest⟩ := run_cons_eq_some.mp hrun
      rw [emitted, hstep, ← List.append_assoc]
      exact ih hrest (hpreserved state history action next hstart hstep)

/-- A run emits first what its beginning emits. -/
theorem emitted_append {before after : List α} {middle : σ}
    (hrun : run step state before = some middle) :
    emitted step emit state (before ++ after) =
      emitted step emit state before ++ emitted step emit middle after := by
  induction before generalizing state with
  | nil =>
      obtain rfl := Option.some.inj hrun
      rfl
  | cons action rest ih =>
      obtain ⟨next, hstep, hrest⟩ := run_cons_eq_some.mp hrun
      rw [List.cons_append, emitted, emitted, hstep]
      dsimp only
      rw [ih hrest, List.append_assoc]

theorem run_append {before after : List α} :
    run step state (before ++ after) = some final ↔
      ∃ middle, run step state before = some middle ∧ run step middle after = some final := by
  induction before generalizing state with
  | nil => exact ⟨fun h => ⟨state, rfl, h⟩, fun ⟨_, h, hrest⟩ => Option.some.inj h ▸ hrest⟩
  | cons action rest ih =>
      rw [List.cons_append]
      simp only [run_cons_eq_some, ih]
      constructor
      · rintro ⟨next, hstep, middle, hrest, hafter⟩
        exact ⟨middle, ⟨next, hstep, hrest⟩, hafter⟩
      · rintro ⟨middle, ⟨next, hstep, hrest⟩, hafter⟩
        exact ⟨next, hstep, middle, hrest, hafter⟩

end EggReplay.Library.Histories
