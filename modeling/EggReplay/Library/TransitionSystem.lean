import Mathlib.Data.List.Basic

/-!
Systems that take one action after another: runs from a state, conditions that every step of
a run meets, and the invariant rule.
-/

namespace EggReplay.Library.TransitionSystem

variable {σ α : Type}

/-- A step is `none` where the action is not enabled. -/
def run (step : σ → α → Option σ) : σ → List α → Option σ
  | state, [] => some state
  | state, action :: rest =>
      match step state action with
      | none => none
      | some next => run step next rest

/-- Every step of a run is taken in a state that allows it. -/
def Throughout (step : σ → α → Option σ) (allowed : σ → α → Prop) : σ → List α → Prop
  | _, [] => True
  | state, action :: rest =>
      allowed state action ∧
        match step state action with
        | none => True
        | some next => Throughout step allowed next rest

variable {step : σ → α → Option σ} {allowed : σ → α → Prop} {state next final : σ} {action : α}
  {actions rest : List α}

instance decidableThroughout [∀ state action, Decidable (allowed state action)] :
    ∀ state actions, Decidable (Throughout step allowed state actions)
  | _, [] => .isTrue trivial
  | state, action :: rest =>
      match hstep : step state action with
      | none =>
          decidable_of_iff (allowed state action ∧ True) (by rw [Throughout, hstep])
      | some next =>
          have := decidableThroughout next rest
          decidable_of_iff (allowed state action ∧ Throughout step allowed next rest)
            (by rw [Throughout, hstep])

theorem run_cons_eq_some :
    run step state (action :: rest) = some final ↔
      ∃ next, step state action = some next ∧ run step next rest = some final := by
  rw [run]
  rcases step state action with _ | next
  · exact ⟨(by rintro ⟨⟩), fun ⟨_, h, _⟩ => by cases h⟩
  · exact ⟨fun h => ⟨next, rfl, h⟩, fun ⟨_, h, hrun⟩ => by rw [Option.some.inj h]; exact hrun⟩

theorem throughout_cons (hstep : step state action = some next) :
    Throughout step allowed state (action :: rest) ↔
      allowed state action ∧ Throughout step allowed next rest := by
  rw [Throughout, hstep]

/-- Where every action is enabled, a condition on actions alone is one on each of them. -/
theorem throughout_of_total {condition : α → Prop}
    (htotal : ∀ state action, (step state action).isSome = true) :
    Throughout step (fun _ => condition) state actions ↔ ∀ action ∈ actions, condition action := by
  induction actions generalizing state with
  | nil => exact ⟨fun _ _ h => absurd h List.not_mem_nil, fun _ => trivial⟩
  | cons action rest ih =>
      obtain ⟨next, hstep⟩ := Option.isSome_iff_exists.mp (htotal state action)
      rw [throughout_cons hstep, ih, List.forall_mem_cons]

/-- The invariant rule: what each allowed step preserves holds at the end of a run. -/
theorem run_invariant {invariant : σ → Prop}
    (hpreserved : ∀ state action next, invariant state → allowed state action →
      step state action = some next → invariant next)
    (hrun : run step state actions = some final) (hallowed : Throughout step allowed state actions)
    (hstart : invariant state) : invariant final := by
  induction actions generalizing state with
  | nil => exact Option.some.inj hrun ▸ hstart
  | cons action rest ih =>
      obtain ⟨next, hstep, hrest⟩ := run_cons_eq_some.mp hrun
      obtain ⟨hhead, htail⟩ := (throughout_cons hstep).mp hallowed
      exact ih hrest htail (hpreserved state action next hstart hhead hstep)

/-- Two conditions that agree wherever the invariant holds are met by the same runs. -/
theorem throughout_iff {invariant : σ → Prop} {met : σ → α → Prop}
    (hagree : ∀ state action, invariant state → (met state action ↔ allowed state action))
    (hpreserved : ∀ state action next, invariant state → allowed state action →
      step state action = some next → invariant next)
    (hstart : invariant state) :
    Throughout step met state actions ↔ Throughout step allowed state actions := by
  induction actions generalizing state with
  | nil => exact Iff.rfl
  | cons action rest ih =>
      rw [Throughout, Throughout, hagree state action hstart]
      apply and_congr_right
      intro hallowed
      cases hstep : step state action with
      | none => exact Iff.rfl
      | some next => exact ih (hpreserved state action next hstart hallowed hstep)

/-- An invariant holds at the end, and a run counts at most as many steps of a kind as a measure has room for that each of them
lowers and no other step raises. -/
theorem run_countP_le {invariant : σ → Prop} {measure : σ → Nat} {counted : α → Bool}
    (hstep : ∀ state action next, invariant state → step state action = some next →
      invariant next ∧ measure next + (counted action).toNat ≤ measure state)
    (hrun : run step state actions = some final) (hstart : invariant state) :
    invariant final ∧ measure final + actions.countP counted ≤ measure state := by
  induction actions generalizing state with
  | nil =>
      obtain rfl := Option.some.inj hrun
      exact ⟨hstart, Nat.le_refl _⟩
  | cons action rest ih =>
      obtain ⟨next, hnext, hrest⟩ := run_cons_eq_some.mp hrun
      obtain ⟨hinv, hle⟩ := hstep state action next hstart hnext
      obtain ⟨hfinal, htail⟩ := ih hrest hinv
      refine ⟨hfinal, ?_⟩
      rw [List.countP_cons]
      cases hcounted : counted action <;> rw [hcounted] at hle <;>
        simp only [Bool.toNat_false, Bool.toNat_true, Bool.false_eq_true, if_false, if_true] at hle ⊢ <;>
        omega

end EggReplay.Library.TransitionSystem
