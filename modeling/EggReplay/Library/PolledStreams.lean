import Mathlib

/-!
Streams that are unfolded from a state, one item for each poll.
-/

namespace EggReplay.Library.PolledStreams

variable {σ α : Type} {poll : σ → Option (α × σ)}

/-- The items of successive polls up to the first one that gives nothing. -/
inductive Unfolds (poll : σ → Option (α × σ)) : σ → List α → Prop where
  | done {s : σ} (h : poll s = none) : Unfolds poll s []
  | more {s next : σ} {item : α} {items : List α} (h : poll s = some (item, next))
      (rest : Unfolds poll next items) : Unfolds poll s (item :: items)

/-- A stream ends whose states in `P` go down in a measure. -/
theorem exists_unfolds {P : σ → Prop} (measure : σ → Nat)
    (hdown : ∀ s item next, P s → poll s = some (item, next) → P next ∧ measure next < measure s)
    {s : σ} (h : P s) : ∃ items, Unfolds poll s items := by
  induction hm : measure s using Nat.strong_induction_on generalizing s with
  | h m ih =>
      rcases hpoll : poll s with _ | ⟨item, next⟩
      · exact ⟨[], .done hpoll⟩
      · obtain ⟨hnext, hless⟩ := hdown s item next h hpoll
        obtain ⟨items, hitems⟩ := ih _ (hm ▸ hless) hnext rfl
        exact ⟨item :: items, .more hpoll hitems⟩

end EggReplay.Library.PolledStreams
