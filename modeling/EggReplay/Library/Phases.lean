import Mathlib.Algebra.BigOperators.Group.List.Basic
import Mathlib.Algebra.GroupWithZero.Nat

/-!
Lists of tasks that move through phases: how the number of those in some phases and the total
of a rank change when one of them moves.
-/

namespace EggReplay.Library.Phases

variable {P : Type} {phases : List P} {index : Nat} {old new : P}

def total (rank : P → Nat) (phases : List P) : Nat := (phases.map rank).sum

theorem lt_length (h : phases[index]? = some old) : index < phases.length :=
  (List.getElem?_eq_some_iff.mp h).1

theorem getElem?_set_same (h : phases[index]? = some old) :
    (phases.set index new)[index]? = some new :=
  List.getElem?_set_self (lt_length h)

theorem total_set (rank : P → Nat) (new : P) (h : phases[index]? = some old) :
    total rank (phases.set index new) + rank old = total rank phases + rank new := by
  induction phases generalizing index with
  | nil => cases h
  | cons head tail ih =>
      cases index with
      | zero =>
          obtain rfl : head = old := Option.some.inj h
          simp only [total, List.set_cons_zero, List.map_cons, List.sum_cons]
          omega
      | succ index =>
          have hrest := ih h
          simp only [total, List.set_cons_succ, List.map_cons, List.sum_cons] at hrest ⊢
          omega

theorem countP_set (p : P → Bool) (h : phases[index]? = some old) :
    (phases.set index new).countP p + (p old).toNat = phases.countP p + (p new).toNat := by
  obtain ⟨hlt, hold⟩ := List.getElem?_eq_some_iff.mp h
  rw [List.countP_set hlt, hold]
  by_cases hp : p old = true
  · have hpos : 0 < phases.countP p := List.countP_pos_iff.mpr ⟨old, List.mem_of_getElem? h, hp⟩
    rw [if_pos hp, hp]
    cases p new <;> simp only [if_true, Bool.toNat_true, Bool.toNat_false, Bool.false_eq_true, if_false] <;>
      omega
  · rw [if_neg hp, Bool.eq_false_iff.mpr hp]
    cases p new <;> simp

end EggReplay.Library.Phases
