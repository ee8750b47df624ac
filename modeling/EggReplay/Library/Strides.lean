import Mathlib.Data.Int.ModEq
import Mathlib.Data.Nat.ModEq
import Mathlib.Tactic.Ring

/-!
Counters that go round: what a stride with an inverse visits modulo a width, and where it
comes to zero.
-/

namespace EggReplay.Library.Strides

variable {width stride inverse : Nat}

/-- Where a counter stands after some strides from a start. -/
def visit (width stride start index : Nat) : Nat := (start + index * stride) % width

/-- The strides it takes to come to zero. -/
def zeroAt (width inverse start : Nat) : Nat := (width - start % width) * inverse % width

theorem visit_lt (hwidth : 0 < width) (start index : Nat) :
    visit width stride start index < width := Nat.mod_lt _ hwidth

theorem coprime_of_inverse (h : stride * inverse ≡ 1 [MOD width]) : width.gcd stride = 1 := by
  rw [Nat.gcd_comm]
  exact Nat.coprime_of_mul_modEq_one inverse h

/-- No two indices below the width are at one place. -/
theorem visit_inj (h : stride * inverse ≡ 1 [MOD width]) {start first second : Nat}
    (hfirst : first < width) (hsecond : second < width)
    (heq : visit width stride start first = visit width stride start second) :
    first = second := by
  have hsum : start + first * stride ≡ start + second * stride [MOD width] := heq
  have hproduct := Nat.ModEq.add_left_cancel' start hsum
  have hindex := Nat.ModEq.cancel_right_of_coprime (coprime_of_inverse h) hproduct
  exact Nat.ModEq.eq_of_lt_of_lt hindex hfirst hsecond

theorem visit_zeroAt (hwidth : 0 < width) (h : stride * inverse ≡ 1 [MOD width]) (start : Nat) :
    visit width stride start (zeroAt width inverse start) = 0 := by
  have hstart : start % width < width := Nat.mod_lt _ hwidth
  have hproduct : zeroAt width inverse start * stride ≡ width - start % width [MOD width] := by
    calc zeroAt width inverse start * stride
        ≡ (width - start % width) * inverse * stride [MOD width] :=
          (Nat.mod_modEq _ _).mul_right stride
      _ = (width - start % width) * (stride * inverse) := by ring
      _ ≡ (width - start % width) * 1 [MOD width] := h.mul_left _
      _ = width - start % width := Nat.mul_one _
  have hsum : start + zeroAt width inverse start * stride ≡
      start % width + (width - start % width) [MOD width] :=
    (Nat.mod_modEq start width).symm.add hproduct
  rw [Nat.add_sub_cancel' (Nat.le_of_lt hstart)] at hsum
  exact hsum.trans (Nat.modEq_zero_iff_dvd.mpr (Nat.dvd_refl width))

/-- The counter is at zero at that index and at no other. -/
theorem visit_eq_zero_iff (hwidth : 0 < width) (h : stride * inverse ≡ 1 [MOD width])
    {start index : Nat} (hindex : index < width) :
    visit width stride start index = 0 ↔ index = zeroAt width inverse start := by
  have hzero := visit_zeroAt hwidth h start
  constructor
  · intro hvisit
    exact visit_inj h hindex (Nat.mod_lt _ hwidth) (hvisit.trans hzero.symm)
  · rintro rfl
    exact hzero

/-- So many strides from the start stay off zero. -/
theorem positive_iff (hwidth : 0 < width) (h : stride * inverse ≡ 1 [MOD width])
    {start count : Nat} (hcount : count ≤ width) :
    (∀ index < count, 0 < visit width stride start index) ↔
      count ≤ zeroAt width inverse start := by
  constructor
  · intro hall
    by_contra hmore
    have hzero := hall (zeroAt width inverse start) (by omega)
    rw [visit_zeroAt hwidth h] at hzero
    exact Nat.lt_irrefl 0 hzero
  · intro hfew index hindex
    apply Nat.pos_of_ne_zero
    intro hvisit
    rw [visit_eq_zero_iff hwidth h (by omega)] at hvisit
    omega

end EggReplay.Library.Strides
