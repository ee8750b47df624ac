import EggReplay.Core.StreamTimeline
import Mathlib.Data.List.Nodup

/-!
The order of a timeline: the places of the fixture by start offset, equal offsets in fixture
order.
-/

namespace EggReplay.Core.TimelineOrder

open EggReplay.Library.Checks
open EggReplay.Core.StreamTimeline

/-- What the sort compares: the start offset, then the place in the fixture. -/
def before (offsets : List Nat) (left right : Nat) : Bool :=
  decide (offsets.getD left 0 < offsets.getD right 0) ||
    decide (offsets.getD left 0 = offsets.getD right 0) && decide (left ≤ right)

def timelineOrderOffsets (offsets : List Nat) (maxConcurrency : Nat) :
    Except String (List Nat) := do
  ensure (¬(maxConcurrency = 0 ∨ maxConcurrency > 1024))
    "maximum timeline concurrency must be within 1..=1024"
  ensure (¬∃ offset ∈ offsets, offset > maxStreamTotalDelayNs)
    "timeline start offset exceeds configured limit"
  pure ((List.range offsets.length).mergeSort (before offsets))

variable {offsets order : List Nat} {maxConcurrency left right : Nat}

theorem before_iff :
    before offsets left right = true ↔
      offsets.getD left 0 < offsets.getD right 0 ∨
        offsets.getD left 0 = offsets.getD right 0 ∧ left ≤ right := by
  simp only [before, Bool.or_eq_true, Bool.and_eq_true, decide_eq_true_eq]

theorem timelineOrderOffsets_eq_ok :
    timelineOrderOffsets offsets maxConcurrency = .ok order ↔
      (0 < maxConcurrency ∧ maxConcurrency ≤ 1024) ∧
        (∀ offset ∈ offsets, offset ≤ maxStreamTotalDelayNs) ∧
        (List.range offsets.length).mergeSort (before offsets) = order := by
  simp only [timelineOrderOffsets, ↓bind_unit_eq_ok, ensure_eq_ok, pure_eq_ok, not_or, not_exists,
    not_and, gt_iff_lt, not_lt, ← Nat.pos_iff_ne_zero]

theorem order_perm (h : timelineOrderOffsets offsets maxConcurrency = .ok order) :
    order.Perm (List.range offsets.length) := by
  obtain ⟨-, -, rfl⟩ := timelineOrderOffsets_eq_ok.mp h
  exact List.mergeSort_perm _ _

theorem order_nodup (h : timelineOrderOffsets offsets maxConcurrency = .ok order) :
    order.Nodup :=
  (order_perm h).nodup_iff.mpr List.nodup_range

theorem mem_order (h : timelineOrderOffsets offsets maxConcurrency = .ok order) {index : Nat} :
    index ∈ order ↔ index < offsets.length := by
  rw [(order_perm h).mem_iff, List.mem_range]

theorem order_sorted (h : timelineOrderOffsets offsets maxConcurrency = .ok order) :
    order.Pairwise fun left right => before offsets left right = true := by
  obtain ⟨-, -, rfl⟩ := timelineOrderOffsets_eq_ok.mp h
  apply List.pairwise_mergeSort
  · intro a b c hab hbc
    rw [before_iff] at hab hbc ⊢
    omega
  · intro a b
    rw [Bool.or_eq_true, before_iff, before_iff]
    omega

end EggReplay.Core.TimelineOrder
