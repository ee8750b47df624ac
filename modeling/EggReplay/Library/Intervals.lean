import Mathlib

/-!
Half-open intervals of numbers, given by their starts and lengths: lists that lie end to end, and
partitions of a set.
-/

namespace EggReplay.Library.Intervals

/-- A start and a length. -/
abbrev Interval := Nat × Nat

def points (interval : Interval) : Set Nat := Set.Ico interval.1 (interval.1 + interval.2)

/-- Nonempty intervals, each of which starts where the one before it stops. -/
def EndToEnd : Nat → List Interval → Prop
  | _, [] => True
  | start, interval :: rest =>
      interval.1 = start ∧ interval.2 ≠ 0 ∧ EndToEnd (start + interval.2) rest

def totalLength (intervals : List Interval) : Nat := (intervals.map Prod.snd).sum

/-- Nonempty intervals without a common point that make up a set. -/
structure Partition (intervals : List Interval) (whole : Set Nat) : Prop where
  nonempty : ∀ interval ∈ intervals, (points interval).Nonempty
  disjoint : intervals.Pairwise fun a b => Disjoint (points a) (points b)
  covers : {n | ∃ interval ∈ intervals, n ∈ points interval} = whole

theorem totalLength_nil : totalLength [] = 0 := rfl

theorem totalLength_cons (interval : Interval) (rest : List Interval) :
    totalLength (interval :: rest) = interval.2 + totalLength rest := by
  rw [totalLength, totalLength, List.map_cons, List.sum_cons]

variable {intervals : List Interval} {start : Nat}

/-! ### End to end -/

theorem EndToEnd.start_le (h : EndToEnd start intervals) :
    ∀ interval ∈ intervals, start ≤ interval.1 := by
  induction intervals generalizing start with
  | nil =>
      intro interval hmem
      cases hmem
  | cons first rest ih =>
      obtain ⟨hfirst, -, hrest⟩ := h
      intro interval hmem
      rcases List.mem_cons.mp hmem with rfl | hmem
      · exact hfirst.ge
      · exact (Nat.le_add_right _ _).trans (ih hrest interval hmem)

theorem EndToEnd.stop_le (h : EndToEnd start intervals) :
    ∀ interval ∈ intervals, interval.1 + interval.2 ≤ start + totalLength intervals := by
  induction intervals generalizing start with
  | nil =>
      intro interval hmem
      cases hmem
  | cons first rest ih =>
      obtain ⟨hfirst, -, hrest⟩ := h
      intro interval hmem
      rw [totalLength_cons]
      rcases List.mem_cons.mp hmem with rfl | hmem
      · omega
      · have hstop := ih hrest interval hmem
        omega

/-- The last interval stops where all of them together do. -/
theorem EndToEnd.exists_stop (h : EndToEnd start intervals) (hne : intervals ≠ []) :
    ∃ interval ∈ intervals, interval.1 + interval.2 = start + totalLength intervals := by
  induction intervals generalizing start with
  | nil => exact absurd rfl hne
  | cons first rest ih =>
      obtain ⟨hfirst, -, hrest⟩ := h
      rw [totalLength_cons]
      cases rest with
      | nil =>
          refine ⟨first, List.mem_cons_self, ?_⟩
          rw [totalLength_nil, hfirst, Nat.add_zero]
      | cons second more =>
          obtain ⟨interval, hmem, hstop⟩ := ih hrest (List.cons_ne_nil _ _)
          refine ⟨interval, List.mem_cons_of_mem _ hmem, ?_⟩
          rw [hstop, Nat.add_assoc]

theorem EndToEnd.disjoint (h : EndToEnd start intervals) :
    intervals.Pairwise fun a b => Disjoint (points a) (points b) := by
  induction intervals generalizing start with
  | nil => exact List.Pairwise.nil
  | cons first rest ih =>
      obtain ⟨hfirst, -, hrest⟩ := h
      apply List.Pairwise.cons
      · intro interval hmem
        have hstart := hrest.start_le interval hmem
        apply Set.disjoint_left.mpr
        intro n hn hother
        obtain ⟨-, hstop⟩ := Set.mem_Ico.mp hn
        obtain ⟨hlater, -⟩ := Set.mem_Ico.mp hother
        omega
      · exact ih hrest

theorem EndToEnd.exists_mem_iff (h : EndToEnd start intervals) (n : Nat) :
    (∃ interval ∈ intervals, n ∈ points interval) ↔
      start ≤ n ∧ n < start + totalLength intervals := by
  induction intervals generalizing start with
  | nil =>
      rw [totalLength_nil]
      constructor
      · rintro ⟨interval, hmem, -⟩
        cases hmem
      · omega
  | cons first rest ih =>
      obtain ⟨hfirst, -, hrest⟩ := h
      rw [List.exists_mem_cons_iff, ih hrest, points, Set.mem_Ico, totalLength_cons]
      omega

theorem EndToEnd.partition (h : EndToEnd start intervals) :
    Partition intervals (Set.Ico start (start + totalLength intervals)) where
  nonempty := by
    induction intervals generalizing start with
    | nil =>
        intro interval hmem
        cases hmem
    | cons first rest ih =>
        obtain ⟨-, hlength, hrest⟩ := h
        intro interval hmem
        rcases List.mem_cons.mp hmem with rfl | hmem
        · exact Set.nonempty_Ico.mpr (Nat.lt_add_of_pos_right (Nat.pos_of_ne_zero hlength))
        · exact ih hrest interval hmem
  disjoint := h.disjoint
  covers := Set.ext fun n => h.exists_mem_iff n

/-! ### The size of a partition -/

theorem ncard_of_disjoint
    (h : intervals.Pairwise fun a b => Disjoint (points a) (points b)) :
    {n | ∃ interval ∈ intervals, n ∈ points interval}.Finite ∧
      {n | ∃ interval ∈ intervals, n ∈ points interval}.ncard = totalLength intervals := by
  induction intervals with
  | nil => simp [totalLength_nil]
  | cons first rest ih =>
      obtain ⟨hfirst, hrest⟩ := List.pairwise_cons.mp h
      obtain ⟨hfinite, hcard⟩ := ih hrest
      have hsplit : {n | ∃ interval ∈ first :: rest, n ∈ points interval} =
          points first ∪ {n | ∃ interval ∈ rest, n ∈ points interval} := by
        ext n
        exact List.exists_mem_cons_iff (fun interval => n ∈ points interval) first rest
      have hapart : Disjoint (points first) {n | ∃ interval ∈ rest, n ∈ points interval} := by
        apply Set.disjoint_left.mpr
        rintro n hn ⟨interval, hmem, hother⟩
        exact Set.disjoint_left.mp (hfirst interval hmem) hn hother
      have hpoints : (points first).Finite := Set.finite_Ico _ _
      rw [hsplit]
      refine ⟨hpoints.union hfinite, ?_⟩
      rw [Set.ncard_union_eq hapart hpoints hfinite, hcard, totalLength_cons, points,
        ← Finset.coe_Ico, Set.ncard_coe_finset, Nat.card_Ico, Nat.add_sub_cancel_left]

/-- A partition of the numbers below a bound has that bound as its length. -/
theorem Partition.totalLength_eq {stop : Nat} (h : Partition intervals (Set.Ico 0 stop)) :
    totalLength intervals = stop := by
  have hcard := (ncard_of_disjoint h.disjoint).2
  rw [h.covers, ← Finset.coe_Ico, Set.ncard_coe_finset, Nat.card_Ico] at hcard
  exact hcard.symm

end EggReplay.Library.Intervals
