import Mathlib.Data.List.AList
import Mathlib.Data.List.Perm.Subperm
import Mathlib.Order.Basic

/-!
A map with a queue of its keys, from which the oldest key is evicted when the map is full.
-/

namespace EggReplay.Library.FifoCaches

variable {κ ν : Type}

structure FifoCache (κ ν : Type) where
  entries : AList fun _ : κ => ν
  order : List κ

def FifoCache.empty : FifoCache κ ν where
  entries := ∅
  order := []

def FifoCache.size (cache : FifoCache κ ν) : Nat := cache.entries.keys.length

/-- The queue holds each key of the map once. -/
structure FifoCache.Queued (cache : FifoCache κ ν) : Prop where
  nodup : cache.order.Nodup
  mem_iff : ∀ key, key ∈ cache.order ↔ key ∈ cache.entries

theorem queued_empty : (FifoCache.empty : FifoCache κ ν).Queued where
  nodup := List.nodup_nil
  mem_iff key := by
    constructor
    · intro h
      exact absurd h List.not_mem_nil
    · intro h
      exact absurd h (AList.notMem_empty key)

theorem FifoCache.Queued.perm {cache : FifoCache κ ν} (h : cache.Queued) :
    cache.order.Perm cache.entries.keys := by
  apply (List.perm_ext_iff_of_nodup h.nodup cache.entries.keys_nodup).mpr
  intro key
  rw [h.mem_iff key, AList.mem_keys]

theorem FifoCache.Queued.length_order {cache : FifoCache κ ν} (h : cache.Queued) :
    cache.order.length = cache.size :=
  h.perm.length_eq

theorem length_keys_pos {entries : AList fun _ : κ => ν} {key : κ} (h : key ∈ entries) :
    0 < entries.keys.length :=
  List.length_pos_of_mem (AList.mem_keys.mp h)

section Operations

variable [DecidableEq κ]

/-- The queue is popped until the map is below its capacity, or to its end. -/
def evict (capacity : Nat) (entries : AList fun _ : κ => ν) : List κ → FifoCache κ ν
  | [] => { entries, order := [] }
  | oldest :: rest =>
      if capacity ≤ entries.keys.length then evict capacity (entries.erase oldest) rest
      else { entries, order := oldest :: rest }

def FifoCache.push (cache : FifoCache κ ν) (key : κ) (value : ν) : FifoCache κ ν where
  entries := cache.entries.insert key value
  order := cache.order ++ [key]

def eraseKeys (entries : AList fun _ : κ => ν) (keys : List κ) : AList fun _ : κ => ν :=
  keys.foldl (fun kept key => kept.erase key) entries

def FifoCache.eraseAll (cache : FifoCache κ ν) (keys : List κ) : FifoCache κ ν :=
  let entries := eraseKeys cache.entries keys
  { entries, order := cache.order.filter fun key => decide (key ∈ entries) }

/-- The queue is in the order of the last time that each key was logged; the log has its
newest key first. -/
def OldestFirst (log : List κ) (order : List κ) : Prop :=
  order.Pairwise fun older newer => log.idxOf newer < log.idxOf older

theorem evict_of_lt {capacity : Nat} {entries : AList fun _ : κ => ν} {order : List κ}
    (h : entries.keys.length < capacity) : evict capacity entries order = { entries, order } := by
  cases order with
  | nil => rw [evict]
  | cons oldest rest => rw [evict, if_neg (by omega)]

theorem length_keys_erase {entries : AList fun _ : κ => ν} {key : κ} (h : key ∈ entries) :
    (entries.erase key).keys.length = entries.keys.length - 1 := by
  rw [AList.keys_erase, List.length_erase_of_mem (AList.mem_keys.mp h)]

/-- A full map loses its oldest key and no other. -/
theorem FifoCache.Queued.evict_of_full {capacity : Nat} {cache : FifoCache κ ν} (h : cache.Queued)
    (hpos : 0 < capacity) (hfull : cache.size = capacity) :
    ∃ oldest rest, cache.order = oldest :: rest ∧ oldest ∈ cache.entries ∧
      evict capacity cache.entries cache.order =
        { entries := cache.entries.erase oldest, order := rest } := by
  have hlength := h.length_order
  cases horder : cache.order with
  | nil =>
      rw [horder, List.length_nil] at hlength
      omega
  | cons oldest rest =>
      have hmem : oldest ∈ cache.entries := by
        rw [← h.mem_iff, horder]
        exact List.mem_cons_self
      refine ⟨oldest, rest, rfl, hmem, ?_⟩
      rw [evict, if_pos (show capacity ≤ cache.entries.keys.length from hfull.symm.le)]
      apply evict_of_lt
      rw [length_keys_erase hmem]
      have := length_keys_pos hmem
      unfold FifoCache.size at hfull
      omega

theorem FifoCache.Queued.tail {cache : FifoCache κ ν} {oldest : κ} {rest : List κ}
    (h : cache.Queued) (horder : cache.order = oldest :: rest) :
    FifoCache.Queued { entries := cache.entries.erase oldest, order := rest } := by
  have hnodup := h.nodup
  rw [horder, List.nodup_cons] at hnodup
  refine ⟨hnodup.2, fun key => ?_⟩
  rw [AList.mem_erase, ← h.mem_iff, horder, List.mem_cons]
  constructor
  · intro hkey
    exact ⟨fun heq => hnodup.1 (heq ▸ hkey), .inr hkey⟩
  · rintro ⟨hne, heq | hkey⟩
    · exact absurd heq hne
    · exact hkey

/-- What is left of a cache that made room for one more entry. -/
structure Evicted (capacity : Nat) (cache kept : FifoCache κ ν) : Prop where
  queued : kept.Queued
  size_lt : kept.size < capacity
  sublist : kept.order.Sublist cache.order
  lookup_of : ∀ key value, kept.entries.lookup key = some value →
    cache.entries.lookup key = some value
  oldest : ∀ key ∈ cache.entries, key ∉ kept.entries → cache.order.head? = some key

theorem FifoCache.Queued.evict {capacity : Nat} {cache : FifoCache κ ν} (h : cache.Queued)
    (hpos : 0 < capacity) (hsize : cache.size ≤ capacity) :
    Evicted capacity cache (evict capacity cache.entries cache.order) := by
  rcases Nat.lt_or_eq_of_le hsize with hlt | hfull
  · rw [evict_of_lt hlt]
    exact
      { queued := h
        size_lt := hlt
        sublist := List.Sublist.refl _
        lookup_of := fun _ _ hlookup => hlookup
        oldest := fun key hkey hgone => absurd hkey hgone }
  · obtain ⟨oldest, rest, horder, hmem, hevict⟩ := h.evict_of_full hpos hfull
    rw [hevict]
    refine
      { queued := h.tail horder
        size_lt := ?_
        sublist := ?_
        lookup_of := ?_
        oldest := ?_ }
    · show (cache.entries.erase oldest).keys.length < capacity
      have := length_keys_pos hmem
      rw [length_keys_erase hmem]
      unfold FifoCache.size at hfull
      omega
    · rw [horder]
      exact List.sublist_cons_self oldest rest
    · intro key value hlookup
      by_cases hkey : key = oldest
      · rw [hkey, AList.lookup_erase] at hlookup
        cases hlookup
      · rw [AList.lookup_erase_ne hkey] at hlookup
        exact hlookup
    · intro key hkey hgone
      have heq : key = oldest := by
        by_contra hne
        exact hgone (AList.mem_erase.mpr ⟨hne, hkey⟩)
      rw [horder, heq, List.head?_cons]

theorem FifoCache.Queued.push {cache : FifoCache κ ν} {key : κ} {value : ν} (h : cache.Queued)
    (hkey : key ∉ cache.entries) : (cache.push key value).Queued := by
  refine ⟨?_, fun other => ?_⟩
  · apply List.nodup_append.mpr
    refine ⟨h.nodup, List.nodup_singleton key, ?_⟩
    rintro older holder newer hnewer rfl
    rw [List.mem_singleton.mp hnewer, h.mem_iff] at holder
    exact hkey holder
  · rw [FifoCache.push, AList.mem_insert, List.mem_append, List.mem_singleton, h.mem_iff]
    exact or_comm

theorem FifoCache.size_push {cache : FifoCache κ ν} {key : κ} {value : ν}
    (hkey : key ∉ cache.entries) : (cache.push key value).size = cache.size + 1 := by
  rw [FifoCache.size, FifoCache.push, AList.keys_insert, List.length_cons,
    List.erase_of_not_mem (fun h => hkey (AList.mem_keys.mpr h)), FifoCache.size]

theorem lookup_eraseKeys {entries : AList fun _ : κ => ν} {keys : List κ} {key : κ} :
    (eraseKeys entries keys).lookup key = if key ∈ keys then none else entries.lookup key := by
  induction keys generalizing entries with
  | nil => rw [eraseKeys, List.foldl_nil, if_neg List.not_mem_nil]
  | cons head rest ih =>
      rw [eraseKeys, List.foldl_cons, ← eraseKeys, ih]
      by_cases hrest : key ∈ rest
      · rw [if_pos hrest, if_pos (List.mem_cons_of_mem head hrest)]
      · rw [if_neg hrest]
        by_cases hhead : key = head
        · rw [hhead, AList.lookup_erase, if_pos List.mem_cons_self]
        · rw [AList.lookup_erase_ne hhead, if_neg (by simp [hhead, hrest])]

theorem mem_eraseKeys {entries : AList fun _ : κ => ν} {keys : List κ} {key : κ} :
    key ∈ eraseKeys entries keys ↔ key ∈ entries ∧ key ∉ keys := by
  rw [← AList.lookup_isSome, lookup_eraseKeys, ← AList.lookup_isSome]
  split
  · next h => simp [h]
  · next h => simp [h]

theorem length_eraseKeys_le (entries : AList fun _ : κ => ν) (keys : List κ) :
    (eraseKeys entries keys).keys.length ≤ entries.keys.length := by
  induction keys generalizing entries with
  | nil => exact le_refl _
  | cons head rest ih =>
      apply le_trans (ih (entries.erase head))
      rw [AList.keys_erase]
      exact List.length_erase_le

theorem FifoCache.Queued.eraseAll {cache : FifoCache κ ν} (h : cache.Queued) (keys : List κ) :
    (cache.eraseAll keys).Queued := by
  refine ⟨h.nodup.filter _, fun key => ?_⟩
  rw [FifoCache.eraseAll, List.mem_filter, decide_eq_true_eq, h.mem_iff, and_iff_right_iff_imp]
  exact fun hkey => (mem_eraseKeys.mp hkey).1

/-! ### The order of the queue -/

theorem OldestFirst.sublist {log order order' : List κ} (h : OldestFirst log order)
    (hsub : order'.Sublist order) : OldestFirst log order' :=
  List.Pairwise.sublist hsub h

theorem OldestFirst.push {log order : List κ} {key : κ} (h : OldestFirst log order)
    (hkey : key ∉ order) : OldestFirst (key :: log) (order ++ [key]) := by
  have hne : ∀ other ∈ order, key ≠ other := fun other hother heq => hkey (heq ▸ hother)
  apply List.pairwise_append.mpr
  refine ⟨?_, List.pairwise_singleton _ key, ?_⟩
  · refine h.imp_of_mem ?_
    intro older newer holder hnewer hlt
    rw [List.idxOf_cons_ne _ (hne older holder), List.idxOf_cons_ne _ (hne newer hnewer)]
    omega
  · intro older holder newer hnewer
    rw [List.mem_singleton.mp hnewer, List.idxOf_cons_self,
      List.idxOf_cons_ne _ (hne older holder)]
    omega

/-- The head of the queue was logged before every other key. -/
theorem OldestFirst.head {log rest : List κ} {oldest key : κ}
    (h : OldestFirst log (oldest :: rest)) (hkey : key ∈ oldest :: rest) :
    log.idxOf key ≤ log.idxOf oldest := by
  rcases List.mem_cons.mp hkey with heq | hrest
  · rw [heq]
  · exact le_of_lt (List.rel_of_pairwise_cons h hrest)

end Operations

end EggReplay.Library.FifoCaches
