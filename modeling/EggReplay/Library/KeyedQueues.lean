import Mathlib.Data.List.Nodup
import Mathlib.Data.List.Perm.Subperm
import Mathlib.Data.List.Range
import Mathlib.Logic.Function.Basic

/-!
A stock of keyed items that is handed out first in, first out: each request asks for a key and
is given the oldest item that is left with it. One queue for each key says what is left.
-/

namespace EggReplay.Library.KeyedQueues

variable {κ : Type} [DecidableEq κ]

/-- The places of a key in the stock, in order. -/
def places (stock : List κ) (key : κ) : List Nat :=
  (List.range stock.length).filter fun place => stock[place]? = some key

abbrev Queues (κ : Type) := κ → List Nat

def Queues.take (queues : Queues κ) (key : κ) : Option Nat × Queues κ :=
  match queues key with
  | [] => (none, queues)
  | first :: rest => (some first, Function.update queues key rest)

/-- What successive requests are given. -/
def Queues.hand : Queues κ → List κ → List (Option Nat)
  | _, [] => []
  | queues, key :: rest => (queues.take key).1 :: (queues.take key).2.hand rest

variable {stock asked : List κ} {queues : Queues κ} {key : κ}

/-! ### Places -/

theorem mem_places {place : Nat} : place ∈ places stock key ↔ stock[place]? = some key := by
  rw [places, List.mem_filter, List.mem_range, decide_eq_true_eq]
  constructor
  · exact fun h => h.2
  · intro h
    exact ⟨(List.getElem?_eq_some_iff.mp h).1, h⟩

theorem pairwise_places (stock : List κ) (key : κ) : (places stock key).Pairwise (· < ·) :=
  List.Pairwise.filter _ List.pairwise_lt_range

theorem nodup_places (stock : List κ) (key : κ) : (places stock key).Nodup :=
  List.Nodup.filter _ List.nodup_range

theorem length_places (stock : List κ) (key : κ) : (places stock key).length = stock.count key := by
  induction stock using List.reverseRecOn with
  | nil => rfl
  | append_singleton stock item ih =>
      have hbefore : ((List.range stock.length).filter fun place =>
          (stock ++ [item])[place]? = some key) = places stock key := by
        apply List.filter_congr
        intro place hplace
        rw [List.getElem?_append_left (List.mem_range.mp hplace)]
      rw [places, List.length_append, List.length_singleton, List.range_succ, List.filter_append,
        hbefore, List.length_append, ih, List.count_append, List.count_singleton,
        List.filter_singleton, List.getElem?_append_right (Nat.le_refl _), Nat.sub_self]
      by_cases hitem : item = key
      · simp [hitem]
      · simp [hitem]

/-! ### Handing out -/

theorem take_fst (queues : Queues κ) (key : κ) : (queues.take key).1 = (queues key).head? := by
  rw [Queues.take]
  split
  · rename_i h
    rw [h]
    rfl
  · rename_i h
    rw [h]
    rfl

theorem take_snd (queues : Queues κ) (key : κ) :
    (queues.take key).2 = Function.update queues key (queues key).tail := by
  rw [Queues.take]
  split
  · rename_i h
    rw [h, List.tail_nil, ← h, Function.update_eq_self]
  · rename_i h
    rw [h, List.tail_cons]

theorem length_hand (queues : Queues κ) (asked : List κ) :
    (queues.hand asked).length = asked.length := by
  induction asked generalizing queues with
  | nil => rfl
  | cons key rest ih => rw [Queues.hand, List.length_cons, List.length_cons, ih]

/-- A request is given the item at the place of its queue that so many earlier requests for its
key leave. -/
theorem getElem?_hand {turn : Nat} (hturn : asked[turn]? = some key) :
    (queues.hand asked)[turn]? = some (queues key)[(asked.take turn).count key]? := by
  induction asked generalizing queues turn with
  | nil => cases hturn
  | cons first rest ih =>
      rw [Queues.hand]
      cases turn with
      | zero =>
          obtain rfl := Option.some.inj hturn
          rw [List.getElem?_cons_zero, take_fst, List.take_zero, List.count_nil,
            List.head?_eq_getElem?]
      | succ turn =>
          rw [List.getElem?_cons_succ] at hturn ⊢
          rw [ih hturn, take_snd, List.take_succ_cons, List.count_cons]
          by_cases hfirst : first = key
          · subst hfirst
            rw [Function.update_self, List.getElem?_tail, if_pos (beq_self_eq_true first)]
          · rw [Function.update_of_ne (Ne.symm hfirst), if_neg (by simpa using hfirst),
              Nat.add_zero]

/-- What is left of each queue after some requests. -/
def Queues.left (queues : Queues κ) (asked : List κ) : Queues κ :=
  fun key => (queues key).drop (asked.count key)

theorem left_concat (queues : Queues κ) (asked : List κ) (key : κ) :
    queues.left (asked ++ [key]) = ((queues.left asked).take key).2 := by
  rw [take_snd]
  funext other
  rw [Queues.left, List.count_append, List.count_singleton]
  by_cases hother : other = key
  · subst hother
    rw [Function.update_self, if_pos (beq_self_eq_true other), Queues.left, List.tail_drop]
  · rw [Function.update_of_ne hother, if_neg (by simpa using Ne.symm hother), Nat.add_zero,
      Queues.left]

theorem hand_concat (queues : Queues κ) (asked : List κ) (key : κ) :
    queues.hand (asked ++ [key]) = queues.hand asked ++ [(queues.left asked key).head?] := by
  apply List.ext_getElem?
  intro turn
  rcases Nat.lt_trichotomy turn asked.length with hturn | rfl | hturn
  · rw [List.getElem?_append_left (by rwa [length_hand])]
    obtain ⟨other, hother⟩ : ∃ other, asked[turn]? = some other :=
      ⟨asked[turn], List.getElem?_eq_getElem hturn⟩
    have hlonger : (asked ++ [key])[turn]? = some other := by
      rw [List.getElem?_append_left hturn, hother]
    rw [getElem?_hand hother, getElem?_hand hlonger, List.take_append_of_le_length (by omega)]
  · have hlast : (asked ++ [key])[asked.length]? = some key := List.getElem?_concat_length
    have hplace : (queues.hand asked ++ [(queues.left asked key).head?])[asked.length]? =
        some (queues.left asked key).head? := by
      rw [← length_hand queues asked]
      exact List.getElem?_concat_length
    rw [getElem?_hand hlast, hplace, List.take_left, Queues.left, List.head?_drop]
  · rw [List.getElem?_eq_none, List.getElem?_eq_none]
    · rw [List.length_append, length_hand, List.length_singleton]
      omega
    · rw [length_hand, List.length_append, List.length_singleton]
      omega

/-- A request counts among the earlier ones of every later request. -/
theorem count_take_lt {turn later : Nat} (hturn : asked[turn]? = some key) (hless : turn < later) :
    (asked.take turn).count key < (asked.take later).count key := by
  obtain ⟨hlength, hitem⟩ := List.getElem?_eq_some_iff.mp hturn
  have hprefix : asked.take turn ++ [key] <+: asked.take later := by
    rw [← hitem, ← List.take_succ_eq_append_getElem hlength]
    exact List.take_prefix_take_left hless
  have hcount := hprefix.sublist.count_le key
  rw [List.count_append, List.count_singleton_self] at hcount
  omega

/-! ### A stock that is asked for as a whole -/

/-- What is given has the key that was asked for. -/
theorem key_of_hand {turn place : Nat} (hturn : asked[turn]? = some key)
    (hgiven : (Queues.hand (places stock) asked)[turn]? = some (some place)) :
    stock[place]? = some key := by
  rw [getElem?_hand hturn] at hgiven
  exact mem_places.mp (List.mem_of_getElem? (Option.some.inj hgiven))

/-- No item is given twice. -/
theorem turn_unique {turn later place : Nat}
    (hgiven : (Queues.hand (places stock) asked)[turn]? = some (some place))
    (hagain : (Queues.hand (places stock) asked)[later]? = some (some place)) : turn = later := by
  have hbound : ∀ index : Nat, (Queues.hand (places stock) asked)[index]? = some (some place) →
      ∃ key, asked[index]? = some key := by
    intro index hindex
    have hlt := (List.getElem?_eq_some_iff.mp hindex).1
    rw [length_hand] at hlt
    exact ⟨asked[index], List.getElem?_eq_getElem hlt⟩
  obtain ⟨key, hkey⟩ := hbound turn hgiven
  obtain ⟨other, hother⟩ := hbound later hagain
  have hsame : some key = some other := by
    rw [← key_of_hand hkey hgiven, ← key_of_hand hother hagain]
  obtain rfl := Option.some.inj hsame
  rw [getElem?_hand hkey] at hgiven
  rw [getElem?_hand hother] at hagain
  have hfirst := Option.some.inj hgiven
  have hcounts : (asked.take turn).count key = (asked.take later).count key := by
    apply (List.getElem?_inj (List.getElem?_eq_some_iff.mp hfirst).1 (nodup_places stock key)).mp
    rw [hfirst, Option.some.inj hagain]
  rcases Nat.lt_trichotomy turn later with hlt | heq | hlt
  · exact absurd (count_take_lt hkey hlt) (by omega)
  · exact heq
  · exact absurd (count_take_lt hother hlt) (by omega)

/-- Where each key is asked for as often as it is in stock, every request is given something. -/
theorem hand_isSome {turn : Nat} {given : Option Nat} (hasked : asked.Perm stock)
    (hgiven : (Queues.hand (places stock) asked)[turn]? = some given) : given.isSome = true := by
  have hlt := (List.getElem?_eq_some_iff.mp hgiven).1
  rw [length_hand] at hlt
  have hkey : asked[turn]? = some asked[turn] := List.getElem?_eq_getElem hlt
  rw [getElem?_hand hkey, Option.some.injEq] at hgiven
  rw [← hgiven, List.getElem?_eq_getElem, Option.isSome_some]
  have hcount := count_take_lt hkey hlt
  rw [List.take_length, hasked.count_eq] at hcount
  rw [length_places]
  exact hcount

/-- Where each key is asked for as often as it is in stock, the whole stock is given. -/
theorem hand_perm (hasked : asked.Perm stock) :
    (Queues.hand (places stock) asked).Perm ((List.range stock.length).map some) := by
  have hnodup : (Queues.hand (places stock) asked).Nodup := by
    rw [List.nodup_iff_getElem?_ne_getElem?]
    intro first second hless hsecond heq
    have hgiven := List.getElem?_eq_getElem hsecond
    obtain ⟨place, hplace⟩ := Option.isSome_iff_exists.mp (hand_isSome hasked hgiven)
    rw [hplace] at hgiven
    exact absurd (turn_unique (heq.trans hgiven) hgiven) (Nat.ne_of_lt hless)
  have hlength : (Queues.hand (places stock) asked).length =
      ((List.range stock.length).map some).length := by
    rw [length_hand, List.length_map, List.length_range, hasked.length_eq]
  refine (List.subperm_of_subset hnodup ?_).perm_of_length_le (Nat.le_of_eq hlength.symm)
  intro given hgiven
  obtain ⟨turn, hturn⟩ := List.mem_iff_getElem?.mp hgiven
  obtain ⟨place, rfl⟩ := Option.isSome_iff_exists.mp (hand_isSome hasked hturn)
  have hlt := (List.getElem?_eq_some_iff.mp hturn).1
  rw [length_hand] at hlt
  have hkey := key_of_hand (List.getElem?_eq_getElem hlt) hturn
  exact List.mem_map_of_mem (List.mem_range.mpr (List.getElem?_eq_some_iff.mp hkey).1)

/-- Items of one key are given in their order. -/
theorem hand_in_order {turn later place next : Nat} (hturn : asked[turn]? = some key)
    (hlater : asked[later]? = some key)
    (hgiven : (Queues.hand (places stock) asked)[turn]? = some (some place))
    (hnext : (Queues.hand (places stock) asked)[later]? = some (some next)) :
    turn < later ↔ place < next := by
  have hforward : ∀ first second given after : Nat, asked[first]? = some key →
      asked[second]? = some key →
      (Queues.hand (places stock) asked)[first]? = some (some given) →
      (Queues.hand (places stock) asked)[second]? = some (some after) → first < second →
      given < after := by
    intro first second given after hfirst hsecond hgiven hafter hless
    rw [getElem?_hand hfirst, Option.some.injEq] at hgiven
    rw [getElem?_hand hsecond, Option.some.injEq] at hafter
    obtain ⟨hg, rfl⟩ := List.getElem?_eq_some_iff.mp hgiven
    obtain ⟨ha, rfl⟩ := List.getElem?_eq_some_iff.mp hafter
    apply List.pairwise_iff_getElem.mp (pairwise_places stock key)
    exact count_take_lt hfirst hless
  constructor
  · exact hforward turn later place next hturn hlater hgiven hnext
  · intro hless
    rcases Nat.lt_trichotomy turn later with hlt | rfl | hlt
    · exact hlt
    · rw [hgiven, Option.some.injEq, Option.some.injEq] at hnext
      omega
    · have hback := hforward later turn next place hlater hturn hnext hgiven hlt
      omega

end EggReplay.Library.KeyedQueues
