import EggReplay.Library.JsonText

/-!
How long the compact text of a value is, for values that end in a list of items.
-/

namespace EggReplay.Library.JsonLengths

open EggReplay.Library.Text
open EggReplay.Library.JsonText

/-- The length of texts that are joined by single separators. -/
def joinedLength (lengths : List Nat) : Nat := lengths.sum + (lengths.length - 1)

theorem joinedLength_append_one (lengths : List Nat) (length : Nat) :
    joinedLength (lengths ++ [length]) =
      joinedLength lengths + length + if lengths = [] then 0 else 1 := by
  cases lengths with
  | nil => simp [joinedLength]
  | cons first rest =>
      rw [if_neg (List.cons_ne_nil first rest)]
      simp only [joinedLength, List.sum_append, List.sum_singleton, List.length_append,
        List.length_cons, List.length_nil]
      omega

/-- Separate ends bound what the separators add. -/
theorem joinedLength_le (lengths : List Nat) :
    joinedLength lengths ≤ (lengths.map (· + 1)).sum := by
  induction lengths with
  | nil => exact Nat.le_refl _
  | cons first rest ih =>
      simp only [joinedLength, List.map_cons, List.sum_cons, List.length_cons] at ih ⊢
      omega

theorem mul_length_le_sum {lengths : List Nat} {least : Nat} (h : ∀ n ∈ lengths, least ≤ n) :
    least * lengths.length ≤ lengths.sum := by
  induction lengths with
  | nil => exact Nat.le_refl _
  | cons first rest ih =>
      have hfirst := h first List.mem_cons_self
      have hrest := ih fun n hn => h n (List.mem_cons_of_mem _ hn)
      rw [List.length_cons, List.sum_cons, Nat.mul_succ]
      omega

theorem utf8_append (left right : List Char) : utf8 (left ++ right) = utf8 left ++ utf8 right :=
  List.flatMap_append

theorem utf8_cons (c : Char) (rest : List Char) : utf8 (c :: rest) = utf8 [c] ++ utf8 rest :=
  utf8_append [c] rest

theorem length_utf8_cons {c : Char} (hc : (utf8 [c]).length = 1) (rest : List Char) :
    (utf8 (c :: rest)).length = (utf8 rest).length + 1 := by
  rw [utf8_cons, List.length_append, hc, Nat.add_comm]

theorem length_utf8_append (left right : List Char) :
    (utf8 (left ++ right)).length = (utf8 left).length + (utf8 right).length := by
  rw [utf8_append, List.length_append]

/-! ### Items -/

theorem length_renderItems (items : List (Json Nat)) :
    (utf8 (renderItems printNat items)).length =
      joinedLength (items.map fun item => (encode item).length) := by
  induction items with
  | nil => rfl
  | cons first rest ih =>
      cases rest with
      | nil => simp [renderItems, joinedLength, encode]
      | cons second more =>
          rw [renderItems, length_utf8_append, length_utf8_cons rfl, ih, List.map_cons]
          simp only [joinedLength, encode, List.map_cons, List.sum_cons, List.length_cons,
            List.length_map]
          omega

theorem length_encode_array (items : List (Json Nat)) :
    (encode (.array items)).length =
      joinedLength (items.map fun item => (encode item).length) + 2 := by
  rw [encode, Json.render, length_utf8_cons rfl, length_utf8_append, length_renderItems]
  rfl

/-! ### Members -/

/-- What the name of a member takes, its quotes and colon included. -/
def nameLength (name : String) : Nat := (utf8 (renderString name)).length + 1

theorem length_renderMembers (members : List (String × Json Nat)) :
    (utf8 (renderMembers printNat members)).length =
      joinedLength (members.map fun member =>
        nameLength member.1 + (encode member.2).length) := by
  induction members with
  | nil => rfl
  | cons first rest ih =>
      obtain ⟨name, value⟩ := first
      cases rest with
      | nil =>
          rw [renderMembers, length_utf8_append, length_utf8_cons rfl]
          simp only [joinedLength, encode, nameLength, List.map_cons, List.map_nil, List.sum_cons,
            List.sum_nil, List.length_cons, List.length_nil]
          omega
      | cons second more =>
          rw [renderMembers, length_utf8_append, length_utf8_cons rfl, length_utf8_append,
            length_utf8_cons rfl, ih, List.map_cons]
          simp only [joinedLength, encode, nameLength, List.map_cons, List.sum_cons,
            List.length_cons, List.length_map]
          omega

theorem length_encode_object (members : List (String × Json Nat)) :
    (encode (.object members)).length =
      joinedLength (members.map fun member =>
        nameLength member.1 + (encode member.2).length) + 2 := by
  rw [encode, Json.render, length_utf8_cons rfl, length_utf8_append, length_renderMembers]
  rfl

/-- A document is as long as its wrapper, the document without items, and the joined items. -/
theorem length_encode_listed (name listed : String) (head : Json Nat) (items : List (Json Nat)) :
    (encode (.object [(name, head), (listed, .array items)])).length =
      (encode (.object [(name, head), (listed, .array [])])).length +
        joinedLength (items.map fun item => (encode item).length) := by
  rw [length_encode_object, length_encode_object]
  simp only [List.map_cons, List.map_nil, length_encode_array, joinedLength, List.sum_cons,
    List.sum_nil, List.length_cons, List.length_nil]
  omega

end EggReplay.Library.JsonLengths
