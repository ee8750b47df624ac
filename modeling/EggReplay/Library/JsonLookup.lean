import EggReplay.Library.JsonPointer

/-!
The value at a JSON pointer, and what an update at one pointer leaves of the values at
others.
-/

namespace EggReplay.Library.JsonLookup

open EggReplay.Library.Text
open EggReplay.Library.JsonText
open EggReplay.Library.JsonPointer

variable {N : Type}

def valueAt : List String → Json N → Option (Json N)
  | [], value => some value
  | token :: rest, .object members =>
      match members.find? fun member => decide (member.1 = token) with
      | some member => valueAt rest member.2
      | none => none
  | token :: rest, .array items =>
      match (parseIndex token).bind fun i => items[i]? with
      | some item => valueAt rest item
      | none => none
  | _ :: _, _ => none

/-- `Value::pointer`. -/
def pointerValue (value : Json N) (pointer : String) : Option (Json N) :=
  (tokens pointer).bind fun path => valueAt path value

/-! ### Indices -/

def digitValue (c : Char) : Nat := c.toNat - 48

theorem digitValue_lt {c : Char} (h : c.isDigit = true) : digitValue c < 10 := by
  simp only [Char.isDigit, Bool.and_eq_true, decide_eq_true_eq] at h
  have hupper : c.toNat ≤ 57 := h.2
  rw [digitValue]
  omega

theorem ofNat_digitValue {c : Char} (h : c.isDigit = true) :
    Char.ofNat (digitValue c + 48) = c := by
  simp only [Char.isDigit, Bool.and_eq_true, decide_eq_true_eq] at h
  have hlower : 48 ≤ c.toNat := h.1
  have hsum : digitValue c + 48 = c.toNat := by
    rw [digitValue]
    omega
  rw [hsum, Char.ofNat_toNat]

theorem map_digitValue_inj {left right : List Char} (hleft : left.all Char.isDigit = true)
    (hright : right.all Char.isDigit = true)
    (h : left.map digitValue = right.map digitValue) : left = right := by
  have hback : ∀ chars : List Char, chars.all Char.isDigit = true →
      (chars.map digitValue).map (fun n => Char.ofNat (n + 48)) = chars := by
    intro chars hchars
    rw [List.map_map]
    conv_rhs => rw [← List.map_id chars]
    apply List.map_congr_left
    intro c hc
    exact ofNat_digitValue (List.all_eq_true.mp hchars c hc)
  rw [← hback left hleft, h, hback right hright]

theorem foldl_digits (chars : List Char) :
    chars.foldl (fun n c => 10 * n + (c.toNat - 48)) 0 =
      Nat.ofDigits 10 (chars.map digitValue).reverse := by
  rw [Nat.ofDigits_eq_foldr, List.foldr_reverse, List.foldl_map]
  congr 1
  funext n c
  rw [Nat.add_comm]
  rfl

theorem isAscii_of_digits {s : String} (h : s.toList.all Char.isDigit = true) :
    isAscii s = true := by
  rw [isAscii, List.all_eq_true]
  intro c hc
  have hdigit := List.all_eq_true.mp h c hc
  simp only [Char.isDigit, Bool.and_eq_true, decide_eq_true_eq] at hdigit
  have hupper : c.toNat ≤ 57 := hdigit.2
  exact decide_eq_true (by omega)

/-- What an index token consists of. -/
theorem parseIndex_eq_some {token : String} {i : Nat} (h : parseIndex token = some i) :
    token.toList ≠ [] ∧ token.toList.all Char.isDigit = true ∧
      (token.toList.head? = some '0' → token = "0") ∧
      Nat.ofDigits 10 (token.toList.map digitValue).reverse = i := by
  rw [parseIndex] at h
  split at h
  · cases h
  rename_i hcanonical
  obtain ⟨hplus, hzero⟩ := not_or.mp hcanonical
  rw [startsWith_iff] at hplus
  have hparse : parseUsize token =
      if token.toList ≠ [] ∧ token.toList.all Char.isDigit = true ∧
          token.toList.foldl (fun n c => 10 * n + (c.toNat - 48)) 0 < 2 ^ 64 then
        some (token.toList.foldl (fun n c => 10 * n + (c.toNat - 48)) 0)
      else none := by
    unfold parseUsize
    split
    · rename_i rest heq
      exact absurd ⟨rest, heq.symm⟩ hplus
    · rfl
  rw [hparse] at h
  split at h
  · rename_i hdigit
    refine ⟨hdigit.1, hdigit.2.1, ?_, ?_⟩
    · intro hhead
      obtain ⟨rest, heq⟩ := List.head?_eq_some_iff.mp hhead
      have hlead : startsWith token "0" = true := by
        rw [startsWith_iff, heq]
        exact ⟨rest, rfl⟩
      have hsize : token.utf8ByteSize = 1 := by
        by_contra hsize
        exact hzero ⟨hlead, hsize⟩
      rw [utf8ByteSize_of_isAscii (isAscii_of_digits hdigit.2.1), heq, List.length_cons] at hsize
      have hrest : rest = [] := List.length_eq_zero_iff.mp (by omega)
      rw [← String.toList_inj, heq, hrest]
      rfl
    · rw [← foldl_digits]
      exact Option.some.inj h
  · cases h

theorem digits_reverse {chars : List Char} (hdigits : chars.all Char.isDigit = true)
    (hhead : chars.head? ≠ some '0') :
    Nat.digits 10 (Nat.ofDigits 10 (chars.map digitValue).reverse) =
      (chars.map digitValue).reverse := by
  apply Nat.digits_ofDigits 10 (by decide)
  · intro n hn
    obtain ⟨c, hc, rfl⟩ := List.mem_map.mp (List.mem_reverse.mp hn)
    exact digitValue_lt (List.all_eq_true.mp hdigits c hc)
  · intro hne
    rcases chars with _ | ⟨c, rest⟩
    · exact absurd rfl hne
    · have hdigit : c.isDigit = true := by simp_all
      intro hlast
      rw [List.getLast_reverse, List.head_map] at hlast
      apply hhead
      rw [List.head?_cons, ← ofNat_digitValue hdigit]
      have hzero : digitValue c = 0 := hlast
      rw [hzero]

theorem parseIndex_inj {left right : String} {i : Nat} (hleft : parseIndex left = some i)
    (hright : parseIndex right = some i) : left = right := by
  obtain ⟨hne, hdigits, hzero, hvalue⟩ := parseIndex_eq_some hleft
  obtain ⟨hne', hdigits', hzero', hvalue'⟩ := parseIndex_eq_some hright
  -- a number that starts with a zero is the zero, and the other reads as zero too
  have hsame : ∀ {token other : String}, token = "0" →
      other.toList ≠ [] → other.toList.all Char.isDigit = true →
      (other.toList.head? = some '0' → other = "0") →
      Nat.ofDigits 10 (other.toList.map digitValue).reverse =
        Nat.ofDigits 10 (token.toList.map digitValue).reverse → other = "0" := by
    intro token other htoken hother hall himp heq
    by_contra hnot
    have hdigitsOther := digits_reverse hall fun hhead => hnot (himp hhead)
    rw [heq, htoken] at hdigitsOther
    have hnil : (other.toList.map digitValue).reverse = [] := hdigitsOther.symm
    simp [hother] at hnil
  by_cases hl : left.toList.head? = some '0'
  · rw [hzero hl, hsame (hzero hl) hne' hdigits' hzero' (hvalue'.trans hvalue.symm)]
  by_cases hr : right.toList.head? = some '0'
  · rw [hzero' hr, hsame (hzero' hr) hne hdigits hzero (hvalue.trans hvalue'.symm)]
  have hreverse : (left.toList.map digitValue).reverse = (right.toList.map digitValue).reverse := by
    rw [← digits_reverse hdigits hl, ← digits_reverse hdigits' hr, hvalue, hvalue']
  rw [← String.toList_inj]
  exact map_digitValue_inj hdigits hdigits' (List.reverse_injective hreverse)

/-! ### Apart -/

/-- Neither pointer leads to a place at or below the other's. -/
def Apart (left right : List String) : Prop :=
  ¬left <+: right ∧ ¬right <+: left

instance (left right : List String) : Decidable (Apart left right) :=
  inferInstanceAs (Decidable (_ ∧ _))

theorem apart_cons_iff {token token' : String} {left right : List String} :
    Apart (token :: left) (token' :: right) ↔ token ≠ token' ∨ Apart left right := by
  rw [Apart, Apart, List.cons_prefix_cons, List.cons_prefix_cons]
  by_cases h : token = token'
  · simp [h]
  · simp [h, Ne.symm h]

/-- An update at a place leaves the values at the places apart from it. -/
theorem valueAt_modifyAt {path other : List String} (h : Apart path other)
    (f : Json N → Json N) (value : Json N) :
    valueAt path (modifyAt other f value) = valueAt path value := by
  induction path generalizing other value with
  | nil => exact absurd List.nil_prefix h.1
  | cons token rest ih =>
      rcases other with _ | ⟨token', rest'⟩
      · exact absurd List.nil_prefix h.2
      rw [apart_cons_iff] at h
      cases value with
      | null | bool | number | string => rfl
      | array items =>
          rw [modifyAt_array]
          unfold valueAt
          rcases htoken : parseIndex token with _ | i
          · rfl
          rcases htoken' : parseIndex token' with _ | j
          · rfl
          dsimp only [Option.bind_some]
          rw [List.getElem?_modify]
          by_cases hij : j = i
          · subst hij
            have hrest := h.resolve_left fun hne => hne (parseIndex_inj htoken htoken')
            rcases items[j]? with _ | item
            · rfl
            · simpa using ih hrest item
          · simp [hij]
      | object members =>
          rw [modifyAt]
          unfold valueAt
          have hfind : (members.map fun member =>
              if member.1 = token' then (member.1, modifyAt rest' f member.2)
              else member).find? (fun member => decide (member.1 = token)) =
              (members.find? fun member => decide (member.1 = token)).map fun member =>
                if member.1 = token' then (member.1, modifyAt rest' f member.2)
                else member := by
            rw [List.find?_map]
            congr 2
            funext member
            rw [Function.comp_apply]
            split <;> rfl
          rw [hfind]
          generalize hfound : members.find? (fun member => decide (member.1 = token)) = found
          rcases found with _ | member
          · rfl
          · have hname : member.1 = token := by
              simpa using List.find?_some hfound
            dsimp only [Option.map_some]
            by_cases htoken : token = token'
            · rw [if_pos (hname.trans htoken)]
              exact ih (h.resolve_left fun hne => hne htoken) member.2
            · rw [if_neg fun heq => htoken (hname.symm.trans heq)]

end EggReplay.Library.JsonLookup
