import EggReplay.Library.Text

/-!
JSON values over an arbitrary type of numbers, and the compact text a
serializer writes for them. Members keep their written order; the text of a
value contains no control character, so a line feed can end a record.
-/

namespace EggReplay.Library.JsonText

open EggReplay.Library.Text

inductive Json (N : Type) where
  | null
  | bool (value : Bool)
  | number (value : N)
  | string (value : String)
  | array (items : List (Json N))
  | object (members : List (String × Json N))
  deriving Repr

variable {N : Type}

/-- Structural induction with the hypothesis for every item and member. -/
@[elab_as_elim, induction_eliminator]
theorem Json.induction {P : Json N → Prop} (null : P .null)
    (bool : ∀ value, P (.bool value)) (number : ∀ value, P (.number value))
    (string : ∀ value, P (.string value))
    (array : ∀ items, (∀ item ∈ items, P item) → P (.array items))
    (object : ∀ members, (∀ member ∈ members, P member.2) → P (.object members))
    (value : Json N) : P value := by
  refine @Json.rec N P (fun items => ∀ item ∈ items, P item)
    (fun members => ∀ member ∈ members, P member.2) (fun member => P member.2)
    null bool number string array object ?_ ?_ ?_ ?_ ?_ value
  · simp
  · intro head tail hhead htail
    simpa using ⟨hhead, htail⟩
  · simp
  · intro head tail hhead htail
    exact List.forall_mem_cons.mpr ⟨hhead, htail⟩
  · exact fun _ _ h => h

mutual

def Json.beq [DecidableEq N] : Json N → Json N → Bool
  | .null, .null => true
  | .bool a, .bool b => a == b
  | .number a, .number b => decide (a = b)
  | .string a, .string b => a == b
  | .array xs, .array ys => beqItems xs ys
  | .object xs, .object ys => beqMembers xs ys
  | _, _ => false

def beqItems [DecidableEq N] : List (Json N) → List (Json N) → Bool
  | [], [] => true
  | x :: xs, y :: ys => x.beq y && beqItems xs ys
  | _, _ => false

def beqMembers [DecidableEq N] :
    List (String × Json N) → List (String × Json N) → Bool
  | [], [] => true
  | (k, x) :: xs, (l, y) :: ys => k == l && (x.beq y && beqMembers xs ys)
  | _, _ => false

end

theorem Json.beq_iff [DecidableEq N] (x y : Json N) : x.beq y = true ↔ x = y := by
  induction x generalizing y with
  | null => cases y <;> simp [Json.beq]
  | bool a => cases y <;> simp [Json.beq]
  | number a => cases y <;> simp [Json.beq]
  | string a => cases y <;> simp [Json.beq]
  | array xs ih =>
      have hitems : ∀ ys, beqItems xs ys = true ↔ xs = ys := by
        induction xs with
        | nil => intro ys; cases ys <;> simp [beqItems]
        | cons x xs ihxs =>
            intro ys
            cases ys with
            | nil => simp [beqItems]
            | cons y ys =>
                have hx := ih x (by simp) y
                have hxs := ihxs (fun item hitem => ih item (by simp [hitem])) ys
                simp [beqItems, hx, hxs]
      cases y <;> simp [Json.beq, hitems]
  | object xs ih =>
      have hmembers : ∀ ys, beqMembers xs ys = true ↔ xs = ys := by
        induction xs with
        | nil => intro ys; cases ys <;> simp [beqMembers]
        | cons x xs ihxs =>
            intro ys
            cases ys with
            | nil => simp [beqMembers]
            | cons y ys =>
                have hx := ih x (by simp) y.2
                have hxs := ihxs (fun item hitem => ih item (by simp [hitem])) ys
                obtain ⟨k, v⟩ := x
                obtain ⟨l, w⟩ := y
                simp [beqMembers, hx, hxs, and_assoc]
      cases y <;> simp [Json.beq, hmembers]

instance [DecidableEq N] : DecidableEq (Json N) := fun x y =>
  decidable_of_iff (x.beq y = true) (Json.beq_iff x y)

/-- The escape a serializer writes for one character inside a string. -/
def escapeChar (c : Char) : List Char :=
  if c = '"' then ['\\', '"']
  else if c = '\\' then ['\\', '\\']
  else if c.toNat = 0x08 then ['\\', 'b']
  else if c.toNat = 0x09 then ['\\', 't']
  else if c.toNat = 0x0A then ['\\', 'n']
  else if c.toNat = 0x0C then ['\\', 'f']
  else if c.toNat = 0x0D then ['\\', 'r']
  else if c.toNat < 0x20 then
    ['\\', 'u', '0', '0', Nat.digitChar (c.toNat / 16), Nat.digitChar (c.toNat % 16)]
  else [c]

def renderString (s : String) : List Char :=
  '"' :: (s.toList.flatMap escapeChar ++ ['"'])

mutual

/-- The compact text of a value whose numbers print by `printNumber`. -/
def Json.render (printNumber : N → List Char) : Json N → List Char
  | .null => "null".toList
  | .bool true => "true".toList
  | .bool false => "false".toList
  | .number n => printNumber n
  | .string s => renderString s
  | .array items => '[' :: (renderItems printNumber items ++ [']'])
  | .object members => '{' :: (renderMembers printNumber members ++ ['}'])

def renderItems (printNumber : N → List Char) : List (Json N) → List Char
  | [] => []
  | [x] => x.render printNumber
  | x :: y :: rest => x.render printNumber ++ ',' :: renderItems printNumber (y :: rest)

def renderMembers (printNumber : N → List Char) : List (String × Json N) → List Char
  | [] => []
  | [(k, x)] => renderString k ++ ':' :: x.render printNumber
  | (k, x) :: y :: rest =>
      renderString k ++ ':' :: (x.render printNumber ++
        ',' :: renderMembers printNumber (y :: rest))

end

def Printable (chars : List Char) : Prop := ∀ c ∈ chars, 32 ≤ c.toNat

theorem Printable.append {left right : List Char} (hl : Printable left)
    (hr : Printable right) : Printable (left ++ right) := by
  intro c hc
  rcases List.mem_append.mp hc with h | h
  · exact hl c h
  · exact hr c h

theorem Printable.cons {c : Char} {rest : List Char} (hc : 32 ≤ c.toNat)
    (hr : Printable rest) : Printable (c :: rest) :=
  @Printable.append [c] rest (by simpa [Printable] using hc) hr

theorem digitChar_printable {n : Nat} (h : n < 16) : 32 ≤ (Nat.digitChar n).toNat := by
  interval_cases n <;> decide

theorem escapeChar_printable (c : Char) : Printable (escapeChar c) := by
  unfold escapeChar
  repeat' split
  all_goals
    intro d hd
    simp only [List.mem_cons, List.not_mem_nil, or_false] at hd
  case isFalse.isFalse.isFalse.isFalse.isFalse.isFalse.isFalse.isTrue =>
    rcases hd with rfl | rfl | rfl | rfl | rfl | rfl
    all_goals first | decide | exact digitChar_printable (by omega)
  case isFalse.isFalse.isFalse.isFalse.isFalse.isFalse.isFalse.isFalse =>
    subst hd
    omega
  all_goals
    rcases hd with rfl | rfl <;> decide

theorem renderString_printable (s : String) : Printable (renderString s) := by
  apply Printable.cons (by decide)
  apply Printable.append
  · intro c hc
    obtain ⟨d, _, hd⟩ := List.mem_flatMap.mp hc
    exact escapeChar_printable d c hd
  · simp [Printable]

theorem renderItems_printable {printNumber : N → List Char} {items : List (Json N)}
    (h : ∀ item ∈ items, Printable (item.render printNumber)) :
    Printable (renderItems printNumber items) := by
  induction items with
  | nil => simp [renderItems, Printable]
  | cons x rest ih =>
      have hx := h x (by simp)
      have hrest := ih fun item hitem => h item (by simp [hitem])
      cases rest with
      | nil => simpa [renderItems] using hx
      | cons y rest =>
          rw [renderItems]
          exact hx.append (Printable.cons (by decide) hrest)

theorem renderMembers_printable {printNumber : N → List Char}
    {members : List (String × Json N)}
    (h : ∀ member ∈ members, Printable (member.2.render printNumber)) :
    Printable (renderMembers printNumber members) := by
  induction members with
  | nil => simp [renderMembers, Printable]
  | cons member rest ih =>
      obtain ⟨k, x⟩ := member
      have hx : Printable (x.render printNumber) := h (k, x) (by simp)
      have hrest := ih fun item hitem => h item (by simp [hitem])
      have hk := renderString_printable k
      cases rest with
      | nil =>
          rw [renderMembers]
          exact hk.append (Printable.cons (by decide) hx)
      | cons y rest =>
          rw [renderMembers]
          exact hk.append (Printable.cons (by decide)
            (hx.append (Printable.cons (by decide) hrest)))

theorem Json.render_printable {printNumber : N → List Char}
    (hnumber : ∀ n, Printable (printNumber n)) (value : Json N) :
    Printable (value.render printNumber) := by
  induction value with
  | null => simp [Json.render, Printable]
  | bool b => cases b <;> simp [Json.render, Printable]
  | number n => simpa [Json.render] using hnumber n
  | string s => simpa [Json.render] using renderString_printable s
  | array items ih =>
      rw [Json.render]
      exact Printable.cons (by decide)
        ((renderItems_printable ih).append (by simp [Printable]))
  | object members ih =>
      rw [Json.render]
      exact Printable.cons (by decide)
        ((renderMembers_printable ih).append (by simp [Printable]))

theorem le_of_mem_utf8EncodeChar {m : Nat} {c : Char} (hm : m ≤ 128) (h : m ≤ c.toNat)
    {b : UInt8} (hb : b ∈ String.utf8EncodeChar c) : m ≤ b.toNat := by
  have hv : c.val.toNat = c.toNat := rfl
  unfold String.utf8EncodeChar at hb
  simp only [] at hb
  split at hb
  · simp only [List.mem_singleton] at hb
    subst hb
    simp only [UInt8.toNat_ofNat']
    omega
  · split at hb
    · simp only [List.mem_cons, List.not_mem_nil, or_false] at hb
      rcases hb with rfl | rfl <;> simp only [UInt8.toNat_ofNat'] <;> omega
    · split at hb
      · simp only [List.mem_cons, List.not_mem_nil, or_false] at hb
        rcases hb with rfl | rfl | rfl <;> simp only [UInt8.toNat_ofNat'] <;> omega
      · simp only [List.mem_cons, List.not_mem_nil, or_false] at hb
        rcases hb with rfl | rfl | rfl | rfl <;> simp only [UInt8.toNat_ofNat'] <;> omega

theorem newline_not_mem_utf8 {chars : List Char} (h : Printable chars) :
    (10 : UInt8) ∉ utf8 chars := by
  intro hmem
  obtain ⟨c, hc, hb⟩ := List.mem_flatMap.mp hmem
  have := le_of_mem_utf8EncodeChar (by decide) (h c hc) hb
  simp at this

def printNat (n : Nat) : List Char := (Nat.repr n).toList

theorem printNat_printable (n : Nat) : Printable (printNat n) := by
  intro c hc
  have hdigit : c.isDigit = true := by
    simp only [printNat, Nat.repr, String.toList_ofList] at hc
    exact Nat.isDigit_of_mem_toDigits (by decide) (by decide) hc
  have := Char.isDigit_iff_toNat.mp hdigit
  have hzero : '0'.toNat = 48 := rfl
  omega

/-- `serde_json::to_vec` for values whose numbers are natural. -/
def encode (value : Json Nat) : Bytes := utf8 (value.render printNat)

theorem newline_not_mem_encode (value : Json Nat) : (10 : UInt8) ∉ encode value :=
  newline_not_mem_utf8 (value.render_printable printNat_printable)

/-! ### Depth and member order -/

mutual

/-- The value nests at most this deep, and each object has its keys in order, each
key once. -/
def Json.fits : Nat → Json N → Bool
  | depth + 1, .array items => fitsItems depth items
  | depth + 1, .object members =>
      decide ((members.map Prod.fst).Pairwise (· < ·)) && fitsMembers depth members
  | 0, .array _ => false
  | 0, .object _ => false
  | _, _ => true

def fitsItems (depth : Nat) : List (Json N) → Bool
  | [] => true
  | x :: rest => Json.fits depth x && fitsItems depth rest

def fitsMembers (depth : Nat) : List (String × Json N) → Bool
  | [] => true
  | (_, x) :: rest => Json.fits depth x && fitsMembers depth rest

end

theorem fitsItems_iff {depth : Nat} {items : List (Json N)} :
    fitsItems depth items = true ↔ ∀ item ∈ items, item.fits depth = true := by
  induction items with
  | nil => simp [fitsItems]
  | cons x rest ih => rw [fitsItems, Bool.and_eq_true, ih, List.forall_mem_cons]

theorem fitsMembers_iff {depth : Nat} {members : List (String × Json N)} :
    fitsMembers depth members = true ↔
      ∀ member ∈ members, member.2.fits depth = true := by
  induction members with
  | nil => simp [fitsMembers]
  | cons member rest ih =>
      obtain ⟨key, x⟩ := member
      rw [fitsMembers, Bool.and_eq_true, ih, List.forall_mem_cons]

theorem fits_array {depth : Nat} {items : List (Json N)} :
    Json.fits (depth + 1) (.array items) = true ↔
      ∀ item ∈ items, item.fits depth = true := by
  rw [Json.fits, fitsItems_iff]

theorem fits_object {depth : Nat} {members : List (String × Json N)} :
    Json.fits (depth + 1) (.object members) = true ↔
      (members.map Prod.fst).Pairwise (· < ·) ∧
        ∀ member ∈ members, member.2.fits depth = true := by
  rw [Json.fits, Bool.and_eq_true, fitsMembers_iff, decide_eq_true_iff]

end EggReplay.Library.JsonText
