import EggReplay.Library.JsonText

/-!
A reader for the compact text that a serializer writes, numbers being natural. It
takes a value back from the front of a text, and a whole text only if the text is
the one written for the value, up to leading spaces.
-/

namespace EggReplay.Library.JsonReader

open EggReplay.Library.Text
open EggReplay.Library.JsonText

def hexValue (c : Char) : Nat :=
  if c.isDigit = true then c.toNat - 48 else c.toNat - 87

/-- The character that the front of a text stands for inside a string. -/
def readChar : List Char → Option (Char × List Char)
  | '\\' :: '"' :: rest => some ('"', rest)
  | '\\' :: '\\' :: rest => some ('\\', rest)
  | '\\' :: 'b' :: rest => some (Char.ofNat 0x08, rest)
  | '\\' :: 't' :: rest => some (Char.ofNat 0x09, rest)
  | '\\' :: 'n' :: rest => some (Char.ofNat 0x0A, rest)
  | '\\' :: 'f' :: rest => some (Char.ofNat 0x0C, rest)
  | '\\' :: 'r' :: rest => some (Char.ofNat 0x0D, rest)
  | '\\' :: 'u' :: '0' :: '0' :: high :: low :: rest =>
      some (Char.ofNat (16 * hexValue high + hexValue low), rest)
  | '\\' :: _ => none
  | c :: rest => some (c, rest)
  | [] => none

/-- A string after its opening quotation mark. -/
def readString : Nat → List Char → Option (List Char × List Char)
  | 0, _ => none
  | _ + 1, '"' :: rest => some ([], rest)
  | fuel + 1, text =>
      (readChar text).bind fun (c, rest) =>
        (readString fuel rest).map fun (chars, after) => (c :: chars, after)

def readNumber (text : List Char) : Option (Nat × List Char) :=
  match text.takeWhile Char.isDigit with
  | [] => none
  | digits => some (Nat.ofDigitChars 10 digits 0, text.dropWhile Char.isDigit)

mutual

def readValue : Nat → List Char → Option (Json Nat × List Char)
  | 0, _ => none
  | _ + 1, 'n' :: 'u' :: 'l' :: 'l' :: rest => some (.null, rest)
  | _ + 1, 't' :: 'r' :: 'u' :: 'e' :: rest => some (.bool true, rest)
  | _ + 1, 'f' :: 'a' :: 'l' :: 's' :: 'e' :: rest => some (.bool false, rest)
  | fuel + 1, '"' :: text =>
      (readString fuel text).map fun (chars, rest) => (.string (String.ofList chars), rest)
  | _ + 1, '[' :: ']' :: rest => some (.array [], rest)
  | fuel + 1, '[' :: text =>
      (readItems fuel text).map fun (items, rest) => (.array items, rest)
  | _ + 1, '\x7b' :: '\x7d' :: rest => some (.object [], rest)
  | fuel + 1, '\x7b' :: text =>
      (readMembers fuel text).map fun (members, rest) => (.object members, rest)
  | _ + 1, text => (readNumber text).map fun (n, rest) => (.number n, rest)

/-- The items from one of them up to the closing bracket. -/
def readItems : Nat → List Char → Option (List (Json Nat) × List Char)
  | 0, _ => none
  | fuel + 1, text =>
      (readValue fuel text).bind fun
        | (x, ',' :: rest) =>
            (readItems fuel rest).map fun (items, after) => (x :: items, after)
        | (x, ']' :: rest) => some ([x], rest)
        | _ => none

def readMembers : Nat → List Char → Option (List (String × Json Nat) × List Char)
  | fuel + 1, '"' :: text =>
      (readString fuel text).bind fun
        | (key, ':' :: rest) =>
            (readValue fuel rest).bind fun
              | (x, ',' :: next) =>
                  (readMembers fuel next).map fun (members, after) =>
                    ((String.ofList key, x) :: members, after)
              | (x, '\x7d' :: after) => some ([(String.ofList key, x)], after)
              | _ => none
        | _ => none
  | _, _ => none

end

theorem readChar_escapeChar (c : Char) (rest : List Char) :
    readChar (escapeChar c ++ rest) = some (c, rest) := by
  have hcode : ∀ n, c.toNat = n → Char.ofNat n = c := by
    rintro n rfl
    exact Char.ofNat_toNat c
  unfold escapeChar
  split
  · rename_i h
    rw [h]
    rfl
  split
  · rename_i h
    rw [h]
    rfl
  split
  · rename_i h
    rw [← hcode _ h]
    rfl
  split
  · rename_i h
    rw [← hcode _ h]
    rfl
  split
  · rename_i h
    rw [← hcode _ h]
    rfl
  split
  · rename_i h
    rw [← hcode _ h]
    rfl
  split
  · rename_i h
    rw [← hcode _ h]
    rfl
  split
  · have hdigit : ∀ n < 16, hexValue (Nat.digitChar n) = n := by decide
    simp only [List.cons_append, List.nil_append, readChar, Option.some.injEq,
      Prod.mk.injEq, and_true]
    apply hcode
    rw [hdigit _ (by omega), hdigit _ (by omega)]
    omega
  · rename_i _ hslash _ _ _ _ _ _
    rw [List.singleton_append, readChar.eq_def]
    split <;> simp_all

theorem escapeChar_head (c : Char) :
    ∃ first rest, escapeChar c = first :: rest ∧ first ≠ '"' := by
  unfold escapeChar
  repeat' split
  all_goals first
    | exact ⟨_, _, rfl, by decide⟩
    | exact ⟨c, [], rfl, ‹¬c = '"'›⟩

theorem readString_render (chars rest : List Char) (fuel : Nat)
    (hfuel : (chars.flatMap escapeChar).length < fuel) :
    readString fuel (chars.flatMap escapeChar ++ '"' :: rest) = some (chars, rest) := by
  induction chars generalizing fuel with
  | nil =>
      obtain ⟨n, rfl⟩ : ∃ n, fuel = n + 1 := ⟨fuel - 1, by omega⟩
      rfl
  | cons c chars ih =>
      obtain ⟨n, rfl⟩ : ∃ n, fuel = n + 1 := ⟨fuel - 1, by omega⟩
      obtain ⟨first, tail, hhead, hquote⟩ := escapeChar_head c
      have hlength : (chars.flatMap escapeChar).length < n := by
        rw [List.flatMap_cons, List.length_append, hhead, List.length_cons] at hfuel
        omega
      have hchar := readChar_escapeChar c (chars.flatMap escapeChar ++ '"' :: rest)
      rw [hhead, List.cons_append] at hchar
      rw [List.flatMap_cons, List.append_assoc, hhead, List.cons_append, readString, hchar,
        Option.bind_some]
      · simp only [ih n hlength, Option.map_some]
      · intro _ h
        exact hquote (List.cons.inj h).1

theorem takeWhile_digits {digits rest : List Char}
    (hdigits : ∀ c ∈ digits, c.isDigit = true) (hrest : ∀ c ∈ rest.head?, c.isDigit = false) :
    (digits ++ rest).takeWhile Char.isDigit = digits ∧
      (digits ++ rest).dropWhile Char.isDigit = rest := by
  induction digits with
  | nil =>
      rcases rest with _ | ⟨c, rest⟩
      · exact ⟨rfl, rfl⟩
      · have hc : c.isDigit = false := hrest c (by simp)
        simp [hc]
  | cons d digits ih =>
      have hd : d.isDigit = true := hdigits d (by simp)
      obtain ⟨htake, hdrop⟩ := ih fun c hc => hdigits c (by simp [hc])
      simp [hd, htake, hdrop]

theorem printNat_digits (n : Nat) : ∀ c ∈ printNat n, c.isDigit = true := by
  intro c hc
  simp only [printNat, Nat.repr, String.toList_ofList] at hc
  exact Nat.isDigit_of_mem_toDigits (by decide) (by decide) hc

theorem printNat_head (n : Nat) :
    ∃ first rest, printNat n = first :: rest ∧ first.isDigit = true := by
  rcases h : printNat n with _ | ⟨first, rest⟩
  · simp [printNat, Nat.repr] at h
  · exact ⟨first, rest, rfl, printNat_digits n first (by simp [h])⟩

theorem readNumber_printNat (n : Nat) {rest : List Char}
    (hrest : ∀ c ∈ rest.head?, c.isDigit = false) :
    readNumber (printNat n ++ rest) = some (n, rest) := by
  obtain ⟨htake, hdrop⟩ := takeWhile_digits (printNat_digits n) hrest
  obtain ⟨first, tail, hhead, -⟩ := printNat_head n
  unfold readNumber
  rw [htake, hdrop, hhead]
  show some (Nat.ofDigitChars 10 (first :: tail) 0, rest) = some (n, rest)
  rw [← hhead]
  simp [printNat, Nat.repr]

/-- What may follow a value: a comma, a closing bracket or the end. -/
def NoDigitNext (rest : List Char) : Prop := ∀ c ∈ rest.head?, c.isDigit = false

theorem readItems_render {items : List (Json Nat)} {rest : List Char} {fuel : Nat}
    (hne : items ≠ [])
    (ih : ∀ item ∈ items, ∀ fuel after, NoDigitNext after →
      (item.render printNat).length < fuel →
      readValue fuel (item.render printNat ++ after) = some (item, after))
    (hfuel : (renderItems printNat items).length < fuel) :
    readItems (fuel + 1) (renderItems printNat items ++ ']' :: rest) = some (items, rest) := by
  induction items generalizing fuel with
  | nil => exact absurd rfl hne
  | cons x items step =>
      have hx := ih x (by simp)
      rcases items with _ | ⟨y, items⟩
      · rw [renderItems] at hfuel ⊢
        rw [readItems, hx fuel (']' :: rest) (by simp [NoDigitNext]) hfuel]
        rfl
      · rw [renderItems] at hfuel ⊢
        rw [List.length_append, List.length_cons] at hfuel
        obtain ⟨n, rfl⟩ : ∃ n, fuel = n + 1 := ⟨fuel - 1, by omega⟩
        have hrest := @step n (by simp) (fun item hitem => ih item (by simp [hitem]))
          (by omega)
        rw [List.append_assoc, List.cons_append, readItems,
          hx (n + 1) _ (by simp [NoDigitNext]) (by omega)]
        simp only [Option.bind_some, hrest, Option.map_some]

theorem readMembers_render {members : List (String × Json Nat)} {rest : List Char}
    {fuel : Nat} (hne : members ≠ [])
    (ih : ∀ member ∈ members, ∀ fuel after, NoDigitNext after →
      (member.2.render printNat).length < fuel →
      readValue fuel (member.2.render printNat ++ after) = some (member.2, after))
    (hfuel : (renderMembers printNat members).length < fuel) :
    readMembers (fuel + 1) (renderMembers printNat members ++ '\x7d' :: rest) =
      some (members, rest) := by
  induction members generalizing fuel with
  | nil => exact absurd rfl hne
  | cons member members step =>
      obtain ⟨key, x⟩ := member
      have hx := ih (key, x) (by simp)
      rcases members with _ | ⟨next, members⟩
      · rw [renderMembers, renderString] at hfuel ⊢
        simp only [List.cons_append, List.append_assoc, List.length_cons, List.length_append,
          List.nil_append] at hfuel ⊢
        rw [readMembers, readString_render key.toList _ fuel (by omega)]
        simp only [Option.bind_some]
        rw [hx fuel _ (by simp [NoDigitNext]) (by simp only; omega)]
        simp
      · rw [renderMembers, renderString] at hfuel ⊢
        simp only [List.cons_append, List.append_assoc, List.length_cons, List.length_append,
          List.nil_append] at hfuel ⊢
        obtain ⟨n, rfl⟩ : ∃ n, fuel = n + 1 := ⟨fuel - 1, by omega⟩
        have hrest := @step n (by simp) (fun item hitem => ih item (by simp [hitem]))
          (by omega)
        rw [readMembers, readString_render key.toList _ (n + 1) (by omega)]
        simp only [Option.bind_some]
        rw [hx (n + 1) _ (by simp [NoDigitNext]) (by simp only; omega)]
        simp [hrest]

theorem render_head (value : Json Nat) :
    ∃ first rest, value.render printNat = first :: rest ∧ first ≠ ']' ∧ 33 ≤ first.toNat := by
  rcases value with _ | b | n | _ | _ | _
  · exact ⟨_, _, rfl, by decide, by decide⟩
  · cases b <;> exact ⟨_, _, rfl, by decide, by decide⟩
  · obtain ⟨first, rest, hhead, hdigit⟩ := printNat_head n
    refine ⟨first, rest, hhead, ?_, ?_⟩
    · rintro rfl
      simp at hdigit
    · have hzero : '0'.toNat = 48 := rfl
      have := Char.isDigit_iff_toNat.mp hdigit
      omega
  · exact ⟨_, _, rfl, by decide, by decide⟩
  · exact ⟨_, _, rfl, by decide, by decide⟩
  · exact ⟨_, _, rfl, by decide, by decide⟩

theorem renderItems_head (x : Json Nat) (items : List (Json Nat)) :
    ∃ first rest, renderItems printNat (x :: items) = first :: rest ∧ first ≠ ']' := by
  obtain ⟨first, rest, hhead, hfirst, -⟩ := render_head x
  rcases items with _ | ⟨y, items⟩
  · exact ⟨first, rest, hhead, hfirst⟩
  · exact ⟨first, _, by rw [renderItems, hhead, List.cons_append], hfirst⟩

theorem readValue_render (value : Json Nat) (fuel : Nat) (rest : List Char)
    (hrest : NoDigitNext rest) (hfuel : (value.render printNat).length < fuel) :
    readValue fuel (value.render printNat ++ rest) = some (value, rest) := by
  obtain ⟨n, rfl⟩ : ∃ n, fuel = n + 1 := ⟨fuel - 1, by omega⟩
  induction value generalizing n rest with
  | null => rfl
  | bool b => cases b <;> rfl
  | number m =>
      obtain ⟨first, tail, hhead, hdigit⟩ := printNat_head m
      have hnumber := readNumber_printNat m hrest
      have hdispatch : ∀ c, c.isDigit = false → first ≠ c := by
        rintro c hc rfl
        rw [hdigit] at hc
        cases hc
      rw [Json.render, hhead, List.cons_append] at *
      rw [readValue.eq_def]
      split
      all_goals first
        | exact absurd (List.cons.inj ‹_›).1 (hdispatch _ (by decide))
        | simp_all
  | string s =>
      rw [Json.render, renderString] at *
      simp only [List.cons_append, List.append_assoc, List.length_cons, List.length_append,
        List.nil_append] at hfuel ⊢
      rw [readValue, readString_render s.toList _ n (by omega)]
      simp
  | array items ih =>
      rw [Json.render] at *
      rcases items with _ | ⟨x, items⟩
      · rfl
      obtain ⟨first, tail, hhead, hfirst⟩ := renderItems_head x items
      simp only [List.cons_append, List.append_assoc, List.length_cons, List.length_append,
        List.nil_append] at hfuel ⊢
      obtain ⟨m, rfl⟩ : ∃ m, n = m + 1 := ⟨n - 1, by omega⟩
      have hitems := @readItems_render (x :: items) rest m (by simp)
        (fun item hitem fuel after hafter hlength => by
          obtain ⟨k, rfl⟩ : ∃ k, fuel = k + 1 := ⟨fuel - 1, by omega⟩
          exact ih item hitem after hafter k hlength) (by omega)
      rw [hhead, List.cons_append] at hitems ⊢
      rw [readValue, hitems]
      · rfl
      · intro _ h
        exact hfirst (List.cons.inj h).1
  | object members ih =>
      rw [Json.render] at *
      rcases members with _ | ⟨member, members⟩
      · rfl
      obtain ⟨tail, hhead⟩ : ∃ tail, renderMembers printNat (member :: members) = '"' :: tail := by
        obtain ⟨key, x⟩ := member
        rcases members with _ | ⟨next, members⟩ <;> exact ⟨_, rfl⟩
      simp only [List.cons_append, List.append_assoc, List.length_cons, List.length_append,
        List.nil_append] at hfuel ⊢
      obtain ⟨m, rfl⟩ : ∃ m, n = m + 1 := ⟨n - 1, by omega⟩
      have hmembers := @readMembers_render (member :: members) rest m (by simp)
        (fun item hitem fuel after hafter hlength => by
          obtain ⟨k, rfl⟩ : ∃ k, fuel = k + 1 := ⟨fuel - 1, by omega⟩
          exact ih item hitem after hafter k hlength) (by omega)
      rw [hhead, List.cons_append] at hmembers ⊢
      rw [readValue, hmembers]
      · rfl
      · intro _ h
        exact absurd (List.cons.inj h).1 (by decide)

/-! ### Whole texts -/

def depthLimit : Nat := 127

def decodeText (text : Bytes) : Option (Json Nat) :=
  match (decodeUtf8 text).bind fun chars => readValue (chars.length + 1) chars with
  | some (value, _) =>
      if encode value = text ∧ value.fits depthLimit = true then some value else none
  | none => none

/-- The value whose compact text the bytes are, after spaces; an object's keys are to
be in order and the nesting within the limit. -/
def decode (bytes : Bytes) : Option (Json Nat) :=
  decodeText (bytes.dropWhile (· = 0x20))

theorem encode_head (value : Json Nat) :
    ∃ first rest, encode value = first :: rest ∧ first ≠ 0x20 := by
  obtain ⟨c, tail, hhead, -, hc⟩ := render_head value
  rcases hbytes : String.utf8EncodeChar c with _ | ⟨first, rest⟩
  · simp at hbytes
  · refine ⟨first, rest ++ utf8 tail, ?_, ?_⟩
    · rw [encode, hhead, utf8, List.flatMap_cons, hbytes]
      rfl
    · rintro rfl
      have := le_of_mem_utf8EncodeChar (by decide) hc (hbytes ▸ List.mem_cons_self)
      simp at this

theorem decode_encode {value : Json Nat} (h : value.fits depthLimit = true) :
    decode (encode value) = some value := by
  have hspaces : (encode value).dropWhile (· = 0x20) = encode value := by
    obtain ⟨first, rest, hhead, hfirst⟩ := encode_head value
    rw [hhead, List.dropWhile_cons_of_neg (by simpa using hfirst)]
  have hread := readValue_render value ((value.render printNat).length + 1) []
    (by simp [NoDigitNext]) (by omega)
  rw [List.append_nil] at hread
  rw [decode, hspaces]
  simp only [decodeText]
  simp only [encode, decodeUtf8_utf8, Option.bind_some, hread, h, and_self, if_true]

theorem fits_of_decode {bytes : Bytes} {value : Json Nat} (h : decode bytes = some value) :
    value.fits depthLimit = true := by
  unfold decode decodeText at h
  split at h
  · split at h
    · rename_i hfits
      obtain rfl := Option.some.inj h
      exact hfits.2
    · cases h
  · cases h

theorem decode_space (bytes : Bytes) : decode (0x20 :: bytes) = decode bytes := by
  unfold decode
  rw [List.dropWhile_cons_of_pos (by simp)]

theorem decode_nil : decode [] = none := rfl

end EggReplay.Library.JsonReader
