import Mathlib

/-!
String operations in the shape of Rust's `str` methods of the same names.
Lengths count UTF-8 bytes, case folding is ASCII only, white space is the
Unicode property, `stripLead` is `strip_prefix` and `stripTail` is
`strip_suffix`.
-/

namespace EggReplay.Library.Text

abbrev Bytes := List UInt8

def toAsciiLowercase (s : String) : String :=
  String.ofList (s.toList.map Char.toLower)

def eqIgnoreAsciiCase (a b : String) : Bool :=
  decide (toAsciiLowercase a = toAsciiLowercase b)

def isHexDigit (c : Char) : Bool :=
  c.isDigit || ('a' ≤ c && c ≤ 'f') || ('A' ≤ c && c ≤ 'F')

def isWhitespace (c : Char) : Bool :=
  -- U+0009..U+000D, then the remaining code points with the property
  let n := c.toNat
  (9 ≤ n && n ≤ 13) || n == 0x20 || n == 0x85 || n == 0xA0 || n == 0x1680 ||
    (0x2000 ≤ n && n ≤ 0x200A) || n == 0x2028 || n == 0x2029 || n == 0x202F ||
    n == 0x205F || n == 0x3000

def trimStart (s : String) : String :=
  String.ofList (s.toList.dropWhile isWhitespace)

def trim (s : String) : String :=
  String.ofList
    ((s.toList.dropWhile isWhitespace).reverse.dropWhile isWhitespace).reverse

def startsWith (s lead : String) : Bool :=
  lead.toList.isPrefixOf s.toList

def endsWith (s tail : String) : Bool :=
  tail.toList.isSuffixOf s.toList

def stripLead (s lead : String) : Option String :=
  if startsWith s lead then some (String.ofList (s.toList.drop lead.toList.length))
  else none

def stripTail (s tail : String) : Option String :=
  if endsWith s tail then
    some (String.ofList (s.toList.take (s.toList.length - tail.toList.length)))
  else none

def isAscii (s : String) : Bool :=
  s.toList.all fun c => decide (c.toNat < 128)

def containsChar (s : String) (c : Char) : Bool :=
  s.toList.contains c

def splitChars (separator : Char) : List Char → List (List Char)
  | [] => [[]]
  | c :: rest =>
      if c = separator then [] :: splitChars separator rest
      else match splitChars separator rest with
        | [] => [[c]]
        | piece :: pieces => (c :: piece) :: pieces

def split (s : String) (separator : Char) : List String :=
  (splitChars separator s.toList).map String.ofList

def rsplitOnce (s : String) (separator : Char) : Option (String × String) :=
  match s.toList.reverse.span (· ≠ separator) with
  | (_, []) => none
  | (tail, _ :: lead) =>
      some (String.ofList lead.reverse, String.ofList tail.reverse)

def splitOnce (s : String) (separator : Char) : Option (String × String) :=
  match s.toList.span (· ≠ separator) with
  | (_, []) => none
  | (lead, _ :: tail) => some (String.ofList lead, String.ofList tail)

/-- What stands before and after the first occurrence of a two-character pattern. -/
def splitOncePair (first second : Char) : List Char → Option (List Char × List Char)
  | a :: b :: rest =>
      if a = first ∧ b = second then some ([], rest)
      else (splitOncePair first second (b :: rest)).map fun pieces =>
        (a :: pieces.1, pieces.2)
  | _ => none

/-- Replace each occurrence of a two-character pattern by one character, from
left to right and without rescanning, as `str::replace` does. -/
def replacePair (first second replacement : Char) : List Char → List Char
  | a :: b :: rest =>
      if a = first ∧ b = second then
        replacement :: replacePair first second replacement rest
      else a :: replacePair first second replacement (b :: rest)
  | short => short

def utf8 (chars : List Char) : Bytes :=
  chars.flatMap String.utf8EncodeChar

def decodeUtf8 (bytes : Bytes) : Option (List Char) :=
  bytes.toByteArray.utf8Decode?.map Array.toList

def hexByte (byte : UInt8) : List Char :=
  [Nat.digitChar (byte.toNat / 16), Nat.digitChar (byte.toNat % 16)]

@[simp] theorem toList_toAsciiLowercase (s : String) :
    (toAsciiLowercase s).toList = s.toList.map Char.toLower := by
  simp [toAsciiLowercase]

@[simp] theorem toAsciiLowercase_idem (s : String) :
    toAsciiLowercase (toAsciiLowercase s) = toAsciiLowercase s := by
  rw [← String.toList_inj]
  simp [Function.comp_def]

theorem startsWith_iff {s lead : String} :
    startsWith s lead = true ↔ lead.toList <+: s.toList := by
  simp [startsWith]

theorem startsWith_append (lead tail : String) :
    startsWith (lead ++ tail) lead = true := by
  simp [startsWith_iff]

@[simp] theorem stripLead_append (lead tail : String) :
    stripLead (lead ++ tail) lead = some tail := by
  simp [stripLead, startsWith_append]

theorem stripLead_eq_some {s lead tail : String} :
    stripLead s lead = some tail ↔ s = lead ++ tail := by
  constructor
  · intro h
    unfold stripLead at h
    split at h
    · rename_i hlead
      obtain ⟨rest, hrest⟩ := startsWith_iff.mp hlead
      have htail : tail = String.ofList rest := by
        rw [← hrest] at h
        simpa using h.symm
      rw [← String.toList_inj, htail]
      simp [hrest]
    · cases h
  · rintro rfl
    exact stripLead_append lead tail

theorem startsWith_iff_stripLead {s lead : String} :
    startsWith s lead = true ↔ ∃ tail, stripLead s lead = some tail := by
  unfold stripLead
  split <;> simp_all

theorem decodeUtf8_utf8 (chars : List Char) : decodeUtf8 (utf8 chars) = some chars := by
  have h := @List.utf8Decode?_utf8Encode chars
  rw [List.utf8Encode] at h
  simp [decodeUtf8, utf8, h]

theorem decodeUtf8_eq_some {bytes : Bytes} {chars : List Char} :
    decodeUtf8 bytes = some chars ↔ bytes = utf8 chars := by
  constructor
  · intro h
    obtain ⟨decoded, hdecoded, rfl⟩ := Option.map_eq_some_iff.mp h
    have hsome : bytes.toByteArray.utf8Decode?.isSome = true := by
      rw [hdecoded]
      rfl
    have hbytes := ByteArray.utf8Encode_get_utf8Decode? (h := hsome)
    rw [Option.get_of_eq_some _ hdecoded] at hbytes
    exact List.toByteArray_inj.mp hbytes.symm
  · rintro rfl
    exact decodeUtf8_utf8 chars

theorem trim_trim (s : String) : trim (trim s) = trim s := by
  have htrim : ∀ t : String, trim t =
      String.ofList ((t.toList.dropWhile isWhitespace).rdropWhile isWhitespace) := by
    intro t
    rfl
  have hstart : ((s.toList.dropWhile isWhitespace).rdropWhile isWhitespace).dropWhile
      isWhitespace = (s.toList.dropWhile isWhitespace).rdropWhile isWhitespace := by
    have hidem := List.dropWhile_idempotent isWhitespace s.toList
    obtain ⟨tail, htail⟩ :=
      List.rdropWhile_prefix isWhitespace (s.toList.dropWhile isWhitespace)
    generalize hkept : (s.toList.dropWhile isWhitespace).rdropWhile isWhitespace = kept at htail ⊢
    rcases kept with _ | ⟨c, rest⟩
    · rfl
    · rw [← htail, List.cons_append, List.dropWhile_eq_self_iff] at hidem
      rw [List.dropWhile_eq_self_iff]
      intro _
      exact hidem (Nat.succ_pos _)
  rw [htrim (trim s), htrim s, String.toList_ofList, hstart, List.rdropWhile_idempotent]

theorem rsplitOnce_eq_none {s : String} {separator : Char}
    (h : rsplitOnce s separator = none) : separator ∉ s.toList := by
  intro hmem
  rw [rsplitOnce, List.span_eq_takeWhile_dropWhile] at h
  rcases hdrop : s.toList.reverse.dropWhile (· ≠ separator) with _ | ⟨c, lead⟩
  · have hall := List.dropWhile_eq_nil_iff.mp hdrop separator (by simpa using hmem)
    simp at hall
  · rw [hdrop] at h
    cases h

theorem rsplitOnce_eq_some {s parent token : String} {separator : Char}
    (h : rsplitOnce s separator = some (parent, token)) :
    s.toList = parent.toList ++ separator :: token.toList ∧ separator ∉ token.toList := by
  rw [rsplitOnce, List.span_eq_takeWhile_dropWhile] at h
  have hsplit := @List.takeWhile_append_dropWhile _ (· ≠ separator) s.toList.reverse
  have hbefore : ∀ c ∈ s.toList.reverse.takeWhile (· ≠ separator), c ≠ separator := by
    intro c hc
    simpa using List.mem_takeWhile_imp hc
  rcases hdrop : s.toList.reverse.dropWhile (· ≠ separator) with _ | ⟨c, lead⟩
  · rw [hdrop] at h
    cases h
  · have hc : c = separator := by
      have hhead := List.head?_dropWhile_not (· ≠ separator) s.toList.reverse
      rw [hdrop] at hhead
      simpa using hhead
    rw [hdrop] at h hsplit
    generalize s.toList.reverse.takeWhile (· ≠ separator) = tail at h hsplit hbefore
    obtain ⟨rfl, rfl⟩ := Prod.mk.inj (Option.some.inj h)
    constructor
    · rw [← List.reverse_reverse s.toList, ← hsplit, hc]
      simp
    · rw [String.toList_ofList, List.mem_reverse]
      exact fun hmem => hbefore separator hmem rfl

theorem rsplitOnce_append {lead tail : List Char} {separator : Char} (h : separator ∉ tail) :
    rsplitOnce (String.ofList (lead ++ separator :: tail)) separator =
      some (String.ofList lead, String.ofList tail) := by
  have hspan : (lead ++ separator :: tail).reverse.span (· ≠ separator) =
      (tail.reverse, separator :: lead.reverse) := by
    have hlist : (lead ++ separator :: tail).reverse =
        tail.reverse ++ separator :: lead.reverse := by
      simp
    rw [hlist, List.span_eq_takeWhile_dropWhile]
    have hall : ∀ c ∈ tail.reverse, decide (c ≠ separator) = true := by
      intro c hc
      apply decide_eq_true
      rintro rfl
      exact h (List.mem_reverse.mp hc)
    rw [List.takeWhile_append_of_pos hall, List.dropWhile_append_of_pos hall]
    simp
  rw [rsplitOnce, String.toList_ofList, hspan]
  dsimp only
  rw [List.reverse_reverse, List.reverse_reverse]

theorem splitOnce_append {lead tail : List Char} {separator : Char} (h : separator ∉ lead) :
    splitOnce (String.ofList (lead ++ separator :: tail)) separator =
      some (String.ofList lead, String.ofList tail) := by
  have hspan : (lead ++ separator :: tail).span (· ≠ separator) = (lead, separator :: tail) := by
    rw [List.span_eq_takeWhile_dropWhile]
    have hall : ∀ c ∈ lead, decide (c ≠ separator) = true := by
      intro c hc
      apply decide_eq_true
      rintro rfl
      exact h hc
    rw [List.takeWhile_append_of_pos hall, List.dropWhile_append_of_pos hall]
    simp
  rw [splitOnce, String.toList_ofList, hspan]

theorem splitOnce_eq_some {s lead tail : String} {separator : Char}
    (h : splitOnce s separator = some (lead, tail)) :
    s.toList = lead.toList ++ separator :: tail.toList ∧ separator ∉ lead.toList := by
  rw [splitOnce, List.span_eq_takeWhile_dropWhile] at h
  have hsplit := @List.takeWhile_append_dropWhile _ (· ≠ separator) s.toList
  have hbefore : separator ∉ s.toList.takeWhile (· ≠ separator) := by
    intro hmem
    simpa using List.mem_takeWhile_imp hmem
  rcases hdrop : s.toList.dropWhile (· ≠ separator) with _ | ⟨c, rest⟩
  · rw [hdrop] at h
    cases h
  · have hc : c = separator := by
      have hhead := List.head?_dropWhile_not (· ≠ separator) s.toList
      rw [hdrop] at hhead
      simpa using hhead
    rw [hdrop] at h hsplit
    obtain ⟨rfl, rfl⟩ := Prod.mk.inj (Option.some.inj h)
    rw [String.toList_ofList, String.toList_ofList]
    rw [hc] at hsplit
    exact ⟨hsplit.symm, hbefore⟩

theorem splitOncePair_eq_some {first second : Char} {chars lead tail : List Char}
    (h : splitOncePair first second chars = some (lead, tail)) :
    chars = lead ++ first :: second :: tail := by
  induction chars using splitOncePair.induct first second generalizing lead with
  | case1 a b rest hpair =>
      rw [splitOncePair, if_pos hpair, Option.some.injEq, Prod.mk.injEq] at h
      obtain ⟨rfl, rfl⟩ := h
      rw [hpair.1, hpair.2]
      rfl
  | case2 a b rest hpair ih =>
      rw [splitOncePair, if_neg hpair, Option.map_eq_some_iff] at h
      obtain ⟨⟨before, after⟩, hrest, heq⟩ := h
      rw [Prod.mk.injEq] at heq
      obtain ⟨rfl, rfl⟩ := heq
      rw [ih hrest]
      rfl
  | case3 chars hshort =>
      rw [splitOncePair.eq_def] at h
      split at h
      · exact absurd rfl (hshort _ _ _)
      · exact absurd h (by simp)

theorem splitOncePair_cons {first second a : Char} {chars : List Char}
    (h : ¬[first, second] <+: a :: chars) :
    splitOncePair first second (a :: chars) =
      (splitOncePair first second chars).map fun pieces => (a :: pieces.1, pieces.2) := by
  cases chars with
  | nil => rfl
  | cons b rest =>
      rw [splitOncePair, if_neg]
      rintro ⟨rfl, rfl⟩
      exact h ⟨rest, rfl⟩

/-- What stands before the first pair: no pair ends in its text or right behind it. -/
theorem splitOncePair_eq_some_iff {first second : Char} {chars lead tail : List Char} :
    splitOncePair first second chars = some (lead, tail) ↔
      chars = lead ++ first :: second :: tail ∧ ¬[first, second] <:+: lead ++ [first] := by
  constructor
  · intro h
    refine ⟨splitOncePair_eq_some h, ?_⟩
    induction lead generalizing chars with
    | nil =>
        intro hinfix
        exact Nat.not_succ_le_self 1 hinfix.length_le
    | cons a lead ih =>
        have hchars := splitOncePair_eq_some h
        have hpair : ¬[first, second] <+: a :: (lead ++ first :: second :: tail) := by
          rintro ⟨rest, hrest⟩
          rw [hchars, List.cons_append, ← hrest] at h
          rw [List.cons_append, List.cons_append, splitOncePair, if_pos ⟨rfl, rfl⟩] at h
          cases h
        rw [hchars, List.cons_append, splitOncePair_cons hpair, Option.map_eq_some_iff] at h
        obtain ⟨⟨before, after⟩, hrest, heq⟩ := h
        rw [Prod.mk.injEq, List.cons.injEq] at heq
        obtain ⟨⟨_, rfl⟩, rfl⟩ := heq
        rw [List.cons_append, List.infix_cons_iff]
        rintro (hlead | hinfix)
        · apply hpair
          rw [show first :: second :: after = [first] ++ second :: after from rfl,
            ← List.append_assoc, ← List.cons_append]
          exact hlead.trans (List.prefix_append _ _)
        · exact ih hrest hinfix
  · rintro ⟨rfl, hnone⟩
    induction lead with
    | nil => rw [List.nil_append, splitOncePair, if_pos ⟨rfl, rfl⟩]
    | cons a lead ih =>
        rw [List.cons_append, List.infix_cons_iff, not_or] at hnone
        have hpair : ¬[first, second] <+: a :: (lead ++ first :: second :: tail) := by
          intro hlead
          apply hnone.1
          rw [List.prefix_cons_iff] at hlead ⊢
          rcases hlead with hempty | ⟨rest, hrest, hlead⟩
          · exact .inl hempty
          · obtain ⟨rfl, rfl⟩ := List.cons.inj hrest
            refine .inr ⟨[second], rfl, ?_⟩
            cases lead with
            | nil =>
                rw [List.nil_append, List.cons_prefix_cons] at hlead
                rw [List.nil_append, List.cons_prefix_cons]
                exact ⟨hlead.1, List.nil_prefix⟩
            | cons b lead =>
                rw [List.cons_append, List.cons_prefix_cons] at hlead
                rw [List.cons_append, List.cons_prefix_cons]
                exact ⟨hlead.1, List.nil_prefix⟩
        rw [List.cons_append, splitOncePair_cons hpair, ih hnone.2]
        rfl

theorem splitOncePair_eq_none_iff {first second : Char} {chars : List Char} :
    splitOncePair first second chars = none ↔ ¬[first, second] <:+: chars := by
  constructor
  · intro h
    induction chars with
    | nil =>
        intro hinfix
        exact Nat.not_succ_le_zero 1 hinfix.length_le
    | cons a chars ih =>
        have hpair : ¬[first, second] <+: a :: chars := by
          rintro ⟨rest, hrest⟩
          rw [← hrest, List.cons_append, List.cons_append, splitOncePair, if_pos ⟨rfl, rfl⟩] at h
          cases h
        rw [splitOncePair_cons hpair, Option.map_eq_none_iff] at h
        rw [List.infix_cons_iff]
        rintro (hlead | hinfix)
        · exact hpair hlead
        · exact ih h hinfix
  · intro hnone
    cases h : splitOncePair first second chars with
    | none => rfl
    | some found =>
        refine absurd ⟨found.1, found.2, ?_⟩ hnone
        rw [splitOncePair_eq_some h, List.append_assoc]
        rfl

theorem splitChars_ne_nil (separator : Char) (chars : List Char) :
    splitChars separator chars ≠ [] := by
  rcases chars with _ | ⟨c, rest⟩
  · simp [splitChars]
  · rw [splitChars]
    split
    · simp
    · split <;> simp

theorem splitChars_append (separator : Char) (left right : List Char) :
    splitChars separator (left ++ separator :: right) =
      splitChars separator left ++ splitChars separator right := by
  induction left with
  | nil => simp [splitChars]
  | cons c left ih =>
      rw [List.cons_append, splitChars, splitChars, ih]
      split
      · rfl
      · rcases h : splitChars separator left with _ | ⟨piece, pieces⟩
        · exact absurd h (splitChars_ne_nil _ _)
        · rfl

theorem splitChars_of_not_mem {separator : Char} {chars : List Char}
    (h : separator ∉ chars) : splitChars separator chars = [chars] := by
  induction chars with
  | nil => rfl
  | cons c rest ih =>
      rw [splitChars, if_neg (by rintro rfl; simp at h), ih (by simp_all)]

/-- A character of a text is a separator or in one of the pieces. -/
theorem mem_splitChars {separator c : Char} {chars : List Char} (h : c ∈ chars) :
    c = separator ∨ ∃ piece ∈ splitChars separator chars, c ∈ piece := by
  induction chars with
  | nil => exact absurd h List.not_mem_nil
  | cons first rest ih =>
      rw [splitChars]
      split
      · rename_i hfirst
        rcases List.mem_cons.mp h with rfl | h
        · exact .inl hfirst
        · rcases ih h with heq | ⟨piece, hpiece, hc⟩
          · exact .inl heq
          · exact .inr ⟨piece, List.mem_cons_of_mem _ hpiece, hc⟩
      · rcases hsplit : splitChars separator rest with _ | ⟨head, pieces⟩
        · exact absurd hsplit (splitChars_ne_nil _ _)
        · rcases List.mem_cons.mp h with rfl | h
          · exact .inr ⟨_, List.mem_cons_self, List.mem_cons_self⟩
          · rcases ih h with heq | ⟨piece, hpiece, hc⟩
            · exact .inl heq
            · right
              rw [hsplit] at hpiece
              rcases List.mem_cons.mp hpiece with rfl | hpiece
              · exact ⟨_, List.mem_cons_self, List.mem_cons_of_mem _ hc⟩
              · exact ⟨piece, List.mem_cons_of_mem _ hpiece, hc⟩

theorem stripTail_eq_some {s lead tail : String} :
    stripTail s tail = some lead ↔ s = lead ++ tail := by
  have hlength : ∀ (lead : List Char), (lead ++ tail.toList).take
      ((lead ++ tail.toList).length - tail.toList.length) = lead := by
    intro lead
    rw [List.length_append, Nat.add_sub_cancel, List.take_left]
  constructor
  · intro h
    unfold stripTail endsWith at h
    split at h
    · rename_i htail
      obtain ⟨before, hbefore⟩ := List.isSuffixOf_iff_suffix.mp htail
      rw [← hbefore, hlength] at h
      rw [← String.toList_inj, String.toList_append, ← Option.some.inj h, String.toList_ofList,
        hbefore]
    · cases h
  · rintro rfl
    have htail : endsWith (lead ++ tail) tail = true := by
      rw [endsWith, List.isSuffixOf_iff_suffix, String.toList_append]
      exact List.suffix_append _ _
    rw [stripTail, if_pos htail, String.toList_append, hlength, String.ofList_toList]

theorem stripTail_eq_none {s tail : String} :
    stripTail s tail = none ↔ ∀ lead, s ≠ lead ++ tail := by
  rw [Option.eq_none_iff_forall_ne_some]
  simp only [Ne, stripTail_eq_some]

theorem length_utf8 (s : String) : (utf8 s.toList).length = s.utf8ByteSize := by
  have hbytes : s.toByteArray = (utf8 s.toList).toByteArray := by
    conv_lhs => rw [← String.ofList_toList (s := s), String.toByteArray_ofList]
    rfl
  rw [String.utf8ByteSize, hbytes, List.size_toByteArray]

/-- A text of ASCII characters has a byte for each. -/
theorem utf8ByteSize_of_isAscii {s : String} (h : isAscii s = true) :
    s.utf8ByteSize = s.toList.length := by
  have hchars : ∀ chars : List Char, (∀ c ∈ chars, c.toNat < 128) →
      (String.ofList chars).utf8ByteSize = chars.length := by
    intro chars
    induction chars with
    | nil => exact fun _ => rfl
    | cons c chars ih =>
        intro hchars
        have hc := hchars c List.mem_cons_self
        have hsize : c.utf8Size = 1 := by
          rw [Char.utf8Size_eq_one_iff]
          exact UInt32.le_iff_toNat_le.mpr (Nat.le_of_lt_succ hc)
        have hsplit : String.ofList (c :: chars) = String.singleton c ++ String.ofList chars := by
          rw [← String.toList_inj]
          simp
        rw [hsplit, String.utf8ByteSize_append, ih fun other hother =>
          hchars other (List.mem_cons_of_mem _ hother), String.utf8ByteSize_singleton, hsize,
          List.length_cons, Nat.add_comm]
  have hsize := hchars s.toList (by simpa [isAscii] using h)
  rwa [String.ofList_toList] at hsize

end EggReplay.Library.Text
