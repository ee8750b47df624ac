import EggReplay.Library.Checks

/-!
XML 1.0 documents that consist of elements, attributes, character data and references, without
a prolog, comments, processing instructions and CDATA sections: the reader of a document, and
the writer of a tree, whose text is read back as the tree.
-/

namespace EggReplay.Library.Xml

open EggReplay.Library.Checks

abbrev Word := List Char

/-- What a document or the content of an element consists of. -/
inductive Item where
  | char (c : Char)
  | element (name : Word) (attributes : List (Word × Word)) (content : List Item)

/-! ### Characters -/

/-- The characters that a document may consist of. -/
def isChar (c : Char) : Bool :=
  c == '\t' || c == '\n' || c == '\r' || (0x20 ≤ c.toNat && c.toNat ≤ 0xD7FF) ||
    (0xE000 ≤ c.toNat && c.toNat ≤ 0xFFFD) || (0x10000 ≤ c.toNat && c.toNat ≤ 0x10FFFF)

def isSpace (c : Char) : Bool := c == ' ' || c == '\t' || c == '\n' || c == '\r'

/-- The blocks that a name may begin with beside the letters. -/
def nameStartBlocks : List (Nat × Nat) :=
  [(0xC0, 0xD6), (0xD8, 0xF6), (0xF8, 0x2FF), (0x370, 0x37D), (0x37F, 0x1FFF), (0x200C, 0x200D),
    (0x2070, 0x218F), (0x2C00, 0x2FEF), (0x3001, 0xD7FF), (0xF900, 0xFDCF), (0xFDF0, 0xFFFD),
    (0x10000, 0xEFFFF)]

def within (blocks : List (Nat × Nat)) (c : Char) : Bool :=
  blocks.any fun block => block.1 ≤ c.toNat && c.toNat ≤ block.2

def isNameStart (c : Char) : Bool :=
  c.isAlpha || c == ':' || c == '_' || within nameStartBlocks c

def isNameChar (c : Char) : Bool :=
  isNameStart c || c.isDigit || c == '-' || c == '.' ||
    within [(0xB7, 0xB7), (0x300, 0x36F), (0x203F, 0x2040)] c

/-! ### References -/

def digitValue (radix : Nat) (c : Char) : Option Nat :=
  let value :=
    if c.isDigit = true then some (c.toNat - 48)
    else if 97 ≤ c.toNat ∧ c.toNat ≤ 102 then some (c.toNat - 87)
    else if 65 ≤ c.toNat ∧ c.toNat ≤ 70 then some (c.toNat - 55)
    else none
  value.filter (· < radix)

def numberOf (radix : Nat) (digits : Word) : Option Nat :=
  if digits = [] then none
  else digits.foldlM (fun n c => (digitValue radix c).map (radix * n + ·)) 0

def charOf (code : Nat) : Option Char :=
  if code.isValidChar ∧ isChar (Char.ofNat code) = true then some (Char.ofNat code) else none

/-- The character that stands for a reference, given by what is between `&` and the semicolon. -/
def reference : Word → Option Char
  | '#' :: 'x' :: digits => (numberOf 16 digits).bind charOf
  | '#' :: digits => (numberOf 10 digits).bind charOf
  | name =>
      if name = "amp".toList then some '&'
      else if name = "lt".toList then some '<'
      else if name = "gt".toList then some '>'
      else if name = "quot".toList then some '"'
      else if name = "apos".toList then some '\''
      else none

def readReference (chars : Word) : Option (Char × Word) :=
  match chars.dropWhile (· != ';') with
  | _ :: rest => (reference (chars.takeWhile (· != ';'))).map fun c => (c, rest)
  | [] => none

/-! ### Tags -/

def readName : Word → Option (Word × Word)
  | [] => none
  | c :: rest =>
      if isNameStart c = true then
        some (c :: rest.takeWhile isNameChar, rest.dropWhile isNameChar)
      else none

/-- The value of an attribute after its opening quote. -/
def readValue (quote : Char) : Nat → Word → Option (Word × Word)
  | 0, _ => none
  | _ + 1, [] => none
  | fuel + 1, c :: rest =>
      if c = quote then some ([], rest)
      else if c = '<' then none
      else if c = '&' then do
        let read ← readReference rest
        let more ← readValue quote fuel read.2
        pure (read.1 :: more.1, more.2)
      else do
        let more ← readValue quote fuel rest
        pure (c :: more.1, more.2)

/-- An attribute from its name on. -/
def readAttribute (chars : Word) : Option ((Word × Word) × Word) := do
  let name ← readName chars
  match name.2.dropWhile isSpace with
  | '=' :: rest =>
      match rest.dropWhile isSpace with
      | '"' :: rest => (readValue '"' (rest.length + 1) rest).map fun value =>
          ((name.1, value.1), value.2)
      | '\'' :: rest => (readValue '\'' (rest.length + 1) rest).map fun value =>
          ((name.1, value.1), value.2)
      | _ => none
  | _ => none

/-- The attributes after the name of an element, up to the end of the tag, and whether it is the
tag of an empty element. -/
def readAttributes : Nat → Word → Option (List (Word × Word) × Bool × Word)
  | 0, _ => none
  | fuel + 1, chars =>
      match chars.dropWhile isSpace with
      | '>' :: rest => some ([], false, rest)
      | '/' :: '>' :: rest => some ([], true, rest)
      | rest =>
          if chars.head?.any isSpace = true then do
            let entry ← readAttribute rest
            let more ← readAttributes fuel entry.2
            pure (entry.1 :: more.1, more.2)
          else none

def readEnd (name chars : Word) : Option Word :=
  match chars with
  | '<' :: '/' :: rest => do
      let read ← readName rest
      if read.1 = name then
        match read.2.dropWhile isSpace with
        | '>' :: rest => some rest
        | _ => none
      else none
  | _ => none

/-! ### Documents -/

/-- The items up to an end tag or the end of the document. -/
def readContent : Nat → Word → Option (List Item × Word)
  | 0, _ => none
  | _ + 1, [] => some ([], [])
  | _ + 1, '<' :: '/' :: rest => some ([], '<' :: '/' :: rest)
  | fuel + 1, '<' :: tag => do
      let name ← readName tag
      let attributes ← readAttributes (name.2.length + 1) name.2
      if (attributes.1.map Prod.fst).Nodup then do
        let content ←
          if attributes.2.1 = true then some ([], attributes.2.2)
          else do
            let content ← readContent fuel attributes.2.2
            let rest ← readEnd name.1 content.2
            pure (content.1, rest)
        let more ← readContent fuel content.2
        pure (.element name.1 attributes.1 content.1 :: more.1, more.2)
      else none
  | fuel + 1, '&' :: rest => do
      let read ← readReference rest
      let more ← readContent fuel read.2
      pure (.char read.1 :: more.1, more.2)
  | _ + 1, ']' :: ']' :: '>' :: _ => none
  | fuel + 1, c :: rest => do
      let more ← readContent fuel rest
      pure (.char c :: more.1, more.2)

/-- The root element of a well-formed document. -/
def readDocument (text : String) : Option Item :=
  if text.toList.all isChar = true then
    match readContent (text.length + 1) text.toList with
    | some ([.element name attributes content], []) => some (.element name attributes content)
    | _ => none
  else none

/-! ### The writer -/

def escapeChar (c : Char) : Word :=
  if c = '&' then "&amp;".toList
  else if c = '<' then "&lt;".toList
  else if c = '>' then "&gt;".toList
  else if c = '"' then "&quot;".toList
  else if c = '\'' then "&apos;".toList
  else [c]

def escape (text : Word) : Word := text.flatMap escapeChar

def writeAttribute (entry : Word × Word) : Word :=
  ' ' :: entry.1 ++ '=' :: '"' :: escape entry.2 ++ ['"']

def write : List Item → Word
  | [] => []
  | .char c :: rest => escapeChar c ++ write rest
  | .element name attributes content :: rest =>
      '<' :: name ++ attributes.flatMap writeAttribute ++ '>' :: write content ++
        '<' :: '/' :: name ++ '>' :: write rest

/-! ### Well-formed trees -/

def IsName (name : Word) : Prop :=
  ∃ c rest, name = c :: rest ∧ isNameStart c = true ∧ ∀ d ∈ rest, isNameChar d = true

/-- The names in the tree are names, and no tag has two attributes of one name. -/
def Proper : List Item → Prop
  | [] => True
  | .char _ :: rest => Proper rest
  | .element name attributes content :: rest =>
      IsName name ∧ (∀ entry ∈ attributes, IsName entry.1) ∧
        (attributes.map Prod.fst).Nodup ∧ Proper content ∧ Proper rest

def weight : List Item → Nat
  | [] => 1
  | .char _ :: rest => 1 + weight rest
  | .element _ _ content :: rest => 1 + weight content + weight rest

@[elab_as_elim]
theorem items_induction {motive : List Item → Prop} (nil : motive [])
    (char : ∀ c rest, motive rest → motive (.char c :: rest))
    (element : ∀ name attributes content rest, motive content → motive rest →
      motive (.element name attributes content :: rest)) : ∀ items, motive items
  | [] => nil
  | .char c :: rest => char c rest (items_induction nil char element rest)
  | .element name attributes content :: rest =>
      element name attributes content rest (items_induction nil char element content)
        (items_induction nil char element rest)

/-- Where the content of an element or the document ends. -/
def Ends (rest : Word) : Prop :=
  rest = [] ∨ ∃ tail, rest = '<' :: '/' :: tail

variable {c d : Char} {name value rest : Word} {fuel : Nat}

/-! ### References that are read back -/

theorem escapeChar_cases (c : Char) :
    (escapeChar c = [c] ∧ c ≠ '&' ∧ c ≠ '<' ∧ c ≠ '>' ∧ c ≠ '"' ∧ c ≠ '\'') ∨
      ∃ name, escapeChar c = '&' :: (name ++ [';']) ∧ reference name = some c ∧ ';' ∉ name := by
  rw [escapeChar]
  split
  · rename_i h
    exact .inr ⟨"amp".toList, rfl, by rw [h]; rfl, by decide⟩
  split
  · rename_i h
    exact .inr ⟨"lt".toList, rfl, by rw [h]; rfl, by decide⟩
  split
  · rename_i h
    exact .inr ⟨"gt".toList, rfl, by rw [h]; rfl, by decide⟩
  split
  · rename_i h
    exact .inr ⟨"quot".toList, rfl, by rw [h]; rfl, by decide⟩
  split
  · rename_i h
    exact .inr ⟨"apos".toList, rfl, by rw [h]; rfl, by decide⟩
  · rename_i hamp hlt hgt hquot hapos
    exact .inl ⟨rfl, hamp, hlt, hgt, hquot, hapos⟩

theorem takeWhile_name (h : ';' ∉ name) (rest : Word) :
    (name ++ ';' :: rest).takeWhile (· != ';') = name := by
  rw [List.takeWhile_append_of_pos fun d hd => bne_iff_ne.mpr (ne_of_mem_of_not_mem hd h)]
  exact List.append_nil _

theorem dropWhile_name (h : ';' ∉ name) (rest : Word) :
    (name ++ ';' :: rest).dropWhile (· != ';') = ';' :: rest := by
  rw [List.dropWhile_append_of_pos fun d hd => bne_iff_ne.mpr (ne_of_mem_of_not_mem hd h)]
  rfl

theorem readReference_append (hname : ';' ∉ name) (hstands : reference name = some c)
    (rest : Word) : readReference (name ++ ';' :: rest) = some (c, rest) := by
  rw [readReference, dropWhile_name hname, takeWhile_name hname, hstands]
  rfl

theorem length_escape (value : Word) : value.length ≤ (escape value).length := by
  induction value with
  | nil => exact Nat.le_refl _
  | cons c rest ih =>
      rw [escape, List.flatMap_cons, List.length_append, List.length_cons]
      have hpos : 1 ≤ (escapeChar c).length := by
        rcases escapeChar_cases c with ⟨hplain, -⟩ | ⟨name, hescaped, -⟩
        · rw [hplain]
          exact Nat.le_refl _
        · rw [hescaped]
          exact Nat.succ_pos _
      rw [escape] at ih
      omega

/-! ### Tags that are read back -/

theorem readValue_escape (hfuel : value.length < fuel) (rest : Word) :
    readValue '"' fuel (escape value ++ '"' :: rest) = some (value, rest) := by
  induction value generalizing fuel with
  | nil =>
      obtain ⟨fuel, rfl⟩ := Nat.exists_eq_succ_of_ne_zero (Nat.ne_of_gt hfuel)
      rfl
  | cons c value ih =>
      obtain ⟨fuel, rfl⟩ := Nat.exists_eq_succ_of_ne_zero (Nat.ne_zero_of_lt hfuel)
      have hmore := ih (Nat.lt_of_succ_lt_succ hfuel)
      rw [escape, List.flatMap_cons, List.append_assoc]
      rw [escape] at hmore
      rcases escapeChar_cases c with ⟨hplain, hamp, hlt, -, hquot, -⟩ | ⟨name, hescaped, hstands, hname⟩
      · rw [hplain, List.singleton_append, readValue, if_neg hquot, if_neg hlt, if_neg hamp, hmore]
        rfl
      · rw [hescaped, List.cons_append, List.append_assoc, List.singleton_append, readValue,
          if_neg (by decide), if_neg (by decide), if_pos rfl, readReference_append hname hstands]
        show (readValue '"' fuel _).bind _ = _
        rw [hmore]
        rfl

theorem readName_append (h : IsName name) (hrest : ∀ d tail, rest = d :: tail →
    isNameChar d = false) : readName (name ++ rest) = some (name, rest) := by
  obtain ⟨c, tail, rfl, hstart, htail⟩ := h
  rw [List.cons_append, readName, if_pos hstart, List.takeWhile_append_of_pos htail,
    List.dropWhile_append_of_pos htail]
  cases rest with
  | nil => simp
  | cons d more =>
      have hstop := hrest d more rfl
      rw [List.takeWhile_cons_of_neg (by simp [hstop]), List.dropWhile_cons_of_neg (by simp [hstop]),
        List.append_nil]

theorem IsName.head (h : IsName name) :
    ∃ c tail, name = c :: tail ∧ isSpace c = false ∧ c ≠ '>' ∧ c ≠ '/' := by
  obtain ⟨c, tail, rfl, hstart, -⟩ := h
  have hnot : ∀ d, isNameStart d = false → c ≠ d := by
    rintro d hd rfl
    rw [hd] at hstart
    cases hstart
  refine ⟨c, tail, rfl, ?_, hnot '>' (by decide), hnot '/' (by decide)⟩
  rw [isSpace, beq_eq_false_iff_ne.mpr (hnot ' ' (by decide)),
    beq_eq_false_iff_ne.mpr (hnot '\t' (by decide)), beq_eq_false_iff_ne.mpr (hnot '\n' (by decide)),
    beq_eq_false_iff_ne.mpr (hnot '\r' (by decide))]
  rfl

theorem readAttribute_write {entry : Word × Word} (h : IsName entry.1) (rest : Word) :
    readAttribute (entry.1 ++ '=' :: '"' :: escape entry.2 ++ '"' :: rest) =
      some (entry, rest) := by
  have hname : readName (entry.1 ++ '=' :: '"' :: (escape entry.2 ++ '"' :: rest)) =
      some (entry.1, '=' :: '"' :: (escape entry.2 ++ '"' :: rest)) :=
    readName_append h (by rintro d tail ⟨⟩; decide)
  have hvalue := @readValue_escape entry.2
    ((escape entry.2 ++ '"' :: rest).length + 1) (by
      rw [List.length_append]
      have := length_escape entry.2
      omega) rest
  rw [List.append_assoc, List.cons_append, List.cons_append, readAttribute, hname]
  show (readValue '"' ((escape entry.2 ++ '"' :: rest).length + 1) _).map _ = _
  rw [hvalue]
  rfl

theorem readAttributes_write {attributes : List (Word × Word)}
    (h : ∀ entry ∈ attributes, IsName entry.1) (hfuel : attributes.length < fuel)
    (rest : Word) :
    readAttributes fuel (attributes.flatMap writeAttribute ++ '>' :: rest) =
      some (attributes, false, rest) := by
  induction attributes generalizing fuel with
  | nil =>
      obtain ⟨fuel, rfl⟩ := Nat.exists_eq_succ_of_ne_zero (Nat.ne_of_gt hfuel)
      rfl
  | cons entry more ih =>
      obtain ⟨fuel, rfl⟩ := Nat.exists_eq_succ_of_ne_zero (Nat.ne_zero_of_lt hfuel)
      have hmore := ih (fun other hother => h other (List.mem_cons_of_mem _ hother))
        (Nat.lt_of_succ_lt_succ hfuel)
      have hfirst := readAttribute_write (h entry List.mem_cons_self)
        (more.flatMap writeAttribute ++ '>' :: rest)
      obtain ⟨c, tail, hname, hspace, hgt, hslash⟩ := (h entry List.mem_cons_self).head
      have htext : (entry :: more).flatMap writeAttribute ++ '>' :: rest =
          ' ' :: (entry.1 ++ '=' :: '"' :: escape entry.2 ++
            '"' :: (more.flatMap writeAttribute ++ '>' :: rest)) := by
        simp [writeAttribute]
      have hdrop : (' ' :: (entry.1 ++ '=' :: '"' :: escape entry.2 ++
          '"' :: (more.flatMap writeAttribute ++ '>' :: rest))).dropWhile isSpace =
          entry.1 ++ '=' :: '"' :: escape entry.2 ++
            '"' :: (more.flatMap writeAttribute ++ '>' :: rest) := by
        rw [List.dropWhile_cons_of_pos (by decide), hname]
        exact List.dropWhile_cons_of_neg (by simp [hspace])
      rw [htext, readAttributes, hdrop]
      split
      · rename_i tail' heq
        rw [hname] at heq
        exact absurd (List.cons.inj heq).1 hgt
      · rename_i tail' heq
        rw [hname] at heq
        exact absurd (List.cons.inj heq).1 hslash
      · refine (if_pos rfl).trans ?_
        rw [hfirst]
        show (readAttributes fuel _).bind _ = _
        rw [hmore]
        rfl

theorem readEnd_write (h : IsName name) (rest : Word) :
    readEnd name ('<' :: '/' :: name ++ '>' :: rest) = some rest := by
  have hname : readName (name ++ '>' :: rest) = some (name, '>' :: rest) :=
    readName_append h (by rintro d tail ⟨⟩; decide)
  show (readName (name ++ '>' :: rest)).bind _ = _
  rw [hname]
  show (if name = name then _ else _) = _
  rw [if_pos rfl]
  rfl

/-! ### Trees that are read back -/

theorem Ends.head (h : Ends rest) (c : Char) (tail : Word) (hc : c ≠ '<') :
    rest ≠ c :: tail := by
  rintro rfl
  rcases h with h | ⟨more, h⟩
  · cases h
  · exact hc (List.cons.inj h).1

/-- What is written begins with no closing bracket. -/
theorem write_append_ne (items : List Item) (h : Ends rest) (tail : Word) :
    write items ++ rest ≠ '>' :: tail := by
  cases items with
  | nil =>
      rw [write, List.nil_append]
      exact h.head '>' tail (by decide)
  | cons item more =>
      intro heq
      cases item with
      | char c =>
          rw [write] at heq
          rcases escapeChar_cases c with ⟨hplain, -, -, hgt, -⟩ | ⟨name, hescaped, -⟩
          · rw [hplain] at heq
            exact hgt (List.cons.inj heq).1
          · rw [hescaped] at heq
            exact absurd (List.cons.inj heq).1 (by decide)
      | element name attributes content =>
          rw [write] at heq
          exact absurd (List.cons.inj heq).1 (by decide)

theorem write_append_ne_bracket (items : List Item) (h : Ends rest) (tail : Word) :
    write items ++ rest ≠ ']' :: '>' :: tail := by
  cases items with
  | nil =>
      rw [write, List.nil_append]
      exact h.head ']' _ (by decide)
  | cons item more =>
      intro heq
      cases item with
      | char c =>
          rw [write] at heq
          rcases escapeChar_cases c with ⟨hplain, -⟩ | ⟨name, hescaped, -⟩
          · rw [hplain] at heq
            exact write_append_ne more h tail (List.cons.inj heq).2
          · rw [hescaped] at heq
            exact absurd (List.cons.inj heq).1 (by decide)
      | element name attributes content =>
          rw [write] at heq
          exact absurd (List.cons.inj heq).1 (by decide)

theorem readContent_plain {next : Word} (hamp : c ≠ '&') (hlt : c ≠ '<')
    (hnext : ∀ tail, next ≠ ']' :: '>' :: tail) :
    readContent (fuel + 1) (c :: next) =
      (readContent fuel next).map fun more => (.char c :: more.1, more.2) := by
  rw [readContent]
  · cases readContent fuel next with
    | none => rfl
    | some more => rfl
  · exact fun tail hc _ => hlt hc
  · exact hlt
  · exact hamp
  · exact fun tail _ => hnext tail

theorem readContent_ends (h : Ends rest) : readContent (fuel + 1) rest = some ([], rest) := by
  rcases h with rfl | ⟨tail, rfl⟩
  · rfl
  · rfl

/-- An element is read from its start tag on. -/
theorem readContent_element {tag after next last : Word} {name : Word}
    {attributes : List (Word × Word)} {content more : List Item}
    (hopen : ∀ tail, tag ≠ '/' :: tail) (hname : readName tag = some (name, after))
    (hattributes : readAttributes (after.length + 1) after = some (attributes, false, next))
    (hnodup : (attributes.map Prod.fst).Nodup) {ending : Word}
    (hcontent : readContent fuel next = some (content, ending)) {follows : Word}
    (hend : readEnd name ending = some follows)
    (hmore : readContent fuel follows = some (more, last)) :
    readContent (fuel + 1) ('<' :: tag) =
      some (.element name attributes content :: more, last) := by
  rw [readContent]
  · rw [hname]
    dsimp only [bind, Option.bind]
    rw [hattributes]
    dsimp only [bind, Option.bind]
    rw [if_pos hnodup, if_neg Bool.false_ne_true, hcontent]
    dsimp only [bind, Option.bind]
    rw [hend]
    dsimp only [bind, Option.bind, pure]
    rw [hmore]
  · exact hopen

theorem readContent_write (items : List Item) (h : Proper items) (hfuel : weight items ≤ fuel)
    (hrest : Ends rest) : readContent fuel (write items ++ rest) = some (items, rest) := by
  induction items using items_induction generalizing fuel rest with
  | nil =>
      rw [weight] at hfuel
      obtain ⟨fuel, rfl⟩ := Nat.exists_eq_succ_of_ne_zero (Nat.ne_zero_of_lt hfuel)
      rw [write, List.nil_append]
      exact readContent_ends hrest
  | char c more ih =>
      rw [Proper] at h
      rw [weight, Nat.add_comm] at hfuel
      obtain ⟨fuel, rfl⟩ := Nat.exists_eq_succ_of_ne_zero (Nat.ne_zero_of_lt hfuel)
      have hmore := ih h (Nat.le_of_succ_le_succ hfuel) hrest
      rw [write, List.append_assoc]
      rcases escapeChar_cases c with ⟨hplain, hamp, hlt, -⟩ | ⟨name, hescaped, hstands, hname⟩
      · rw [hplain, List.singleton_append,
          readContent_plain hamp hlt (write_append_ne_bracket more hrest), hmore]
        rfl
      · rw [hescaped, List.cons_append, List.append_assoc, List.singleton_append, readContent,
          readReference_append hname hstands]
        show (readContent fuel _).bind _ = _
        rw [hmore]
        rfl
  | element name attributes content more ihcontent ihmore =>
      rw [Proper] at h
      rw [weight, Nat.add_assoc, Nat.add_comm] at hfuel
      obtain ⟨fuel, rfl⟩ := Nat.exists_eq_succ_of_ne_zero (Nat.ne_zero_of_lt hfuel)
      obtain ⟨hname, hattributes, hnodup, hcontent, hmore⟩ := h
      have hweight := Nat.le_of_succ_le_succ hfuel
      have hinner := ihcontent hcontent (le_trans (Nat.le_add_right _ _) hweight)
        (.inr ⟨name ++ '>' :: (write more ++ rest), rfl⟩)
      have houter := ihmore hmore (le_trans (Nat.le_add_left _ _) hweight) hrest
      have htext : write (.element name attributes content :: more) ++ rest =
          '<' :: (name ++ (attributes.flatMap writeAttribute ++ '>' ::
            (write content ++ '<' :: '/' :: (name ++ '>' :: (write more ++ rest))))) := by
        simp [write]
      rw [htext]
      apply readContent_element
      · intro tail heq
        obtain ⟨c, others, rfl, -, -, hslash⟩ := hname.head
        exact hslash (List.cons.inj heq).1
      · apply readName_append hname
        intro d tail heq
        cases attributes with
        | nil =>
            obtain rfl := (List.cons.inj heq).1
            decide
        | cons entry others =>
            obtain rfl := (List.cons.inj heq).1
            decide
      · apply readAttributes_write hattributes
        rw [List.length_append]
        have hshort : attributes.length ≤ (attributes.flatMap writeAttribute).length := by
          have hlengths : (attributes.map fun entry => (writeAttribute entry).length).length =
              attributes.length := List.length_map _
          rw [List.length_flatMap, ← hlengths]
          apply List.length_le_sum_of_one_le
          intro length hlength
          obtain ⟨entry, -, rfl⟩ := List.mem_map.mp hlength
          exact Nat.succ_pos _
        omega
      · exact hnodup
      · exact hinner
      · exact readEnd_write hname _
      · exact houter

/-! ### Documents that are read back -/

theorem weight_le (items : List Item) : weight items ≤ (write items).length + 1 := by
  induction items using items_induction with
  | nil =>
      rw [weight, write]
      exact Nat.le_refl _
  | char c more ih =>
      have hpos := length_escape [c]
      rw [escape, List.flatMap_singleton, List.length_singleton] at hpos
      rw [weight, write, List.length_append]
      omega
  | element name attributes content more ihcontent ihmore =>
      rw [weight, write]
      simp only [List.length_append, List.length_cons]
      omega

/-- A tree of characters is read back from the document that is written of it. -/
theorem readDocument_write {name : Word} {attributes : List (Word × Word)} {content : List Item}
    {text : String} (htext : text.toList = write [.element name attributes content])
    (h : Proper [.element name attributes content]) (hchars : text.toList.all isChar = true) :
    readDocument text = some (.element name attributes content) := by
  have hfuel : weight [.element name attributes content] ≤ text.length + 1 := by
    rw [← String.length_toList, htext]
    exact weight_le _
  have hread := @readContent_write [] _ _ h hfuel (.inl rfl)
  rw [List.append_nil, ← htext] at hread
  rw [readDocument, if_pos hchars, hread]

theorem readDocument_chars {text : String} {root : Item} (h : readDocument text = some root) :
    text.toList.all isChar = true := by
  rw [readDocument] at h
  split at h
  · assumption
  · cases h

theorem all_escapeChar (c : Char) : (escapeChar c).all isChar = isChar c := by
  rw [escapeChar]
  split_ifs with hamp hlt hgt hquot hapos
  · rw [hamp]
    decide
  · rw [hlt]
    decide
  · rw [hgt]
    decide
  · rw [hquot]
    decide
  · rw [hapos]
    decide
  · rw [List.all_cons, List.all_nil, Bool.and_true]

/-- Escaping neither adds nor hides a character that no document may have. -/
theorem all_escape (text : Word) : (escape text).all isChar = text.all isChar := by
  rw [escape, List.all_flatMap]
  congr 1
  funext c
  exact all_escapeChar c

end EggReplay.Library.Xml
