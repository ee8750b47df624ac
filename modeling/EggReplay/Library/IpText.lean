import EggReplay.Library.Text

/-!
Texts of IP addresses, read and written as Rust's `core::net` does: dotted decimal numbers
for IPv4, and for IPv6 groups in hexadecimal of which one run of zeros may be left out and
the last two may be written as an IPv4 address.
-/

namespace EggReplay.Library.IpText

structure Ipv4Addr where
  a : UInt8
  b : UInt8
  c : UInt8
  d : UInt8
  deriving DecidableEq, Repr

/-- Eight groups of sixteen bits. -/
structure Ipv6Addr where
  segments : List UInt16
  length_eq : segments.length = 8
  deriving DecidableEq, Repr

inductive IpAddr where
  | v4 (addr : Ipv4Addr)
  | v6 (addr : Ipv6Addr)
  deriving DecidableEq, Repr

/-! ### Numbers -/

/-- `char::to_digit`. -/
def toDigit (radix : Nat) (c : Char) : Option Nat :=
  let value :=
    if '0' ≤ c ∧ c ≤ '9' then some (c.toNat - '0'.toNat)
    else if 'a' ≤ c ∧ c ≤ 'z' then some (c.toNat - 'a'.toNat + 10)
    else if 'A' ≤ c ∧ c ≤ 'Z' then some (c.toNat - 'A'.toNat + 10)
    else none
  value.filter fun digit => digit < radix

def readDigits (radix : Nat) : List Char → List Nat × List Char
  | [] => ([], [])
  | c :: rest =>
      match toDigit radix c with
      | some digit => (digit :: (readDigits radix rest).1, (readDigits radix rest).2)
      | none => ([], c :: rest)

def digitsValue (radix : Nat) (digits : List Nat) : Nat :=
  digits.foldl (fun value digit => value * radix + digit) 0

/-- All the digits there are, at most `maxDigits` of them and below `bound` in value. -/
def readNumber (radix maxDigits bound : Nat) (allowZeroPrefix : Bool) (chars : List Char) :
    Option (Nat × List Char) :=
  let digits := (readDigits radix chars).1
  if digits = [] ∨ maxDigits < digits.length then none
  else if allowZeroPrefix = false ∧ digits.head? = some 0 ∧ 1 < digits.length then none
  else if digitsValue radix digits < bound then
    some (digitsValue radix digits, (readDigits radix chars).2)
  else none

def readChar (wanted : Char) : List Char → Option (List Char)
  | [] => none
  | c :: rest => if c = wanted then some rest else none

/-- A separator goes before every item but the first. -/
def readSeparated {α : Type} (first : Bool) (separator : Char)
    (inner : List Char → Option (α × List Char)) (chars : List Char) :
    Option (α × List Char) :=
  if first = true then inner chars else (readChar separator chars).bind inner

/-! ### Addresses -/

def readOctet (first : Bool) (chars : List Char) : Option (Nat × List Char) :=
  readSeparated first '.' (readNumber 10 3 256 false) chars

def readIpv4 (chars : List Char) : Option (Ipv4Addr × List Char) := do
  let (a, chars) ← readOctet true chars
  let (b, chars) ← readOctet false chars
  let (c, chars) ← readOctet false chars
  let (d, chars) ← readOctet false chars
  pure
    ({ a := UInt8.ofNat a, b := UInt8.ofNat b, c := UInt8.ofNat c, d := UInt8.ofNat d }, chars)

def Ipv4Addr.segments (addr : Ipv4Addr) : List UInt16 :=
  [UInt16.ofNat (addr.a.toNat * 256 + addr.b.toNat),
    UInt16.ofNat (addr.c.toNat * 256 + addr.d.toNat)]

structure Groups where
  segments : List UInt16
  ipv4 : Bool
  rest : List Char

/-- Groups for `left` places; an IPv4 address takes two. -/
def readGroups : Nat → Bool → List Char → Groups
  | 0, _, chars => { segments := [], ipv4 := false, rest := chars }
  | left + 1, first, chars =>
      match if left = 0 then none else readSeparated first ':' readIpv4 chars with
      | some (addr, rest) => { segments := addr.segments, ipv4 := true, rest := rest }
      | none =>
          match readSeparated first ':' (readNumber 16 4 65536 true) chars with
          | some (group, rest) =>
              { readGroups left false rest with
                segments := UInt16.ofNat group :: (readGroups left false rest).segments }
          | none => { segments := [], ipv4 := false, rest := chars }

/-- The groups with zeros between them, where there are at most eight. -/
def fillZeros (head tail : List UInt16) : Option Ipv6Addr :=
  let segments := head ++ List.replicate (8 - tail.length - head.length) 0 ++ tail
  if h : segments.length = 8 then some ⟨segments, h⟩ else none

def readIpv6 (chars : List Char) : Option (Ipv6Addr × List Char) :=
  let head := readGroups 8 true chars
  if head.segments.length = 8 then
    (fillZeros head.segments []).map fun addr => (addr, head.rest)
  else if head.ipv4 = true then none
  else do
    let rest ← readChar ':' head.rest
    let rest ← readChar ':' rest
    -- the run of zeros stands for one group at least
    let tail := readGroups (8 - (head.segments.length + 1)) true rest
    let addr ← fillZeros head.segments tail.segments
    pure (addr, tail.rest)

/-- `str::parse::<IpAddr>`: an IPv4 address that is followed by anything is no address. -/
def parseIpAddr (text : String) : Option IpAddr :=
  match readIpv4 text.toList with
  | some (addr, rest) => if rest = [] then some (.v4 addr) else none
  | none =>
      match readIpv6 text.toList with
      | some (addr, rest) => if rest = [] then some (.v6 addr) else none
      | none => none

/-! ### Writing -/

def digitsOf (radix n : Nat) : List Nat :=
  if n = 0 then [0] else (Nat.digits radix n).reverse

def numberText (radix n : Nat) : List Char := (digitsOf radix n).map Nat.digitChar

def Ipv4Addr.text (addr : Ipv4Addr) : List Char :=
  numberText 10 addr.a.toNat ++ '.' :: (numberText 10 addr.b.toNat ++
    '.' :: (numberText 10 addr.c.toNat ++ '.' :: numberText 10 addr.d.toNat))

def groupText (segment : UInt16) : List Char := numberText 16 segment.toNat

/-- Each group after a colon. -/
def laterGroups (segments : List UInt16) : List Char :=
  segments.flatMap fun segment => ':' :: groupText segment

def groupsText : List UInt16 → List Char
  | [] => []
  | first :: rest => groupText first ++ laterGroups rest

structure Span where
  start : Nat
  len : Nat
  deriving DecidableEq, Repr

/-- The first of the longest runs of zeros, from the run that is going on. -/
def longestRun : List UInt16 → Nat → Span → Span → Span
  | [], _, _, longest => longest
  | segment :: rest, index, current, longest =>
      if segment = 0 then
        let current : Span :=
          { start := if current.len = 0 then index else current.start, len := current.len + 1 }
        longestRun rest (index + 1) current (if longest.len < current.len then current else longest)
      else longestRun rest (index + 1) ⟨0, 0⟩ longest

def toIpv4Mapped (addr : Ipv6Addr) : Option Ipv4Addr :=
  match addr.segments with
  | [0, 0, 0, 0, 0, 0xffff, x, y] =>
      some
        { a := UInt8.ofNat (x.toNat / 256)
          b := UInt8.ofNat (x.toNat % 256)
          c := UInt8.ofNat (y.toNat / 256)
          d := UInt8.ofNat (y.toNat % 256) }
  | _ => none

def Ipv6Addr.text (addr : Ipv6Addr) : List Char :=
  match toIpv4Mapped addr with
  | some mapped => "::ffff:".toList ++ mapped.text
  | none =>
      let zeros := longestRun addr.segments 0 ⟨0, 0⟩ ⟨0, 0⟩
      if 1 < zeros.len then
        groupsText (addr.segments.take zeros.start) ++
          ':' :: ':' :: groupsText (addr.segments.drop (zeros.start + zeros.len))
      else groupsText addr.segments

def IpAddr.text : IpAddr → String
  | .v4 addr => String.ofList addr.text
  | .v6 addr => String.ofList addr.text

/-! ### Numbers are read back -/

/-- No further digit follows. -/
def Stops (radix : Nat) (chars : List Char) : Prop :=
  ∀ c ∈ chars.head?, toDigit radix c = none

theorem toDigit_digitChar {radix digit : Nat} (hradix : radix ≤ 16) (h : digit < radix) :
    toDigit radix (Nat.digitChar digit) = some digit := by
  have hvalue : toDigit 16 (Nat.digitChar digit) = some digit := by
    have hsixteen : digit < 16 := by omega
    interval_cases digit <;> rfl
  simp only [toDigit, Option.filter_eq_some_iff, decide_eq_true_eq] at hvalue ⊢
  exact ⟨hvalue.1, h⟩

theorem readDigits_append {radix : Nat} (hradix : radix ≤ 16) {digits : List Nat}
    (hdigits : ∀ digit ∈ digits, digit < radix) {rest : List Char} (hrest : Stops radix rest) :
    readDigits radix (digits.map Nat.digitChar ++ rest) = (digits, rest) := by
  induction digits with
  | nil =>
      rcases rest with _ | ⟨c, rest⟩
      · rfl
      · rw [List.map_nil, List.nil_append, readDigits, hrest c rfl]
  | cons digit digits ih =>
      have hlater := ih fun other hother => hdigits other (List.mem_cons_of_mem _ hother)
      rw [List.map_cons, List.cons_append, readDigits,
        toDigit_digitChar hradix (hdigits digit List.mem_cons_self), hlater]

theorem digitsOf_lt {radix n digit : Nat} (hradix : 1 < radix) (h : digit ∈ digitsOf radix n) :
    digit < radix := by
  rw [digitsOf] at h
  split at h
  · rw [List.mem_singleton.mp h]
    omega
  · exact Nat.digits_lt_base hradix (List.mem_reverse.mp h)

theorem digitsOf_ne_nil (radix n : Nat) : digitsOf radix n ≠ [] := by
  rw [digitsOf]
  split
  · exact List.cons_ne_nil _ _
  · rename_i hn
    rw [Ne, List.reverse_eq_nil_iff, Nat.digits_eq_nil_iff_eq_zero]
    exact hn

theorem digitsOf_length_le {radix n k : Nat} (hradix : 1 < radix) (hk : 0 < k)
    (h : n < radix ^ k) : (digitsOf radix n).length ≤ k := by
  rw [digitsOf]
  split
  · exact hk
  · rw [List.length_reverse]
    exact (Nat.digits_length_le_iff hradix n).mpr h

theorem digitsValue_digitsOf (radix n : Nat) :
    digitsValue radix (digitsOf radix n) = n := by
  rw [digitsOf]
  split
  · rename_i hn
    rw [hn, digitsValue, List.foldl_cons, List.foldl_nil, Nat.zero_mul]
  · rw [digitsValue, List.foldl_reverse]
    have hvalue := Nat.ofDigits_digits radix n
    rw [Nat.ofDigits_eq_foldr] at hvalue
    have hsame : (fun digit value => value * radix + digit) =
        fun digit value => (digit : Nat) + radix * value := by
      funext digit value
      rw [Nat.mul_comm, Nat.add_comm]
    rw [hsame]
    exact hvalue

/-- No zero stands before another digit. -/
theorem digitsOf_head (radix n : Nat) :
    ¬((digitsOf radix n).head? = some 0 ∧ 1 < (digitsOf radix n).length) := by
  rintro ⟨hhead, hlength⟩
  rw [digitsOf] at hhead hlength
  split at hhead
  · rename_i hn
    rw [if_pos hn] at hlength
    exact absurd hlength (by decide)
  · rename_i hn
    rw [List.head?_reverse] at hhead
    have hne : Nat.digits radix n ≠ [] := Nat.digits_ne_nil_iff_ne_zero.mpr hn
    rw [List.getLast?_eq_some_getLast hne] at hhead
    exact Nat.getLast_digit_ne_zero radix hn (Option.some.inj hhead)

theorem readNumber_numberText {radix maxDigits bound n : Nat} {allowZeroPrefix : Bool}
    (hone : 1 < radix) (hradix : radix ≤ 16) (hdigits : 0 < maxDigits)
    (hlength : n < radix ^ maxDigits) (hbound : n < bound) {rest : List Char}
    (hrest : Stops radix rest) :
    readNumber radix maxDigits bound allowZeroPrefix (numberText radix n ++ rest) =
      some (n, rest) := by
  have hread : readDigits radix (numberText radix n ++ rest) = (digitsOf radix n, rest) :=
    readDigits_append hradix (fun _ h => digitsOf_lt hone h) hrest
  have hshort := digitsOf_length_le hone hdigits hlength
  rw [readNumber, hread]
  dsimp only
  rw [if_neg, if_neg, digitsValue_digitsOf, if_pos hbound]
  · exact fun h => digitsOf_head radix n h.2
  · rintro (h | h)
    · exact digitsOf_ne_nil radix n h
    · omega

/-! ### IPv4 addresses are read back -/

theorem stops_of_cons {radix : Nat} {c : Char} {rest : List Char} (h : toDigit radix c = none) :
    Stops radix (c :: rest) := by
  intro other hother
  rw [List.head?_cons, Option.mem_some_iff] at hother
  rwa [← hother]

theorem readOctet_first (octet : UInt8) {rest : List Char} (hrest : Stops 10 rest) :
    readOctet true (numberText 10 octet.toNat ++ rest) = some (octet.toNat, rest) := by
  have hoctet : octet.toNat < 256 := octet.toNat_lt
  rw [readOctet, readSeparated, if_pos rfl]
  exact readNumber_numberText (by decide) (by decide) (by decide) (by omega) hoctet hrest

theorem readOctet_later (octet : UInt8) {rest : List Char} (hrest : Stops 10 rest) :
    readOctet false ('.' :: (numberText 10 octet.toNat ++ rest)) = some (octet.toNat, rest) := by
  have hfirst := readOctet_first octet hrest
  rw [readOctet, readSeparated, if_pos rfl] at hfirst
  rw [readOctet, readSeparated, if_neg (by decide), readChar, if_pos rfl, Option.bind_some]
  exact hfirst

theorem readIpv4_text (addr : Ipv4Addr) {rest : List Char} (hrest : Stops 10 rest) :
    readIpv4 (addr.text ++ rest) = some (addr, rest) := by
  have hdot : ∀ rest : List Char, Stops 10 ('.' :: rest) :=
    fun rest => stops_of_cons (by decide)
  have htext : addr.text ++ rest = numberText 10 addr.a.toNat ++ '.' ::
      (numberText 10 addr.b.toNat ++ '.' :: (numberText 10 addr.c.toNat ++
        '.' :: (numberText 10 addr.d.toNat ++ rest))) := by
    simp only [Ipv4Addr.text, List.append_assoc, List.cons_append]
  rw [htext, readIpv4, readOctet_first _ (hdot _)]
  simp only [Option.bind_eq_bind, Option.bind_some]
  rw [readOctet_later _ (hdot _), Option.bind_some, readOctet_later _ (hdot _), Option.bind_some,
    readOctet_later _ hrest, Option.bind_some]
  simp only [UInt8.ofNat_toNat, Option.pure_def]

/-- A number is read from digits only. -/
theorem readNumber_rest {radix maxDigits bound n : Nat} {allowZeroPrefix : Bool}
    {chars rest : List Char}
    (h : readNumber radix maxDigits bound allowZeroPrefix chars = some (n, rest)) :
    ∃ digits, digits ≠ [] ∧ chars = digits ++ rest ∧
      ∀ c ∈ digits, (toDigit radix c).isSome = true := by
  have hsplit : ∀ chars, ∃ digits, chars = digits ++ (readDigits radix chars).2 ∧
      (∀ c ∈ digits, (toDigit radix c).isSome = true) ∧
      ((readDigits radix chars).1 ≠ [] → digits ≠ []) := by
    intro chars
    induction chars with
    | nil => exact ⟨[], rfl, fun c hc => absurd hc List.not_mem_nil, fun h => absurd rfl h⟩
    | cons c chars ih =>
        rw [readDigits]
        rcases hdigit : toDigit radix c with _ | digit
        · exact ⟨[], rfl, fun c hc => absurd hc List.not_mem_nil, fun h => absurd rfl h⟩
        · obtain ⟨digits, hchars, hdigits, -⟩ := ih
          refine ⟨c :: digits, ?_, ?_, fun _ => List.cons_ne_nil _ _⟩
          · rw [List.cons_append, ← hchars]
          · intro other hother
            rcases List.mem_cons.mp hother with rfl | hother
            · rw [hdigit]
              rfl
            · exact hdigits other hother
  obtain ⟨digits, hchars, hdigits, hnonempty⟩ := hsplit chars
  rw [readNumber] at h
  split at h
  · cases h
  rename_i hlength
  split at h
  · cases h
  split at h
  · cases h
    exact ⟨digits, hnonempty fun hnone => hlength (.inl hnone), hchars, hdigits⟩
  · cases h

/-- An IPv4 address has a dot. -/
theorem dot_mem_of_readIpv4 {chars rest : List Char} {addr : Ipv4Addr}
    (h : readIpv4 chars = some (addr, rest)) : '.' ∈ chars := by
  simp only [readIpv4, Option.bind_eq_bind, Option.bind_eq_some_iff] at h
  obtain ⟨⟨a, first⟩, ha, ⟨b, second⟩, hb, -⟩ := h
  rw [readOctet, readSeparated, if_pos rfl] at ha
  obtain ⟨digits, -, hchars, -⟩ := readNumber_rest ha
  rw [readOctet, readSeparated, if_neg (by decide), Option.bind_eq_some_iff] at hb
  obtain ⟨later, hlater, -⟩ := hb
  rw [hchars]
  apply List.mem_append_right
  rcases first with _ | ⟨c, first⟩
  · cases hlater
  · rw [readChar] at hlater
    split at hlater
    · rename_i hc
      rw [hc]
      exact List.mem_cons_self
    · cases hlater

theorem readIpv4_of_no_dot {chars : List Char} (h : '.' ∉ chars) : readIpv4 chars = none := by
  rcases hread : readIpv4 chars with _ | ⟨addr, rest⟩
  · rfl
  · exact absurd (dot_mem_of_readIpv4 hread) h

/-! ### IPv6 addresses are read back -/

/-- What may follow the groups: nothing, or a left-out run of zeros. -/
def GroupsEnd (chars : List Char) : Prop := chars = [] ∨ ∃ rest, chars = ':' :: ':' :: rest

theorem GroupsEnd.stops {chars : List Char} (h : GroupsEnd chars) : Stops 16 chars := by
  rcases h with rfl | ⟨rest, rfl⟩
  · exact fun c hc => absurd hc (by simp)
  · exact stops_of_cons (by decide)

theorem readNumber_of_stops {radix maxDigits bound : Nat} {allowZeroPrefix : Bool}
    {chars : List Char} (h : Stops radix chars) :
    readNumber radix maxDigits bound allowZeroPrefix chars = none := by
  have hnone : (readDigits radix chars).1 = [] := by
    rcases chars with _ | ⟨c, rest⟩
    · rfl
    · rw [readDigits, h c rfl]
  rw [readNumber, if_pos (.inl hnone)]

theorem readGroups_end {chars : List Char} (h : GroupsEnd chars) (left : Nat) (first : Bool)
    (hdot : '.' ∉ chars) :
    readGroups left first chars = { segments := [], ipv4 := false, rest := chars } := by
  rcases left with _ | left
  · rfl
  have hgroup : readSeparated first ':' (readNumber 16 4 65536 true) chars = none := by
    rw [readSeparated]
    split
    · exact readNumber_of_stops h.stops
    · rcases h with rfl | ⟨rest, rfl⟩
      · rfl
      · rw [readChar, if_pos rfl, Option.bind_some]
        exact readNumber_of_stops (stops_of_cons (by decide))
  have hipv4 : (if left = 0 then none else readSeparated first ':' readIpv4 chars) = none := by
    split
    · rfl
    · rw [readSeparated]
      split
      · exact readIpv4_of_no_dot hdot
      · rcases h with rfl | ⟨rest, rfl⟩
        · rfl
        · rw [readChar, if_pos rfl, Option.bind_some]
          exact readIpv4_of_no_dot fun hrest => hdot (List.mem_cons_of_mem _ hrest)
  rw [readGroups, hipv4, hgroup]

theorem stops_laterGroups (segments : List UInt16) {rest : List Char} (h : GroupsEnd rest) :
    Stops 16 (laterGroups segments ++ rest) := by
  rcases segments with _ | ⟨segment, segments⟩
  · exact h.stops
  · exact stops_of_cons (by decide)

theorem readNumber_groupText (segment : UInt16) {rest : List Char} (h : Stops 16 rest) :
    readNumber 16 4 65536 true (groupText segment ++ rest) = some (segment.toNat, rest) := by
  have hsegment : segment.toNat < 65536 := segment.toNat_lt
  exact readNumber_numberText (by decide) (by decide) (by decide) (by omega) hsegment h

/-- One group is read and the rest of the groups after it. -/
theorem readGroups_group {left : Nat} {first : Bool} {chars rest : List Char}
    {segment : UInt16} (hdot : '.' ∉ chars)
    (hgroup : readSeparated first ':' (readNumber 16 4 65536 true) chars =
      some (segment.toNat, rest)) :
    readGroups (left + 1) first chars =
      { readGroups left false rest with
        segments := segment :: (readGroups left false rest).segments } := by
  have hipv4 : (if left = 0 then none else readSeparated first ':' readIpv4 chars) = none := by
    split
    · rfl
    · rw [readSeparated]
      split
      · exact readIpv4_of_no_dot hdot
      · rcases chars with _ | ⟨c, chars⟩
        · rfl
        · rw [readChar]
          split
          · exact readIpv4_of_no_dot fun hchars => hdot (List.mem_cons_of_mem _ hchars)
          · rfl
  rw [readGroups, hipv4, hgroup]
  simp only [UInt16.ofNat_toNat]

theorem readGroups_later {segments : List UInt16} {left : Nat} (hleft : segments.length ≤ left)
    {rest : List Char} (h : GroupsEnd rest) (hdot : '.' ∉ laterGroups segments ++ rest) :
    readGroups left false (laterGroups segments ++ rest) =
      { segments := segments, ipv4 := false, rest := rest } := by
  induction segments generalizing left with
  | nil => exact readGroups_end h left false hdot
  | cons segment segments ih =>
      obtain ⟨left, rfl⟩ : ∃ less, left = less + 1 := ⟨left - 1, by
        rw [List.length_cons] at hleft
        omega⟩
      have htext : laterGroups (segment :: segments) ++ rest =
          ':' :: (groupText segment ++ (laterGroups segments ++ rest)) := by
        rw [laterGroups, List.flatMap_cons, List.cons_append, List.cons_append,
          List.append_assoc]
        rfl
      rw [htext] at hdot ⊢
      have hgroup : readSeparated false ':' (readNumber 16 4 65536 true)
          (':' :: (groupText segment ++ (laterGroups segments ++ rest))) =
          some (segment.toNat, laterGroups segments ++ rest) := by
        rw [readSeparated, if_neg (by decide), readChar, if_pos rfl, Option.bind_some]
        exact readNumber_groupText segment (stops_laterGroups segments h)
      have hlater : '.' ∉ laterGroups segments ++ rest := fun hmem =>
        hdot (List.mem_cons_of_mem _ (List.mem_append_right _ hmem))
      rw [readGroups_group hdot hgroup, ih (by
        rw [List.length_cons] at hleft
        omega) hlater]

/-- Groups are read back as far as their text goes. -/
theorem readGroups_text {segments : List UInt16} {left : Nat} (hleft : segments.length ≤ left)
    {rest : List Char} (h : GroupsEnd rest) (hdot : '.' ∉ groupsText segments ++ rest) :
    readGroups left true (groupsText segments ++ rest) =
      { segments := segments, ipv4 := false, rest := rest } := by
  rcases segments with _ | ⟨segment, segments⟩
  · exact readGroups_end h left true hdot
  · obtain ⟨left, rfl⟩ : ∃ less, left = less + 1 := ⟨left - 1, by
      rw [List.length_cons] at hleft
      omega⟩
    have htext : groupsText (segment :: segments) ++ rest =
        groupText segment ++ (laterGroups segments ++ rest) := by
      rw [groupsText, List.append_assoc]
    rw [htext] at hdot ⊢
    have hgroup : readSeparated true ':' (readNumber 16 4 65536 true)
        (groupText segment ++ (laterGroups segments ++ rest)) =
        some (segment.toNat, laterGroups segments ++ rest) := by
      rw [readSeparated, if_pos rfl]
      exact readNumber_groupText segment (stops_laterGroups segments h)
    have hlater : '.' ∉ laterGroups segments ++ rest := fun hmem =>
      hdot (List.mem_append_right _ hmem)
    rw [readGroups_group hdot hgroup, readGroups_later (by
      rw [List.length_cons] at hleft
      omega) h hlater]

theorem not_dot_numberText {radix n : Nat} (hone : 1 < radix) (hradix : radix ≤ 16) :
    '.' ∉ numberText radix n := by
  intro hmem
  obtain ⟨digit, hdigit, hchar⟩ := List.mem_map.mp hmem
  have hread := toDigit_digitChar hradix (digitsOf_lt hone hdigit)
  rw [hchar] at hread
  have hnone : toDigit radix '.' = none := by simp [toDigit]
  rw [hnone] at hread
  cases hread

theorem not_dot_laterGroups (segments : List UInt16) : '.' ∉ laterGroups segments := by
  intro hmem
  obtain ⟨segment, -, hchar⟩ := List.mem_flatMap.mp hmem
  rcases List.mem_cons.mp hchar with hcolon | hchar
  · exact absurd hcolon (by decide)
  · exact not_dot_numberText (by decide) (by decide) hchar

theorem not_dot_groupsText (segments : List UInt16) : '.' ∉ groupsText segments := by
  rcases segments with _ | ⟨segment, segments⟩
  · exact List.not_mem_nil
  · intro hmem
    rcases List.mem_append.mp hmem with hgroup | hlater
    · exact not_dot_numberText (by decide) (by decide) hgroup
    · exact not_dot_laterGroups segments hlater

/-- The span holds zeros only. -/
def ZerosAt (segments : List UInt16) (span : Span) : Prop :=
  ∀ k, span.start ≤ k → k < span.start + span.len → segments[k]? = some 0

theorem zerosAt_longestRun {segments before rest : List UInt16} {current longest : Span}
    (hsplit : segments = before ++ rest) (hcurrent : ZerosAt segments current)
    (hend : current.len ≠ 0 → current.start + current.len = before.length)
    (hlongest : ZerosAt segments longest) :
    ZerosAt segments (longestRun rest before.length current longest) := by
  induction rest generalizing before current longest with
  | nil => exact hlongest
  | cons segment rest ih =>
      have hnext : segments = (before ++ [segment]) ++ rest := by
        rw [hsplit, List.append_assoc, List.singleton_append]
      have hlength : (before ++ [segment]).length = before.length + 1 := by
        rw [List.length_append, List.length_singleton]
      have hhere : segments[before.length]? = some segment := by
        rw [hsplit, List.getElem?_append_right (Nat.le_refl _), Nat.sub_self]
        rfl
      rw [longestRun]
      split
      · rename_i hzero
        dsimp only
        have hrun : ZerosAt segments
            { start := if current.len = 0 then before.length else current.start,
              len := current.len + 1 } := by
          intro k hle hlt
          dsimp only at hle hlt
          split at hle
          · rename_i hnone
            rw [if_pos hnone, hnone] at hlt
            have hk : k = before.length := by omega
            rw [hk, hhere, hzero]
          · rename_i hsome
            rw [if_neg hsome] at hlt
            have hlast := hend hsome
            by_cases hk : k < current.start + current.len
            · exact hcurrent k hle hk
            · have hk : k = before.length := by omega
              rw [hk, hhere, hzero]
        have hbest : ZerosAt segments (if longest.len < current.len + 1 then
            { start := if current.len = 0 then before.length else current.start,
              len := current.len + 1 } else longest) := by
          split
          · exact hrun
          · exact hlongest
        rw [← hlength]
        apply ih hnext hrun _ hbest
        intro _
        rw [hlength]
        dsimp only
        split
        · rename_i hnone
          omega
        · rename_i hsome
          have hlast := hend hsome
          omega
      · rw [← hlength]
        apply ih hnext _ _ hlongest
        · intro k hle hlt
          dsimp only at hle hlt
          omega
        · exact fun h => absurd rfl h

/-- What is left out is zeros, so the groups before and after it make the address. -/
theorem fillZeros_around {segments : List UInt16} (hlength : segments.length = 8) {span : Span}
    (hzeros : ZerosAt segments span) (hspan : span.len ≠ 0) :
    fillZeros (segments.take span.start) (segments.drop (span.start + span.len)) =
      some ⟨segments, hlength⟩ := by
  have hbound : span.start + span.len ≤ 8 := by
    have hlast := hzeros (span.start + span.len - 1) (by omega) (by omega)
    have hless := (List.getElem?_eq_some_iff.mp hlast).1
    omega
  have hmiddle : List.replicate (8 - (segments.drop (span.start + span.len)).length -
      (segments.take span.start).length) 0 = (segments.drop span.start).take span.len := by
    have hcount : 8 - (segments.drop (span.start + span.len)).length -
        (segments.take span.start).length = span.len := by
      rw [List.length_drop, List.length_take]
      omega
    rw [hcount]
    apply List.ext_getElem?
    intro k
    rw [List.getElem?_replicate, List.getElem?_take, List.getElem?_drop]
    split
    · rename_i hk
      exact (hzeros (span.start + k) (Nat.le_add_right _ _) (by omega)).symm
    · rfl
  have hwhole : segments.take span.start ++ List.replicate
      (8 - (segments.drop (span.start + span.len)).length -
        (segments.take span.start).length) 0 ++ segments.drop (span.start + span.len) =
      segments := by
    rw [hmiddle, List.append_assoc, ← List.drop_drop, List.take_append_drop,
      List.take_append_drop]
  rw [fillZeros]
  simp only [hwhole]
  rw [dif_pos hlength]

theorem fillZeros_whole {segments : List UInt16} (hlength : segments.length = 8) :
    fillZeros segments [] = some ⟨segments, hlength⟩ := by
  have hwhole : segments ++ List.replicate (8 - ([] : List UInt16).length - segments.length) 0 ++
      [] = segments := by
    rw [List.length_nil, hlength, List.append_nil]
    exact List.append_nil _
  rw [fillZeros]
  simp only [hwhole]
  rw [dif_pos hlength]

theorem toIpv4Mapped_eq_some {addr : Ipv6Addr} {mapped : Ipv4Addr}
    (h : toIpv4Mapped addr = some mapped) :
    addr.segments = [0, 0, 0, 0, 0, 0xffff] ++ mapped.segments := by
  rw [toIpv4Mapped] at h
  split at h
  · rename_i x y hsegments
    obtain rfl := Option.some.inj h
    have hhalves : ∀ z : UInt16, UInt16.ofNat ((UInt8.ofNat (z.toNat / 256)).toNat * 256 +
        (UInt8.ofNat (z.toNat % 256)).toNat) = z := by
      intro z
      have hz : z.toNat < 65536 := z.toNat_lt
      have hhigh : (UInt8.ofNat (z.toNat / 256)).toNat = z.toNat / 256 := by
        rw [UInt8.toNat_ofNat']
        omega
      have hlow : (UInt8.ofNat (z.toNat % 256)).toNat = z.toNat % 256 := by
        rw [UInt8.toNat_ofNat']
        omega
      have hsum : z.toNat / 256 * 256 + z.toNat % 256 = z.toNat := by omega
      rw [hhigh, hlow, hsum, UInt16.ofNat_toNat]
    rw [hsegments, Ipv4Addr.segments, hhalves x, hhalves y]
    rfl
  · cases h

theorem readIpv6_text (addr : Ipv6Addr) : readIpv6 addr.text = some (addr, []) := by
  obtain ⟨segments, hlength⟩ := addr
  rw [Ipv6Addr.text]
  rcases hmapped : toIpv4Mapped ⟨segments, hlength⟩ with _ | mapped
  · dsimp only
    have hzeros : ZerosAt segments (longestRun segments 0 ⟨0, 0⟩ ⟨0, 0⟩) := by
      have hempty : ZerosAt segments ⟨0, 0⟩ := by
        intro k _ hlt
        exact absurd hlt (Nat.not_lt_zero _)
      exact zerosAt_longestRun (List.nil_append segments).symm hempty
        (fun h => absurd rfl h) hempty
    generalize longestRun segments 0 ⟨0, 0⟩ ⟨0, 0⟩ = span at hzeros
    split
    · rename_i hspan
      have hbound : span.start + span.len ≤ 8 := by
        have hlast := hzeros (span.start + span.len - 1) (by omega) (by omega)
        have hless := (List.getElem?_eq_some_iff.mp hlast).1
        omega
      have hhead : (segments.take span.start).length = span.start := by
        rw [List.length_take]
        omega
      have htail : (segments.drop (span.start + span.len)).length ≤ 8 - (span.start + 1) := by
        rw [List.length_drop]
        omega
      have hreadHead : readGroups 8 true (groupsText (segments.take span.start) ++
          ':' :: ':' :: groupsText (segments.drop (span.start + span.len))) =
          { segments := segments.take span.start
            ipv4 := false
            rest := ':' :: ':' :: groupsText (segments.drop (span.start + span.len)) } := by
        apply readGroups_text (by omega) (.inr ⟨_, rfl⟩)
        intro hmem
        rcases List.mem_append.mp hmem with hmem | hmem
        · exact not_dot_groupsText _ hmem
        · rcases List.mem_cons.mp hmem with hmem | hmem
          · exact absurd hmem (by decide)
          · rcases List.mem_cons.mp hmem with hmem | hmem
            · exact absurd hmem (by decide)
            · exact not_dot_groupsText _ hmem
      have hreadTail := readGroups_text htail (.inl rfl : GroupsEnd []) (by
        rw [List.append_nil]
        exact not_dot_groupsText _)
      rw [List.append_nil] at hreadTail
      rw [readIpv6, hreadHead]
      dsimp only
      rw [if_neg (by omega), if_neg (by decide), hhead]
      simp only [readChar, if_true, Option.bind_eq_bind, Option.bind_some, hreadTail,
        fillZeros_around hlength hzeros (by omega : span.len ≠ 0), Option.pure_def]
    · have hread := readGroups_text (le_of_eq hlength) (.inl rfl : GroupsEnd []) (by
        rw [List.append_nil]
        exact not_dot_groupsText segments)
      rw [List.append_nil] at hread
      rw [readIpv6, hread]
      dsimp only
      rw [if_pos hlength, fillZeros_whole hlength]
      rfl
  · dsimp only
    have hsegments := toIpv4Mapped_eq_some hmapped
    have hread := readIpv4_text mapped (fun c hc => absurd hc (by simp) : Stops 10 [])
    rw [List.append_nil] at hread
    have hgroup : readNumber 16 4 65536 true ("ffff:".toList ++ mapped.text) =
        some (0xffff, ':' :: mapped.text) :=
      @readNumber_numberText 16 4 65536 0xffff true (by decide) (by decide) (by decide)
        (by decide) (by decide) _ (stops_of_cons (by decide))
    have htail : readGroups 7 true ("ffff:".toList ++ mapped.text) =
        { segments := 0xffff :: mapped.segments, ipv4 := true, rest := [] } := by
      have hnone : readIpv4 ("ffff:".toList ++ mapped.text) = none := rfl
      have hlater : readGroups 6 false (':' :: mapped.text) =
          { segments := mapped.segments, ipv4 := true, rest := [] } := by
        rw [readGroups, if_neg (by decide), readSeparated, if_neg (by decide), readChar,
          if_pos rfl, Option.bind_some, hread]
      rw [readGroups, if_neg (by decide), readSeparated, if_pos rfl, hnone, readSeparated,
        if_pos rfl, hgroup]
      simp only [hlater]
      rfl
    have hhead : readGroups 8 true ("::ffff:".toList ++ mapped.text) =
        { segments := [], ipv4 := false, rest := "::ffff:".toList ++ mapped.text } := rfl
    have hfill : fillZeros [] (0xffff :: mapped.segments) = some ⟨segments, hlength⟩ := by
      have hwhole : ([] : List UInt16) ++ List.replicate
          (8 - (0xffff :: mapped.segments).length - ([] : List UInt16).length) 0 ++
          0xffff :: mapped.segments = segments := hsegments.symm
      rw [fillZeros]
      simp only [hwhole]
      rw [dif_pos hlength]
    rw [readIpv6, hhead]
    dsimp only
    rw [if_neg (by decide), if_neg (by decide)]
    have hfirst : readChar ':' ("::ffff:".toList ++ mapped.text) =
        some (':' :: ("ffff:".toList ++ mapped.text)) := rfl
    have hsecond : readChar ':' (':' :: ("ffff:".toList ++ mapped.text)) =
        some ("ffff:".toList ++ mapped.text) := rfl
    have hleft : 8 - (([] : List UInt16).length + 1) = 7 := rfl
    rw [hleft]
    simp only [Option.bind_eq_bind, hfirst, Option.bind_some, hsecond, htail, hfill,
      Option.pure_def]

theorem readIpv4_ipv6_text (addr : Ipv6Addr) : readIpv4 addr.text = none := by
  rw [Ipv6Addr.text]
  rcases toIpv4Mapped addr with _ | mapped
  · apply readIpv4_of_no_dot
    dsimp only
    split
    · intro hmem
      rcases List.mem_append.mp hmem with hmem | hmem
      · exact not_dot_groupsText _ hmem
      · rcases List.mem_cons.mp hmem with hmem | hmem
        · exact absurd hmem (by decide)
        · rcases List.mem_cons.mp hmem with hmem | hmem
          · exact absurd hmem (by decide)
          · exact not_dot_groupsText _ hmem
    · exact not_dot_groupsText _
  · rfl

/-- Every address is read back from its text. -/
theorem parseIpAddr_text (addr : IpAddr) : parseIpAddr addr.text = some addr := by
  cases addr with
  | v4 addr =>
      have hread := readIpv4_text addr (fun c hc => absurd hc (by simp) : Stops 10 [])
      rw [List.append_nil] at hread
      rw [IpAddr.text, parseIpAddr, String.toList_ofList, hread]
      rfl
  | v6 addr =>
      rw [IpAddr.text, parseIpAddr, String.toList_ofList, readIpv4_ipv6_text, readIpv6_text]
      rfl

/-! ### The characters of an address -/

/-- A character of an address: a lowercase hexadecimal digit or a separator. -/
def addressChar (c : Char) : Bool :=
  ('0' ≤ c && c ≤ '9') || ('a' ≤ c && c ≤ 'f') || c == ':' || c == '.'

theorem addressChar_numberText {radix n : Nat} (hone : 1 < radix) (hradix : radix ≤ 16) :
    ∀ c ∈ numberText radix n, addressChar c = true := by
  intro c hc
  obtain ⟨digit, hdigit, rfl⟩ := List.mem_map.mp hc
  have hsixteen : digit < 16 := lt_of_lt_of_le (digitsOf_lt hone hdigit) hradix
  interval_cases digit <;> rfl

theorem length_numberText {radix n k : Nat} (hone : 1 < radix) (hk : 0 < k)
    (h : n < radix ^ k) : (numberText radix n).length ≤ k := by
  rw [numberText, List.length_map]
  exact digitsOf_length_le hone hk h

theorem length_groupText (segment : UInt16) : (groupText segment).length ≤ 4 := by
  have hsegment : segment.toNat < 65536 := segment.toNat_lt
  exact length_numberText (by decide) (by decide) (by omega)

theorem laterGroups_bounds (segments : List UInt16) :
    (∀ c ∈ laterGroups segments, addressChar c = true) ∧
      (laterGroups segments).length ≤ 5 * segments.length := by
  induction segments with
  | nil => exact ⟨fun c hc => absurd hc List.not_mem_nil, Nat.le_refl _⟩
  | cons segment segments ih =>
      have htext : laterGroups (segment :: segments) =
          ':' :: (groupText segment ++ laterGroups segments) := rfl
      have hgroup := length_groupText segment
      rw [htext]
      refine ⟨?_, ?_⟩
      · intro c hc
        rcases List.mem_cons.mp hc with rfl | hc
        · rfl
        · rcases List.mem_append.mp hc with hc | hc
          · exact addressChar_numberText (by decide) (by decide) c hc
          · exact ih.1 c hc
      · have hlater := ih.2
        rw [List.length_cons, List.length_append, List.length_cons]
        omega

theorem groupsText_bounds (segments : List UInt16) :
    (∀ c ∈ groupsText segments, addressChar c = true) ∧
      (groupsText segments).length ≤ 5 * segments.length := by
  rcases segments with _ | ⟨segment, segments⟩
  · exact ⟨fun c hc => absurd hc List.not_mem_nil, Nat.le_refl _⟩
  · have hlater := laterGroups_bounds segments
    have hgroup := length_groupText segment
    refine ⟨?_, ?_⟩
    · intro c hc
      rcases List.mem_append.mp hc with hc | hc
      · exact addressChar_numberText (by decide) (by decide) c hc
      · exact hlater.1 c hc
    · rw [groupsText, List.length_append, List.length_cons]
      omega

theorem ipv4_text_bounds (addr : Ipv4Addr) :
    (∀ c ∈ addr.text, addressChar c = true) ∧ addr.text.length ≤ 15 := by
  have hchars : ∀ n : Nat, ∀ c ∈ numberText 10 n, addressChar c = true :=
    fun n => addressChar_numberText (by decide) (by decide)
  have hlength : ∀ octet : UInt8, (numberText 10 octet.toNat).length ≤ 3 := by
    intro octet
    have hoctet : octet.toNat < 256 := octet.toNat_lt
    exact length_numberText (by decide) (by decide) (by omega)
  have ha := hlength addr.a
  have hb := hlength addr.b
  have hc := hlength addr.c
  have hd := hlength addr.d
  refine ⟨?_, ?_⟩
  · intro c hc
    simp only [Ipv4Addr.text, List.mem_append, List.mem_cons] at hc
    rcases hc with hc | rfl | hc | rfl | hc | rfl | hc
    · exact hchars _ c hc
    · rfl
    · exact hchars _ c hc
    · rfl
    · exact hchars _ c hc
    · rfl
    · exact hchars _ c hc
  · simp only [Ipv4Addr.text, List.length_append, List.length_cons]
    omega

theorem ipv6_text_bounds (addr : Ipv6Addr) :
    (∀ c ∈ addr.text, addressChar c = true) ∧ addr.text.length ≤ 82 := by
  rw [Ipv6Addr.text]
  rcases toIpv4Mapped addr with _ | mapped
  · dsimp only
    split
    · have hhead := groupsText_bounds
        (addr.segments.take (longestRun addr.segments 0 ⟨0, 0⟩ ⟨0, 0⟩).start)
      have htail := groupsText_bounds
        (addr.segments.drop ((longestRun addr.segments 0 ⟨0, 0⟩ ⟨0, 0⟩).start +
          (longestRun addr.segments 0 ⟨0, 0⟩ ⟨0, 0⟩).len))
      have hlength := addr.length_eq
      refine ⟨?_, ?_⟩
      · intro c hc
        rcases List.mem_append.mp hc with hc | hc
        · exact hhead.1 c hc
        · rcases List.mem_cons.mp hc with rfl | hc
          · rfl
          · rcases List.mem_cons.mp hc with rfl | hc
            · rfl
            · exact htail.1 c hc
      · have hheadLength := hhead.2
        have htailLength := htail.2
        rw [List.length_take] at hheadLength
        rw [List.length_drop] at htailLength
        rw [List.length_append, List.length_cons, List.length_cons]
        omega
    · have hall := groupsText_bounds addr.segments
      rw [addr.length_eq] at hall
      exact ⟨hall.1, hall.2.trans (by decide)⟩
  · have hmapped := ipv4_text_bounds mapped
    refine ⟨?_, ?_⟩
    · intro c hc
      have hlead : "::ffff:".toList.all addressChar = true := rfl
      rcases List.mem_append.mp hc with hc | hc
      · exact List.all_eq_true.mp hlead c hc
      · exact hmapped.1 c hc
    · dsimp only
      rw [List.length_append]
      have hlead : "::ffff:".toList.length = 7 := rfl
      have htail := hmapped.2
      omega

/-- A text of at most 82 characters, each of them one of an address. -/
theorem ip_text_bounds (addr : IpAddr) :
    (∀ c ∈ addr.text.toList, addressChar c = true) ∧ addr.text.toList.length ≤ 82 := by
  cases addr with
  | v4 addr =>
      rw [IpAddr.text, String.toList_ofList]
      have hbounds := ipv4_text_bounds addr
      exact ⟨hbounds.1, hbounds.2.trans (by decide)⟩
  | v6 addr =>
      rw [IpAddr.text, String.toList_ofList]
      exact ipv6_text_bounds addr

/-! ### What reading an address says of the text -/

theorem readDigits_stops {radix : Nat} (chars : List Char) {tail : List Char}
    (htail : Stops radix tail) :
    readDigits radix (chars ++ tail) =
      ((readDigits radix chars).1, (readDigits radix chars).2 ++ tail) := by
  induction chars with
  | nil =>
      rcases tail with _ | ⟨c, tail⟩
      · rfl
      · show readDigits radix (c :: tail) = ([], c :: tail)
        rw [readDigits, htail c rfl]
  | cons c chars ih =>
      rw [List.cons_append, readDigits, readDigits]
      rcases toDigit radix c with _ | digit
      · rfl
      · rw [ih]

theorem readNumber_append {radix maxDigits bound n : Nat} {allowZeroPrefix : Bool}
    {chars rest tail : List Char} (htail : Stops radix tail)
    (h : readNumber radix maxDigits bound allowZeroPrefix chars = some (n, rest)) :
    readNumber radix maxDigits bound allowZeroPrefix (chars ++ tail) = some (n, rest ++ tail) := by
  rw [readNumber] at h ⊢
  rw [readDigits_stops chars htail]
  dsimp only at h ⊢
  split at h
  · cases h
  rename_i hlength
  split at h
  · cases h
  rename_i hzero
  split at h
  · rename_i hbound
    cases h
    rw [if_neg hlength, if_neg hzero, if_pos hbound]
  · cases h

theorem readOctet_append {first : Bool} {n : Nat} {chars rest tail : List Char}
    (htail : Stops 10 tail) (h : readOctet first chars = some (n, rest)) :
    readOctet first (chars ++ tail) = some (n, rest ++ tail) := by
  rw [readOctet, readSeparated] at h ⊢
  split at h
  · rename_i hfirst
    rw [if_pos hfirst]
    exact readNumber_append htail h
  · rename_i hfirst
    rw [if_neg hfirst]
    rcases chars with _ | ⟨c, chars⟩
    · cases h
    · rw [readChar] at h
      rw [List.cons_append, readChar]
      split at h
      · rename_i hc
        rw [if_pos hc]
        exact readNumber_append htail h
      · cases h

/-- An address is read up to what is no digit. -/
theorem readIpv4_append {chars rest tail : List Char} {addr : Ipv4Addr}
    (htail : Stops 10 tail) (h : readIpv4 chars = some (addr, rest)) :
    readIpv4 (chars ++ tail) = some (addr, rest ++ tail) := by
  simp only [readIpv4, Option.bind_eq_bind, Option.bind_eq_some_iff, Option.pure_def,
    Option.some.injEq, Prod.mk.injEq] at h
  obtain ⟨⟨a, first⟩, ha, ⟨b, second⟩, hb, ⟨c, third⟩, hc, ⟨d, fourth⟩, hd, rfl, rfl⟩ := h
  rw [readIpv4, readOctet_append htail ha]
  simp only [Option.bind_eq_bind, Option.bind_some, readOctet_append htail hb,
    readOctet_append htail hc, readOctet_append htail hd, Option.pure_def]

def dottedChar (c : Char) : Bool := ('0' ≤ c && c ≤ '9') || c == '.'

theorem dottedChar_of_toDigit {c : Char} (h : (toDigit 10 c).isSome = true) :
    dottedChar c = true := by
  obtain ⟨digit, hdigit⟩ := Option.isSome_iff_exists.mp h
  rw [toDigit, Option.filter_eq_some_iff] at hdigit
  obtain ⟨hvalue, hless⟩ := hdigit
  have hbound : digit < 10 := by simpa using hless
  split at hvalue
  · rename_i hrange
    simp [dottedChar, hrange]
  · split at hvalue
    · cases hvalue
      omega
    · split at hvalue
      · cases hvalue
        omega
      · cases hvalue

theorem readOctet_chars {first : Bool} {n : Nat} {chars rest : List Char}
    (h : readOctet first chars = some (n, rest)) :
    ∃ read, chars = read ++ rest ∧ ∀ c ∈ read, dottedChar c = true := by
  rw [readOctet, readSeparated] at h
  split at h
  · obtain ⟨digits, -, hchars, hdigits⟩ := readNumber_rest h
    exact ⟨digits, hchars, fun c hc => dottedChar_of_toDigit (hdigits c hc)⟩
  · rcases chars with _ | ⟨c, chars⟩
    · cases h
    · rw [readChar] at h
      split at h
      · rename_i hc
        obtain ⟨digits, -, hchars, hdigits⟩ := readNumber_rest h
        refine ⟨c :: digits, by rw [hchars, List.cons_append], ?_⟩
        intro other hother
        rcases List.mem_cons.mp hother with rfl | hother
        · rw [hc]
          rfl
        · exact dottedChar_of_toDigit (hdigits other hother)
      · cases h

theorem readIpv4_read {chars rest : List Char} {addr : Ipv4Addr}
    (h : readIpv4 chars = some (addr, rest)) :
    ∃ read, chars = read ++ rest ∧ ∀ c ∈ read, dottedChar c = true := by
  simp only [readIpv4, Option.bind_eq_bind, Option.bind_eq_some_iff, Option.pure_def,
    Option.some.injEq, Prod.mk.injEq] at h
  obtain ⟨⟨a, first⟩, ha, ⟨b, second⟩, hb, ⟨c, third⟩, hc, ⟨d, fourth⟩, hd, -, hrest⟩ := h
  obtain ⟨one, rfl, hone⟩ := readOctet_chars ha
  obtain ⟨two, rfl, htwo⟩ := readOctet_chars hb
  obtain ⟨three, rfl, hthree⟩ := readOctet_chars hc
  obtain ⟨four, rfl, hfour⟩ := readOctet_chars hd
  dsimp only at hrest
  subst hrest
  refine ⟨one ++ (two ++ (three ++ four)), by simp only [List.append_assoc], ?_⟩
  intro c hmem
  simp only [List.mem_append] at hmem
  rcases hmem with hmem | hmem | hmem | hmem
  · exact hone c hmem
  · exact htwo c hmem
  · exact hthree c hmem
  · exact hfour c hmem

/-- A whole IPv4 address is digits and dots. -/
theorem readIpv4_chars {chars : List Char} {addr : Ipv4Addr}
    (h : readIpv4 chars = some (addr, [])) : ∀ c ∈ chars, dottedChar c = true := by
  obtain ⟨read, hread, hdotted⟩ := readIpv4_read h
  rw [hread, List.append_nil]
  exact hdotted

/-- A character that stands in some IPv6 address. -/
def groupChar (c : Char) : Bool := (toDigit 16 c).isSome || c == ':' || c == '.'

theorem groupChar_of_dottedChar {c : Char} (h : dottedChar c = true) : groupChar c = true := by
  rw [dottedChar, Bool.or_eq_true, Bool.and_eq_true, decide_eq_true_eq, decide_eq_true_eq,
    beq_iff_eq] at h
  rcases h with hrange | rfl
  · have hless : c.toNat - '0'.toNat < 16 := by
      have hle : c.toNat ≤ 57 := hrange.2
      have hzero : '0'.toNat = 48 := rfl
      omega
    rw [groupChar, toDigit, if_pos hrange, Option.filter_some, if_pos (by simpa using hless)]
    rfl
  · rfl

theorem readSeparated_read {α : Type} {first : Bool} {inner : List Char → Option (α × List Char)}
    {chars rest : List Char} {a : α}
    (hinner : ∀ {chars}, inner chars = some (a, rest) →
      ∃ read, chars = read ++ rest ∧ ∀ c ∈ read, groupChar c = true)
    (h : readSeparated first ':' inner chars = some (a, rest)) :
    ∃ read, chars = read ++ rest ∧ ∀ c ∈ read, groupChar c = true := by
  rw [readSeparated] at h
  split at h
  · exact hinner h
  · rcases chars with _ | ⟨c, chars⟩
    · cases h
    · rw [readChar] at h
      split at h
      · rename_i hc
        obtain ⟨read, hread, hchars⟩ := hinner h
        refine ⟨c :: read, by rw [hread, List.cons_append], ?_⟩
        intro other hother
        rcases List.mem_cons.mp hother with rfl | hother
        · rw [hc]
          rfl
        · exact hchars other hother
      · cases h

theorem readGroups_read (left : Nat) (first : Bool) (chars : List Char) :
    ∃ read, chars = read ++ (readGroups left first chars).rest ∧
      ∀ c ∈ read, groupChar c = true := by
  induction left generalizing first chars with
  | zero => exact ⟨[], rfl, fun c hc => absurd hc List.not_mem_nil⟩
  | succ left ih =>
      rw [readGroups]
      split
      · rename_i addr rest hread
        split at hread
        · cases hread
        · apply readSeparated_read _ hread
          intro chars hchars
          obtain ⟨read, hsplit, hdotted⟩ := readIpv4_read hchars
          exact ⟨read, hsplit, fun c hc => groupChar_of_dottedChar (hdotted c hc)⟩
      · split
        · rename_i group rest hread
          obtain ⟨group, hgroup, hdigits⟩ :
              ∃ read, chars = read ++ rest ∧ ∀ c ∈ read, groupChar c = true := by
            apply readSeparated_read _ hread
            intro chars hchars
            obtain ⟨digits, -, hsplit, hdigits⟩ := readNumber_rest hchars
            refine ⟨digits, hsplit, ?_⟩
            intro c hc
            rw [groupChar, hdigits c hc]
            rfl
          obtain ⟨later, hlater, hchars⟩ := ih false rest
          refine ⟨group ++ later, ?_, ?_⟩
          · rw [List.append_assoc, ← hlater]
            exact hgroup
          · intro c hc
            rcases List.mem_append.mp hc with hc | hc
            · exact hdigits c hc
            · exact hchars c hc
        · exact ⟨[], rfl, fun c hc => absurd hc List.not_mem_nil⟩

theorem readChar_eq_some {wanted : Char} {chars rest : List Char}
    (h : readChar wanted chars = some rest) : chars = wanted :: rest := by
  rcases chars with _ | ⟨c, chars⟩
  · cases h
  · rw [readChar] at h
    split at h
    · rename_i hc
      rw [hc, Option.some.inj h]
    · cases h

/-- A whole IPv6 address is hexadecimal digits, colons and dots. -/
theorem readIpv6_chars {chars : List Char} {addr : Ipv6Addr}
    (h : readIpv6 chars = some (addr, [])) : ∀ c ∈ chars, groupChar c = true := by
  obtain ⟨lead, hlead, hleads⟩ := readGroups_read 8 true chars
  rw [readIpv6] at h
  dsimp only at h
  split at h
  · obtain ⟨_, -, hrest⟩ := Option.map_eq_some_iff.mp h
    rw [(Prod.mk.inj hrest).2, List.append_nil] at hlead
    rw [hlead]
    exact hleads
  · split at h
    · cases h
    · simp only [Option.bind_eq_bind, Option.bind_eq_some_iff, Option.pure_def,
        Option.some.injEq, Prod.mk.injEq] at h
      obtain ⟨first, hfirst, second, hsecond, _, -, -, hrest⟩ := h
      obtain ⟨tail, htail, htails⟩ :=
        readGroups_read (8 - ((readGroups 8 true chars).segments.length + 1)) true second
      rw [hrest, List.append_nil] at htail
      rw [hlead, readChar_eq_some hfirst, readChar_eq_some hsecond, htail]
      intro c hc
      simp only [List.mem_append, List.mem_cons] at hc
      rcases hc with hc | rfl | rfl | hc
      · exact hleads c hc
      · rfl
      · rfl
      · exact htails c hc

theorem parseIpAddr_v6 {text : String} {addr : Ipv6Addr}
    (h : parseIpAddr text = some (.v6 addr)) : readIpv6 text.toList = some (addr, []) := by
  rw [parseIpAddr] at h
  split at h
  · split at h
    · cases h
    · cases h
  · split at h
    · rename_i hread
      split at h
      · rename_i hrest
        cases h
        rwa [hrest] at hread
      · cases h
    · cases h

/-- Without a colon no more than two groups are read. -/
theorem readGroups_no_colon {chars : List Char} (h : ':' ∉ chars) (left : Nat) (first : Bool) :
    (readGroups left first chars).segments.length ≤ 2 ∧
      ((readGroups left first chars).ipv4 = true ∨
        ':' ∉ (readGroups left first chars).rest) := by
  have hlater : ∀ {rest : List Char}, ':' ∉ rest → ∀ left : Nat, readGroups left false rest =
      { segments := [], ipv4 := false, rest := rest } := by
    intro rest hrest left
    have hnone : ∀ {α : Type} (inner : List Char → Option (α × List Char)),
        readSeparated false ':' inner rest = none := by
      intro α inner
      rw [readSeparated, if_neg (by decide)]
      rcases rest with _ | ⟨c, rest⟩
      · rfl
      · rw [readChar, if_neg]
        · rfl
        · rintro rfl
          exact hrest List.mem_cons_self
    rcases left with _ | left
    · rfl
    · rw [readGroups, hnone, hnone]
      split
      · rename_i hread
        split at hread
        · cases hread
        · cases hread
      · rfl
  rcases left with _ | left
  · exact ⟨Nat.zero_le _, .inr h⟩
  rw [readGroups]
  split
  · exact ⟨Nat.le_refl _, .inl rfl⟩
  · split
    · rename_i group rest hread
      have hrest : ':' ∉ rest := by
        rw [readSeparated] at hread
        split at hread
        · obtain ⟨digits, -, hchars, -⟩ := readNumber_rest hread
          rw [hchars] at h
          exact fun hmem => h (List.mem_append_right _ hmem)
        · rcases chars with _ | ⟨c, chars⟩
          · cases hread
          · rw [readChar, if_neg] at hread
            · cases hread
            · rintro rfl
              exact h List.mem_cons_self
      rw [hlater hrest]
      exact ⟨Nat.le_succ 1, .inr hrest⟩
    · exact ⟨Nat.zero_le _, .inr h⟩

/-- An IPv6 address has a colon. -/
theorem colon_mem_of_readIpv6 {chars rest : List Char} {addr : Ipv6Addr}
    (h : readIpv6 chars = some (addr, rest)) : ':' ∈ chars := by
  by_contra hcolon
  obtain ⟨hlength, hrest⟩ := readGroups_no_colon hcolon 8 true
  rw [readIpv6] at h
  dsimp only at h
  rw [if_neg (by omega)] at h
  split at h
  · cases h
  · rename_i hipv4
    have hcolon := hrest.resolve_left hipv4
    rcases hchars : (readGroups 8 true chars).rest with _ | ⟨c, later⟩
    · rw [hchars] at h
      cases h
    · rw [hchars] at h hcolon
      have hc : c ≠ ':' := by
        rintro rfl
        exact hcolon List.mem_cons_self
      rw [readChar, if_neg hc] at h
      cases h

/-- A text without a colon that is an address is a dotted one. -/
theorem parseIpAddr_no_colon {text : String} {addr : IpAddr} (h : parseIpAddr text = some addr)
    (hcolon : ':' ∉ text.toList) :
    ∃ dotted, addr = .v4 dotted ∧ readIpv4 text.toList = some (dotted, []) := by
  rw [parseIpAddr] at h
  split at h
  · rename_i dotted rest hread
    split at h
    · rename_i hrest
      rw [hrest] at hread
      exact ⟨dotted, (Option.some.inj h).symm, hread⟩
    · cases h
  · split at h
    · rename_i hread
      exact absurd (colon_mem_of_readIpv6 hread) hcolon
    · cases h

end EggReplay.Library.IpText
