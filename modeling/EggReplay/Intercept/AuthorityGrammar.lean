import EggReplay.Intercept.CanonicalAuthorities

/-!
The texts that are read as authorities: a host, a host with a port, an IPv6 address in
brackets, and one with a port. Every text of these forms is accepted, and no other one but
those whose port is written with a plus sign.
-/

namespace EggReplay.Intercept.AuthorityGrammar

open EggReplay.Intercept.Authorities
open EggReplay.Intercept.CanonicalAuthorities
open EggReplay.Intercept.Hosts
open EggReplay.Library.Checks
open EggReplay.Library.IpText
open EggReplay.Library.Text

/-! ### Ports -/

def decimalValue (text : String) : Nat :=
  text.toList.foldl (fun value c => value * 10 + (c.toNat - '0'.toNat)) 0

/-- Decimal digits that stand for a port. -/
structure PortText (text : String) (port : UInt16) : Prop where
  nonempty : text ≠ ""
  digits : ∀ c ∈ text.toList, c.isDigit = true
  value : decimalValue text = port.toNat
  nonzero : port ≠ 0

theorem toDigit_of_isDigit {c : Char} (h : c.isDigit = true) :
    toDigit 10 c = some (c.toNat - '0'.toNat) := by
  obtain ⟨hlow, hhigh⟩ := digit_bounds h
  have hrange : '0' ≤ c ∧ c ≤ '9' := ⟨hlow, hhigh⟩
  have hzero : '0'.toNat = 48 := rfl
  have hless : c.toNat - '0'.toNat < 10 := by omega
  rw [toDigit, if_pos hrange, Option.filter_some, if_pos (by simpa using hless)]

theorem isDigit_of_toDigit {c : Char} (h : (toDigit 10 c).isSome = true) :
    c.isDigit = true := by
  rcases Bool.eq_false_or_eq_true c.isDigit with hdigit | hdigit
  · exact hdigit
  · have hdotted := dottedChar_of_toDigit h
    rw [dottedChar, Bool.or_eq_true, Bool.and_eq_true, decide_eq_true_eq, decide_eq_true_eq,
      beq_iff_eq] at hdotted
    rcases hdotted with ⟨hlow, hhigh⟩ | rfl
    · rw [Char.isDigit, Bool.and_eq_true, decide_eq_true_eq, decide_eq_true_eq]
      exact ⟨hlow, hhigh⟩
    · exact absurd h (by decide)

theorem readDigits_of_isDigit {chars : List Char} (h : ∀ c ∈ chars, c.isDigit = true) :
    readDigits 10 chars = (chars.map fun c => c.toNat - '0'.toNat, []) := by
  induction chars with
  | nil => rfl
  | cons c chars ih =>
      rw [readDigits, toDigit_of_isDigit (h c List.mem_cons_self),
        ih fun other hother => h other (List.mem_cons_of_mem c hother)]
      rfl

theorem digitsValue_map (text : String) :
    digitsValue 10 (text.toList.map fun c => c.toNat - '0'.toNat) = decimalValue text := by
  rw [digitsValue, List.foldl_map, decimalValue]

/-- Without a plus sign a port is digits that stand for it. -/
theorem parseU16_eq_some {text : String} {port : UInt16} (hplus : stripLead text "+" = none) :
    parseU16 text = some port ↔ text ≠ "" ∧ (∀ c ∈ text.toList, c.isDigit = true) ∧
      decimalValue text = port.toNat := by
  rw [parseU16, hplus, Option.getD_none]
  constructor
  · intro h
    split at h
    · rename_i value hread
      obtain ⟨digits, hnonempty, hchars, hdigits⟩ := readNumber_rest hread
      rw [List.append_nil] at hchars
      have hall : ∀ c ∈ text.toList, c.isDigit = true := by
        intro c hc
        rw [hchars] at hc
        exact isDigit_of_toDigit (hdigits c hc)
      rw [readNumber, readDigits_of_isDigit hall, digitsValue_map] at hread
      dsimp only at hread
      split at hread
      · cases hread
      · split at hread
        · cases hread
        · split at hread
          · rename_i hbound
            cases hread
            cases h
            refine ⟨?_, hall, ?_⟩
            · rintro rfl
              exact hnonempty hchars.symm
            · rw [UInt16.toNat_ofNat', Nat.mod_eq_of_lt hbound]
          · cases hread
    · cases h
    · cases h
  · rintro ⟨hnonempty, hdigits, hvalue⟩
    have hchars : text.toList ≠ [] := by
      intro hempty
      exact hnonempty (String.toList_eq_nil_iff.mp hempty)
    have hlength : ¬(text.toList.map (fun c => c.toNat - '0'.toNat) = [] ∨
        text.toList.length < (text.toList.map fun c => c.toNat - '0'.toNat).length) := by
      rw [List.length_map, List.map_eq_nil_iff]
      rintro (hempty | hless)
      · exact hchars hempty
      · exact absurd hless (Nat.lt_irrefl _)
    have hbound : decimalValue text < 2 ^ 16 := by
      rw [hvalue]
      exact port.toNat_lt
    rw [readNumber, readDigits_of_isDigit hdigits, digitsValue_map]
    dsimp only
    rw [if_neg hlength, if_neg (by simp), if_pos hbound]
    dsimp only
    rw [hvalue, UInt16.ofNat_toNat]

theorem stripLead_eq_none_of_digits {text : String} (h : ∀ c ∈ text.toList, c.isDigit = true) :
    stripLead text "+" = none := by
  rcases hlead : stripLead text "+" with _ | rest
  · rfl
  · have hplus : '+' ∈ text.toList := by
      rw [stripLead_eq_some.mp hlead, String.toList_append]
      exact List.mem_cons_self
    exact absurd (h '+' hplus) (by decide)

theorem parsePort_eq_ok {text : String} {port : UInt16} (hplus : stripLead text "+" = none) :
    parsePort text = .ok port ↔ PortText text port := by
  rw [parsePort]
  constructor
  · intro h
    split at h
    · cases h
    · rename_i number hnumber
      simp only [bind_unit_eq_ok, ensure_eq_ok, pure_eq_ok] at h
      obtain ⟨hnonzero, rfl⟩ := h
      obtain ⟨hnonempty, hdigits, hvalue⟩ := (parseU16_eq_some hplus).mp hnumber
      exact ⟨hnonempty, hdigits, hvalue, hnonzero⟩
  · rintro ⟨hnonempty, hdigits, hvalue, hnonzero⟩
    rw [(parseU16_eq_some hplus).mpr ⟨hnonempty, hdigits, hvalue⟩]
    dsimp only
    rw [ensure_of_true hnonzero]
    rfl

theorem PortText.parsePort {text : String} {port : UInt16} (h : PortText text port) :
    Authorities.parsePort text = .ok port :=
  (parsePort_eq_ok (stripLead_eq_none_of_digits h.digits)).mpr h

theorem PortText.not_mem {text : String} {port : UInt16} (h : PortText text port) {c : Char}
    (hc : c.isDigit = false) : c ∉ text.toList := by
  intro hmem
  rw [h.digits c hmem] at hc
  cases hc

/-! ### The grammar -/

/-- A host that is no address in brackets and no part of a host with a port. -/
def Bare (name : String) : Prop :=
  ':' ∉ name.toList ∧ '[' ∉ name.toList ∧ ']' ∉ name.toList

/-- The forms of an authority; `named` is what is asked of a host before a port. -/
inductive AuthorityText (named : String → Prop) (defaultPort : UInt16) (text : String) :
    NormalizedTarget → Prop
  | host {host : NormalizedHost} (bare : Bare text) (normal : normalizeHost text = .ok host) :
      AuthorityText named defaultPort text { host, port := defaultPort }
  | hostPort {name number : String} {host : NormalizedHost} {port : UInt16}
      (written : text = name ++ ":" ++ number) (bare : Bare name) (spelled : named name)
      (normal : normalizeHost name = .ok host) (numbered : PortText number port) :
      AuthorityText named defaultPort text { host, port }
  | address {literal : String} {addr : Ipv6Addr} (written : text = "[" ++ literal ++ "]")
      (read : parseIpAddr literal = some (.v6 addr)) :
      AuthorityText named defaultPort text { host := .ip (.v6 addr), port := defaultPort }
  | addressPort {literal number : String} {addr : Ipv6Addr} {port : UInt16}
      (written : text = "[" ++ literal ++ "]:" ++ number)
      (read : parseIpAddr literal = some (.v6 addr)) (numbered : PortText number port) :
      AuthorityText named defaultPort text { host := .ip (.v6 addr), port }

/-- The text of a host without white space. -/
def Unspaced (name : String) : Prop := name.toList.any isWhitespace = false

/-- A plus sign stands before the port. -/
def SignedPort (text : String) : Prop :=
  ∃ lead digits, text = lead ++ ":+" ++ digits ∧ ∀ c ∈ digits.toList, c.isDigit = true

/-! ### Hosts without brackets -/

section

variable {name : String} {host : NormalizedHost}

theorem normalizeHost_wellFormed (h : normalizeHost name = .ok host) (htrim : trim name = name) :
    name ≠ "" ∧ '@' ∉ name.toList ∧ '/' ∉ name.toList ∧ '?' ∉ name.toList ∧
      '#' ∉ name.toList := by
  simp only [normalizeHost, bind_unit_eq_ok, ensure_eq_ok, htrim, containsChar_eq_false] at h
  obtain ⟨hnonempty, -, hat, ⟨hslash, hquery, hhash⟩, -⟩ := h
  exact ⟨hnonempty, hat, hslash, hquery, hhash⟩

theorem stripLead_eq_none {s lead : String} {c : Char} (hlead : c ∈ lead.toList)
    (h : c ∉ s.toList) : stripLead s lead = none := by
  rcases hrest : stripLead s lead with _ | rest
  · rfl
  · rw [stripLead_eq_some.mp hrest, String.toList_append] at h
    exact absurd (List.mem_append_left _ hlead) h

theorem bracketed_eq_none (h : stripLead name "[" = none) : bracketed name = none := by
  rw [bracketed, h]
  rfl

theorem normalizeHost_unbracketed (h : normalizeHost name = .ok host)
    (htrim : trim name = name) (hlead : stripLead name "[" = none) :
    normalizeUnbracketed name = .ok host := by
  simp only [normalizeHost, bind_unit_eq_ok, htrim, bracketed_eq_none hlead] at h
  exact h.2.2.2.2

theorem no_bracket_of_normal (h : normalizeHost name = .ok host) (htrim : trim name = name)
    (hlead : stripLead name "[" = none) : '[' ∉ name.toList ∧ ']' ∉ name.toList := by
  have hunbracketed := normalizeHost_unbracketed h htrim hlead
  rw [normalizeUnbracketed, bind_unit_eq_ok, ensure_eq_ok, containsChar_eq_false,
    containsChar_eq_false] at hunbracketed
  exact hunbracketed.1

theorem not_isWhitespace_of_dottedChar {c : Char} (h : dottedChar c = true) :
    isWhitespace c = false := by
  apply not_isWhitespace
  rw [dottedChar, Bool.or_eq_true, Bool.and_eq_true, decide_eq_true_eq, decide_eq_true_eq,
    beq_iff_eq] at h
  rcases h with ⟨hlow, hhigh⟩ | rfl
  · have hlow : 48 ≤ c.toNat := hlow
    have hhigh : c.toNat ≤ 57 := hhigh
    omega
  · decide

theorem toLower_of_isWhitespace {c : Char} (h : isWhitespace c = true) : c.toLower = c := by
  apply Char.toLower_eq_of_not_isUpper
  intro hupper
  simp only [Char.isUpper, decide_eq_true_eq, ge_iff_le, UInt32.le_iff_toNat_le] at hupper
  have hbounds : 65 ≤ c.toNat ∧ c.toNat ≤ 90 := hupper
  have hnone := not_isWhitespace (c := c) (by omega)
  rw [h] at hnone
  cases hnone

theorem unspaced_of_normalizeDns (h : normalizeDns name = .ok host) : Unspaced name := by
  simp only [normalizeDns, bind_unit_eq_ok, ensure_eq_ok] at h
  obtain ⟨-, -, -, hspaces, -⟩ := h
  rw [Unspaced, List.any_eq_false]
  intro c hc hspace
  have hlower : c ∈ (toAsciiLowercase name).toList := by
    rw [toList_toAsciiLowercase, ← toLower_of_isWhitespace hspace]
    exact List.mem_map_of_mem hc
  have hkept : c ∈ (withoutTrailingDot (toAsciiLowercase name)).toList := by
    rcases withoutTrailingDot_cases (toAsciiLowercase name) with heq | heq
    · rwa [← heq]
    · rw [heq, String.toList_append] at hlower
      rcases List.mem_append.mp hlower with hmem | hmem
      · exact hmem
      · rw [List.mem_singleton.mp hmem] at hspace
        exact absurd hspace (by decide)
  exact List.any_eq_false.mp hspaces c hkept hspace

/-- A host is normalized without white space inside it. -/
theorem unspaced_of_normal (h : normalizeHost name = .ok host) (htrim : trim name = name)
    (hbare : Bare name) : Unspaced name := by
  have hlead : stripLead name "[" = none := stripLead_eq_none List.mem_cons_self hbare.2.1
  have hunbracketed := normalizeHost_unbracketed h htrim hlead
  rw [normalizeUnbracketed, bind_unit_eq_ok] at hunbracketed
  obtain ⟨-, hnormal⟩ := hunbracketed
  split at hnormal
  · rename_i addr haddr
    obtain ⟨dotted, -, hread⟩ := parseIpAddr_no_colon haddr hbare.1
    rw [Unspaced, List.any_eq_false]
    intro c hc hspace
    rw [not_isWhitespace_of_dottedChar (readIpv4_chars hread c hc)] at hspace
    cases hspace
  · rw [bind_unit_eq_ok] at hnormal
    exact unspaced_of_normalizeDns hnormal.2

end

/-! ### What is accepted -/

/-- The texts a bracketed authority starts with hold no character but those of addresses. -/
theorem not_mem_literal {literal : String} {addr : Ipv6Addr}
    (h : parseIpAddr literal = some (.v6 addr)) {c : Char} (hc : groupChar c = false) :
    c ∉ literal.toList := by
  intro hmem
  rw [readIpv6_chars (parseIpAddr_v6 h) c hmem] at hc
  cases hc

theorem normalizeBracketed_eq_ok {trimmed literal : String} {host : NormalizedHost} :
    normalizeBracketed trimmed literal = .ok host ↔
      ∃ addr, parseIpAddr literal = some (.v6 addr) ∧ host = .ip (.v6 addr) := by
  rw [normalizeBracketed]
  constructor
  · intro h
    split at h
    · rename_i addr haddr
      cases h
      exact ⟨addr, haddr, rfl⟩
    · cases h
    · cases h
  · rintro ⟨addr, haddr, rfl⟩
    rw [haddr]
    rfl

/-- A port is read as the grammar has it, or after a plus sign. -/
theorem portText_of_ok {text : String} {port : UInt16} (h : parsePort text = .ok port) :
    PortText text port ∨
      ∃ digits, text = "+" ++ digits ∧ ∀ c ∈ digits.toList, c.isDigit = true := by
  rcases hplus : stripLead text "+" with _ | digits
  · exact .inl ((parsePort_eq_ok hplus).mp h)
  · refine .inr ⟨digits, stripLead_eq_some.mp hplus, ?_⟩
    rw [parsePort, parseU16, hplus, Option.getD_some] at h
    split at h
    · cases h
    · rename_i number hnumber
      split at hnumber
      · rename_i value hread
        obtain ⟨read, -, hchars, hdigits⟩ := readNumber_rest hread
        rw [List.append_nil] at hchars
        rw [hchars]
        exact fun c hc => isDigit_of_toDigit (hdigits c hc)
      · cases hnumber
      · cases hnumber

section

variable {trimmed : String} {defaultPort : UInt16} {target : NormalizedTarget}

theorem authorityText_of_bracketed {rest : String} (hrest : trimmed = "[" ++ rest)
    (hsigned : ¬SignedPort trimmed)
    (h : normalizeBracketedAuthority trimmed rest defaultPort = .ok target) :
    AuthorityText Unspaced defaultPort trimmed target := by
  rw [normalizeBracketedAuthority] at h
  split at h
  · cases h
  rename_i literal remainder hsplit
  rw [bind_eq_ok] at h
  obtain ⟨host, hhost, h⟩ := h
  obtain ⟨addr, haddr, rfl⟩ := normalizeBracketed_eq_ok.mp hhost
  have hparts : trimmed = "[" ++ literal ++ "]" ++ remainder := by
    rw [hrest, ← String.toList_inj]
    simp only [String.toList_append, (splitOnce_eq_some hsplit).1, List.append_assoc]
    rfl
  split at h
  · rename_i hempty
    cases h
    rw [hempty, String.append_empty] at hparts
    exact .address hparts haddr
  · split at h
    · rename_i number hnumber
      rw [bind_eq_ok] at h
      obtain ⟨port, hport, h⟩ := h
      cases h
      rw [stripLead_eq_some.mp hnumber] at hparts
      rcases portText_of_ok hport with hnumbered | ⟨digits, rfl, hdigits⟩
      · refine .addressPort ?_ haddr hnumbered
        rw [hparts, String.append_assoc, String.append_assoc, String.append_assoc,
          String.append_assoc]
        rfl
      · refine absurd ⟨"[" ++ literal ++ "]", digits, ?_, hdigits⟩ hsigned
        rw [hparts, String.append_assoc, String.append_assoc, String.append_assoc,
          String.append_assoc]
        rfl
    · cases h

theorem toList_hostPort (name number : String) :
    (name ++ ":" ++ number).toList = name.toList ++ ':' :: number.toList := by
  rw [String.toList_append, String.toList_append, List.append_assoc]
  rfl

theorem unspaced_of_mem {name text : String} (h : Unspaced text)
    (hname : ∀ c ∈ name.toList, c ∈ text.toList) : Unspaced name := by
  rw [Unspaced, List.any_eq_false] at h ⊢
  exact fun c hc => h c (hname c hc)

theorem authorityText_of_plain (htrim : trim trimmed = trimmed)
    (hlead : stripLead trimmed "[" = none) (hsigned : ¬SignedPort trimmed)
    (h : normalizePlainAuthority trimmed defaultPort = .ok target) :
    AuthorityText Unspaced defaultPort trimmed target := by
  rw [normalizePlainAuthority, bind_unit_eq_ok, ensure_eq_ok] at h
  obtain ⟨hspaces, h⟩ := h
  split at h
  · rename_i name number hsplit
    obtain ⟨hparts, hcolon⟩ := rsplitOnce_eq_some hsplit
    rw [bind_unit_eq_ok, ensure_eq_ok, containsChar_eq_false] at h
    obtain ⟨hnone, h⟩ := h
    rw [bind_eq_ok] at h
    obtain ⟨host, hhost, h⟩ := h
    rw [bind_eq_ok] at h
    obtain ⟨port, hport, h⟩ := h
    cases h
    have hwritten : trimmed = name ++ ":" ++ number := by
      rw [← String.toList_inj, toList_hostPort]
      exact hparts
    have hnamed : Unspaced name := by
      apply unspaced_of_mem hspaces
      intro c hc
      rw [hparts]
      exact List.mem_append_left _ hc
    have hname : stripLead name "[" = none := by
      rcases hbracket : stripLead name "[" with _ | rest
      · rfl
      · have hstart : stripLead trimmed "[" = some (rest ++ ":" ++ number) := by
          apply stripLead_eq_some.mpr
          rw [hwritten, stripLead_eq_some.mp hbracket, String.append_assoc, String.append_assoc,
            String.append_assoc]
        rw [hlead] at hstart
        cases hstart
    have hbrackets := no_bracket_of_normal hhost (trim_of_no_whitespace hnamed) hname
    rcases portText_of_ok hport with hnumbered | ⟨digits, rfl, hdigits⟩
    · exact .hostPort hwritten ⟨hnone, hbrackets⟩ hnamed hhost hnumbered
    · refine absurd ⟨name, digits, ?_, hdigits⟩ hsigned
      rw [hwritten, String.append_assoc, String.append_assoc]
      rfl
  · rename_i hsplit
    rw [bind_eq_ok] at h
    obtain ⟨host, hhost, h⟩ := h
    cases h
    exact .host ⟨rsplitOnce_eq_none hsplit, no_bracket_of_normal hhost htrim hlead⟩ hhost

/-- What is accepted without a sign before its port is of one of the forms. -/
theorem authorityText_of_ok {authority : String} (hsigned : ¬SignedPort (trim authority))
    (h : normalizeAuthority authority defaultPort = .ok target) :
    AuthorityText Unspaced defaultPort (trim authority) target := by
  simp only [normalizeAuthority, bind_unit_eq_ok] at h
  obtain ⟨-, -, -, h⟩ := h
  split at h
  · rename_i rest hrest
    exact authorityText_of_bracketed (stripLead_eq_some.mp hrest) hsigned h
  · rename_i hlead
    exact authorityText_of_plain (trim_trim authority) hlead hsigned h

end

/-! ### What is written -/

section

variable {defaultPort : UInt16} {target : NormalizedTarget} {text : String}

/-- None of the characters that an authority is refused for. -/
def Clean (text : String) : Prop :=
  '@' ∉ text.toList ∧ '/' ∉ text.toList ∧ '?' ∉ text.toList ∧ '#' ∉ text.toList

theorem Clean.append {left right : String} (hleft : Clean left) (hright : Clean right) :
    Clean (left ++ right) := by
  obtain ⟨hat, hslash, hquery, hhash⟩ := hleft
  obtain ⟨hat', hslash', hquery', hhash'⟩ := hright
  simp only [Clean, String.toList_append, List.mem_append, not_or]
  exact ⟨⟨hat, hat'⟩, ⟨hslash, hslash'⟩, ⟨hquery, hquery'⟩, hhash, hhash'⟩

theorem PortText.clean {port : UInt16} (h : PortText text port) : Clean text :=
  ⟨h.not_mem rfl, h.not_mem rfl, h.not_mem rfl, h.not_mem rfl⟩

theorem clean_literal {addr : Ipv6Addr} (h : parseIpAddr text = some (.v6 addr)) : Clean text :=
  ⟨not_mem_literal h (by decide), not_mem_literal h (by decide), not_mem_literal h (by decide),
    not_mem_literal h (by decide)⟩

theorem clean_of_normal {host : NormalizedHost} (h : normalizeHost text = .ok host)
    (htrim : trim text = text) : Clean text :=
  (normalizeHost_wellFormed h htrim).2

theorem clean_of_chars {text : String} (h : (text.toList.any fun c =>
    c == '@' || c == '/' || c == '?' || c == '#') = false) : Clean text := by
  have hnot := List.any_eq_false.mp h
  refine ⟨fun hc => ?_, fun hc => ?_, fun hc => ?_, fun hc => ?_⟩
  · exact hnot _ hc rfl
  · exact hnot _ hc rfl
  · exact hnot _ hc rfl
  · exact hnot _ hc rfl

theorem normalizeAuthority_of_clean {authority : String} (hnonempty : trim authority ≠ "")
    (hclean : Clean (trim authority)) : normalizeAuthority authority defaultPort =
      match stripLead (trim authority) "[" with
      | some rest => normalizeBracketedAuthority (trim authority) rest defaultPort
      | none => normalizePlainAuthority (trim authority) defaultPort := by
  obtain ⟨hat, hslash, hquery, hhash⟩ := hclean
  rw [normalizeAuthority, ensure_of_true hnonempty, ok_bind,
    ensure_of_true (containsChar_eq_false.mpr hat), ok_bind,
    ensure_of_true ⟨containsChar_eq_false.mpr hslash, containsChar_eq_false.mpr hquery,
      containsChar_eq_false.mpr hhash⟩]
  rfl

theorem normalizePlainAuthority_host {host : NormalizedHost} (hbare : Bare text)
    (htrim : trim text = text) (hnormal : normalizeHost text = .ok host) :
    normalizePlainAuthority text defaultPort = .ok { host, port := defaultPort } := by
  have hsplit : rsplitOnce text ':' = none := by
    rcases hparts : rsplitOnce text ':' with _ | ⟨name, number⟩
    · rfl
    · have hcolon : ':' ∈ text.toList := by
        rw [(rsplitOnce_eq_some hparts).1]
        exact List.mem_append_right _ List.mem_cons_self
      exact absurd hcolon hbare.1
  have hunspaced : text.toList.any isWhitespace = false := unspaced_of_normal hnormal htrim hbare
  rw [normalizePlainAuthority, ensure_of_true hunspaced, ok_bind, hsplit, hnormal]
  rfl

theorem normalizePlainAuthority_hostPort {name number : String} {host : NormalizedHost}
    {port : UInt16} (hbare : Bare name) (hspaces : Unspaced name)
    (hnormal : normalizeHost name = .ok host) (hnumbered : PortText number port) :
    normalizePlainAuthority (name ++ ":" ++ number) defaultPort = .ok { host, port } := by
  have hsplit : rsplitOnce (name ++ ":" ++ number) ':' = some (name, number) := by
    have hparts := @rsplitOnce_append name.toList number.toList ':' (hnumbered.not_mem rfl)
    rwa [← toList_hostPort, String.ofList_toList, String.ofList_toList,
      String.ofList_toList] at hparts
  have hunspaced : (name ++ ":" ++ number).toList.any isWhitespace = false := by
    rw [toList_hostPort, List.any_append, List.any_cons, hspaces, Bool.false_or,
      Bool.or_eq_false_iff]
    refine ⟨rfl, List.any_eq_false.mpr ?_⟩
    intro c hc
    obtain ⟨hlow, hhigh⟩ := digit_bounds (hnumbered.digits c hc)
    rw [not_isWhitespace (by omega)]
    decide
  rw [normalizePlainAuthority, ensure_of_true hunspaced, ok_bind, hsplit]
  dsimp only
  rw [ensure_of_true (containsChar_eq_false.mpr hbare.1), ok_bind, hnormal, ok_bind,
    hnumbered.parsePort]
  rfl

theorem splitOnce_literal {literal : String} {addr : Ipv6Addr}
    (h : parseIpAddr literal = some (.v6 addr)) (remainder : String) :
    splitOnce (literal ++ "]" ++ remainder) ']' = some (literal, remainder) := by
  have hparts := @splitOnce_append literal.toList remainder.toList ']'
    (not_mem_literal h (by decide))
  have hlist : (literal ++ "]" ++ remainder).toList =
      literal.toList ++ ']' :: remainder.toList := by
    rw [String.toList_append, String.toList_append, List.append_assoc]
    rfl
  rwa [← hlist, String.ofList_toList, String.ofList_toList, String.ofList_toList] at hparts

end

/-- Every text of one of the forms is accepted, for the target it stands for. -/
theorem normalizeAuthority_of_text {authority : String} {defaultPort : UInt16}
    {target : NormalizedTarget}
    (h : AuthorityText Unspaced defaultPort (trim authority) target) :
    normalizeAuthority authority defaultPort = .ok target := by
  have htrim := trim_trim authority
  generalize htext : trim authority = text at h htrim
  have hclean : text ≠ "" → Clean text → normalizeAuthority authority defaultPort =
      match stripLead text "[" with
      | some rest => normalizeBracketedAuthority text rest defaultPort
      | none => normalizePlainAuthority text defaultPort := by
    rw [← htext]
    exact normalizeAuthority_of_clean
  cases h with
  | host hbare hnormal =>
      rw [hclean (normalizeHost_wellFormed hnormal htrim).1 (clean_of_normal hnormal htrim),
        stripLead_eq_none List.mem_cons_self hbare.2.1]
      exact normalizePlainAuthority_host hbare htrim hnormal
  | @hostPort name number host port hwritten hbare hspelled hnormal hnumbered =>
      have hname := clean_of_normal hnormal (trim_of_no_whitespace hspelled)
      have hbracket : '[' ∉ text.toList := by
        rw [hwritten, toList_hostPort, List.mem_append, List.mem_cons]
        rintro (hmem | hmem | hmem)
        · exact hbare.2.1 hmem
        · exact absurd hmem (by decide)
        · exact hnumbered.not_mem rfl hmem
      have hnonempty : text ≠ "" := by
        rw [hwritten, Ne, ← String.toList_inj, toList_hostPort]
        simp
      have hcolon : Clean ":" := clean_of_chars rfl
      rw [hclean hnonempty (by rw [hwritten]; exact (hname.append hcolon).append hnumbered.clean),
        stripLead_eq_none List.mem_cons_self hbracket, hwritten]
      exact normalizePlainAuthority_hostPort hbare hspelled hnormal hnumbered
  | @address literal addr hwritten hread =>
      have hstart : stripLead text "[" = some (literal ++ "]" ++ "") := by
        apply stripLead_eq_some.mpr
        rw [hwritten, String.append_empty, String.append_assoc]
      have hnonempty : text ≠ "" := by
        rw [hwritten, Ne, ← String.toList_inj]
        simp [String.toList_append]
      have hbrackets : Clean "[" ∧ Clean "]" := ⟨clean_of_chars rfl, clean_of_chars rfl⟩
      rw [hclean hnonempty (by
        rw [hwritten]
        exact (hbrackets.1.append (clean_literal hread)).append hbrackets.2), hstart]
      dsimp only
      rw [normalizeBracketedAuthority, splitOnce_literal hread]
      dsimp only
      rw [normalizeBracketed_eq_ok.mpr ⟨addr, hread, rfl⟩, ok_bind, if_pos rfl]
      rfl
  | @addressPort literal number addr port hwritten hread hnumbered =>
      have hsuffix : text = "[" ++ (literal ++ "]" ++ (":" ++ number)) := by
        rw [hwritten, String.append_assoc, String.append_assoc, String.append_assoc]
        rfl
      have hstart : stripLead text "[" = some (literal ++ "]" ++ (":" ++ number)) :=
        stripLead_eq_some.mpr hsuffix
      have hnonempty : text ≠ "" := by
        rw [hsuffix, Ne, ← String.toList_inj]
        simp [String.toList_append]
      have hopen : Clean "[" := clean_of_chars rfl
      have hclose : Clean "]" := clean_of_chars rfl
      have hcolon : Clean ":" := clean_of_chars rfl
      have hremainder : ":" ++ number ≠ "" := by
        rw [Ne, ← String.toList_inj]
        simp [String.toList_append]
      rw [hclean hnonempty (by
        rw [hsuffix]
        exact hopen.append (((clean_literal hread).append hclose).append
          (hcolon.append hnumbered.clean))), hstart]
      dsimp only
      rw [normalizeBracketedAuthority, splitOnce_literal hread]
      dsimp only
      rw [normalizeBracketed_eq_ok.mpr ⟨addr, hread, rfl⟩, ok_bind, if_neg hremainder,
        stripLead_eq_some.mpr rfl]
      dsimp only
      rw [hnumbered.parsePort]
      rfl

/-- Unless a sign stands before the port, the authorities that are accepted are exactly those
of the grammar, and each for the target that the grammar gives it. -/
theorem normalizeAuthority_eq_ok_iff {authority : String} {defaultPort : UInt16}
    {target : NormalizedTarget} (hsigned : ¬SignedPort (trim authority)) :
    normalizeAuthority authority defaultPort = .ok target ↔
      AuthorityText Unspaced defaultPort (trim authority) target := by
  constructor
  · exact authorityText_of_ok hsigned
  · exact normalizeAuthority_of_text

theorem not_signedPort_of_not_mem {text : String} (h : '+' ∉ text.toList) : ¬SignedPort text := by
  rintro ⟨lead, digits, rfl, -⟩
  apply h
  rw [String.toList_append, String.toList_append]
  apply List.mem_append_left
  apply List.mem_append_right
  exact List.mem_cons_of_mem _ List.mem_cons_self

theorem name_with_port :
    normalizeAuthority " a.test:0443 " 80 = .ok { host := .dns "a.test", port := 443 } ↔
      AuthorityText Unspaced 80 (trim " a.test:0443 ") { host := .dns "a.test", port := 443 } :=
  normalizeAuthority_eq_ok_iff (not_signedPort_of_not_mem (by decide))

/-- White space before the colon is refused, though the host is normalized without it. -/
theorem spaced_host_refused :
    ¬∀ (authority : String) (defaultPort : UInt16) (target : NormalizedTarget),
      normalizeAuthority authority defaultPort = .ok target ↔
        AuthorityText (fun _ => True) defaultPort (trim authority) target := by
  intro h
  have hbare : Bare "a " := ⟨by decide, by decide, by decide⟩
  have hdigits : "80".toList.all Char.isDigit = true := rfl
  have hnumbered : PortText "80" 80 := ⟨by decide, List.all_eq_true.mp hdigits, rfl, by decide⟩
  have haccepted := (h "a :80" 443 { host := .dns "a", port := 80 }).mpr
    (@AuthorityText.hostPort _ _ _ "a " "80" _ _ (by decide) hbare trivial (by decide) hnumbered)
  exact absurd haccepted (by decide)

example : normalizeAuthority "a:+80" 443 = .ok { host := .dns "a", port := 80 } := by
  decide

end EggReplay.Intercept.AuthorityGrammar
