import EggReplay.Library.Checks
import EggReplay.Library.IpText

/-!
Hosts of the intercepting proxy: how a host is normalized before it is matched and dialed,
and the host patterns that it is matched against.
-/

namespace EggReplay.Intercept.Hosts

open EggReplay.Library.Checks
open EggReplay.Library.Text
open EggReplay.Library.IpText

def maxHostPatternLen : Nat := 253
def diagnosticPreviewLen : Nat := 64

inductive PolicyError where
  | invalidHost (message : String)
  | invalidPort (message : String)
  | invalidRule (message : String)
  | tooManyRules (count : Nat)
  deriving DecidableEq, Repr

def preview (input : String) : String :=
  String.ofList (input.toList.take diagnosticPreviewLen) ++
    if diagnosticPreviewLen < input.toList.length then "..." else ""

inductive NormalizedHost where
  | dns (name : String)
  | ip (addr : IpAddr)
  deriving DecidableEq, Repr

/-- What is dialed. -/
def NormalizedHost.asStr : NormalizedHost → String
  | .dns name => name
  | .ip addr => addr.text

/-! ### Normalization -/

def checkLabel (input label : String) : Except PolicyError Unit := do
  ensure (label ≠ "" ∧ label.utf8ByteSize ≤ 63)
    (.invalidHost ("invalid DNS label: " ++ preview input))
  ensure (label.toList.head? ≠ some '-' ∧ label.toList.getLast? ≠ some '-')
    (.invalidHost ("invalid DNS label: " ++ preview input))
  ensure (label.toList.all (fun c => c.isAlphanum || c == '-') = true)
    (.invalidHost ("invalid DNS characters: " ++ preview input))

def withoutTrailingDot (name : String) : String := (stripTail name ".").getD name

def normalizeDns (input : String) : Except PolicyError NormalizedHost := do
  ensure (isAscii input = true) (.invalidHost "non-ASCII names are rejected")
  let withoutDot := withoutTrailingDot (toAsciiLowercase input)
  ensure (withoutDot ≠ "") (.invalidHost "empty host")
  ensure (withoutDot.utf8ByteSize ≤ maxHostPatternLen)
    (.invalidHost ("host too long: " ++ preview input))
  ensure (withoutDot.toList.any isWhitespace = false)
    (.invalidHost ("host contains whitespace: " ++ preview input))
  checkAll (checkLabel input) (split withoutDot '.')
  pure (.dns withoutDot)

def bracketed (text : String) : Option String :=
  (stripLead text "[").bind fun rest => stripTail rest "]"

def normalizeUnbracketed (trimmed : String) : Except PolicyError NormalizedHost := do
  ensure (containsChar trimmed '[' = false ∧ containsChar trimmed ']' = false)
    (.invalidHost ("unbalanced brackets: " ++ preview trimmed))
  match parseIpAddr trimmed with
  | some addr => pure (.ip addr)
  | none => do
      ensure (containsChar trimmed ':' = false)
        (.invalidHost ("invalid host: " ++ preview trimmed))
      normalizeDns trimmed

def normalizeBracketed (trimmed stripped : String) : Except PolicyError NormalizedHost :=
  match parseIpAddr stripped with
  | some (.v6 addr) => pure (.ip (.v6 addr))
  | some (.v4 _) | none =>
      .error (.invalidHost ("invalid bracketed host: " ++ preview trimmed))

def normalizeHost (input : String) : Except PolicyError NormalizedHost := do
  let trimmed := trim input
  ensure (trimmed ≠ "") (.invalidHost "empty host")
  ensure (trimmed.utf8ByteSize ≤ maxHostPatternLen + 2)
    (.invalidHost ("host too long: " ++ preview trimmed))
  ensure (containsChar trimmed '@' = false) (.invalidHost "host must not contain userinfo")
  ensure (containsChar trimmed '/' = false ∧ containsChar trimmed '?' = false ∧
      containsChar trimmed '#' = false)
    (.invalidHost ("host contains path syntax: " ++ preview trimmed))
  match bracketed trimmed with
  | some stripped => normalizeBracketed trimmed stripped
  | none => normalizeUnbracketed trimmed

/-! ### Host patterns -/

inductive HostMatch where
  | exactDns (pattern : String)
  | suffixDns (parent : String)
  | exactIp (pattern : IpAddr)
  deriving DecidableEq, Repr

def HostMatch.exactDnsFrom (input : String) : Except PolicyError HostMatch := do
  match ← normalizeHost input with
  | .dns name => pure (.exactDns name)
  | .ip _ => throw (.invalidHost "exact DNS pattern must not be an IP literal")

def HostMatch.suffixDnsFrom (input : String) : Except PolicyError HostMatch := do
  let trimmed := trim input
  let parent := ((stripLead trimmed "*.").orElse fun _ => stripLead trimmed ".").getD trimmed
  ensure (parent.utf8ByteSize ≤ maxHostPatternLen)
    (.invalidHost ("suffix too long: " ++ preview input))
  match ← normalizeHost parent with
  | .dns name => pure (.suffixDns name)
  | .ip _ => throw (.invalidHost "DNS suffix must not be an IP literal")

def HostMatch.matches : HostMatch → NormalizedHost → Bool
  | .exactDns pattern, .dns name => decide (pattern = name)
  | .suffixDns parent, .dns name => decide (name = parent) || endsWith name ("." ++ parent)
  | .exactIp pattern, .ip addr => decide (pattern = addr)
  | .exactDns _, .ip _ | .suffixDns _, .ip _ | .exactIp _, .dns _ => false

/-- An exact IP literal counts most, then an exact name, then the longer suffix. -/
def HostMatch.specificity : HostMatch → Nat
  | .exactIp _ => 3000
  | .exactDns _ => 2000
  | .suffixDns parent => 1000 + min parent.utf8ByteSize 253

/-! ### Texts without white space at their ends -/

theorem trim_of_no_whitespace {s : String} (h : s.toList.any isWhitespace = false) :
    trim s = s := by
  have hkept : ∀ chars : List Char, chars.any isWhitespace = false →
      chars.dropWhile isWhitespace = chars := by
    intro chars hchars
    rcases chars with _ | ⟨c, rest⟩
    · rfl
    · rw [List.any_cons, Bool.or_eq_false_iff] at hchars
      rw [List.dropWhile_cons, if_neg (by simp [hchars.1])]
  rw [trim, hkept _ h, hkept, List.reverse_reverse, String.ofList_toList]
  rwa [List.any_reverse]

theorem containsChar_eq_false {s : String} {c : Char} :
    containsChar s c = false ↔ c ∉ s.toList := by
  rw [containsChar, Bool.eq_false_iff, Ne, List.contains_iff_mem]

/-! ### Names -/

/-- A name that normalization gives out: lowercase labels between dots. -/
structure DnsName (name : String) : Prop where
  lower : toAsciiLowercase name = name
  nonempty : name ≠ ""
  size : name.utf8ByteSize ≤ maxHostPatternLen
  labels : ∀ input, ∀ label ∈ split name '.', checkLabel input label = .ok ()

theorem checkLabel_eq_ok {input label : String} :
    checkLabel input label = .ok () ↔ (label ≠ "" ∧ label.utf8ByteSize ≤ 63) ∧
      (label.toList.head? ≠ some '-' ∧ label.toList.getLast? ≠ some '-') ∧
      label.toList.all (fun c => c.isAlphanum || c == '-') = true := by
  simp only [checkLabel, bind_unit_eq_ok, ensure_eq_ok]

/-- A character of a name. -/
def nameChar (c : Char) : Bool := c.isAlphanum || c == '-' || c == '.'

theorem DnsName.chars {name : String} (h : DnsName name) :
    ∀ c ∈ name.toList, nameChar c = true := by
  intro c hc
  rcases @mem_splitChars '.' c name.toList hc with rfl | ⟨piece, hpiece, hmem⟩
  · rfl
  · have hlabel := checkLabel_eq_ok.mp
      (h.labels "" (String.ofList piece) (List.mem_map_of_mem hpiece))
    rw [String.toList_ofList, List.all_eq_true] at hlabel
    have hchar := hlabel.2.2 c hmem
    rw [nameChar, hchar, Bool.true_or]

theorem DnsName.not_mem {name : String} (h : DnsName name) {c : Char}
    (hc : nameChar c = false) : c ∉ name.toList := by
  intro hmem
  rw [h.chars c hmem] at hc
  cases hc

/-- Letters, digits and the separators of names and addresses lie above the blank. -/
theorem graphic_of_nameChar {c : Char} (h : nameChar c = true) :
    32 < c.toNat ∧ c.toNat < 127 := by
  simp only [nameChar, Bool.or_eq_true, beq_iff_eq, Char.isAlphanum, Char.isAlpha,
    Char.isUpper, Char.isLower, Char.isDigit, Bool.and_eq_true, decide_eq_true_eq, ge_iff_le,
    UInt32.le_iff_toNat_le] at h
  change ((((65 ≤ c.toNat ∧ c.toNat ≤ 90) ∨ (97 ≤ c.toNat ∧ c.toNat ≤ 122)) ∨
    (48 ≤ c.toNat ∧ c.toNat ≤ 57)) ∨ c = '-') ∨ c = '.' at h
  rcases h with (((h | h) | h) | rfl) | rfl
  · omega
  · omega
  · omega
  · decide
  · decide

theorem graphic_of_addressChar {c : Char} (h : addressChar c = true) :
    32 < c.toNat ∧ c.toNat < 127 := by
  simp only [addressChar, Bool.or_eq_true, beq_iff_eq, Bool.and_eq_true, decide_eq_true_eq,
    Char.le_def, UInt32.le_iff_toNat_le] at h
  change (((48 ≤ c.toNat ∧ c.toNat ≤ 57) ∨ (97 ≤ c.toNat ∧ c.toNat ≤ 102)) ∨ c = ':') ∨
    c = '.' at h
  rcases h with ((h | h) | rfl) | rfl
  · omega
  · omega
  · decide
  · decide

theorem not_isWhitespace {c : Char} (h : 32 < c.toNat ∧ c.toNat < 127) :
    isWhitespace c = false := by
  simp only [isWhitespace, Bool.or_eq_false_iff, Bool.and_eq_false_iff, decide_eq_false_iff_not,
    beq_eq_false_iff_ne]
  omega

/-- A text of graphic ASCII characters is normalized as it stands. -/
theorem graphic_text {s : String} (h : ∀ c ∈ s.toList, 32 < c.toNat ∧ c.toNat < 127) :
    isAscii s = true ∧ s.toList.any isWhitespace = false ∧ trim s = s := by
  have hspace : s.toList.any isWhitespace = false := by
    rw [List.any_eq_false]
    intro c hc
    rw [not_isWhitespace (h c hc)]
    decide
  refine ⟨?_, hspace, trim_of_no_whitespace hspace⟩
  rw [isAscii, List.all_eq_true]
  intro c hc
  have hbounds := h c hc
  exact decide_eq_true (by omega)

theorem stripTail_dot_of_labels {name : String}
    (h : ∀ label ∈ split name '.', label ≠ "") : stripTail name "." = none := by
  rw [stripTail_eq_none]
  rintro lead rfl
  apply h "" _ rfl
  have hlist : (lead ++ ".").toList = lead.toList ++ '.' :: [] := by
    rw [String.toList_append]
    rfl
  rw [split, hlist, splitChars_append, List.map_append]
  exact List.mem_append_right _ (List.mem_singleton.mpr rfl)

theorem DnsName.normalizeDns {name : String} (h : DnsName name) :
    normalizeDns name = .ok (.dns name) := by
  have hgraphic := graphic_text fun c hc => graphic_of_nameChar (h.chars c hc)
  have hdot : withoutTrailingDot (toAsciiLowercase name) = name := by
    rw [h.lower, withoutTrailingDot, stripTail_dot_of_labels fun label hlabel =>
      (checkLabel_eq_ok.mp (h.labels "" label hlabel)).1.1]
    rfl
  simp only [Hosts.normalizeDns, bind_unit_eq_ok, ensure_eq_ok, pure_eq_ok, hdot, checkAll_eq_ok,
    and_true]
  exact ⟨hgraphic.1, h.nonempty, h.size, hgraphic.2.1, fun label => h.labels name label⟩

/-- A name is its own normal form unless it reads as an address. -/
theorem DnsName.normalizeHost {name : String} (h : DnsName name)
    (haddress : parseIpAddr name = none) : normalizeHost name = .ok (.dns name) := by
  have htrim := (graphic_text fun c hc => graphic_of_nameChar (h.chars c hc)).2.2
  have hbracketed : bracketed name = none := by
    rw [bracketed]
    rcases hlead : stripLead name "[" with _ | rest
    · rfl
    · have hmem : '[' ∈ name.toList := by
        rw [stripLead_eq_some.mp hlead, String.toList_append]
        exact List.mem_cons_self
      exact absurd hmem (h.not_mem rfl)
  have hunbracketed : normalizeUnbracketed name = .ok (.dns name) := by
    rw [normalizeUnbracketed, haddress]
    simp only [bind_unit_eq_ok, ensure_eq_ok, containsChar_eq_false]
    exact ⟨⟨h.not_mem rfl, h.not_mem rfl⟩, h.not_mem rfl, h.normalizeDns⟩
  have hsize : name.utf8ByteSize ≤ maxHostPatternLen + 2 := h.size.trans (by decide)
  rw [Hosts.normalizeHost, htrim, hbracketed]
  simp only [bind_unit_eq_ok, ensure_eq_ok, containsChar_eq_false]
  exact ⟨h.nonempty, hsize, h.not_mem rfl, ⟨h.not_mem rfl, h.not_mem rfl, h.not_mem rfl⟩,
    hunbracketed⟩

/-- An address is its own normal form. -/
theorem normalizeHost_text (addr : IpAddr) : normalizeHost addr.text = .ok (.ip addr) := by
  obtain ⟨hchars, hlength⟩ := ip_text_bounds addr
  obtain ⟨hascii, -, htrim⟩ := graphic_text fun c hc => graphic_of_addressChar (hchars c hc)
  have hnot : ∀ c, addressChar c = false → c ∉ addr.text.toList := by
    intro c hc hmem
    rw [hchars c hmem] at hc
    cases hc
  have hbracketed : bracketed addr.text = none := by
    rw [bracketed]
    rcases hlead : stripLead addr.text "[" with _ | rest
    · rfl
    · have hmem : '[' ∈ addr.text.toList := by
        rw [stripLead_eq_some.mp hlead, String.toList_append]
        exact List.mem_cons_self
      exact absurd hmem (hnot _ rfl)
  have hparse := parseIpAddr_text addr
  have hunbracketed : normalizeUnbracketed addr.text = .ok (.ip addr) := by
    rw [normalizeUnbracketed, hparse]
    simp only [bind_unit_eq_ok, ensure_eq_ok, containsChar_eq_false, pure_eq_ok, and_true]
    exact ⟨hnot _ rfl, hnot _ rfl⟩
  have hnonempty : addr.text ≠ "" := by
    intro hempty
    rw [hempty] at hparse
    cases hparse
  have hsize : addr.text.utf8ByteSize ≤ maxHostPatternLen + 2 := by
    rw [utf8ByteSize_of_isAscii hascii]
    exact hlength.trans (by decide)
  rw [normalizeHost, htrim, hbracketed]
  simp only [bind_unit_eq_ok, ensure_eq_ok, containsChar_eq_false]
  exact ⟨hnonempty, hsize, hnot _ rfl, ⟨hnot _ rfl, hnot _ rfl, hnot _ rfl⟩, hunbracketed⟩

/-! ### What is accepted -/

theorem withoutTrailingDot_cases (s : String) :
    s = withoutTrailingDot s ∨ s = withoutTrailingDot s ++ "." := by
  rw [withoutTrailingDot]
  rcases hdot : stripTail s "." with _ | lead
  · exact .inl rfl
  · exact .inr (stripTail_eq_some.mp hdot)

theorem toAsciiLowercase_lead {s lead : String} (h : toAsciiLowercase s = s)
    (hlead : lead.toList <+: s.toList) : toAsciiLowercase lead = lead := by
  have hmap : s.toList.map Char.toLower = s.toList := by
    rw [← toList_toAsciiLowercase, h]
  obtain ⟨rest, hrest⟩ := hlead
  rw [← hrest, List.map_append] at hmap
  rw [← String.toList_inj, toList_toAsciiLowercase]
  exact List.append_inj_left hmap (List.length_map _)

theorem normalizeDns_eq_ok {input : String} {host : NormalizedHost}
    (h : normalizeDns input = .ok host) :
    ∃ name, host = .dns name ∧ name = withoutTrailingDot (toAsciiLowercase input) ∧
      DnsName name := by
  simp only [normalizeDns, bind_unit_eq_ok, ensure_eq_ok, pure_eq_ok, checkAll_eq_ok] at h
  obtain ⟨-, hnonempty, hsize, -, hlabels, rfl⟩ := h
  refine ⟨_, rfl, rfl, ?_, hnonempty, hsize, ?_⟩
  · apply @toAsciiLowercase_lead (toAsciiLowercase input) _ (toAsciiLowercase_idem input)
    rcases withoutTrailingDot_cases (toAsciiLowercase input) with heq | heq
    · rw [← heq]
    · rw [congrArg String.toList heq, String.toList_append]
      exact List.prefix_append _ _
  · intro other label hlabel
    exact checkLabel_eq_ok.mpr (checkLabel_eq_ok.mp (hlabels label hlabel))

/-- The two ways to be accepted. -/
inductive Accepted (trimmed : String) : NormalizedHost → Prop
  | address {addr : IpAddr} (read : parseIpAddr trimmed = some addr ∨ '[' ∈ trimmed.toList) :
      Accepted trimmed (.ip addr)
  | name {name : String} (unread : parseIpAddr trimmed = none)
      (lower : name = withoutTrailingDot (toAsciiLowercase trimmed)) (named : DnsName name) :
      Accepted trimmed (.dns name)

theorem normalizeHost_accepted {input : String} {host : NormalizedHost}
    (h : normalizeHost input = .ok host) : Accepted (trim input) host := by
  simp only [normalizeHost, bind_unit_eq_ok] at h
  obtain ⟨-, -, -, -, h⟩ := h
  split at h
  · rename_i stripped hstripped
    have hbracket : '[' ∈ (trim input).toList := by
      rw [bracketed, Option.bind_eq_some_iff] at hstripped
      obtain ⟨rest, hrest, -⟩ := hstripped
      rw [stripLead_eq_some.mp hrest, String.toList_append]
      exact List.mem_cons_self
    rw [normalizeBracketed] at h
    split at h
    · cases h
      exact .address (.inr hbracket)
    · cases h
    · cases h
  · rw [normalizeUnbracketed, bind_unit_eq_ok] at h
    obtain ⟨-, h⟩ := h
    split at h
    · rename_i hread
      cases h
      exact .address (.inl hread)
    · rename_i hunread
      rw [bind_unit_eq_ok] at h
      obtain ⟨name, rfl, hlower, hnamed⟩ := normalizeDns_eq_ok h.2
      exact .name hunread hlower hnamed

/-! ### Canonical hosts -/

/-- A host that is its own normal form, whose name is no address, and that the rule for the
address that is dialed matches. -/
structure Canonical (host : NormalizedHost) : Prop where
  fixed : normalizeHost host.asStr = .ok host
  named : ∀ name, host = .dns name → parseIpAddr name = none
  matched : ∀ addr, parseIpAddr host.asStr = some addr →
    (HostMatch.exactIp addr).matches host = true

/-- An IPv4 address with a dot at its end. -/
def DottedAddress (input : String) : Prop :=
  ∃ text dotted, trim input = text ++ "." ∧ parseIpAddr text = some (.v4 dotted)

theorem isAlpha_of_dottedChar {c : Char} (h : dottedChar c = true) : c.isAlpha = false := by
  simp only [dottedChar, Bool.or_eq_true, Bool.and_eq_true, decide_eq_true_eq, beq_iff_eq,
    Char.le_def, UInt32.le_iff_toNat_le] at h
  change (48 ≤ c.toNat ∧ c.toNat ≤ 57) ∨ c = '.' at h
  rw [Bool.eq_false_iff]
  simp only [Char.isAlpha, Char.isUpper, Char.isLower, Bool.or_eq_true, Bool.and_eq_true,
    decide_eq_true_eq, ge_iff_le, UInt32.le_iff_toNat_le, Ne]
  change ¬((65 ≤ c.toNat ∧ c.toNat ≤ 90) ∨ 97 ≤ c.toNat ∧ c.toNat ≤ 122)
  rcases h with h | rfl
  · omega
  · decide

theorem toLower_of_dottedChar {c : Char} (h : dottedChar c.toLower = true) : c.toLower = c := by
  have halpha := isAlpha_of_dottedChar h
  rw [Char.isAlpha_toLower_eq_isAlpha, Char.isAlpha, Bool.or_eq_false_iff] at halpha
  apply Char.toLower_eq_of_not_isUpper
  rw [halpha.1]
  decide

theorem toAsciiLowercase_of_dotted {s : String}
    (h : ∀ c ∈ (toAsciiLowercase s).toList, dottedChar c = true) : toAsciiLowercase s = s := by
  rw [toList_toAsciiLowercase] at h
  rw [← String.toList_inj, toList_toAsciiLowercase]
  apply (List.map_congr_left fun c hc => toLower_of_dottedChar (h _ (List.mem_map_of_mem hc))).trans
  exact List.map_id _

theorem parseIpAddr_v4 {text : String} {dotted : Ipv4Addr}
    (h : parseIpAddr text = some (.v4 dotted)) : readIpv4 text.toList = some (dotted, []) := by
  rw [parseIpAddr] at h
  split at h
  · rename_i addr rest hread
    split at h
    · rename_i hrest
      cases h
      rwa [hrest] at hread
    · cases h
  · split at h
    · split at h
      · cases h
      · cases h
    · cases h

/-- A name that reads as an address was written as one, with a dot at its end. -/
theorem dottedAddress_of_name {trimmed name : String} {addr : IpAddr}
    (hunread : parseIpAddr trimmed = none)
    (hlower : name = withoutTrailingDot (toAsciiLowercase trimmed)) (hnamed : DnsName name)
    (haddr : parseIpAddr name = some addr) :
    ∃ dotted, trimmed = name ++ "." ∧ parseIpAddr name = some (.v4 dotted) := by
  obtain ⟨dotted, rfl, hread⟩ := parseIpAddr_no_colon haddr (hnamed.not_mem rfl)
  have hchars := readIpv4_chars hread
  refine ⟨dotted, ?_, haddr⟩
  rcases withoutTrailingDot_cases (toAsciiLowercase trimmed) with heq | heq
  · rw [← hlower] at heq
    have hsame : toAsciiLowercase trimmed = trimmed :=
      toAsciiLowercase_of_dotted (by rwa [heq])
    rw [← heq, hsame, hunread] at haddr
    cases haddr
  · rw [← hlower] at heq
    have hsame : toAsciiLowercase trimmed = trimmed := by
      apply toAsciiLowercase_of_dotted
      rw [heq, String.toList_append]
      intro c hc
      rcases List.mem_append.mp hc with hc | hc
      · exact hchars c hc
      · rw [List.mem_singleton.mp hc]
        rfl
    exact hsame.symm.trans heq

/-- An address with a dot at its end is taken for the name that the address is. -/
theorem name_of_dottedAddress {trimmed text : String} {dotted : Ipv4Addr}
    (htrimmed : trimmed = text ++ ".") (htext : parseIpAddr text = some (.v4 dotted)) :
    parseIpAddr trimmed = none ∧ withoutTrailingDot (toAsciiLowercase trimmed) = text := by
  have hread := parseIpAddr_v4 htext
  have hchars : ∀ c ∈ trimmed.toList, dottedChar c = true := by
    rw [htrimmed, String.toList_append]
    intro c hc
    rcases List.mem_append.mp hc with hc | hc
    · exact readIpv4_chars hread c hc
    · rw [List.mem_singleton.mp hc]
      rfl
  refine ⟨?_, ?_⟩
  · have hlonger := readIpv4_append (stops_of_cons (by decide) : Stops 10 ['.']) hread
    rw [List.nil_append] at hlonger
    have hlist : trimmed.toList = text.toList ++ ['.'] := by
      rw [htrimmed, String.toList_append]
      rfl
    rw [parseIpAddr, hlist, hlonger]
    rfl
  · have hlower : toAsciiLowercase trimmed = trimmed := by
      apply toAsciiLowercase_of_dotted
      rw [toList_toAsciiLowercase]
      intro c hc
      obtain ⟨written, hwritten, rfl⟩ := List.mem_map.mp hc
      have hdotted := hchars written hwritten
      have halpha := isAlpha_of_dottedChar hdotted
      rw [Char.isAlpha, Bool.or_eq_false_iff] at halpha
      rw [Char.toLower_eq_of_not_isUpper (by rw [halpha.1]; decide)]
      exact hdotted
    rw [hlower, withoutTrailingDot, stripTail_eq_some.mpr htrimmed]
    rfl

/-- An accepted host is canonical unless it was written as an IPv4 address with a dot at its
end, which is taken for a name after addresses were looked for. -/
theorem normalizeHost_canonical_iff {input : String} {host : NormalizedHost}
    (h : normalizeHost input = .ok host) : Canonical host ↔ ¬DottedAddress input := by
  constructor
  · rintro hcanonical ⟨text, dotted, htrimmed, htext⟩
    obtain ⟨hunread, hlower⟩ := name_of_dottedAddress htrimmed htext
    cases normalizeHost_accepted h with
    | address hread =>
        rcases hread with hread | hbracket
        · cases hunread.symm.trans hread
        · have hchars := readIpv4_chars (parseIpAddr_v4 htext)
          rw [htrimmed, String.toList_append] at hbracket
          rcases List.mem_append.mp hbracket with hmem | hmem
          · exact absurd (hchars _ hmem) (by decide)
          · exact absurd (List.mem_singleton.mp hmem) (by decide)
    | name _ hname _ =>
        have hnone := hcanonical.named _ rfl
        rw [hname, hlower, htext] at hnone
        cases hnone
  · intro hdotted
    cases normalizeHost_accepted h with
    | @address addr _ =>
        refine ⟨normalizeHost_text addr, fun name hname => (by cases hname), ?_⟩
        intro other hother
        rw [NormalizedHost.asStr, parseIpAddr_text] at hother
        exact decide_eq_true (Option.some.inj hother).symm
    | @name name hunread hlower hnamed =>
        have hnone : parseIpAddr name = none := by
          rcases haddr : parseIpAddr name with _ | addr
          · rfl
          · obtain ⟨dotted, htrimmed, hv4⟩ :=
              dottedAddress_of_name hunread hlower hnamed haddr
            exact absurd ⟨name, dotted, htrimmed, hv4⟩ hdotted
        refine ⟨hnamed.normalizeHost hnone, ?_, ?_⟩
        · rintro other hother
          cases hother
          exact hnone
        · intro addr haddr
          rw [NormalizedHost.asStr, hnone] at haddr
          cases haddr

theorem upperCase_name_canonical :
    Canonical (.dns "example.test") ↔ ¬DottedAddress "Example.TEST." :=
  normalizeHost_canonical_iff (by decide)

/-- The rule for the address of the loopback does not match its spelling with a dot. -/
theorem dotted_loopback_not_canonical :
    ¬∀ (input : String) (host : NormalizedHost), normalizeHost input = .ok host →
      Canonical host := by
  intro h
  have hcanonical := h "127.0.0.1." (.dns "127.0.0.1") (by decide)
  have hmatched := hcanonical.matched (.v4 ⟨127, 0, 0, 1⟩) (by decide)
  cases hmatched

end EggReplay.Intercept.Hosts
