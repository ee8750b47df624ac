import EggReplay.Intercept.ExplicitProxy

/-!
The authority that an intercepting proxy writes for a target, and what normalizing it gives
back.
-/

namespace EggReplay.Intercept.CanonicalAuthorities

open EggReplay.Intercept.Authorities
open EggReplay.Intercept.ExplicitProxy
open EggReplay.Intercept.Hosts
open EggReplay.Library.Checks
open EggReplay.Library.IpText
open EggReplay.Library.Text

/-! ### Ports -/

theorem toDigits_eq_numberText (n : Nat) : Nat.toDigits 10 n = numberText 10 n := by
  induction n using Nat.strongRecOn with
  | ind n ih =>
      rcases Nat.lt_or_ge n 10 with hlt | hge
      · rw [Nat.toDigits_of_lt_base hlt]
        interval_cases n <;> rfl
      · rw [Nat.toDigits_of_base_le (by decide) hge, ih (n / 10) (by omega)]
        have hquotient : n / 10 ≠ 0 := by omega
        have hn : n ≠ 0 := by omega
        have hdigits : Nat.digits 10 n = n % 10 :: Nat.digits 10 (n / 10) :=
          Nat.digits_def' (by decide) (by omega)
        rw [numberText, numberText, digitsOf, digitsOf, if_neg hquotient, if_neg hn, hdigits,
          List.reverse_cons, List.map_append]
        rfl

theorem digit_bounds {c : Char} (h : c.isDigit = true) : 48 ≤ c.toNat ∧ c.toNat ≤ 57 := by
  simp only [Char.isDigit, Bool.and_eq_true, decide_eq_true_eq, ge_iff_le,
    UInt32.le_iff_toNat_le] at h
  exact h

theorem repr_digits (n : Nat) : ∀ c ∈ (Nat.repr n).toList, 48 ≤ c.toNat ∧ c.toNat ≤ 57 := by
  intro c hc
  rw [Nat.toList_repr] at hc
  exact digit_bounds (Nat.isDigit_of_mem_toDigits (by decide) (by decide) hc)

theorem not_mem_repr {n : Nat} {c : Char} (h : ¬(48 ≤ c.toNat ∧ c.toNat ≤ 57)) :
    c ∉ (Nat.repr n).toList :=
  fun hmem => h (repr_digits n c hmem)

theorem parseU16_repr (port : UInt16) : parseU16 (Nat.repr port.toNat) = some port := by
  have hplus : stripLead (Nat.repr port.toNat) "+" = none := by
    rcases hlead : stripLead (Nat.repr port.toNat) "+" with _ | rest
    · rfl
    · have hmem : '+' ∈ (Nat.repr port.toNat).toList := by
        rw [stripLead_eq_some.mp hlead, String.toList_append]
        exact List.mem_cons_self
      exact absurd hmem (not_mem_repr (by decide))
  have hread : readNumber 10 (Nat.repr port.toNat).toList.length (2 ^ 16) true
      (Nat.repr port.toNat).toList = some (port.toNat, []) := by
    rw [Nat.toList_repr, toDigits_eq_numberText]
    have hpos : 0 < (numberText 10 port.toNat).length := by
      rw [← toDigits_eq_numberText]
      exact Nat.length_toDigits_pos
    have hlength : port.toNat < 10 ^ (numberText 10 port.toNat).length := by
      rw [← Nat.length_toDigits_le_iff (by decide) hpos, toDigits_eq_numberText]
    have hnumber := @readNumber_numberText 10 (numberText 10 port.toNat).length (2 ^ 16)
      port.toNat true (by decide) (by decide) hpos hlength port.toNat_lt []
        (fun c hc => by cases hc)
    rwa [List.append_nil] at hnumber
  rw [parseU16, hplus, Option.getD_none, hread]
  simp

theorem parsePort_repr {port : UInt16} (hport : port ≠ 0) :
    parsePort (Nat.repr port.toNat) = .ok port := by
  rw [parsePort, parseU16_repr]
  dsimp only
  rw [ensure_of_true hport]
  rfl

/-! ### The authority of a target -/

def authorityText (target : NormalizedTarget) : String :=
  uriHost target.host ++ ":" ++ Nat.repr target.port.toNat

/-- What a normalized authority is made of. -/
structure Wellformed (target : NormalizedTarget) : Prop where
  port : target.port ≠ 0
  named : ∀ name, target.host = .dns name → DnsName name

/-- The host of the target is no name that reads as an address. -/
def Plain (target : NormalizedTarget) : Prop :=
  ∀ name, target.host = .dns name → parseIpAddr name = none

theorem toList_authority (host : String) (port : UInt16) :
    (host ++ ":" ++ Nat.repr port.toNat).toList =
      host.toList ++ ':' :: (Nat.repr port.toNat).toList := by
  rw [String.toList_append, String.toList_append, List.append_assoc]
  rfl

theorem graphic_authority {host : String} (port : UInt16)
    (hhost : ∀ c ∈ host.toList, 32 < c.toNat ∧ c.toNat < 127) :
    ∀ c ∈ (host ++ ":" ++ Nat.repr port.toNat).toList, 32 < c.toNat ∧ c.toNat < 127 := by
  intro c hc
  rw [toList_authority] at hc
  rcases List.mem_append.mp hc with hc | hc
  · exact hhost c hc
  · rcases List.mem_cons.mp hc with rfl | hc
    · decide
    · have hdigit := repr_digits port.toNat c hc
      omega

theorem not_mem_authority {host : String} (port : UInt16) {c : Char} (hhost : c ∉ host.toList)
    (hcolon : c ≠ ':') (hdigit : ¬(48 ≤ c.toNat ∧ c.toNat ≤ 57)) :
    c ∉ (host ++ ":" ++ Nat.repr port.toNat).toList := by
  rw [toList_authority]
  intro hc
  rcases List.mem_append.mp hc with hc | hc
  · exact hhost hc
  · rcases List.mem_cons.mp hc with hc | hc
    · exact hcolon hc
    · exact not_mem_repr hdigit hc

/-- A host of name characters before a port is normalized by itself. -/
theorem normalizeAuthority_name {host : String} {port defaultPort : UInt16} (hport : port ≠ 0)
    (hchars : ∀ c ∈ host.toList, nameChar c = true) :
    normalizeAuthority (host ++ ":" ++ Nat.repr port.toNat) defaultPort =
      (normalizeHost host).map fun host => { host, port } := by
  have hnot : ∀ c, nameChar c = false → c ∉ host.toList := by
    intro c hc hmem
    rw [hchars c hmem] at hc
    cases hc
  have hgraphic := graphic_text
    (graphic_authority port fun c hc => graphic_of_nameChar (hchars c hc))
  have hnonempty : host ++ ":" ++ Nat.repr port.toNat ≠ "" := by
    intro hempty
    have hlist := congrArg String.toList hempty
    rw [toList_authority] at hlist
    exact absurd hlist (by simp)
  have hbracket : stripLead (host ++ ":" ++ Nat.repr port.toNat) "[" = none := by
    rcases hlead : stripLead (host ++ ":" ++ Nat.repr port.toNat) "[" with _ | rest
    · rfl
    · have hmem : '[' ∈ (host ++ ":" ++ Nat.repr port.toNat).toList := by
        rw [stripLead_eq_some.mp hlead, String.toList_append]
        exact List.mem_cons_self
      exact absurd hmem (not_mem_authority port (hnot _ rfl) (by decide) (by decide))
  have hsplit : rsplitOnce (host ++ ":" ++ Nat.repr port.toNat) ':' =
      some (host, Nat.repr port.toNat) := by
    have h := @rsplitOnce_append host.toList (Nat.repr port.toNat).toList ':'
      (not_mem_repr (by decide))
    rwa [← toList_authority, String.ofList_toList, String.ofList_toList,
      String.ofList_toList] at h
  have habsent : ∀ c, nameChar c = false → c ≠ ':' → ¬(48 ≤ c.toNat ∧ c.toNat ≤ 57) →
      containsChar (host ++ ":" ++ Nat.repr port.toNat) c = false :=
    fun c hname hcolon hdigit =>
      containsChar_eq_false.mpr (not_mem_authority port (hnot c hname) hcolon hdigit)
  rw [normalizeAuthority, hgraphic.2.2, ensure_of_true hnonempty, ok_bind, ensure_of_true (habsent '@' rfl (by decide) (by decide)),
    ok_bind, ensure_of_true ⟨habsent '/' rfl (by decide) (by decide),
      habsent '?' rfl (by decide) (by decide), habsent '#' rfl (by decide) (by decide)⟩, ok_bind,
    hbracket]
  dsimp only
  rw [normalizePlainAuthority, ensure_of_true hgraphic.2.1, ok_bind, hsplit]
  dsimp only
  rw [ensure_of_true (containsChar_eq_false.mpr (hnot ':' rfl)), ok_bind, parsePort_repr hport]
  cases normalizeHost host with
  | error e => rfl
  | ok normalized => rfl

/-- An address in brackets before a port. -/
theorem normalizeAuthority_bracketed (addr : Ipv6Addr) {port defaultPort : UInt16}
    (hport : port ≠ 0) :
    normalizeAuthority ("[" ++ (IpAddr.v6 addr).text ++ "]" ++ ":" ++ Nat.repr port.toNat)
        defaultPort = .ok { host := .ip (.v6 addr), port } := by
  have hchars := (ip_text_bounds (.v6 addr)).1
  have hnot : ∀ c, addressChar c = false → c ∉ (IpAddr.v6 addr).text.toList := by
    intro c hc hmem
    rw [hchars c hmem] at hc
    cases hc
  have hhost : ("[" ++ (IpAddr.v6 addr).text ++ "]").toList =
      '[' :: ((IpAddr.v6 addr).text.toList ++ [']']) := by
    rw [String.toList_append, String.toList_append]
    rfl
  have hbracketed : ∀ c, addressChar c = false → c ≠ '[' → c ≠ ']' →
      c ∉ ("[" ++ (IpAddr.v6 addr).text ++ "]").toList := by
    intro c hc hopening hclosing hmem
    rw [hhost] at hmem
    simp only [List.mem_cons, List.mem_append, List.not_mem_nil, or_false] at hmem
    rcases hmem with hmem | hmem | hmem
    · exact hopening hmem
    · exact hnot c hc hmem
    · exact hclosing hmem
  have hgraphic := graphic_text (graphic_authority port (by
    intro c hc
    rw [hhost] at hc
    simp only [List.mem_cons, List.mem_append, List.not_mem_nil, or_false] at hc
    rcases hc with rfl | hc | rfl
    · decide
    · exact graphic_of_addressChar (hchars c hc)
    · decide))
  have habsent : ∀ c, addressChar c = false → c ≠ '[' → c ≠ ']' → c ≠ ':' →
      ¬(48 ≤ c.toNat ∧ c.toNat ≤ 57) →
      containsChar ("[" ++ (IpAddr.v6 addr).text ++ "]" ++ ":" ++ Nat.repr port.toNat) c =
        false :=
    fun c hc hopening hclosing hcolon hdigit => containsChar_eq_false.mpr
      (not_mem_authority port (hbracketed c hc hopening hclosing) hcolon hdigit)
  have hrest : "[" ++ (IpAddr.v6 addr).text ++ "]" ++ ":" ++ Nat.repr port.toNat =
      "[" ++ String.ofList ((IpAddr.v6 addr).text.toList ++
        ']' :: ':' :: (Nat.repr port.toNat).toList) := by
    rw [← String.toList_inj, toList_authority, hhost, String.toList_append,
      String.toList_ofList]
    simp
  have hnonempty : "[" ++ (IpAddr.v6 addr).text ++ "]" ++ ":" ++ Nat.repr port.toNat ≠ "" := by
    intro hempty
    have hlist := congrArg String.toList hempty
    rw [toList_authority] at hlist
    exact absurd hlist (by simp)
  have hsuffix : stripLead (String.ofList (':' :: (Nat.repr port.toNat).toList)) ":" =
      some (Nat.repr port.toNat) := by
    rw [stripLead_eq_some, ← String.toList_inj, String.toList_ofList, String.toList_append]
    rfl
  have hparse : parseIpAddr (String.ofList (IpAddr.v6 addr).text.toList) = some (.v6 addr) := by
    rw [String.ofList_toList, parseIpAddr_text]
  rw [normalizeAuthority, hgraphic.2.2, ensure_of_true hnonempty, ok_bind,
    ensure_of_true (habsent '@' rfl (by decide) (by decide) (by decide) (by decide)), ok_bind,
    ensure_of_true ⟨habsent '/' rfl (by decide) (by decide) (by decide) (by decide),
      habsent '?' rfl (by decide) (by decide) (by decide) (by decide),
      habsent '#' rfl (by decide) (by decide) (by decide) (by decide)⟩, ok_bind, hrest,
    stripLead_append]
  dsimp only
  rw [normalizeBracketedAuthority, splitOnce_append (hnot ']' rfl)]
  dsimp only
  have hmore : String.ofList (':' :: (Nat.repr port.toNat).toList) ≠ "" := by
    intro hempty
    rw [← String.toList_inj, String.toList_ofList] at hempty
    cases hempty
  rw [normalizeBracketed, hparse, pure_bind, if_neg hmore, hsuffix]
  dsimp only
  rw [parsePort_repr hport]
  rfl

theorem nameChar_of_dottedChar {c : Char} (h : dottedChar c = true) : nameChar c = true := by
  rw [dottedChar, Bool.or_eq_true] at h
  rw [nameChar, Bool.or_eq_true, Bool.or_eq_true]
  rcases h with hdigit | hdot
  · left
    left
    rw [Char.isAlphanum, Bool.or_eq_true]
    right
    exact hdigit
  · exact .inr hdot

/-- The text of a target normalizes to the target exactly when its host is no name that reads
as an address. -/
theorem normalizeAuthority_authorityText {target : NormalizedTarget} {defaultPort : UInt16}
    (htarget : Wellformed target) :
    normalizeAuthority (authorityText target) defaultPort = .ok target ↔ Plain target := by
  obtain ⟨host, port⟩ := target
  have hport : port ≠ 0 := htarget.port
  cases host with
  | dns name =>
      have hname := htarget.named name rfl
      rw [authorityText, uriHost, normalizeAuthority_name hport hname.chars]
      constructor
      · -- a name that is its own normal form was not read as an address
        rintro hnormal other ⟨⟩
        rcases hhost : normalizeHost name with e | host
        · rw [hhost] at hnormal
          cases hnormal
        · rw [hhost] at hnormal
          obtain ⟨rfl, -⟩ := NormalizedTarget.mk.inj (Except.ok.inj hnormal)
          have htrim := (graphic_text fun c hc => graphic_of_nameChar (hname.chars c hc)).2.2
          cases normalizeHost_accepted hhost with
          | name hunread _ _ => rwa [htrim] at hunread
      · intro hplain
        rw [hname.normalizeHost (hplain name rfl)]
        rfl
  | ip addr =>
      refine iff_of_true ?_ fun name hname => (by cases hname)
      cases addr with
      | v4 addr =>
          have hread := readIpv4_chars (parseIpAddr_v4 (parseIpAddr_text (.v4 addr)))
          rw [authorityText, uriHost, normalizeAuthority_name hport fun c hc =>
            nameChar_of_dottedChar (hread c hc), normalizeHost_text]
          rfl
      | v6 addr => exact normalizeAuthority_bracketed addr hport

/-! ### What normalization gives out -/

theorem parsePort_ne_zero {text : String} {port : UInt16} (h : parsePort text = .ok port) :
    port ≠ 0 := by
  rw [parsePort] at h
  split at h
  · cases h
  · simp only [bind_unit_eq_ok, ensure_eq_ok, pure_eq_ok] at h
    obtain ⟨hnonzero, rfl⟩ := h
    exact hnonzero

theorem normalizeHost_named {text name : String} (h : normalizeHost text = .ok (.dns name)) :
    DnsName name := by
  cases normalizeHost_accepted h with
  | name _ _ hnamed => exact hnamed

theorem normalizeBracketed_named {trimmed stripped name : String} :
    normalizeBracketed trimmed stripped ≠ .ok (.dns name) := by
  intro h
  rw [normalizeBracketed] at h
  split at h
  · cases h
  · cases h
  · cases h

/-- Every target that an authority normalizes to has a port and a name that was checked. -/
theorem wellformed_of_normalizeAuthority {text : String} {defaultPort : UInt16}
    {target : NormalizedTarget} (hdefault : defaultPort ≠ 0)
    (h : normalizeAuthority text defaultPort = .ok target) : Wellformed target := by
  simp only [normalizeAuthority, bind_unit_eq_ok, ensure_eq_ok] at h
  obtain ⟨-, -, -, h⟩ := h
  split at h
  · rw [normalizeBracketedAuthority] at h
    split at h
    · cases h
    · obtain ⟨host, hhost, h⟩ := bind_eq_ok.mp h
      have hnamed : ∀ name, host = .dns name → DnsName name := by
        rintro name rfl
        exact absurd hhost normalizeBracketed_named
      split at h
      · cases h
        exact ⟨hdefault, hnamed⟩
      · split at h
        · obtain ⟨port, hport, h⟩ := bind_eq_ok.mp h
          cases h
          exact ⟨parsePort_ne_zero hport, hnamed⟩
        · cases h
  · simp only [normalizePlainAuthority, bind_unit_eq_ok] at h
    obtain ⟨-, h⟩ := h
    split at h
    · simp only [bind_eq_ok, pure_eq_ok] at h
      obtain ⟨-, -, host, hhost, port, hport, rfl⟩ := h
      refine ⟨parsePort_ne_zero hport, ?_⟩
      rintro name rfl
      exact normalizeHost_named hhost
    · obtain ⟨host, hhost, h⟩ := bind_eq_ok.mp h
      cases h
      refine ⟨hdefault, ?_⟩
      rintro name rfl
      exact normalizeHost_named hhost

theorem wellformed_of_resolveConnectTarget {authority : Option String} {target : NormalizedTarget}
    (h : resolveConnectTarget authority = .ok target) : Wellformed target := by
  obtain ⟨text, -, h⟩ := bind_eq_ok.mp h
  exact wellformed_of_normalizeAuthority (by decide) (mapError_eq_ok.mp h)

end EggReplay.Intercept.CanonicalAuthorities
