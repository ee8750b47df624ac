import EggReplay.Intercept.OneOrigin

/-!
The URI that an absolute-form request goes upstream with: whether it is parsed, and whether its
authority is the target that the policy was asked about.
-/

namespace EggReplay.Intercept.AbsoluteTargets

open EggReplay.Http.Transaction
open EggReplay.Intercept.Authorities
open EggReplay.Intercept.CanonicalAuthorities
open EggReplay.Intercept.ExplicitProxy
open EggReplay.Intercept.Hosts
open EggReplay.Intercept.OneOrigin
open EggReplay.Library.Checks
open EggReplay.Library.IpText
open EggReplay.Library.Text

/-! ### URIs -/

def pathChar (c : Char) : Bool :=
  c.isAlphanum || "-._~!$&'()*+,;=:@%/".toList.contains c

def queryChar (c : Char) : Bool := pathChar c || c == '?'

/-- A path from the root and a query, of the characters of a URI. -/
structure TargetText (path : String) (query : Option String) : Prop where
  root : startsWith path "/" = true
  path : ∀ c ∈ path.toList, pathChar c = true
  query : ∀ text, query = some text → ∀ c ∈ text.toList, queryChar c = true

/-- The longest URI that the HTTP package takes. -/
def maxUriLen : Nat := 65534

/-- What the HTTP package documents of its URIs: it parses those with a registered name or an
IPv4 address for a host up to its limit, and the authority ends where the path begins. -/
structure ParsesHttp (parse : String → Option Uri) : Prop where
  accepts : ∀ (name : String) (port : UInt16) (path : String) (query : Option String),
    name ≠ "" → (∀ c ∈ name.toList, nameChar c = true) → TargetText path query →
    ((parse ("http://" ++ name ++ ":" ++ Nat.repr port.toNat ++ withQuery path query)).isSome ↔
      ("http://" ++ name ++ ":" ++ Nat.repr port.toNat ++
        withQuery path query).utf8ByteSize ≤ maxUriLen)
  authority : ∀ (authority rest : String) (uri : Uri),
    '/' ∉ authority.toList → '?' ∉ authority.toList → '#' ∉ authority.toList →
    startsWith rest "/" = true → parse ("http://" ++ authority ++ rest) = some uri →
      uri.authority = some authority

def HttpPackage.parsing (http : HttpPackage) (parse : String → Option Uri) : HttpPackage :=
  { http with parsesUri := fun text => (parse text).isSome }

/-! ### Coherent requests -/

/-- An absolute-form request for `target`, by its URI as well as by its Host. -/
structure Coherent (head : RequestHead) (target : NormalizedTarget) : Prop where
  form : head.form = .absolute
  scheme : (head.scheme.map fun scheme => eqIgnoreAsciiCase scheme "http") = some true
  uriAuthority : ∃ text, head.uriAuthority = some text ∧ normalizeAuthority text 80 = .ok target
  authority : ∃ text, head.authority = some text ∧ normalizeAuthority text 80 = .ok target
  text : TargetText (if head.path = "" then "/" else head.path) head.query

def printedUri (head : RequestHead) (target : NormalizedTarget) : String :=
  "http://" ++ target.host.asStr ++ ":" ++ Nat.repr target.port.toNat ++
    withQuery head.path head.query

variable {http : HttpPackage} {parse : String → Option Uri} {head : RequestHead}
  {target : NormalizedTarget}

/-- Whether a coherent request is resolved is up to the parser alone. -/
theorem resolve_eq_ok (h : Coherent head target) {canonical : CanonicalProxyTarget} :
    resolveAbsoluteTarget http head = .ok canonical ↔
      http.parsesUri (printedUri head target) = true ∧
        canonical = { host := target.host, port := target.port,
                      upstreamUri := printedUri head target } := by
  obtain ⟨uriText, huri, huriTarget⟩ := h.uriAuthority
  obtain ⟨hostText, hhost, hhostTarget⟩ := h.authority
  rw [resolveAbsoluteTarget, ensure_of_true h.form, ok_bind, ensure_of_true h.scheme, ok_bind,
    huri, required, ok_bind, huriTarget, Except.mapError, ok_bind, hhost, required, ok_bind,
    hhostTarget, Except.mapError, ok_bind, ensure_of_true rfl, ok_bind]
  simp only [bind_unit_eq_ok, ensure_eq_ok, pure_eq_ok]
  constructor
  · rintro ⟨hparses, rfl⟩
    exact ⟨hparses, rfl⟩
  · rintro ⟨hparses, rfl⟩
    exact ⟨hparses, rfl⟩

theorem wellformed (h : Coherent head target) : Wellformed target := by
  obtain ⟨_, -, htarget⟩ := h.authority
  exact wellformed_of_normalizeAuthority (by decide) htarget

/-! ### The printed authority -/

/-- What stands between the scheme and the path. -/
def printedAuthority (target : NormalizedTarget) : String :=
  target.host.asStr ++ ":" ++ Nat.repr target.port.toNat

theorem printedUri_eq (head : RequestHead) (target : NormalizedTarget) :
    printedUri head target =
      "http://" ++ printedAuthority target ++ withQuery head.path head.query := by
  rw [printedUri, printedAuthority]
  simp only [String.append_assoc]

theorem withQuery_root (h : Coherent head target) :
    startsWith (withQuery head.path head.query) "/" = true := by
  obtain ⟨rest, hrest⟩ := startsWith_iff.mp h.text.root
  rw [withQuery, startsWith_iff, String.toList_append, ← hrest, List.append_assoc]
  exact ⟨_, rfl⟩

theorem asStr_chars (h : Wellformed target) : ∀ c ∈ target.host.asStr.toList,
    nameChar c = true ∨ addressChar c = true := by
  intro c hc
  cases hhost : target.host with
  | dns name =>
      rw [hhost] at hc
      exact .inl ((h.named name hhost).chars c hc)
  | ip addr =>
      rw [hhost] at hc
      exact .inr ((ip_text_bounds addr).1 c hc)

theorem not_mem_printedAuthority (h : Wellformed target) {c : Char} (hname : nameChar c = false)
    (haddress : addressChar c = false) : c ∉ (printedAuthority target).toList := by
  apply not_mem_authority
  · intro hmem
    rcases asStr_chars h c hmem with hc | hc
    · cases hname.symm.trans hc
    · cases haddress.symm.trans hc
  · rintro rfl
    exact absurd haddress (by decide)
  · intro hdigit
    have hlow : '0' ≤ c := hdigit.1
    have hhigh : c ≤ '9' := hdigit.2
    simp [addressChar, hlow, hhigh] at haddress

theorem uri_authority (hparse : ParsesHttp parse) (h : Coherent head target) {uri : Uri}
    (huri : parse (printedUri head target) = some uri) :
    uri.authority = some (printedAuthority target) := by
  have hwell := wellformed h
  rw [printedUri_eq] at huri
  exact hparse.authority _ _ uri (not_mem_printedAuthority hwell rfl rfl)
    (not_mem_printedAuthority hwell rfl rfl) (not_mem_printedAuthority hwell rfl rfl)
    (withQuery_root h) huri

/-- An address with colons is printed without the brackets that it is read with. -/
theorem normalize_printed_v6 {addr : Ipv6Addr} (hhost : target.host = .ip (.v6 addr))
    {defaultPort : UInt16} :
    normalizeAuthority (printedAuthority target) defaultPort ≠ .ok target := by
  have hcolon : ':' ∈ target.host.asStr.toList := by
    rw [hhost]
    have hread := parseIpAddr_text (.v6 addr)
    by_contra hnone
    obtain ⟨dotted, hv4, -⟩ := parseIpAddr_no_colon hread hnone
    cases hv4
  have hsplit : rsplitOnce (printedAuthority target) ':' =
      some (target.host.asStr, Nat.repr target.port.toNat) := by
    have hparts := @rsplitOnce_append target.host.asStr.toList
      (Nat.repr target.port.toNat).toList ':' (not_mem_repr (by decide))
    rwa [← toList_authority, String.ofList_toList, String.ofList_toList,
      String.ofList_toList] at hparts
  have hwritten : ∀ c ∈ (printedAuthority target).toList, 32 < c.toNat ∧ c.toNat < 127 := by
    apply graphic_authority
    intro c hc
    rw [hhost] at hc
    exact graphic_of_addressChar ((ip_text_bounds (.v6 addr)).1 c hc)
  have hbracket : stripLead (printedAuthority target) "[" = none := by
    rcases hlead : stripLead (printedAuthority target) "[" with _ | rest
    · rfl
    · have hmem : '[' ∈ (printedAuthority target).toList := by
        rw [stripLead_eq_some.mp hlead, String.toList_append]
        exact List.mem_cons_self
      refine absurd hmem (not_mem_authority target.port ?_ (by decide) (by decide))
      rw [hhost]
      intro hopening
      exact absurd ((ip_text_bounds (.v6 addr)).1 _ hopening) (by decide)
  intro hnormal
  simp only [normalizeAuthority, bind_unit_eq_ok, (graphic_text hwritten).2.2, hbracket,
    normalizePlainAuthority, hsplit, ensure_eq_ok, containsChar_eq_false] at hnormal
  exact hnormal.2.2.2.2.1 hcolon

theorem printed_eq_authorityText (hhost : ∀ addr, target.host ≠ .ip (.v6 addr)) :
    printedAuthority target = authorityText target := by
  rw [printedAuthority, authorityText]
  cases hcase : target.host with
  | dns name => rfl
  | ip addr =>
      cases addr with
      | v4 addr => rfl
      | v6 addr => exact absurd hcase (hhost addr)

theorem asStr_name (h : Wellformed target) (hhost : ∀ addr, target.host ≠ .ip (.v6 addr)) :
    target.host.asStr ≠ "" ∧ ∀ c ∈ target.host.asStr.toList, nameChar c = true := by
  cases hcase : target.host with
  | dns name => exact ⟨(h.named name hcase).nonempty, (h.named name hcase).chars⟩
  | ip addr =>
      cases addr with
      | v6 addr => exact absurd hcase (hhost addr)
      | v4 addr =>
          have hread := parseIpAddr_v4 (parseIpAddr_text (.v4 addr))
          refine ⟨?_, fun c hc => nameChar_of_dottedChar (readIpv4_chars hread c hc)⟩
          intro hempty
          rw [NormalizedHost.asStr] at hempty
          rw [hempty] at hread
          cases hread

/-! ### What resolving gives -/

/-- The request is resolved, and the authority of its URI is the target again. -/
def ResolvesToItself (http : HttpPackage) (parse : String → Option Uri) (head : RequestHead)
    (target : NormalizedTarget) : Prop :=
  ∃ canonical uri authority,
    resolveAbsoluteTarget (HttpPackage.parsing http parse) head = .ok canonical ∧
    canonical.host = target.host ∧ canonical.port = target.port ∧
    parse canonical.upstreamUri = some uri ∧ uri.authority = some authority ∧
    normalizeAuthority authority 80 = .ok target

/-- What of a target is printed so that it can be read again. -/
structure Reparsable (head : RequestHead) (target : NormalizedTarget) : Prop where
  unbracketed : ∀ addr, target.host ≠ .ip (.v6 addr)
  plain : Plain target
  short : "http://".utf8ByteSize + target.host.asStr.utf8ByteSize + ":".utf8ByteSize +
    (Nat.repr target.port.toNat).utf8ByteSize +
    (withQuery head.path head.query).utf8ByteSize ≤ maxUriLen

theorem printedUri_size (head : RequestHead) (target : NormalizedTarget) :
    (printedUri head target).utf8ByteSize =
      "http://".utf8ByteSize + target.host.asStr.utf8ByteSize + ":".utf8ByteSize +
        (Nat.repr target.port.toNat).utf8ByteSize +
        (withQuery head.path head.query).utf8ByteSize := by
  rw [printedUri, String.utf8ByteSize_append, String.utf8ByteSize_append,
    String.utf8ByteSize_append, String.utf8ByteSize_append]

theorem withQuery_path (path : String) (query : Option String) :
    withQuery (if path = "" then "/" else path) query = withQuery path query := by
  rw [withQuery, withQuery]
  split
  · rfl
  · rfl

theorem resolvesToItself_iff (hparse : ParsesHttp parse) (h : Coherent head target) :
    ResolvesToItself http parse head target ↔ Reparsable head target := by
  have hwell := wellformed h
  constructor
  · rintro ⟨canonical, uri, authority, hresolved, -, -, huri, hauthority, hnormal⟩
    obtain ⟨hparses, rfl⟩ := (resolve_eq_ok h).mp hresolved
    rw [uri_authority hparse h huri] at hauthority
    obtain rfl := Option.some.inj hauthority
    have hhost : ∀ addr, target.host ≠ .ip (.v6 addr) := by
      intro addr hv6
      exact normalize_printed_v6 hv6 hnormal
    rw [printed_eq_authorityText hhost] at hnormal
    obtain ⟨hnonempty, hchars⟩ := asStr_name hwell hhost
    refine ⟨hhost, (normalizeAuthority_authorityText hwell).mp hnormal, ?_⟩
    have hsize := (hparse.accepts _ target.port _ head.query hnonempty hchars h.text).mp
      (by rw [withQuery_path]; exact hparses)
    rw [withQuery_path] at hsize
    rw [← printedUri_size]
    exact hsize
  · rintro ⟨hhost, hplain, hshort⟩
    obtain ⟨hnonempty, hchars⟩ := asStr_name hwell hhost
    rw [← printedUri_size] at hshort
    have hparses := (hparse.accepts _ target.port _ head.query hnonempty hchars h.text).mpr
      (by rw [withQuery_path]; exact hshort)
    rw [withQuery_path] at hparses
    obtain ⟨uri, huri⟩ := Option.isSome_iff_exists.mp hparses
    refine ⟨_, uri, printedAuthority target, (resolve_eq_ok h).mpr ⟨hparses, rfl⟩, rfl, rfl,
      huri, uri_authority hparse h huri, ?_⟩
    rw [printed_eq_authorityText hhost]
    exact (normalizeAuthority_authorityText hwell).mpr hplain

/-! ### A parser of these URIs -/

/-- More than one colon in an authority without brackets is refused. -/
def parseHttp (text : String) : Option Uri :=
  if text.utf8ByteSize ≤ maxUriLen then
    (stripLead text "http://").bind fun rest =>
      let authority := rest.toList.takeWhile fun c => !endsAuthority c
      let target := String.ofList (rest.toList.dropWhile fun c => !endsAuthority c)
      if authority.head? ≠ some '[' ∧ 1 < authority.count ':' then none
      else
        some
          { scheme := some "http"
            authority := some (String.ofList authority)
            path := ((splitOnce target '?').map Prod.fst).getD target
            query := (splitOnce target '?').map Prod.snd }
  else none

theorem count_colon {name : String} (port : UInt16) (h : ∀ c ∈ name.toList, nameChar c = true) :
    (name ++ ":" ++ Nat.repr port.toNat).toList.count ':' = 1 := by
  have hname : ':' ∉ name.toList := fun hmem => absurd (h ':' hmem) (by decide)
  have hport : ':' ∉ (Nat.repr port.toNat).toList := not_mem_repr (by decide)
  rw [toList_authority, List.count_append, List.count_cons_self, List.count_eq_zero.mpr hname,
    List.count_eq_zero.mpr hport]

theorem parseHttp_accepts {name path : String} {port : UInt16} {query : Option String}
    (hchars : ∀ c ∈ name.toList, nameChar c = true) (htext : TargetText path query)
    (hsize : ("http://" ++ name ++ ":" ++ Nat.repr port.toNat ++
      withQuery path query).utf8ByteSize ≤ maxUriLen) :
    (parseHttp ("http://" ++ name ++ ":" ++ Nat.repr port.toNat ++
      withQuery path query)).isSome = true := by
  have habsent : ∀ c, nameChar c = false → c ≠ ':' → ¬(48 ≤ c.toNat ∧ c.toNat ≤ 57) →
      c ∉ (name ++ ":" ++ Nat.repr port.toNat).toList := by
    intro c hc hcolon hdigit
    refine not_mem_authority port ?_ hcolon hdigit
    intro hmem
    rw [hchars c hmem] at hc
    cases hc
  have hroot : startsWith (withQuery path query) "/" = true := by
    obtain ⟨rest, hrest⟩ := startsWith_iff.mp htext.root
    have hpath : path ≠ "" := by
      rintro rfl
      cases hrest
    rw [withQuery, if_neg hpath, startsWith_iff, String.toList_append, ← hrest,
      List.append_assoc]
    exact ⟨_, rfl⟩
  have hparts : "http://" ++ name ++ ":" ++ Nat.repr port.toNat ++ withQuery path query =
      "http://" ++ (name ++ ":" ++ Nat.repr port.toNat ++ withQuery path query) := by
    simp only [String.append_assoc]
  rw [parseHttp, if_pos hsize, hparts, stripLead_append, Option.bind_some,
    takeWhile_authority (habsent '/' rfl (by decide) (by decide))
      (habsent '?' rfl (by decide) (by decide)) (habsent '#' rfl (by decide) (by decide)) hroot]
  dsimp only
  rw [count_colon port hchars, if_neg fun hmany => absurd hmany.2 (Nat.lt_irrefl 1)]
  rfl

theorem parseHttp_parses : ParsesHttp parseHttp where
  accepts := by
    intro name port path query _ hchars htext
    constructor
    · intro hsome
      rw [parseHttp] at hsome
      split at hsome
      · assumption
      · cases hsome
    · exact parseHttp_accepts hchars htext
  authority := by
    intro authority rest uri hslash hquestion hfragment hroot h
    rw [parseHttp] at h
    split at h
    · rw [String.append_assoc, stripLead_append, Option.bind_some,
        takeWhile_authority hslash hquestion hfragment hroot] at h
      dsimp only at h
      split at h
      · cases h
      · obtain rfl := Option.some.inj h
        rw [String.ofList_toList]
    · cases h

def plainPackage : HttpPackage where
  headerName _ := true
  headerValue _ := true
  parsesUri _ := true
  builds _ _ := none

def absoluteRequest (uriAuthority authority : String) : RequestHead where
  method := "GET"
  form := .absolute
  scheme := some "http"
  uriAuthority := some uriAuthority
  authority := some authority
  path := "/a"
  query := some "b"
  headers := []

theorem targetText_plain : TargetText "/a" (some "b") where
  root := by decide
  path := List.all_eq_true.mp (by decide)
  query := by
    rintro text ⟨⟩
    exact List.all_eq_true.mp (by decide)

theorem absoluteRequest_coherent {uriAuthority authority : String} {target : NormalizedTarget}
    (huri : normalizeAuthority uriAuthority 80 = .ok target)
    (hhost : normalizeAuthority authority 80 = .ok target) :
    Coherent (absoluteRequest uriAuthority authority) target where
  form := rfl
  scheme := rfl
  uriAuthority := ⟨uriAuthority, rfl, huri⟩
  authority := ⟨authority, rfl, hhost⟩
  text := targetText_plain

theorem named_request_resolves :
    ResolvesToItself plainPackage parseHttp (absoluteRequest "A.test" "a.test:80")
        { host := .dns "a.test", port := 80 } ↔
      Reparsable (absoluteRequest "A.test" "a.test:80") { host := .dns "a.test", port := 80 } :=
  resolvesToItself_iff parseHttp_parses
    (absoluteRequest_coherent (by decide) (by decide))

/-- A coherent request for the IPv6 loopback goes upstream with a URI that is no URI. -/
theorem loopback_not_resolved :
    ¬∀ (http : HttpPackage) (parse : String → Option Uri) (head : RequestHead)
      (target : NormalizedTarget), ParsesHttp parse → Coherent head target →
      ResolvesToItself http parse head target := by
  intro h
  have hresolves := h plainPackage parseHttp (absoluteRequest "[::1]" "[::1]")
    { host := .ip (.v6 ⟨[0, 0, 0, 0, 0, 0, 0, 1], rfl⟩), port := 80 } parseHttp_parses
    (absoluteRequest_coherent (by decide) (by decide))
  obtain ⟨canonical, uri, authority, hresolved, -, -, huri, hauthority, hnormal⟩ := hresolves
  have hcoherent : Coherent (absoluteRequest "[::1]" "[::1]")
      { host := .ip (.v6 ⟨[0, 0, 0, 0, 0, 0, 0, 1], rfl⟩), port := 80 } :=
    absoluteRequest_coherent (by decide) (by decide)
  obtain ⟨-, rfl⟩ := (resolve_eq_ok hcoherent).mp hresolved
  rw [uri_authority parseHttp_parses hcoherent huri] at hauthority
  obtain rfl := Option.some.inj hauthority
  exact normalize_printed_v6 rfl hnormal

end EggReplay.Intercept.AbsoluteTargets
