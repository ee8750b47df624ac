import EggReplay.Intercept.Hosts
import EggReplay.Library.FifoCaches

/-!
Leaf certificates of the intercepting proxy: one certificate for each exact host, minted under
the selected CA and kept in a bounded cache.
-/

namespace EggReplay.Intercept.Leaves

open EggReplay.Intercept.Hosts
open EggReplay.Library.Checks
open EggReplay.Library.FifoCaches
open EggReplay.Library.IpText
open EggReplay.Library.Text

def maxLeafCacheEntries : Nat := 128
def maxLeafValidityHours : Nat := 720
def minLeafValidityHours : Nat := 1
def maxLeafCnChars : Nat := 64

/-- Moments and durations are in nanoseconds, the moments from the Unix epoch. -/
def second : Int := 1000000000
def hours (count : Nat) : Int := 3600 * second * count

/-- The last moment of the year 9999, past which `checked_add` fails. -/
def lastMoment : Int := 253402300799999999999

def truncateToSeconds (moment : Int) : Int := moment - moment % second

def checkedAdd (moment : Int) (duration : Int) : Option Int :=
  if moment + duration ≤ lastMoment then some (moment + duration) else none

inductive LeafError where
  | invalidTarget | invalidOptions | caNotValid | caExpiring | keyGeneration | signing
  deriving DecidableEq, Repr

/-- What the issuer reads of the CA that it is bound to. -/
structure CaAuthority where
  fingerprint : String
  notBefore : Int
  notAfter : Int
  deriving DecidableEq, Repr

structure LeafOptions where
  validityHours : Nat
  deriving DecidableEq, Repr

def LeafOptions.validate (options : LeafOptions) : Except LeafError Unit :=
  ensure (minLeafValidityHours ≤ options.validityHours ∧
    options.validityHours ≤ maxLeafValidityHours) .invalidOptions

/-- The key pair is left out: nothing here reads it. -/
structure LeafCertificate where
  target : String
  certDer : Bytes
  certPem : String
  fingerprint : String
  serial : Nat
  notBefore : Int
  notAfter : Int
  deriving DecidableEq, Repr

structure LeafIssuer where
  ca : CaAuthority
  validityHours : Nat
  cache : FifoCache String LeafCertificate
  issuanceCount : Nat

def LeafIssuer.new (ca : CaAuthority) (options : LeafOptions) : Except LeafError LeafIssuer := do
  options.validate
  pure { ca, validityHours := options.validityHours, cache := FifoCache.empty, issuanceCount := 0 }

/-! ### Minting -/

inductive SanType where
  | dnsName (name : String)
  | ipAddress (addr : IpAddr)
  deriving DecidableEq, Repr

inductive KeyUsagePurpose where
  | digitalSignature
  deriving DecidableEq, Repr

inductive ExtendedKeyUsagePurpose where
  | serverAuth
  deriving DecidableEq, Repr

structure CertificateParams where
  notBefore : Int
  notAfter : Int
  serialNumber : Bytes
  subjectAltNames : List SanType
  commonName : Option String
  explicitNoCa : Bool
  keyUsages : List KeyUsagePurpose
  extendedKeyUsages : List ExtendedKeyUsagePurpose
  useAuthorityKeyIdentifierExtension : Bool
  deriving DecidableEq, Repr

/-- What the certificate library and the process answer while a leaf is minted. -/
structure Minting where
  keyGenerated : Bool
  serial : Nat
  signedBy : CertificateParams → Option (Bytes × String)
  sha256 : Bytes → Bytes

def Minting.fingerprintHex (minting : Minting) (der : Bytes) : String :=
  String.ofList ((minting.sha256 der).flatMap hexByte)

def toBeBytes (serial : Nat) : Bytes :=
  (List.range 8).map fun i => UInt8.ofNat (serial / 256 ^ (7 - i))

def sanOf : NormalizedHost → Except LeafError SanType
  | .dns name => do
      ensure (isAscii name = true) .invalidTarget
      pure (.dnsName name)
  | .ip addr => pure (.ipAddress addr)

def mint (minting : Minting) (target : NormalizedHost) (notBefore notAfter : Int) :
    Except LeafError LeafCertificate := do
  let san ← sanOf target
  ensure (minting.keyGenerated = true) .keyGeneration
  let params : CertificateParams :=
    { notBefore
      notAfter
      serialNumber := toBeBytes minting.serial
      subjectAltNames := [san]
      commonName :=
        if target.asStr.toList.length ≤ maxLeafCnChars then some target.asStr else none
      explicitNoCa := true
      keyUsages := [.digitalSignature]
      extendedKeyUsages := [.serverAuth]
      useAuthorityKeyIdentifierExtension := true }
  match minting.signedBy params with
  | none => .error .signing
  | some (certDer, certPem) =>
      pure
        { target := target.asStr
          certDer
          certPem
          fingerprint := minting.fingerprintHex certDer
          serial := minting.serial
          notBefore
          notAfter }

/-! ### Issuing -/

/-- When a leaf minted now would end; the checks made before the cache is locked. -/
def LeafIssuer.window (issuer : LeafIssuer) (target : NormalizedHost) (now : Int) :
    Except LeafError Int := do
  ensure (containsChar target.asStr '*' = false ∧ target.asStr ≠ "") .invalidTarget
  ensure (issuer.ca.notBefore ≤ now ∧ now < issuer.ca.notAfter) .caNotValid
  match checkedAdd now (hours issuer.validityHours) with
  | none => .error .signing
  | some latest => do
      let notAfter := min latest issuer.ca.notAfter
      ensure (now < notAfter ∧ hours minLeafValidityHours ≤ notAfter - now) .caExpiring
      pure notAfter

def LeafIssuer.keyOf (issuer : LeafIssuer) (target : NormalizedHost) : String :=
  issuer.ca.fingerprint ++ "/" ++ target.asStr

def LeafIssuer.mintInto (issuer : LeafIssuer) (minting : Minting) (target : NormalizedHost)
    (now notAfter : Int) (entries : AList fun _ : String => LeafCertificate) :
    Except LeafError LeafCertificate × LeafIssuer :=
  match mint minting target now notAfter with
  | .error e => (.error e, { issuer with cache := { issuer.cache with entries } })
  | .ok leaf =>
      (.ok leaf,
        { issuer with
          cache := (evict maxLeafCacheEntries entries issuer.cache.order).push
            (issuer.keyOf target) leaf
          issuanceCount := (issuer.issuanceCount + 1) % 2 ^ 64 })

/-- The part under the lock. A hit that has expired leaves the map, not the queue. -/
def LeafIssuer.issueLocked (issuer : LeafIssuer) (minting : Minting) (target : NormalizedHost)
    (now notAfter : Int) : Except LeafError LeafCertificate × LeafIssuer :=
  match issuer.cache.entries.lookup (issuer.keyOf target) with
  | some hit =>
      if now < hit.notAfter then (.ok hit, issuer)
      else
        issuer.mintInto minting target now notAfter
          (issuer.cache.entries.erase (issuer.keyOf target))
  | none => issuer.mintInto minting target now notAfter issuer.cache.entries

def LeafIssuer.issue (issuer : LeafIssuer) (minting : Minting) (target : NormalizedHost)
    (clock : Int) : Except LeafError LeafCertificate × LeafIssuer :=
  let now := truncateToSeconds clock
  match issuer.window target now with
  | .error e => (.error e, issuer)
  | .ok notAfter => issuer.issueLocked minting target now notAfter

def LeafIssuer.expiredKeys (issuer : LeafIssuer) (now : Int) : List String :=
  (issuer.cache.entries.entries.filter fun entry => decide (entry.2.notAfter ≤ now)).map Sigma.fst

def LeafIssuer.removeExpired (issuer : LeafIssuer) (now : Int) : Nat × LeafIssuer :=
  let cache := issuer.cache.eraseAll (issuer.expiredKeys now)
  (issuer.cache.size - cache.size, { issuer with cache })

/-! ### What each part keeps -/

theorem hours_eq (count : Nat) : hours count = 3600000000000 * count := by
  unfold hours second
  omega

theorem mint_ok {minting : Minting} {target : NormalizedHost} {notBefore notAfter : Int}
    {leaf : LeafCertificate} (h : mint minting target notBefore notAfter = .ok leaf) :
    leaf.notBefore = notBefore ∧ leaf.notAfter = notAfter := by
  simp only [mint, bind_eq_ok] at h
  obtain ⟨san, -, u, -, hsigned⟩ := h
  split at hsigned
  · cases hsigned
  · rw [pure_eq_ok] at hsigned
    subst hsigned
    exact ⟨rfl, rfl⟩

theorem checkedAdd_eq_some {moment sum : Int} {duration : Int}
    (h : checkedAdd moment duration = some sum) : sum = moment + duration := by
  unfold checkedAdd at h
  rw [Option.ite_none_right_eq_some] at h
  exact (Option.some.inj h.2).symm

/-- A leaf whose validity is the CA's business: inside the CA's own, and of a length between
an hour and what was asked for. -/
structure Windowed (ca : CaAuthority) (validityHours : Nat) (notBefore notAfter : Int) : Prop where
  from_ca : ca.notBefore ≤ notBefore
  to_ca : notAfter ≤ ca.notAfter
  long : hours minLeafValidityHours ≤ notAfter - notBefore
  short : notAfter - notBefore ≤ hours validityHours

theorem LeafIssuer.window_ok {issuer : LeafIssuer} {target : NormalizedHost} {now notAfter : Int}
    (h : issuer.window target now = .ok notAfter) :
    Windowed issuer.ca issuer.validityHours now notAfter := by
  simp only [LeafIssuer.window, bind_unit_eq_ok, ensure_eq_ok] at h
  obtain ⟨-, hca, hlatest⟩ := h
  cases hadd : checkedAdd now (hours issuer.validityHours) with
  | none =>
      rw [hadd] at hlatest
      cases hlatest
  | some latest =>
      simp only [hadd, bind_unit_eq_ok, ensure_eq_ok, pure_eq_ok] at hlatest
      obtain ⟨⟨-, hlong⟩, rfl⟩ := hlatest
      have hsum := checkedAdd_eq_some hadd
      refine ⟨hca.1, min_le_right _ _, hlong, ?_⟩
      have := min_le_left latest issuer.ca.notAfter
      omega

/-- A minted leaf ends later than it begins. -/
theorem Windowed.lt {ca : CaAuthority} {validityHours : Nat} {notBefore notAfter : Int}
    (h : Windowed ca validityHours notBefore notAfter) : notBefore + second < notAfter := by
  have := h.long
  rw [hours_eq] at this
  unfold minLeafValidityHours at this
  unfold second
  omega

theorem truncateToSeconds_le (moment : Int) : truncateToSeconds moment ≤ moment := by
  unfold truncateToSeconds second
  omega

theorem lt_truncateToSeconds (moment : Int) : moment < truncateToSeconds moment + second := by
  unfold truncateToSeconds second
  omega

end EggReplay.Intercept.Leaves
