import EggReplay.Intercept.CaPublication

/-!
Opening the directory of a CA: what is checked of the certificate, the key and the metadata, and
what of the policy that creating and importing enforce is left unchecked.
-/

namespace EggReplay.Intercept.CaReopening

open EggReplay.Intercept.CaAuthorities
open EggReplay.Intercept.CaPublication
open EggReplay.Intercept.Leaves (second)
open EggReplay.Library.Checks
open EggReplay.Library.FaultyCalls
open EggReplay.Library.Text

variable {Key Certificate : Type} {libraries : Libraries Key Certificate} {world : World}
  {authority : CaAuthority Key Certificate}

/-! ### The policy -/

/-- The metadata tells of the certificate what `build_metadata` would write of it. -/
structure Describes (libraries : Libraries Key Certificate) (metadata : CaMetadata)
    (validated : ValidatedCa) : Prop where
  subject : metadata.subjectDisplay = validated.subjectDisplay
  issuer : metadata.issuerDisplay = validated.issuerDisplay
  notBefore : metadata.notBeforeRfc3339 = libraries.rfc3339 validated.notBefore
  notAfter : metadata.notAfterRfc3339 = libraries.rfc3339 validated.notAfter

/-- The stored certificate passes the policy without regard to expiry, its key is the stored one,
and the metadata is about it. -/
structure PolicyValid (libraries : Libraries Key Certificate) (pairs : Bytes → Key → Prop)
    (world : World) (authority : CaAuthority Key Certificate) : Prop where
  stored : ∃ keyPem, world.file (.published caCertFilename) = some authority.certPem ∧
    world.file (.published caKeyFilename) = some keyPem ∧
    parseIdentity libraries authority.certPem keyPem = .ok [authority.certDer] ∧
    rcgenKeyPair libraries keyPem = .ok authority.keyPair
  paired : pairs authority.certDer authority.keyPair
  validated : ∃ validated, parseAndValidateCa libraries authority.certDer none = .ok validated ∧
    Describes libraries authority.metadata validated

/-- However the calls of the file system fail, what opens is valid under the policy. -/
def OpensValid (libraries : Libraries Key Certificate) (pairs : Bytes → Key → Prop)
    (world : World) : Prop :=
  ∀ fails calls authority after,
    CaAuthority.open fails libraries { state := world, calls } = (.ok authority, after) →
      PolicyValid libraries pairs world authority

/-- What the certificate has to be for the policy to pass. -/
structure SelfSignedRoot (cert : X509Certificate) : Prop where
  signature_algorithm : cert.signatureAlgorithm = "1.2.840.10045.4.3.2"
  key_algorithm : cert.publicKeyAlgorithm = "1.2.840.10045.2.1"
  self_issued : cert.subjectRaw = cert.issuerRaw
  valid_for_some_time : cert.notBefore < cert.notAfter
  ca : cert.basicConstraintsCa = some (some true)
  can_sign : cert.keyCertSign = some (some true)
  verifies : cert.verifiesItself = true

def validatedOf (cert : X509Certificate) : ValidatedCa where
  notBefore := cert.notBefore
  notAfter := cert.notAfter
  subjectDisplay := boundDisplay cert.subject
  issuerDisplay := boundDisplay cert.issuer

theorem parseAndValidateCa_eq_ok {der : Bytes} {validated : ValidatedCa} :
    parseAndValidateCa libraries der none = .ok validated ↔
      ∃ cert, libraries.fromDer der = some cert ∧ SelfSignedRoot cert ∧
        validatedOf cert = validated := by
  constructor
  · intro h
    simp only [parseAndValidateCa, ↓bind_unit_eq_ok, bind_eq_ok, orFail_eq_ok_iff,
      ensure_eq_ok, pure_eq_ok] at h
    obtain ⟨cert, hcert, hsignature, hkey, hissued, htime, constraints, hconstraints, hca, usage,
      husage, hsign, hverifies, hvalidated⟩ := h
    rw [hca] at hconstraints
    rw [hsign] at husage
    exact ⟨cert, hcert, ⟨hsignature, hkey, hissued, htime, hconstraints, husage, hverifies⟩,
      hvalidated⟩
  · rintro ⟨cert, hcert, hroot, rfl⟩
    simp only [parseAndValidateCa, ↓bind_unit_eq_ok, bind_eq_ok, orFail_eq_ok_iff,
      ensure_eq_ok, pure_eq_ok]
    exact ⟨cert, hcert, hroot.signature_algorithm, hroot.key_algorithm, hroot.self_issued,
      hroot.valid_for_some_time, some true, hroot.ca, rfl, some true, hroot.can_sign, rfl,
      hroot.verifies, rfl⟩

/-! ### What opening checks -/

/-- What is read of a directory when it is opened. -/
structure Contents (Key : Type) where
  metadata : CaMetadata
  certPem : Bytes
  keyPem : Bytes
  certDer : Bytes
  keyPair : Key
  cert : X509Certificate

/-- What `open` itself checks: the permissions, the sizes, that the metadata is bound to the one
certificate by its fingerprint, and that certificate and key load. -/
structure Presented (libraries : Libraries Key Certificate) (world : World)
    (contents : Contents Key) : Prop where
  permissions : permitted world = .ok ()
  metadata : ∃ raw,
    bounded (.published caMetadataFilename) maxMetadataBytes "metadata" world = .ok raw ∧
      parseMetadata libraries raw = .ok contents.metadata
  certPem : bounded (.published caCertFilename) maxPemFileBytes "certificate" world =
    .ok contents.certPem
  keyPem : bounded (.published caKeyFilename) maxPemFileBytes "private key" world =
    .ok contents.keyPem
  single : ∃ der, singleCertDerBytes libraries contents.certPem = .ok der ∧
    libraries.fingerprintHex der = contents.metadata.fingerprintSha256
  identity : parseIdentity libraries contents.certPem contents.keyPem = .ok [contents.certDer]
  fingerprint : libraries.fingerprintHex contents.certDer = contents.metadata.fingerprintSha256
  keyPair : rcgenKeyPair libraries contents.keyPem = .ok contents.keyPair
  loads : ∃ params issuer, libraries.fromCaCertDer contents.certDer = some params ∧
    libraries.selfSigned params contents.keyPair = some issuer
  cert : libraries.fromDer contents.certDer = some contents.cert

theorem bounded_eq_ok {path : Path} {limit : Nat} {what : String} {bytes : Bytes} :
    bounded path limit what world = .ok bytes ↔
      world.file path = some bytes ∧ bytes.length ≤ limit := by
  simp only [bounded, ↓bind_unit_eq_ok, bind_eq_ok, orFail_eq_ok_iff, ensure_eq_ok, pure_eq_ok]
  constructor
  · rintro ⟨read, hread, hshort, rfl⟩
    exact ⟨hread, hshort⟩
  · rintro ⟨hread, hshort⟩
    exact ⟨bytes, hread, hshort, rfl⟩

theorem isDirectory_of_file {name : String} {bytes : Bytes}
    (h : world.file (.published name) = some bytes) : isDirectory world = .ok () := by
  simp only [World.file] at h
  split at h
  · rename_i mode files htarget
    rw [isDirectory, htarget]
  · cases h

theorem inspected_eq_ok {metadata : CaMetadata} :
    inspected libraries world = .ok metadata ↔
      isDirectory world = .ok () ∧
        (∃ raw, bounded (.published caMetadataFilename) maxMetadataBytes "metadata" world =
          .ok raw ∧ parseMetadata libraries raw = .ok metadata) ∧
        ∃ certPem der,
          bounded (.published caCertFilename) maxPemFileBytes "certificate" world = .ok certPem ∧
            singleCertDerBytes libraries certPem = .ok der ∧
            libraries.fingerprintHex der = metadata.fingerprintSha256 := by
  simp only [inspected, ↓bind_unit_eq_ok, bind_eq_ok, ensure_eq_ok, pure_eq_ok]
  constructor
  · rintro ⟨_, hdirectory, raw, hraw, read, hmetadata, certPem, hpem, der, hder, hfingerprint, rfl⟩
    exact ⟨hdirectory, ⟨raw, hraw, hmetadata⟩, certPem, der, hpem, hder, hfingerprint⟩
  · rintro ⟨hdirectory, ⟨raw, hraw, hmetadata⟩, certPem, der, hpem, hder, hfingerprint⟩
    exact ⟨(), hdirectory, raw, hraw, metadata, hmetadata, certPem, hpem, der, hder, hfingerprint,
      rfl⟩

theorem presented_of_reopened (h : reopened libraries world = .ok authority) :
    ∃ keyPem cert, Presented libraries world
      { metadata := authority.metadata, certPem := authority.certPem, keyPem
        certDer := authority.certDer, keyPair := authority.keyPair, cert } := by
  simp only [reopened, ↓bind_unit_eq_ok, bind_eq_ok] at h
  obtain ⟨-, -, metadata, hinspected, hpermitted, certPem, hpem, keyPem, hkeyPem, h⟩ := h
  obtain ⟨-, hmetadata, certPem', der, hpem', hder, hbound⟩ := inspected_eq_ok.mp hinspected
  obtain rfl : certPem = certPem' := Except.ok.inj (hpem.symm.trans hpem')
  rw [assemble, bind_eq_ok] at h
  obtain ⟨certs, hcerts, h⟩ := h
  match certs, hcerts, h with
  | [certDer], hcerts, h =>
      simp only [↓bind_unit_eq_ok, ensure_eq_ok, bind_eq_ok, orFail_eq_ok_iff, validityWindow,
        pure_eq_ok] at h
      obtain ⟨hfingerprint, keyPair, hkeyPair, params, hparams, issuer, hissuer, window,
        ⟨cert, hcert, -⟩, rfl⟩ := h
      exact ⟨keyPem, cert, hpermitted, hmetadata, hpem, hkeyPem, ⟨der, hder, hbound⟩, hcerts,
        hfingerprint, hkeyPair, ⟨params, issuer, hparams, hissuer⟩, hcert⟩

theorem reopened_of_presented {contents : Contents Key}
    (h : Presented libraries world contents) :
    ∃ authority, reopened libraries world = .ok authority ∧
      authority.metadata = contents.metadata ∧ authority.certDer = contents.certDer := by
  have hdirectory : isDirectory world = .ok () := isDirectory_of_file (bounded_eq_ok.mp h.certPem).1
  have hinspected : inspected libraries world = .ok contents.metadata := by
    obtain ⟨der, hder, hbound⟩ := h.single
    exact inspected_eq_ok.mpr ⟨hdirectory, h.metadata, contents.certPem, der, h.certPem, hder,
      hbound⟩
  obtain ⟨params, issuer, hparams, hissuer⟩ := h.loads
  have hassembled : assemble libraries contents.metadata contents.certPem contents.keyPem =
      .ok { metadata := contents.metadata, certDer := contents.certDer
            certPem := contents.certPem, keyPair := contents.keyPair, issuer
            notBefore := contents.cert.notBefore, notAfter := contents.cert.notAfter } := by
    rw [assemble, h.identity, ok_bind]
    dsimp only
    rw [ensure_of_true h.fingerprint, ok_bind, h.keyPair, ok_bind, hparams, orFail, ok_bind,
      hissuer, orFail, ok_bind, validityWindow, h.cert, orFail, ok_bind]
    rfl
  refine ⟨{ metadata := contents.metadata, certDer := contents.certDer
            certPem := contents.certPem, keyPair := contents.keyPair, issuer
            notBefore := contents.cert.notBefore, notAfter := contents.cert.notAfter }, ?_, rfl,
    rfl⟩
  rw [reopened, hdirectory, ok_bind, hinspected, ok_bind, h.permissions, ok_bind, h.certPem,
    ok_bind, h.keyPem, ok_bind, hassembled]

/-! ### What opening does not check -/

/-- What of the policy is left to whoever edited the directory. -/
structure Unchecked (libraries : Libraries Key Certificate) (contents : Contents Key) :
    Prop where
  root : SelfSignedRoot contents.cert
  describes : Describes libraries contents.metadata (validatedOf contents.cert)

theorem unchecked_of_opensValid {pairs : Bytes → Key → Prop} {contents : Contents Key}
    (hvalid : OpensValid libraries pairs world) (hpresented : Presented libraries world contents) :
    Unchecked libraries contents := by
  obtain ⟨authority, hreopened, hmetadata, hder⟩ := reopened_of_presented hpresented
  have hopened : CaAuthority.open (fun _ => false) libraries { state := world, calls := 0 } =
      (.ok authority, { state := world, calls := 0 + 16 }) :=
    open_looks.eq_ok.mpr ⟨fun _ _ => rfl, hreopened, rfl⟩
  obtain ⟨validated, hpassed, hdescribes⟩ := (hvalid _ _ _ _ hopened).validated
  rw [hder] at hpassed
  obtain ⟨cert, hcert, hroot, rfl⟩ := parseAndValidateCa_eq_ok.mp hpassed
  obtain rfl : contents.cert = cert := Option.some.inj (hpresented.cert.symm.trans hcert)
  rw [hmetadata] at hdescribes
  exact ⟨hroot, hdescribes⟩

theorem parseIdentity_eq_ok {certPem keyPem : Bytes} {certs : List Bytes}
    (h : parseIdentity libraries certPem keyPem = .ok certs) :
    libraries.parseIdentityPem certPem keyPem = .ok certs := by
  simp only [parseIdentity, ↓bind_unit_eq_ok, ensure_eq_ok] at h
  obtain ⟨-, -, h⟩ := h
  rcases hparsed : libraries.parseIdentityPem certPem keyPem with e | parsed
  · rw [hparsed] at h
    cases h
  · rw [hparsed] at h
    exact congrArg Except.ok (Except.ok.inj h)

/-- A directory opens only where it is valid under the policy exactly when what opening leaves
unchecked holds of the contents that opening lets through. -/
theorem open_policyValid_iff {pairs : Bytes → Key → Prop}
    (hpairs : ∀ certPem keyPem certDer rest keyPair,
      libraries.parseIdentityPem certPem keyPem = .ok (certDer :: rest) →
        rcgenKeyPair libraries keyPem = .ok keyPair → pairs certDer keyPair)
    (world : World) :
    OpensValid libraries pairs world ↔
      ∀ contents, Presented libraries world contents → Unchecked libraries contents := by
  constructor
  · intro hvalid contents hpresented
    exact unchecked_of_opensValid hvalid hpresented
  · intro hunchecked fails calls authority after hopened
    obtain ⟨-, hreopened, -⟩ := open_looks.eq_ok.mp hopened
    obtain ⟨keyPem, cert, hpresented⟩ := presented_of_reopened hreopened
    obtain ⟨hroot, hdescribes⟩ := hunchecked _ hpresented
    exact
      { stored := ⟨keyPem, (bounded_eq_ok.mp hpresented.certPem).1,
          (bounded_eq_ok.mp hpresented.keyPem).1, hpresented.identity, hpresented.keyPair⟩
        paired := hpairs _ _ _ _ _ (parseIdentity_eq_ok hpresented.identity) hpresented.keyPair
        validated := ⟨_, parseAndValidateCa_eq_ok.mpr ⟨cert, hpresented.cert, hroot, rfl⟩,
          hdescribes⟩ }

/-! ### A root whose signature was edited -/

/-- The last octet of the signature is one less. -/
@[irreducible] def editedDer : Bytes := rootDer.dropLast ++ [30]

@[irreducible] def editedPem : String :=
  "-----BEGIN CERTIFICATE-----\n" ++
  "MIIBTTCB9KADAgECAgEBMAoGCCqGSM49BAMCMA0xCzAJBgNVBAMMAkNBMB4XDTI2\n" ++
  "MTExOTEwNTk0NVoXDTI3MTExOTEwNTk0NVowDTELMAkGA1UEAwwCQ0EwWTATBgcq\n" ++
  "hkjOPQIBBggqhkjOPQMBBwNCAATgT2YYpp7TMferUckajQay0Z4ktL/glphjYV0K\n" ++
  "9KiP4Efi7KpnwXMoNDPECEdUCfS3gV5yfJiH048q22pgDPo5o0UwQzASBgNVHRMB\n" ++
  "Af8ECDAGAQH/AgEAMA4GA1UdDwEB/wQEAwIBhjAdBgNVHQ4EFgQUF1EB1cHelpcV\n" ++
  "VfV9XztsVh4eieEwCgYIKoZIzj0EAwIDSAAwRQIhAMEWtxug2oeogURDrohTmKjs\n" ++
  "lm0uwbnSqBjBT7OiOL7XAiA0ZP4tf7Tvk6XtjUfLW8rnxFMjPublzDHkeYI7fU2L\n" ++
  "Hg==\n" ++
  "-----END CERTIFICATE-----\n"

def editedDigest : Bytes :=
  [96, 174, 180, 250, 116, 235, 223, 142, 169, 4, 135, 240, 45, 220, 134, 53, 219, 95, 180, 74,
   112, 237, 64, 151, 99, 113, 173, 202, 189, 211, 107, 127]

def editedCert : X509Certificate := { rootCert with verifiesItself := false }

def editedMetadata : CaMetadata where
  formatVersion := 1
  fingerprintSha256 := "60aeb4fa74ebdf8ea90487f02ddc8635db5fb44a70ed40976371adcabdd36b7f"
  subjectDisplay := "CN=CA"
  issuerDisplay := "CN=CA"
  notBeforeRfc3339 := "2026-11-19T10:59:45Z"
  notAfterRfc3339 := "2027-11-19T10:59:45Z"
  createdAtRfc3339 := "2026-11-20T08:00:00Z"
  origin := .imported
  keyAlgorithm := "ECDSA-P256-SHA256"
  certFilename := "ca-cert.pem"

@[irreducible] def editedJson : String :=
  "\x7b\n  \"format_version\": 1,\n" ++
  "  \"fingerprint_sha256\": " ++
  "\"60aeb4fa74ebdf8ea90487f02ddc8635db5fb44a70ed40976371adcabdd36b7f\",\n" ++
  "  \"subject_display\": \"CN=CA\",\n  \"issuer_display\": \"CN=CA\",\n" ++
  "  \"not_before_rfc3339\": \"2026-11-19T10:59:45Z\",\n" ++
  "  \"not_after_rfc3339\": \"2027-11-19T10:59:45Z\",\n" ++
  "  \"created_at_rfc3339\": \"2026-11-20T08:00:00Z\",\n" ++
  "  \"origin\": \"imported\",\n  \"key_algorithm\": \"ECDSA-P256-SHA256\",\n" ++
  "  \"cert_filename\": \"ca-cert.pem\"\n\x7d"

/-- Libraries that know the root, the edited root and the key of both. -/
def editedLibraries : Libraries String Bytes :=
  { rootLibraries with
    fromCaCertDer := fun der => if der = editedDer ∨ der = rootDer then some rootParams else none
    fromDer := fun der =>
      if der = editedDer then some editedCert else if der = rootDer then some rootCert else none
    parseIdentityPem := fun certPem keyPem =>
      if keyPem ≠ utf8 rootKeyPem.toList then .error .invalidKey
      else if certPem = utf8 editedPem.toList then .ok [editedDer]
      else if certPem = utf8 rootPem.toList then .ok [rootDer]
      else .error .invalidKey
    pemCertificates := fun text =>
      if text = editedPem then [some editedDer] else if text = rootPem then [some rootDer] else []
    sha256 := fun der =>
      if der = editedDer then editedDigest else if der = rootDer then rootDigest else []
    fromStr := fun text =>
      if text = editedJson then .ok editedMetadata
      else if text = rootJson then .ok rootMetadata
      else .error "expected value at line 1 column 1" }

/-- Both certificates hold the public key of the one private key. -/
def rootPairs (certDer : Bytes) (keyPair : String) : Prop :=
  (certDer = rootDer ∨ certDer = editedDer) ∧ keyPair = rootKeyPem

def editedWorld : World :=
  filled rootStart.state (utf8 editedPem.toList) (utf8 rootKeyPem.toList) editedJson

def editedContents : Contents String where
  metadata := editedMetadata
  certPem := utf8 editedPem.toList
  keyPem := utf8 rootKeyPem.toList
  certDer := editedDer
  keyPair := rootKeyPem
  cert := editedCert

theorem editedPem_short : (utf8 editedPem.toList).length ≤ maxPemFileBytes := by
  rw [editedPem]
  repeat rw [length_utf8_append]
  decide

theorem editedJson_short : (utf8 editedJson.toList).length ≤ maxMetadataBytes := by
  rw [editedJson]
  repeat rw [length_utf8_append]
  decide

theorem editedDer_fingerprint :
    editedLibraries.fingerprintHex editedDer = editedMetadata.fingerprintSha256 := by
  have hdigest : editedLibraries.sha256 editedDer = editedDigest := by
    simp only [editedLibraries, ↓reduceIte]
  rw [Libraries.fingerprintHex, hdigest]
  decide +kernel

theorem edited_presented : Presented editedLibraries editedWorld editedContents where
  permissions := (permitted_eq_ok rfl lookup_caFolder_key).mpr (by decide)
  metadata := by
    refine ⟨utf8 editedJson.toList,
      (bounded_published rfl lookup_caFolder_metadata).mpr ⟨editedJson_short, rfl⟩, ?_⟩
    have hparsed : editedLibraries.fromStr editedJson = .ok editedMetadata := by
      simp only [editedLibraries, ↓reduceIte]
    rw [parseMetadata, fromUtf8_utf8, orFail, ok_bind, hparsed]
    decide
  certPem := (bounded_published rfl lookup_caFolder_cert).mpr ⟨editedPem_short, rfl⟩
  keyPem := (bounded_published rfl lookup_caFolder_key).mpr ⟨rootKeyPem_short, rfl⟩
  single := by
    have hcerts : editedLibraries.pemCertificates editedPem = [some editedDer] := by
      simp only [editedLibraries, ↓reduceIte]
    refine ⟨editedDer, ?_, editedDer_fingerprint⟩
    rw [singleCertDerBytes, editedContents, fromUtf8_utf8, orFail, ok_bind, singleCertDer, hcerts]
    rfl
  identity := by
    have hparsed : editedLibraries.parseIdentityPem (utf8 editedPem.toList)
        (utf8 rootKeyPem.toList) = .ok [editedDer] := by
      simp only [editedLibraries, ne_eq, not_true_eq_false, ↓reduceIte]
    rw [parseIdentity, editedContents, ensure_of_true editedPem_short, ok_bind,
      ensure_of_true rootKeyPem_short, ok_bind, hparsed]
    rfl
  fingerprint := editedDer_fingerprint
  keyPair := rootKeyPem_read
  loads := by
    refine ⟨rootParams, rootDer, ?_, ?_⟩
    · simp only [editedLibraries, editedContents, true_or, ↓reduceIte]
    · simp only [editedLibraries, rootLibraries, editedContents, and_self, ↓reduceIte]
  cert := by
    simp only [editedLibraries, editedContents, ↓reduceIte]

/-- The directory opens though the signature of its certificate does not verify. -/
theorem edited_signature_opens : ¬OpensValid editedLibraries rootPairs editedWorld := by
  intro hvalid
  obtain ⟨hroot, -⟩ := unchecked_of_opensValid hvalid edited_presented
  have hverifies : editedCert.verifiesItself = true := hroot.verifies
  cases hverifies

theorem rootLibraries_paired (certPem keyPem certDer : Bytes) (rest : List Bytes)
    (keyPair : String) (hparsed : rootLibraries.parseIdentityPem certPem keyPem =
      .ok (certDer :: rest)) (hkey : rcgenKeyPair rootLibraries keyPem = .ok keyPair) :
    rootPairs certDer keyPair := by
  simp only [rootLibraries] at hparsed
  split at hparsed
  · rename_i hknown
    obtain ⟨rfl, -⟩ := List.cons.inj (Except.ok.inj hparsed)
    rw [hknown.2, rootKeyPem_read] at hkey
    exact ⟨.inl rfl, (Except.ok.inj hkey).symm⟩
  · cases hparsed

/-- The directory as an import publishes it. -/
theorem published_policyValid_iff :
    OpensValid rootLibraries rootPairs
        (filled rootStart.state (utf8 rootPem.toList) (utf8 rootKeyPem.toList) rootJson) ↔
      ∀ contents, Presented rootLibraries
        (filled rootStart.state (utf8 rootPem.toList) (utf8 rootKeyPem.toList) rootJson) contents →
          Unchecked rootLibraries contents :=
  open_policyValid_iff rootLibraries_paired _

end EggReplay.Intercept.CaReopening
