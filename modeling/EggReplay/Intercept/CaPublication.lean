import EggReplay.Intercept.CaAuthorities

/-!
Publishing a CA directory while any call of the file system may fail: what is left behind where
creating or importing a CA fails, and what can be opened where it succeeds.
-/

namespace EggReplay.Intercept.CaPublication

open EggReplay.Intercept.CaAuthorities
open EggReplay.Intercept.Leaves (second)
open EggReplay.Library.Checks
open EggReplay.Library.FaultyCalls
open EggReplay.Library.Stateful
open EggReplay.Library.Text

variable {Key Certificate : Type} {fails : Nat → Bool} {libraries : Libraries Key Certificate}
  {path : Path} {limit : Nat} {what name : String} {world : World} {bytes : Bytes}
  {mode : UInt32}

/-! ### What the calls that only look at the files give -/

def bounded (path : Path) (limit : Nat) (what : String) (world : World) :
    Except CaError Bytes := do
  let bytes ← orFail (world.file path) (.io what)
  ensure (bytes.length ≤ limit) (.tooLarge what)
  pure bytes

def permitted (world : World) : Except CaError Unit := do
  let dirMode ← directoryMode world
  ensure (dirMode = caDirMode) (.insecurePermissions "directory" dirMode)
  let keyMode ← keyFileMode world
  ensure (keyMode = caKeyMode) (.insecurePermissions "private key" keyMode)

def inspected (libraries : Libraries Key Certificate) (world : World) :
    Except CaError CaMetadata := do
  isDirectory world
  let raw ← bounded (.published caMetadataFilename) maxMetadataBytes "metadata" world
  let metadata ← parseMetadata libraries raw
  let certPem ← bounded (.published caCertFilename) maxPemFileBytes "certificate" world
  let certDer ← singleCertDerBytes libraries certPem
  ensure (libraries.fingerprintHex certDer = metadata.fingerprintSha256) .fingerprintMismatch
  pure metadata

/-- What opening the directory gives where no call fails. -/
def reopened (libraries : Libraries Key Certificate) (world : World) :
    Except CaError (CaAuthority Key Certificate) := do
  isDirectory world
  let metadata ← inspected libraries world
  permitted world
  let certPem ← bounded (.published caCertFilename) maxPemFileBytes "certificate" world
  let keyPem ← bounded (.published caKeyFilename) maxPemFileBytes "private key" world
  assemble libraries metadata certPem keyPem

theorem orFail_eq_ok_iff {α : Type} {value : Option α} {error : CaError} {a : α} :
    orFail value error = .ok a ↔ value = some a := by
  cases value <;> simp [orFail]

theorem readBounded_looks :
    Looks fails 3 (readBounded fails path limit what) (bounded path limit what) := by
  unfold readBounded
  apply Looks.congr (looks_call.bind fun len => looks_ofExcept.bind fun _ =>
    looks_call.bind fun file => looks_call.bind fun bytes => looks_ofExcept.bind fun _ =>
      looks_pure)
  intro world bytes
  cases hfile : world.file path with
  | none => simp [bounded, hfile, orFail, Except.map]
  | some file =>
      simp only [bounded, hfile, orFail, Except.map, ok_bind, bind_unit_eq_ok, ensure_eq_ok,
        pure_eq_ok, Except.ok.injEq]
      constructor
      · rintro ⟨hlength, htaken, rfl⟩
        exact ⟨hlength, (List.take_of_length_le (by omega)).symm⟩
      · rintro ⟨hlength, rfl⟩
        have htaken : file.take (limit + 1) = file := List.take_of_length_le (by omega)
        rw [htaken]
        exact ⟨hlength, hlength, rfl⟩

theorem checkPermissions_looks : Looks fails 2 (checkPermissions fails) permitted :=
  looks_call.bind fun _ => looks_ofExcept.bind fun _ => looks_call.bind fun _ => looks_ofExcept

theorem inspectCa_looks : Looks fails 7 (inspectCa fails libraries) (inspected libraries) :=
  looks_call.bind fun _ => readBounded_looks.bind fun _ => looks_ofExcept.bind fun _ =>
    readBounded_looks.bind fun _ => looks_ofExcept.bind fun _ => looks_ofExcept.bind fun _ =>
      looks_pure

theorem open_looks :
    Looks fails 16 (CaAuthority.open fails libraries) (reopened libraries) :=
  looks_call.bind fun _ => inspectCa_looks.bind fun _ => checkPermissions_looks.bind fun _ =>
    readBounded_looks.bind fun _ => readBounded_looks.bind fun _ => looks_ofExcept

/-! ### Staging and claiming the directory -/

def written (name : String) (bytes : Bytes) (mode : UInt32) (world : World) :
    Except CaError (Unit × World) :=
  stage world fun folder => do
    ensure (name ∉ folder) (.io "stage file")
    pure (folder.insert name { bytes, mode := mode &&& ~~~world.umask })

theorem writeStagedFile_computes :
    Computes fails 3 (writeStagedFile fails name bytes mode) (written name bytes mode) := by
  apply Computes.congr
    (computes_call.bind fun _ => computes_call.bind fun _ => computes_call)
  rintro world ⟨⟩ next
  cases hstaging : world.staging with
  | none => simp [written, stage, hstaging, orFail]
  | some folder =>
      by_cases hname : name ∈ folder
      · simp [written, stage, hstaging, orFail, hname]
      · simp [written, stage, hstaging, orFail, hname, looking, Except.map, AList.insert_insert]

/-- The files of a CA as they are written. -/
def caFolder (umask : UInt32) (certPem keyPem : Bytes) (metadataJson : String) : Folder :=
  ((AList.insert caCertFilename { bytes := certPem, mode := caPublicMode &&& ~~~umask }
    (∅ : Folder)).insert caMetadataFilename
      { bytes := utf8 metadataJson.toList, mode := caPublicMode &&& ~~~umask }).insert
        caKeyFilename { bytes := keyPem, mode := caKeyMode &&& ~~~umask }

variable {certPem keyPem : Bytes} {metadataJson : String} {s next : Counted World}

theorem written_of_staging {folder : Folder} (hstaging : world.staging = some folder)
    (hname : name ∉ folder) :
    written name bytes mode world =
      .ok ((), { world with
        staging := some (folder.insert name { bytes, mode := mode &&& ~~~world.umask }) }) := by
  simp [written, stage, hstaging, orFail, hname, Pure.pure, Except.pure]

/-- The world in which the directory is claimed and its files are staged. -/
def claimed (world : World) (certPem keyPem : Bytes) (metadataJson : String) : World where
  sources := world.sources
  parent := world.parent
  umask := world.umask
  staging := some (caFolder world.umask certPem keyPem metadataJson)
  lingers := world.lingers
  target := some (.directory (0o777 &&& ~~~world.umask) ∅)

/-- Everything of publishing up to the creation of the directory, after the checks. -/
def claim (fails : Nat → Bool) (certPem keyPem : Bytes) (metadataJson : String) : Fs Unit :=
  makeStaging fails >>= fun _ => stageFiles fails certPem keyPem metadataJson >>= fun _ =>
    createDir fails

theorem claim_eq_ok (habsent : s.state.target = none) :
    claim fails certPem keyPem metadataJson s = (.ok (), next) ↔
      Unfailing fails s.calls 11 ∧
        next = { state := claimed s.state certPem keyPem metadataJson
                 calls := s.calls + 11 } := by
  have hclaim : Computes fails 11 (claim fails certPem keyPem metadataJson) _ :=
    computes_call.bind fun _ => Computes.bind (writeStagedFile_computes.bind fun _ =>
      writeStagedFile_computes.bind fun _ => writeStagedFile_computes) fun _ => computes_call
  have hmetadata : ∀ file, caMetadataFilename ∉ AList.insert caCertFilename file (∅ : Folder) := by
    intro file
    simp only [AList.mem_insert, AList.notMem_empty, or_false]
    decide
  have hkey : ∀ file file', caKeyFilename ∉
      (AList.insert caCertFilename file (∅ : Folder)).insert caMetadataFilename file' := by
    intro file file'
    simp only [AList.mem_insert, AList.notMem_empty, or_false]
    decide
  rw [hclaim s () next]
  rw [ok_bind, written_of_staging rfl (AList.notMem_empty _), ok_bind,
    written_of_staging rfl (hmetadata _), ok_bind, written_of_staging rfl (hkey _ _), ok_bind]
  simp only [habsent]
  obtain ⟨state, calls⟩ := next
  simp [claimed, caFolder, eq_comm]

/-! ### Filling the directory -/

@[simp] theorem lookup_caFolder_cert {umask : UInt32} :
    (caFolder umask certPem keyPem metadataJson).lookup caCertFilename =
      some { bytes := certPem, mode := caPublicMode &&& ~~~umask } := by
  rw [caFolder, AList.lookup_insert_ne (by decide), AList.lookup_insert_ne (by decide),
    AList.lookup_insert]

@[simp] theorem lookup_caFolder_metadata {umask : UInt32} :
    (caFolder umask certPem keyPem metadataJson).lookup caMetadataFilename =
      some { bytes := utf8 metadataJson.toList, mode := caPublicMode &&& ~~~umask } := by
  rw [caFolder, AList.lookup_insert_ne (by decide), AList.lookup_insert]

@[simp] theorem lookup_caFolder_key {umask : UInt32} :
    (caFolder umask certPem keyPem metadataJson).lookup caKeyFilename =
      some { bytes := keyPem, mode := caKeyMode &&& ~~~umask } := by
  rw [caFolder, AList.lookup_insert]

/-- The world in which the files have been moved into the directory. -/
def filled (world : World) (certPem keyPem : Bytes) (metadataJson : String) : World where
  sources := world.sources
  parent := world.parent
  umask := world.umask
  staging := some
    (((caFolder world.umask certPem keyPem metadataJson).erase caCertFilename).erase
      caMetadataFilename |>.erase caKeyFilename)
  lingers := world.lingers
  target := some (.directory caDirMode (caFolder world.umask certPem keyPem metadataJson))

/-- The umask takes nothing from the mode of the key. -/
def KeyModeKept (umask : UInt32) : Prop := caKeyMode &&& ~~~umask &&& 0o777 = caKeyMode

theorem permitted_eq_ok {folder : Folder}
    (htarget : world.target = some (.directory caDirMode folder)) {file : File}
    (hkey : folder.lookup caKeyFilename = some file) :
    permitted world = .ok () ↔ file.mode &&& 0o777 = caKeyMode := by
  have hmode : caDirMode &&& 0o777 = caDirMode := by decide
  simp [permitted, directoryMode, keyFileMode, htarget, hkey, hmode, orFail, Except.map]

theorem fillDir_eq_ok {calls : Nat} :
    fillDir fails { state := claimed world certPem keyPem metadataJson, calls } =
        (.ok (), next) ↔
      Unfailing fails calls 6 ∧ KeyModeKept world.umask ∧
        next = { state := filled world certPem keyPem metadataJson, calls := calls + 6 } := by
  have hfill : Computes fails 6 (fillDir fails) _ :=
    computes_call.bind fun _ => computes_call.bind fun _ => computes_call.bind fun _ =>
      computes_call.bind fun _ => checkPermissions_looks
  have hmetadata : ((caFolder world.umask certPem keyPem metadataJson).erase
      caCertFilename).lookup caMetadataFilename = _ :=
    (AList.lookup_erase_ne (by decide)).trans lookup_caFolder_metadata
  have hkey : (((caFolder world.umask certPem keyPem metadataJson).erase caCertFilename).erase
      caMetadataFilename).lookup caKeyFilename = _ :=
    (AList.lookup_erase_ne (by decide)).trans
      ((AList.lookup_erase_ne (by decide)).trans lookup_caFolder_key)
  rw [hfill _ () next]
  simp only [claimed, Option.bind_some, lookup_caFolder_cert, ok_bind, Option.map_some,
    hmetadata, hkey, looking_eq_ok]
  obtain ⟨state, count⟩ := next
  change _ ∧ (permitted (filled world certPem keyPem metadataJson) = .ok () ∧
    state = filled world certPem keyPem metadataJson) ∧ count = calls + 6 ↔ _
  rw [permitted_eq_ok rfl lookup_caFolder_key]
  simp [KeyModeKept, and_assoc]

/-! ### Opening what was published -/

/-- What the checks of `open` ask of what was published, once the metadata reads back. -/
structure Reopenable (libraries : Libraries Key Certificate) (certPem keyPem : Bytes)
    (metadataJson : String) : Prop where
  metadata_short : (utf8 metadataJson.toList).length ≤ maxMetadataBytes
  assembles : ∃ der certDer keyPair params issuer cert,
    singleCertDerBytes libraries certPem = .ok der ∧
      parseIdentity libraries certPem keyPem = .ok [certDer] ∧
      libraries.fingerprintHex certDer = libraries.fingerprintHex der ∧
      rcgenKeyPair libraries keyPem = .ok keyPair ∧
      libraries.fromCaCertDer certDer = some params ∧
      libraries.selfSigned params keyPair = some issuer ∧
      libraries.fromDer certDer = some cert

/-- Metadata that is written as JSON reads back. -/
def ReadsBack (libraries : Libraries Key Certificate) : Prop :=
  ∀ metadata text, libraries.toStringPretty metadata = some text →
    libraries.fromStr text = .ok metadata

theorem fromUtf8_utf8 (text : String) : fromUtf8 (utf8 text.toList) = some text := by
  simp [fromUtf8, decodeUtf8_utf8]

theorem bounded_published {mode : UInt32} {folder : Folder} {file : File}
    (htarget : world.target = some (.directory mode folder))
    (hfile : folder.lookup name = some file) :
    bounded (.published name) limit what world = .ok bytes ↔
      file.bytes.length ≤ limit ∧ file.bytes = bytes := by
  simp [bounded, World.file, htarget, hfile, orFail]

theorem bounded_source {source : String} (hsource : world.sources source = some bytes)
    (hshort : bytes.length ≤ limit) : bounded (.source source) limit what world = .ok bytes := by
  simp [bounded, World.file, hsource, orFail, hshort]

variable {metadata bound : CaMetadata} {ca : CaAuthority Key Certificate}

theorem parseIdentity_short {certs : List Bytes}
    (h : parseIdentity libraries certPem keyPem = .ok certs) :
    certPem.length ≤ maxPemFileBytes ∧ keyPem.length ≤ maxPemFileBytes := by
  simp only [parseIdentity, bind_unit_eq_ok, ensure_eq_ok] at h
  exact ⟨h.1, h.2.1⟩

theorem assemble_eq_ok :
    (∃ ca, assemble libraries metadata certPem keyPem = .ok ca) ↔
      ∃ certDer keyPair params issuer cert,
        parseIdentity libraries certPem keyPem = .ok [certDer] ∧
          libraries.fingerprintHex certDer = metadata.fingerprintSha256 ∧
          rcgenKeyPair libraries keyPem = .ok keyPair ∧
          libraries.fromCaCertDer certDer = some params ∧
          libraries.selfSigned params keyPair = some issuer ∧
          libraries.fromDer certDer = some cert := by
  constructor
  · rintro ⟨ca, h⟩
    obtain ⟨certs, hcerts, h⟩ := bind_eq_ok.mp h
    match certs, hcerts, h with
    | [certDer], hcerts, h =>
        simp only [ensure_eq_ok, bind_eq_ok, orFail_eq_ok_iff, validityWindow] at h
        obtain ⟨-, hfingerprint, keyPair, hkey, params, hparams, issuer, hissuer, window,
          ⟨cert, hcert, -⟩, -⟩ := h
        exact ⟨certDer, keyPair, params, issuer, cert, hcerts, hfingerprint, hkey, hparams,
          hissuer, hcert⟩
  · rintro ⟨certDer, keyPair, params, issuer, cert, hcerts, hfingerprint, hkey, hparams, hissuer,
      hcert⟩
    refine ⟨{ metadata, certDer, certPem, keyPair, issuer, notBefore := cert.notBefore,
              notAfter := cert.notAfter }, ?_⟩
    rw [assemble, hcerts, ok_bind]
    dsimp only
    rw [ensure_of_true hfingerprint, ok_bind, hkey, ok_bind, hparams, orFail, ok_bind, hissuer,
      orFail, ok_bind, validityWindow, hcert, orFail, ok_bind]
    rfl

theorem bindMetadata_eq_ok :
    bindMetadata libraries certPem metadata = .ok metadataJson ↔
      ∃ der, singleCertDerBytes libraries certPem = .ok der ∧
        libraries.toStringPretty
          { metadata with fingerprintSha256 := libraries.fingerprintHex der } =
            some metadataJson := by
  simp only [bindMetadata, bind_eq_ok, orFail_eq_ok_iff]

section

variable {der : Bytes} (hreads : ReadsBack libraries)
  (hvalid : validateMetadata metadata = .ok ())
  (hder : singleCertDerBytes libraries certPem = .ok der)
  (hjson : libraries.toStringPretty
    { metadata with fingerprintSha256 := libraries.fingerprintHex der } = some metadataJson)

include hreads hvalid hjson in
theorem parseMetadata_written :
    parseMetadata libraries (utf8 metadataJson.toList) =
      .ok { metadata with fingerprintSha256 := libraries.fingerprintHex der } := by
  have hbound : validateMetadata
      { metadata with fingerprintSha256 := libraries.fingerprintHex der } = .ok () := hvalid
  rw [parseMetadata, fromUtf8_utf8, orFail, ok_bind, hreads _ _ hjson, Except.mapError, ok_bind,
    hbound, ok_bind]
  rfl

include hreads hvalid hder hjson in
theorem inspected_filled :
    inspected libraries (filled world certPem keyPem metadataJson) = .ok bound ↔
      (utf8 metadataJson.toList).length ≤ maxMetadataBytes ∧ certPem.length ≤ maxPemFileBytes ∧
        { metadata with fingerprintSha256 := libraries.fingerprintHex der } = bound := by
  have htarget : (filled world certPem keyPem metadataJson).target = some _ := rfl
  have hdirectory : isDirectory (filled world certPem keyPem metadataJson) = .ok () := rfl
  simp only [inspected, hdirectory, ok_bind, bind_eq_ok,
    bounded_published htarget lookup_caFolder_metadata,
    bounded_published htarget lookup_caFolder_cert]
  constructor
  · rintro ⟨raw, ⟨hshort, rfl⟩, read, hread, pem, ⟨hpem, rfl⟩, der', hder', -, hfingerprint, h⟩
    rw [parseMetadata_written hreads hvalid hjson] at hread
    obtain rfl := Except.ok.inj hread
    exact ⟨hshort, hpem, pure_eq_ok.mp h⟩
  · rintro ⟨hshort, hpem, rfl⟩
    exact ⟨_, ⟨hshort, rfl⟩, _, parseMetadata_written hreads hvalid hjson, certPem, ⟨hpem, rfl⟩,
      der, hder, (), ensure_of_true rfl, rfl⟩

include hreads hvalid hder hjson in
/-- The metadata that is written passes the checks of `open`, so what they ask is about the
certificate and the key. -/
theorem reopened_filled (hmode : KeyModeKept world.umask) :
    (∃ ca, reopened libraries (filled world certPem keyPem metadataJson) = .ok ca) ↔
      Reopenable libraries certPem keyPem metadataJson := by
  have htarget : (filled world certPem keyPem metadataJson).target = some _ := rfl
  have hdirectory : isDirectory (filled world certPem keyPem metadataJson) = .ok () := rfl
  have hpermitted : permitted (filled world certPem keyPem metadataJson) = .ok () :=
    (permitted_eq_ok htarget lookup_caFolder_key).mpr hmode
  simp only [reopened, hdirectory, hpermitted, ok_bind, bind_eq_ok,
    inspected_filled hreads hvalid hder hjson, bounded_published htarget lookup_caFolder_cert,
    bounded_published htarget lookup_caFolder_key]
  constructor
  · rintro ⟨ca, read, ⟨hshort, -, rfl⟩, pem, ⟨-, rfl⟩, key, ⟨-, rfl⟩, hassemble⟩
    obtain ⟨certDer, keyPair, params, issuer, cert, hcerts, hfingerprint, hrest⟩ :=
      assemble_eq_ok.mp ⟨ca, hassemble⟩
    exact ⟨hshort, der, certDer, keyPair, params, issuer, cert, hder, hcerts, hfingerprint,
      hrest⟩
  · rintro ⟨hshort, der', certDer, keyPair, params, issuer, cert, hder', hcerts, hfingerprint,
      hrest⟩
    obtain rfl : der' = der := Except.ok.inj (hder'.symm.trans hder)
    obtain ⟨hpem, hkey⟩ := parseIdentity_short hcerts
    obtain ⟨ca, hassemble⟩ : ∃ ca, assemble libraries
        { metadata with fingerprintSha256 := libraries.fingerprintHex der' } certPem keyPem =
          .ok ca :=
      assemble_eq_ok.mpr ⟨certDer, keyPair, params, issuer, cert, hcerts, hfingerprint, hrest⟩
    exact ⟨ca, _, ⟨hshort, hpem, rfl⟩, certPem, ⟨hpem, rfl⟩, keyPem, ⟨hkey, rfl⟩, hassemble⟩

end

/-! ### What is left of the directory -/

theorem dropStaging_target : (dropStaging world).target = world.target := by
  unfold dropStaging
  split <;> rfl

theorem reopened_dropStaging :
    reopened libraries (dropStaging world) = reopened libraries world := by
  unfold dropStaging
  split <;> rfl

theorem stage_keeps {edit : Folder → Except CaError Folder} {a : Unit} {next : World}
    (h : stage world edit = .ok (a, next)) : next.target = world.target := by
  simp only [stage, bind_eq_ok, pure_eq_ok, Prod.mk.injEq] at h
  obtain ⟨folder, -, after, -, -, rfl⟩ := h
  rfl

theorem makeStaging_keeps : Keeps World.target (makeStaging fails) := by
  apply keeps_call
  intro world a next h
  obtain ⟨-, rfl⟩ := Prod.mk.inj (Except.ok.inj h)
  rfl

theorem writeStagedFile_keeps : Keeps World.target (writeStagedFile fails name bytes mode) := by
  refine Keeps.bind ?_ fun _ => Keeps.bind ?_ fun _ => keeps_call_looking
  · exact keeps_call fun world a next h => stage_keeps h
  · exact keeps_call fun world a next h => stage_keeps h

theorem stageFiles_keeps :
    Keeps World.target (stageFiles fails certPem keyPem metadataJson) :=
  writeStagedFile_keeps.bind fun _ => writeStagedFile_keeps.bind fun _ => writeStagedFile_keeps

theorem readBounded_keeps {ρ : Type} {view : World → ρ} :
    Keeps view (readBounded fails path limit what) :=
  keeps_call_looking.bind fun _ => keeps_ofExcept.bind fun _ => keeps_call_looking.bind fun _ =>
    keeps_call_looking.bind fun _ => keeps_ofExcept.bind fun _ => keeps_pure

theorem checkPermissions_keeps {ρ : Type} {view : World → ρ} :
    Keeps view (checkPermissions fails) :=
  keeps_call_looking.bind fun _ => keeps_ofExcept.bind fun _ => keeps_call_looking.bind fun _ =>
    keeps_ofExcept

theorem open_keeps {ρ : Type} {view : World → ρ} :
    Keeps view (CaAuthority.open fails libraries) :=
  keeps_call_looking.bind fun _ =>
    (keeps_call_looking.bind fun _ => readBounded_keeps.bind fun _ => keeps_ofExcept.bind fun _ =>
      readBounded_keeps.bind fun _ => keeps_ofExcept.bind fun _ => keeps_ofExcept.bind fun _ =>
        keeps_pure).bind fun _ =>
    checkPermissions_keeps.bind fun _ => readBounded_keeps.bind fun _ =>
      readBounded_keeps.bind fun _ => keeps_ofExcept

theorem fillDir_keeps : Keeps (fun world => world.target.isSome) (fillDir fails) := by
  have hpublish : ∀ name, Keeps (fun world => world.target.isSome) (publishFile fails name) := by
    intro name
    apply keeps_call
    intro world a next h
    split at h
    · rename_i mode files file htarget hfile
      obtain ⟨-, rfl⟩ := Prod.mk.inj (Except.ok.inj h)
      rw [htarget]
      rfl
    · cases h
  have hmode : Keeps (fun world => world.target.isSome) (setPermissions fails caDirMode) := by
    apply keeps_call
    intro world a next h
    split at h
    · rename_i mode files htarget
      obtain ⟨-, rfl⟩ := Prod.mk.inj (Except.ok.inj h)
      rw [htarget]
      rfl
    · cases h
  exact (hpublish _).bind fun _ => (hpublish _).bind fun _ => (hpublish _).bind fun _ =>
    hmode.bind fun _ => checkPermissions_keeps

def release (s : Counted World) : Counted World := { s with state := dropStaging s.state }

theorem release_target : (release s).state.target = s.state.target := dropStaging_target

theorem claim_steps {last : Counted World}
    (h : claim fails certPem keyPem metadataJson s = (.ok (), last)) :
    ∃ staged written, makeStaging fails s = (.ok (), staged) ∧
      stageFiles fails certPem keyPem metadataJson staged = (.ok (), written) ∧
        createDir fails written = (.ok (), last) := by
  obtain ⟨⟨⟩, staged, hstaging, h⟩ := Op.bind_eq_ok.mp h
  obtain ⟨⟨⟩, written, hwritten, hcreated⟩ := Op.bind_eq_ok.mp h
  exact ⟨staged, written, hstaging, hwritten, hcreated⟩

section

variable {parent : String} (hparent : s.state.parent = some parent)
  (hbind : bindMetadata libraries certPem metadata = .ok metadataJson)

include hparent hbind in
theorem publishCaDir_of_bound :
    publishCaDir fails libraries certPem keyPem metadata s =
      (makeStaging fails >>= fun _ =>
        (stageFiles fails certPem keyPem metadataJson >>= fun _ => createDir fails >>= fun _ =>
          fillDir fails).onFailure release >>= fun _ => Op.modify release) s := by
  have hpeek : peek (fun world => orFail world.parent (CaError.io "stage directory")) s =
      (.ok parent, s) := by
    rw [peek, hparent]
    rfl
  have hmetadata : (Op.ofExcept (bindMetadata libraries certPem metadata) : Fs String) s =
      (.ok metadataJson, s) := by
    rw [hbind]
    rfl
  rw [publishCaDir, Op.bind_of_ok hpeek, Op.bind_of_ok hmetadata]
  rfl

include hparent hbind in
/-- Once the directory is there, what follows decides. -/
theorem publishCaDir_of_claimed (habsent : s.state.target = none)
    (hunfailing : Unfailing fails s.calls 11) :
    publishCaDir fails libraries certPem keyPem metadata s =
      ((fillDir fails).onFailure release >>= fun _ => Op.modify release)
        { state := claimed s.state certPem keyPem metadataJson, calls := s.calls + 11 } := by
  obtain ⟨staged, written, hstaging, hwritten, hcreated⟩ :=
    claim_steps ((claim_eq_ok habsent).mpr ⟨hunfailing, rfl⟩)
  have hbody : (stageFiles fails certPem keyPem metadataJson >>= fun _ =>
      createDir fails >>= fun _ => fillDir fails) staged = fillDir fails _ :=
    (Op.bind_of_ok hwritten).trans (Op.bind_of_ok hcreated)
  rw [publishCaDir_of_bound hparent hbind, Op.bind_of_ok hstaging]
  exact Op.bind_of_eq (Op.onFailure_of_eq hbody)

include hparent hbind in
/-- Until the directory is there, a failing call leaves nothing at its place. -/
theorem publishCaDir_of_failing (habsent : s.state.target = none)
    (hfailing : ¬Unfailing fails s.calls 11) :
    ∃ e after, publishCaDir fails libraries certPem keyPem metadata s = (.error e, after) ∧
      after.state.target = none := by
  rw [publishCaDir_of_bound hparent hbind]
  have hstaged : (makeStaging fails s).2.state.target = s.state.target := makeStaging_keeps s
  rcases hstaging : makeStaging fails s with ⟨e | ⟨⟩, staged⟩
  · rw [hstaging] at hstaged
    exact ⟨e, staged, Op.bind_of_error hstaging, hstaged.trans habsent⟩
  rw [hstaging] at hstaged
  rw [Op.bind_of_ok hstaging]
  have hwrites : (stageFiles fails certPem keyPem metadataJson staged).2.state.target =
      staged.state.target := stageFiles_keeps staged
  rcases hwritten : stageFiles fails certPem keyPem metadataJson staged with ⟨e | ⟨⟩, written⟩
  · rw [hwritten] at hwrites
    refine ⟨e, release written,
      Op.bind_of_error (Op.onFailure_of_error (Op.bind_of_error hwritten)), ?_⟩
    rw [release_target]
    exact hwrites.trans (hstaged.trans habsent)
  rw [hwritten] at hwrites
  rcases hcreated : createDir fails written with ⟨e | ⟨⟩, last⟩
  · refine ⟨e, release last, Op.bind_of_error (Op.onFailure_of_error
      ((Op.bind_of_ok hwritten).trans (Op.bind_of_error hcreated))), ?_⟩
    rw [release_target, call_error hcreated]
    exact hwrites.trans (hstaged.trans habsent)
  · have hclaim : claim fails certPem keyPem metadataJson s = (.ok (), last) :=
      (Op.bind_of_ok hstaging).trans ((Op.bind_of_ok hwritten).trans hcreated)
    exact absurd ((claim_eq_ok habsent).mp hclaim).1 hfailing

end

theorem publishCaDir_of_unbound (habsent : s.state.target = none)
    (hunbound : ∀ parent metadataJson, s.state.parent = some parent →
      bindMetadata libraries certPem metadata ≠ .ok metadataJson) :
    ∃ e after, publishCaDir fails libraries certPem keyPem metadata s = (.error e, after) ∧
      after.state.target = none := by
  cases hparent : s.state.parent with
  | none =>
      have hpeek : peek (fun world => orFail world.parent (CaError.io "stage directory")) s =
          (.error (.io "stage directory"), s) := by
        rw [peek, hparent]
        rfl
      exact ⟨_, s, Op.bind_of_error hpeek, habsent⟩
  | some parent =>
      have hpeek : peek (fun world => orFail world.parent (CaError.io "stage directory")) s =
          (.ok parent, s) := by
        rw [peek, hparent]
        rfl
      cases hbind : bindMetadata libraries certPem metadata with
      | ok metadataJson => exact absurd hbind (hunbound parent metadataJson hparent)
      | error e =>
          have hmetadata : (Op.ofExcept (bindMetadata libraries certPem metadata) : Fs String) s =
              (.error e, s) := by
            rw [hbind]
            rfl
          exact ⟨e, s, (Op.bind_of_ok hpeek).trans (Op.bind_of_error hmetadata), habsent⟩

/-! ### From the creation of the directory to its opening -/

def finish (fails : Nat → Bool) (libraries : Libraries Key Certificate) :
    Fs (CaAuthority Key Certificate) :=
  (fillDir fails).onFailure release >>= fun _ => Op.modify release >>= fun _ =>
    CaAuthority.open fails libraries

theorem finish_target (hclaimed : s.state.target.isSome = true) :
    (finish fails libraries s).2.state.target.isSome = true := by
  have hfill : (fillDir fails s).2.state.target.isSome = s.state.target.isSome := fillDir_keeps s
  rcases hfilled : fillDir fails s with ⟨e | ⟨⟩, next⟩
  · rw [hfilled] at hfill
    rw [finish, Op.bind_of_error (Op.onFailure_of_error hfilled), release_target]
    exact hfill.trans hclaimed
  · rw [hfilled] at hfill
    rw [finish, Op.bind_of_ok (Op.onFailure_eq_ok.mpr hfilled)]
    have hopen : (CaAuthority.open fails libraries (release next)).2.state.target =
        (release next).state.target := open_keeps (release next)
    have hkept : ((Op.modify release >>= fun _ => CaAuthority.open fails libraries : Fs _)
        next).2.state.target = next.state.target := hopen.trans release_target
    rw [hkept]
    exact hfill.trans hclaimed

theorem finish_eq_ok {calls : Nat} (hreads : ReadsBack libraries)
    (hvalid : validateMetadata metadata = .ok ())
    (hbind : bindMetadata libraries certPem metadata = .ok metadataJson) :
    (∃ ca after, finish fails libraries
        { state := claimed world certPem keyPem metadataJson, calls } = (.ok ca, after)) ↔
      Unfailing fails calls 22 ∧ KeyModeKept world.umask ∧
        Reopenable libraries certPem keyPem metadataJson := by
  obtain ⟨der, hder, hjson⟩ := bindMetadata_eq_ok.mp hbind
  have hsplit : Unfailing fails calls (6 + 16) ↔
      Unfailing fails calls 6 ∧ Unfailing fails (calls + 6) 16 := unfailing_add
  change _ ↔ Unfailing fails calls (6 + 16) ∧ _
  rw [hsplit]
  constructor
  · rintro ⟨ca, after, h⟩
    obtain ⟨⟨⟩, next, hfilled, h⟩ := Op.bind_eq_ok.mp h
    obtain ⟨hunfailing, hmode, rfl⟩ := fillDir_eq_ok.mp (Op.onFailure_eq_ok.mp hfilled)
    obtain ⟨⟨⟩, released, hreleased, h⟩ := Op.bind_eq_ok.mp h
    obtain rfl : release _ = released := (Prod.mk.inj hreleased).2
    obtain ⟨hunfailing', hopened, -⟩ := open_looks.eq_ok.mp h
    rw [release, reopened_dropStaging] at hopened
    exact ⟨⟨hunfailing, hunfailing'⟩, hmode,
      (reopened_filled hreads hvalid hder hjson hmode).mp ⟨ca, hopened⟩⟩
  · rintro ⟨⟨hunfailing, hunfailing'⟩, hmode, hreopenable⟩
    obtain ⟨ca, hopened⟩ := (reopened_filled hreads hvalid hder hjson hmode).mpr hreopenable
    have hfilled : fillDir fails { state := claimed world certPem keyPem metadataJson, calls } =
        (.ok (), _) := fillDir_eq_ok.mpr ⟨hunfailing, hmode, rfl⟩
    rw [finish, Op.bind_of_ok (Op.onFailure_eq_ok.mpr hfilled)]
    refine ⟨ca, _, open_looks.eq_ok.mpr ⟨hunfailing', ?_, rfl⟩⟩
    rw [release, reopened_dropStaging]
    exact hopened

/-! ### Creating and importing -/

inductive CaRequest where
  | create (options : CaOptions)
  | importFiles (certSrc keySrc : String)

def CaRequest.run (fails : Nat → Bool) (libraries : Libraries Key Certificate)
    (process : Process Key) : CaRequest → Fs (CaAuthority Key Certificate)
  | .create options => CaAuthority.createNew fails libraries process options
  | .importFiles certSrc keySrc => CaAuthority.import fails libraries process certSrc keySrc

/-- What passes the checks that are made before anything is published. -/
def CaRequest.admitted (libraries : Libraries Key Certificate) (process : Process Key)
    (world : World) : CaRequest → Except CaError Material
  | .create options => do
      options.validate
      generateCa libraries process options
  | .importFiles certSrc keySrc => do
      let certPem ← bounded (.source certSrc) maxPemFileBytes "certificate" world
      let keyPem ← bounded (.source keySrc) maxPemFileBytes "private key" world
      importMaterial libraries process certPem keyPem

/-- How many calls read the operator's files. -/
def CaRequest.readCalls : CaRequest → Nat
  | .create _ => 0
  | .importFiles _ _ => 6

/-- What comes before publishing. -/
def CaRequest.prepare (fails : Nat → Bool) (libraries : Libraries Key Certificate)
    (process : Process Key) : CaRequest → Fs Material
  | .create options =>
      Op.ofExcept options.validate >>= fun _ => targetExists fails >>= fun found =>
        Op.ofExcept (ensure (found = false) .alreadyExists) >>= fun _ =>
          Op.ofExcept (generateCa libraries process options)
  | .importFiles certSrc keySrc =>
      targetExists fails >>= fun found =>
        Op.ofExcept (ensure (found = false) .alreadyExists) >>= fun _ =>
          readBounded fails (.source certSrc) maxPemFileBytes "certificate" >>= fun certPem =>
            readBounded fails (.source keySrc) maxPemFileBytes "private key" >>= fun keyPem =>
              Op.ofExcept (importMaterial libraries process certPem keyPem)

variable {request : CaRequest} {process : Process Key} {material : Material}

theorem CaRequest.run_eq :
    request.run fails libraries process =
      request.prepare fails libraries process >>= fun material =>
        publishCaDir fails libraries material.certPem material.keyPem material.metadata >>=
          fun _ => CaAuthority.open fails libraries := by
  cases request with
  | create options =>
      simp only [CaRequest.run, CaRequest.prepare, CaAuthority.createNew, Op.bind_assoc]
  | importFiles certSrc keySrc =>
      simp only [CaRequest.run, CaRequest.prepare, CaAuthority.import, Op.bind_assoc]

theorem targetExists_of_absent (habsent : s.state.target = none) :
    targetExists fails s = (.ok false, { s with calls := s.calls + 1 }) := by
  simp [targetExists, habsent]

theorem CaRequest.prepare_keeps {ρ : Type} {view : World → ρ} :
    Keeps view (request.prepare fails libraries process) := by
  have hexists : Keeps view (targetExists fails) := fun _ => rfl
  cases request with
  | create options =>
      exact keeps_ofExcept.bind fun _ => hexists.bind fun _ => keeps_ofExcept.bind fun _ =>
        keeps_ofExcept
  | importFiles certSrc keySrc =>
      exact hexists.bind fun _ => keeps_ofExcept.bind fun _ => readBounded_keeps.bind fun _ =>
        readBounded_keeps.bind fun _ => keeps_ofExcept

theorem CaRequest.prepare_eq_ok (habsent : s.state.target = none) :
    request.prepare fails libraries process s = (.ok material, next) ↔
      Unfailing fails (s.calls + 1) request.readCalls ∧
        request.admitted libraries process s.state = .ok material ∧
        next = { s with calls := s.calls + 1 + request.readCalls } := by
  have hexists : targetExists fails s = (.ok false, _) := targetExists_of_absent habsent
  cases request with
  | create options =>
      rcases hoptions : options.validate with e | ⟨⟩
      · have hrejected : (Op.ofExcept options.validate : Fs Unit) s = (.error e, s) := by
          rw [hoptions]
          rfl
        rw [CaRequest.prepare, Op.bind_of_error hrejected]
        simp [CaRequest.admitted, hoptions]
      · have hpassed : (Op.ofExcept options.validate : Fs Unit) s = (.ok (), s) := by
          rw [hoptions]
          rfl
        have hrest : Looks fails 0
            ((Op.ofExcept (ensure (false = false) CaError.alreadyExists) : Fs Unit) >>= fun _ =>
              Op.ofExcept (generateCa libraries process options)) _ :=
          looks_ofExcept.bind fun _ => looks_ofExcept
        rw [CaRequest.prepare, Op.bind_of_ok hpassed, Op.bind_of_ok hexists, hrest.eq_ok]
        simp [CaRequest.admitted, CaRequest.readCalls, hoptions]
  | importFiles certSrc keySrc =>
      have hrest : Looks fails 6
          (Op.ofExcept (ensure (false = false) CaError.alreadyExists) >>= fun _ =>
            readBounded fails (.source certSrc) maxPemFileBytes "certificate" >>= fun certPem =>
              readBounded fails (.source keySrc) maxPemFileBytes "private key" >>= fun keyPem =>
                Op.ofExcept (importMaterial libraries process certPem keyPem)) _ :=
        looks_ofExcept.bind fun _ => readBounded_looks.bind fun _ =>
          readBounded_looks.bind fun _ => looks_ofExcept
      rw [CaRequest.prepare, Op.bind_of_ok hexists, hrest.eq_ok]
      simp [CaRequest.admitted, CaRequest.readCalls]

theorem admitted_of_validated {certSrc keySrc : String} {der : Bytes} {keyPair : Key}
    {validated : ValidatedCa}
    (hcert : bounded (.source certSrc) maxPemFileBytes "certificate" world = .ok certPem)
    (hkey : bounded (.source keySrc) maxPemFileBytes "private key" world = .ok keyPem)
    (hidentity : parseIdentity libraries certPem keyPem = .ok [der])
    (hpair : rcgenKeyPair libraries keyPem = .ok keyPair)
    (hvalidated : parseAndValidateCa libraries der (some process.validatedAt) = .ok validated) :
    (CaRequest.importFiles certSrc keySrc).admitted libraries process world =
      .ok { certPem, keyPem,
            metadata := buildMetadata libraries validated .imported process.recordedAt } := by
  rw [CaRequest.admitted, hcert, ok_bind, hkey, ok_bind, importMaterial, validateImportCandidate,
    hidentity, ok_bind]
  dsimp only
  rw [hpair, ok_bind, hvalidated]
  rfl

theorem CaRequest.admitted_valid
    (h : request.admitted libraries process world = .ok material) :
    validateMetadata material.metadata = .ok () := by
  have hbuilt : ∀ validated origin now,
      validateMetadata (buildMetadata libraries validated origin now) = .ok () := by
    intro validated origin now
    rfl
  cases request with
  | create options =>
      simp only [CaRequest.admitted, generateCa, bind_eq_ok, pure_eq_ok] at h
      obtain ⟨-, -, keyPair, -, -, -, notAfter, -, issuer, -, validated, -, rfl⟩ := h
      exact hbuilt _ _ _
  | importFiles certSrc keySrc =>
      simp only [CaRequest.admitted, importMaterial, bind_eq_ok, pure_eq_ok] at h
      obtain ⟨certPem, -, keyPem, -, validated, -, rfl⟩ := h
      exact hbuilt _ _ _

/-! ### All or nothing -/

/-- A failure leaves nothing where nothing was, and after a success the directory opens with the
same certificate. -/
structure AllOrNothing (fails : Nat → Bool) (libraries : Libraries Key Certificate)
    (process : Process Key) (request : CaRequest) (start : Counted World) : Prop where
  nothing : ∀ e after, start.state.target = none →
    request.run fails libraries process start = (.error e, after) → after.state.target = none
  all : ∀ ca after, request.run fails libraries process start = (.ok ca, after) →
    ∃ again last, CaAuthority.open (fun _ => false) libraries after = (.ok again, last) ∧
      again.certDer = ca.certDer ∧ again.certPem = ca.certPem

/-- Where the material passes its checks, a call up to the creation of the directory fails, or
none of those that follow does and what they publish passes the checks of `open`. -/
def PublishesWhole (fails : Nat → Bool) (libraries : Libraries Key Certificate)
    (process : Process Key) (request : CaRequest) (start : Counted World) : Prop :=
  ∀ material parent metadataJson,
    request.admitted libraries process start.state = .ok material →
    start.state.parent = some parent →
    bindMetadata libraries material.certPem material.metadata = .ok metadataJson →
      ¬Unfailing fails (start.calls + 1) (request.readCalls + 11) ∨
        (Unfailing fails (start.calls + 1 + (request.readCalls + 11)) 22 ∧
          KeyModeKept start.state.umask ∧
          Reopenable libraries material.certPem material.keyPem metadataJson)

theorem run_opens {start after : Counted World}
    (h : request.run fails libraries process start = (.ok ca, after)) :
    ∃ last, CaAuthority.open (fun _ => false) libraries after = (.ok ca, last) := by
  rw [CaRequest.run_eq] at h
  obtain ⟨material, published, -, h⟩ := Op.bind_eq_ok.mp h
  obtain ⟨-, before, -, h⟩ := Op.bind_eq_ok.mp h
  obtain ⟨-, hopened, rfl⟩ := open_looks.eq_ok.mp h
  exact ⟨_, open_looks.eq_ok.mpr ⟨fun k hk => rfl, hopened, rfl⟩⟩

section

variable {start : Counted World} {parent : String}
  (hadmitted : request.admitted libraries process start.state = .ok material)
  (hparent : start.state.parent = some parent)
  (hbind : bindMetadata libraries material.certPem material.metadata = .ok metadataJson)

include hadmitted hparent hbind in
theorem run_of_claimed (habsent : start.state.target = none)
    (hunfailing : Unfailing fails (start.calls + 1) (request.readCalls + 11)) :
    request.run fails libraries process start =
      finish fails libraries
        { state := claimed start.state material.certPem material.keyPem metadataJson
          calls := start.calls + 1 + (request.readCalls + 11) } := by
  obtain ⟨hread, hclaim⟩ := unfailing_add.mp hunfailing
  have hprepared := (CaRequest.prepare_eq_ok habsent).mpr ⟨hread, hadmitted, rfl⟩
  have hpublished : publishCaDir fails libraries material.certPem material.keyPem
      material.metadata
        { state := start.state, calls := start.calls + 1 + request.readCalls } = _ :=
    publishCaDir_of_claimed hparent hbind habsent hclaim
  rw [CaRequest.run_eq, Op.bind_of_ok hprepared, Op.bind_of_eq hpublished, Op.bind_assoc,
    ← Nat.add_assoc (start.calls + 1)]
  rfl

end

/-- Unless the directory was claimed, a run fails and leaves its place as it was. -/
theorem run_of_unclaimed {start : Counted World} (habsent : start.state.target = none)
    (hunclaimed : ∀ material parent metadataJson,
      request.admitted libraries process start.state = .ok material →
      start.state.parent = some parent →
      bindMetadata libraries material.certPem material.metadata = .ok metadataJson →
        ¬Unfailing fails (start.calls + 1) (request.readCalls + 11)) :
    ∃ e after, request.run fails libraries process start = (.error e, after) ∧
      after.state.target = none := by
  have hkept : (request.prepare fails libraries process start).2.state.target =
      start.state.target := CaRequest.prepare_keeps start
  rw [CaRequest.run_eq]
  rcases hprepared : request.prepare fails libraries process start with ⟨e | material, next⟩
  · rw [hprepared] at hkept
    exact ⟨e, next, Op.bind_of_error hprepared, hkept.trans habsent⟩
  obtain ⟨hread, hadmitted, rfl⟩ := (CaRequest.prepare_eq_ok habsent).mp hprepared
  have hpublished : ∃ e after, publishCaDir fails libraries material.certPem material.keyPem
      material.metadata { state := start.state, calls := start.calls + 1 + request.readCalls } =
        (.error e, after) ∧ after.state.target = none := by
    by_cases hbound : ∃ parent metadataJson, start.state.parent = some parent ∧
        bindMetadata libraries material.certPem material.metadata = .ok metadataJson
    · obtain ⟨parent, metadataJson, hparent, hbind⟩ := hbound
      have hfailing := hunclaimed material parent metadataJson hadmitted hparent hbind
      rw [unfailing_add] at hfailing
      exact publishCaDir_of_failing hparent hbind habsent fun hclaim => hfailing ⟨hread, hclaim⟩
    · exact publishCaDir_of_unbound habsent fun parent metadataJson hparent hbind =>
        hbound ⟨parent, metadataJson, hparent, hbind⟩
  obtain ⟨e, after, hpublished, htarget⟩ := hpublished
  exact ⟨e, after, (Op.bind_of_ok hprepared).trans (Op.bind_of_error hpublished), htarget⟩

theorem publication_allOrNothing_iff (hreads : ReadsBack libraries) (start : Counted World) :
    AllOrNothing fails libraries process request start ↔
      start.state.target ≠ none ∨ PublishesWhole fails libraries process request start := by
  constructor
  · intro h
    by_cases habsent : start.state.target = none
    · refine .inr fun material parent metadataJson hadmitted hparent hbind => ?_
      by_cases hunfailing : Unfailing fails (start.calls + 1) (request.readCalls + 11)
      · right
        have hrun := run_of_claimed hadmitted hparent hbind habsent hunfailing
        rw [← finish_eq_ok hreads (CaRequest.admitted_valid hadmitted) hbind, ← hrun]
        -- a failure after the directory was claimed leaves it behind
        rcases hresult : request.run fails libraries process start with ⟨e | ca, after⟩
        · have hleft : (finish fails libraries
              { state := claimed start.state material.certPem material.keyPem metadataJson
                calls := start.calls + 1 + (request.readCalls + 11) }).2.state.target.isSome =
                true := finish_target rfl
          rw [← hrun, hresult, h.nothing e after habsent hresult] at hleft
          cases hleft
        · exact ⟨ca, after, rfl⟩
      · exact .inl hunfailing
    · exact .inl habsent
  · intro h
    refine ⟨fun e after habsent hresult => ?_, fun ca after hresult => ?_⟩
    · have hwhole : PublishesWhole fails libraries process request start :=
        h.resolve_left fun hpresent => hpresent habsent
      by_cases hclaimed : ∃ material parent metadataJson,
          request.admitted libraries process start.state = .ok material ∧
            start.state.parent = some parent ∧
            bindMetadata libraries material.certPem material.metadata = .ok metadataJson ∧
            Unfailing fails (start.calls + 1) (request.readCalls + 11)
      · obtain ⟨material, parent, metadataJson, hadmitted, hparent, hbind, hunfailing⟩ := hclaimed
        have hrest := (hwhole material parent metadataJson hadmitted hparent hbind).resolve_left
          fun hfailing => hfailing hunfailing
        obtain ⟨ca, last, hfinish⟩ :=
          (finish_eq_ok hreads (CaRequest.admitted_valid hadmitted) hbind).mpr hrest
        rw [run_of_claimed hadmitted hparent hbind habsent hunfailing, hfinish] at hresult
        cases hresult
      · obtain ⟨e', after', hrun, htarget⟩ := run_of_unclaimed habsent
          fun material parent metadataJson hadmitted hparent hbind hunfailing =>
            hclaimed ⟨material, parent, metadataJson, hadmitted, hparent, hbind, hunfailing⟩
        rw [hrun] at hresult
        rw [← (Prod.mk.inj hresult).2]
        exact htarget
    · obtain ⟨last, hopened⟩ := run_opens hresult
      exact ⟨ca, last, hopened, rfl, rfl⟩

/-! ### An operator's root -/

@[irreducible] def rootPem : String :=
  "-----BEGIN CERTIFICATE-----\n" ++
  "MIIBTTCB9KADAgECAgEBMAoGCCqGSM49BAMCMA0xCzAJBgNVBAMMAkNBMB4XDTI2\n" ++
  "MTExOTEwNTk0NVoXDTI3MTExOTEwNTk0NVowDTELMAkGA1UEAwwCQ0EwWTATBgcq\n" ++
  "hkjOPQIBBggqhkjOPQMBBwNCAATgT2YYpp7TMferUckajQay0Z4ktL/glphjYV0K\n" ++
  "9KiP4Efi7KpnwXMoNDPECEdUCfS3gV5yfJiH048q22pgDPo5o0UwQzASBgNVHRMB\n" ++
  "Af8ECDAGAQH/AgEAMA4GA1UdDwEB/wQEAwIBhjAdBgNVHQ4EFgQUF1EB1cHelpcV\n" ++
  "VfV9XztsVh4eieEwCgYIKoZIzj0EAwIDSAAwRQIhAMEWtxug2oeogURDrohTmKjs\n" ++
  "lm0uwbnSqBjBT7OiOL7XAiA0ZP4tf7Tvk6XtjUfLW8rnxFMjPublzDHkeYI7fU2L\n" ++
  "Hw==\n" ++
  "-----END CERTIFICATE-----\n"

@[irreducible] def rootKeyPem : String :=
  "-----BEGIN PRIVATE " ++ "KEY-----\n" ++
  "MIGHAgEAMBMGByqGSM49AgEGCCqGSM49AwEHBG0wawIBAQQgAfhyM1yZij8sD8i4\n" ++
  "bdTv7IQbOpFd0uvuMqQABdckMmihRANCAATgT2YYpp7TMferUckajQay0Z4ktL/g\n" ++
  "lphjYV0K9KiP4Efi7KpnwXMoNDPECEdUCfS3gV5yfJiH048q22pgDPo5\n" ++
  "-----END PRIVATE " ++ "KEY-----\n"

def rootDer : Bytes :=
  [48, 130, 1, 77, 48, 129, 244, 160, 3, 2, 1, 2, 2, 1, 1, 48, 10, 6, 8, 42, 134, 72, 206, 61, 4,
   3, 2, 48, 13, 49, 11, 48, 9, 6, 3, 85, 4, 3, 12, 2, 67, 65, 48, 30, 23, 13, 50, 54, 49, 49, 49,
   57, 49, 48, 53, 57, 52, 53, 90, 23, 13, 50, 55, 49, 49, 49, 57, 49, 48, 53, 57, 52, 53, 90, 48,
   13, 49, 11, 48, 9, 6, 3, 85, 4, 3, 12, 2, 67, 65, 48, 89, 48, 19, 6, 7, 42, 134, 72, 206, 61,
   2, 1, 6, 8, 42, 134, 72, 206, 61, 3, 1, 7, 3, 66, 0, 4, 224, 79, 102, 24, 166, 158, 211, 49,
   247, 171, 81, 201, 26, 141, 6, 178, 209, 158, 36, 180, 191, 224, 150, 152, 99, 97, 93, 10, 244,
   168, 143, 224, 71, 226, 236, 170, 103, 193, 115, 40, 52, 51, 196, 8, 71, 84, 9, 244, 183, 129,
   94, 114, 124, 152, 135, 211, 143, 42, 219, 106, 96, 12, 250, 57, 163, 69, 48, 67, 48, 18, 6, 3,
   85, 29, 19, 1, 1, 255, 4, 8, 48, 6, 1, 1, 255, 2, 1, 0, 48, 14, 6, 3, 85, 29, 15, 1, 1, 255, 4,
   4, 3, 2, 1, 134, 48, 29, 6, 3, 85, 29, 14, 4, 22, 4, 20, 23, 81, 1, 213, 193, 222, 150, 151,
   21, 85, 245, 125, 95, 59, 108, 86, 30, 30, 137, 225, 48, 10, 6, 8, 42, 134, 72, 206, 61, 4, 3,
   2, 3, 72, 0, 48, 69, 2, 33, 0, 193, 22, 183, 27, 160, 218, 135, 168, 129, 68, 67, 174, 136, 83,
   152, 168, 236, 150, 109, 46, 193, 185, 210, 168, 24, 193, 79, 179, 162, 56, 190, 215, 2, 32,
   52, 100, 254, 45, 127, 180, 239, 147, 165, 237, 141, 71, 203, 91, 202, 231, 196, 83, 35, 62,
   230, 229, 204, 49, 228, 121, 130, 59, 125, 77, 139, 31]

def rootDigest : Bytes :=
  [210, 4, 233, 14, 88, 21, 210, 189, 112, 13, 28, 248, 78, 34, 143, 238, 162, 233, 48, 91, 125,
   27, 71, 251, 129, 24, 67, 239, 156, 222, 64, 128]

def rootParams : CertificateParams where
  notBefore := 1795085985 * second
  notAfter := 1826621985 * second
  serialNumber := [1]
  commonName := "CA"
  caPathLength := some 0
  keyUsages := ["digitalSignature", "keyCertSign", "crlSign"]

def rootCert : X509Certificate where
  signatureAlgorithm := "1.2.840.10045.4.3.2"
  publicKeyAlgorithm := "1.2.840.10045.2.1"
  subject := "CN=CA"
  issuer := "CN=CA"
  subjectRaw := [48, 13, 49, 11, 48, 9, 6, 3, 85, 4, 3, 12, 2, 67, 65]
  issuerRaw := [48, 13, 49, 11, 48, 9, 6, 3, 85, 4, 3, 12, 2, 67, 65]
  notBefore := 1795085985 * second
  notAfter := 1826621985 * second
  basicConstraintsCa := some (some true)
  keyCertSign := some (some true)
  verifiesItself := true

def rootMetadata : CaMetadata where
  formatVersion := 1
  fingerprintSha256 := "d204e90e5815d2bd700d1cf84e228feea2e9305b7d1b47fb811843ef9cde4080"
  subjectDisplay := "CN=CA"
  issuerDisplay := "CN=CA"
  notBeforeRfc3339 := "2026-11-19T10:59:45Z"
  notAfterRfc3339 := "2027-11-19T10:59:45Z"
  createdAtRfc3339 := "2026-11-20T08:00:00Z"
  origin := .imported
  keyAlgorithm := "ECDSA-P256-SHA256"
  certFilename := "ca-cert.pem"

def rootJson : String :=
  "\x7b\n  \"format_version\": 1,\n" ++
  "  \"fingerprint_sha256\": " ++
  "\"d204e90e5815d2bd700d1cf84e228feea2e9305b7d1b47fb811843ef9cde4080\",\n" ++
  "  \"subject_display\": \"CN=CA\",\n  \"issuer_display\": \"CN=CA\",\n" ++
  "  \"not_before_rfc3339\": \"2026-11-19T10:59:45Z\",\n" ++
  "  \"not_after_rfc3339\": \"2027-11-19T10:59:45Z\",\n" ++
  "  \"created_at_rfc3339\": \"2026-11-20T08:00:00Z\",\n" ++
  "  \"origin\": \"imported\",\n  \"key_algorithm\": \"ECDSA-P256-SHA256\",\n" ++
  "  \"cert_filename\": \"ca-cert.pem\"\n\x7d"

/-- Libraries that know one root and its key. -/
def rootLibraries : Libraries String Bytes where
  isP256 _ := true
  serializePem key := key
  fromPem text := if text = rootKeyPem then some text else none
  selfSigned params key := if params = rootParams ∧ key = rootKeyPem then some rootDer else none
  certDer der := der
  certPem der := if der = rootDer then rootPem else ""
  fromCaCertDer der := if der = rootDer then some rootParams else none
  fromDer der := if der = rootDer then some rootCert else none
  parseIdentityPem certPem keyPem :=
    if certPem = utf8 rootPem.toList ∧ keyPem = utf8 rootKeyPem.toList then .ok [rootDer]
    else .error .invalidKey
  pemCertificates text := if text = rootPem then [some rootDer] else []
  sha256 der := if der = rootDer then rootDigest else []
  toStringPretty metadata := if metadata = rootMetadata then some rootJson else none
  fromStr text :=
    if text = rootJson then .ok rootMetadata else .error "expected value at line 1 column 1"
  toRfc3339 moment :=
    if moment = 1795085985 * second then some "2026-11-19T10:59:45Z"
    else if moment = 1826621985 * second then some "2027-11-19T10:59:45Z"
    else if moment = 1795161600 * second then some "2026-11-20T08:00:00Z"
    else none

theorem rootLibraries_readsBack : ReadsBack rootLibraries := by
  intro metadata text h
  simp only [rootLibraries] at h ⊢
  split at h
  · rename_i hmetadata
    cases h
    rw [if_pos rfl, hmetadata]
  · cases h

def rootProcess : Process String where
  generated := none
  serial := 0
  issuedAt := 1795161600 * second
  validatedAt := 1795161600 * second
  recordedAt := 1795161600 * second

def rootStart : Counted World where
  state :=
    { sources := fun path =>
        if path = "op.cert.pem" then some (utf8 rootPem.toList)
        else if path = "op.key.pem" then some (utf8 rootKeyPem.toList)
        else none
      parent := some "/etc/eggreplay"
      umask := 0o022
      staging := none
      lingers := false
      target := none }
  calls := 0

def rootImport : CaRequest := .importFiles "op.cert.pem" "op.key.pem"

def rootValidated : ValidatedCa where
  notBefore := rootCert.notBefore
  notAfter := rootCert.notAfter
  subjectDisplay := "CN=CA"
  issuerDisplay := "CN=CA"

def rootMaterial : Material where
  certPem := utf8 rootPem.toList
  keyPem := utf8 rootKeyPem.toList
  metadata := buildMetadata rootLibraries rootValidated .imported rootProcess.recordedAt

theorem rootKeyPem_read :
    rcgenKeyPair rootLibraries (utf8 rootKeyPem.toList) = .ok rootKeyPem := by
  rw [rcgenKeyPair, fromUtf8_utf8]
  decide +kernel

theorem length_utf8_append (a b : String) :
    (utf8 (a ++ b).toList).length = (utf8 a.toList).length + (utf8 b.toList).length := by
  rw [String.toList_append, utf8, List.flatMap_append, List.length_append]
  rfl

theorem rootPem_short : (utf8 rootPem.toList).length ≤ maxPemFileBytes := by
  -- the text line by line, so that only short lines are evaluated
  rw [rootPem]
  repeat rw [length_utf8_append]
  decide

theorem rootKeyPem_short : (utf8 rootKeyPem.toList).length ≤ maxPemFileBytes := by
  rw [rootKeyPem]
  repeat rw [length_utf8_append]
  decide

theorem rootPem_found :
    bounded (.source "op.cert.pem") maxPemFileBytes "certificate" rootStart.state =
      .ok (utf8 rootPem.toList) :=
  bounded_source rfl rootPem_short

theorem rootKeyPem_found :
    bounded (.source "op.key.pem") maxPemFileBytes "private key" rootStart.state =
      .ok (utf8 rootKeyPem.toList) :=
  bounded_source rfl rootKeyPem_short

theorem rootDer_paired :
    parseIdentity rootLibraries (utf8 rootPem.toList) (utf8 rootKeyPem.toList) =
      .ok [rootDer] := by
  have hparsed : rootLibraries.parseIdentityPem (utf8 rootPem.toList)
      (utf8 rootKeyPem.toList) = .ok [rootDer] := by
    unfold rootLibraries
    exact if_pos ⟨rfl, rfl⟩
  rw [parseIdentity, ensure_of_true rootPem_short, ok_bind, ensure_of_true rootKeyPem_short,
    ok_bind, hparsed]
  rfl

theorem rootDer_validated :
    parseAndValidateCa rootLibraries rootDer (some rootProcess.validatedAt) =
      .ok rootValidated := by
  decide +kernel

theorem rootImport_admitted :
    rootImport.admitted rootLibraries rootProcess rootStart.state = .ok rootMaterial :=
  admitted_of_validated rootPem_found rootKeyPem_found rootDer_paired rootKeyPem_read
    rootDer_validated

theorem rootMaterial_bound :
    bindMetadata rootLibraries rootMaterial.certPem rootMaterial.metadata = .ok rootJson := by
  have hder : singleCertDerBytes rootLibraries rootMaterial.certPem = .ok rootDer := by
    rw [singleCertDerBytes, rootMaterial, fromUtf8_utf8]
    decide +kernel
  rw [bindMetadata, hder, ok_bind]
  decide +kernel

/-- An import whose first rename fails leaves the empty directory behind. -/
theorem failed_import_left_behind :
    ¬AllOrNothing (fun position => decide (position = 18)) rootLibraries rootProcess rootImport
      rootStart := by
  intro h
  have hrun : rootImport.run (fun position => decide (position = 18)) rootLibraries rootProcess
      rootStart = _ :=
    run_of_claimed rootImport_admitted rfl rootMaterial_bound rfl fun k hk => by
      have hk' : k < 17 := hk
      have hne : ¬rootStart.calls + 1 + k = 18 := by
        show ¬0 + 1 + k = 18
        omega
      exact decide_eq_false hne
  have hrename : publishFile (fun position => decide (position = 18)) caCertFilename
      { state := claimed rootStart.state rootMaterial.certPem rootMaterial.keyPem rootJson
        calls := 18 } = (.error (.io "publish file"), _) := call_of_failing rfl
  have hfailed := hrun.trans (Op.bind_of_error (Op.onFailure_of_error (Op.bind_of_error hrename)))
  have hleft := h.nothing _ _ rfl hfailed
  rw [release_target] at hleft
  cases hleft

/-- The same import where no call fails. -/
theorem rootImport_allOrNothing_iff :
    AllOrNothing (fun _ => false) rootLibraries rootProcess rootImport rootStart ↔
      rootStart.state.target ≠ none ∨
        PublishesWhole (fun _ => false) rootLibraries rootProcess rootImport rootStart :=
  publication_allOrNothing_iff rootLibraries_readsBack rootStart

end EggReplay.Intercept.CaPublication
