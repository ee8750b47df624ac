import EggReplay.Intercept.Leaves
import EggReplay.Library.FaultyCalls

/-!
The interception CA: its directory of three files, how a CA is created or imported into a new
directory, and how a directory is opened.
-/

namespace EggReplay.Intercept.CaAuthorities

open EggReplay.Intercept.Leaves (truncateToSeconds checkedAdd second toBeBytes)
open EggReplay.Library.Checks
open EggReplay.Library.FaultyCalls
open EggReplay.Library.Stateful
open EggReplay.Library.Text

def caFormatVersion : Nat := 1
def caCertFilename : String := "ca-cert.pem"
def caKeyFilename : String := "ca-key.pem"
def caMetadataFilename : String := "metadata.json"
def maxPemFileBytes : Nat := 64 * 1024
def maxMetadataBytes : Nat := 64 * 1024
def maxCaSubjectCnChars : Nat := 128
def minCaValidityDays : Nat := 31
def maxCaValidityDays : Nat := 1825
def caClockTolerance : Int := 5 * 60 * second
def caKeyAlgorithmId : String := "ECDSA-P256-SHA256"
def caDirMode : UInt32 := 0o700
def caKeyMode : UInt32 := 0o600
def caPublicMode : UInt32 := 0o644
def displayLen : Nat := 256
def detailLen : Nat := 200

inductive CaError where
  | alreadyExists
  | incomplete
  | io (step : String)
  | tooLarge (what : String)
  | invalidMetadata (detail : String)
  | unsupportedFormatVersion (version : Nat)
  | fingerprintMismatch
  | certUnparseable
  | keyUnparseable
  | multipleKeys
  | noKey
  | mismatch
  | unexpectedChain
  | notSelfSigned
  | badSignature
  | notCa
  | missingKeyCertSign
  | unsupportedAlgorithm
  | expired (notAfter : String)
  | notYetValid (notBefore : String)
  | insecurePermissions (target : String) (mode : UInt32)
  | certGeneration
  | signing
  | invalidOptions (detail : String)
  deriving DecidableEq

inductive CaOrigin where
  | created | imported
  deriving DecidableEq

structure CaMetadata where
  formatVersion : Nat
  fingerprintSha256 : String
  subjectDisplay : String
  issuerDisplay : String
  notBeforeRfc3339 : String
  notAfterRfc3339 : String
  createdAtRfc3339 : String
  origin : CaOrigin
  keyAlgorithm : String
  certFilename : String
  deriving DecidableEq

structure CaOptions where
  commonName : String := "EggReplay Interception CA"
  validityDays : Nat := 365

/-! ### What other libraries answer -/

inductive TlsError where
  | multiplePrivateKeysFound
  | noPrivateKeyFound
  | noCertificatesFound
  | certReadError
  | keyReadError
  | certFileNotFound
  | keyFileNotFound
  | invalidKey
  deriving DecidableEq

/-- Moments are in nanoseconds from the Unix epoch. -/
structure CertificateParams where
  notBefore : Int
  notAfter : Int
  serialNumber : Bytes
  commonName : String
  caPathLength : Option Nat
  keyUsages : List String
  deriving DecidableEq

/-- What the checks read of a parsed certificate; an extension that cannot be read is `none`. -/
structure X509Certificate where
  signatureAlgorithm : String
  publicKeyAlgorithm : String
  subject : String
  issuer : String
  subjectRaw : Bytes
  issuerRaw : Bytes
  notBefore : Int
  notAfter : Int
  basicConstraintsCa : Option (Option Bool)
  keyCertSign : Option (Option Bool)
  verifiesItself : Bool
  deriving DecidableEq

structure Libraries (Key Certificate : Type) where
  isP256 : Key → Bool
  serializePem : Key → String
  fromPem : String → Option Key
  selfSigned : CertificateParams → Key → Option Certificate
  certDer : Certificate → Bytes
  certPem : Certificate → String
  fromCaCertDer : Bytes → Option CertificateParams
  fromDer : Bytes → Option X509Certificate
  parseIdentityPem : Bytes → Bytes → Except TlsError (List Bytes)
  pemCertificates : String → List (Option Bytes)
  sha256 : Bytes → Bytes
  toStringPretty : CaMetadata → Option String
  fromStr : String → Except String CaMetadata
  toRfc3339 : Int → Option String

/-- What the process answers while a CA is established: a new key, a serial, and the clock each
time that it is read. -/
structure Process (Key : Type) where
  generated : Option Key
  serial : Nat
  issuedAt : Int
  validatedAt : Int
  recordedAt : Int

structure CaAuthority (Key Certificate : Type) where
  metadata : CaMetadata
  certDer : Bytes
  certPem : Bytes
  keyPair : Key
  issuer : Certificate
  notBefore : Int
  notAfter : Int

variable {Key Certificate : Type}

/-! ### Checks that touch no file -/

def fromUtf8 (bytes : Bytes) : Option String := (decodeUtf8 bytes).map String.ofList

def boundText (limit : Nat) (input : String) : String :=
  if input.utf8ByteSize ≤ limit then input
  else String.ofList (input.toList.take limit) ++ "..."

def boundDisplay (input : String) : String := boundText displayLen input
def boundDetail (input : String) : String := boundText detailLen input

def days (count : Nat) : Int := 86400 * second * count

def CaOptions.validate (options : CaOptions) : Except CaError Unit := do
  ensure (trim options.commonName ≠ "") (.invalidOptions "common name must not be empty")
  ensure (options.commonName.toList.length ≤ maxCaSubjectCnChars)
    (.invalidOptions "common name exceeds 128 characters")
  ensure (minCaValidityDays ≤ options.validityDays ∧ options.validityDays ≤ maxCaValidityDays)
    (.invalidOptions "validity must be 31..=1825 days")

def Libraries.fingerprintHex (libraries : Libraries Key Certificate) (der : Bytes) : String :=
  String.ofList ((libraries.sha256 der).flatMap hexByte)

def Libraries.rfc3339 (libraries : Libraries Key Certificate) (moment : Int) : String :=
  (libraries.toRfc3339 moment).getD "1970-01-01T00:00:00Z"

def translateTlsError : TlsError → CaError
  | .multiplePrivateKeysFound => .multipleKeys
  | .noPrivateKeyFound => .noKey
  | .noCertificatesFound | .certReadError | .keyReadError | .certFileNotFound
  | .keyFileNotFound => .certUnparseable
  | .invalidKey => .mismatch

/-- The certificates of an identity; the private key that comes with them is read by nobody. -/
def parseIdentity (libraries : Libraries Key Certificate) (certPem keyPem : Bytes) :
    Except CaError (List Bytes) := do
  ensure (certPem.length ≤ maxPemFileBytes) (.tooLarge "certificate")
  ensure (keyPem.length ≤ maxPemFileBytes) (.tooLarge "private key")
  (libraries.parseIdentityPem certPem keyPem).mapError translateTlsError

def rcgenKeyPair (libraries : Libraries Key Certificate) (keyPem : Bytes) :
    Except CaError Key := do
  let text ← orFail (fromUtf8 keyPem) .keyUnparseable
  let keyPair ← orFail (libraries.fromPem text) .keyUnparseable
  ensure (libraries.isP256 keyPair = true) .unsupportedAlgorithm
  pure keyPair

/-- The DER certificate where the text holds exactly one. -/
def singleCertDer (libraries : Libraries Key Certificate) (text : String) :
    Except CaError Bytes := do
  let certs ← orFail ((libraries.pemCertificates text).mapM id) .certUnparseable
  match certs with
  | [] => .error .certUnparseable
  | [der] => .ok der
  | _ :: _ :: _ => .error .unexpectedChain

def singleCertDerBytes (libraries : Libraries Key Certificate) (pem : Bytes) :
    Except CaError Bytes := do
  let text ← orFail (fromUtf8 pem) .certUnparseable
  singleCertDer libraries text

structure ValidatedCa where
  notBefore : Int
  notAfter : Int
  subjectDisplay : String
  issuerDisplay : String
  deriving DecidableEq

def checkValidity (libraries : Libraries Key Certificate) (notBefore notAfter now : Int) :
    Except CaError Unit := do
  ensure (notBefore - caClockTolerance ≤ now) (.notYetValid (libraries.rfc3339 notBefore))
  ensure (now ≤ notAfter + caClockTolerance) (.expired (libraries.rfc3339 notAfter))

/-- `now` is given where the validity is enforced. -/
def parseAndValidateCa (libraries : Libraries Key Certificate) (der : Bytes) (now : Option Int) :
    Except CaError ValidatedCa := do
  let cert ← orFail (libraries.fromDer der) .certUnparseable
  ensure (cert.signatureAlgorithm = "1.2.840.10045.4.3.2") .unsupportedAlgorithm
  ensure (cert.publicKeyAlgorithm = "1.2.840.10045.2.1") .unsupportedAlgorithm
  ensure (cert.subjectRaw = cert.issuerRaw) .notSelfSigned
  ensure (cert.notBefore < cert.notAfter) .certUnparseable
  let constraints ← orFail cert.basicConstraintsCa .certUnparseable
  ensure (constraints = some true) .notCa
  let usage ← orFail cert.keyCertSign .certUnparseable
  ensure (usage = some true) .missingKeyCertSign
  match now with
  | some now => checkValidity libraries cert.notBefore cert.notAfter now
  | none => pure ()
  ensure (cert.verifiesItself = true) .badSignature
  pure
    { notBefore := cert.notBefore
      notAfter := cert.notAfter
      subjectDisplay := boundDisplay cert.subject
      issuerDisplay := boundDisplay cert.issuer }

def validityWindow (libraries : Libraries Key Certificate) (der : Bytes) :
    Except CaError (Int × Int) := do
  let cert ← orFail (libraries.fromDer der) .certUnparseable
  pure (cert.notBefore, cert.notAfter)

def validateImportCandidate (libraries : Libraries Key Certificate) (certPem keyPem : Bytes)
    (now : Int) : Except CaError ValidatedCa := do
  let certs ← parseIdentity libraries certPem keyPem
  match certs with
  | [der] => do
      let _ ← rcgenKeyPair libraries keyPem
      parseAndValidateCa libraries der (some now)
  | _ => .error .unexpectedChain

/-- The fingerprint is filled in when the CA is published. -/
def buildMetadata (libraries : Libraries Key Certificate) (validated : ValidatedCa)
    (origin : CaOrigin) (now : Int) : CaMetadata where
  formatVersion := caFormatVersion
  fingerprintSha256 := ""
  subjectDisplay := validated.subjectDisplay
  issuerDisplay := validated.issuerDisplay
  notBeforeRfc3339 := libraries.rfc3339 validated.notBefore
  notAfterRfc3339 := libraries.rfc3339 validated.notAfter
  createdAtRfc3339 := libraries.rfc3339 (truncateToSeconds now)
  origin := origin
  keyAlgorithm := caKeyAlgorithmId
  certFilename := caCertFilename

/-! ### The file system -/

structure File where
  bytes : Bytes
  mode : UInt32
  deriving DecidableEq

abbrev Folder := AList fun _ : String => File

/-- What stands at the path of the CA directory. -/
inductive Node where
  | directory (mode : UInt32) (files : Folder)
  | other

/-- `parent` is that of the path of the CA directory, `staging` the temporary directory beside
it, which stays where it cannot be removed. -/
structure World where
  sources : String → Option Bytes
  parent : Option String
  umask : UInt32
  staging : Option Folder
  lingers : Bool
  target : Option Node

inductive Path where
  | source (path : String)
  | published (name : String)

def World.file (world : World) : Path → Option Bytes
  | .source path => world.sources path
  | .published name =>
      match world.target with
      | some (.directory _ files) => (files.lookup name).map File.bytes
      | _ => none

abbrev Fs (α : Type) := Op CaError (Counted World) α

variable (fails : Nat → Bool)

/-- `symlink_metadata(dir).is_ok()`, which a failure answers too. -/
def targetExists : Fs Bool := fun s =>
  (.ok (!fails s.calls && s.state.target.isSome), { s with calls := s.calls + 1 })

def isDirectory (world : World) : Except CaError Unit :=
  match world.target with
  | some (.directory _ _) => .ok ()
  | _ => .error .incomplete

def ensureDir : Fs Unit := call fails .incomplete (looking isDirectory)

def readBounded (path : Path) (limit : Nat) (what : String) : Fs Bytes := do
  let len ← call fails (.io what)
    (looking fun world => (orFail (world.file path) (.io what)).map List.length)
  Op.ofExcept (ensure (len ≤ limit) (.tooLarge what))
  let file ← call fails (.io what) (looking fun world => orFail (world.file path) (.io what))
  let bytes ← call fails (.io what) (looking fun _ => .ok (file.take (limit + 1)))
  Op.ofExcept (ensure (bytes.length ≤ limit) (.tooLarge what))
  pure bytes

def makeStaging : Fs Unit :=
  call fails (.io "stage directory") fun world => .ok ((), { world with staging := some ∅ })

/-- The staging directory goes out of scope; that it cannot be removed is no error. -/
def dropStaging (world : World) : World :=
  if world.lingers = true then world else { world with staging := none }

def stage (world : World) (edit : Folder → Except CaError Folder) :
    Except CaError (Unit × World) := do
  let folder ← orFail world.staging (.io "stage file")
  let next ← edit folder
  pure ((), { world with staging := some next })

def writeStagedFile (name : String) (bytes : Bytes) (mode : UInt32) : Fs Unit := do
  call fails (.io "stage file") fun world => stage world fun folder => do
    ensure (name ∉ folder) (.io "stage file")
    pure (folder.insert name { bytes := [], mode := mode &&& ~~~world.umask })
  call fails (.io "stage file") fun world => stage world fun folder => do
    let file ← orFail (folder.lookup name) (.io "stage file")
    pure (folder.insert name { file with bytes := bytes })
  call fails (.io "stage file") (looking fun _ => .ok ())

def createDir : Fs Unit :=
  call fails (.io "publish directory") fun world =>
    match world.target with
    | some _ => .error .alreadyExists
    | none => .ok ((), { world with target := some (.directory (0o777 &&& ~~~world.umask) ∅) })

def publishFile (name : String) : Fs Unit :=
  call fails (.io "publish file") fun world =>
    match world.target, world.staging.bind (·.lookup name) with
    | some (.directory mode files), some file =>
        .ok ((), { world with
          staging := world.staging.map (·.erase name)
          target := some (.directory mode (files.insert name file)) })
    | _, _ => .error (.io "publish file")

def setPermissions (mode : UInt32) : Fs Unit :=
  call fails (.io "publish directory") fun world =>
    match world.target with
    | some (.directory _ files) => .ok ((), { world with target := some (.directory mode files) })
    | _ => .error (.io "publish directory")

def directoryMode (world : World) : Except CaError UInt32 :=
  match world.target with
  | some (.directory mode _) => .ok (mode &&& 0o777)
  | _ => .error (.io "permissions")

def keyFileMode (world : World) : Except CaError UInt32 :=
  match world.target with
  | some (.directory _ files) =>
      (orFail (files.lookup caKeyFilename) (.io "permissions")).map fun file => file.mode &&& 0o777
  | _ => .error (.io "permissions")

def checkPermissions : Fs Unit := do
  let dirMode ← call fails (.io "permissions") (looking directoryMode)
  Op.ofExcept (ensure (dirMode = caDirMode) (.insecurePermissions "directory" dirMode))
  let keyMode ← call fails (.io "permissions") (looking keyFileMode)
  Op.ofExcept (ensure (keyMode = caKeyMode) (.insecurePermissions "private key" keyMode))

/-! ### Publishing and opening -/

variable (libraries : Libraries Key Certificate)

/-- The metadata as it is written, bound to the certificate that it is written with. -/
def bindMetadata (certPem : Bytes) (metadata : CaMetadata) : Except CaError String := do
  let der ← singleCertDerBytes libraries certPem
  orFail
    (libraries.toStringPretty
      { metadata with fingerprintSha256 := libraries.fingerprintHex der })
    (.io "metadata")

def stageFiles (certPem keyPem : Bytes) (metadataJson : String) : Fs Unit := do
  writeStagedFile fails caCertFilename certPem caPublicMode
  writeStagedFile fails caMetadataFilename (utf8 metadataJson.toList) caPublicMode
  writeStagedFile fails caKeyFilename keyPem caKeyMode

/-- What follows the creation of the directory. -/
def fillDir : Fs Unit := do
  publishFile fails caCertFilename
  publishFile fails caMetadataFilename
  publishFile fails caKeyFilename
  setPermissions fails caDirMode
  checkPermissions fails

def publishCaDir (certPem keyPem : Bytes) (metadata : CaMetadata) : Fs Unit := do
  let _ ← peek fun world => orFail world.parent (.io "stage directory")
  let metadataJson ← Op.ofExcept (bindMetadata libraries certPem metadata)
  makeStaging fails
  (do
    stageFiles fails certPem keyPem metadataJson
    createDir fails
    fillDir fails : Fs Unit).onFailure fun s => { s with state := dropStaging s.state }
  Op.modify fun s => { s with state := dropStaging s.state }

def validateMetadata (metadata : CaMetadata) : Except CaError Unit := do
  ensure (metadata.formatVersion = caFormatVersion)
    (.unsupportedFormatVersion metadata.formatVersion)
  ensure (metadata.certFilename = caCertFilename)
    (.invalidMetadata "unexpected certificate filename")
  ensure (metadata.keyAlgorithm = caKeyAlgorithmId) (.invalidMetadata "unexpected key algorithm")

def parseMetadata (raw : Bytes) : Except CaError CaMetadata := do
  let text ← orFail (fromUtf8 raw) (.invalidMetadata "metadata is not valid UTF-8")
  let metadata ← (libraries.fromStr text).mapError fun error =>
    .invalidMetadata (boundDetail error)
  validateMetadata metadata
  pure metadata

def inspectCa : Fs CaMetadata := do
  ensureDir fails
  let raw ← readBounded fails (.published caMetadataFilename) maxMetadataBytes "metadata"
  let metadata ← Op.ofExcept (parseMetadata libraries raw)
  let certPem ← readBounded fails (.published caCertFilename) maxPemFileBytes "certificate"
  let certDer ← Op.ofExcept (singleCertDerBytes libraries certPem)
  Op.ofExcept (ensure (libraries.fingerprintHex certDer = metadata.fingerprintSha256)
    .fingerprintMismatch)
  pure metadata

/-- The part of `open` that touches no file. -/
def assemble (metadata : CaMetadata) (certPem keyPem : Bytes) :
    Except CaError (CaAuthority Key Certificate) := do
  let certs ← parseIdentity libraries certPem keyPem
  match certs with
  | [certDer] => do
      ensure (libraries.fingerprintHex certDer = metadata.fingerprintSha256) .fingerprintMismatch
      let keyPair ← rcgenKeyPair libraries keyPem
      let issuerParams ← orFail (libraries.fromCaCertDer certDer) .signing
      let issuer ← orFail (libraries.selfSigned issuerParams keyPair) .signing
      let window ← validityWindow libraries certDer
      pure
        { metadata
          certDer
          certPem
          keyPair
          issuer
          notBefore := window.1
          notAfter := window.2 }
  | _ => .error .unexpectedChain

def CaAuthority.open : Fs (CaAuthority Key Certificate) := do
  ensureDir fails
  let metadata ← inspectCa fails libraries
  checkPermissions fails
  let certPem ← readBounded fails (.published caCertFilename) maxPemFileBytes "certificate"
  let keyPem ← readBounded fails (.published caKeyFilename) maxPemFileBytes "private key"
  Op.ofExcept (assemble libraries metadata certPem keyPem)

/-! ### Creating and importing -/

/-- What is published of a CA. -/
structure Material where
  certPem : Bytes
  keyPem : Bytes
  metadata : CaMetadata

def generateCa (process : Process Key) (options : CaOptions) : Except CaError Material := do
  let keyPair ← orFail process.generated .certGeneration
  ensure (libraries.isP256 keyPair = true) .unsupportedAlgorithm
  let now := truncateToSeconds process.issuedAt
  let notAfter ← orFail (checkedAdd now (days options.validityDays))
    (.invalidOptions "validity overflow")
  let params : CertificateParams :=
    { notBefore := now
      notAfter
      serialNumber := toBeBytes process.serial
      commonName := options.commonName
      caPathLength := some 0
      keyUsages := ["digitalSignature", "keyCertSign", "crlSign"] }
  let issuer ← orFail (libraries.selfSigned params keyPair) .certGeneration
  let validated ← parseAndValidateCa libraries (libraries.certDer issuer)
    (some process.validatedAt)
  pure
    { certPem := utf8 (libraries.certPem issuer).toList
      keyPem := utf8 (libraries.serializePem keyPair).toList
      metadata := buildMetadata libraries validated .created process.recordedAt }

def CaAuthority.createNew (process : Process Key) (options : CaOptions) :
    Fs (CaAuthority Key Certificate) := do
  Op.ofExcept options.validate
  let found ← targetExists fails
  Op.ofExcept (ensure (found = false) .alreadyExists)
  let material ← Op.ofExcept (generateCa libraries process options)
  publishCaDir fails libraries material.certPem material.keyPem material.metadata
  CaAuthority.open fails libraries

def importMaterial (process : Process Key) (certPem keyPem : Bytes) :
    Except CaError Material := do
  let validated ← validateImportCandidate libraries certPem keyPem process.validatedAt
  pure
    { certPem
      keyPem
      metadata := buildMetadata libraries validated .imported process.recordedAt }

def CaAuthority.import (process : Process Key) (certSrc keySrc : String) :
    Fs (CaAuthority Key Certificate) := do
  let found ← targetExists fails
  Op.ofExcept (ensure (found = false) .alreadyExists)
  let certPem ← readBounded fails (.source certSrc) maxPemFileBytes "certificate"
  let keyPem ← readBounded fails (.source keySrc) maxPemFileBytes "private key"
  let material ← Op.ofExcept (importMaterial libraries process certPem keyPem)
  publishCaDir fails libraries material.certPem material.keyPem material.metadata
  CaAuthority.open fails libraries

end EggReplay.Intercept.CaAuthorities
