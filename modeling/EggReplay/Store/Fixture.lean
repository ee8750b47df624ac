import EggReplay.Library.LineLog
import EggReplay.Core.WebSockets
import EggReplay.Core.Scenarios

/-!
The fixture directory as a value: its regular files, its `blobs` directory, and
the checks on blobs and body references that writers and readers share. The
hash and the decoders come from other crates and are parameters.
-/

namespace EggReplay.Store.Fixture

open EggReplay.Library.Checks
open EggReplay.Library.Text
open EggReplay.Core.FlowRecord
open EggReplay.Core.StreamTimeline
open EggReplay.Core.WebSockets
open EggReplay.Core.Scenarios

structure StoreLimits where
  maxLineBytes : Nat
  maxBlobBytes : Nat
  maxFlows : Nat
  maxTotalBytes : Nat
  deriving DecidableEq, Repr

def StoreLimits.default : StoreLimits where
  maxLineBytes := 4 * 1024 * 1024
  maxBlobBytes := 64 * 1024 * 1024
  maxFlows := 100000
  maxTotalBytes := 512 * 1024 * 1024

inductive StoreError where
  | io (message : String)
  | json (message : String)
  | invalid (message : String)
  | unsupportedSchema (version : Nat)
  | integrity (digest : String)
  deriving DecidableEq, Repr

def StoreError.display : StoreError → String
  | .io message => "filesystem: " ++ message
  | .json message => "invalid fixture JSON: " ++ message
  | .invalid message => "invalid fixture: " ++ message
  | .unsupportedSchema version => "unsupported fixture schema " ++ Nat.repr version
  | .integrity digest => "blob integrity failure for " ++ digest

def StoreError.ofFlowError (error : FlowError) : StoreError := .invalid error.display

structure ExtensionDescriptor where
  name : String
  schemaVersion : Nat
  path : String
  requiredForReplay : Bool
  deriving DecidableEq, Repr

structure Manifest where
  metadata : SessionMetadata
  complete : Bool
  flowCount : Nat
  blobCount : Nat
  extensions : List ExtensionDescriptor
  deriving DecidableEq, Repr

/-- `sha2` and `serde_json` as the store calls them. -/
structure Codec where
  sha256Hex : Bytes → String
  decodeFlow : Bytes → Except String Flow
  encodeManifest : Manifest → Bytes
  decodeManifest : Bytes → Except String Manifest
  decodeStreamEvents : Bytes → Except String StreamEvents
  decodeTranscript : Bytes → Except String WebSocketTranscript
  decodeRules : Bytes → Except String ScenarioRules

/-! ### Directories -/

/-- The name of an entry under `blobs`: a staging file by its unique suffix, or a
content-addressed blob. -/
inductive BlobName where
  | staging (suffix : Nat)
  | content (digest : String)
  | gitkeep
  deriving DecidableEq, Repr

structure Directory where
  files : String → Option Bytes
  blobs : List (BlobName × Bytes)

def Directory.blob? (root : Directory) (name : BlobName) : Option Bytes :=
  root.blobs.lookup name

/-- `OpenOptions::create_new` and the write of a whole file. -/
def Directory.createFile (root : Directory) (name : String) (bytes : Bytes) :
    Except StoreError Directory := do
  ensure (root.files name = none ∧ name ≠ "blobs") (.io "File exists")
  pure { root with files := Function.update root.files name (some bytes) }

def Directory.readFile (root : Directory) (name : String) : Except StoreError Bytes :=
  orFail (root.files name) (.io "No such file or directory")

def Directory.extendFile (root : Directory) (name : String) (bytes : Bytes) : Directory :=
  { root with
    files := Function.update root.files name (some ((root.files name).getD [] ++ bytes)) }

def Directory.createBlob (root : Directory) (name : BlobName) : Directory :=
  { root with blobs := (name, []) :: root.blobs }

def Directory.extendBlob (root : Directory) (name : BlobName) (bytes : Bytes) : Directory :=
  { root with
    blobs := root.blobs.map fun entry =>
      if entry.1 = name then (entry.1, entry.2 ++ bytes) else entry }

def Directory.removeBlob (root : Directory) (name : BlobName) : Directory :=
  { root with blobs := root.blobs.filter fun entry => entry.1 ≠ name }

def Directory.renameBlob (root : Directory) (name target : BlobName) : Directory :=
  { root with
    blobs := root.blobs.map fun entry =>
      if entry.1 = name then (target, entry.2) else entry }

/-- Every entry of `blobs` but the marker that keeps an empty directory. -/
def countBlobs (root : Directory) : Nat :=
  (root.blobs.filter fun entry => entry.1 ≠ .gitkeep).length

/-! ### Blobs and body references -/

def validateDigest (digest : String) : Except StoreError Unit :=
  ensure (digest.utf8ByteSize = 64 ∧ digest.toList.all isHexDigit = true ∧
      digest = toAsciiLowercase digest)
    (.invalid "invalid blob digest")

def verifyBlobFile (codec : Codec) (root : Directory) (blob : BlobRef)
    (maxBlobBytes : Nat) : Except StoreError Unit := do
  validateDigest blob.sha256
  ensure (blob.length ≤ maxBlobBytes) (.invalid "blob exceeds configured limit")
  let bytes ← orFail (root.blob? (.content blob.sha256)) (.io "No such file or directory")
  ensure (bytes.length = blob.length ∧ codec.sha256Hex bytes = blob.sha256)
    (.integrity blob.sha256)

/-- The request body, then the response body where the outcome has one. -/
def bodyRefs (flow : Flow) : List BodyRef :=
  flow.request.body :: match flow.outcome with
    | .response reply => [reply.body]
    | .error _ => []

def validateBodyRef (maxBlobBytes : Nat) : BodyRef → Except StoreError Unit
  | .blob blob => do
      validateDigest blob.sha256
      ensure (blob.length ≤ maxBlobBytes)
        (.invalid "body reference exceeds configured limit")
  | .absent | .empty => pure ()

def validateBodyRefs (flow : Flow) (maxBlobBytes : Nat) : Except StoreError Unit :=
  checkAll (validateBodyRef maxBlobBytes) (bodyRefs flow)

def validateBodyFile (codec : Codec) (root : Directory) (limits : StoreLimits) :
    BodyRef → Except StoreError Unit
  | .blob blob => verifyBlobFile codec root blob limits.maxBlobBytes
  | .absent | .empty => pure ()

def validateBodyFiles (codec : Codec) (root : Directory) (flow : Flow)
    (limits : StoreLimits) : Except StoreError Unit :=
  checkAll (validateBodyFile codec root limits) (bodyRefs flow)

/-- The 64-bit sum of the request and response body lengths. -/
def flowBodyBytes (flow : Flow) : Nat :=
  (flow.request.body.len.getD 0 + flow.outcome.responseLength) % 2 ^ 64

/-! ### Frame facts -/

@[simp] theorem createFile_eq_ok {root next : Directory} {name : String} {bytes : Bytes} :
    root.createFile name bytes = .ok next ↔
      (root.files name = none ∧ name ≠ "blobs") ∧
      { root with files := Function.update root.files name (some bytes) } = next := by
  simp [Directory.createFile]

@[simp] theorem readFile_eq_ok {root : Directory} {name : String} {bytes : Bytes} :
    root.readFile name = .ok bytes ↔ root.files name = some bytes := by
  simp [Directory.readFile]

@[simp] theorem extendFile_blobs (root : Directory) (name : String) (bytes : Bytes) :
    (root.extendFile name bytes).blobs = root.blobs := rfl

theorem extendFile_same {root : Directory} {name : String} {old bytes : Bytes}
    (h : root.files name = some old) :
    (root.extendFile name bytes).files name = some (old ++ bytes) := by
  simp [Directory.extendFile, h]

theorem extendFile_other {root : Directory} {name other : String} {bytes : Bytes}
    (h : other ≠ name) : (root.extendFile name bytes).files other = root.files other := by
  simp [Directory.extendFile, h]

@[simp] theorem createBlob_files (root : Directory) (name : BlobName) :
    (root.createBlob name).files = root.files := rfl

@[simp] theorem extendBlob_files (root : Directory) (name : BlobName) (bytes : Bytes) :
    (root.extendBlob name bytes).files = root.files := rfl

@[simp] theorem removeBlob_files (root : Directory) (name : BlobName) :
    (root.removeBlob name).files = root.files := rfl

@[simp] theorem renameBlob_files (root : Directory) (name target : BlobName) :
    (root.renameBlob name target).files = root.files := rfl

theorem blob?_congr {left right : Directory} (h : left.blobs = right.blobs) (name : BlobName) :
    left.blob? name = right.blob? name := by
  rw [Directory.blob?, Directory.blob?, h]

theorem verifyBlobFile_congr (codec : Codec) {left right : Directory}
    (h : ∀ digest, left.blob? (.content digest) = right.blob? (.content digest)) (blob : BlobRef)
    (maxBlobBytes : Nat) :
    verifyBlobFile codec left blob maxBlobBytes =
      verifyBlobFile codec right blob maxBlobBytes := by
  rw [verifyBlobFile, verifyBlobFile, h]

/-- Body checks read nothing but the published blobs. -/
theorem validateBodyFiles_congr (codec : Codec) {left right : Directory}
    (h : ∀ digest, left.blob? (.content digest) = right.blob? (.content digest)) (flow : Flow)
    (limits : StoreLimits) :
    validateBodyFiles codec left flow limits = validateBodyFiles codec right flow limits := by
  have hfile : validateBodyFile codec left limits = validateBodyFile codec right limits := by
    funext body
    rcases body with _ | _ | blob
    · rfl
    · rfl
    · exact verifyBlobFile_congr codec h blob limits.maxBlobBytes
  rw [validateBodyFiles, validateBodyFiles, hfile]

end EggReplay.Store.Fixture
