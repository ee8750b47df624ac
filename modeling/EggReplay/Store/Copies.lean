import EggReplay.Store.Writer

/-!
Copying and merging opened sessions into a new one: the blob namespace entry by entry, the
flow records through the writer's own checks, and the extensions last.
-/

namespace EggReplay.Store.Copies

open EggReplay.Library.Checks
open EggReplay.Library.Text
open EggReplay.Core.FlowRecord
open EggReplay.Core.StreamTimeline
open EggReplay.Store.Fixture
open EggReplay.Store.SessionOpen
open EggReplay.Store.Staging
open EggReplay.Store.Writer

/-! ### Listing the blob directory -/

def BlobName.text : BlobName → String
  | .staging suffix => ".staging-" ++ Nat.repr suffix
  | .content digest => digest
  | .gitkeep => ".gitkeep"

/-- An entry of `blobs` as `read_dir` yields it: a regular file, or something else. -/
inductive BlobEntry where
  | file (name : BlobName) (bytes : Bytes)
  | other
  deriving DecidableEq, Repr

def BlobEntry.file? : BlobEntry → Option (BlobName × Bytes)
  | .file name bytes => some (name, bytes)
  | .other => none

/-- The entries are those of the directory's `blobs`, in the order of the file system. -/
structure Lists (root : Directory) (entries : List BlobEntry) : Prop where
  files : (entries.filterMap BlobEntry.file?).Perm root.blobs
  names : (root.blobs.map Prod.fst).Nodup
  marker : ∀ entry ∈ root.blobs, entry.1 ≠ .content ".gitkeep"
  directory : root.files "blobs" = none

/-! ### Reading the source -/

/-- The bytes behind the opened handle; their hash is not checked here. -/
def Session.openBlob (session : Session) (blob : BlobRef) : Except StoreError Bytes := do
  validateDigest blob.sha256
  ensure (blob.length ≤ session.limits.maxBlobBytes) (.invalid "blob exceeds configured limit")
  let bytes ← orFail (session.root.blob? (.content blob.sha256)) (.io "No such file or directory")
  ensure (bytes.length = blob.length) (.integrity blob.sha256)
  pure bytes

def Session.readExtension (session : Session) (name : String) :
    Except StoreError (Option Bytes) :=
  match findExtension session.manifest.extensions name with
  | none => pure none
  | some extension => do
      let bytes ← session.root.readFile extension.path
      ensure (bytes.length ≤ maxExtensionBytes) (.invalid "extension exceeds configured limit")
      pure (some bytes)

/-- What the flow iterator of the session yields. -/
def Session.flowItems (codec : Codec) (session : Session) :
    Except StoreError (List (Except StoreError Flow)) := do
  let iter ← session.iterFlows
  pure (iter.items codec)

/-! ### The blob namespace -/

/-- `io::copy` into a body writer, one write for each piece that was read. -/
def writePieces (root : Directory) (body : BodyWriter) (pieces : List Bytes) :
    Except StoreError (Directory × BodyWriter) :=
  checkFold (fun state piece => BodyWriter.write state.1 state.2 piece) (root, body) pieces

def isBlob (digest : String) : BodyRef → Prop
  | .blob copied => copied.sha256 = digest
  | .absent | .empty => False

instance (digest : String) : DecidablePred (isBlob digest)
  | .blob _ => inferInstanceAs (Decidable (_ = _))
  | .absent | .empty => inferInstanceAs (Decidable False)

def copyBlob (codec : Codec) (pieces : Bytes → List Bytes) (source : Session)
    (writer : SessionWriter) : BlobEntry → Except StoreError SessionWriter
  | .other => .error (.invalid "blob directory may contain only regular files")
  | .file name bytes =>
      if BlobName.text name = ".gitkeep" ∧ bytes = [] then pure writer
      else do
        let digest := BlobName.text name
        validateDigest digest
        let blob ← (BlobRef.new digest bytes.length).mapError StoreError.ofFlowError
        let content ← Session.openBlob source blob
        let begun := writer.beginBlob
        let copied ← writePieces begun.1.directory begun.2 (pieces content)
        let body ← copied.2.reference codec
        ensure (isBlob digest body) (.integrity digest)
        pure { begun.1 with directory := copied.2.publish codec copied.1 }

def copyBlobNamespace (codec : Codec) (pieces : Bytes → List Bytes) (entries : List BlobEntry)
    (source : Session) (writer : SessionWriter) : Except StoreError SessionWriter :=
  checkFold (copyBlob codec pieces source) writer entries

/-! ### Flows and extensions -/

def copyFlow (writer : SessionWriter) (item : Except StoreError Flow) :
    Except StoreError SessionWriter := do
  let flow ← item
  writer.appendFlow flow

def copyExtension (source : Session) (writer : SessionWriter)
    (extension : ExtensionDescriptor) : Except StoreError SessionWriter := do
  let payload ← Session.readExtension source extension.name
  let bytes ← orFail payload (.invalid "extension disappeared during copy")
  writer.writeExtension extension bytes

/-! ### Copying -/

/-- The destination after a transaction that did not reach its publication is as before. -/
def publishWriter (codec : Codec) (existing : Option Directory)
    (staged : Except StoreError SessionWriter) : Publication :=
  match staged with
  | .error error => { result := .error error, destination := existing }
  | .ok writer => writer.finish codec

def Session.stageCopy (codec : Codec) (pieces : Bytes → List Bytes) (entries : List BlobEntry)
    (session : Session) (existing : Option Directory) (targetSchema : Nat) :
    Except StoreError SessionWriter := do
  ensure (supportedSchema targetSchema) (.unsupportedSchema targetSchema)
  ensure (targetSchema = 1 → session.manifest.extensions = [])
    (.invalid "cannot downgrade a session with extensions")
  let metadata := { session.manifest.metadata with schemaVersion := targetSchema }
  let writer ← SessionWriter.create existing.isSome metadata session.limits
  let writer ← copyBlobNamespace codec pieces entries session writer
  let items ← Session.flowItems codec session
  let writer ← checkFold copyFlow writer items
  checkFold (copyExtension session) writer session.manifest.extensions

def Session.copyTo (codec : Codec) (pieces : Bytes → List Bytes) (entries : List BlobEntry)
    (session : Session) (existing : Option Directory) (targetSchema : Nat) : Publication :=
  publishWriter codec existing
    (Session.stageCopy codec pieces entries session existing targetSchema)

/-! ### Merging -/

def StoreLimits.min (left right : StoreLimits) : StoreLimits where
  maxLineBytes := Nat.min left.maxLineBytes right.maxLineBytes
  maxBlobBytes := Nat.min left.maxBlobBytes right.maxBlobBytes
  maxFlows := Nat.min left.maxFlows right.maxFlows
  maxTotalBytes := Nat.min left.maxTotalBytes right.maxTotalBytes

/-- The extensions gathered so far, each with its payload, by name. -/
abbrev Gathered := List (ExtensionDescriptor × Bytes)

def Gathered.get (gathered : Gathered) (name : String) : Option (ExtensionDescriptor × Bytes) :=
  gathered.find? fun entry => entry.1.name = name

def Gathered.set (gathered : Gathered) (name : String) (bytes : Bytes) : Gathered :=
  gathered.map fun entry => if entry.1.name = name then (entry.1, bytes) else entry

/-- `into_values` goes by the order of the names. -/
def Gathered.intoValues (gathered : Gathered) : Gathered :=
  gathered.insertionSort fun left right => left.1.name ≤ right.1.name

def StreamEvents.extend (combined additional : StreamEvents) : StreamEvents :=
  { combined with flows := combined.flows ++ additional.flows }

def combineStreamEvents (codec : Codec) (prior bytes : Bytes) : Except StoreError Bytes := do
  let combined ← (codec.decodeStreamEvents prior).mapError .json
  let additional ← (codec.decodeStreamEvents bytes).mapError .json
  ensure (combined.schemaVersion = additional.schemaVersion)
    (.invalid "conflicting stream-event schemas during merge")
  let combined := StreamEvents.extend combined additional
  combined.validate.mapError .invalid
  pure combined.encode

/-- `{:?}` of a name, which has neither a quote nor a backslash. -/
def quoted (name : String) : String := "\"" ++ name ++ "\""

def gatherExtension (codec : Codec) (source : Session) (gathered : Gathered)
    (extension : ExtensionDescriptor) : Except StoreError Gathered := do
  let payload ← Session.readExtension source extension.name
  let bytes ← orFail payload (.invalid "extension disappeared during merge")
  match gathered.get extension.name with
  | some (prior, priorBytes) =>
      if extension.name = "stream-events" ∧ prior = extension then do
        let combined ← combineStreamEvents codec priorBytes bytes
        pure (gathered.set extension.name combined)
      else do
        ensure (prior = extension ∧ priorBytes = bytes)
          (.invalid ("conflicting extension " ++ quoted extension.name ++ " during merge"))
        pure gathered
  | none => pure (gathered ++ [(extension, bytes)])

def writeGathered (writer : SessionWriter) (entry : ExtensionDescriptor × Bytes) :
    Except StoreError SessionWriter :=
  writer.writeExtension entry.1 entry.2

/-- `entries` and `moreEntries` list the blobs of the first and the second session. -/
def Session.stageMerge (codec : Codec) (pieces : Bytes → List Bytes)
    (entries moreEntries : List BlobEntry) (session additional : Session)
    (existing : Option Directory) (targetSchema : Nat) : Except StoreError SessionWriter := do
  ensure (supportedSchema targetSchema) (.unsupportedSchema targetSchema)
  let metadata := { session.manifest.metadata with schemaVersion := targetSchema }
  let writer ← SessionWriter.create existing.isSome metadata
    (StoreLimits.min session.limits additional.limits)
  let writer ← copyBlobNamespace codec pieces entries session writer
  let writer ← copyBlobNamespace codec pieces moreEntries additional writer
  let items ← Session.flowItems codec session
  let moreItems ← Session.flowItems codec additional
  let writer ← checkFold copyFlow writer (items ++ moreItems)
  let gathered ← checkFold (gatherExtension codec session) [] session.manifest.extensions
  let gathered ← checkFold (gatherExtension codec additional) gathered
    additional.manifest.extensions
  checkFold writeGathered writer (Gathered.intoValues gathered)

def Session.mergeTo (codec : Codec) (pieces : Bytes → List Bytes)
    (entries moreEntries : List BlobEntry) (session additional : Session)
    (existing : Option Directory) (targetSchema : Nat) : Publication :=
  publishWriter codec existing
    (Session.stageMerge codec pieces entries moreEntries session additional existing
      targetSchema)

end EggReplay.Store.Copies
