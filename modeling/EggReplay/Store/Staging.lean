import EggReplay.Store.SessionOpen

/-!
What both writers keep while a session is staged: the staging directory, the
counters, and the registries of extensions, stream events and WebSocket
conversations. The functions here are the parts of the writers' operations that
do not depend on which writer runs them.
-/

namespace EggReplay.Store.Staging

open EggReplay.Library.Checks
open EggReplay.Library.Text
open EggReplay.Core.FlowRecord
open EggReplay.Core.StreamTimeline
open EggReplay.Core.WebSockets
open EggReplay.Store.Fixture
open EggReplay.Store.SessionOpen

structure WebSocketAccumulation where
  conversations : List WebSocketConversation := []
  messages : Nat := 0
  payloadBytes : Nat := 0
  encodedBytes : Nat := 0
  deriving DecidableEq, Repr

structure Staged where
  directory : Directory
  flowCount : Nat := 0
  totalBytes : Nat := 0
  extensions : List ExtensionDescriptor := []
  streamEvents : StreamEvents := StreamEvents.default
  streamEventIds : List String := []
  streamEventRecords : Nat := 0
  streamEventObjectBytes : Nat := 0
  websocket : WebSocketAccumulation := {}
  nextSuffix : Nat := 0

/-- The staging directory of a new session: an empty flow log and no blobs. -/
def Staged.empty : Staged where
  directory := { files := Function.update (fun _ => none) flowLog (some []), blobs := [] }

/-! ### Body writers -/

structure BodyWriter where
  suffix : Nat
  hashed : Bytes
  length : Nat
  maxBytes : Nat
  deriving DecidableEq, Repr

/-- A staging file of its own, by the process-wide unique suffix. -/
def Staged.createStagingFile (staged : Staged) : Staged × Nat :=
  ({ staged with
      directory := staged.directory.createBlob (.staging staged.nextSuffix),
      nextSuffix := staged.nextSuffix + 1 }, staged.nextSuffix)

def BodyWriter.open (suffix maxBytes : Nat) : BodyWriter :=
  { suffix, hashed := [], length := 0, maxBytes }

def BodyWriter.write (root : Directory) (writer : BodyWriter) (buffer : Bytes) :
    Except StoreError (Directory × BodyWriter) := do
  let next := writer.length + buffer.length
  ensure (next ≤ u64Max) (.io "body length overflow")
  ensure (next ≤ writer.maxBytes) (.io "body exceeds configured limit")
  pure (root.extendBlob (.staging writer.suffix) buffer,
    { writer with hashed := writer.hashed ++ buffer, length := next })

def BodyWriter.readStagingBounded (root : Directory) (writer : BodyWriter)
    (maxBytes : Nat) : Except StoreError Bytes := do
  ensure (writer.length ≤ maxBytes)
    (.invalid "staged body exceeds structured redaction limit")
  let bytes ← orFail (root.blob? (.staging writer.suffix)) (.io "No such file or directory")
  ensure (bytes.length = writer.length) (.integrity "staging length mismatch")
  pure bytes

/-- The directory after the staged file is gone or has its content address. -/
def BodyWriter.publish (codec : Codec) (root : Directory) (writer : BodyWriter) : Directory :=
  let staging := BlobName.staging writer.suffix
  let target := BlobName.content (codec.sha256Hex writer.hashed)
  if writer.length = 0 then root.removeBlob staging
  else if (root.blob? target).isSome then root.removeBlob staging
  else root.renameBlob staging target

def BodyWriter.reference (codec : Codec) (writer : BodyWriter) : Except StoreError BodyRef :=
  if writer.length = 0 then pure .empty
  else do
    let blob ← (BlobRef.new (codec.sha256Hex writer.hashed) writer.length).mapError
      StoreError.ofFlowError
    pure (.blob blob)

def BodyWriter.drop (root : Directory) (writer : BodyWriter) : Directory :=
  root.removeBlob (.staging writer.suffix)

/-! ### Extensions -/

/-- The sizes of the registered extension files, as far as they can be read. -/
def registeredBytes (root : Directory) (extensions : List ExtensionDescriptor) : Nat :=
  (extensions.map fun entry => ((root.files entry.path).map List.length).getD 0).sum

def writeExtensionFile (root : Directory) (extensions : List ExtensionDescriptor)
    (extension : ExtensionDescriptor) (bytes : Bytes) :
    Except StoreError (Directory × List ExtensionDescriptor) := do
  validateExtensionName extension.name
  validateExtensionPath extension.path
  ensure (extension.schemaVersion ≠ 0) (.invalid "extension schema version must be positive")
  ensure (extensions.length < maxExtensions)
    (.invalid "extension count exceeds configured limit")
  ensure (bytes.length ≤ maxExtensionBytes) (.invalid "extension exceeds configured limit")
  ensure (∀ entry ∈ extensions, entry.name ≠ extension.name ∧ entry.path ≠ extension.path)
    (.invalid "duplicate extension name or path")
  ensure (saturatingAdd (registeredBytes root extensions) bytes.length ≤ maxTotalExtensionBytes)
    (.invalid "aggregate extensions exceed configured limit")
  let root ← root.createFile extension.path bytes
  pure (root, extensions ++ [extension])

def Staged.writeExtension (staged : Staged) (extension : ExtensionDescriptor)
    (bytes : Bytes) : Except StoreError Staged := do
  let written ← writeExtensionFile staged.directory staged.extensions extension bytes
  pure { staged with directory := written.1, extensions := written.2 }

/-! ### Flows and stream events -/

/-- The line write and the counters that follow it. -/
def Staged.writeFlow (staged : Staged) (flow : Flow) (nextTotal : Nat) : Staged :=
  { staged with
    directory := staged.directory.extendFile flowLog (flow.encode ++ [newline]),
    flowCount := staged.flowCount + 1,
    totalBytes := nextTotal }

def streamEventsBaseBytes : Nat := StreamEvents.default.encode.length - 2

/-- The aggregate bounds on the stream-event registry, and the registration. -/
def Staged.reserveStreamEvents (staged : Staged) (events : FlowStreamEvents) :
    Except StoreError Staged := do
  let records := saturatingAdd events.request.length events.response.length
  let nextRecords := saturatingAdd staged.streamEventRecords records
  ensure (nextRecords ≤ maxStreamEventsPerSession)
    (.invalid "aggregate stream event count exceeds configured limit")
  let objectBytes := events.encode.length
  let nextObjectBytes := saturatingAdd (saturatingAdd staged.streamEventObjectBytes objectBytes)
    (if staged.streamEvents.flows = [] then 0 else 1)
  ensure (saturatingAdd streamEventsBaseBytes nextObjectBytes ≤ maxStreamEventsBytes)
    (.invalid "stream event metadata exceeds configured limit")
  pure
    { staged with
      streamEvents :=
        { staged.streamEvents with flows := staged.streamEvents.flows ++ [events] },
      streamEventIds := events.flowId :: staged.streamEventIds,
      streamEventRecords := nextRecords,
      streamEventObjectBytes := nextObjectBytes }

/-! ### WebSocket conversations -/

def conversationPayload (conversation : WebSocketConversation) : Nat :=
  ((conversation.messages.filterMap fun message => message.payload.bind BodyRef.len)).sum

def appendWebsocketConversation (accumulation : WebSocketAccumulation)
    (conversation : WebSocketConversation) : Except StoreError WebSocketAccumulation := do
  let limits := WebSocketLimits.default
  ensure (accumulation.conversations.length < limits.maxConversations)
    (.invalid "WebSocket conversation count exceeds limit")
  ensure (∀ existing ∈ accumulation.conversations,
      existing.id ≠ conversation.id ∧ existing.flowId ≠ conversation.flowId)
    (.invalid "duplicate WebSocket conversation or flow id")
  ((WebSocketTranscript.mk websocketSchemaVersion [conversation]).validate limits).mapError
    .invalid
  let nextMessages := accumulation.messages + conversation.messages.length
  ensure (nextMessages ≤ u64Max) (.invalid "WebSocket message count overflow")
  ensure (nextMessages ≤ limits.maxMessagesPerSession)
    (.invalid "WebSocket message count exceeds session limit")
  ensure (conversationPayload conversation ≤ u64Max)
    (.invalid "WebSocket payload length overflow")
  let nextPayload := accumulation.payloadBytes + conversationPayload conversation
  ensure (nextPayload ≤ u64Max) (.invalid "WebSocket payload length overflow")
  ensure (nextPayload ≤ limits.maxTotalPayloadBytes)
    (.invalid "WebSocket payload bytes exceed session limit")
  let nextEncoded := accumulation.encodedBytes + (conversation.encode.length + 1)
  ensure (nextEncoded ≤ u64Max) (.invalid "WebSocket metadata length overflow")
  ensure (saturatingAdd nextEncoded 64 ≤ maxExtensionBytes)
    (.invalid "WebSocket extension exceeds configured limit")
  pure
    { conversations := accumulation.conversations ++ [conversation], messages := nextMessages,
      payloadBytes := nextPayload, encodedBytes := nextEncoded }

def websocketTranscript (accumulation : WebSocketAccumulation) :
    Except StoreError WebSocketTranscript := do
  let transcript : WebSocketTranscript :=
    { schemaVersion := websocketSchemaVersion, conversations := accumulation.conversations }
  (transcript.validate WebSocketLimits.default).mapError .invalid
  ensure (transcript.encode.length ≤ maxExtensionBytes)
    (.invalid "WebSocket extension exceeds configured limit")
  pure transcript

/-! ### The last extensions -/

def streamEventsExtension : ExtensionDescriptor where
  name := "stream-events"
  schemaVersion := streamEventsSchemaVersion
  path := "stream-events.json"
  requiredForReplay := true

def websocketExtension : ExtensionDescriptor where
  name := "websocket-messages"
  schemaVersion := websocketSchemaVersion
  path := "websockets.jsonl"
  requiredForReplay := true

/-- The manifest of the staged session, written and closed. -/
def Staged.writeManifest (codec : Codec) (staged : Staged) (metadata : SessionMetadata)
    (flowCount : Nat) : Except StoreError (Directory × Manifest) := do
  let manifest : Manifest :=
    { metadata, complete := true, flowCount,
      blobCount := countBlobs staged.directory, extensions := staged.extensions }
  let root ← staged.directory.createFile manifestFile
    (codec.encodeManifest manifest ++ [newline])
  pure (root, manifest)

/-- The result of a `finish`, and what stands at the destination afterwards. -/
structure Publication where
  result : Except StoreError Session
  destination : Option Directory

/-- The rename of a staged directory, where there is one, and the open after it. -/
def publish (codec : Codec) (limits : StoreLimits)
    (staged : Except StoreError (Directory × Manifest)) : Publication :=
  match staged with
  | .error error => { result := .error error, destination := none }
  | .ok (root, _) =>
      { result := Session.open codec root limits, destination := some root }

end EggReplay.Store.Staging
