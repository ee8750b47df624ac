import EggReplay.Store.Staging

/-!
`RecordingSession`, the cloneable writer. An operation is a check of the
shutdown flag followed by a section that runs under a lock; the sections have
names of their own so that an interleaving can place them one by one.
-/

namespace EggReplay.Store.Recording

open EggReplay.Library.Checks
open EggReplay.Library.Text
open EggReplay.Core.FlowRecord
open EggReplay.Core.StreamTimeline
open EggReplay.Core.WebSockets
open EggReplay.Store.Fixture
open EggReplay.Store.SessionOpen
open EggReplay.Store.Staging

/-- The shared state behind the clones of a recording session. -/
structure RecordingInner extends Staged where
  metadata : SessionMetadata
  limits : StoreLimits
  flowsOpen : Bool := true
  activeBlobs : Nat := 0
  shutdown : Bool := false
  websocketFinalizers : List Nat := []

def RecordingInner.create (destinationExists : Bool) (metadata : SessionMetadata)
    (limits : StoreLimits) : Except StoreError RecordingInner := do
  ensure (destinationExists = false) (.invalid "fixture destination already exists")
  ensure (supportedSchema metadata.schemaVersion) (.unsupportedSchema metadata.schemaVersion)
  pure { toStaged := Staged.empty, metadata, limits }

def RecordingInner.checkRunning (inner : RecordingInner) : Except StoreError Unit :=
  ensure (inner.shutdown = false) (.invalid "session is shutting down")

def RecordingInner.writeExtension (inner : RecordingInner)
    (extension : ExtensionDescriptor) (bytes : Bytes) : Except StoreError RecordingInner := do
  inner.checkRunning
  let staged ← inner.toStaged.writeExtension extension bytes
  pure { inner with toStaged := staged }

def RecordingInner.requestShutdown (inner : RecordingInner) : RecordingInner :=
  { inner with shutdown := true }

def RecordingInner.registerFinalizer (inner : RecordingInner) (finalizer : Nat) :
    Except StoreError RecordingInner := do
  ensure (inner.shutdown = false)
    (.invalid "cannot register conversation finalizer after shutdown")
  pure { inner with websocketFinalizers := inner.websocketFinalizers ++ [finalizer] }

def RecordingInner.appendStreamEvents (inner : RecordingInner) (events : FlowStreamEvents) :
    Except StoreError RecordingInner := do
  inner.checkRunning
  (StreamEvents.mk streamEventsSchemaVersion [events]).validate.mapError .invalid
  ensure (events.flowId ∉ inner.streamEventIds) (.invalid "duplicate stream event flow id")
  ensure (inner.streamEvents.flows.length < maxStreamEventsPerSession)
    (.invalid "stream event flow count exceeds configured limit")
  let staged ← inner.toStaged.reserveStreamEvents events
  pure { inner with toStaged := staged }

/-! ### Body sinks -/

def RecordingInner.reserveBlob (inner : RecordingInner) : RecordingInner :=
  { inner with activeBlobs := inner.activeBlobs + 1 }

def RecordingInner.releaseBlob (inner : RecordingInner) : RecordingInner :=
  { inner with activeBlobs := inner.activeBlobs - 1 }

/-- The flag is read, the staging file created, and the sink counted, in this order. -/
def RecordingInner.beginBlob (inner : RecordingInner) :
    Except StoreError (RecordingInner × BodyWriter) := do
  inner.checkRunning
  let created := inner.toStaged.createStagingFile
  pure (RecordingInner.reserveBlob { inner with toStaged := created.1 },
    BodyWriter.open created.2 inner.limits.maxBlobBytes)

def RecordingInner.writeBody (inner : RecordingInner) (writer : BodyWriter)
    (buffer : Bytes) : Except StoreError (RecordingInner × BodyWriter) := do
  let written ← writer.write inner.directory buffer
  pure ({ inner with directory := written.1 }, written.2)

def RecordingInner.finishBody (codec : Codec) (inner : RecordingInner)
    (writer : BodyWriter) : RecordingInner × Except StoreError BodyRef :=
  (RecordingInner.releaseBlob
    { inner with directory := writer.publish codec inner.directory }, writer.reference codec)

def RecordingInner.dropBody (inner : RecordingInner) (writer : BodyWriter) : RecordingInner :=
  RecordingInner.releaseBlob { inner with directory := writer.drop inner.directory }

/-! ### Flows and conversations -/

/-- The checks of `append_flow` that come before the flow-log lock. -/
def checkFlow (limits : StoreLimits) (flow : Flow) : Except StoreError Unit := do
  flow.validate.mapError StoreError.ofFlowError
  validateBodyRefs flow limits.maxBlobBytes
  ensure (flow.encode.length ≤ limits.maxLineBytes)
    (.invalid "flow JSONL line exceeds configured limit")

/-- The section of `append_flow` under the flow-log lock. -/
def RecordingInner.appendFlowLocked (inner : RecordingInner) (flow : Flow) :
    Except StoreError RecordingInner := do
  ensure (inner.flowsOpen = true) (.invalid "session is finalizing")
  ensure (inner.flowCount < inner.limits.maxFlows)
    (.invalid "flow count exceeds configured limit")
  let next := inner.totalBytes + flowBodyBytes flow
  ensure (next ≤ u64Max) (.invalid "total body length overflow")
  ensure (next ≤ inner.limits.maxTotalBytes)
    (.invalid "total body length exceeds configured limit")
  pure { inner with toStaged := inner.toStaged.writeFlow flow next }

def RecordingInner.appendFlow (inner : RecordingInner) (flow : Flow) :
    Except StoreError RecordingInner := do
  inner.checkRunning
  checkFlow inner.limits flow
  inner.appendFlowLocked flow

def RecordingInner.appendWebsocketConversation (inner : RecordingInner)
    (conversation : WebSocketConversation) : Except StoreError RecordingInner := do
  inner.checkRunning
  let websocket ← Staging.appendWebsocketConversation inner.websocket conversation
  pure { inner with websocket }

/-! ### Finish -/

/-- The flow log is taken, so that no later append finds it. -/
def RecordingInner.takeFlows (inner : RecordingInner) : Except StoreError RecordingInner := do
  ensure (inner.flowsOpen = true) (.invalid "session is already finalizing")
  pure { inner with flowsOpen := false }

def RecordingInner.writeStreamEventsExtension (inner : RecordingInner) :
    Except StoreError RecordingInner :=
  if inner.streamEvents.flows = [] then pure inner
  else do
    inner.streamEvents.validate.mapError .invalid
    ensure (inner.streamEvents.encode.length ≤ maxStreamEventsBytes)
      (.invalid "stream event metadata exceeds configured limit")
    let staged ← inner.toStaged.writeExtension streamEventsExtension inner.streamEvents.encode
    pure { inner with toStaged := staged }

def RecordingInner.writeWebsocketExtension (inner : RecordingInner) :
    Except StoreError RecordingInner :=
  if inner.websocket.conversations = [] then pure inner
  else do
    let transcript ← websocketTranscript inner.websocket
    let staged ← inner.toStaged.writeExtension websocketExtension transcript.encode
    pure { inner with toStaged := staged }

/-- The metadata names the current schema as soon as there is an extension. -/
def RecordingInner.finalMetadata (inner : RecordingInner) : SessionMetadata :=
  if inner.extensions = [] then inner.metadata
  else { inner.metadata with schemaVersion := sessionSchemaVersion }

def RecordingInner.checkFixture (codec : Codec) (inner : RecordingInner) :
    Except StoreError Unit :=
  validateWebsocketFixture codec inner.directory inner.extensions
    inner.limits.maxLineBytes inner.limits.maxBlobBytes

/-- Everything `finish` does before the rename, where no other clone acts in
between and the driven finalizers return. -/
def RecordingInner.stage (codec : Codec) (inner : RecordingInner) :
    Except StoreError (Directory × Manifest) := do
  let inner := inner.requestShutdown
  ensure (inner.activeBlobs = 0) (.invalid "cannot finalize with active transactions")
  let inner ← RecordingInner.takeFlows { inner with websocketFinalizers := [] }
  let flowCount := inner.flowCount
  let inner ← inner.writeStreamEventsExtension
  let inner ← inner.writeWebsocketExtension
  inner.checkFixture codec
  inner.toStaged.writeManifest codec inner.finalMetadata flowCount

def RecordingInner.finish (codec : Codec) (inner : RecordingInner) : Publication :=
  publish codec inner.limits (inner.stage codec)

end EggReplay.Store.Recording
