import EggReplay.Store.Staging

/-!
`SessionWriter`, the single-owner writer of a session.
-/

namespace EggReplay.Store.Writer

open EggReplay.Library.Checks
open EggReplay.Library.Text
open EggReplay.Core.FlowRecord
open EggReplay.Core.StreamTimeline
open EggReplay.Core.WebSockets
open EggReplay.Store.Fixture
open EggReplay.Store.SessionOpen
open EggReplay.Store.Staging

structure SessionWriter extends Staged where
  metadata : SessionMetadata
  limits : StoreLimits

def SessionWriter.create (destinationExists : Bool) (metadata : SessionMetadata)
    (limits : StoreLimits) : Except StoreError SessionWriter := do
  ensure (destinationExists = false) (.invalid "fixture destination already exists")
  ensure (supportedSchema metadata.schemaVersion) (.unsupportedSchema metadata.schemaVersion)
  pure { toStaged := Staged.empty, metadata, limits }

def SessionWriter.writeExtension (writer : SessionWriter) (extension : ExtensionDescriptor)
    (bytes : Bytes) : Except StoreError SessionWriter := do
  let staged ← writer.toStaged.writeExtension extension bytes
  pure
    { writer with
      toStaged := staged,
      metadata := { writer.metadata with schemaVersion := sessionSchemaVersion } }

def SessionWriter.appendStreamEvents (writer : SessionWriter) (events : FlowStreamEvents) :
    Except StoreError SessionWriter := do
  (StreamEvents.mk streamEventsSchemaVersion [events]).validate.mapError .invalid
  ensure (events.flowId ∉ writer.streamEventIds) (.invalid "duplicate stream event flow id")
  let staged ← writer.toStaged.reserveStreamEvents events
  pure { writer with toStaged := staged }

def SessionWriter.beginBlob (writer : SessionWriter) : SessionWriter × BodyWriter :=
  let created := writer.toStaged.createStagingFile
  ({ writer with toStaged := created.1 },
    BodyWriter.open created.2 writer.limits.maxBlobBytes)

def SessionWriter.appendFlow (writer : SessionWriter) (flow : Flow) : Except StoreError SessionWriter := do
  ensure (writer.flowCount < writer.limits.maxFlows)
    (.invalid "flow count exceeds configured limit")
  flow.validate.mapError StoreError.ofFlowError
  validateBodyRefs flow writer.limits.maxBlobBytes
  ensure (flow.encode.length ≤ writer.limits.maxLineBytes)
    (.invalid "flow JSONL line exceeds configured limit")
  let nextTotal := writer.totalBytes + flowBodyBytes flow
  ensure (nextTotal ≤ u64Max) (.invalid "total body length overflow")
  ensure (nextTotal ≤ writer.limits.maxTotalBytes)
    (.invalid "total body length exceeds configured limit")
  pure { writer with toStaged := writer.toStaged.writeFlow flow nextTotal }

def SessionWriter.appendWebsocketConversation (writer : SessionWriter)
    (conversation : WebSocketConversation) : Except StoreError SessionWriter := do
  let websocket ← Staging.appendWebsocketConversation writer.websocket conversation
  pure { writer with websocket }

def SessionWriter.writeStreamEventsExtension (writer : SessionWriter) : Except StoreError SessionWriter :=
  if writer.streamEvents.flows = [] then pure writer
  else do
    writer.streamEvents.validate.mapError .invalid
    writer.writeExtension streamEventsExtension writer.streamEvents.encode

def SessionWriter.writeWebsocketExtension (writer : SessionWriter) : Except StoreError SessionWriter :=
  if writer.websocket.conversations = [] then pure writer
  else do
    let transcript ← websocketTranscript writer.websocket
    writer.writeExtension websocketExtension transcript.encode

/-- Everything `finish` does before the rename. -/
def SessionWriter.stage (codec : Codec) (writer : SessionWriter) :
    Except StoreError (Directory × Manifest) := do
  let writer ← writer.writeStreamEventsExtension
  let writer ← writer.writeWebsocketExtension
  validateWebsocketFixture codec writer.directory writer.extensions
    writer.limits.maxLineBytes writer.limits.maxBlobBytes
  writer.toStaged.writeManifest codec writer.metadata writer.flowCount

def SessionWriter.finish (codec : Codec) (writer : SessionWriter) : Publication :=
  publish codec writer.limits (writer.stage codec)

end EggReplay.Store.Writer
