import EggReplay.Store.Fixture

/-!
Reading a fixture: the flow iterator, the WebSocket fixture check that writers
run before publication and readers run again, the extension checks, and
`Session::open`.
-/

namespace EggReplay.Store.SessionOpen

open EggReplay.Library.Checks
open EggReplay.Library.Text
open EggReplay.Library.LineLog
open EggReplay.Core.FlowRecord
open EggReplay.Core.StreamTimeline
open EggReplay.Core.WebSockets
open EggReplay.Core.Scenarios
open EggReplay.Store.Fixture

def maxExtensions : Nat := 64
def maxExtensionBytes : Nat := 16 * 1024 * 1024
def maxTotalExtensionBytes : Nat := 32 * 1024 * 1024

def newline : UInt8 := 10

def flowLog : String := "flows.jsonl"
def manifestFile : String := "manifest.json"

/-! ### The flow iterator -/

structure FlowIter where
  reader : Bytes
  limits : StoreLimits
  seen : Nat
  deriving DecidableEq, Repr

/-- What the iterator makes of one nonempty line, and its count afterwards. -/
def flowItem (codec : Codec) (limits : StoreLimits) (seen : Nat) (line : Bytes) :
    Except StoreError Flow × Nat :=
  if limits.maxFlows ≤ seen then
    (.error (.invalid "flow count exceeds configured limit"), seen)
  else
    (do
      ensure (line.length ≤ limits.maxLineBytes)
        (.invalid "flow JSONL line exceeds configured limit")
      let flow ← (codec.decodeFlow line).mapError .json
      flow.validate.mapError StoreError.ofFlowError
      pure flow, seen + 1)

def FlowIter.next (codec : Codec) (iter : FlowIter) :
    Option (Except StoreError Flow × FlowIter) :=
  let read := readUntil newline iter.reader
  if read.1 = [] then none
  else
    let item := flowItem codec iter.limits iter.seen read.1
    some (item.1, { iter with reader := read.2, seen := item.2 })

/-- The items of successive calls over the given lines. -/
def flowItems (codec : Codec) (limits : StoreLimits) (seen : Nat) :
    List Bytes → List (Except StoreError Flow)
  | [] => []
  | line :: rest =>
      let item := flowItem codec limits seen line
      item.1 :: flowItems codec limits item.2 rest

def FlowIter.items (codec : Codec) (iter : FlowIter) : List (Except StoreError Flow) :=
  flowItems codec iter.limits iter.seen (records newline iter.reader)

theorem readUntil_eq_nil {input : Bytes} :
    (readUntil newline input).1 = [] ↔ input = [] := by
  rcases input with _ | ⟨a, rest⟩
  · simp [readUntil]
  · rw [readUntil]
    split <;> simp

/-- `items` is what repeated calls of `next` yield. -/
theorem items_eq_next (codec : Codec) (iter : FlowIter) :
    iter.items codec = match iter.next codec with
      | none => []
      | some (item, rest) => item :: rest.items codec := by
  by_cases hread : iter.reader = []
  · simp [FlowIter.items, FlowIter.next, hread, records, readUntil, flowItems]
  · have hline : (readUntil newline iter.reader).1 ≠ [] := fun h => hread (readUntil_eq_nil.mp h)
    rw [FlowIter.items, records_eq_readUntil newline hread]
    simp only [FlowIter.next, if_neg hline]
    rfl

/-! ### The WebSocket fixture check -/

def findExtension (extensions : List ExtensionDescriptor) (name : String) :
    Option ExtensionDescriptor :=
  extensions.find? fun extension => extension.name = name

def websocketUpgrade (flow : Flow) : Bool :=
  flow.request.headers.any fun header =>
    eqIgnoreAsciiCase header.name "upgrade" &&
      (split header.value ',').any fun token => eqIgnoreAsciiCase (trim token) "websocket"

def switchesProtocols (flow : Flow) : Bool :=
  match flow.outcome with
  | .response reply => reply.status == 101
  | .error _ => false

/-- An upgrade request that was answered with status 101. -/
def websocket101 (flow : Flow) : Bool := websocketUpgrade flow && switchesProtocols flow

def scanFlowLine (codec : Codec) (maxLineBytes : Nat) (ids : List String) (line : Bytes) :
    Except StoreError (List String) := do
  ensure (line.length ≤ maxLineBytes) (.invalid "flow JSONL line exceeds configured limit")
  let flow ← (codec.decodeFlow line).mapError .json
  pure (if websocket101 flow then ids.insert flow.id else ids)

def isUtf8 (bytes : Bytes) : Bool := (ByteArray.mk bytes.toArray).validateUTF8

def checkMessagePayload (codec : Codec) (root : Directory) (maxBlobBytes : Nat)
    (message : WebSocketMessage) : Except StoreError Unit :=
  match message.payload with
  | some (.blob blob) => do
      verifyBlobFile codec root blob maxBlobBytes
      if message.kind = .text then do
        let bytes ← orFail (root.blob? (.content blob.sha256)) (.io "No such file or directory")
        let payload := bytes.take (saturatingAdd maxBlobBytes 1)
        ensure (payload.length = blob.length ∧ isUtf8 payload = true)
          (.invalid "WebSocket text payload must be valid UTF-8")
      else pure ()
  | _ => pure ()

def checkConversation (codec : Codec) (root : Directory) (maxBlobBytes : Nat)
    (websocket101 referenced : List String) (conversation : WebSocketConversation) :
    Except StoreError (List String) := do
  ensure (conversation.flowId ∈ websocket101)
    (.invalid "WebSocket conversation must reference an initiating 101 flow")
  checkAll (checkMessagePayload codec root maxBlobBytes) conversation.messages
  pure (referenced.insert conversation.flowId)

def checkTranscript (codec : Codec) (root : Directory) (maxBlobBytes : Nat)
    (websocket101 : List String) (extension : ExtensionDescriptor) :
    Except StoreError Unit := do
  ensure (extension.requiredForReplay = true)
    (.invalid "websocket-messages extension must be required for replay")
  ensure (extension.path = "websockets.jsonl" ∧
      extension.schemaVersion = websocketSchemaVersion)
    (.invalid "websocket-messages extension descriptor is inconsistent")
  let bytes ← root.readFile extension.path
  let transcript ← (codec.decodeTranscript bytes).mapError .json
  (transcript.validate WebSocketLimits.default).mapError .invalid
  let referenced ← checkFold (checkConversation codec root maxBlobBytes websocket101) []
    transcript.conversations
  ensure (referenced.length = websocket101.length)
    (.invalid "WebSocket 101 flow is missing conversation metadata")

def validateWebsocketFixture (codec : Codec) (root : Directory)
    (extensions : List ExtensionDescriptor) (maxLineBytes maxBlobBytes : Nat) :
    Except StoreError Unit := do
  let log ← root.readFile flowLog
  let websocket101 ← checkFold (scanFlowLine codec maxLineBytes) [] (records newline log)
  match findExtension extensions "websocket-messages" with
  | none =>
      ensure (websocket101 = [])
        (.invalid "WebSocket 101 flow is missing required conversation metadata")
  | some extension => checkTranscript codec root maxBlobBytes websocket101 extension

/-! ### Extension checks -/

def validateExtensionName (name : String) : Except StoreError Unit :=
  ensure (name ≠ "" ∧ name.utf8ByteSize ≤ 64 ∧
      name.toList.all (fun c => c.isLower || c.isDigit || c == '-') = true)
    (.invalid "invalid extension name")

/-- A single path component that is its own file name has no separator; `.` and
`..` fall to the leading-dot test. -/
def validateExtensionPath (path : String) : Except StoreError Unit :=
  ensure (path ≠ "" ∧ path.utf8ByteSize ≤ 128 ∧ containsChar path '/' = false ∧
      startsWith path "." = false)
    (.invalid "extension path must be a confined filename")

def knownRequired : List String :=
  ["rules", "stream-events", "websocket-messages", "interop-provenance"]

def checkRules (codec : Codec) (extension : ExtensionDescriptor) (bytes : Bytes) :
    Except StoreError Unit := do
  ensure (extension.schemaVersion = rulesSchemaVersion)
    (.invalid ("unsupported rules extension schema " ++ Nat.repr extension.schemaVersion))
  let rules ← (codec.decodeRules bytes).mapError .json
  rules.validate.mapError .invalid

def checkStreamEvents (codec : Codec) (extension : ExtensionDescriptor) (bytes : Bytes) :
    Except StoreError Unit := do
  ensure (extension.schemaVersion = streamEventsSchemaVersion)
    (.invalid ("unsupported stream-events extension schema " ++
      Nat.repr extension.schemaVersion))
  let events ← (codec.decodeStreamEvents bytes).mapError .json
  events.validate.mapError .invalid

def checkWebsocketMessages (codec : Codec) (extension : ExtensionDescriptor)
    (bytes : Bytes) : Except StoreError Unit := do
  ensure (extension.schemaVersion = websocketSchemaVersion)
    (.invalid ("unsupported websocket-messages extension schema " ++
      Nat.repr extension.schemaVersion))
  ensure (extension.requiredForReplay = true ∧ extension.path = "websockets.jsonl")
    (.invalid "websocket-messages must be required and stored at websockets.jsonl")
  let transcript ← (codec.decodeTranscript bytes).mapError .json
  (transcript.validate WebSocketLimits.default).mapError .invalid

/-- The checks on the content of an extension, by its name. -/
def checkExtensionContent (codec : Codec) (extension : ExtensionDescriptor)
    (bytes : Bytes) : Except StoreError Unit := do
  ensure (extension.requiredForReplay = true → extension.name ∈ knownRequired)
    (.invalid ("unknown required extension " ++ extension.name))
  checkWhen (extension.name = "rules") (checkRules codec extension bytes)
  checkWhen (extension.name = "stream-events") (checkStreamEvents codec extension bytes)
  checkWhen (extension.name = "websocket-messages")
    (checkWebsocketMessages codec extension bytes)

/-- The names, paths and total length that the extension loop has met. -/
structure ExtensionState where
  names : List String := []
  paths : List String := []
  total : Nat := 0
  deriving DecidableEq, Repr

def checkExtension (codec : Codec) (root : Directory) (state : ExtensionState)
    (extension : ExtensionDescriptor) : Except StoreError ExtensionState := do
  validateExtensionName extension.name
  validateExtensionPath extension.path
  ensure (extension.schemaVersion ≠ 0 ∧ extension.name ∉ state.names ∧
      extension.path ∉ state.paths)
    (.invalid "invalid or duplicate extension descriptor")
  let bytes ← root.readFile extension.path
  ensure (bytes.length ≤ maxExtensionBytes) (.invalid "extension exceeds configured limit")
  let total := state.total + bytes.length
  ensure (total ≤ u64Max) (.invalid "aggregate extension length overflow")
  ensure (total ≤ maxTotalExtensionBytes)
    (.invalid "aggregate extensions exceed configured limit")
  checkExtensionContent codec extension bytes
  pure { names := extension.name :: state.names, paths := extension.path :: state.paths, total }

def validateExtensions (codec : Codec) (root : Directory)
    (extensions : List ExtensionDescriptor) : Except StoreError Unit := do
  ensure (extensions.length ≤ maxExtensions)
    (.invalid "extension count exceeds configured limit")
  let _ ← checkFold (checkExtension codec root) {} extensions
  pure ()

/-! ### Opening -/

/-- The response lengths by flow id, the count and the body total of the flows. -/
structure FlowTotals where
  responseLengths : List (String × Nat) := []
  count : Nat := 0
  total : Nat := 0
  deriving DecidableEq, Repr

def openFlow (codec : Codec) (root : Directory) (limits : StoreLimits)
    (totals : FlowTotals) (item : Except StoreError Flow) : Except StoreError FlowTotals := do
  let flow ← item
  ensure (totals.responseLengths.lookup flow.id = none) (.invalid "duplicate flow id")
  let total := totals.total + flowBodyBytes flow
  ensure (total ≤ u64Max) (.invalid "total body length overflow")
  ensure (total ≤ limits.maxTotalBytes)
    (.invalid "total body length exceeds configured limit")
  validateBodyFiles codec root flow limits
  pure
    { responseLengths := (flow.id, flow.outcome.responseLength) :: totals.responseLengths,
      count := totals.count + 1, total }

def checkTimeline (responseLengths : List (String × Nat)) (events : FlowStreamEvents) :
    Except StoreError Unit := do
  let expected ← orFail (responseLengths.lookup events.flowId)
    (.invalid "stream events reference an unknown flow")
  ensure (dataLength events.response = expected)
    (.invalid "stream event byte count disagrees with response body")

def checkTimelines (codec : Codec) (root : Directory)
    (extensions : List ExtensionDescriptor) (responseLengths : List (String × Nat)) :
    Except StoreError Unit :=
  match findExtension extensions "stream-events" with
  | none => pure ()
  | some extension => do
      let bytes ← root.readFile extension.path
      let events ← (codec.decodeStreamEvents bytes).mapError .json
      checkAll (checkTimeline responseLengths) events.flows

structure Session where
  root : Directory
  manifest : Manifest
  limits : StoreLimits

/-- Schemas 1 and 2 are read. -/
def supportedSchema (version : Nat) : Prop :=
  sessionSchemaV1 ≤ version ∧ version ≤ sessionSchemaVersion

instance (version : Nat) : Decidable (supportedSchema version) :=
  inferInstanceAs (Decidable (_ ∧ _))

def Session.iterFlows (session : Session) : Except StoreError FlowIter := do
  let log ← session.root.readFile flowLog
  pure { reader := log, limits := session.limits, seen := 0 }

def Session.open (codec : Codec) (root : Directory) (limits : StoreLimits) :
    Except StoreError Session := do
  let bytes ← root.readFile manifestFile
  let manifest ← (codec.decodeManifest bytes).mapError .json
  ensure (supportedSchema manifest.metadata.schemaVersion)
    (.unsupportedSchema manifest.metadata.schemaVersion)
  ensure (manifest.complete = true) (.invalid "fixture manifest is incomplete")
  ensure ((manifest.extensions.any fun extension => extension.name == "websocket-messages") =
      true → manifest.metadata.schemaVersion = sessionSchemaVersion)
    (.invalid "WebSocket conversations require current session schema 2")
  let session : Session := { root, manifest, limits }
  validateExtensions codec root manifest.extensions
  let iter ← session.iterFlows
  let totals ← checkFold (openFlow codec root limits) {} (iter.items codec)
  ensure (totals.count = manifest.flowCount) (.invalid "manifest flow count mismatch")
  validateWebsocketFixture codec root manifest.extensions limits.maxLineBytes
    limits.maxBlobBytes
  checkTimelines codec root manifest.extensions totals.responseLengths
  ensure (countBlobs root = manifest.blobCount) (.invalid "manifest blob count mismatch")
  pure session

end EggReplay.Store.SessionOpen
