import EggReplay.Core.StreamTimeline

/-!
WebSocket conversations and the transcript extension: sizes, ordering, close
and terminal rules, and the serialized form whose length the store bounds.
-/

namespace EggReplay.Core.WebSockets

open EggReplay.Library.Checks
open EggReplay.Library.Text
open EggReplay.Library.JsonText
open EggReplay.Core.FlowRecord
open EggReplay.Core.StreamTimeline

def websocketSchemaVersion : Nat := 1

structure WebSocketLimits where
  maxConversations : Nat
  maxMessagesPerConversation : Nat
  maxMessagesPerSession : Nat
  maxMessageBytes : Nat
  maxTotalPayloadBytes : Nat
  maxDurationNs : Nat
  maxControlPayloadBytes : Nat
  maxCloseReasonBytes : Nat
  maxSubprotocols : Nat
  maxSubprotocolBytes : Nat
  deriving DecidableEq, Repr

def WebSocketLimits.default : WebSocketLimits where
  maxConversations := 1024
  maxMessagesPerConversation := 100000
  maxMessagesPerSession := 1000000
  maxMessageBytes := 16 * 1024 * 1024
  maxTotalPayloadBytes := 1024 * 1024 * 1024
  maxDurationNs := 24 * 60 * 60 * 1000000000
  maxControlPayloadBytes := 125
  maxCloseReasonBytes := 123
  maxSubprotocols := 32
  maxSubprotocolBytes := 128

inductive WebSocketDirection where
  | clientToServer | serverToClient
  deriving DecidableEq, Repr

inductive WebSocketMessageKind where
  | text | binary | ping | pong | close
  deriving DecidableEq, Repr

inductive WebSocketRedaction where
  | jsonPointers (pointers : List String)
  | wholeMessage
  | closeReason
  deriving DecidableEq, Repr

inductive WebSocketTerminal where
  | cleanClose (code : Option Nat) (reason : Option String)
  | abnormal (cause : String)
  deriving DecidableEq, Repr

structure WebSocketMessage where
  sequence : Nat
  direction : WebSocketDirection
  deltaNs : Nat
  kind : WebSocketMessageKind
  payload : Option BodyRef
  closeCode : Option Nat
  closeReason : Option String
  redactions : List WebSocketRedaction
  deriving DecidableEq, Repr

structure WebSocketConversation where
  id : String
  flowId : String
  offeredSubprotocols : List String
  selectedSubprotocol : Option String
  messages : List WebSocketMessage
  terminal : WebSocketTerminal
  deriving DecidableEq, Repr

structure WebSocketTranscript where
  schemaVersion : Nat
  conversations : List WebSocketConversation
  deriving DecidableEq, Repr

def validCloseCode (code : Nat) : Bool :=
  (1000 ≤ code && code ≤ 1014 && !(1004 ≤ code && code ≤ 1006)) ||
    (3000 ≤ code && code ≤ 4999)

def isTokenByte (c : Char) : Bool :=
  c.isAlphanum || "!#$%&'*+-.^_`|~".toList.contains c

def validateRedaction (kind : WebSocketMessageKind) :
    WebSocketRedaction → Except String Unit
  | .jsonPointers pointers =>
      ensure (kind = .text ∧ pointers.length ≤ 256 ∧
          ∀ pointer ∈ pointers, pointer.utf8ByteSize ≤ 1024 ∧ startsWith pointer "/" = true)
        "invalid WebSocket JSON redaction metadata"
  | .wholeMessage => pure ()
  | .closeReason =>
      ensure (kind = .close) "close reason redaction on a non-close message"

/-- What the message loop of one conversation remembers. -/
structure MessageState where
  index : Nat := 0
  priorDelta : Nat := 0
  closeDirections : List WebSocketDirection := []
  terminated : Bool := false
  totalPayload : Nat
  deriving DecidableEq, Repr

def isControl : WebSocketMessageKind → Bool
  | .ping | .pong | .close => true
  | .text | .binary => false

def validateMessage (limits : WebSocketLimits) (state : MessageState)
    (message : WebSocketMessage) : Except String MessageState := do
  ensure (message.sequence = state.index) "WebSocket sequence numbers must be contiguous"
  ensure (¬(0 < state.index ∧ message.deltaNs < state.priorDelta))
    "WebSocket message timing must be nondecreasing"
  ensure (message.deltaNs ≤ limits.maxDurationNs)
    "WebSocket conversation duration exceeds limit"
  ensure (state.terminated = false) "WebSocket messages follow a terminal event"
  ensure (message.direction ∉ state.closeDirections ∨ message.kind = .close)
    "WebSocket message follows close in the same direction"
  let length ← match message.payload with
    | none => pure 0
    | some body => orFail body.len "WebSocket payload body length is invalid"
  ensure (length ≤ limits.maxMessageBytes) "WebSocket message payload exceeds limit"
  let total := state.totalPayload + length
  ensure (total ≤ u64Max) "WebSocket payload length overflow"
  ensure (total ≤ limits.maxTotalPayloadBytes)
    "WebSocket payload bytes exceed session limit"
  ensure (isControl message.kind = false ∨ length ≤ min limits.maxControlPayloadBytes 125)
    "WebSocket control payload exceeds configured limit"
  let closed ←
    if message.kind = .close then do
      ensure (message.payload = none) "WebSocket close data must use close metadata"
      ensure (∀ code ∈ message.closeCode, validCloseCode code = true)
        "invalid WebSocket close code"
      ensure (∀ reason ∈ message.closeReason,
          reason.utf8ByteSize ≤ min limits.maxCloseReasonBytes 123 ∧
          message.closeCode.isSome = true)
        "invalid WebSocket close reason"
      ensure (message.direction ∉ state.closeDirections)
        "duplicate WebSocket close message in one direction"
      pure (message.direction :: state.closeDirections)
    else do
      ensure (message.closeCode = none ∧ message.closeReason = none)
        "close metadata on a non-close WebSocket message"
      pure state.closeDirections
  checkAll (validateRedaction message.kind) message.redactions
  pure
    { index := state.index + 1, priorDelta := message.deltaNs, closeDirections := closed,
      terminated :=
        if message.kind = .close then decide (closed.length = 2) else state.terminated,
      totalPayload := total }

def abnormalCauses : List String :=
  ["eof", "reset", "shutdown", "duration-limit", "protocol-error", "read-error",
    "write-error", "timeout", "cancelled", "upstream-error", "downstream-error", "other"]

def validateTerminal (limits : WebSocketLimits) (messages : List WebSocketMessage)
    (closeDirections : List WebSocketDirection) : WebSocketTerminal → Except String Unit
  | .cleanClose code reason => do
      ensure (closeDirections.length = 2)
        "clean WebSocket terminal requires both close messages"
      let last ← orFail messages.getLast?
        "clean WebSocket terminal requires a close message"
      ensure (last.kind = .close ∧ last.closeCode = code ∧ last.closeReason = reason)
        "clean WebSocket terminal requires a close message"
      ensure ((∀ value ∈ code, validCloseCode value = true) ∧
          ∀ value ∈ reason, value.utf8ByteSize ≤ min limits.maxCloseReasonBytes 123 ∧
            code.isSome = true)
        "invalid WebSocket terminal close metadata"
  | .abnormal cause =>
      ensure (cause ∈ abnormalCauses) "invalid WebSocket abnormal terminal cause"

/-- What the conversation loop of a transcript remembers. -/
structure TranscriptState where
  ids : List String := []
  flowIds : List String := []
  totalMessages : Nat := 0
  totalPayload : Nat := 0
  deriving DecidableEq, Repr

def validateConversation (limits : WebSocketLimits) (state : TranscriptState)
    (conversation : WebSocketConversation) : Except String TranscriptState := do
  ensure (conversation.id ≠ "" ∧ conversation.id.utf8ByteSize ≤ 128)
    "invalid WebSocket conversation id"
  ensure (conversation.flowId ≠ "" ∧ conversation.flowId.utf8ByteSize ≤ 128)
    "invalid WebSocket initiating flow id"
  ensure (conversation.id ∉ state.ids) "duplicate WebSocket conversation id"
  ensure (conversation.flowId ∉ state.flowIds) "duplicate WebSocket initiating flow id"
  ensure (conversation.offeredSubprotocols.length ≤ limits.maxSubprotocols)
    "too many offered WebSocket subprotocols"
  ensure (∀ protocol ∈ conversation.offeredSubprotocols,
      protocol ≠ "" ∧ protocol.utf8ByteSize ≤ limits.maxSubprotocolBytes ∧
      protocol.toList.all isTokenByte = true)
    "invalid WebSocket subprotocol"
  ensure (∀ selected ∈ conversation.selectedSubprotocol,
      selected ∈ conversation.offeredSubprotocols ∧
      selected.utf8ByteSize ≤ limits.maxSubprotocolBytes)
    "selected WebSocket subprotocol was not offered"
  ensure (conversation.messages.length ≤ limits.maxMessagesPerConversation)
    "WebSocket message count exceeds conversation limit"
  let totalMessages := state.totalMessages + conversation.messages.length
  ensure (totalMessages ≤ u64Max) "WebSocket message count overflow"
  ensure (totalMessages ≤ limits.maxMessagesPerSession)
    "WebSocket message count exceeds session limit"
  let final ← checkFold (validateMessage limits) { totalPayload := state.totalPayload }
    conversation.messages
  validateTerminal limits conversation.messages final.closeDirections conversation.terminal
  pure
    { ids := conversation.id :: state.ids, flowIds := conversation.flowId :: state.flowIds,
      totalMessages, totalPayload := final.totalPayload }

def WebSocketTranscript.validate (transcript : WebSocketTranscript)
    (limits : WebSocketLimits) : Except String Unit := do
  ensure (transcript.schemaVersion = websocketSchemaVersion)
    "unsupported WebSocket extension schema"
  ensure (transcript.conversations.length ≤ limits.maxConversations)
    "WebSocket conversation count exceeds limit"
  let _ ← checkFold (validateConversation limits) {} transcript.conversations
  pure ()

/-! ### Serialized form -/

def WebSocketDirection.asStr : WebSocketDirection → String
  | .clientToServer => "client_to_server"
  | .serverToClient => "server_to_client"

def WebSocketMessageKind.asStr : WebSocketMessageKind → String
  | .text => "text"
  | .binary => "binary"
  | .ping => "ping"
  | .pong => "pong"
  | .close => "close"

def WebSocketRedaction.toJson : WebSocketRedaction → Value
  | .jsonPointers pointers =>
      .object [("kind", .string "json_pointers"), ("pointers", .array (pointers.map .string))]
  | .wholeMessage => .object [("kind", .string "whole_message")]
  | .closeReason => .object [("kind", .string "close_reason")]

def WebSocketTerminal.toJson : WebSocketTerminal → Value
  | .cleanClose code reason =>
      .object [("kind", .string "clean_close"), ("code", optionJson .number code),
        ("reason", optionJson .string reason)]
  | .abnormal cause => .object [("kind", .string "abnormal"), ("cause", .string cause)]

/-- A field that is skipped when absent. -/
def optionMember {α : Type} (name : String) (toJson : α → Value) :
    Option α → List (String × Value)
  | none => []
  | some a => [(name, toJson a)]

def WebSocketMessage.toJson (message : WebSocketMessage) : Value :=
  .object ([("sequence", .number message.sequence),
      ("direction", .string message.direction.asStr), ("delta_ns", .number message.deltaNs),
      ("kind", .string message.kind.asStr)] ++
    optionMember "payload" BodyRef.toJson message.payload ++
    optionMember "close_code" .number message.closeCode ++
    optionMember "close_reason" .string message.closeReason ++
    if message.redactions = [] then []
    else [("redactions", .array (message.redactions.map WebSocketRedaction.toJson))])

def WebSocketConversation.toJson (conversation : WebSocketConversation) : Value :=
  .object ([("id", .string conversation.id), ("flow_id", .string conversation.flowId),
      ("offered_subprotocols", .array (conversation.offeredSubprotocols.map .string))] ++
    optionMember "selected_subprotocol" .string conversation.selectedSubprotocol ++
    [("messages", .array (conversation.messages.map WebSocketMessage.toJson)),
      ("terminal", conversation.terminal.toJson)])

def WebSocketConversation.encode (conversation : WebSocketConversation) : Bytes :=
  EggReplay.Library.JsonText.encode conversation.toJson

def WebSocketTranscript.toJson (transcript : WebSocketTranscript) : Value :=
  .object [("schema_version", .number transcript.schemaVersion),
    ("conversations", .array (transcript.conversations.map WebSocketConversation.toJson))]

def WebSocketTranscript.encode (transcript : WebSocketTranscript) : Bytes :=
  EggReplay.Library.JsonText.encode transcript.toJson

/-- Removing a check's error branch: a transcript that is accepted has its schema
version, its count bound and an accepting run of the conversation checks. -/
theorem transcript_validate_eq_ok {transcript : WebSocketTranscript}
    {limits : WebSocketLimits} :
    transcript.validate limits = .ok () ↔
      transcript.schemaVersion = websocketSchemaVersion ∧
      transcript.conversations.length ≤ limits.maxConversations ∧
      ∃ state, checkFold (validateConversation limits) {} transcript.conversations =
        .ok state := by
  simp [WebSocketTranscript.validate]

end EggReplay.Core.WebSockets
