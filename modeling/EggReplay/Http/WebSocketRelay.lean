import EggReplay.Core.WebSockets
import EggReplay.Core.Redaction

/-!
The relay of an upgraded connection: what a message is recorded as, and the loop over what
the two peers and the runtime deliver. What the blob store and the other peer make of a
message, and how long that takes, comes with the message.
-/

namespace EggReplay.Http.WebSocketRelay

open EggReplay.Library.Text
open EggReplay.Core.FlowRecord
open EggReplay.Core.StreamTimeline
open EggReplay.Core.WebSockets
open EggReplay.Core.Redaction

structure CloseFrame where
  code : Nat
  reason : String
  deriving DecidableEq, Repr

/-- A message as the codec delivers it; `frame` is a raw frame. -/
inductive Message where
  | text (content : String)
  | binary (data : Bytes)
  | ping (data : Bytes)
  | pong (data : Bytes)
  | close (frame : Option CloseFrame)
  | frame
  deriving DecidableEq, Repr

structure WebSocketRecordingOptions where
  redactText : Bool
  redactBinary : Bool
  deriving DecidableEq, Repr

inductive TransportError where
  | resetWithoutClosingHandshake
  | unexpectedEof
  | connectionReset
  | brokenPipe
  | other
  deriving DecidableEq, Repr

def websocketErrorCause : TransportError → String
  | .resetWithoutClosingHandshake => "reset"
  | .unexpectedEof => "eof"
  | .connectionReset | .brokenPipe => "reset"
  | .other => "protocol-error"

/-! ### One message -/

structure Projection where
  kind : WebSocketMessageKind
  bytes : Bytes
  closeCode : Option Nat
  closeReason : Option String
  deriving DecidableEq, Repr

/-- A close frame's reason, where it is not empty. -/
def nonemptyReason (frame : CloseFrame) : Option String :=
  if frame.reason = "" then none else some frame.reason

def project : Message → Option Projection
  | .text content =>
      some { kind := .text, bytes := utf8 content.toList, closeCode := none, closeReason := none }
  | .binary data => some { kind := .binary, bytes := data, closeCode := none, closeReason := none }
  | .ping data => some { kind := .ping, bytes := data, closeCode := none, closeReason := none }
  | .pong data => some { kind := .pong, bytes := data, closeCode := none, closeReason := none }
  | .close frame =>
      some {
        kind := .close
        bytes := []
        closeCode := frame.map CloseFrame.code
        closeReason := frame.bind nonemptyReason }
  | .frame => none

/-- The payload and close reason that are recorded, and the marker of what was replaced. -/
structure Recorded where
  payload : Bytes
  closeReason : Option String
  redaction : Option WebSocketRedaction
  deriving DecidableEq, Repr

def redactedText : Bytes := utf8 "[REDACTED]".toList

variable {N : Type}

def redactPayload (codec : BodyCodec N) (options : WebSocketRecordingOptions)
    (config : RedactionConfig) (kind : WebSocketMessageKind) (bytes : Bytes) :
    Bytes × Option WebSocketRedaction :=
  if kind = .text ∧ options.redactText = true then (redactedText, some .wholeMessage)
  else if kind = .text ∧ config.jsonPaths ≠ ∅ then
    match applyJsonRedaction codec bytes config.jsonPaths with
    | .ok (clean, _) => (clean, some (.jsonPointers (config.jsonPaths.sort (· ≤ ·))))
    | .error _ => (bytes, none)
  else if kind = .binary ∧ options.redactBinary = true then (redactedText, some .wholeMessage)
  else (bytes, none)

def recordedAs (codec : BodyCodec N) (options : WebSocketRecordingOptions)
    (config : RedactionConfig) (projected : Projection) : Recorded :=
  let clean := redactPayload codec options config projected.kind projected.bytes
  if projected.kind = .close ∧ options.redactText = true ∧ projected.closeReason.isSome = true then
    { payload := clean.1, closeReason := some "[REDACTED]", redaction := some .closeReason }
  else { payload := clean.1, closeReason := projected.closeReason, redaction := clean.2 }

/-- What the writer of a blob returns, where there is anything to write. -/
def payloadRef (codec : BodyCodec N) (payload : Bytes) : Option BodyRef :=
  if payload = [] then none
  else some (.blob { sha256 := codec.sha256 payload, length := payload.length })

def messageEntry (codec : BodyCodec N) (sequence : Nat) (direction : WebSocketDirection)
    (deltaNs : Nat) (projected : Projection) (recorded : Recorded) : WebSocketMessage where
  sequence := sequence
  direction := direction
  deltaNs := deltaNs
  kind := projected.kind
  payload := payloadRef codec recorded.payload
  closeCode := projected.closeCode
  closeReason := recorded.closeReason
  redactions := recorded.redaction.toList

/-! ### The loop -/

/-- One value for each direction. -/
structure PerDirection (α : Type) where
  clientToServer : α
  serverToClient : α
  deriving DecidableEq, Repr

def PerDirection.get {α : Type} (pair : PerDirection α) : WebSocketDirection → α
  | .clientToServer => pair.clientToServer
  | .serverToClient => pair.serverToClient

def PerDirection.set {α : Type} (pair : PerDirection α) (direction : WebSocketDirection)
    (value : α) : PerDirection α :=
  match direction with
  | .clientToServer => { pair with clientToServer := value }
  | .serverToClient => { pair with serverToClient := value }

def otherDirection : WebSocketDirection → WebSocketDirection
  | .clientToServer => .serverToClient
  | .serverToClient => .clientToServer

/-- What happens to a message: the nanoseconds until its limits are checked and from there
until it is recorded, whether its payload is stored, and whether it can be sent on. -/
structure Handling where
  untilCheckedNs : Nat
  untilRecordedNs : Nat
  kept : Bool
  sent : Bool
  deriving DecidableEq, Repr

inductive Received where
  | message (message : Message) (handling : Handling)
  | failed (error : TransportError)
  | ended
  deriving DecidableEq, Repr

inductive Event where
  | deadline
  | cancelled
  | received (direction : WebSocketDirection) (value : Received)
  deriving DecidableEq, Repr

/-- The variables of the loop, the payloads stored and the messages sent on so far, and the
time since it started. -/
structure RelayState where
  messages : List WebSocketMessage
  closeSeen : PerDirection Bool
  isOpen : PerDirection Bool
  totalPayloadBytes : Nat
  pingPongs : PerDirection (List Bytes)
  stored : List Bytes
  forwarded : List (WebSocketDirection × Message)
  clockNs : Nat
  deriving DecidableEq, Repr

def RelayState.start : RelayState where
  messages := []
  closeSeen := ⟨false, false⟩
  isOpen := ⟨true, true⟩
  totalPayloadBytes := 0
  pingPongs := ⟨[], []⟩
  stored := []
  forwarded := []
  clockNs := 0

def RelayState.bothClosed (state : RelayState) : Bool :=
  state.closeSeen.clientToServer && state.closeSeen.serverToClient

inductive Outcome where
  | running (state : RelayState)
  | ended (state : RelayState) (terminal : WebSocketTerminal)
  deriving DecidableEq, Repr

def Outcome.state : Outcome → RelayState
  | .running state => state
  | .ended state _ => state

def elapsedNs (clockNs : Nat) : Nat := min clockNs u64Max

/-- A ping waits for its pong, and the first pong of its payload is not sent on: the
codec on the other side has answered already. -/
def answerPings (pingPongs : PerDirection (List Bytes)) (kind : WebSocketMessageKind)
    (direction : WebSocketDirection) (bytes : Bytes) : PerDirection (List Bytes) × Bool :=
  let waiting := pingPongs.get (otherDirection direction)
  if kind = .ping then (pingPongs.set direction (pingPongs.get direction ++ [bytes]), false)
  else if kind = .pong ∧ bytes ∈ waiting then
    (pingPongs.set (otherDirection direction) (waiting.erase bytes), true)
  else (pingPongs, false)

def forward (state : RelayState) (direction : WebSocketDirection) (message : Message)
    (sent : Bool) : Outcome :=
  if sent = true then
    .running { state with forwarded := state.forwarded ++ [(direction, message)] }
  else .ended state (.abnormal "write-error")

def relayClose (state : RelayState) (direction : WebSocketDirection) (message : Message)
    (code : Option Nat) (reason : Option String) (sent : Bool) : Outcome :=
  let duplicate := state.closeSeen.get direction || state.closeSeen.get (otherDirection direction)
  let seen := { state with closeSeen := state.closeSeen.set direction true }
  let finish (state : RelayState) : Outcome :=
    if state.bothClosed = true then .ended state (.cleanClose code reason) else .running state
  if duplicate = true then finish seen
  else match forward seen direction message sent with
    | .running state => finish state
    | .ended state terminal => .ended state terminal

def overLimits (state : RelayState) (payload : Bytes) (clockNs : Nat) : Bool :=
  let limits := WebSocketLimits.default
  decide (limits.maxMessagesPerConversation ≤ state.messages.length) ||
    decide (limits.maxTotalPayloadBytes <
      saturatingAdd state.totalPayloadBytes payload.length) ||
    decide (limits.maxDurationNs < elapsedNs clockNs)

/-- The message as it was recorded goes on to the other peer. -/
def sendOn (state : RelayState) (direction : WebSocketDirection) (message : Message)
    (projected : Projection) (reason : Option String) (answered sent : Bool) : Outcome :=
  if projected.kind = .close then
    relayClose state direction message projected.closeCode reason sent
  else if answered = true then .running state
  else forward state direction message sent

/-- The state once the payload is stored and the counters are moved on. -/
def RelayState.keep (state : RelayState) (pingPongs : PerDirection (List Bytes))
    (payload : Bytes) (clockNs : Nat) : RelayState :=
  { state with
    pingPongs := pingPongs
    stored := if payload = [] then state.stored else state.stored ++ [payload]
    totalPayloadBytes := saturatingAdd state.totalPayloadBytes payload.length
    clockNs := clockNs }

def RelayState.push (state : RelayState) (message : WebSocketMessage) : RelayState :=
  { state with messages := state.messages ++ [message] }

def relayMessage (codec : BodyCodec N) (options : WebSocketRecordingOptions)
    (config : RedactionConfig) (state : RelayState) (direction : WebSocketDirection)
    (message : Message) (handling : Handling) : Outcome :=
  match project message with
  | none => .running state
  | some projected =>
      let pings := answerPings state.pingPongs projected.kind direction projected.bytes
      let recorded := recordedAs codec options config projected
      let checkedNs := state.clockNs + handling.untilCheckedNs
      let recordedNs := checkedNs + handling.untilRecordedNs
      let kept := state.keep pings.1 recorded.payload recordedNs
      if recorded.payload ≠ [] ∧ handling.kept = false then
        .ended { state with pingPongs := pings.1 } (.abnormal "storage-error")
      else if overLimits state recorded.payload checkedNs = true then
        .ended kept (.abnormal "capture-limit")
      else
        sendOn (kept.push (messageEntry codec state.messages.length direction
            (elapsedNs recordedNs) projected recorded))
          direction message projected recorded.closeReason pings.2 handling.sent

def relayEnd (state : RelayState) (direction : WebSocketDirection) : Outcome :=
  let closed := { state with isOpen := state.isOpen.set direction false }
  if state.bothClosed = true then .ended closed (.cleanClose none none)
  else if (state.closeSeen.clientToServer || state.closeSeen.serverToClient) = false then
    .ended closed (.abnormal "eof")
  else if (closed.isOpen.clientToServer || closed.isOpen.serverToClient) = false then
    .ended closed (.abnormal "eof")
  else .running closed

/-- One turn of the loop; a peer that has ended is not listened to. -/
def relayStep (codec : BodyCodec N) (options : WebSocketRecordingOptions)
    (config : RedactionConfig) (state : RelayState) : Event → Outcome
  | .deadline => .ended state (.abnormal "duration-limit")
  | .cancelled => .ended state (.abnormal "shutdown")
  | .received direction value =>
      if state.isOpen.get direction = false then .running state
      else match value with
        | .message message handling =>
            relayMessage codec options config state direction message handling
        | .failed error => .ended state (.abnormal (websocketErrorCause error))
        | .ended => relayEnd state direction

/-- The state that the loop ends in and its terminal, where it ends within the events. -/
def relayFrom (codec : BodyCodec N) (options : WebSocketRecordingOptions)
    (config : RedactionConfig) : RelayState → List Event → Option (RelayState × WebSocketTerminal)
  | _, [] => none
  | state, event :: rest =>
      match relayStep codec options config state event with
      | .running next => relayFrom codec options config next rest
      | .ended final terminal => some (final, terminal)

def relayWebsocket (codec : BodyCodec N) (options : WebSocketRecordingOptions)
    (config : RedactionConfig) (events : List Event) :
    Option (List WebSocketMessage × WebSocketTerminal) :=
  (relayFrom codec options config .start events).map fun ended => (ended.1.messages, ended.2)

/-- The state of a loop that is still running after the events. -/
def runningAfter (codec : BodyCodec N) (options : WebSocketRecordingOptions)
    (config : RedactionConfig) : RelayState → List Event → Option RelayState
  | state, [] => some state
  | state, event :: rest =>
      match relayStep codec options config state event with
      | .running next => runningAfter codec options config next rest
      | .ended _ _ => none

end EggReplay.Http.WebSocketRelay
