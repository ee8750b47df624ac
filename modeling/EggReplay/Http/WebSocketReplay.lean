import EggReplay.Http.WebSocketMatching

/-!
Replay of a recorded conversation to a client. The protocol endpoint below the script
answers pings and closes by itself, at a moment of its own; the script decides which of the
recorded messages are such answers.
-/

namespace EggReplay.Http.WebSocketReplay

open EggReplay.Library.Checks
open EggReplay.Library.Text
open EggReplay.Core.FlowRecord
open EggReplay.Core.StreamTimeline
open EggReplay.Core.WebSockets
open EggReplay.Core.Redaction
open EggReplay.Core.BodyWildcards
open EggReplay.Http.WebSocketRelay
open EggReplay.Http.RelayTranscripts
open EggReplay.Http.WebSocketMatching

variable {N σ : Type}

/-! ### The endpoint -/

/-- The protocol endpoint of the other package: each call gives the messages that go out to
the peer. -/
structure Endpoint (σ : Type) where
  start : σ
  read : σ → Message → σ × List Message
  send : σ → Message → σ × List Message
  flush : σ → σ × List Message

def isPong : Message → Bool
  | .pong _ => true
  | .text _ | .binary _ | .ping _ | .close _ | .frame => false

def isClose : Message → Bool
  | .close _ => true
  | .text _ | .binary _ | .ping _ | .pong _ | .frame => false

/-- A ping is answered by a pong with its payload, a close by the same close unless a close
has gone out or is due. -/
def answer (closing : Bool) : Message → List Message
  | .ping data => [.pong data]
  | .close frame => if closing = true then [] else [.close frame]
  | .text _ | .binary _ | .pong _ | .frame => []

/-- What the script relies on: every answer goes out once, in order, whenever the endpoint
gets to it, and a flush does not leave all of them behind. -/
structure Answers (endpoint : Endpoint σ) (owed : σ → List Message) (closing : σ → Bool) :
    Prop where
  start_owed : owed endpoint.start = []
  start_closing : closing endpoint.start = false
  read_owed : ∀ peer message, (endpoint.read peer message).2 ++
    owed (endpoint.read peer message).1 = owed peer ++ answer (closing peer) message
  read_closing : ∀ peer message,
    closing (endpoint.read peer message).1 = (closing peer || isClose message)
  send_owed : ∀ peer message, ∃ before after,
    (endpoint.send peer message).2 = before ++ message :: after ∧
      before ++ after ++ owed (endpoint.send peer message).1 = owed peer
  send_closing : ∀ peer message,
    closing (endpoint.send peer message).1 = (closing peer || isClose message)
  flush_owed : ∀ peer, (endpoint.flush peer).2 ++ owed (endpoint.flush peer).1 = owed peer
  flush_due : ∀ peer, owed peer ≠ [] → (endpoint.flush peer).2 ≠ []
  flush_closing : ∀ peer, closing (endpoint.flush peer).1 = closing peer

/-! ### The script -/

/-- The message that a record is played as, where its payload can be read and is text for a
text message. -/
def playedMessage (read : ReadBlob) (entry : WebSocketMessage) : Option Message :=
  match expectedPayload read entry with
  | none => none
  | some payload =>
      match entry.kind with
      | .text => (decodeUtf8 payload).map fun chars => .text (String.ofList chars)
      | .binary => some (.binary payload)
      | .ping => some (.ping payload)
      | .pong => some (.pong payload)
      | .close =>
          some (.close (entry.closeCode.map fun code =>
            { code := code, reason := entry.closeReason.getD "" }))

/-- The payload that a client ping leaves to be answered: only one that is stored. -/
def pingPayload (read : ReadBlob) (entry : WebSocketMessage) : Option Bytes :=
  match entry.kind, entry.payload with
  | .ping, some (.blob reference) => read reference
  | _, _ => none

structure ScriptState (σ : Type) where
  peer : σ
  previousDelta : Nat
  accumulatedDelay : Nat
  closeReplyPending : Bool
  automaticPongs : List Bytes

def ScriptState.start (endpoint : Endpoint σ) : ScriptState σ where
  peer := endpoint.start
  previousDelta := 0
  accumulatedDelay := 0
  closeReplyPending := false
  automaticPongs := []

/-- The script takes a server message for an answer that the endpoint has given. -/
def takenForAnswer (closeReplyPending : Bool) (automaticPongs : List Bytes)
    (kind : WebSocketMessageKind) : Bool :=
  decide (kind = .close) && closeReplyPending || decide (kind = .pong ∧ automaticPongs ≠ [])

def ScriptState.afterClient (state : ScriptState σ) (peer : σ) (read : ReadBlob)
    (expected : WebSocketMessage) : ScriptState σ :=
  { state with
    peer := peer
    closeReplyPending := state.closeReplyPending || decide (expected.kind = .close)
    automaticPongs := state.automaticPongs ++ (pingPayload read expected).toList }

def ScriptState.afterServer (state : ScriptState σ) (peer : σ) (delay : Nat)
    (expected : WebSocketMessage) : ScriptState σ where
  peer := peer
  previousDelta := expected.deltaNs
  accumulatedDelay := saturatingAdd state.accumulatedDelay delay
  closeReplyPending := state.closeReplyPending &&
    !takenForAnswer state.closeReplyPending state.automaticPongs expected.kind
  automaticPongs :=
    if expected.kind = .pong then state.automaticPongs.tail else state.automaticPongs

/-- What the client sees from here on, the messages it sends coming in in order. -/
def replayWebsocketScript (codec : BodyCodec N) (read : ReadBlob) (timing : StreamTimingMode)
    (endpoint : Endpoint σ) (terminal : WebSocketTerminal) :
    ScriptState σ → List WebSocketMessage → List Message → List Message
  | state, [], _ =>
      match terminal with
      | .cleanClose _ _ => (endpoint.flush state.peer).2
      | .abnormal _ => []
  | state, expected :: rest, inbox =>
      match expected.direction with
      | .clientToServer =>
          match inbox with
          | [] => []
          | got :: inbox =>
              let taken := endpoint.read state.peer got
              if websocketMessageMatches codec read expected got = false then taken.2
              else taken.2 ++ replayWebsocketScript codec read timing endpoint terminal
                (state.afterClient taken.1 read expected) rest inbox
      | .serverToClient =>
          match timing.delayNs (expected.deltaNs - state.previousDelta) state.accumulatedDelay,
              playedMessage read expected with
          | .ok delay, some message =>
              let given :=
                if takenForAnswer state.closeReplyPending state.automaticPongs expected.kind = true
                then endpoint.flush state.peer else endpoint.send state.peer message
              given.2 ++ replayWebsocketScript codec read timing endpoint terminal
                (state.afterServer given.1 delay expected) rest inbox
          | _, _ => []

/-! ### What a conversation asks for -/

def entriesFrom (direction : WebSocketDirection) (messages : List WebSocketMessage) :
    List WebSocketMessage :=
  messages.filter fun message => decide (message.direction = direction)

def playedFrom (read : ReadBlob) (direction : WebSocketDirection)
    (messages : List WebSocketMessage) : List (Option Message) :=
  (entriesFrom direction messages).map (playedMessage read)

/-- The client sends the recorded client messages. -/
def Sends (read : ReadBlob) (messages : List WebSocketMessage) (client : List Message) : Prop :=
  client.map some = playedFrom read .clientToServer messages

instance (read : ReadBlob) (messages : List WebSocketMessage) (client : List Message) :
    Decidable (Sends read messages client) :=
  inferInstanceAs (Decidable (_ = _))

/-- Under every endpoint that answers, the client sees the recorded server messages. -/
def Delivered (codec : BodyCodec N) (read : ReadBlob) (timing : StreamTimingMode)
    (conversation : WebSocketConversation) (client : List Message) : Prop :=
  ∀ (σ : Type) (endpoint : Endpoint σ) (owed : σ → List Message) (closing : σ → Bool),
    Answers endpoint owed closing →
      (replayWebsocketScript codec read timing endpoint conversation.terminal (.start endpoint)
          conversation.messages client).map some =
        playedFrom read .serverToClient conversation.messages

def matchesItself (codec : BodyCodec N) (read : ReadBlob) (entry : WebSocketMessage) : Bool :=
  match playedMessage read entry with
  | some message => websocketMessageMatches codec read entry message
  | none => false

/-- Nothing stops the script while server messages are left: a client message before one of
them matches its own record, and each of them can be played and has an accepted delay. -/
def Uncut (codec : BodyCodec N) (read : ReadBlob) (timing : StreamTimingMode) :
    Nat → Nat → List WebSocketMessage → Prop
  | _, _, [] => True
  | previousDelta, accumulatedDelay, entry :: rest =>
      match entry.direction with
      | .clientToServer =>
          if matchesItself codec read entry = true then
            Uncut codec read timing previousDelta accumulatedDelay rest
          else entriesFrom .serverToClient rest = []
      | .serverToClient =>
          (playedMessage read entry).isSome = true ∧
            ∃ delay, timing.delayNs (entry.deltaNs - previousDelta) accumulatedDelay = .ok delay ∧
              Uncut codec read timing entry.deltaNs (saturatingAdd accumulatedDelay delay) rest

/-- The answers outstanding are recorded where they are due: every client ping has a stored
payload, nothing is outstanding when the client closes, a server message that comes while
answers are outstanding is the oldest of them, and in the end there are none. -/
def InOrder (codec : BodyCodec N) (read : ReadBlob) :
    Bool → List Message → List WebSocketMessage → Prop
  | _, outstanding, [] => outstanding = []
  | closing, outstanding, entry :: rest =>
      match entry.direction with
      | .clientToServer =>
          ∀ got, playedMessage read entry = some got →
            if matchesItself codec read entry = true then
              (entry.kind = .ping → (pingPayload read entry).isSome = true) ∧
                (entry.kind = .close → closing = false → outstanding = []) ∧
                InOrder codec read (closing || isClose got) (outstanding ++ answer closing got) rest
            else outstanding ++ answer closing got = []
      | .serverToClient =>
          (outstanding = [] ∨ outstanding.head? = playedMessage read entry) ∧
            InOrder codec read (closing || decide (entry.kind = .close)) outstanding.tail rest

end EggReplay.Http.WebSocketReplay
