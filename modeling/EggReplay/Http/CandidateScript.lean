import EggReplay.Library.LossyText
import EggReplay.Core.Reports
import EggReplay.Http.WebSocketReplay

/-!
The recorded client side of a conversation played against a candidate server: what is put on
the wire, and the findings. The protocol endpoint below answers pings and closes by itself,
and two flags say which of the recorded messages are such answers.
-/

namespace EggReplay.Http.CandidateScript

open EggReplay.Library.Text
open EggReplay.Library.LossyText
open EggReplay.Core.FlowRecord
open EggReplay.Core.WebSockets
open EggReplay.Core.Redaction
open EggReplay.Core.BodyWildcards
open EggReplay.Core.Reports
open EggReplay.Http.WebSocketRelay
open EggReplay.Http.WebSocketMatching
open EggReplay.Http.WebSocketReplay

variable {N σ : Type}

/-! ### Findings -/

def wsFinding (field baseline candidate : String) : DiffFinding where
  kind := .webSocket
  field := field
  baseline := baseline
  candidate := candidate

/-- The variant names that `{:?}` prints. -/
def debugKind : WebSocketMessageKind → String
  | .text => "Text"
  | .binary => "Binary"
  | .ping => "Ping"
  | .pong => "Pong"
  | .close => "Close"

def messageKind : Message → WebSocketMessageKind
  | .text _ => .text
  | .binary _ => .binary
  | .ping _ => .ping
  | .pong _ => .pong
  | .close _ => .close
  | .frame => .binary

def summaryOf (sha256 : Bytes → String) (kind : WebSocketMessageKind) (bytes : Bytes) : String :=
  debugKind kind ++ ":length:" ++ Nat.repr bytes.length ++ ":sha256:" ++ sha256 bytes

def expectedMessageSummary (sha256 : Bytes → String) (read : ReadBlob)
    (message : WebSocketMessage) : String :=
  if WebSocketRedaction.wholeMessage ∈ message.redactions then
    debugKind message.kind ++ ":redacted"
  else summaryOf sha256 message.kind ((expectedPayload read message).getD [])

def candidateMessageSummary (sha256 : Bytes → String) (message : Message) : String :=
  summaryOf sha256 (messageKind message)
    (match message with
    | .text content => utf8 content.toList
    | .binary data | .ping data | .pong data => data
    | .close _ | .frame => [])

/-! ### The connection -/

inductive SendFailure where
  | error (debug : String)
  | timeout
  deriving DecidableEq, Repr

/-- The endpoint and the calls to it that do not succeed. -/
structure Connection (σ : Type) extends Endpoint σ where
  sendFailure : σ → Message → Option SendFailure
  flushFailure : σ → Option String

/-- What a read gives when the messages of the candidate are used up. -/
inductive Ending where
  | eof
  | failed (debug : String)
  | quiet
  deriving DecidableEq, Repr

/-- The time since the upgrade when each message is reached and when it is done with. -/
structure Clock where
  before : Nat → Nat
  after : Nat → Nat

def conversationLimitNs : Nat := 60 * 60 * 1000000000

/-! ### The script -/

/-- Text that is not valid is sent with replacement characters. -/
def wsMessage (kind : WebSocketMessageKind) (payload : Bytes) (code : Option Nat)
    (reason : Option String) : Message :=
  match kind with
  | .text => .text (fromUtf8Lossy payload)
  | .binary => .binary payload
  | .ping => .ping payload
  | .pong => .pong payload
  | .close => .close (code.map fun code => { code := code, reason := reason.getD "" })

/-- What the caller gets, and what has gone out; `aborted` is an error in the findings'
place. -/
structure ScriptRun where
  sent : List Message := []
  findings : List DiffFinding := []
  aborted : Bool := false
  deriving DecidableEq, Repr

def ScriptRun.report (run : ScriptRun) (findings : List DiffFinding) : ScriptRun :=
  { run with findings := findings ++ run.findings }

def ScriptRun.behind (run : ScriptRun) (sent : List Message) : ScriptRun :=
  { run with sent := sent ++ run.sent }

structure CandidateState (σ : Type) where
  peer : σ
  index : Nat
  closeReplyPending : Bool
  autoPongPending : Bool

def CandidateState.start (connection : Connection σ) : CandidateState σ where
  peer := connection.start
  index := 0
  closeReplyPending := false
  autoPongPending := false

/-- A recorded client message is taken for an answer that the endpoint has given. -/
def CandidateState.takes (state : CandidateState σ) (kind : WebSocketMessageKind) : Bool :=
  decide (kind = .close) && state.closeReplyPending ||
    decide (kind = .pong) && state.autoPongPending

def CandidateState.afterClient (state : CandidateState σ) (peer : σ)
    (kind : WebSocketMessageKind) : CandidateState σ where
  peer := peer
  index := state.index + 1
  closeReplyPending := state.closeReplyPending && !decide (kind = .close)
  autoPongPending := state.autoPongPending && !decide (kind = .pong)

def CandidateState.afterServer (state : CandidateState σ) (peer : σ)
    (kind : WebSocketMessageKind) : CandidateState σ where
  peer := peer
  index := state.index + 1
  closeReplyPending := state.closeReplyPending || decide (kind = .close)
  autoPongPending := state.autoPongPending || decide (kind = .ping)

/-- One recorded client message: a flush where an answer stands for it, a send otherwise. -/
def write (connection : Connection σ) (state : CandidateState σ) (kind : WebSocketMessageKind)
    (message : Message) : Except DiffFinding (σ × List Message) :=
  if kind = .close ∧ state.closeReplyPending = true then
    match connection.flushFailure state.peer with
    | some error => .error (wsFinding "message.close" "clean" ("error:" ++ error))
    | none => .ok (connection.flush state.peer)
  else if kind = .pong ∧ state.autoPongPending = true then
    match connection.flushFailure state.peer with
    | some error => .error (wsFinding "message.pong" "automatic" ("error:" ++ error))
    | none => .ok (connection.flush state.peer)
  else
    match connection.sendFailure state.peer message with
    | some (.error error) => .error (wsFinding "message.write" "success" ("error:" ++ error))
    | some .timeout => .error (wsFinding "message.write" "success" "timeout")
    | none => .ok (connection.send state.peer message)

def absDiff (a b : Nat) : Nat :=
  (a - b) + (b - a)

def messageField (sequence : Nat) : String :=
  "message." ++ Nat.repr sequence

def cadence (tolerance : Option Nat) (observed : Nat) (expected : WebSocketMessage) :
    List DiffFinding :=
  match tolerance with
  | none => []
  | some tolerance =>
      if tolerance < absDiff observed expected.deltaNs then
        [wsFinding (messageField expected.sequence ++ ".cadence") (Nat.repr expected.deltaNs)
          (Nat.repr observed)]
      else []

/-- After the loop: an abnormal conversation is one that the candidate has to end. -/
def terminalCheck (sha256 : Bytes → String) (connection : Connection σ)
    (terminal : WebSocketTerminal) (ending : Ending) (peer : σ) (inbox : List Message) :
    ScriptRun :=
  match terminal, inbox, ending with
  | .cleanClose _ _, _, _ => {}
  | .abnormal _, message :: _, _ =>
      { sent := (connection.read peer message).2
        findings := [wsFinding "terminal" "abnormal_end" (candidateMessageSummary sha256 message)] }
  | .abnormal _, [], .quiet =>
      { findings := [wsFinding "terminal" "abnormal_end" "connection_remained_open"] }
  | .abnormal _, [], .eof | .abnormal _, [], .failed _ => {}

/-- The rest of the script, where `inbox` is what the candidate still sends. -/
def playMessages (codec : BodyCodec N) (sha256 : Bytes → String) (read : ReadBlob)
    (tolerance : Option Nat) (clock : Clock) (connection : Connection σ)
    (terminal : WebSocketTerminal) (ending : Ending) :
    CandidateState σ → List WebSocketMessage → List Message → ScriptRun
  | state, [], inbox => terminalCheck sha256 connection terminal ending state.peer inbox
  | state, expected :: rest, inbox =>
      if conversationLimitNs ≤ clock.before state.index then
        (terminalCheck sha256 connection terminal ending state.peer inbox).report
          [wsFinding "terminal" "completed_within_limit" "duration_limit"]
      else
        match expected.direction with
        | .clientToServer =>
            match expectedPayload read expected with
            | none => { aborted := true }
            | some payload =>
                match write connection state expected.kind
                  (wsMessage expected.kind payload expected.closeCode expected.closeReason) with
                | .error finding =>
                    (terminalCheck sha256 connection terminal ending state.peer inbox).report
                      [finding]
                | .ok given =>
                    ((playMessages codec sha256 read tolerance clock connection terminal ending
                      (state.afterClient given.1 expected.kind) rest inbox).report
                        (cadence tolerance (clock.after state.index) expected)).behind given.2
        | .serverToClient =>
            match inbox with
            | [] =>
                (terminalCheck sha256 connection terminal ending state.peer []).report
                  [wsFinding (messageField expected.sequence ++ ".read") "message"
                    (match ending with
                    | .failed error => "error:" ++ error
                    | .eof | .quiet => "timeout_or_eof")]
            | actual :: inbox =>
                let taken := connection.read state.peer actual
                if candidateMessageMatches codec read expected actual = false then
                  ((terminalCheck sha256 connection terminal ending taken.1 inbox).report
                    [wsFinding (messageField expected.sequence)
                      (expectedMessageSummary sha256 read expected)
                      (candidateMessageSummary sha256 actual)]).behind taken.2
                else
                  ((playMessages codec sha256 read tolerance clock connection terminal ending
                    (state.afterServer taken.1 expected.kind) rest inbox).report
                      (cadence tolerance (clock.after state.index) expected)).behind taken.2

/-- The message loop of the comparison, on a connection that has been upgraded. -/
def compareWebsocketCandidate (codec : BodyCodec N) (sha256 : Bytes → String) (read : ReadBlob)
    (tolerance : Option Nat) (clock : Clock) (connection : Connection σ) (ending : Ending)
    (conversation : WebSocketConversation) (served : List Message) : ScriptRun :=
  playMessages codec sha256 read tolerance clock connection conversation.terminal ending
    (.start connection) conversation.messages served

/-! ### What a conversation asks for -/

def isMessageFinding (finding : DiffFinding) : Bool :=
  startsWith finding.field "message."

/-- The payload of every record is there, and is text for a text message. -/
def Intact (read : ReadBlob) (messages : List WebSocketMessage) : Prop :=
  ∀ entry ∈ messages, (playedMessage read entry).isSome = true

/-- The candidate sends the recorded server messages. -/
def Serves (read : ReadBlob) (messages : List WebSocketMessage) (served : List Message) : Prop :=
  served.map some = playedFrom read .serverToClient messages

instance (read : ReadBlob) (messages : List WebSocketMessage) (served : List Message) :
    Decidable (Serves read messages served) :=
  inferInstanceAs (Decidable (_ = _))

/-- Every call to the endpoint succeeds, and each ping and close is answered once. -/
structure Works (connection : Connection σ) (owed : σ → List Message) (closing : σ → Bool) :
    Prop where
  answers : Answers connection.toEndpoint owed closing
  sends : ∀ peer message, connection.sendFailure peer message = none
  flushes : ∀ peer, connection.flushFailure peer = none

/-- The recorded client messages went out, and no message was remarked on. -/
def ScriptRun.Exact (run : ScriptRun) (read : ReadBlob) (messages : List WebSocketMessage) :
    Prop :=
  run.aborted = false ∧ run.sent.map some = playedFrom read .clientToServer messages ∧
    ∀ finding ∈ run.findings, isMessageFinding finding = false

/-- Under every endpoint that answers, the script sends the client side once. -/
def SentOnce (codec : BodyCodec N) (sha256 : Bytes → String) (read : ReadBlob)
    (tolerance : Option Nat) (clock : Clock) (conversation : WebSocketConversation)
    (served : List Message) : Prop :=
  ∀ (σ : Type) (connection : Connection σ) (owed : σ → List Message) (closing : σ → Bool)
    (ending : Ending), Works connection owed closing →
      (compareWebsocketCandidate codec sha256 read tolerance clock connection ending conversation
        served).Exact read conversation.messages

def OnTime (tolerance : Option Nat) (observed : Nat) (entry : WebSocketMessage) : Prop :=
  ∀ limit ∈ tolerance, absDiff observed entry.deltaNs ≤ limit

/-- Nothing is remarked on: each server message matches its own record and each message is
on time; and no client message is left when the hour is over. -/
def Unremarked (codec : BodyCodec N) (read : ReadBlob) (tolerance : Option Nat) (clock : Clock) :
    Nat → List WebSocketMessage → Prop
  | _, [] => True
  | index, entry :: rest =>
      if conversationLimitNs ≤ clock.before index then
        entriesFrom .clientToServer (entry :: rest) = []
      else
        (entry.direction = .serverToClient → matchesItself codec read entry = true) ∧
          OnTime tolerance (clock.after index) entry ∧
          Unremarked codec read tolerance clock (index + 1) rest

/-- What the read after the loop has the endpoint answer, where a server message is left. -/
def lastAnswer (read : ReadBlob) (terminal : WebSocketTerminal) (closing : Bool)
    (entry : WebSocketMessage) : List Message :=
  match terminal, playedMessage read entry with
  | .abnormal _, some message => answer closing message
  | _, _ => []

/-- The answers outstanding are recorded where they are due: a ping comes only when none is
outstanding, a client message that comes while answers are outstanding is the oldest of
them, and in the end there are none. -/
def InTurn (read : ReadBlob) (clock : Clock) (terminal : WebSocketTerminal) :
    Nat → Bool → List Message → List WebSocketMessage → Prop
  | _, _, outstanding, [] => outstanding = []
  | index, closing, outstanding, entry :: rest =>
      if conversationLimitNs ≤ clock.before index then
        outstanding ++ lastAnswer read terminal closing entry = []
      else
        match entry.direction with
        | .clientToServer =>
            (outstanding = [] ∨ outstanding.head? = playedMessage read entry) ∧
              InTurn read clock terminal (index + 1) (closing || decide (entry.kind = .close))
                outstanding.tail rest
        | .serverToClient =>
            ∀ got, playedMessage read entry = some got →
              (entry.kind = .ping → outstanding = []) ∧
                InTurn read clock terminal (index + 1) (closing || isClose got)
                  (outstanding ++ answer closing got) rest

end EggReplay.Http.CandidateScript
