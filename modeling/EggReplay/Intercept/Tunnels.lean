import EggReplay.Library.TransitionSystem
import EggReplay.Library.Text

/-!
Opaque tunnels: the accept closure of a `CONNECT` request, the relay task that it spawns and
the byte-copying task that the relay spawns, one step of any of them at a time. Aborting a
task drops its future; a future that drops the handle of a task detaches the task.
-/

namespace EggReplay.Intercept.Tunnels

open EggReplay.Library.TransitionSystem

/-- The two bounds that the tasks themselves consult; the others are the moments at which a
relay may be cut off. -/
structure TunnelLimits where
  maxBytes : Nat
  maxConcurrent : Nat
  deriving DecidableEq, Repr

inductive TunnelOutcome where
  | completed | byteLimit | durationLimit | idleTimeout | relayError | shutdown
  deriving DecidableEq, Repr

def TunnelOutcome.asStr : TunnelOutcome → String
  | .completed => "completed"
  | .byteLimit => "byte-limit"
  | .durationLimit => "duration-limit"
  | .idleTimeout => "idle-timeout"
  | .relayError => "relay-error"
  | .shutdown => "shutdown"

structure TunnelRelaySummary where
  outcome : TunnelOutcome
  bytesClientToTarget : Nat
  bytesTargetToClient : Nat
  durationMs : Nat
  limitFired : Bool
  deriving DecidableEq, Repr

/-- The summary of a relay that was cancelled before it gave one. -/
def TunnelRelaySummary.shutdown : TunnelRelaySummary where
  outcome := .shutdown
  bytesClientToTarget := 0
  bytesTargetToClient := 0
  durationMs := 0
  limitFired := false

structure TunnelEvent where
  host : String
  port : Nat
  action : String
  outcome : String
  bytesClientToTarget : Nat
  bytesTargetToClient : Nat
  durationMs : Nat
  error : Option String
  deriving DecidableEq, Repr

def errorPreviewLen : Nat := 128

def preview (length : Nat) (s : String) : String :=
  String.ofList (s.toList.take length)

def TunnelEvent.new (host : String) (port : Nat) (summary : TunnelRelaySummary)
    (error : Option String) : TunnelEvent where
  host := preview 253 host
  port := port
  action := "tunnel"
  outcome := summary.outcome.asStr
  bytesClientToTarget := summary.bytesClientToTarget
  bytesTargetToClient := summary.bytesTargetToClient
  durationMs := summary.durationMs
  error := error.map (preview errorPreviewLen)

def maxEvents : Nat := 256

/-- The oldest event goes when the log is full. -/
def pushEvent (log : List TunnelEvent) (event : TunnelEvent) : List TunnelEvent :=
  (if maxEvents ≤ log.length then log.tail else log) ++ [event]

/-! ### The tasks of one request -/

/-- Where the accept closure stands; the permit is the closure's, from the dial on. -/
inductive AcceptPhase where
  | dialing | refused | established | polling | awaiting | recorded | released
  deriving DecidableEq, Repr

def AcceptPhase.holdsPermit : AcceptPhase → Bool
  | .dialing | .established | .polling | .awaiting | .recorded => true
  | .refused | .released => false

inductive RelayTask where
  | notSpawned
  | spawned
  | selecting
  | finished (summary : TunnelRelaySummary)
  | aborted
  deriving DecidableEq, Repr

/-- How `copy_bidirectional` and its task end; the bytes are counted by the meters. -/
inductive CopyEnd where
  | completed
  | failed
  | joinError (cancelled : Bool)
  deriving DecidableEq, Repr

inductive CopyTask where
  | notSpawned
  | live
  | finished (result : CopyEnd)
  | aborted
  deriving DecidableEq, Repr

structure Tunnel where
  host : String
  port : Nat
  accept : AcceptPhase
  cancelled : Bool
  relay : RelayTask
  copy : CopyTask
  clientBytes : Nat
  upstreamBytes : Nat
  limitHit : Bool
  event : Option TunnelRelaySummary
  deriving DecidableEq, Repr

/-- A request that has its permit and dials the target. -/
def Tunnel.dialing (host : String) (port : Nat) : Tunnel where
  host := host
  port := port
  accept := .dialing
  cancelled := false
  relay := .notSpawned
  copy := .notSpawned
  clientBytes := 0
  upstreamBytes := 0
  limitHit := false
  event := none

/-- How the race in the relay ends: with the copying task, at the deadline or without
progress. -/
inductive RelayEnd where
  | joined | long | quiet
  deriving DecidableEq, Repr

inductive TunnelAction where
  /-- The dial ends: it fails, takes too long, or its request is dropped; or it succeeds. -/
  | dialed (established : Bool)
  /-- The server refuses to accept the tunnel or drops the closure. -/
  | acceptFailed
  /-- The closure is run and spawns the relay. -/
  | entered
  | cancel
  /-- One round of the closure's loop. -/
  | poll
  /-- The first poll of the relay: it spawns the copying task. -/
  | relayStarts
  | transfer (fromClient : Bool) (fresh : Nat)
  | copyEnds (result : CopyEnd)
  | relayEnds (ended : RelayEnd) (durationMs : Nat)
  | record
  | release
  deriving DecidableEq, Repr

/-- `abort` on a task that has finished does nothing. -/
def RelayTask.abort : RelayTask → RelayTask
  | .spawned | .selecting => .aborted
  | .notSpawned => .notSpawned
  | .finished summary => .finished summary
  | .aborted => .aborted

def RelayTask.isFinished : RelayTask → Bool
  | .finished _ | .aborted => true
  | .notSpawned | .spawned | .selecting => false

def CopyTask.abort : CopyTask → CopyTask
  | .live => .aborted
  | .notSpawned => .notSpawned
  | .finished result => .finished result
  | .aborted => .aborted

def outcomeOf (limitHit : Bool) : CopyEnd → TunnelOutcome
  | .joinError cancelled => if cancelled && limitHit then .byteLimit else .shutdown
  | .failed => if limitHit then .byteLimit else .relayError
  | .completed => if limitHit then .byteLimit else .completed

def Tunnel.summary (tunnel : Tunnel) (outcome : TunnelOutcome) (durationMs : Nat) :
    TunnelRelaySummary where
  outcome := outcome
  bytesClientToTarget := tunnel.clientBytes
  bytesTargetToClient := tunnel.upstreamBytes
  durationMs := durationMs
  limitFired := tunnel.limitHit

/-- The outcome of a race that has ended; it is over with the copying task only once that
has finished. -/
def Tunnel.ended (tunnel : Tunnel) : RelayEnd → Option TunnelOutcome
  | .long => some .durationLimit
  | .quiet => some .idleTimeout
  | .joined =>
      match tunnel.copy with
      | .finished result => some (outcomeOf tunnel.limitHit result)
      | .notSpawned | .live | .aborted => none

/-- A metered read: the bytes that take the total over the limit end the copying. -/
def Tunnel.transfer (limits : TunnelLimits) (tunnel : Tunnel) (fromClient : Bool) (fresh : Nat) :
    Tunnel :=
  let clientBytes := tunnel.clientBytes + if fromClient = true then fresh else 0
  let upstreamBytes := tunnel.upstreamBytes + if fromClient = true then 0 else fresh
  let spent := decide (limits.maxBytes < clientBytes + upstreamBytes)
  { tunnel with
    clientBytes := clientBytes
    upstreamBytes := upstreamBytes
    limitHit := tunnel.limitHit || spent
    copy := if spent = true then .finished .failed else tunnel.copy }

def eventError : TunnelOutcome → Option String
  | .relayError | .shutdown => some "relay transport error"
  | .completed | .byteLimit | .durationLimit | .idleTimeout => none

/-- What awaiting the relay gives. -/
def RelayTask.result : RelayTask → Option TunnelRelaySummary
  | .finished summary => some summary
  | .aborted => some .shutdown
  | .notSpawned | .spawned | .selecting => none

def Tunnel.step (limits : TunnelLimits) (tunnel : Tunnel) : TunnelAction → Option Tunnel
  | .dialed established =>
      if tunnel.accept = .dialing then
        some { tunnel with accept := if established = true then .established else .refused }
      else none
  | .acceptFailed =>
      if tunnel.accept = .established then some { tunnel with accept := .refused } else none
  | .entered =>
      if tunnel.accept = .established then
        some { tunnel with accept := .polling, relay := .spawned }
      else none
  | .cancel => some { tunnel with cancelled := true }
  | .poll =>
      if tunnel.accept = .polling then
        if tunnel.cancelled = true then
          some { tunnel with accept := .awaiting, relay := tunnel.relay.abort }
        else if tunnel.relay.isFinished = true then some { tunnel with accept := .awaiting }
        else some tunnel
      else none
  | .relayStarts =>
      if tunnel.relay = .spawned then some { tunnel with relay := .selecting, copy := .live }
      else none
  | .transfer fromClient fresh =>
      if tunnel.copy = .live ∧ 0 < fresh then some (tunnel.transfer limits fromClient fresh)
      else none
  | .copyEnds result =>
      if tunnel.copy = .live then some { tunnel with copy := .finished result } else none
  | .relayEnds ended durationMs =>
      if tunnel.relay = .selecting then
        match tunnel.ended ended with
        | none => none
        | some outcome =>
            some
              { tunnel with
                relay := .finished (tunnel.summary outcome durationMs)
                copy := tunnel.copy.abort }
      else none
  | .record =>
      if tunnel.accept = .awaiting then
        match tunnel.relay.result with
        | none => none
        | some summary => some { tunnel with accept := .recorded, event := some summary }
      else none
  | .release =>
      if tunnel.accept = .recorded then some { tunnel with accept := .released } else none

/-! ### The proxy -/

/-- `available` are the permits left; intercepted connections take theirs from the same
semaphore. -/
structure ProxyState where
  available : Nat
  tunnels : List Tunnel
  intercepted : Nat
  rejected : Nat
  events : List TunnelEvent
  deriving DecidableEq, Repr

def ProxyState.start (limits : TunnelLimits) : ProxyState where
  available := limits.maxConcurrent
  tunnels := []
  intercepted := 0
  rejected := 0
  events := []

inductive ProxyAction where
  | connect (host : String) (port : Nat)
  | intercept
  | interceptEnds
  | tunnel (index : Nat) (action : TunnelAction)
  deriving DecidableEq, Repr

/-- The permits that a step of a tunnel gives back. -/
def released (before after : Tunnel) : Nat :=
  (before.accept.holdsPermit && !after.accept.holdsPermit).toNat

def logged (log : List TunnelEvent) (action : TunnelAction) (tunnel : Tunnel) :
    List TunnelEvent :=
  match action, tunnel.event with
  | .record, some summary =>
      pushEvent log (.new tunnel.host tunnel.port summary (eventError summary.outcome))
  | _, _ => log

def ProxyState.step (limits : TunnelLimits) (state : ProxyState) : ProxyAction → Option ProxyState
  | .connect host port =>
      if state.available = 0 then some { state with rejected := state.rejected + 1 }
      else
        some
          { state with
            available := state.available - 1
            tunnels := state.tunnels ++ [.dialing host port] }
  | .intercept =>
      if state.available = 0 then some { state with rejected := state.rejected + 1 }
      else
        some
          { state with available := state.available - 1, intercepted := state.intercepted + 1 }
  | .interceptEnds =>
      if state.intercepted = 0 then none
      else
        some
          { state with available := state.available + 1, intercepted := state.intercepted - 1 }
  | .tunnel index action =>
      match state.tunnels[index]? with
      | none => none
      | some tunnel =>
          match tunnel.step limits action with
          | none => none
          | some next =>
              some
                { state with
                  available := state.available + released tunnel next
                  tunnels := state.tunnels.set index next
                  events := logged state.events action next }

end EggReplay.Intercept.Tunnels
