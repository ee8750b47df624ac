import EggReplay.Library.LossyText
import EggReplay.Http.Recorder

/-!
A materialized request replayed against a candidate target, and the projection of the
candidate's response: the other reader of responses beside the recorder.
-/

namespace EggReplay.Http.Candidates

open EggReplay.Library.Checks
open EggReplay.Library.Text
open EggReplay.Library.LossyText
open EggReplay.Core.FlowRecord
open EggReplay.Core.StreamTimeline
open EggReplay.Core.Redaction
open EggReplay.Http.StreamEventCapture
open EggReplay.Http.Transaction
open EggReplay.Http.Recorder

variable {N : Type}

/-- The variants of the regression error that one execution returns. -/
inductive CandidateError where
  | conversion (message : String)
  | events (error : RegressionError)
  | bodyLimit (limit : Nat)
  deriving DecidableEq, Repr

structure CandidateObservation where
  flow : Flow
  responseBody : Bytes
  responseEvents : List StreamEvent
  deriving DecidableEq, Repr

/-! ### The request -/

/-- The conversions of the other packages that a request goes through. -/
structure RequestChecks where
  uri : String → Except String Uri
  method : String → Except String Unit
  headerName : String → Except String Unit
  headerValue : String → Except String Unit

structure OutgoingRequest where
  method : String
  uri : Uri
  headers : HeaderMap
  body : Bytes
  deriving DecidableEq, Repr

def targetUri (checks : RequestChecks) (codec : BodyCodec N) (base : Uri)
    (request : HttpRequest) : Except CandidateError Uri := do
  let scheme ← orFail base.scheme (.conversion "target base has no scheme")
  let authority ← orFail base.authority (.conversion "target base has no authority")
  let query := String.ofList ((decodeUtf8 (codec.serializeForm
    (request.query.map fun pair => (pair.key, pair.value)))).getD [])
  (checks.uri (scheme ++ "://" ++ authority ++ request.path ++
    if query = "" then "" else "?" ++ query)).mapError
      fun error => .conversion ("invalid target URI: " ++ error)

def checkHeader (checks : RequestChecks) (header : HeaderEntry) : Except CandidateError Unit := do
  (checks.headerName header.name).mapError .conversion
  (checks.headerValue header.value).mapError .conversion

def outgoingField (header : HeaderEntry) : HeaderField where
  name := toAsciiLowercase header.name
  value := utf8 header.value.toList

def outgoingRequest (checks : RequestChecks) (codec : BodyCodec N) (base : Uri)
    (request : HttpRequest) (requestBody : Bytes) : Except CandidateError OutgoingRequest := do
  let uri ← targetUri checks codec base request
  (checks.method request.method).mapError .conversion
  checkAll (checkHeader checks) request.headers
  pure
    { method := request.method
      uri := uri
      headers := request.headers.map outgoingField
      body := requestBody }

/-! ### The response -/

def candidateEntry (field : HeaderField) : HeaderEntry where
  name := field.name
  value := fromUtf8Lossy field.value

structure CandidateState where
  bytes : Bytes
  trailers : List HeaderEntry
  events : List StreamEvent
  offset : Nat

def CandidateState.start : CandidateState where
  bytes := []
  trailers := []
  events := []
  offset := 0

def CandidateState.push (state : CandidateState) (event : StreamEvent) :
    Except CandidateError CandidateState := do
  let events ← (pushCandidateEvent state.events event).mapError .events
  pure { state with events := events }

def CandidateState.frame (maxBodyBytes : Nat) (state : CandidateState) (frame : TimedFrame) :
    Except CandidateError CandidateState := do
  match frame.content with
  | .data data => do
      if data = [] then pure state
      else do
        ensure (state.bytes.length + data.length ≤ maxBodyBytes) (.bodyLimit maxBodyBytes)
        let state := { state with bytes := state.bytes ++ data }
        let state ← state.push ⟨frame.deltaNs, .data state.offset data.length⟩
        pure { state with offset := saturatingAdd state.offset data.length }
  | .trailers fields =>
      let state := { state with trailers := fields.map candidateEntry }
      state.push ⟨frame.deltaNs, .trailers state.trailers⟩

def candidateBody (maxBodyBytes : Nat) (reply : Reply) :
    Except CandidateError CandidateState := do
  let state ← checkFold (CandidateState.frame maxBodyBytes) .start reply.frames
  state.push (responseEndEvent state.offset reply.ending)

/-- An execution with what it observes of its own. -/
structure Execution where
  request : HttpRequest
  requestBody : Bytes
  targetBase : Uri
  maxBodyBytes : Nat
  physicalRoute : Option PhysicalRoute
  uuid : String
  startMs : Nat
  elapsedMs : Nat

def candidateFlow (execution : Execution) (outcome : FlowOutcome) : Flow where
  schemaVersion := flowSchemaVersion
  id := "flow-" ++ Nat.repr execution.startMs ++ "-" ++ execution.uuid
  startedAtMs := execution.startMs
  completedAtMs := some (saturatingAdd execution.startMs execution.elapsedMs)
  request := execution.request
  outcome := outcome
  physicalRoute := execution.physicalRoute
  provenance := { mode := "eggfetch-native-candidate", observer := "eggreplay" }
  annotations := []
  redactions := []

def observeCandidate (execution : Execution) (reply : Reply) (state : CandidateState) :
    CandidateObservation where
  flow := candidateFlow execution (.response
    { status := reply.status
      headers := reply.headers.map candidateEntry
      body := if state.bytes = [] then .empty else .absent
      trailers := state.trailers })
  responseBody := state.bytes
  responseEvents := state.events

def executeCandidate (checks : RequestChecks) (codec : BodyCodec N)
    (client : OutgoingRequest → Except FlowError Reply) (execution : Execution) :
    Except CandidateError CandidateObservation := do
  let outgoing ← outgoingRequest checks codec execution.targetBase execution.request
    execution.requestBody
  match client outgoing with
  | .error failure =>
      pure
        { flow := candidateFlow execution (.error failure)
          responseBody := []
          responseEvents := [] }
  | .ok reply => do
      let state ← candidateBody execution.maxBodyBytes reply
      pure (observeCandidate execution reply state)

theorem executeCandidate_eq_ok {checks : RequestChecks} {codec : BodyCodec N}
    {client : OutgoingRequest → Except FlowError Reply} {execution : Execution}
    {observation : CandidateObservation}
    (h : executeCandidate checks codec client execution = .ok observation) :
    ∃ outgoing, outgoingRequest checks codec execution.targetBase execution.request
        execution.requestBody = .ok outgoing ∧
      ∀ reply, client outgoing = .ok reply →
        ∃ state, candidateBody execution.maxBodyBytes reply = .ok state ∧
          observation = observeCandidate execution reply state := by
  rw [executeCandidate, bind_eq_ok] at h
  obtain ⟨outgoing, houtgoing, h⟩ := h
  refine ⟨outgoing, houtgoing, ?_⟩
  intro reply hreply
  rw [hreply] at h
  simp only [bind_eq_ok, pure_eq_ok] at h
  obtain ⟨state, hstate, rfl⟩ := h
  exact ⟨state, hstate, rfl⟩

end EggReplay.Http.Candidates
