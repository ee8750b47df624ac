import EggReplay.Library.Stateful
import EggReplay.Http.StreamEventCapture
import EggReplay.Http.Transaction
import EggReplay.Store.Recording
import EggReplay.Store.Writer

/-!
The two recorders of one transaction: the same pipeline over the concurrent session and over
the single-owner writer, each with its own tee of the request body and its own end.
-/

namespace EggReplay.Http.Recorder

open EggReplay.Library.Checks
open EggReplay.Library.Text
open EggReplay.Library.Stateful
open EggReplay.Core.FlowRecord
open EggReplay.Core.StreamTimeline
open EggReplay.Core.Redaction
open EggReplay.Store.Fixture
open EggReplay.Store.Staging
open EggReplay.Store.Recording
open EggReplay.Store.Writer
open EggReplay.Http.StreamEventCapture
open EggReplay.Http.Transaction

variable {N σ : Type}

/-! ### Stores -/

/-- What a recorder asks of the store that it records into. -/
structure BodyStore (σ : Type) where
  beginBlob : Op StoreError σ BodyWriter
  writeAll : BodyWriter → Bytes → Op StoreError σ BodyWriter
  readStagingBounded : BodyWriter → Nat → Op StoreError σ Bytes
  finish : BodyWriter → Op StoreError σ BodyRef
  drop : BodyWriter → σ → σ
  appendFlow : Flow → Op StoreError σ Unit
  appendStreamEvents : FlowStreamEvents → Op StoreError σ Unit

def sessionStore (storage : Codec) : BodyStore RecordingInner where
  beginBlob := .ofStep fun inner => inner.beginBlob
  writeAll writer buffer := .ofStep fun inner => inner.writeBody writer buffer
  readStagingBounded writer maxBytes := fun inner =>
    (writer.readStagingBounded inner.directory maxBytes, inner)
  finish writer := fun inner =>
    ((inner.finishBody storage writer).2, (inner.finishBody storage writer).1)
  drop writer inner := inner.dropBody writer
  appendFlow flow := .ofStep fun inner => (inner.appendFlow flow).map fun next => (next, ())
  appendStreamEvents events := .ofStep fun inner =>
    (inner.appendStreamEvents events).map fun next => (next, ())

def SessionWriter.withDirectory (writer : SessionWriter) (directory : Directory) : SessionWriter :=
  { writer with directory := directory }

def writerStore (storage : Codec) : BodyStore SessionWriter where
  beginBlob := fun writer => (.ok writer.beginBlob.2, writer.beginBlob.1)
  writeAll body buffer := .ofStep fun writer =>
    (body.write writer.directory buffer).map fun written =>
      (SessionWriter.withDirectory writer written.1, written.2)
  readStagingBounded body maxBytes := fun writer =>
    (body.readStagingBounded writer.directory maxBytes, writer)
  finish body := fun writer =>
    (body.reference storage,
      SessionWriter.withDirectory writer (body.publish storage writer.directory))
  drop body writer := SessionWriter.withDirectory writer (body.drop writer.directory)
  appendFlow flow := .ofStep fun writer => (writer.appendFlow flow).map fun next => (next, ())
  appendStreamEvents events := .ofStep fun writer =>
    (writer.appendStreamEvents events).map fun next => (next, ())

/-- The text of the I/O error that a body writer gives. -/
def ioMessage : StoreError → String
  | .io message => message
  | other => other.display

def writeBody (store : BodyStore σ) (writer : BodyWriter) (buffer : Bytes) :
    Op HttpError σ BodyWriter :=
  (store.writeAll writer buffer).mapError fun error => .body (ioMessage error)

/-! ### The tee of the request body -/

/-- The push of one recorder's tee. -/
abbrev Push := List StreamEvent → StreamEvent → Except String (List StreamEvent)

structure TeeState where
  sink : BodyWriter
  trailers : List HeaderEntry
  events : List StreamEvent
  offset : Nat
  given : Bool

def TeeState.start (sink : BodyWriter) : TeeState where
  sink := sink
  trailers := []
  events := []
  offset := 0
  given := true

/-- One frame that the client takes. Where the sink or the push rejects it, the client is
given an error in its place. -/
def teeFrame (store : BodyStore σ) (push : Push) (tee : TeeState) (frame : TimedFrame) :
    Op HttpError σ TeeState := do
  if tee.given = false then pure tee
  else
    match frame.content with
    | .data bytes => do
        let written ← (store.writeAll tee.sink bytes).attempt
        match written with
        | .error _ => pure { tee with given := false }
        | .ok sink =>
            match push tee.events ⟨frame.deltaNs, .data tee.offset bytes.length⟩ with
            | .error _ => pure { tee with sink := sink, given := false }
            | .ok events =>
                pure
                  { tee with
                    sink := sink
                    events := events
                    offset := saturatingAdd tee.offset bytes.length }
    | .trailers fields =>
        let entries := (headerEntries fields).1
        let tee := { tee with trailers := tee.trailers ++ entries }
        match push tee.events ⟨frame.deltaNs, .trailers entries⟩ with
        | .error _ => pure { tee with given := false }
        | .ok events => pure { tee with events := events }

/-- A failure of the inbound body is not classified. -/
def requestEndEvent (offset : Nat) (ending : TimedEnd) : StreamEvent where
  deltaNs := ending.deltaNs
  event :=
    match ending.failure with
    | none => .finish
    | some _ => .error offset ErrorCategory.other.asStr ErrorPhase.body.asStr

/-- The end of the request body, where the client takes it: a push that fails is ignored. -/
def TeeState.finish (push : Push) (tee : TeeState) (ending : Option TimedEnd) : TeeState :=
  match ending with
  | none => tee
  | some ending =>
      if tee.given = false then tee
      else
        { tee with
          events :=
            match push tee.events (requestEndEvent tee.offset ending) with
            | .ok events => events
            | .error _ => tee.events }

def teeWith (store : BodyStore σ) (push : Push) (sink : BodyWriter) (exchange : Exchange) :
    Op HttpError σ TeeState := do
  let tee ← Op.fold (teeFrame store push) (.start sink) exchange.polled
  pure (tee.finish push exchange.requestEnd)

/-- The tee of the writer's recorder keeps no events. -/
def teeBody (store : BodyStore σ) (sink : BodyWriter) (exchange : Exchange) :
    Op HttpError σ TeeState :=
  teeWith store (fun _ _ => .ok []) sink exchange

def teeBodyWithSession (store : BodyStore σ) (sink : BodyWriter) (exchange : Exchange) :
    Op HttpError σ TeeState :=
  teeWith store pushStreamEventInner sink exchange

/-! ### The end of a staged body -/

def finishStaged (store : BodyStore σ) (codec : BodyCodec N) (settings : Settings)
    (isResponse : Bool) (refusal : String) (contentType : Option String) (staged : BodyWriter) :
    Op HttpError σ (BodyRef × List RedactionMarker) := do
  let publish : Op HttpError σ (BodyRef × List RedactionMarker) := do
    let body ← (store.finish staged).mapError .store
    pure (body, [])
  if staged.length = 0 then publish
  else if settings.redaction.wantsBodyRedaction = false then publish
  else if needsTransform settings.redaction contentType = false then
    if settings.redaction.jsonPaths ≠ ∅ then do
      Op.modify (store.drop staged)
      Op.fail (.body refusal)
    else publish
  else do
    let raw ← ((store.readStagingBounded staged settings.maxStructuredBytes).mapError
      fun error => .body error.display).onFailure (store.drop staged)
    Op.modify (store.drop staged)
    let transformed ← Op.ofExcept (transformBody codec raw contentType settings.redaction
      settings.profileId isResponse)
    if transformed.1 = [] then pure (.empty, transformed.2)
    else do
      let fresh ← store.beginBlob.mapError .store
      let fresh ← (writeBody store fresh transformed.1).onFailure (store.drop fresh)
      let body ← (store.finish fresh).mapError .store
      pure (body, transformed.2)

def finishSinkRedacted (store : BodyStore σ) (codec : BodyCodec N) (settings : Settings)
    (isResponse : Bool) (contentType : Option String) (staged : BodyWriter) :
    Op HttpError σ (BodyRef × List RedactionMarker) :=
  finishStaged store codec settings isResponse
    "body redaction requested but media type unsupported; failing closed" contentType staged

/-- The same steps, written out for the response in either recorder. -/
def finishResponse (store : BodyStore σ) (codec : BodyCodec N) (settings : Settings)
    (contentType : Option String) (staged : BodyWriter) :
    Op HttpError σ (BodyRef × List RedactionMarker) :=
  finishStaged store codec settings true
    "response body redaction requested but media type unsupported; failing closed" contentType
    staged

/-! ### The response -/

structure ResponseState where
  sink : BodyWriter
  trailers : List HeaderEntry
  events : List StreamEvent
  offset : Nat

def ResponseState.start (sink : BodyWriter) : ResponseState where
  sink := sink
  trailers := []
  events := []
  offset := 0

def pushStreamEvent (events : List StreamEvent) (event : StreamEvent) :
    Except HttpError (List StreamEvent) :=
  (pushStreamEventInner events event).mapError .body

def responseFrame (store : BodyStore σ) (state : ResponseState) (frame : TimedFrame) :
    Op HttpError σ ResponseState := do
  match frame.content with
  | .data bytes => do
      let sink ← writeBody store state.sink bytes
      let events ← Op.ofExcept (pushStreamEvent state.events
        ⟨frame.deltaNs, .data state.offset bytes.length⟩)
      pure
        { state with
          sink := sink
          events := events
          offset := saturatingAdd state.offset bytes.length }
  | .trailers fields => do
      let entries := (headerEntries fields).1
      let events ← Op.ofExcept (pushStreamEvent state.events ⟨frame.deltaNs, .trailers entries⟩)
      pure { state with trailers := entries, events := events }

def responseEndEvent (offset : Nat) (ending : TimedEnd) : StreamEvent where
  deltaNs := ending.deltaNs
  event :=
    match ending.failure with
    | none => .finish
    | some (category, phase) => .error offset category.asStr phase.asStr

def responseLoop (store : BodyStore σ) (sink : BodyWriter) (reply : Reply) :
    Op HttpError σ ResponseState := do
  let state ← Op.fold (responseFrame store) (.start sink) reply.frames
  let events ← Op.ofExcept (pushStreamEvent state.events
    (responseEndEvent state.offset reply.ending))
  pure { state with events := events }

/-- What the recorders keep of the outcome. -/
structure Observed where
  outcome : FlowOutcome
  transportNote : Option (String × String)
  markers : List RedactionMarker
  events : List StreamEvent

/-- The head is reconciled where the body was redacted; the notes on it are not kept. -/
def observeResponse (reply : Reply) (settings : Settings) (state : ResponseState)
    (body : BodyRef) (markers : List RedactionMarker) : Observed :=
  let headers := (headerEntries reply.headers).1
  let reconciled := reconcileHeadersAfterBodyRedaction headers (body.len.getD 0)
    settings.profileId
  { outcome := .response
      { status := reply.status
        headers := if markers = [] then headers else reconciled.headers
        body := body
        trailers := state.trailers }
    transportNote := negotiatedVersionAnnotation reply.http2
    markers := if markers = [] then [] else markers ++ reconciled.markers
    events := state.events }

def recordOutcome (store : BodyStore σ) (codec : BodyCodec N) (settings : Settings)
    (exchange : Exchange) : Op HttpError σ Observed :=
  match exchange.result with
  | .error failure =>
      pure { outcome := .error failure, transportNote := none, markers := [], events := [] }
  | .ok reply => do
      let sink ← store.beginBlob.mapError .store
      let state ← (responseLoop store sink reply).onFailure (store.drop sink)
      let stored ← finishResponse store codec settings (contentType reply.headers) state.sink
      pure (observeResponse reply settings state stored.1 stored.2)

/-! ### The recorders -/

/-- What both recorders have in hand before they differ again. -/
structure Capture where
  flow : Flow
  markers : List RedactionMarker
  lossyHeaderValues : Bool
  requestEvents : List StreamEvent
  responseEvents : List StreamEvent

def captureWith (store : BodyStore σ) (tee : BodyWriter → Exchange → Op HttpError σ TeeState)
    (codec : BodyCodec N) (settings : Settings) (exchange : Exchange) :
    Op HttpError σ Capture := do
  let converted ← Op.ofExcept (requestHead codec exchange.method exchange.uri exchange.headers)
  let sink ← store.beginBlob.mapError .store
  let tee ← tee sink exchange
  let stored ← finishSinkRedacted store codec settings false (contentType exchange.headers)
    tee.sink
  let observed ← recordOutcome store codec settings exchange
  let request := { converted.request with body := stored.1, trailers := tee.trailers }
  let flow := observedFlow exchange request observed.outcome observed.transportNote
  pure
    { flow := redactFlow flow settings.redaction settings.profileId
      markers := stored.2 ++ observed.markers
      lossyHeaderValues := converted.lossyHeaderValues
      requestEvents := tee.events
      responseEvents := reconcileStreamEventBodyLength observed.events observed.outcome }

def publishRecord (store : BodyStore σ) (flow : Flow) (events : FlowStreamEvents) :
    Op HttpError σ Flow := do
  (store.appendFlow flow).mapError .store
  (store.appendStreamEvents events).mapError .store
  pure flow

/-- The markers are appended to the flow before they are looked through: what is looked
through is what `append` leaves behind. -/
def finishWriterFlow (capture : Capture) (profile : String) : Flow :=
  let flow := { capture.flow with redactions := capture.flow.redactions ++ capture.markers }
  let remaining : List RedactionMarker := []
  noteLossyHeaders capture.lossyHeaderValues
    (if remaining.any isRequestBodyMarker = true then reconcileRequest flow profile else flow)

def finishSessionFlow (capture : Capture) (profile : String) : Flow :=
  let flow := { capture.flow with redactions := capture.flow.redactions ++ capture.markers }
  noteLossyHeaders capture.lossyHeaderValues
    (if flow.redactions.any isRequestBodyMarker = true then reconcileRequest flow profile
    else flow)

def recordRequest (storage : Codec) (codec : BodyCodec N) (settings : Settings)
    (exchange : Exchange) : Op HttpError SessionWriter Flow := do
  let capture ← captureWith (writerStore storage) (teeBody (writerStore storage)) codec settings
    exchange
  let flow := finishWriterFlow capture settings.profileId
  publishRecord (writerStore storage) flow
    { flowId := flow.id
      startOffsetNs := exchange.endOffsetNs
      request := []
      response := capture.responseEvents }

/-- The events that the session's recorder publishes with its flow. -/
def sessionEvents (exchange : Exchange) (capture : Capture) : FlowStreamEvents where
  flowId := capture.flow.id
  startOffsetNs := exchange.startOffsetNs
  request := capture.requestEvents
  response := capture.responseEvents

def recordRequestWithSession (storage : Codec) (codec : BodyCodec N) (settings : Settings)
    (exchange : Exchange) : Op HttpError RecordingInner Flow := do
  let capture ← captureWith (sessionStore storage) (teeBodyWithSession (sessionStore storage))
    codec settings exchange
  publishRecord (sessionStore storage) (finishSessionFlow capture settings.profileId)
    (sessionEvents exchange capture)

end EggReplay.Http.Recorder
