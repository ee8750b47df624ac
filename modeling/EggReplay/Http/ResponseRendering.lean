import EggReplay.Core.StreamTimeline
import EggReplay.Store.Fixture

/-!
The rendering of a recorded response: the head, the schedule of the body's segments, and the
stream that reads the stored blob along it. The checks of the HTTP packages on a head and on
trailers are parameters.
-/

namespace EggReplay.Http.ResponseRendering

open EggReplay.Library.Checks
open EggReplay.Library.Text
open EggReplay.Core.FlowRecord
open EggReplay.Core.StreamTimeline
open EggReplay.Store.Fixture

inductive ServiceError where
  | internal (message : String)
  | rejected (status : Nat) (message : String)
  deriving DecidableEq, Repr

/-! ### Stored blobs -/

/-- A file and its reads: at each offset, how much one read gives at most, or that it
fails. File offsets are signed 64-bit numbers. -/
structure BlobFile where
  content : Bytes
  size_lt : content.length < 2 ^ 63
  given : Nat → Option Nat

/-- One read into a buffer; it is empty at the end of the file only. -/
def BlobFile.readAt (file : BlobFile) (offset bufferLength : Nat) : Except String Bytes :=
  match file.given offset with
  | none => .error "read failed"
  | some count => .ok ((file.content.drop offset).take (min bufferLength (max count 1)))

/-- The files under `blobs`, by digest. -/
abbrev BlobFiles := String → Option BlobFile

def openBlob (limits : StoreLimits) (files : BlobFiles) (blob : BlobRef) :
    Except StoreError BlobFile := do
  validateDigest blob.sha256
  ensure (blob.length ≤ limits.maxBlobBytes) (.invalid "blob exceeds configured limit")
  let file ← orFail (files blob.sha256) (.io "No such file or directory")
  ensure (file.content.length = blob.length) (.integrity blob.sha256)
  pure file

/-- The file of a blob that is verified against its reference first. -/
def bodyPath (sha256 : Bytes → String) (limits : StoreLimits) (files : BlobFiles)
    (blob : BlobRef) : Except StoreError BlobFile := do
  validateDigest blob.sha256
  ensure (blob.length ≤ limits.maxBlobBytes) (.invalid "blob exceeds configured limit")
  let file ← orFail (files blob.sha256) (.io "No such file or directory")
  ensure (file.content.length = blob.length ∧ sha256 file.content = blob.sha256)
    (.integrity blob.sha256)
  pure file

/-! ### The schedule -/

inductive TimedStreamStep where
  | data (delayNs length : Nat)
  | error (delayNs : Nat) (message : String)
  deriving DecidableEq, Repr

structure Schedule where
  steps : List TimedStreamStep := []
  previousDelta : Nat := 0
  accumulatedDelay : Nat := 0
  trailerDelay : Nat := 0
  terminalDelay : Nat := 0
  terminalError : Bool := false
  deriving DecidableEq, Repr

def scheduleEvent (timing : StreamTimingMode) (schedule : Schedule) (event : StreamEvent) :
    Except String Schedule := do
  let delay ← timing.delayNs (event.deltaNs - schedule.previousDelta) schedule.accumulatedDelay
  let schedule :=
    { schedule with
      previousDelta := event.deltaNs
      accumulatedDelay := saturatingAdd schedule.accumulatedDelay delay }
  match event.event with
  | .data _ length =>
      pure { schedule with steps := schedule.steps ++ [.data delay length] }
  | .trailers _ => pure { schedule with trailerDelay := delay }
  | .error _ category phase =>
      pure
        { schedule with
          terminalError := true
          steps := schedule.steps ++
            [.error delay ("recorded stream error: " ++ category ++ "/" ++ phase)] }
  | .finish => pure { schedule with terminalDelay := delay }

def buildSchedule (timing : StreamTimingMode) (events : List StreamEvent) :
    Except String Schedule :=
  checkFold (scheduleEvent timing) {} events

/-! ### The body stream -/

structure BodyState where
  file : Option BlobFile
  hashed : Bytes
  read : Nat
  terminal : Bool
  steps : List TimedStreamStep
  segmentRemaining : Nat

def BodyState.start (file : BlobFile) (steps : List TimedStreamStep) : BodyState where
  file := some file
  hashed := []
  read := 0
  terminal := false
  steps := steps
  segmentRemaining := 0

/-- What one poll gives, after the delay before it. -/
structure Polled where
  delayNs : Nat
  item : Except String Bytes

def maxChunkBytes : Nat := 64 * 1024

def BodyState.stop (state : BodyState) : BodyState :=
  { state with file := none, hashed := [], terminal := true }

/-- The read of a poll, into a buffer that does not reach past the segment. -/
def BodyState.readSegment (state : BodyState) (sha256 : Bytes → String) (blob : BlobRef)
    (file : BlobFile) (delayNs : Nat) : Option (Polled × BodyState) :=
  let maxChunk :=
    if state.segmentRemaining = 0 then maxChunkBytes
    else min state.segmentRemaining maxChunkBytes
  match file.readAt state.read maxChunk with
  | .error message => some (⟨delayNs, .error message⟩, state.stop)
  | .ok [] =>
      if state.read ≠ blob.length ∨ sha256 state.hashed ≠ blob.sha256 then
        some (⟨delayNs, .error ("blob integrity failure for " ++ blob.sha256 ++ " (read " ++
          Nat.repr state.read ++ " of " ++ Nat.repr blob.length ++ ")")⟩, state.stop)
      else none
  | .ok chunk =>
      let read := state.read + chunk.length
      if blob.length < read then
        some (⟨delayNs, .error ("blob integrity failure for " ++ blob.sha256)⟩,
          { state.stop with read := read })
      else
        some (⟨delayNs, .ok chunk⟩,
          { state with
            hashed := state.hashed ++ chunk
            read := read
            segmentRemaining := state.segmentRemaining - chunk.length })

def BodyState.poll (sha256 : Bytes → String) (blob : BlobRef) (state : BodyState) :
    Option (Polled × BodyState) :=
  match state.terminal, state.file with
  | false, some file =>
      match state.segmentRemaining, state.steps with
      | 0, .error delay message :: steps =>
          some (⟨delay, .error message⟩, { state.stop with steps := steps })
      | 0, .data delay length :: steps =>
          { state with steps := steps, segmentRemaining := length }.readSegment sha256 blob file
            delay
      | _, _ => state.readSegment sha256 blob file 0
  | _, _ => none

/-- The stream that only reads on; `none` where the file is to be opened again. -/
def pollFile (file : BlobFile) (offset : Option Nat) : Option (Polled × Option Nat) :=
  match file.readAt (offset.getD 0) maxChunkBytes with
  | .error message => some (⟨0, .error message⟩, none)
  | .ok [] => none
  | .ok chunk => some (⟨0, .ok chunk⟩, some (offset.getD 0 + chunk.length))

/-! ### The response -/

inductive ByteStream where
  | timed (blob : BlobRef) (state : BodyState)
  | plain (file : BlobFile) (offset : Option Nat)

def ByteStream.poll (sha256 : Bytes → String) : ByteStream → Option (Polled × ByteStream)
  | .timed blob state => (state.poll sha256 blob).map fun next => (next.1, .timed blob next.2)
  | .plain file offset => (pollFile file offset).map fun next => (next.1, .plain file next.2)

structure ResponseStream where
  bytes : ByteStream
  knownLength : Option Nat
  trailerDelay : Nat
  trailers : List HeaderEntry

inductive ResponseBody where
  | empty
  | bytes (content : Bytes)
  | stream (stream : ResponseStream)

structure Response where
  status : Nat
  headers : List HeaderEntry
  body : ResponseBody

/-- The checks of the other packages on what a response is built from. -/
structure HttpChecks where
  status : Nat → Except String Unit
  header : HeaderEntry → Except String Unit
  trailers : List HeaderEntry → Except String Unit

def buildHead (checks : HttpChecks) (status : Nat) (headers : List HeaderEntry) :
    Except ServiceError Unit := do
  (checks.status status).mapError .internal
  checkAll (fun header => (checks.header header).mapError .internal) headers

def buildResponse (checks : HttpChecks) (status : Nat) (headers : List HeaderEntry)
    (body : ResponseBody) : Except ServiceError Response := do
  buildHead checks status headers
  pure { status := status, headers := headers, body := body }

def responseBytes (checks : HttpChecks) (status : Nat) (text : String) :
    Except ServiceError Response :=
  buildResponse checks status [] (.bytes (utf8 text.toList))

/-- `content-length` frames one connection: it is left out over HTTP/2. -/
def renderRecordedHeaders (http2 : Bool) (headers : List HeaderEntry) : List HeaderEntry :=
  if http2 = true then
    headers.filter fun header => !eqIgnoreAsciiCase header.name "content-length"
  else headers

/-- A selected candidate: a response of the fixture, or one appended since. -/
structure Selection where
  response : HttpResponse
  inAppend : Bool
  recorded : Option FlowStreamEvents
  timing : StreamTimingMode

def Selection.recordedEvents (selection : Selection) : List StreamEvent :=
  (selection.recorded.map FlowStreamEvents.response).getD []

/-- The files that hold the body of a selection. -/
def Selection.files (fixture recording : BlobFiles) (selection : Selection) : BlobFiles :=
  if selection.inAppend = true then recording else fixture

/-- The events that the rendering gets to see. -/
def Selection.streamEvents (selection : Selection) : List StreamEvent :=
  if selection.inAppend = true then [] else selection.recordedEvents

def timedStream (blob : BlobRef) (file : BlobFile) (schedule : Schedule)
    (trailers : List HeaderEntry) : ResponseStream where
  bytes := .timed blob (.start file schedule.steps)
  knownLength := if schedule.terminalError = true then none else some blob.length
  trailerDelay :=
    if schedule.terminalError = true then 0
    else saturatingAdd schedule.trailerDelay schedule.terminalDelay
  trailers := trailers

def responseStream (file : BlobFile) (length : Nat) (trailers : List HeaderEntry) :
    ResponseStream where
  bytes := .plain file none
  knownLength := some length
  trailerDelay := 0
  trailers := trailers

/-- A response that is no upgrade. -/
def renderResponse (checks : HttpChecks) (sha256 : Bytes → String) (limits : StoreLimits)
    (fixture recording : BlobFiles) (http2 : Bool) (selection : Selection) :
    Except ServiceError Response :=
  let status := selection.response.status
  let headers := renderRecordedHeaders http2 selection.response.headers
  match selection.response.body with
  | .absent | .empty => buildResponse checks status headers .empty
  | .blob blob =>
      if selection.inAppend = true then do
        let file ← (bodyPath sha256 limits recording blob).mapError
          fun error => .internal error.display
        buildResponse checks status headers
          (.stream (responseStream file blob.length selection.response.trailers))
      else do
        let file ← (openBlob limits fixture blob).mapError fun error => .internal error.display
        match buildSchedule selection.timing selection.streamEvents with
        | .error error =>
            responseBytes checks 500 ("invalid replay timing: " ++ error ++ "\n")
        | .ok schedule =>
            buildResponse checks status headers
              (.stream (timedStream blob file schedule selection.response.trailers))

/-! ### What the client is given -/

inductive Ending where
  | clean (trailers : List HeaderEntry)
  | failed (message : String)
  deriving DecidableEq, Repr

structure Played where
  chunks : List Bytes
  ending : Ending
  deriving DecidableEq, Repr

/-- The trailers after a body that has ended. -/
def ResponseStream.finish (checks : HttpChecks) (stream : ResponseStream) : Ending :=
  if stream.trailers = [] then .clean []
  else
    match checks.trailers stream.trailers with
    | .ok _ => .clean stream.trailers
    | .error message => .failed message

def ByteStream.play (sha256 : Bytes → String) (finish : Ending) :
    Nat → ByteStream → Option Played
  | 0, _ => none
  | fuel + 1, stream =>
      match stream.poll sha256 with
      | none => some { chunks := [], ending := finish }
      | some (polled, next) =>
          match polled.item with
          | .error message => some { chunks := [], ending := .failed message }
          | .ok chunk => (next.play sha256 finish fuel).map fun played =>
              { played with chunks := chunk :: played.chunks }

/-- The body as the connection drains it, given enough polls. -/
def ResponseBody.play (checks : HttpChecks) (sha256 : Bytes → String) (fuel : Nat) :
    ResponseBody → Option Played
  | .empty => some { chunks := [], ending := .clean [] }
  | .bytes content => some { chunks := [content], ending := .clean [] }
  | .stream source => source.bytes.play sha256 (source.finish checks) fuel

end EggReplay.Http.ResponseRendering
