import EggReplay.Core.Redaction
import EggReplay.Core.StreamTimeline
import EggReplay.Store.Fixture

/-!
One observed transaction and its conversion: the request head, header values that are no
text, media types, and the transform of a body before it is stored.
-/

namespace EggReplay.Http.Transaction

open EggReplay.Library.Checks
open EggReplay.Library.Text
open EggReplay.Core.FlowRecord
open EggReplay.Core.StreamTimeline
open EggReplay.Core.Redaction
open EggReplay.Store.Fixture

variable {N : Type}

inductive HttpError where
  | conversion (message : String)
  | body (message : String)
  | store (error : StoreError)
  deriving DecidableEq, Repr

/-! ### Headers -/

structure HeaderField where
  name : String
  value : Bytes
  deriving DecidableEq, Repr

/-- The fields of a header map in its iteration order. -/
abbrev HeaderMap := List HeaderField

def isVisibleAscii (byte : UInt8) : Bool :=
  32 ≤ byte && byte < 127 || byte == 9

/-- `HeaderValue::to_str`. -/
def toStr (value : Bytes) : Option String :=
  if value.all isVisibleAscii = true then
    some (String.ofList (value.map fun byte => Char.ofNat byte.toNat))
  else none

def headerEntry (field : HeaderField) : HeaderEntry where
  name := toAsciiLowercase field.name
  value := (toStr field.value).getD (String.ofList (field.value.flatMap hexByte))

/-- The entries, and whether a value had to be written in hexadecimal. -/
def headerEntries (headers : HeaderMap) : List HeaderEntry × Bool :=
  (headers.map headerEntry, headers.any fun field => (toStr field.value).isNone)

def contentType (headers : HeaderMap) : Option String :=
  ((headers.find? fun field => eqIgnoreAsciiCase field.name "content-type").bind
    fun field => toStr field.value).map fun value =>
      toAsciiLowercase (trim ((split value ';').headD value))

def isJsonContentType (contentType : Option String) : Bool :=
  match contentType with
  | some value => decide (value = "application/json") || endsWith value "+json"
  | none => false

def isFormContentType (contentType : Option String) : Bool :=
  decide (contentType = some "application/x-www-form-urlencoded")

/-! ### The request head -/

structure Uri where
  scheme : Option String
  authority : Option String
  path : String
  query : Option String
  deriving DecidableEq, Repr

structure RecordedRequest where
  request : HttpRequest
  lossyHeaderValues : Bool
  deriving DecidableEq, Repr

/-- What comes after the last `@`, so that no user information is kept. -/
def withoutUserinfo (authority : String) : String :=
  match rsplitOnce authority '@' with
  | some (_, host) => host
  | none => authority

def parseQuery (codec : BodyCodec N) (query : String) : List QueryPair :=
  (codec.parseForm (utf8 query.toList)).map fun pair => { key := pair.1, value := pair.2 }

def requestHead (codec : BodyCodec N) (method : String) (uri : Uri) (headers : HeaderMap) :
    Except HttpError RecordedRequest := do
  let scheme ← orFail uri.scheme (.conversion "request URI has no scheme")
  let authority ← orFail uri.authority (.conversion "request URI has no authority")
  pure
    { request :=
        { method := method
          scheme := scheme
          authority := withoutUserinfo authority
          path := uri.path
          query := (uri.query.map (parseQuery codec)).getD []
          headers := (headerEntries headers).1
          body := .absent
          trailers := [] }
      lossyHeaderValues := (headerEntries headers).2 }

/-! ### Bodies before storage -/

structure Settings where
  redaction : RedactionConfig
  profileId : String
  maxStructuredBytes : Nat

def needsTransform (config : RedactionConfig) (contentType : Option String) : Bool :=
  (decide (config.jsonPaths ≠ ∅) && isJsonContentType contentType) ||
    (decide (config.queryKeys ≠ ∅) && isFormContentType contentType)

def formMarkers (keys : Finset String) (profile : String) (isResponse : Bool) :
    List RedactionMarker :=
  (keys.sort (· ≤ ·)).map fun key =>
    { field := (if isResponse = true then "response." else "request.") ++ "body.form:" ++ key
      profile := profile }

def transformBody (codec : BodyCodec N) (original : Bytes) (contentType : Option String)
    (config : RedactionConfig) (profile : String) (isResponse : Bool) :
    Except HttpError (Bytes × List RedactionMarker) :=
  if original = [] then pure ([], [])
  else if config.jsonPaths ≠ ∅ ∧ isJsonContentType contentType = true then do
    let redacted ← (applyJsonRedaction codec original config.jsonPaths).mapError .body
    pure (redacted.1, pushBodyMarkers [] config.jsonPaths profile isResponse)
  else if config.queryKeys ≠ ∅ ∧ isFormContentType contentType = true then do
    let redacted ← (applyFormRedaction codec original config.queryKeys).mapError .body
    pure (redacted.1, formMarkers config.queryKeys profile isResponse)
  else if config.jsonPaths ≠ ∅ then
    throw (.body "body redaction requested but media type unsupported; failing closed")
  else pure (original, [])

/-- Marks the response as one that came over HTTP/2. -/
def negotiatedVersionAnnotation (http2 : Bool) : Option (String × String) :=
  if http2 = true then some ("transport", "http-version:h2") else none

/-! ### A transaction -/

inductive Frame where
  | data (bytes : Bytes)
  | trailers (fields : HeaderMap)
  deriving DecidableEq, Repr

structure TimedFrame where
  deltaNs : Nat
  content : Frame
  deriving DecidableEq, Repr

/-- The end of a body, with the class of a failure. -/
structure TimedEnd where
  deltaNs : Nat
  failure : Option (ErrorCategory × ErrorPhase)
  deriving DecidableEq, Repr

structure Reply where
  status : Nat
  http2 : Bool
  headers : HeaderMap
  frames : List TimedFrame
  ending : TimedEnd
  deriving DecidableEq, Repr

/-- Everything that one call observes: the request, the frames of its body that the client
took and how that body ended if it took the end, and what came back. A transport failure
is given as the flow error that it is mapped to. -/
structure Exchange where
  method : String
  uri : Uri
  headers : HeaderMap
  polled : List TimedFrame
  requestEnd : Option TimedEnd
  result : Except FlowError Reply
  uuid : String
  startedAtMs : Nat
  completedAtMs : Nat
  startOffsetNs : Nat
  endOffsetNs : Nat
  physicalRoute : Option PhysicalRoute

/-! ### Before publication -/

def isData (event : StreamEvent) : Bool :=
  match event.event with
  | .data _ _ => true
  | .trailers _ | .finish | .error _ _ _ => false

def errorAt (offset : Nat) (event : StreamEvent) : StreamEvent :=
  match event.event with
  | .error _ category phase => { event with event := .error offset category phase }
  | .data _ _ | .trailers _ | .finish => event

/-- Where the stored body has another length than the DATA events, one DATA event of that
length takes the place of the first. -/
def reconcileStreamEventBodyLength (events : List StreamEvent) (outcome : FlowOutcome) :
    List StreamEvent :=
  match outcome with
  | .error _ => events
  | .response response =>
      let expected := response.body.len.getD 0
      if dataLength events = expected then events
      else
        let firstDelta := ((events.find? isData).map (·.deltaNs)).getD 0
        let others := events.filter fun event => !isData event
        let insertAt := min ((events.findIdx? isData).getD others.length) others.length
        let inserted :=
          if 0 < expected then
            others.take insertAt ++
              { deltaNs := firstDelta, event := .data 0 expected } :: others.drop insertAt
          else others
        inserted.map (errorAt expected)

/-- `Flow::new`, and the fields that both recorders set next. -/
def observedFlow (exchange : Exchange) (request : HttpRequest) (outcome : FlowOutcome)
    (transportNote : Option (String × String)) : Flow where
  schemaVersion := flowSchemaVersion
  id := "flow-" ++ Nat.repr exchange.startedAtMs ++ "-" ++ exchange.uuid
  startedAtMs := exchange.startedAtMs
  completedAtMs := some exchange.completedAtMs
  request := request
  outcome := outcome
  physicalRoute := exchange.physicalRoute
  provenance := { mode := "eggfetch-native", observer := "eggreplay-http" }
  annotations := transportNote.toList
  redactions := []

def isRequestBodyMarker (marker : RedactionMarker) : Bool :=
  startsWith marker.field "request.body.json:" || startsWith marker.field "request.body.form:"

def reconcileRequest (flow : Flow) (profile : String) : Flow :=
  let reconciled := reconcileHeadersAfterBodyRedaction flow.request.headers
    (flow.request.body.len.getD 0) profile
  { flow with
    request := { flow.request with headers := reconciled.headers }
    redactions := flow.redactions ++ reconciled.markers
    annotations := flow.annotations ++ reconciled.annotations }

def noteLossyHeaders (lossy : Bool) (flow : Flow) : Flow :=
  if lossy = true then
    { flow with
      annotations := flow.annotations ++ [("conversion", "opaque-header-values-escaped")] }
  else flow

end EggReplay.Http.Transaction
