import EggReplay.Har.HarDocuments
import EggReplay.Library.Stateful
import EggReplay.Store.Writer

/-!
The import of a HAR document: every entry is read and checked before anything is written, then
bodies and flows go to the writer one after the other.
-/

namespace EggReplay.Har.HarImport

open EggReplay.Library.Checks
open EggReplay.Library.JsonText
open EggReplay.Library.Stateful
open EggReplay.Library.Text
open EggReplay.Core.FlowRecord
open EggReplay.Core.Redaction
open EggReplay.Core.StreamTimeline
open EggReplay.Har.HarDocuments
open EggReplay.Store.Fixture
open EggReplay.Store.Staging
open EggReplay.Store.Writer

variable {N R : Type}

/-- What an import is called with, beside its writer and document: `uniqueSuffix` is what the
process id and the clock give for the flow of an entry. -/
structure ImportSettings (N R : Type) where
  libraries : HarLibraries N R
  redaction : RedactionConfig
  profileId : String
  maxStructuredBytes : Nat
  maxBlobBytes : Nat
  uniqueSuffix : Nat → String

/-- An import that does not come to a report. -/
inductive HarStop where
  | panicked
  | failed (error : HarError)
  deriving DecidableEq, Repr

/-! ### Truncation -/

/-- The text of so many octets at the front; none where no character ends there. -/
def sliceTo : List Char → Nat → Option (List Char)
  | _, 0 => some []
  | [], _ + 1 => none
  | c :: rest, max + 1 =>
      if c.utf8Size ≤ max + 1 then (sliceTo rest (max + 1 - c.utf8Size)).map (c :: ·) else none

/-- A slice inside a character panics. -/
def truncateBounded (input : String) (max : Nat) : Option String :=
  if input.utf8ByteSize ≤ max then some input
  else (sliceTo input.toList max).map fun chars => String.ofList chars ++ "…"

/-! ### The request -/

def containsText (text part : String) : Bool := decide (part.toList <:+: text.toList)

def userinfoLosses (libraries : HarLibraries N R) (index : Nat) (url : String) : List HarLoss :=
  match libraries.parseUrl url with
  | none => []
  | some parsed =>
      lossIf (containsChar url '@' = true ∧ (parsed.username ≠ "" ∨ parsed.password.isSome = true))
        (.entry index "request.url.userinfo" "URL userinfo stripped; never persisted" .redacted)

structure ImportedQuery where
  query : List QueryPair
  losses : List HarLoss
  deriving DecidableEq, Repr

/-- The array is authoritative, unless it is empty and the URL has a query. -/
def crossCheckQuery (libraries : HarLibraries N R) (index : Nat) (url : String)
    (query : List QueryPair) : ImportedQuery :=
  match libraries.parseUrl url with
  | none => { query, losses := [] }
  | some parsed =>
      if parsed.queryPairs = query.map fun pair => (pair.key, pair.value) then
        { query, losses := [] }
      else if query = [] ∧ parsed.queryPairs ≠ [] then
        { query := parsed.queryPairs.map fun pair => { key := pair.1, value := pair.2 }
          losses := [.entry index "request.queryString"
            "empty queryString adopted from URL query component" .annotated] }
      else
        { query
          losses := [.entry index "request.queryString"
            "queryString array and URL query component disagree; array is authoritative"
            .annotated] }

def importQuery (libraries : HarLibraries N R) (index : Nat) (request : HarRequest) :
    Except HarError ImportedQuery := do
  ensure (request.queryString.length ≤ 1024)
    (.unsupportedEntry index "query parameter count exceeds limit")
  let query ← request.queryString.mapM fun param => do
    ensure (param.name.utf8ByteSize ≤ 1024 ∧ param.value.utf8ByteSize ≤ 8192)
      (.unsupportedEntry index "query parameter exceeds limit")
    pure ({ key := param.name, value := param.value } : QueryPair)
  pure (crossCheckQuery libraries index request.url query)

/-- The cookies array is a view of the headers; what is missing there is counted. -/
def cookieLosses (index : Nat) (headers : List HeaderEntry) (cookies : List String) :
    List HarLoss :=
  let text := String.intercalate "; " ((headers.filter fun header =>
    eqIgnoreAsciiCase header.name "cookie" || eqIgnoreAsciiCase header.name "cookie2").map
      HeaderEntry.value)
  let missing := (cookies.filter fun name => !containsText text name).length
  lossIf (cookies ≠ []) <|
    if 0 < missing then
      .entry index "request.cookies" (Nat.repr missing ++
        " cookie(s) have no corresponding Cookie header; headers array is authoritative") .annotated
    else
      .entry index "request.cookies"
        "cookies array is a derived view of Cookie headers; headers array is authoritative"
        .annotated

/-- A version other than 1.1. -/
def OtherVersion (version : Option String) : Prop :=
  ∃ text, version = some text ∧ text ≠ "http/1.1" ∧ text ≠ "HTTP/1.1"

instance (version : Option String) : Decidable (OtherVersion version) :=
  decidable_of_iff (∃ text ∈ version, text ≠ "http/1.1" ∧ text ≠ "HTTP/1.1")
    (by simp only [OtherVersion, Option.mem_def])

def requestLosses (index : Nat) (headers : List HeaderEntry) (request : HarRequest) :
    List HarLoss :=
  cookieLosses index headers request.cookies ++
    lossIf (OtherVersion request.httpVersion)
      (.entry index "request.httpVersion" ("HTTP version " ++ request.httpVersion.getD "" ++
        " has no semantic representation; treated as version-agnostic") .annotated) ++
    lossIf (request.comment.isSome = true)
      (.entry index "request.comment" "HAR comment preserved as flow annotation" .annotated)

structure RawBody where
  bytes : Bytes
  losses : List HarLoss
  deriving DecidableEq, Repr

/-- Form parameters without a text are encoded again. -/
def requestRaw (settings : ImportSettings N R) (index : Nat) (postData : Option HarPostData) :
    Except HarError RawBody :=
  match postData with
  | none => pure { bytes := [], losses := [] }
  | some post =>
      match post.text with
      | some text => do
          let bytes ← decodeHarBodyText settings.libraries (some text) post.encoding
            settings.maxBlobBytes
          pure
            { bytes
              losses := lossIf (post.params ≠ []) (.entry index "request.postData.params"
                "postData params duplicate postData.text; text is authoritative" .annotated) }
      | none =>
          if post.params = [] then pure { bytes := [], losses := [] }
          else do
            ensure (∀ param ∈ post.params, param.fileName = none) (.unsupportedEntry index
              "multipart/file upload postData has no semantic body representation")
            pure
              { bytes := settings.libraries.body.serializeForm
                  (post.params.map fun param => (param.name, param.value.getD ""))
                losses := [.entry index "request.postData.params"
                  "form params without text re-encoded as application/x-www-form-urlencoded"
                  .annotated] }

/-! ### The response -/

def responseLosses (index : Nat) (response : HarResponse N) : List HarLoss :=
  lossIf (response.cookies ≠ []) (.entry index "response.cookies"
      "cookies array is a derived view of Set-Cookie headers; headers array is authoritative"
      .annotated) ++
    lossIf (OtherVersion response.httpVersion) (.entry index "response.httpVersion"
      "HTTP version has no semantic representation; treated as version-agnostic" .annotated) ++
    lossIf (response.redirectUrl.getD "" ≠ "") (.entry index "response.redirectURL"
      "redirectURL duplicates the Location header; header is authoritative" .annotated) ++
    lossIf (response.comment.isSome = true)
      (.entry index "response.comment" "HAR comment preserved as flow annotation" .annotated)

def responseRaw (settings : ImportSettings N R) (index : Nat) (content : Option (HarContent N)) :
    Except HarError RawBody :=
  match content with
  | none => pure { bytes := [], losses := [] }
  | some content => do
      let bytes ← decodeHarBodyText settings.libraries content.text content.encoding
        settings.maxBlobBytes
      pure
        { bytes
          losses :=
            lossIf (content.compression.isSome = true) (.entry index "response.content.compression"
              "compression savings are not represented; decoded body bytes are authoritative"
              .annotated) ++
            lossIf (content.size.getD 0 < 0) (.entry index "response.content.size"
              "negative content size treated as unknown; decoded bytes are authoritative"
              .annotated) ++
            lossIf (content.text = none ∧ content.size.getD 0 ≠ 0)
              (.entry index "response.content.text"
                "missing content text with nonzero size treated as empty body" .annotated) }

/-! ### The rest of an entry -/

def entryLosses (libraries : HarLibraries N R) (index : Nat) (entry : HarEntry N) :
    List HarLoss :=
  lossIf (∃ timings ∈ entry.timings, ∃ phase ∈ timings.phases,
      (timingNumber libraries phase).isSome = true) (.entry index "timings"
      "HAR timing breakdown collapsed to total duration; per-phase delays not represented"
      .annotated) ++
    lossIf (entry.serverIpAddress.isSome = true ∨ entry.connection.isSome = true)
      (.entry index "serverIPAddress/connection"
        "physical transport identity has no semantic representation; omitted" .omitted) ++
    lossIf (entry.cache.isSome = true) (.entry index "cache"
      "HAR cache state has no semantic representation; omitted" .omitted) ++
    lossIf (entry.pageref.isSome = true) (.entry index "pageref"
      "HAR page reference has no semantic representation; omitted" .omitted)

/-- An entry as far as its annotations. -/
structure PreparedEntry where
  url : UrlParts
  query : List QueryPair
  requestHeaders : List HeaderEntry
  requestBody : RedactedBody
  status : Option Nat
  responseHeaders : List HeaderEntry
  responseBody : RedactedBody
  startedAtMs : Nat
  durationMs : Nat
  losses : List HarLoss
  deriving DecidableEq, Repr

def prepareEntry (settings : ImportSettings N R) (index : Nat) (entry : HarEntry N) :
    Except HarError PreparedEntry := do
  let libraries := settings.libraries
  let redactBody := fun bytes media isResponse side =>
    redactImportBody libraries.body bytes media settings.redaction settings.profileId isResponse
      index side settings.maxStructuredBytes
  ensure (entry.request.method ≠ "" ∧ entry.request.method.utf8ByteSize ≤ 32)
    (.unsupportedEntry index "request method is empty or exceeds limit")
  let url ← splitUrl libraries entry.request.url index
  let query ← importQuery libraries index entry.request
  let requestHeaders ← headerEntries entry.request.headers 256
  let requestSource ← requestRaw settings index entry.request.postData
  let requestBody ← redactBody requestSource.bytes
    (entry.request.postData.map fun post => baseMediaType post.mimeType) false "request"
  ensure (requestBody.bytes.length ≤ settings.maxBlobBytes)
    (.invalid "HAR request body exceeds limit")
  ensure (¬(entry.request.postData = none ∧ requestBody.bytes ≠ []))
    (.invalid "request body state is inconsistent")
  let status ← statusCode libraries entry.response.status
  let responseHeaders ← headerEntries entry.response.headers 256
  let responseSource ← responseRaw settings index entry.response.content
  let responseBody ← redactBody responseSource.bytes
    ((entry.response.content.bind HarContent.mimeType).map baseMediaType) true "response"
  let startedAtMs ← startedMs libraries entry.startedDateTime
  let durationMs ← totalTimeMs libraries entry.time
  pure
    { url
      query := query.query
      requestHeaders
      requestBody
      status
      responseHeaders
      responseBody
      startedAtMs
      durationMs
      losses := userinfoLosses libraries index entry.request.url ++ query.losses ++
        requestLosses index requestHeaders entry.request ++ requestSource.losses ++
        requestBody.losses ++ responseLosses index entry.response ++ responseSource.losses ++
        responseBody.losses ++ entryLosses libraries index entry }

/-- An annotation of a text, if it is not empty. -/
def noted (key : String) (text : Option String) (max : Nat) : Option (List (String × String)) :=
  if text.getD "" = "" then some []
  else (truncateBounded (text.getD "") max).map fun text => [(key, text)]

/-- The creator as it is annotated: not without a name. -/
def creatorText (creator : Option HarCreator) : Option String :=
  (creator.filter fun creator => decide (creator.name ≠ "")).map HarCreator.display

def annotationsOf (creator : Option HarCreator) (entry : HarEntry N) (durationMs : Nat) :
    Option (List (String × String)) := do
  let request ← noted "har.request.comment" entry.request.comment 512
  let response ← noted "har.response.comment" entry.response.comment 512
  let creator ← noted "har.creator" (creatorText creator) 256
  some (request ++ response ++ [("har.entry.time_ms", Nat.repr durationMs)] ++ creator)

/-! ### Flows -/

structure PendingFlow where
  flow : Flow
  requestBytes : Bytes
  responseBytes : Bytes
  deriving DecidableEq, Repr

/-- At least six digits. -/
def padded (index : Nat) : String :=
  String.ofList (List.replicate (6 - (Nat.repr index).length) '0') ++ Nat.repr index

def outcomeOf (prepared : PreparedEntry) : FlowOutcome :=
  match prepared.status with
  | some code =>
      .response
        { status := code, headers := prepared.responseHeaders, body := .empty, trailers := [] }
  | none =>
      .error
        { category := .other, phase := .other,
          message := "HAR-recorded request with no response (status 0)" }

def importedFlow (settings : ImportSettings N R) (index : Nat) (entry : HarEntry N)
    (prepared : PreparedEntry) (annotations : List (String × String)) : Flow where
  schemaVersion := flowSchemaVersion
  id := "har-import-" ++ padded index ++ "-" ++ settings.uniqueSuffix index
  startedAtMs := prepared.startedAtMs
  completedAtMs := some (saturatingAdd prepared.startedAtMs prepared.durationMs)
  request :=
    { method := entry.request.method
      scheme := prepared.url.scheme
      authority := prepared.url.authority
      path := prepared.url.path
      query := prepared.query
      headers := prepared.requestHeaders
      body := .empty
      trailers := [] }
  outcome := outcomeOf prepared
  physicalRoute := none
  provenance := { mode := "har-import", observer := "eggreplay-har" }
  annotations
  redactions := []

/-- The markers of the bodies, after those of headers and query. -/
def markBodies (prepared : PreparedEntry) (flow : Flow) : Flow :=
  { flow with
    redactions := flow.redactions ++ prepared.requestBody.markers ++
      match flow.outcome with
      | .response _ => prepared.responseBody.markers
      | .error _ => [] }

def reconcileResponse (newLen : Nat) (profile : String) (flow : Flow) : Flow :=
  match flow.outcome with
  | .response response =>
      let after := reconcileHeadersAfterBodyRedaction response.headers newLen profile
      { flow with
        outcome := .response { response with headers := after.headers }
        redactions := flow.redactions ++ after.markers
        annotations := flow.annotations ++ after.annotations }
  | .error _ => flow

def reconcileRequest (newLen : Nat) (profile : String) (flow : Flow) : Flow :=
  let after := reconcileHeadersAfterBodyRedaction flow.request.headers newLen profile
  { flow with
    request := { flow.request with headers := after.headers }
    redactions := flow.redactions ++ after.markers
    annotations := flow.annotations ++ after.annotations }

/-- Whether a marker names a body, as the importer looks for it. -/
def bodyMarked (flow : Flow) : Bool :=
  flow.redactions.any fun marker =>
    containsText marker.field "body.json" || containsText marker.field "body.form"

/-- Both sides are reconciled where a marker names a body of either. -/
def reconcile (settings : ImportSettings N R) (prepared : PreparedEntry) (flow : Flow) : Flow :=
  if bodyMarked flow = true then
    reconcileResponse prepared.responseBody.bytes.length settings.profileId
      (reconcileRequest prepared.requestBody.bytes.length settings.profileId flow)
  else flow

def flowLosses (index : Nat) (prepared : PreparedEntry) (flow : Flow) : List HarLoss :=
  lossIf (prepared.status = none) (.entry index "response.status"
      "HAR status 0 mapped to a typed transport error; no response is recorded" .annotated) ++
    lossIf (flow.redactions ≠ [])
      { entryIndex := some index, flowId := some flow.id,
        field := "request/response.headers,query",
        reason := Nat.repr flow.redactions.length ++
          " header/query field(s) redacted per selected profile",
        action := .redacted } ++
    lossIf (prepared.status = none ∧ prepared.responseBody.markers ≠ [])
      (.entry index "response.body.redaction"
        "response body redaction markers omitted for typed-error outcome" .omitted)

def assembleFlow (settings : ImportSettings N R) (index : Nat) (entry : HarEntry N)
    (prepared : PreparedEntry) (annotations : List (String × String)) :
    Except HarError (PendingFlow × List HarLoss) := do
  let redacted := redactFlow (importedFlow settings index entry prepared annotations)
    settings.redaction settings.profileId
  let flow := reconcile settings prepared (markBodies prepared redacted)
  flow.validate.mapError fun error => .unsupportedEntry index error.display
  pure
    ({ flow, requestBytes := prepared.requestBody.bytes,
       responseBytes := prepared.responseBody.bytes },
      prepared.losses ++ flowLosses index prepared redacted)

def convertEntry (settings : ImportSettings N R) (creator : Option HarCreator) (index : Nat)
    (entry : HarEntry N) : Except HarStop (PendingFlow × List HarLoss) := do
  let prepared ← (prepareEntry settings index entry).mapError .failed
  let annotations ← orFail (annotationsOf creator entry prepared.durationMs) .panicked
  (assembleFlow settings index entry prepared annotations).mapError .failed

def convertFrom (settings : ImportSettings N R) (creator : Option HarCreator) :
    Nat → List (HarEntry N) → Except HarStop (List PendingFlow × List HarLoss)
  | _, [] => pure ([], [])
  | index, entry :: rest => do
      let first ← convertEntry settings creator index entry
      let later ← convertFrom settings creator (index + 1) rest
      pure (first.1 :: later.1, first.2 ++ later.2)

/-! ### The document -/

def logLosses (log : HarLog N) : List HarLoss :=
  lossIf (log.browser.isSome = true) (.global "log.browser"
      "HAR browser object has no EggReplay representation; omitted" .omitted) ++
    lossIf (∃ pages ∈ log.pages, pages.isEmpty = false) (.global "log.pages"
      "HAR pages have no EggReplay representation; entry timing uses startedDateTime/time only"
      .omitted) ++
    lossIf (∃ creator ∈ log.creator, creator.name ≠ "" ∧ creator.name ≠ "eggreplay")
      (.global "log.creator" "upstream HAR creator preserved in interop-provenance only"
        .annotated)

def readDocument (libraries : HarLibraries N R) (harBytes : Bytes) :
    Except HarError (HarLog N) := do
  ensure (harBytes.length ≤ maxHarFileBytes) (.invalid "HAR document exceeds size limit")
  let log ← (libraries.fromSlice harBytes).mapError .invalid
  ensure (log.version = harVersion)
    (.invalid ("unsupported HAR version " ++ log.version ++ " (only 1.2 is accepted)"))
  ensure (log.entries.length ≤ maxHarEntries) (.invalid "HAR entry count exceeds limit")
  pure log

/-- What is checked before anything is written. -/
structure Validated (N : Type) where
  log : HarLog N
  pending : List PendingFlow
  losses : List HarLoss

def validateDocument (settings : ImportSettings N R) (harBytes : Bytes) :
    Except HarStop (Validated N) := do
  let log ← (readDocument settings.libraries harBytes).mapError .failed
  let converted ← convertFrom settings log.creator 0 log.entries
  pure { log, pending := converted.1, losses := logLosses log ++ converted.2 }

/-! ### Publication -/

/-- The text of the I/O error that a store error wraps. -/
def ioText : StoreError → String
  | .io message => message
  | other => other.display

def publishBody (codec : Codec) (bytes : Bytes) : Op HarStop SessionWriter BodyRef := fun writer =>
  if bytes = [] then (.ok .empty, writer)
  else
    let begun := writer.beginBlob
    match begun.2.write begun.1.directory bytes with
    | .error error =>
        (.error (.failed (.invalid ("body write failed: " ++ ioText error))),
          { begun.1 with directory := begun.2.drop begun.1.directory })
    | .ok (directory, sink) =>
        ((sink.reference codec).mapError fun error => .failed (.store error),
          { begun.1 with directory := sink.publish codec directory })

def publishResponse (codec : Codec) (bytes : Bytes) :
    FlowOutcome → Op HarStop SessionWriter FlowOutcome
  | .response response => do
      let body ← publishBody codec bytes
      pure (.response { response with body })
  | .error error => pure (.error error)

def publishFlow (codec : Codec) (count : Nat) (pending : PendingFlow) :
    Op HarStop SessionWriter Nat := do
  let body ← publishBody codec pending.requestBytes
  let outcome ← publishResponse codec pending.responseBytes pending.flow.outcome
  Op.ofStep fun writer => do
    let appended ← (writer.appendFlow
      { pending.flow with request := { pending.flow.request with body }, outcome }).mapError
        fun error => .failed (.store error)
    pure (appended, ())
  pure (count + 1)

structure InteropProvenance where
  harCreator : Option String
  entries : Nat
  flows : Nat
  losses : List HarLoss
  deriving DecidableEq, Repr

/-- A field that is skipped where there is nothing to write. -/
def optionField {α : Type} (name : String) (toJson : α → Value) : Option α → List (String × Value)
  | none => []
  | some value => [(name, toJson value)]

def HarLoss.toJson (loss : HarLoss) : Value :=
  .object (optionField "entry_index" .number loss.entryIndex ++
    optionField "flow_id" .string loss.flowId ++
    [("field", .string loss.field), ("reason", .string loss.reason),
      ("action", .string loss.action.asStr)])

def interopProvenanceSchemaVersion : Nat := 1

/-- `serde_json::to_vec` of the provenance. -/
def InteropProvenance.encode (toolVersion : String) (provenance : InteropProvenance) : Bytes :=
  EggReplay.Library.JsonText.encode <|
    .object ([("schema_version", .number interopProvenanceSchemaVersion),
        ("tool_version", .string toolVersion), ("source", .string "har-import")] ++
      optionField "har_creator" .string provenance.harCreator ++
      [("entries", .number provenance.entries), ("flows", .number provenance.flows),
        ("losses", .array (provenance.losses.map HarLoss.toJson))])

def interopProvenance : ExtensionDescriptor where
  name := "interop-provenance"
  schemaVersion := interopProvenanceSchemaVersion
  path := "interop-provenance.json"
  requiredForReplay := false

structure ImportReport where
  flows : Nat
  losses : List HarLoss
  entries : Nat
  deriving DecidableEq, Repr

def writeProvenance (toolVersion : String) (provenance : InteropProvenance) :
    Op HarStop SessionWriter Unit :=
  Op.ofStep fun writer => do
    let written ← (writer.writeExtension interopProvenance
      (provenance.encode toolVersion)).mapError fun error => .failed (.store error)
    pure (written, ())

def importHarToWriter (codec : Codec) (toolVersion : String) (settings : ImportSettings N R)
    (harBytes : Bytes) : Op HarStop SessionWriter ImportReport := do
  let validated ← Op.ofExcept (validateDocument settings harBytes)
  let count ← Op.fold (publishFlow codec) 0 validated.pending
  writeProvenance toolVersion
    { harCreator := validated.log.creator.map HarCreator.display
      entries := validated.log.entries.length
      flows := count
      losses := validated.losses.take 1024 }
  pure
    { flows := count, losses := validated.losses, entries := validated.log.entries.length }

end EggReplay.Har.HarImport
