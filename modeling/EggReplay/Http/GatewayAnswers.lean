import EggReplay.Http.ProjectionAgreement
import EggReplay.Http.RecordMarkers
import EggReplay.Http.ReplayedEnds
import EggReplay.Store.BlobContents

/-!
How the recording gateway and the explicit proxy answer their client: both build the answer
from the flow that was recorded and from its stored body.
-/

namespace EggReplay.Http.GatewayAnswers

open EggReplay.Library.Checks
open EggReplay.Library.Text
open EggReplay.Core.FlowRecord
open EggReplay.Core.Redaction
open EggReplay.Store.Fixture
open EggReplay.Store.Recording
open EggReplay.Store.BlobContents
open EggReplay.Http.Transaction
open EggReplay.Http.ProjectionAgreement
open EggReplay.Http.ResponseRendering

def categoryDebug : ErrorCategory → String
  | .dns => "Dns"
  | .connectionRefused => "ConnectionRefused"
  | .unreachable => "Unreachable"
  | .tls => "Tls"
  | .protocol => "Protocol"
  | .policy => "Policy"
  | .timeout => "Timeout"
  | .cancelled => "Cancelled"
  | .other => "Other"

/-! ### The session's bodies -/

/-- A file without content: the stream over it is the empty stream. -/
def BlobFile.empty : BlobFile where
  content := []
  size_lt := by decide
  given := fun _ => some 1

/-- `body_path`. -/
def sessionBodyPath (sha256 : Bytes → String) (limits : StoreLimits) (files : BlobFiles) :
    BodyRef → Except StoreError (Option BlobFile)
  | .absent | .empty => .ok none
  | .blob blob => (bodyPath sha256 limits files blob).map some

/-- A read to the end of the file; each read of a file gives a byte at least. -/
def BlobFile.readToEnd (file : BlobFile) : Nat → Nat → Except String Bytes
  | 0, _ => .ok []
  | fuel + 1, offset =>
      match file.readAt offset maxChunkBytes with
      | .error message => .error message
      | .ok [] => .ok []
      | .ok (first :: rest) =>
          (BlobFile.readToEnd file fuel (offset + (first :: rest).length)).map
            ((first :: rest) ++ ·)

/-- `read_body`. -/
def sessionReadBody (sha256 : Bytes → String) (limits : StoreLimits) (files : BlobFiles) :
    BodyRef → Except StoreError Bytes
  | .absent | .empty => .ok []
  | .blob blob => do
      let file ← bodyPath sha256 limits files blob
      (BlobFile.readToEnd file (file.content.length + 1) 0).mapError StoreError.io

/-! ### The gateway -/

def gatewayResponse (checks : HttpChecks) (sha256 : Bytes → String) (limits : StoreLimits)
    (files : BlobFiles) (flow : Flow) : Except ServiceError Response :=
  match flow.outcome with
  | .response response => do
      let file ← (sessionBodyPath sha256 limits files response.body).mapError
        fun error => ServiceError.internal error.display
      buildResponse checks response.status response.headers
        (.stream (responseStream (file.getD BlobFile.empty) (response.body.len.getD 0)
          response.trailers))
  | .error error => .error (.rejected 502 ("upstream failure: " ++ categoryDebug error.category))

/-! ### The explicit proxy -/

inductive ProxyBody where
  | bytes (content : Bytes)
  | chunked (content : Bytes) (trailers : List HeaderEntry)
  deriving DecidableEq, Repr

structure ProxyAnswer where
  status : Nat
  headers : List HeaderEntry
  body : ProxyBody
  deriving DecidableEq, Repr

def trailerAnnouncement (trailers : List HeaderEntry) : HeaderEntry where
  name := "trailer"
  value := String.intercalate ", " (trailers.map HeaderEntry.name)

def flowToResponse (checks : HttpChecks) (sha256 : Bytes → String) (limits : StoreLimits)
    (files : BlobFiles) (flow : Flow) : Except ServiceError ProxyAnswer :=
  match flow.outcome with
  | .response response => do
      buildHead checks response.status response.headers
      let bytes ← (sessionReadBody sha256 limits files response.body).mapError
        fun error => ServiceError.internal error.display
      if response.trailers = [] then
        pure { status := response.status, headers := response.headers, body := .bytes bytes }
      else do
        let announcement := trailerAnnouncement response.trailers
        (checks.header announcement).mapError .internal
        pure
          { status := response.status
            headers := response.headers ++ [announcement]
            body := .chunked bytes response.trailers }
  | .error _ => .error (.rejected 502 "upstream request failed")

/-! ### What the client gets -/

structure Delivered where
  status : Nat
  headers : List HeaderEntry
  played : Played
  deriving DecidableEq, Repr

/-- The whole answer; a stream is polled once for each byte that it announces, and to its
end. -/
def deliverGateway (checks : HttpChecks) (sha256 : Bytes → String)
    (answer : Except ServiceError Response) : Option Delivered :=
  match answer with
  | .error _ => none
  | .ok response =>
      let polls := match response.body with
        | .stream stream => stream.knownLength.getD 0 + 1
        | .empty | .bytes _ => 1
      (response.body.play checks sha256 polls).map fun played =>
        { status := response.status, headers := response.headers, played }

def playProxyBody (checks : HttpChecks) : ProxyBody → Played
  | .bytes content => { chunks := [content], ending := .clean [] }
  | .chunked content trailers =>
      { chunks := [content]
        ending := match checks.trailers trailers with
          | .ok _ => .clean trailers
          | .error message => .failed message }

def deliverProxy (checks : HttpChecks) : Except ServiceError ProxyAnswer → Option Delivered
  | .error _ => none
  | .ok answer =>
      some
        { status := answer.status
          headers := answer.headers
          played := playProxyBody checks answer.body }

/-! ### Transparency -/

/-- The fields that are for one connection only. -/
def hopByHop : List String :=
  ["connection", "keep-alive", "proxy-authenticate", "proxy-authorization", "te", "trailer",
    "transfer-encoding", "upgrade"]

def frameData (frame : TimedFrame) : Bytes :=
  match frame.content with
  | .data bytes => bytes
  | .trailers _ => []

def frameTrailers (earlier : HeaderMap) (frame : TimedFrame) : HeaderMap :=
  match frame.content with
  | .data _ => earlier
  | .trailers fields => fields

def replyBody (reply : Reply) : Bytes := reply.frames.flatMap frameData

/-- The trailers of a reply are in its last trailers frame; there is one at most. -/
def replyTrailers (reply : Reply) : HeaderMap := reply.frames.foldl frameTrailers []

/-- The values that the upstream sent under a name, and those that the client gets. -/
def sentValues (name : String) (fields : HeaderMap) : List Bytes :=
  (fields.filter fun field => toAsciiLowercase field.name = name).map HeaderField.value

def gotValues (name : String) (headers : List HeaderEntry) : List Bytes :=
  (headers.filter fun header => toAsciiLowercase header.name = name).map
    fun header => utf8 header.value.toList

def sentField (field : HeaderField) : String × Bytes :=
  (toAsciiLowercase field.name, field.value)

def gotField (header : HeaderEntry) : String × Bytes :=
  (header.name, utf8 header.value.toList)

/-- The upstream's end, with its trailers, or a failure where it failed. -/
def EndsAlike (reply : Reply) (ending : Ending) : Prop :=
  match ending with
  | .clean trailers =>
      reply.ending.failure = none ∧
        trailers.map gotField = (replyTrailers reply).map sentField
  | .failed _ => reply.ending.failure ≠ none

structure Transparent (reply : Reply) (delivered : Delivered) : Prop where
  status : delivered.status = reply.status
  headers : ∀ name, name ∉ hopByHop →
    gotValues name delivered.headers = sentValues name reply.headers
  body : delivered.played.chunks.flatten = replyBody reply
  ending : EndsAlike reply delivered.played.ending

/-- The client is given an answer, and it is the upstream's. -/
def TransparentTo (reply : Reply) (delivered : Option Delivered) : Prop :=
  ∃ answer, delivered = some answer ∧ Transparent reply answer

/-! ### What the other packages take -/

def Printable (text : String) : Prop :=
  (utf8 text.toList).all isVisibleAscii = true

instance (text : String) : Decidable (Printable text) :=
  inferInstanceAs (Decidable (_ = true))

/-- A failure of a body comes before its trailers. -/
def MidBody (reply : Reply) : Prop :=
  reply.ending.failure ≠ none → replyTrailers reply = []

/-- The package that answers takes each status and name that the client package has read,
and any printable value. -/
structure Accepts (checks : HttpChecks) (reply : Reply) : Prop where
  status : checks.status reply.status = .ok ()
  header : ∀ name ∈ "content-length" :: reply.headers.map fun field =>
    toAsciiLowercase field.name, ∀ value, Printable value → checks.header { name, value } = .ok ()
  announcement : checks.header (trailerAnnouncement (headerEntries (replyTrailers reply)).1) =
    .ok ()

/-! ### What the session keeps -/

/-- The files give what the session has published, and every read of them succeeds. -/
def FilesOf (files : BlobFiles) (session : RecordingInner) : Prop :=
  ∀ digest bytes, contents session.directory digest = some bytes →
    ∃ file, files digest = some file ∧ file.content = bytes ∧
      ∀ offset, (file.given offset).isSome = true

/-- Every published content stands under its own digest. -/
def Addressed (sha256 : Bytes → String) (session : RecordingInner) : Prop :=
  ∀ digest bytes, contents session.directory digest = some bytes → sha256 bytes = digest

/-- No two contents have the digest. -/
def Unshared (sha256 : Bytes → String) (digest : String) : Prop :=
  ∀ left right, sha256 left = digest → sha256 right = digest → left = right

/-! ### What redaction and recording leave alone -/

/-- A field that is recorded as it is: no selector of the redaction names it, and its value
is visible ASCII; or its value is what redaction would put there. -/
def Legible (config : RedactionConfig) (field : HeaderField) : Prop :=
  if toAsciiLowercase field.name ∈ config.headers then field.value = utf8 redacted.toList
  else Visible field

instance (config : RedactionConfig) (field : HeaderField) : Decidable (Legible config field) :=
  inferInstanceAs (Decidable (if toAsciiLowercase field.name ∈ config.headers then
    field.value = utf8 redacted.toList else Visible field))

/-- The body of the reply goes through a transform. -/
def Transformed (config : RedactionConfig) (reply : Reply) : Prop :=
  replyBody reply ≠ [] ∧ needsTransform config (contentType reply.headers) = true

/-- The length that is recorded with a transformed body. -/
def recordedLength (config : RedactionConfig) (length : Nat) : HeaderEntry :=
  redactHeader config.headers { name := "content-length", value := Nat.repr length }

/-- The transform gives the body back, and no header was a digest of it. -/
structure Steady {N : Type} (codec : BodyCodec N) (settings : Settings) (reply : Reply) :
    Prop where
  body : ∃ markers, transformBody codec (replyBody reply) (contentType reply.headers)
    settings.redaction settings.profileId true = .ok (replyBody reply, markers)
  digests : ∀ field ∈ reply.headers, ∀ name,
    reconcileHeader (headerEntry field) ≠ .dropMarked name
  length : sentValues "content-length" reply.headers =
    [utf8 (recordedLength settings.redaction (replyBody reply).length).value.toList]

structure Unaltered {N : Type} (checks : HttpChecks) (codec : BodyCodec N) (settings : Settings)
    (reply : Reply) : Prop where
  complete : reply.ending.failure = none
  fields : ∀ field ∈ reply.headers, toAsciiLowercase field.name ∉ hopByHop →
    Legible settings.redaction field
  trailers : ∀ field ∈ replyTrailers reply, Legible settings.redaction field
  announced : replyTrailers reply ≠ [] →
    checks.trailers (headerEntries (replyTrailers reply)).1 = .ok ()
  steady : Transformed settings.redaction reply → Steady codec settings reply

end EggReplay.Http.GatewayAnswers
