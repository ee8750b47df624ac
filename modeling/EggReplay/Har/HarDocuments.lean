import EggReplay.Core.Redaction
import EggReplay.Core.StreamTimeline
import EggReplay.Library.IpText
import EggReplay.Store.Fixture

/-!
HAR documents: what an import reads of them, and how it reads headers, bodies, statuses, times
and URLs. The routines of other packages are parameters.
-/

namespace EggReplay.Har.HarDocuments

open EggReplay.Library.Checks
open EggReplay.Library.IpText
open EggReplay.Library.JsonText
open EggReplay.Library.Text
open EggReplay.Core.FlowRecord
open EggReplay.Core.Redaction
open EggReplay.Core.StreamTimeline
open EggReplay.Store.Fixture

variable {N R : Type}

def harVersion : String := "1.2"

def maxHarFileBytes : Nat := 32 * 1024 * 1024

def maxHarEntries : Nat := 100000

/-! ### Losses and errors -/

inductive LossAction where
  | preserved
  | annotated
  | omitted
  | redacted
  | rejected
  deriving DecidableEq, Repr

def LossAction.asStr : LossAction → String
  | .preserved => "preserved"
  | .annotated => "annotated"
  | .omitted => "omitted"
  | .redacted => "redacted"
  | .rejected => "rejected"

structure HarLoss where
  entryIndex : Option Nat
  flowId : Option String
  field : String
  reason : String
  action : LossAction
  deriving DecidableEq, Repr

def HarLoss.global (field reason : String) (action : LossAction) : HarLoss :=
  { entryIndex := none, flowId := none, field, reason, action }

def HarLoss.entry (index : Nat) (field reason : String) (action : LossAction) : HarLoss :=
  { entryIndex := some index, flowId := none, field, reason, action }

/-- A loss that is reported only where it occurs. -/
def lossIf (condition : Prop) [Decidable condition] (loss : HarLoss) : List HarLoss :=
  if condition then [loss] else []

inductive HarError where
  | invalid (message : String)
  | unsupportedEntry (index : Nat) (reason : String)
  | store (error : StoreError)
  | redaction (message : String)
  deriving DecidableEq, Repr

/-! ### The document -/

structure HarCreator where
  name : String
  version : String
  deriving DecidableEq, Repr

def HarCreator.display (creator : HarCreator) : String := creator.name ++ "/" ++ creator.version

structure HarNameValue where
  name : String
  value : String
  deriving DecidableEq, Repr

structure HarPostParam where
  name : String
  value : Option String
  fileName : Option String
  deriving DecidableEq, Repr

structure HarPostData where
  mimeType : String
  params : List HarPostParam
  text : Option String
  encoding : Option String
  deriving DecidableEq, Repr

/-- Of a cookie only the name is read. -/
structure HarRequest where
  method : String
  url : String
  httpVersion : Option String
  cookies : List String
  headers : List HarNameValue
  queryString : List HarNameValue
  postData : Option HarPostData
  comment : Option String
  deriving DecidableEq, Repr

structure HarContent (N : Type) where
  size : Option Int
  compression : Option (Json N)
  mimeType : Option String
  text : Option String
  encoding : Option String

structure HarResponse (N : Type) where
  status : Json N
  httpVersion : Option String
  cookies : List String
  headers : List HarNameValue
  content : Option (HarContent N)
  redirectUrl : Option String
  comment : Option String

structure HarTimings (N : Type) where
  blocked : Option (Json N)
  dns : Option (Json N)
  connect : Option (Json N)
  send : Option (Json N)
  wait : Option (Json N)
  receive : Option (Json N)
  ssl : Option (Json N)

def HarTimings.phases (timings : HarTimings N) : List (Option (Json N)) :=
  [timings.blocked, timings.dns, timings.connect, timings.send, timings.wait, timings.receive,
    timings.ssl]

structure HarEntry (N : Type) where
  pageref : Option String
  startedDateTime : Option String
  time : Option (Json N)
  request : HarRequest
  response : HarResponse N
  cache : Option (Json N)
  timings : Option (HarTimings N)
  serverIpAddress : Option String
  connection : Option String

structure HarLog (N : Type) where
  version : String
  creator : Option HarCreator
  browser : Option (Json N)
  pages : Option (List (Json N))
  entries : List (HarEntry N)

/-! ### Routines of other packages -/

/-- What `url::Url` says of a URL that it parses. -/
structure Url where
  scheme : String
  username : String
  password : Option String
  host : Option String
  port : Option Nat
  path : String
  queryPairs : List (String × String)
  deriving DecidableEq, Repr

/-- Numbers of documents, floating-point numbers, URLs, dates and base64. -/
structure HarLibraries (N R : Type) where
  fromSlice : Bytes → Except String (HarLog N)
  asF64 : Json N → Option R
  asU64 : Json N → Option Nat
  parseF64 : String → Option R
  /-- Not a number, infinite, or below zero. -/
  noDuration : R → Bool
  /-- Rounded, and clamped to an hour of milliseconds. -/
  roundedMs : R → Nat
  atLeastZero : R → Bool
  belowZero : R → Bool
  parseUrl : String → Option Url
  rfc3339Millis : String → Option Int
  base64Decode : Bytes → Option Bytes
  body : BodyCodec N

/-! ### Readers -/

def isJsonMediaType : Option String → Bool
  | some media => decide (media = "application/json") || endsWith media "+json"
  | none => false

def isFormMediaType (media : Option String) : Bool :=
  decide (media = some "application/x-www-form-urlencoded")

/-- The media type before any parameter. -/
def baseMediaType (raw : String) : String :=
  toAsciiLowercase (trim ((split raw ';').headD raw))

def bodyLimit : HarError := .invalid "HAR body exceeds configured limit"

def decodeHarBodyText (libraries : HarLibraries N R) (text encoding : Option String)
    (maxBytes : Nat) : Except HarError Bytes :=
  match text with
  | none => pure []
  | some text =>
      let encoding := (encoding.map toAsciiLowercase).getD ""
      if encoding = "" then do
        let bytes := utf8 text.toList
        ensure (bytes.length ≤ maxBytes) bodyLimit
        pure bytes
      else if encoding = "base64" then do
        let cleaned := utf8 (text.toList.filter fun c => !isWhitespace c)
        ensure (cleaned.length ≤ saturatingAdd (min (maxBytes * 4) u64Max) 4) bodyLimit
        let decoded ← orFail (libraries.base64Decode cleaned)
          (.invalid "HAR body is not valid base64")
        ensure (decoded.length ≤ maxBytes) bodyLimit
        pure decoded
      else .error (.invalid ("unsupported HAR body encoding " ++ encoding))

def parseHarTimeMs (libraries : HarLibraries N R) (value : Option (Json N)) (field : String) :
    Except HarError (Option R) :=
  match value with
  | none => pure none
  | some value =>
      let refused := HarError.invalid ("HAR " ++ field ++ " is not numeric")
      match libraries.asF64 value, value with
      | some number, _ => pure (some number)
      | none, .string text => do
          let parsed ← orFail (libraries.parseF64 text) refused
          pure (some parsed)
      | none, _ => .error refused

def startedMs (libraries : HarLibraries N R) (started : Option String) : Except HarError Nat := do
  let raw ← orFail started (.invalid "HAR entry is missing startedDateTime")
  let millis ← orFail (libraries.rfc3339Millis raw)
    (.invalid "HAR startedDateTime is not RFC 3339")
  pure (max millis 0).toNat

def totalTimeMs (libraries : HarLibraries N R) (time : Option (Json N)) : Except HarError Nat := do
  match ← parseHarTimeMs libraries time "entry.time" with
  | none => pure 0
  | some value => do
      ensure (libraries.noDuration value = false)
        (.invalid "HAR entry.time is not a valid duration")
      pure (libraries.roundedMs value)

def timingNumber (libraries : HarLibraries N R) (value : Option (Json N)) : Option R := do
  let value ← value
  match libraries.asF64 value, value with
  | some number, _ => if libraries.belowZero number = true then none else some number
  | none, .string text => (libraries.parseF64 text).filter libraries.atLeastZero
  | none, _ => none

/-- `str::parse` to a word; a plus sign may come first. -/
def parseU64 (text : String) : Option Nat :=
  let digits := ((stripLead text "+").getD text).toList
  match readNumber 10 digits.length (2 ^ 64) true digits with
  | some (value, []) => some value
  | some (_, _ :: _) | none => none

def statusOf (number : Nat) : Except HarError (Option Nat) :=
  if number = 0 then pure none
  else do
    ensure (100 ≤ number ∧ number ≤ 599)
      (.invalid ("HAR response status " ++ Nat.repr number ++ " is outside 100..=599"))
    pure (some number)

def statusCode (libraries : HarLibraries N R) (status : Json N) : Except HarError (Option Nat) :=
  let refused := HarError.invalid "HAR response status is not numeric"
  match libraries.asU64 status, status with
  | some number, _ => statusOf number
  | none, .string text =>
      let trimmed := trim text
      if trimmed = "0" ∨ trimmed = "" then pure none
      else do
        let parsed ← orFail (parseU64 trimmed) refused
        statusOf parsed
  | none, _ => .error refused

def headerEntries (values : List HarNameValue) (limit : Nat) :
    Except HarError (List HeaderEntry) := do
  ensure (values.length ≤ limit) (.invalid "HAR header count exceeds limit")
  values.mapM fun item => do
    ensure (item.name ≠ "" ∧ item.name.utf8ByteSize ≤ 256 ∧ item.value.utf8ByteSize ≤ 8192)
      (.invalid "HAR header name/value exceeds limit")
    pure { name := item.name, value := item.value }

structure UrlParts where
  scheme : String
  authority : String
  path : String
  deriving DecidableEq, Repr

def splitUrl (libraries : HarLibraries N R) (url : String) (index : Nat) :
    Except HarError UrlParts := do
  let parsed ← orFail (libraries.parseUrl url)
    (.unsupportedEntry index "URL is not a valid absolute HTTP(S) URL")
  ensure (parsed.scheme = "http" ∨ parsed.scheme = "https")
    (.unsupportedEntry index ("URL scheme " ++ parsed.scheme ++ " is not http/https"))
  let host ← orFail parsed.host (.unsupportedEntry index "URL has no host")
  let authority := match parsed.port with
    | some port => host ++ ":" ++ Nat.repr port
    | none => host
  let path := if parsed.path = "" then "/" else parsed.path
  ensure (startsWith path "/" = true) (.unsupportedEntry index "URL path is not origin-form")
  pure { scheme := parsed.scheme, authority, path }

/-! ### Bodies -/

structure RedactedBody where
  bytes : Bytes
  markers : List RedactionMarker
  losses : List HarLoss
  deriving DecidableEq, Repr

def bodyLoss (index : Nat) (field reason : String) : HarLoss :=
  { entryIndex := some index, flowId := none, field, reason, action := .redacted }

/-- The redaction policy over the bytes of one side of an entry. -/
def redactImportBody (codec : BodyCodec N) (original : Bytes) (mediaType : Option String)
    (config : RedactionConfig) (profile : String) (isResponse : Bool) (index : Nat)
    (side : String) (maxStructuredBytes : Nat) : Except HarError RedactedBody :=
  let refused := fun reason : String =>
    HarError.redaction ("entry " ++ Nat.repr index ++ " " ++ side ++ reason)
  let base := mediaType.map baseMediaType
  if original = [] then pure { bytes := [], markers := [], losses := [] }
  else if config.wantsBodyRedaction = true ∧ maxStructuredBytes < original.length then
    .error (refused " body exceeds structured redaction bound; failing closed")
  else if config.jsonPaths ≠ ∅ ∧ isJsonMediaType base = true then do
    let clean ← (applyJsonRedaction codec original config.jsonPaths).mapError .redaction
    pure
      { bytes := clean.1
        markers := pushBodyMarkers [] config.jsonPaths profile isResponse
        losses := [bodyLoss index (side ++ ".body.json")
          "JSON body paths redacted per selected profile"] }
  else if config.queryKeys ≠ ∅ ∧ isFormMediaType base = true then do
    let clean ← (applyFormRedaction codec original config.queryKeys).mapError .redaction
    pure
      { bytes := clean.1
        markers := (config.queryKeys.sort (· ≤ ·)).map fun key =>
          { field := side ++ ".body.form:" ++ key, profile := profile }
        losses := [bodyLoss index (side ++ ".body.form")
          "form body keys redacted per selected profile"] }
  else if config.jsonPaths ≠ ∅ then
    .error (refused
      " body redaction requested but media type is not JSON; failing closed")
  else pure { bytes := original, markers := [], losses := [] }

end EggReplay.Har.HarDocuments
