import EggReplay.Library.Checks
import EggReplay.Library.JsonText

/-!
The schema-1 flow record: headers, bodies, requests, outcomes and session
metadata, with the record's own validation and its serialized form. A value of
a 64-bit or 16-bit field of the source is a natural number here.
-/

namespace EggReplay.Core.FlowRecord

open EggReplay.Library.Checks
open EggReplay.Library.Text
open EggReplay.Library.JsonText

inductive ErrorPhase where
  | request | connect | tls | headers | body | timeout | cancelled | policy | other
  deriving DecidableEq, Repr

inductive ErrorCategory where
  | dns | connectionRefused | unreachable | tls | protocol | policy | timeout
  | cancelled | other
  deriving DecidableEq, Repr

def ErrorCategory.asStr : ErrorCategory → String
  | .dns => "dns"
  | .connectionRefused => "connection_refused"
  | .unreachable => "unreachable"
  | .tls => "tls"
  | .protocol => "protocol"
  | .policy => "policy"
  | .timeout => "timeout"
  | .cancelled => "cancelled"
  | .other => "other"

def ErrorPhase.asStr : ErrorPhase → String
  | .request => "request"
  | .connect => "connect"
  | .tls => "tls"
  | .headers => "headers"
  | .body => "body"
  | .timeout => "timeout"
  | .cancelled => "cancelled"
  | .policy => "policy"
  | .other => "other"

/-- The variant names that `{:?}` prints. -/
def ErrorCategory.debug : ErrorCategory → String
  | .dns => "Dns"
  | .connectionRefused => "ConnectionRefused"
  | .unreachable => "Unreachable"
  | .tls => "Tls"
  | .protocol => "Protocol"
  | .policy => "Policy"
  | .timeout => "Timeout"
  | .cancelled => "Cancelled"
  | .other => "Other"

def ErrorPhase.debug : ErrorPhase → String
  | .request => "Request"
  | .connect => "Connect"
  | .tls => "Tls"
  | .headers => "Headers"
  | .body => "Body"
  | .timeout => "Timeout"
  | .cancelled => "Cancelled"
  | .policy => "Policy"
  | .other => "Other"

structure FlowError where
  category : ErrorCategory
  phase : ErrorPhase
  message : String
  deriving DecidableEq, Repr

def FlowError.display (error : FlowError) : String :=
  error.category.debug ++ " during " ++ error.phase.debug ++ ": " ++ error.message

structure HeaderEntry where
  name : String
  value : String
  deriving DecidableEq, Repr

structure QueryPair where
  key : String
  value : String
  deriving DecidableEq, Repr

structure BlobRef where
  sha256 : String
  length : Nat
  deriving DecidableEq, Repr

inductive BodyRef where
  | absent
  | empty
  | blob (reference : BlobRef)
  deriving DecidableEq, Repr

def BodyRef.len : BodyRef → Option Nat
  | .absent => none
  | .empty => some 0
  | .blob reference => some reference.length

structure HttpRequest where
  method : String
  scheme : String
  authority : String
  path : String
  query : List QueryPair
  headers : List HeaderEntry
  body : BodyRef
  trailers : List HeaderEntry
  deriving DecidableEq, Repr

structure HttpResponse where
  status : Nat
  headers : List HeaderEntry
  body : BodyRef
  trailers : List HeaderEntry
  deriving DecidableEq, Repr

inductive FlowOutcome where
  | response (response : HttpResponse)
  | error (error : FlowError)
  deriving DecidableEq, Repr

structure PhysicalRoute where
  kind : String
  description : Option String
  deriving DecidableEq, Repr

structure Provenance where
  mode : String
  observer : String
  deriving DecidableEq, Repr

structure RedactionMarker where
  field : String
  profile : String
  deriving DecidableEq, Repr

structure Flow where
  schemaVersion : Nat
  id : String
  startedAtMs : Nat
  completedAtMs : Option Nat
  request : HttpRequest
  outcome : FlowOutcome
  physicalRoute : Option PhysicalRoute
  provenance : Provenance
  annotations : List (String × String)
  redactions : List RedactionMarker
  deriving DecidableEq, Repr

structure SessionMetadata where
  schemaVersion : Nat
  toolVersion : String
  sessionId : String
  captureMode : String
  source : Option String
  target : Option String
  matcherProfile : String
  redactionProfile : String
  deriving DecidableEq, Repr

def flowSchemaVersion : Nat := 1
def sessionSchemaV1 : Nat := 1
def sessionSchemaVersion : Nat := 2

def HttpResponse.bodyLen (response : HttpResponse) : Nat :=
  response.body.len.getD 0

/-- The response's body length, zero for an outcome without a response. -/
def FlowOutcome.responseLength : FlowOutcome → Nat
  | .response reply => reply.bodyLen
  | .error _ => 0

def BlobRef.new (sha256 : String) (length : Nat) : Except FlowError BlobRef := do
  ensure (sha256.utf8ByteSize = 64 ∧ sha256.toList.all isHexDigit = true)
    { category := .policy, phase := .policy,
      message := "blob digest must be 64 hexadecimal characters" : FlowError }
  pure { sha256 := toAsciiLowercase sha256, length := length }

def Flow.validate (flow : Flow) : Except FlowError Unit := do
  ensure (flow.schemaVersion = flowSchemaVersion)
    { category := .policy, phase := .policy, message := "unsupported flow schema" }
  ensure (flow.id ≠ "" ∧ flow.id.utf8ByteSize ≤ 256 ∧
      containsChar flow.id '/' = false ∧ containsChar flow.id '\\' = false)
    { category := .policy, phase := .policy, message := "invalid flow identifier" }
  ensure (flow.request.method ≠ "" ∧ flow.request.path ≠ "" ∧
      startsWith flow.request.path "/" = true)
    { category := .protocol, phase := .request,
      message := "invalid request line fields" }
  ensure (∀ finish ∈ flow.completedAtMs, flow.startedAtMs ≤ finish)
    { category := .policy, phase := .policy,
      message := "flow completion precedes start" }
  match flow.outcome with
  | .response response =>
      ensure (100 ≤ response.status ∧ response.status ≤ 599)
        { category := .protocol, phase := .headers,
          message := "invalid response status" }
  | .error _ => pure ()

/-! ### Serialized form -/

abbrev Value := Json Nat

def optionJson {α : Type} (toJson : α → Value) : Option α → Value
  | none => .null
  | some a => toJson a

def HeaderEntry.toJson (header : HeaderEntry) : Value :=
  .object [("name", .string header.name), ("value", .string header.value)]

def QueryPair.toJson (pair : QueryPair) : Value :=
  .object [("key", .string pair.key), ("value", .string pair.value)]

def BodyRef.toJson : BodyRef → Value
  | .absent => .object [("kind", .string "absent")]
  | .empty => .object [("kind", .string "empty")]
  | .blob reference =>
      .object [("kind", .string "blob"), ("sha256", .string reference.sha256),
        ("length", .number reference.length)]

def HttpRequest.toJson (request : HttpRequest) : Value :=
  .object [("method", .string request.method), ("scheme", .string request.scheme),
    ("authority", .string request.authority), ("path", .string request.path),
    ("query", .array (request.query.map QueryPair.toJson)),
    ("headers", .array (request.headers.map HeaderEntry.toJson)),
    ("body", request.body.toJson),
    ("trailers", .array (request.trailers.map HeaderEntry.toJson))]

/-- The outcome's `kind` tag stands among the fields of its payload. -/
def FlowOutcome.toJson : FlowOutcome → Value
  | .response reply =>
      .object [("kind", .string "response"), ("status", .number reply.status),
        ("headers", .array (reply.headers.map HeaderEntry.toJson)),
        ("body", reply.body.toJson),
        ("trailers", .array (reply.trailers.map HeaderEntry.toJson))]
  | .error failure =>
      .object [("kind", .string "error"), ("category", .string failure.category.asStr),
        ("phase", .string failure.phase.asStr), ("message", .string failure.message)]

def PhysicalRoute.toJson (route : PhysicalRoute) : Value :=
  .object [("kind", .string route.kind),
    ("description", optionJson .string route.description)]

def Flow.toJson (flow : Flow) : Value :=
  .object [("schema_version", .number flow.schemaVersion), ("id", .string flow.id),
    ("started_at_ms", .number flow.startedAtMs),
    ("completed_at_ms", optionJson .number flow.completedAtMs),
    ("request", flow.request.toJson), ("outcome", flow.outcome.toJson),
    ("physical_route", optionJson PhysicalRoute.toJson flow.physicalRoute),
    ("provenance", .object [("mode", .string flow.provenance.mode),
      ("observer", .string flow.provenance.observer)]),
    ("annotations", .array (flow.annotations.map fun pair =>
      .array [.string pair.1, .string pair.2])),
    ("redactions", .array (flow.redactions.map fun marker =>
      .object [("field", .string marker.field), ("profile", .string marker.profile)]))]

/-- `serde_json::to_vec` of a flow. -/
def Flow.encode (flow : Flow) : Bytes :=
  EggReplay.Library.JsonText.encode flow.toJson

theorem newline_not_mem_flow_encode (flow : Flow) : (10 : UInt8) ∉ flow.encode :=
  newline_not_mem_encode flow.toJson

/-- Every wire name fits the 64-byte bound on a stream terminal's strings. -/
theorem category_asStr_size (category : ErrorCategory) :
    category.asStr.utf8ByteSize ≤ 64 := by
  cases category <;> decide

theorem phase_asStr_size (phase : ErrorPhase) : phase.asStr.utf8ByteSize ≤ 64 := by
  cases phase <;> decide

theorem flow_validate_eq_ok {flow : Flow} :
    flow.validate = .ok () ↔
      flow.schemaVersion = flowSchemaVersion ∧
      (flow.id ≠ "" ∧ flow.id.utf8ByteSize ≤ 256 ∧
        containsChar flow.id '/' = false ∧ containsChar flow.id '\\' = false) ∧
      (flow.request.method ≠ "" ∧ flow.request.path ≠ "" ∧
        startsWith flow.request.path "/" = true) ∧
      (∀ finish ∈ flow.completedAtMs, flow.startedAtMs ≤ finish) ∧
      ∀ response, flow.outcome = .response response →
        100 ≤ response.status ∧ response.status ≤ 599 := by
  unfold Flow.validate
  simp only [bind_eq_ok, ensure_eq_ok]
  cases h : flow.outcome with
  | response response => simp [ensure_eq_ok]
  | error error => simp

end EggReplay.Core.FlowRecord
