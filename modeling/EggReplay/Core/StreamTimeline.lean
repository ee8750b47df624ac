import EggReplay.Core.FlowRecord

/-!
Stream timelines: payload-free events of one body, the per-flow and per-session
bounds that `StreamEvents::validate` enforces, and their serialized form.
-/

namespace EggReplay.Core.StreamTimeline

open EggReplay.Library.Checks
open EggReplay.Library.Text
open EggReplay.Library.JsonText
open EggReplay.Core.FlowRecord

def streamEventsSchemaVersion : Nat := 1
def maxStreamEventsPerFlow : Nat := 4096
def maxStreamEventsPerSession : Nat := 1000000
def maxStreamEventsBytes : Nat := 16 * 1024 * 1024
def maxStreamDelayNs : Nat := 60000000000
def maxStreamTotalDelayNs : Nat := 300000000000

def u64Max : Nat := 2 ^ 64 - 1

/-- `u64::saturating_add` (and `usize::saturating_add` on 64-bit targets). -/
def saturatingAdd (a b : Nat) : Nat := min (a + b) u64Max

inductive StreamEventKind where
  | data (offset length : Nat)
  | trailers (fields : List HeaderEntry)
  | finish
  | error (offset : Nat) (category phase : String)
  deriving DecidableEq, Repr

structure StreamEvent where
  deltaNs : Nat
  event : StreamEventKind
  deriving DecidableEq, Repr

structure FlowStreamEvents where
  flowId : String
  startOffsetNs : Nat
  request : List StreamEvent
  response : List StreamEvent
  deriving DecidableEq, Repr

structure StreamEvents where
  schemaVersion : Nat
  flows : List FlowStreamEvents
  deriving DecidableEq, Repr

def StreamEvents.default : StreamEvents :=
  { schemaVersion := streamEventsSchemaVersion, flows := [] }

def FlowStreamEvents.count (events : FlowStreamEvents) : Nat :=
  saturatingAdd events.request.length events.response.length

/-- What the per-direction loop remembers of the events it has read. -/
structure DirectionState where
  lastDelta : Nat := 0
  lastOffset : Nat := 0
  terminal : Bool := false
  trailersSeen : Bool := false
  deriving DecidableEq, Repr

def validateEvent (state : DirectionState) (event : StreamEvent) :
    Except String DirectionState := do
  ensure (state.terminal = false ∧ state.lastDelta ≤ event.deltaNs ∧
      event.deltaNs ≤ maxStreamDelayNs) "stream event order or delay is invalid"
  let state := { state with lastDelta := event.deltaNs }
  match event.event with
  | .data offset length =>
      ensure (state.trailersSeen = false ∧ offset = state.lastOffset ∧ length ≠ 0)
        "stream DATA offsets must be contiguous and nonempty"
      pure { state with lastOffset := saturatingAdd offset length }
  | .error offset category phase =>
      ensure (offset = state.lastOffset ∧ category.utf8ByteSize ≤ 64 ∧
        phase.utf8ByteSize ≤ 64) "stream terminal error is invalid"
      pure { state with terminal := true }
  | .trailers fields =>
      ensure (state.trailersSeen = false ∧ fields.length ≤ 256 ∧
        ∀ field ∈ fields, field.name.utf8ByteSize ≤ 256 ∧ field.value.utf8ByteSize ≤ 8192)
        "stream trailers exceed configured limit"
      pure { state with trailersSeen := true }
  | .finish => pure { state with terminal := true }

def validateDirection (events : List StreamEvent) : Except String Unit := do
  let _ ← checkFold validateEvent {} events
  pure ()

/-- The flow ids and the event count met so far in one extension. -/
structure SessionTotals where
  ids : List String := []
  total : Nat := 0
  deriving DecidableEq, Repr

def validateFlowEvents (totals : SessionTotals) (flow : FlowStreamEvents) :
    Except String SessionTotals := do
  ensure (flow.flowId ≠ "" ∧ flow.flowId.utf8ByteSize ≤ 256 ∧ flow.flowId ∉ totals.ids)
    "stream event flow id is empty, oversized, or duplicated"
  ensure (flow.count ≤ maxStreamEventsPerFlow)
    "stream event count for flow exceeds configured limit"
  let total := saturatingAdd totals.total flow.count
  ensure (total ≤ maxStreamEventsPerSession)
    "aggregate stream event count exceeds configured limit"
  validateDirection flow.request
  validateDirection flow.response
  pure { ids := flow.flowId :: totals.ids, total := total }

def StreamEvents.validate (events : StreamEvents) : Except String Unit := do
  ensure (events.schemaVersion = streamEventsSchemaVersion)
    ("unsupported stream-events schema " ++ Nat.repr events.schemaVersion)
  ensure (events.flows.length ≤ maxStreamEventsPerSession)
    "stream event flow count exceeds configured limit"
  let _ ← checkFold validateFlowEvents {} events.flows
  pure ()

/-- The DATA lengths of a timeline, summed as the session reader sums them. -/
def dataLength (events : List StreamEvent) : Nat :=
  events.foldl (fun total event =>
    saturatingAdd total (match event.event with
      | .data _ length => length
      | _ => 0)) 0

/-! ### Serialized form -/

def StreamEvent.toJson (event : StreamEvent) : Value :=
  .object [("delta_ns", .number event.deltaNs),
    ("event", match event.event with
      | .data offset length =>
          .object [("kind", .string "data"), ("offset", .number offset),
            ("length", .number length)]
      | .trailers fields =>
          .object [("kind", .string "trailers"),
            ("fields", .array (fields.map HeaderEntry.toJson))]
      | .finish => .object [("kind", .string "end")]
      | .error offset category phase =>
          .object [("kind", .string "error"), ("offset", .number offset),
            ("category", .string category), ("phase", .string phase)])]

def FlowStreamEvents.toJson (events : FlowStreamEvents) : Value :=
  .object [("flow_id", .string events.flowId),
    ("start_offset_ns", .number events.startOffsetNs),
    ("request", .array (events.request.map StreamEvent.toJson)),
    ("response", .array (events.response.map StreamEvent.toJson))]

def FlowStreamEvents.encode (events : FlowStreamEvents) : Bytes :=
  EggReplay.Library.JsonText.encode events.toJson

def StreamEvents.toJson (events : StreamEvents) : Value :=
  .object [("schema_version", .number events.schemaVersion),
    ("flows", .array (events.flows.map FlowStreamEvents.toJson))]

def StreamEvents.encode (events : StreamEvents) : Bytes :=
  EggReplay.Library.JsonText.encode events.toJson

/-! ### What the checks accept -/

theorem saturatingAdd_of_le {a b : Nat} (h : a + b ≤ u64Max) :
    saturatingAdd a b = a + b := by
  simp [saturatingAdd, h]

theorem saturatingAdd_le_add (a b : Nat) : saturatingAdd a b ≤ a + b := by
  simp [saturatingAdd]

theorem saturatingAdd_le (a b : Nat) : saturatingAdd a b ≤ u64Max := by
  simp [saturatingAdd]

theorem validateEvent_data_eq_ok {state next : DirectionState} {delta offset length : Nat} :
    validateEvent state ⟨delta, .data offset length⟩ = .ok next ↔
      (state.terminal = false ∧ state.lastDelta ≤ delta ∧ delta ≤ maxStreamDelayNs) ∧
      (state.trailersSeen = false ∧ offset = state.lastOffset ∧ length ≠ 0) ∧
      { state with lastDelta := delta, lastOffset := saturatingAdd offset length } = next := by
  simp [validateEvent]

theorem validateEvent_trailers_eq_ok {state next : DirectionState} {delta : Nat}
    {fields : List HeaderEntry} :
    validateEvent state ⟨delta, .trailers fields⟩ = .ok next ↔
      (state.terminal = false ∧ state.lastDelta ≤ delta ∧ delta ≤ maxStreamDelayNs) ∧
      (state.trailersSeen = false ∧ fields.length ≤ 256 ∧
        ∀ field ∈ fields, field.name.utf8ByteSize ≤ 256 ∧ field.value.utf8ByteSize ≤ 8192) ∧
      { state with lastDelta := delta, trailersSeen := true } = next := by
  simp [validateEvent]

theorem validateEvent_finish_eq_ok {state next : DirectionState} {delta : Nat} :
    validateEvent state ⟨delta, .finish⟩ = .ok next ↔
      (state.terminal = false ∧ state.lastDelta ≤ delta ∧ delta ≤ maxStreamDelayNs) ∧
      { state with lastDelta := delta, terminal := true } = next := by
  simp [validateEvent]

theorem validateEvent_error_eq_ok {state next : DirectionState} {delta offset : Nat}
    {category phase : String} :
    validateEvent state ⟨delta, .error offset category phase⟩ = .ok next ↔
      (state.terminal = false ∧ state.lastDelta ≤ delta ∧ delta ≤ maxStreamDelayNs) ∧
      (offset = state.lastOffset ∧ category.utf8ByteSize ≤ 64 ∧ phase.utf8ByteSize ≤ 64) ∧
      { state with lastDelta := delta, terminal := true } = next := by
  simp [validateEvent]

theorem validateDirection_eq_ok {events : List StreamEvent} :
    validateDirection events = .ok () ↔
      ∃ state, checkFold validateEvent {} events = .ok state := by
  simp [validateDirection]

theorem validateFlowEvents_eq_ok {totals next : SessionTotals} {flow : FlowStreamEvents} :
    validateFlowEvents totals flow = .ok next ↔
      (flow.flowId ≠ "" ∧ flow.flowId.utf8ByteSize ≤ 256 ∧ flow.flowId ∉ totals.ids) ∧
      flow.count ≤ maxStreamEventsPerFlow ∧
      saturatingAdd totals.total flow.count ≤ maxStreamEventsPerSession ∧
      validateDirection flow.request = .ok () ∧
      validateDirection flow.response = .ok () ∧
      { ids := flow.flowId :: totals.ids,
        total := saturatingAdd totals.total flow.count } = next := by
  simp [validateFlowEvents]

theorem streamEvents_validate_eq_ok {events : StreamEvents} :
    events.validate = .ok () ↔
      events.schemaVersion = streamEventsSchemaVersion ∧
      events.flows.length ≤ maxStreamEventsPerSession ∧
      ∃ totals, checkFold validateFlowEvents {} events.flows = .ok totals := by
  simp [StreamEvents.validate]

/-- One timeline on its own, as `append_stream_events` checks it. -/
theorem validate_single_eq_ok {flow : FlowStreamEvents} :
    (StreamEvents.mk streamEventsSchemaVersion [flow]).validate = .ok () ↔
      (flow.flowId ≠ "" ∧ flow.flowId.utf8ByteSize ≤ 256) ∧
      flow.count ≤ maxStreamEventsPerFlow ∧
      validateDirection flow.request = .ok () ∧
      validateDirection flow.response = .ok () := by
  have hone : 1 ≤ maxStreamEventsPerSession := by decide
  rw [streamEvents_validate_eq_ok]
  simp only [checkFold_cons, checkFold_nil, bind_eq_ok, validateFlowEvents_eq_ok]
  constructor
  · rintro ⟨-, -, _, _, ⟨⟨hne, hsize, -⟩, hcount, -, hrequest, hresponse, -⟩, -⟩
    exact ⟨⟨hne, hsize⟩, hcount, hrequest, hresponse⟩
  · rintro ⟨⟨hne, hsize⟩, hcount, hrequest, hresponse⟩
    refine ⟨trivial, hone, _, _, ⟨⟨hne, hsize, by simp⟩, hcount, ?_, hrequest, hresponse,
      rfl⟩, rfl⟩
    have hle := saturatingAdd_le_add 0 flow.count
    simp only [maxStreamEventsPerFlow, maxStreamEventsPerSession] at *
    omega

/-! ### Replay timing -/

/-- A scale is given as what it makes of a delta, `(delta as f64 * factor).ceil() as u64`. -/
inductive StreamTimingMode where
  | immediate
  | recorded
  | scaled (scale : Nat → Nat)

def StreamTimingMode.scale : StreamTimingMode → Nat → Nat
  | .immediate, _ => 0
  | .recorded, delta => delta
  | .scaled scale, delta => scale delta

def StreamTimingMode.delayNs (mode : StreamTimingMode) (deltaNs accumulatedNs : Nat) :
    Except String Nat := do
  ensure (deltaNs ≤ maxStreamDelayNs) "recorded stream delay exceeds configured limit"
  ensure (saturatingAdd accumulatedNs (mode.scale deltaNs) ≤ maxStreamTotalDelayNs)
    "total replay delay exceeds configured limit"
  pure (mode.scale deltaNs)

end EggReplay.Core.StreamTimeline
