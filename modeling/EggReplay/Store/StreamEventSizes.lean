import EggReplay.Library.JsonLengths
import EggReplay.Store.SessionRuns

/-!
The size that both writers track for the stream-events document, against the length of the
document itself, over whole runs.
-/

namespace EggReplay.Store.StreamEventSizes

open EggReplay.Library.Checks
open EggReplay.Library.Text
open EggReplay.Library.JsonText
open EggReplay.Library.JsonLengths
open EggReplay.Core.FlowRecord
open EggReplay.Core.StreamTimeline
open EggReplay.Store.Fixture
open EggReplay.Store.SessionOpen
open EggReplay.Store.Staging
open EggReplay.Store.Writer
open EggReplay.Store.Recording
open EggReplay.Store.SessionRuns

/-- The size of the document as `append_stream_events` computes it. -/
def trackedSize (staged : Staged) : Nat := streamEventsBaseBytes + staged.streamEventObjectBytes

def flowLengths (flows : List FlowStreamEvents) : List Nat := flows.map fun flow => flow.encode.length

/-- What the registry of stream events keeps: its counters are those of the timelines, which
are valid one by one and have distinct ids. -/
structure Registered (staged : Staged) : Prop where
  version : staged.streamEvents.schemaVersion = streamEventsSchemaVersion
  objects : staged.streamEventObjectBytes = joinedLength (flowLengths staged.streamEvents.flows)
  size : trackedSize staged ≤ maxStreamEventsBytes
  ids : staged.streamEventIds = (staged.streamEvents.flows.map FlowStreamEvents.flowId).reverse
  distinct : (staged.streamEvents.flows.map FlowStreamEvents.flowId).Nodup
  records : staged.streamEventRecords = (staged.streamEvents.flows.map FlowStreamEvents.count).sum
  recordBound : staged.streamEventRecords ≤ maxStreamEventsPerSession
  each : ∀ flow ∈ staged.streamEvents.flows,
    (StreamEvents.mk streamEventsSchemaVersion [flow]).validate = .ok ()

theorem registered_empty : Registered Staged.empty where
  version := rfl
  objects := rfl
  size := by decide
  ids := rfl
  distinct := List.nodup_nil
  records := rfl
  recordBound := Nat.zero_le _
  each := by
    intro flow hflow
    cases hflow

/-- The registry of a staged session. -/
def registry (staged : Staged) : StreamEvents × List String × Nat × Nat :=
  (staged.streamEvents, staged.streamEventIds, staged.streamEventRecords,
    staged.streamEventObjectBytes)

theorem Registered.congr {staged next : Staged} (h : Registered staged)
    (hsame : registry next = registry staged) : Registered next := by
  obtain ⟨directory, flowCount, totalBytes, extensions, streamEvents, ids, records, objects,
    websocket, suffix⟩ := next
  simp only [registry, Prod.mk.injEq] at hsame
  obtain ⟨rfl, rfl, rfl, rfl⟩ := hsame
  exact ⟨h.version, h.objects, h.size, h.ids, h.distinct, h.records, h.recordBound, h.each⟩

/-! ### Adding a timeline -/

theorem flowLengths_eq_nil {flows : List FlowStreamEvents} : flowLengths flows = [] ↔ flows = [] :=
  List.map_eq_nil_iff

theorem saturatingAdd_eq_of_le {a b bound : Nat} (h : saturatingAdd a b ≤ bound)
    (hbound : bound < u64Max) : saturatingAdd a b = a + b := by
  rw [saturatingAdd] at h ⊢
  omega

theorem saturatingSum_of_le {base objects length separator bound : Nat}
    (h : saturatingAdd base (saturatingAdd (saturatingAdd objects length) separator) ≤ bound)
    (hbound : bound < u64Max) :
    saturatingAdd (saturatingAdd objects length) separator = objects + length + separator ∧
      base + (objects + length + separator) ≤ bound := by
  simp only [saturatingAdd] at h ⊢
  omega

/-- What an accepted reservation has passed, without saturation. -/
theorem reserveStreamEvents_eq_ok {staged next : Staged} {events : FlowStreamEvents}
    (h : staged.reserveStreamEvents events = .ok next) :
    next.streamEvents =
        { staged.streamEvents with flows := staged.streamEvents.flows ++ [events] } ∧
      next.streamEventIds = events.flowId :: staged.streamEventIds ∧
      next.streamEventRecords = staged.streamEventRecords + events.count ∧
      next.streamEventRecords ≤ maxStreamEventsPerSession ∧
      next.streamEventObjectBytes = staged.streamEventObjectBytes + events.encode.length +
        (if staged.streamEvents.flows = [] then 0 else 1) ∧
      trackedSize next ≤ maxStreamEventsBytes := by
  simp only [Staged.reserveStreamEvents, bind_eq_ok, ensure_eq_ok, pure_eq_ok] at h
  obtain ⟨_, hrecords, _, hsize, rfl⟩ := h
  have hsession : maxStreamEventsPerSession < u64Max := by decide
  have hbytes : maxStreamEventsBytes < u64Max := by decide
  obtain ⟨hsum, hbound⟩ := saturatingSum_of_le hsize hbytes
  refine ⟨rfl, rfl, saturatingAdd_eq_of_le hrecords hsession, hrecords, hsum, ?_⟩
  rw [trackedSize]
  exact (congrArg (streamEventsBaseBytes + ·) hsum).trans_le hbound

theorem Registered.reserve {staged next : Staged} {events : FlowStreamEvents}
    (h : Registered staged)
    (hvalid : (StreamEvents.mk streamEventsSchemaVersion [events]).validate = .ok ())
    (hnew : events.flowId ∉ staged.streamEventIds)
    (hreserve : staged.reserveStreamEvents events = .ok next) : Registered next := by
  obtain ⟨hevents, hids, hrecords, hrecordBound, hobjects, hsize⟩ :=
    reserveStreamEvents_eq_ok hreserve
  constructor
  · rw [hevents]
    exact h.version
  · rw [hobjects, hevents, h.objects, flowLengths, flowLengths, List.map_append, List.map_singleton,
      joinedLength_append_one]
    congr 1
    exact if_congr flowLengths_eq_nil.symm rfl rfl
  · exact hsize
  · rw [hids, hevents, h.ids, List.map_append, List.map_singleton, List.reverse_append]
    rfl
  · rw [h.ids, List.mem_reverse] at hnew
    rw [hevents, List.map_append, List.map_singleton]
    exact List.nodup_append.mpr ⟨h.distinct, List.nodup_singleton _, by
      rintro id hid other hother rfl
      exact hnew ((List.mem_singleton.mp hother) ▸ hid)⟩
  · rw [hrecords, hevents, h.records, List.map_append, List.map_singleton, List.sum_append,
      List.sum_singleton]
  · exact hrecordBound
  · rw [hevents]
    intro flow hflow
    rcases List.mem_append.mp hflow with hflow | hflow
    · exact h.each flow hflow
    · rw [List.mem_singleton.mp hflow]
      exact hvalid

/-! ### The document -/

theorem trackedSize_eq {staged : Staged} (h : Registered staged) :
    trackedSize staged + 2 = staged.streamEvents.encode.length := by
  have hwrapper : (encode (.object [("schema_version", .number streamEventsSchemaVersion),
      ("flows", .array [])])).length = streamEventsBaseBytes + 2 := by decide
  have hlength := length_encode_listed "schema_version" "flows"
    (.number streamEventsSchemaVersion)
    (staged.streamEvents.flows.map FlowStreamEvents.toJson)
  rw [List.map_map] at hlength
  rw [StreamEvents.encode, StreamEvents.toJson, h.version, hlength, hwrapper, trackedSize, h.objects]
  show streamEventsBaseBytes + joinedLength (flowLengths staged.streamEvents.flows) + 2 =
    streamEventsBaseBytes + 2 + joinedLength (flowLengths staged.streamEvents.flows)
  omega

/-! ### Runs -/

theorem writeExtension_registry {staged next : Staged} {extension : ExtensionDescriptor}
    {bytes : Bytes} (h : staged.writeExtension extension bytes = .ok next) :
    registry next = registry staged := by
  simp only [Staged.writeExtension, bind_eq_ok, pure_eq_ok] at h
  obtain ⟨_, -, rfl⟩ := h
  rfl

theorem registered_writer_step {codec : Codec} {run : WriterRun}
    (h : Registered run.writer.toStaged) (operation : Operation) :
    Registered (run.step codec operation).writer.toStaged := by
  rcases operation with _ | ⟨suffix, buffer⟩ | suffix | suffix | flow | events | conversation |
    ⟨extension, bytes⟩
  · exact h.congr rfl
  · simp only [WriterRun.step]
    rcases findBody run.bodies suffix with _ | body
    · exact h
    · exact settle_induction (P := fun run : WriterRun => Registered run.writer.toStaged) h
        fun written _ => h.congr rfl
  · simp only [WriterRun.step]
    rcases findBody run.bodies suffix with _ | body
    · exact h
    · exact h.congr rfl
  · simp only [WriterRun.step]
    rcases findBody run.bodies suffix with _ | body
    · exact h
    · exact h.congr rfl
  · refine settle_induction (P := fun run : WriterRun => Registered run.writer.toStaged) h
      fun writer hwriter => ?_
    obtain ⟨-, rfl⟩ := appendFlow_appendable hwriter
    exact h.congr rfl
  · refine settle_induction (P := fun run : WriterRun => Registered run.writer.toStaged) h
      fun writer hwriter => ?_
    simp only [SessionWriter.appendStreamEvents, bind_eq_ok, mapError_eq_ok, ensure_eq_ok,
      pure_eq_ok] at hwriter
    obtain ⟨_, hvalid, _, hnew, staged, hstaged, rfl⟩ := hwriter
    exact h.reserve hvalid hnew hstaged
  · refine settle_induction (P := fun run : WriterRun => Registered run.writer.toStaged) h
      fun writer hwriter => ?_
    simp only [SessionWriter.appendWebsocketConversation, bind_eq_ok, pure_eq_ok] at hwriter
    obtain ⟨websocket, -, rfl⟩ := hwriter
    exact h.congr rfl
  · refine settle_induction (P := fun run : WriterRun => Registered run.writer.toStaged) h
      fun writer hwriter => ?_
    simp only [SessionWriter.writeExtension, bind_eq_ok, pure_eq_ok] at hwriter
    obtain ⟨staged, hstaged, rfl⟩ := hwriter
    exact h.congr (writeExtension_registry hstaged)

theorem registered_recording_step {codec : Codec} {run : RecordingRun}
    (h : Registered run.inner.toStaged) (operation : Operation) :
    Registered (run.step codec operation).inner.toStaged := by
  rcases operation with _ | ⟨suffix, buffer⟩ | suffix | suffix | flow | events | conversation |
    ⟨extension, bytes⟩
  · refine settle_induction (P := fun run : RecordingRun => Registered run.inner.toStaged) h
      fun begun hbegun => ?_
    simp only [RecordingInner.beginBlob, bind_eq_ok, pure_eq_ok] at hbegun
    obtain ⟨_, -, rfl⟩ := hbegun
    exact h.congr rfl
  · simp only [RecordingRun.step]
    rcases findBody run.bodies suffix with _ | body
    · exact h
    · refine settle_induction (P := fun run : RecordingRun => Registered run.inner.toStaged) h
        fun written hwritten => ?_
      simp only [RecordingInner.writeBody, bind_eq_ok, pure_eq_ok] at hwritten
      obtain ⟨_, -, rfl⟩ := hwritten
      exact h.congr rfl
  · simp only [RecordingRun.step]
    rcases findBody run.bodies suffix with _ | body
    · exact h
    · exact h.congr rfl
  · simp only [RecordingRun.step]
    rcases findBody run.bodies suffix with _ | body
    · exact h
    · exact h.congr rfl
  · refine settle_induction (P := fun run : RecordingRun => Registered run.inner.toStaged) h
      fun inner hinner => ?_
    obtain ⟨-, rfl⟩ := recording_appendFlow_appendable hinner
    exact h.congr rfl
  · refine settle_induction (P := fun run : RecordingRun => Registered run.inner.toStaged) h
      fun inner hinner => ?_
    simp only [RecordingInner.appendStreamEvents, bind_eq_ok, mapError_eq_ok, ensure_eq_ok,
      pure_eq_ok] at hinner
    obtain ⟨_, -, _, hvalid, _, hnew, _, -, staged, hstaged, rfl⟩ := hinner
    exact h.reserve hvalid hnew hstaged
  · refine settle_induction (P := fun run : RecordingRun => Registered run.inner.toStaged) h
      fun inner hinner => ?_
    simp only [RecordingInner.appendWebsocketConversation, bind_eq_ok, pure_eq_ok] at hinner
    obtain ⟨_, -, websocket, -, rfl⟩ := hinner
    exact h.congr rfl
  · refine settle_induction (P := fun run : RecordingRun => Registered run.inner.toStaged) h
      fun inner hinner => ?_
    simp only [RecordingInner.writeExtension, bind_eq_ok, pure_eq_ok] at hinner
    obtain ⟨_, -, staged, hstaged, rfl⟩ := hinner
    exact h.congr (writeExtension_registry hstaged)

theorem registered_writer_run {codec : Codec} {metadata : SessionMetadata} {limits : StoreLimits}
    {start : SessionWriter} (hcreate : SessionWriter.create false metadata limits = .ok start)
    (operations : List Operation) :
    Registered (WriterRun.run codec start operations).writer.toStaged := by
  refine List.foldlRecOn (motive := fun run : WriterRun => Registered run.writer.toStaged)
    operations _ ?_ fun _ h operation _ => registered_writer_step h operation
  simp only [SessionWriter.create, bind_eq_ok, ensure_eq_ok, pure_eq_ok] at hcreate
  obtain ⟨_, -, _, -, rfl⟩ := hcreate
  exact registered_empty

theorem registered_recording_run {codec : Codec} {metadata : SessionMetadata}
    {limits : StoreLimits} {start : RecordingInner}
    (hcreate : RecordingInner.create false metadata limits = .ok start)
    (operations : List Operation) :
    Registered (RecordingRun.run codec start operations).inner.toStaged := by
  refine List.foldlRecOn (motive := fun run : RecordingRun => Registered run.inner.toStaged)
    operations _ ?_ fun _ h operation _ => registered_recording_step h operation
  simp only [RecordingInner.create, bind_eq_ok, ensure_eq_ok, pure_eq_ok] at hcreate
  obtain ⟨_, -, _, -, rfl⟩ := hcreate
  exact registered_empty

/-! ### The timelines together -/

theorem validateFlowEvents_all {flows : List FlowStreamEvents} {totals : SessionTotals}
    (heach : ∀ flow ∈ flows, (StreamEvents.mk streamEventsSchemaVersion [flow]).validate = .ok ())
    (hdistinct : (flows.map FlowStreamEvents.flowId).Nodup)
    (hnew : ∀ flow ∈ flows, flow.flowId ∉ totals.ids)
    (hsum : totals.total + (flows.map FlowStreamEvents.count).sum ≤ maxStreamEventsPerSession) :
    ∃ final, checkFold validateFlowEvents totals flows = .ok final := by
  induction flows generalizing totals with
  | nil => exact ⟨totals, rfl⟩
  | cons flow rest ih =>
      obtain ⟨⟨hne, hsize⟩, hcount, hrequest, hresponse⟩ :=
        validate_single_eq_ok.mp (heach flow List.mem_cons_self)
      obtain ⟨hfirst, hrest⟩ := List.nodup_cons.mp hdistinct
      rw [List.map_cons, List.sum_cons] at hsum
      have hadd : saturatingAdd totals.total flow.count = totals.total + flow.count :=
        saturatingAdd_of_le (by
          have hbound : maxStreamEventsPerSession ≤ u64Max := by decide
          omega)
      have hcheck : validateFlowEvents totals flow =
          .ok { ids := flow.flowId :: totals.ids, total := totals.total + flow.count } := by
        rw [validateFlowEvents_eq_ok, hadd]
        exact ⟨⟨hne, hsize, hnew flow List.mem_cons_self⟩, hcount, by omega, hrequest, hresponse,
          rfl⟩
      rw [checkFold_cons, hcheck, ok_bind]
      apply ih (fun other hother => heach other (List.mem_cons_of_mem _ hother)) hrest
      · intro other hother hmem
        rcases List.mem_cons.mp hmem with hsame | hmem
        · exact hfirst (hsame ▸ List.mem_map_of_mem hother)
        · exact hnew other (List.mem_cons_of_mem _ hother) hmem
      · show totals.total + flow.count + _ ≤ _
        omega

/-- The member names alone keep a timeline from being short. -/
theorem encode_length_ge (flow : FlowStreamEvents) : 17 ≤ flow.encode.length := by
  have hstart : 17 ≤ nameLength "start_offset_ns" := by decide
  rw [FlowStreamEvents.encode, FlowStreamEvents.toJson, length_encode_object]
  simp only [List.map_cons, joinedLength, List.sum_cons]
  omega

theorem Registered.validate {staged : Staged} (h : Registered staged) :
    staged.streamEvents.validate = .ok () := by
  have hlengths := @mul_length_le_sum (flowLengths staged.streamEvents.flows) 17 (by
    intro n hn
    obtain ⟨flow, -, rfl⟩ := List.mem_map.mp hn
    exact encode_length_ge flow)
  have hsize := h.size
  rw [trackedSize, h.objects, joinedLength] at hsize
  have hlength : (flowLengths staged.streamEvents.flows).length = staged.streamEvents.flows.length :=
    List.length_map _
  have hcount : staged.streamEvents.flows.length ≤ maxStreamEventsPerSession := by
    rw [maxStreamEventsBytes] at hsize
    rw [maxStreamEventsPerSession]
    omega
  refine streamEvents_validate_eq_ok.mpr ⟨h.version, hcount, ?_⟩
  refine validateFlowEvents_all h.each h.distinct (fun _ _ => List.not_mem_nil) ?_
  have hbound := h.recordBound
  rw [h.records] at hbound
  exact (Nat.zero_add _).trans_le hbound

/-! ### Writing the document -/

/-- The result is the error of one of the checks on the document's size. -/
def SizeRejected {α : Type} (result : Except StoreError α) : Prop :=
  result = .error (.invalid "stream event metadata exceeds configured limit") ∨
    result = .error (.invalid "extension exceeds configured limit")

/-- The tracked size is the document's, and `finish` has nothing to say about it. -/
structure ExactAccounting {α : Type} (staged : Staged) (written : Except StoreError α) : Prop where
  tracked : trackedSize staged = staged.streamEvents.encode.length
  bounded : staged.streamEvents.encode.length ≤ maxStreamEventsBytes
  accepted : ¬SizeRejected written

theorem writeExtension_not_sizeRejected {staged : Staged} {bytes : Bytes}
    (hsize : bytes.length ≤ maxExtensionBytes) :
    ¬SizeRejected (staged.writeExtension streamEventsExtension bytes) := by
  have hname : validateExtensionName streamEventsExtension.name = .ok () := by decide
  have hpath : validateExtensionPath streamEventsExtension.path = .ok () := by decide
  have herror : ∀ error, staged.writeExtension streamEventsExtension bytes = .error error →
      error ∉ ([.invalid "stream event metadata exceeds configured limit",
        .invalid "extension exceeds configured limit"] : List StoreError) := by
    intro error herror
    simp only [Staged.writeExtension, writeExtensionFile, Directory.createFile, hname, hpath,
      ok_bind, bind_eq_error, ensure_eq_error, pure_ne_error, ensure_of_true hsize] at herror
    rcases herror with (⟨-, rfl⟩ | ⟨_, -, ⟨-, rfl⟩ | ⟨_, -, ⟨-, rfl⟩ | ⟨_, -, ⟨-, rfl⟩ |
      ⟨_, -, (⟨-, rfl⟩ | ⟨_, -, ⟨⟩⟩) | ⟨_, -, ⟨⟩⟩⟩⟩⟩⟩) | ⟨_, -, ⟨⟩⟩
    all_goals decide
  rintro (h | h)
  · exact herror _ h List.mem_cons_self
  · exact herror _ h (List.mem_cons_of_mem _ List.mem_cons_self)

/-- A result that goes on with the written extension is rejected for a size only where the
extension is. -/
theorem not_sizeRejected_bind {α β : Type} {result : Except StoreError α} {next : α → β}
    (h : ¬SizeRejected result) : ¬SizeRejected (result >>= fun a => pure (next a)) := by
  rcases result with error | value
  · rintro (⟨⟨⟩⟩ | ⟨⟨⟩⟩)
    · exact h (.inl rfl)
    · exact h (.inr rfl)
  · rintro (⟨⟨⟩⟩ | ⟨⟨⟩⟩)

theorem writer_not_sizeRejected {writer : SessionWriter} (h : Registered writer.toStaged)
    (hsize : writer.streamEvents.encode.length ≤ maxStreamEventsBytes) :
    ¬SizeRejected writer.writeStreamEventsExtension := by
  unfold SessionWriter.writeStreamEventsExtension
  split
  · rintro (⟨⟨⟩⟩ | ⟨⟨⟩⟩)
  · rw [h.validate]
    exact not_sizeRejected_bind (writeExtension_not_sizeRejected hsize)

theorem recording_not_sizeRejected {inner : RecordingInner} (h : Registered inner.toStaged)
    (hsize : inner.streamEvents.encode.length ≤ maxStreamEventsBytes) :
    ¬SizeRejected inner.writeStreamEventsExtension := by
  unfold RecordingInner.writeStreamEventsExtension
  split
  · rintro (⟨⟨⟩⟩ | ⟨⟨⟩⟩)
  · rw [h.validate, ensure_of_true hsize]
    exact not_sizeRejected_bind (writeExtension_not_sizeRejected hsize)

/-- The tracked size misses the two bytes of the empty list, and only a document that they
carry past the limit is rejected. -/
theorem not_exactAccounting {α : Type} {staged : Staged} {written : Except StoreError α}
    (h : Registered staged)
    (haccepted : staged.streamEvents.encode.length ≤ maxStreamEventsBytes → ¬SizeRejected written) :
    ¬ExactAccounting staged written ∧
      (staged.streamEvents.encode.length ≤ maxStreamEventsBytes ∧ ¬SizeRejected written ↔
        trackedSize staged + 2 ≤ maxStreamEventsBytes) := by
  have hlength := trackedSize_eq h
  constructor
  · rintro ⟨htracked, -, -⟩
    omega
  · rw [hlength]
    exact ⟨And.left, fun hsize => ⟨hsize, haccepted hsize⟩⟩

/-- After every run of either writer the tracked size is two bytes short of the document. -/
theorem tracked_never_exact (codec : Codec) (metadata : SessionMetadata) (limits : StoreLimits)
    (operations : List Operation) :
    (∀ start, SessionWriter.create false metadata limits = .ok start →
      let writer := (WriterRun.run codec start operations).writer
      ¬ExactAccounting writer.toStaged writer.writeStreamEventsExtension ∧
        (writer.streamEvents.encode.length ≤ maxStreamEventsBytes ∧
            ¬SizeRejected writer.writeStreamEventsExtension ↔
          trackedSize writer.toStaged + 2 ≤ maxStreamEventsBytes)) ∧
    (∀ start, RecordingInner.create false metadata limits = .ok start →
      let inner := (RecordingRun.run codec start operations).inner
      ¬ExactAccounting inner.toStaged inner.writeStreamEventsExtension ∧
        (inner.streamEvents.encode.length ≤ maxStreamEventsBytes ∧
            ¬SizeRejected inner.writeStreamEventsExtension ↔
          trackedSize inner.toStaged + 2 ≤ maxStreamEventsBytes)) := by
  constructor
  · intro start hcreate writer
    have h : Registered writer.toStaged := registered_writer_run hcreate operations
    exact not_exactAccounting h (writer_not_sizeRejected h)
  · intro start hcreate inner
    have h : Registered inner.toStaged := registered_recording_run hcreate operations
    exact not_exactAccounting h (recording_not_sizeRejected h)

/-- A timeline of one flow without events. -/
def quietTimeline : FlowStreamEvents where
  flowId := "one"
  startOffsetNs := 0
  request := []
  response := []

theorem quietTimeline_never_exact :
    ¬ExactAccounting
        (WriterRun.run (sampleCodec 0) sampleWriter
          [.appendStreamEvents quietTimeline]).writer.toStaged
        (WriterRun.run (sampleCodec 0) sampleWriter
          [.appendStreamEvents quietTimeline]).writer.writeStreamEventsExtension ∧
      ¬ExactAccounting
        (RecordingRun.run (sampleCodec 0) sampleSession
          [.appendStreamEvents quietTimeline]).inner.toStaged
        (RecordingRun.run (sampleCodec 0) sampleSession
          [.appendStreamEvents quietTimeline]).inner.writeStreamEventsExtension :=
  have hnever := tracked_never_exact (sampleCodec 0) sampleMetadata StoreLimits.default
    [.appendStreamEvents quietTimeline]
  ⟨(hnever.1 sampleWriter rfl).1, (hnever.2 sampleSession rfl).1⟩

/-- One accepted timeline makes a document of 95 bytes that is tracked as 93. -/
theorem quietTimeline_miscounted :
    (WriterRun.run (sampleCodec 0) sampleWriter
        [.appendStreamEvents quietTimeline]).writer.streamEvents.flows = [quietTimeline] ∧
      (RecordingRun.run (sampleCodec 0) sampleSession
        [.appendStreamEvents quietTimeline]).inner.streamEvents.flows = [quietTimeline] ∧
      ¬ExactAccounting
        (WriterRun.run (sampleCodec 0) sampleWriter
          [.appendStreamEvents quietTimeline]).writer.toStaged
        (WriterRun.run (sampleCodec 0) sampleWriter
          [.appendStreamEvents quietTimeline]).writer.writeStreamEventsExtension ∧
      ¬ExactAccounting
        (RecordingRun.run (sampleCodec 0) sampleSession
          [.appendStreamEvents quietTimeline]).inner.toStaged
        (RecordingRun.run (sampleCodec 0) sampleSession
          [.appendStreamEvents quietTimeline]).inner.writeStreamEventsExtension := by
  refine ⟨by decide, by decide, fun h => ?_, fun h => ?_⟩
  · exact absurd h.tracked (by decide)
  · exact absurd h.tracked (by decide)

end EggReplay.Store.StreamEventSizes
