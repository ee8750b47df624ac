import EggReplay.Http.RecordedTimelines

/-!
Whether a recorded transaction is in the fixture as a whole: the flow is appended before its
stream events, and the events can still be rejected.
-/

namespace EggReplay.Http.Atomicity

open EggReplay.Library.Checks
open EggReplay.Library.Text
open EggReplay.Library.LineLog
open EggReplay.Library.Stateful
open EggReplay.Core.FlowRecord
open EggReplay.Core.StreamTimeline
open EggReplay.Core.Redaction
open EggReplay.Store.Fixture
open EggReplay.Store.SessionOpen
open EggReplay.Store.Staging
open EggReplay.Store.Recording
open EggReplay.Store.BlobContents
open EggReplay.Http.StreamEventCapture
open EggReplay.Http.Transaction
open EggReplay.Http.Recorder
open EggReplay.Http.Captures
open EggReplay.Http.RecordedTimelines

variable {N : Type}

/-! ### The two appends -/

/-- The session after a flow is appended. -/
def logged (inner : RecordingInner) (flow : Flow) : RecordingInner :=
  { inner with
    toStaged := inner.toStaged.writeFlow flow (inner.totalBytes + flowBodyBytes flow) }

theorem appendFlow_eq_ok {inner next : RecordingInner} {flow : Flow} :
    inner.appendFlow flow = .ok next ↔
      inner.shutdown = false ∧ checkFlow inner.limits flow = .ok () ∧
      inner.flowsOpen = true ∧ inner.flowCount < inner.limits.maxFlows ∧
      inner.totalBytes + flowBodyBytes flow ≤ u64Max ∧
      inner.totalBytes + flowBodyBytes flow ≤ inner.limits.maxTotalBytes ∧
      logged inner flow = next := by
  simp [RecordingInner.appendFlow, RecordingInner.checkRunning, RecordingInner.appendFlowLocked,
    logged]

/-- The registry after the registration of a timeline. -/
def registered (inner : RecordingInner) (events : FlowStreamEvents) : RecordingInner :=
  { inner with
    streamEvents := { inner.streamEvents with flows := inner.streamEvents.flows ++ [events] }
    streamEventIds := events.flowId :: inner.streamEventIds
    streamEventRecords := saturatingAdd inner.streamEventRecords
      (saturatingAdd events.request.length events.response.length)
    streamEventObjectBytes :=
      saturatingAdd (saturatingAdd inner.streamEventObjectBytes events.encode.length)
        (if inner.streamEvents.flows = [] then 0 else 1) }

/-- There is room for one more timeline under its id. -/
structure Room (inner : RecordingInner) (events : FlowStreamEvents) : Prop where
  fresh : events.flowId ∉ inner.streamEventIds
  flows : inner.streamEvents.flows.length < maxStreamEventsPerSession
  records : saturatingAdd inner.streamEventRecords
    (saturatingAdd events.request.length events.response.length) ≤ maxStreamEventsPerSession
  bytes : saturatingAdd streamEventsBaseBytes
    (saturatingAdd (saturatingAdd inner.streamEventObjectBytes events.encode.length)
      (if inner.streamEvents.flows = [] then 0 else 1)) ≤ maxStreamEventsBytes

theorem appendStreamEvents_eq_ok {inner next : RecordingInner} {events : FlowStreamEvents} :
    inner.appendStreamEvents events = .ok next ↔
      inner.shutdown = false ∧
      (StreamEvents.mk streamEventsSchemaVersion [events]).validate = .ok () ∧
      Room inner events ∧ registered inner events = next := by
  have hroom : Room inner events ↔
      events.flowId ∉ inner.streamEventIds ∧
      inner.streamEvents.flows.length < maxStreamEventsPerSession ∧
      saturatingAdd inner.streamEventRecords
        (saturatingAdd events.request.length events.response.length) ≤
          maxStreamEventsPerSession ∧
      saturatingAdd streamEventsBaseBytes
        (saturatingAdd (saturatingAdd inner.streamEventObjectBytes events.encode.length)
          (if inner.streamEvents.flows = [] then 0 else 1)) ≤ maxStreamEventsBytes :=
    ⟨fun h => ⟨h.fresh, h.flows, h.records, h.bytes⟩,
      fun h => ⟨h.1, h.2.1, h.2.2.1, h.2.2.2⟩⟩
  rw [hroom]
  simp [RecordingInner.appendStreamEvents, RecordingInner.checkRunning,
    Staged.reserveStreamEvents, registered, and_assoc]

/-- The registry takes the timeline of a new flow: the delays and the trailers of both
directions are within bounds, and there is room. -/
structure Registrable (inner : RecordingInner) (events : FlowStreamEvents) : Prop where
  request : Bounded false events.request
  response : Bounded false events.response
  room : Room inner events

/-- A timeline in sequence is rejected for its delays and trailers or for want of room, and
for nothing else. -/
theorem appendStreamEvents_iff {inner : RecordingInner} {events : FlowStreamEvents}
    (hrunning : inner.shutdown = false)
    (hid : events.flowId ≠ "" ∧ events.flowId.utf8ByteSize ≤ 256)
    (hrequest : Sequenced {} events.request ∧ events.request.length ≤ maxEventsPerDirection)
    (hresponse : Sequenced {} events.response ∧ events.response.length ≤ maxEventsPerDirection) :
    (∃ next, inner.appendStreamEvents events = .ok next) ↔ Registrable inner events := by
  have hcount : events.count ≤ maxStreamEventsPerFlow := by
    have hsum := saturatingAdd_le_add events.request.length events.response.length
    have hhalf : maxEventsPerDirection + maxEventsPerDirection ≤ maxStreamEventsPerFlow := by
      decide
    rw [FlowStreamEvents.count]
    omega
  simp only [appendStreamEvents_eq_ok, validate_single_eq_ok, validateDirection_iff]
  constructor
  · rintro ⟨next, -, ⟨-, -, ⟨-, hrequest⟩, -, hresponse⟩, hroom, -⟩
    exact ⟨hrequest, hresponse, hroom⟩
  · intro h
    exact ⟨_, hrunning, ⟨hid, hcount, ⟨hrequest.1, h.request⟩, hresponse.1, h.response⟩, h.room,
      rfl⟩

/-! ### Atomicity -/

/-- Flow log, counters and stream events are as they were. -/
structure Untouched (before after : RecordingInner) : Prop where
  log : after.directory.files flowLog = before.directory.files flowLog
  flowCount : after.flowCount = before.flowCount
  totalBytes : after.totalBytes = before.totalBytes
  streamEvents : after.streamEvents = before.streamEvents
  streamEventIds : after.streamEventIds = before.streamEventIds

/-- One flow is added, and one entry of stream events under its id. -/
structure Adds (before after : RecordingInner) (flow : Flow) : Prop where
  log : after.directory.files flowLog =
    some ((before.directory.files flowLog).getD [] ++ (flow.encode ++ [newline]))
  flowCount : after.flowCount = before.flowCount + 1
  totalBytes : after.totalBytes = before.totalBytes + flowBodyBytes flow
  streamEvents : ∃ entry, entry.flowId = flow.id ∧
    after.streamEvents.flows = before.streamEvents.flows ++ [entry]

/-- What a call may leave behind: nothing where it fails, one whole record where it does not. -/
def Atomic (before : RecordingInner) : Except HttpError Flow × RecordingInner → Prop
  | (.error _, after) => Untouched before after
  | (.ok flow, after) => Adds before after flow

/-- What the records of a session have in common with the session. -/
structure SameSession (left right : RecordingInner) : Prop where
  files : left.directory.files = right.directory.files
  shutdown : left.shutdown = right.shutdown
  limits : left.limits = right.limits
  flowsOpen : left.flowsOpen = right.flowsOpen
  flowCount : left.flowCount = right.flowCount
  totalBytes : left.totalBytes = right.totalBytes
  streamEvents : left.streamEvents = right.streamEvents
  streamEventIds : left.streamEventIds = right.streamEventIds
  streamEventRecords : left.streamEventRecords = right.streamEventRecords
  streamEventObjectBytes : left.streamEventObjectBytes = right.streamEventObjectBytes

theorem sameSession_of_records {left right : RecordingInner}
    (h : Captures.records left = Captures.records right) : SameSession left right := by
  simp only [Captures.records, RecordingInner.mk.injEq, Staged.mk.injEq, Directory.mk.injEq,
    and_true, true_and] at h
  obtain ⟨⟨hfiles, hcount, htotal, -, hevents, hids, hrecords, hbytes, -⟩, -, hlimits, hopen,
    hshutdown, -⟩ := h
  exact ⟨hfiles, hshutdown, hlimits, hopen, hcount, htotal, hevents, hids, hrecords, hbytes⟩

theorem SameSession.untouched {before after : RecordingInner} (h : SameSession after before) :
    Untouched before after where
  log := congrFun h.files flowLog
  flowCount := h.flowCount
  totalBytes := h.totalBytes
  streamEvents := h.streamEvents
  streamEventIds := h.streamEventIds

/-- Whether a flow is appended does not depend on the bodies in the store. -/
theorem SameSession.appendFlow {inner other : RecordingInner} (h : SameSession inner other)
    (flow : Flow) :
    (∃ next, inner.appendFlow flow = .ok next) ↔ ∃ next, other.appendFlow flow = .ok next := by
  simp only [appendFlow_eq_ok, h.shutdown, h.limits, h.flowsOpen, h.flowCount, h.totalBytes,
    exists_and_left, exists_eq', and_true]

/-- A successful call files the two contents that it captured, and appends its flow. -/
theorem recordRequestWithSession_contents {storage : Codec} {codec : BodyCodec N}
    {settings : Settings} {exchange : Exchange} {inner next : RecordingInner} {flow : Flow}
    (h : recordRequestWithSession storage codec settings exchange inner = (.ok flow, next)) :
    ∃ done,
      captured storage pushStreamEventInner codec settings inner.limits.maxBlobBytes exchange =
        .ok done ∧
      flow = finishSessionFlow done.capture settings.profileId ∧
      checkFlow inner.limits flow = .ok () ∧
      contents next.directory =
        ((contents inner.directory).file storage done.requestContent).file storage
          done.responseContent := by
  obtain ⟨done, captureState, flowed, hdone, hflow, hview, hrunning, happend, hevents⟩ :=
    recordRequestWithSession_eq_ok h
  refine ⟨done, hdone, hflow, ?_, ?_⟩
  · have hlimits : (records captureState).limits = (records inner).limits :=
      congrArg RecordingInner.limits hview
    exact hlimits ▸ (appendFlow_eq_ok.mp happend).2.1
  · have hflowed : contents flowed.directory = contents captureState.directory := by
      rw [← (appendFlow_eq_ok.mp happend).2.2.2.2.2.2]
      rfl
    have hnext : contents next.directory = contents flowed.directory := by
      rw [← (appendStreamEvents_eq_ok.mp hevents).2.2.2]
      rfl
    rw [hnext, hflowed, hrunning.contents]

theorem room_congr {inner other : RecordingInner}
    (hids : inner.streamEventIds = other.streamEventIds)
    (hevents : inner.streamEvents = other.streamEvents)
    (hrecords : inner.streamEventRecords = other.streamEventRecords)
    (hbytes : inner.streamEventObjectBytes = other.streamEventObjectBytes)
    (events : FlowStreamEvents) : Room inner events ↔ Room other events := by
  constructor
  · rintro ⟨hfresh, hflows, hcount, hsize⟩
    refine ⟨?_, ?_, ?_, ?_⟩
    · rwa [← hids]
    · rwa [← hevents]
    · rwa [← hrecords]
    · rwa [← hevents, ← hbytes]
  · rintro ⟨hfresh, hflows, hcount, hsize⟩
    refine ⟨?_, ?_, ?_, ?_⟩
    · rwa [hids]
    · rwa [hevents]
    · rwa [hrecords]
    · rwa [hevents, hbytes]

theorem registrable_congr {inner other : RecordingInner}
    (hids : inner.streamEventIds = other.streamEventIds)
    (hevents : inner.streamEvents = other.streamEvents)
    (hrecords : inner.streamEventRecords = other.streamEventRecords)
    (hbytes : inner.streamEventObjectBytes = other.streamEventObjectBytes)
    (events : FlowStreamEvents) : Registrable inner events ↔ Registrable other events := by
  have hroom := room_congr hids hevents hrecords hbytes events
  exact ⟨fun h => ⟨h.request, h.response, hroom.mp h.room⟩,
    fun h => ⟨h.request, h.response, hroom.mpr h.room⟩⟩

section

variable {storage : Codec} {codec : BodyCodec N} {settings : Settings} {exchange : Exchange}
  {inner : RecordingInner}

/-- The timelines of a capture are in sequence. -/
theorem sessionEvents_sequenced {maxBlobBytes : Nat} {done : Captured}
    (hrequest : Clocked exchange.polled exchange.requestEnd)
    (hreply : ∀ reply, exchange.result = .ok reply → Clocked reply.frames (some reply.ending))
    (h : captured storage pushStreamEventInner codec settings maxBlobBytes exchange = .ok done) :
    (Sequenced {} (sessionEvents exchange done.capture).request ∧
      (sessionEvents exchange done.capture).request.length ≤ maxEventsPerDirection) ∧
    Sequenced {} (sessionEvents exchange done.capture).response ∧
      (sessionEvents exchange done.capture).response.length ≤ maxEventsPerDirection := by
  obtain ⟨converted, stored, answer, parts⟩ := captured_eq_ok h
  rw [sessionEvents, parts.requestEvents, parts.responseEvents]
  exact ⟨takenBody_sequenced hrequest, filedOutcome_sequenced hreply parts.outcome⟩

/-- Publication is atomic exactly when the flow is rejected or its timeline is not. -/
theorem publishRecord_atomic_iff {captureState : RecordingInner} {flow : Flow}
    {events : FlowStreamEvents} (hrunning : inner.shutdown = false)
    (hsession : SameSession captureState inner)
    (hrequest : Sequenced {} events.request ∧ events.request.length ≤ maxEventsPerDirection)
    (hresponse : Sequenced {} events.response ∧ events.response.length ≤ maxEventsPerDirection)
    (hid : flow.id = events.flowId) :
    Atomic inner (publishRecord (sessionStore storage) flow events captureState) ↔
      ((∃ next, captureState.appendFlow flow = .ok next) → Registrable inner events) := by
  rcases hflow : captureState.appendFlow flow with error | flowed
  · rw [publishRecord_of_flow_error (sessionStore_appendFlow_of_error hflow)]
    refine iff_of_true hsession.untouched ?_
    rintro ⟨next, hnext⟩
    cases hnext
  · obtain ⟨-, hcheck, -, -, -, -, rfl⟩ := appendFlow_eq_ok.mp hflow
    have hflowed : (sessionStore storage).appendFlow flow captureState =
        (.ok (), logged captureState flow) :=
      sessionStore_appendFlow_eq_ok.mpr hflow
    have hidBounds : events.flowId ≠ "" ∧ events.flowId.utf8ByteSize ≤ 256 := by
      simp only [checkFlow, bind_unit_eq_ok, mapError_eq_ok, flow_validate_eq_ok] at hcheck
      obtain ⟨⟨-, ⟨hnonempty, hsize, -⟩, -⟩, -⟩ := hcheck
      rw [← hid]
      exact ⟨hnonempty, hsize⟩
    have hids : (logged captureState flow).streamEventIds = inner.streamEventIds :=
      hsession.streamEventIds
    have hevents : (logged captureState flow).streamEvents = inner.streamEvents :=
      hsession.streamEvents
    have hrecords : (logged captureState flow).streamEventRecords = inner.streamEventRecords :=
      hsession.streamEventRecords
    have hbytes : (logged captureState flow).streamEventObjectBytes =
        inner.streamEventObjectBytes :=
      hsession.streamEventObjectBytes
    have haccepts : (∃ next, (logged captureState flow).appendStreamEvents events = .ok next) ↔
        Registrable inner events := by
      rw [← registrable_congr hids hevents hrecords hbytes events]
      exact appendStreamEvents_iff (hsession.shutdown.trans hrunning) hidBounds hrequest hresponse
    rw [imp_iff_right ⟨_, rfl⟩, ← haccepts]
    rcases happend : (logged captureState flow).appendStreamEvents events with error | next
    · rw [publishRecord_of_events_error hflowed
        (sessionStore_appendStreamEvents_of_error happend)]
      refine iff_of_false ?_ ?_
      · intro huntouched
        have hcount : captureState.flowCount + 1 = inner.flowCount := huntouched.flowCount
        rw [hsession.flowCount] at hcount
        omega
      · rintro ⟨next, hnext⟩
        cases hnext
    · rw [publishRecord_of_ok hflowed (sessionStore_appendStreamEvents_eq_ok.mpr happend)]
      refine iff_of_true ?_ ⟨next, rfl⟩
      obtain ⟨-, -, -, rfl⟩ := appendStreamEvents_eq_ok.mp happend
      refine ⟨?_, ?_, ?_, events, hid.symm, ?_⟩
      · show (captureState.directory.extendFile flowLog (flow.encode ++ [newline])).files flowLog =
          _
        rw [Directory.extendFile, hsession.files]
        dsimp only
        exact Function.update_self _ _ _
      · exact congrArg (· + 1) hsession.flowCount
      · exact congrArg (· + flowBodyBytes flow) hsession.totalBytes
      · exact congrArg (fun events' : StreamEvents => events'.flows ++ [events])
          hsession.streamEvents

/-- A call is atomic exactly when it does not get as far as a flow that is appended, or gets
as far with a timeline that the registry takes. -/
theorem record_atomic_iff (hrequest : Clocked exchange.polled exchange.requestEnd)
    (hreply : ∀ reply, exchange.result = .ok reply → Clocked reply.frames (some reply.ending)) :
    Atomic inner (recordRequestWithSession storage codec settings exchange inner) ↔
      ∀ done, captured storage pushStreamEventInner codec settings inner.limits.maxBlobBytes
          exchange = .ok done →
        (∃ next, inner.appendFlow (finishSessionFlow done.capture settings.profileId) =
          .ok next) →
        Registrable inner (sessionEvents exchange done.capture) := by
  by_cases hrunning : inner.shutdown = false
  · rcases recordRequestWithSession_run storage codec settings exchange hrunning with
      ⟨error, failed, hcaptured, hrun, hview⟩ | ⟨done, captureState, hcaptured, hrun, hview, -⟩
    · rw [hrun]
      refine iff_of_true (sameSession_of_records hview).untouched ?_
      intro done hdone
      cases hcaptured.symm.trans hdone
    · have hsession := sameSession_of_records hview
      have hsequenced := sessionEvents_sequenced hrequest hreply hcaptured
      have hatomic : Atomic inner (publishRecord (sessionStore storage)
          (finishSessionFlow done.capture settings.profileId)
          (sessionEvents exchange done.capture) captureState) ↔ _ :=
        publishRecord_atomic_iff hrunning hsession hsequenced.1 hsequenced.2
          (finishSessionFlow_id done.capture settings.profileId)
      rw [hsession.appendFlow] at hatomic
      rw [hrun]
      refine hatomic.trans ⟨?_, fun h => h done hcaptured⟩
      intro h other hother
      cases hcaptured.symm.trans hother
      exact h
  · obtain ⟨error, hrejected⟩ := recordRequestWithSession_of_shutdown hrunning
    rw [hrejected]
    refine iff_of_true ⟨rfl, rfl, rfl, rfl, rfl⟩ ?_
    rintro done - ⟨next, hnext⟩
    exact absurd (appendFlow_eq_ok.mp hnext).1 hrunning

end

/-! ### A form post, and one whose answer ends late -/

theorem formPost_clocked (headers : HeaderMap) (body : String) :
    Clocked (formPost headers body).polled (formPost headers body).requestEnd ∧
      ∀ reply, (formPost headers body).result = .ok reply →
        Clocked reply.frames (some reply.ending) := by
  refine ⟨?_, ?_⟩
  · show List.Pairwise (· ≤ ·) [1, 2]
    decide
  · rintro reply hreply
    cases hreply
    exact List.pairwise_singleton _ _

theorem form_recorded_whole :
    Atomic freshSession (recordRequestWithSession formStorage formCodec formSettings
      (formPost [] "k=v") freshSession) := by
  obtain ⟨hrequest, hreply⟩ := formPost_clocked [] "k=v"
  rw [record_atomic_iff hrequest hreply]
  have hevents : ((captured formStorage pushStreamEventInner formCodec formSettings
      freshSession.limits.maxBlobBytes (formPost [] "k=v")).map fun done =>
        sessionEvents (formPost [] "k=v") done.capture) =
      .ok
        { flowId := "flow-1-0"
          startOffsetNs := 0
          request := [⟨1, .data 0 3⟩, ⟨2, .finish⟩]
          response := [⟨1, .finish⟩] } := by
    decide
  intro done hdone _
  rw [hdone] at hevents
  have hsession := Except.ok.inj hevents
  dsimp only at hsession
  rw [hsession]
  refine ⟨?_, ?_, ?_, ?_, ?_, ?_⟩
  · simp [Bounded, Within, maxStreamDelayNs]
  · simp [Bounded, Within, maxStreamDelayNs]
  · exact List.not_mem_nil
  · decide
  · decide
  · decide +kernel

/-- The form `k=v`, answered by a body that ends a nanosecond after the longest delay. -/
def lateAnswer : Exchange :=
  { formPost [] "k=v" with
    result := .ok
      { status := 200
        http2 := false
        headers := []
        frames := []
        ending := ⟨maxStreamDelayNs + 1, none⟩ } }

/-- The call fails and the flow is in the log. -/
theorem late_answer_half_recorded :
    ¬∀ (storage : Codec) (codec : BodyCodec Nat) (settings : Settings) (exchange : Exchange)
      (inner : RecordingInner), Clocked exchange.polled exchange.requestEnd →
      (∀ reply, exchange.result = .ok reply → Clocked reply.frames (some reply.ending)) →
      Atomic inner (recordRequestWithSession storage codec settings exchange inner) := by
  intro h
  have hatomic := h formStorage formCodec formSettings lateAnswer freshSession
    (formPost_clocked [] "k=v").1 (by
      rintro reply hreply
      cases hreply
      exact List.pairwise_singleton _ _)
  have hresult : (recordRequestWithSession formStorage formCodec formSettings lateAnswer
      freshSession).1.isOk = false ∧
      (recordRequestWithSession formStorage formCodec formSettings lateAnswer
        freshSession).2.flowCount = 1 := by
    decide +kernel
  rcases hrun : recordRequestWithSession formStorage formCodec formSettings lateAnswer
    freshSession with ⟨error | flow, after⟩
  · rw [hrun] at hatomic hresult
    have hcount : after.flowCount = 0 := hatomic.flowCount
    rw [hcount] at hresult
    exact absurd hresult.2 (by decide)
  · rw [hrun] at hresult
    cases hresult.1

end EggReplay.Http.Atomicity
