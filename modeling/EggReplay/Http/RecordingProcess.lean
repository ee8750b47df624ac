import EggReplay.Http.Atomicity
import EggReplay.Library.Phases
import EggReplay.Library.TransitionSystem
import EggReplay.Store.SessionRuns

/-!
A recording process: transactions that are captured, appended to the flow log and registered in
the timelines of one session, in any interleaving of their steps.
-/

namespace EggReplay.Http.RecordingProcess

open EggReplay.Core.FlowRecord
open EggReplay.Core.StreamTimeline
open EggReplay.Core.Redaction (BodyCodec)
open EggReplay.Store.Fixture
open EggReplay.Store.Recording
open EggReplay.Store.SessionRuns
open EggReplay.Store.StagedInvariant
open EggReplay.Store.Staging
open EggReplay.Http.StreamEventCapture
open EggReplay.Http.Transaction
open EggReplay.Http.Recorder
open EggReplay.Http.Captures
open EggReplay.Http.RecordedTimelines
open EggReplay.Http.Atomicity
open EggReplay.Library.Checks
open EggReplay.Library.Phases
open EggReplay.Library.Text
open EggReplay.Library.TransitionSystem

variable {N : Type}

/-! ### The process -/

/-- How far the recording of one exchange has come. -/
inductive Transaction where
  | capturing (exchange : Exchange)
  | appending (flow : Flow) (events : FlowStreamEvents)
  | registering (events : FlowStreamEvents)
  | ended

structure Process where
  run : RecordingRun
  transactions : List Transaction

/-- What any of the recorders does to the body sinks. -/
inductive SinkOperation where
  | begin
  | write (suffix : Nat) (buffer : Bytes)
  | finish (suffix : Nat)
  | drop (suffix : Nat)

def SinkOperation.toOperation : SinkOperation → Operation
  | .begin => .beginBlob
  | .write suffix buffer => .writeBody suffix buffer
  | .finish suffix => .finishBody suffix
  | .drop suffix => .dropBody suffix

inductive Turn where
  | sink (operation : SinkOperation)
  | advance (index : Nat)

def Process.move (process : Process) (index : Nat) (transaction : Transaction) : Process :=
  { process with transactions := process.transactions.set index transaction }

/-- The next step of `record_request_with_session` in one transaction. -/
def advance (storage : Codec) (codec : BodyCodec N) (settings : Settings) (process : Process)
    (index : Nat) : Option Process :=
  match process.transactions[index]? with
  | some (.capturing exchange) =>
      match captured storage pushStreamEventInner codec settings
        process.run.inner.limits.maxBlobBytes exchange with
      | .ok done =>
          some (process.move index (.appending (finishSessionFlow done.capture settings.profileId)
            (sessionEvents exchange done.capture)))
      | .error _ => some (process.move index .ended)
  | some (.appending flow events) =>
      match process.run.inner.appendFlow flow with
      | .ok _ =>
          some (Process.move { process with run := process.run.step storage (.appendFlow flow) }
            index (.registering events))
      | .error _ => some (process.move index .ended)
  | some (.registering events) =>
      some (Process.move
        { process with run := process.run.step storage (.appendStreamEvents events) } index .ended)
  | some .ended | none => none

def step (storage : Codec) (codec : BodyCodec N) (settings : Settings) (process : Process) :
    Turn → Option Process
  | .sink operation =>
      some { process with run := process.run.step storage operation.toOperation }
  | .advance index => advance storage codec settings process index

def started (inner : RecordingInner) (exchanges : List Exchange) : Process where
  run := { inner }
  transactions := exchanges.map Transaction.capturing

/-! ### What a turn can do -/

variable {storage : Codec} {codec : BodyCodec N} {settings : Settings} {process next : Process}
  {index : Nat} {limits : StoreLimits}

theorem step_appendFlow {run : RecordingRun} {inner : RecordingInner} {flow : Flow}
    (h : run.inner.appendFlow flow = .ok inner) :
    run.step storage (.appendFlow flow) =
      { run with inner := logged run.inner flow, flows := run.flows ++ [flow] } := by
  obtain ⟨-, -, -, -, -, -, rfl⟩ := appendFlow_eq_ok.mp h
  rw [RecordingRun.step, h]
  rfl

theorem step_appendStreamEvents {run : RecordingRun} {inner : RecordingInner}
    {events : FlowStreamEvents} (h : run.inner.appendStreamEvents events = .ok inner) :
    run.step storage (.appendStreamEvents events) =
      { run with inner := registered run.inner events } := by
  obtain ⟨-, -, -, rfl⟩ := appendStreamEvents_eq_ok.mp h
  rw [RecordingRun.step, h]
  rfl

theorem step_appendStreamEvents_error {run : RecordingRun} {error : StoreError}
    {events : FlowStreamEvents} (h : run.inner.appendStreamEvents events = .error error) :
    run.step storage (.appendStreamEvents events) = run := by
  rw [RecordingRun.step, h]
  rfl

/-- The sinks touch neither the flows nor the timelines. -/
structure SameRecords (before after : RecordingRun) : Prop where
  flows : after.flows = before.flows
  streamEvents : after.inner.streamEvents = before.inner.streamEvents
  extensions : after.inner.extensions = before.inner.extensions
  shutdown : after.inner.shutdown = before.inner.shutdown

theorem sink_records (run : RecordingRun) (operation : SinkOperation) :
    SameRecords run (run.step storage operation.toOperation) := by
  have hself : SameRecords run run := ⟨rfl, rfl, rfl, rfl⟩
  cases operation with
  | begin =>
      refine settle_induction hself fun begun hbegun => ?_
      simp only [RecordingInner.beginBlob, bind_eq_ok, pure_eq_ok] at hbegun
      obtain ⟨-, -, rfl⟩ := hbegun
      exact ⟨rfl, rfl, rfl, rfl⟩
  | write suffix buffer =>
      simp only [SinkOperation.toOperation, RecordingRun.step]
      rcases findBody run.bodies suffix with _ | body
      · exact hself
      · refine settle_induction hself fun written hwritten => ?_
        simp only [RecordingInner.writeBody, bind_eq_ok, pure_eq_ok] at hwritten
        obtain ⟨-, -, rfl⟩ := hwritten
        exact ⟨rfl, rfl, rfl, rfl⟩
  | finish suffix =>
      simp only [SinkOperation.toOperation, RecordingRun.step]
      rcases findBody run.bodies suffix with _ | body
      · exact hself
      · exact ⟨rfl, rfl, rfl, rfl⟩
  | drop suffix =>
      simp only [SinkOperation.toOperation, RecordingRun.step]
      rcases findBody run.bodies suffix with _ | body
      · exact hself
      · exact ⟨rfl, rfl, rfl, rfl⟩

/-- What becomes of a transaction in a turn, and what of the session with it. -/
inductive Advances (storage : Codec) (codec : BodyCodec N) (settings : Settings)
    (process : Process) (index : Nat) : Process → Prop where
  | captured (exchange : Exchange) (done : Captured)
      (hat : process.transactions[index]? = some (.capturing exchange))
      (hdone : captured storage pushStreamEventInner codec settings
        process.run.inner.limits.maxBlobBytes exchange = .ok done) :
      Advances storage codec settings process index
        (process.move index (.appending (finishSessionFlow done.capture settings.profileId)
          (sessionEvents exchange done.capture)))
  | refused (transaction : Transaction)
      (hat : process.transactions[index]? = some transaction)
      (hbefore : ∀ events, transaction ≠ .registering events) :
      Advances storage codec settings process index (process.move index .ended)
  | appended (flow : Flow) (events : FlowStreamEvents) (inner : RecordingInner)
      (hat : process.transactions[index]? = some (.appending flow events))
      (happend : process.run.inner.appendFlow flow = .ok inner) :
      Advances storage codec settings process index
        (Process.move { process with run := process.run.step storage (.appendFlow flow) } index
          (.registering events))
  | registered (events : FlowStreamEvents)
      (hat : process.transactions[index]? = some (.registering events)) :
      Advances storage codec settings process index
        (Process.move { process with run := process.run.step storage (.appendStreamEvents events) }
          index .ended)

theorem advances_of_eq (h : advance storage codec settings process index = some next) :
    Advances storage codec settings process index next := by
  unfold advance at h
  split at h
  · rename_i exchange hat
    split at h
    · rename_i done hdone
      obtain rfl := Option.some.inj h
      exact .captured exchange done hat hdone
    · obtain rfl := Option.some.inj h
      exact .refused _ hat (by rintro _ ⟨⟩)
  · rename_i flow events hat
    split at h
    · rename_i inner happend
      obtain rfl := Option.some.inj h
      exact .appended flow events inner hat happend
    · obtain rfl := Option.some.inj h
      exact .refused _ hat (by rintro _ ⟨⟩)
  · rename_i events hat
    obtain rfl := Option.some.inj h
    exact .registered events hat
  · cases h
  · cases h

/-! ### One transaction alone -/

theorem records_logged (inner : RecordingInner) (flow : Flow) :
    Captures.records (logged inner flow) = logged (Captures.records inner) flow := rfl

theorem records_registered (inner : RecordingInner) (events : FlowStreamEvents) :
    Captures.records (registered inner events) = registered (Captures.records inner) events := rfl

theorem appendStreamEvents_congr {left right : RecordingInner} (h : SameSession left right)
    (events : FlowStreamEvents) :
    (∃ next, left.appendStreamEvents events = .ok next) ↔
      ∃ next, right.appendStreamEvents events = .ok next := by
  simp only [appendStreamEvents_eq_ok, h.shutdown, room_congr h.streamEventIds h.streamEvents
    h.streamEventRecords h.streamEventObjectBytes, exists_and_left, exists_eq', and_true]

theorem error_of_not_ok {α : Type} {result : Except StoreError α}
    (h : ¬∃ a, result = .ok a) : ∃ error, result = .error error := by
  cases result with
  | error error => exact ⟨error, rfl⟩
  | ok a => exact absurd ⟨a, rfl⟩ h

/-- Without other turns in between, a transaction leaves what `record_request_with_session`
leaves, its sinks aside. -/
theorem alone_records (exchange : Exchange) {inner : RecordingInner}
    (hrunning : inner.shutdown = false) (flows : List Flow) :
    ∃ turns final, run (step storage codec settings)
        ⟨{ inner, flows }, [.capturing exchange]⟩ turns = some final ∧
      final.transactions = [.ended] ∧
      Captures.records final.run.inner = Captures.records
        (recordRequestWithSession storage codec settings exchange inner).2 := by
  rcases recordRequestWithSession_run storage codec settings exchange hrunning with
    ⟨error, after, hcaptured, hrecord, hview⟩ | ⟨done, captureState, hcaptured, hrecord, hview, -⟩
  · have hfirst : step storage codec settings ⟨{ inner, flows }, [.capturing exchange]⟩
        (.advance 0) = some ⟨{ inner, flows }, [.ended]⟩ := by
      simp only [step, advance, List.getElem?_cons_zero, hcaptured]
      rfl
    refine ⟨[.advance 0], _, run_cons_eq_some.mpr ⟨_, hfirst, rfl⟩, rfl, ?_⟩
    rw [hrecord]
    exact hview.symm
  · have hsession := sameSession_of_records hview
    have hfirst : step storage codec settings ⟨{ inner, flows }, [.capturing exchange]⟩
        (.advance 0) = some ⟨{ inner, flows },
          [.appending (finishSessionFlow done.capture settings.profileId)
            (sessionEvents exchange done.capture)]⟩ := by
      simp only [step, advance, List.getElem?_cons_zero, hcaptured]
      rfl
    generalize finishSessionFlow done.capture settings.profileId = flow at hfirst hrecord
    generalize sessionEvents exchange done.capture = events at hfirst hrecord
    have hflow := hsession.appendFlow flow
    rcases happend : captureState.appendFlow flow with error | flowed
    · obtain ⟨error', hrejected⟩ : ∃ error, inner.appendFlow flow = .error error := by
        apply error_of_not_ok
        rw [← hflow, happend]
        rintro ⟨_, ⟨⟩⟩
      have hsecond : step storage codec settings ⟨{ inner, flows }, [.appending flow events]⟩
          (.advance 0) = some ⟨{ inner, flows }, [.ended]⟩ := by
        simp only [step, advance, List.getElem?_cons_zero, hrejected]
        rfl
      refine ⟨[.advance 0, .advance 0], _,
        run_cons_eq_some.mpr ⟨_, hfirst, run_cons_eq_some.mpr ⟨_, hsecond, rfl⟩⟩, rfl, ?_⟩
      rw [hrecord, publishRecord_of_flow_error (sessionStore_appendFlow_of_error happend)]
      exact hview.symm
    · obtain ⟨flowed', haccepted⟩ := hflow.mp ⟨flowed, happend⟩
      obtain ⟨-, -, -, -, -, -, rfl⟩ := appendFlow_eq_ok.mp happend
      have hsecond : step storage codec settings ⟨{ inner, flows }, [.appending flow events]⟩
          (.advance 0) = some ⟨{ inner := logged inner flow, flows := flows ++ [flow] },
            [.registering events]⟩ := by
        simp only [step, advance, List.getElem?_cons_zero, haccepted]
        rw [step_appendFlow haccepted]
        rfl
      have hlogged : Captures.records (logged captureState flow) =
          Captures.records (logged inner flow) := by
        rw [records_logged, records_logged, hview]
      have hevents := appendStreamEvents_congr (sameSession_of_records hlogged) events
      rcases hregister : (logged captureState flow).appendStreamEvents events with error | next
      · obtain ⟨error', hrejected⟩ :
            ∃ error, (logged inner flow).appendStreamEvents events = .error error := by
          apply error_of_not_ok
          rw [← hevents, hregister]
          rintro ⟨_, ⟨⟩⟩
        have hthird : step storage codec settings
            ⟨{ inner := logged inner flow, flows := flows ++ [flow] }, [.registering events]⟩
            (.advance 0) = some ⟨{ inner := logged inner flow, flows := flows ++ [flow] },
              [.ended]⟩ := by
          simp only [step, advance, List.getElem?_cons_zero]
          rw [step_appendStreamEvents_error hrejected]
          rfl
        refine ⟨[.advance 0, .advance 0, .advance 0], _, run_cons_eq_some.mpr ⟨_, hfirst,
          run_cons_eq_some.mpr ⟨_, hsecond, run_cons_eq_some.mpr ⟨_, hthird, rfl⟩⟩⟩, rfl, ?_⟩
        rw [hrecord, publishRecord_of_events_error (sessionStore_appendFlow_eq_ok.mpr happend)
          (sessionStore_appendStreamEvents_of_error hregister)]
        exact hlogged.symm
      · obtain ⟨next', haccepted'⟩ := hevents.mp ⟨next, hregister⟩
        obtain ⟨-, -, -, rfl⟩ := appendStreamEvents_eq_ok.mp hregister
        have hthird : step storage codec settings
            ⟨{ inner := logged inner flow, flows := flows ++ [flow] }, [.registering events]⟩
            (.advance 0) = some
              ⟨{ inner := registered (logged inner flow) events, flows := flows ++ [flow] },
                [.ended]⟩ := by
          simp only [step, advance, List.getElem?_cons_zero]
          rw [step_appendStreamEvents haccepted']
          rfl
        refine ⟨[.advance 0, .advance 0, .advance 0], _, run_cons_eq_some.mpr ⟨_, hfirst,
          run_cons_eq_some.mpr ⟨_, hsecond, run_cons_eq_some.mpr ⟨_, hthird, rfl⟩⟩⟩, rfl, ?_⟩
        rw [hrecord, publishRecord_of_ok (sessionStore_appendFlow_eq_ok.mpr happend)
          (sessionStore_appendStreamEvents_eq_ok.mpr hregister)]
        rw [records_registered, records_registered, hlogged]

/-! ### What holds of the transactions -/

/-- Both directions are in sequence, and no longer than a recorder lets them get. -/
def InOrder (events : FlowStreamEvents) : Prop :=
  (Sequenced {} events.request ∧ events.request.length ≤ maxEventsPerDirection) ∧
    Sequenced {} events.response ∧ events.response.length ≤ maxEventsPerDirection

/-- The delays of both bodies are read from a clock that does not go back. -/
def OneClock (exchange : Exchange) : Prop :=
  Clocked exchange.polled exchange.requestEnd ∧
    ∀ reply, exchange.result = .ok reply → Clocked reply.frames (some reply.ending)

def Transaction.Fits : Transaction → Prop
  | .capturing exchange => OneClock exchange
  | .appending flow events => flow.id = events.flowId ∧ InOrder events
  | .registering events =>
      (events.flowId ≠ "" ∧ events.flowId.utf8ByteSize ≤ 256) ∧ InOrder events
  | .ended => True

structure Kept (limits : StoreLimits) (process : Process) : Prop where
  sound : RecordingSound limits process.run
  shutdown : process.run.inner.shutdown = false
  extensions : process.run.inner.extensions = []
  fits : ∀ transaction ∈ process.transactions, transaction.Fits

theorem fits_move {transaction : Transaction}
    (h : ∀ other ∈ process.transactions, other.Fits) (hnew : transaction.Fits) :
    ∀ other ∈ (process.move index transaction).transactions, other.Fits := by
  intro other hother
  rcases List.mem_or_eq_of_mem_set hother with hold | rfl
  · exact h other hold
  · exact hnew

theorem kept_started {metadata : SessionMetadata} {inner : RecordingInner}
    {exchanges : List Exchange} (hcreate : RecordingInner.create false metadata limits = .ok inner)
    (hclocks : ∀ exchange ∈ exchanges, OneClock exchange) :
    Kept limits (started inner exchanges) := by
  simp only [RecordingInner.create, bind_unit_eq_ok, ensure_eq_ok, pure_eq_ok] at hcreate
  obtain ⟨-, hschema, rfl⟩ := hcreate
  refine ⟨⟨sound_empty limits, rfl, hschema⟩, rfl, rfl, ?_⟩
  intro transaction hmem
  obtain ⟨exchange, hexchange, rfl⟩ := List.mem_map.mp hmem
  exact hclocks exchange hexchange

theorem kept_step {turn : Turn} (h : Kept limits process)
    (hstep : step storage codec settings process turn = some next) : Kept limits next := by
  cases turn with
  | sink operation =>
      obtain rfl := Option.some.inj hstep
      have hsame : SameRecords process.run (process.run.step storage operation.toOperation) :=
        sink_records process.run operation
      exact ⟨h.sound.step operation.toOperation, hsame.shutdown.trans h.shutdown,
        hsame.extensions.trans h.extensions, h.fits⟩
  | advance index =>
      cases advances_of_eq hstep with
      | captured exchange done hat hdone =>
          obtain ⟨hrequest, hreply⟩ := h.fits _ (List.mem_of_getElem? hat)
          refine ⟨h.sound, h.shutdown, h.extensions, fits_move h.fits ⟨?_, ?_⟩⟩
          · exact finishSessionFlow_id done.capture settings.profileId
          · exact sessionEvents_sequenced hrequest hreply hdone
      | refused transaction hat hbefore =>
          exact ⟨h.sound, h.shutdown, h.extensions, fits_move h.fits trivial⟩
      | appended flow events inner hat happend =>
          obtain ⟨hid, hinOrder⟩ := h.fits _ (List.mem_of_getElem? hat)
          have hsound : RecordingSound limits (process.run.step storage (.appendFlow flow)) :=
            h.sound.step (.appendFlow flow)
          obtain ⟨-, hcheck, -⟩ := appendFlow_eq_ok.mp happend
          simp only [checkFlow, bind_unit_eq_ok, mapError_eq_ok, flow_validate_eq_ok] at hcheck
          obtain ⟨⟨-, ⟨hnonempty, hsize, -⟩, -⟩, -⟩ := hcheck
          rw [hid] at hnonempty hsize
          have hrun : process.run.step storage (.appendFlow flow) = _ := step_appendFlow happend
          refine ⟨hsound, ?_, ?_, fits_move h.fits ⟨⟨hnonempty, hsize⟩, hinOrder⟩⟩
          · show (process.run.step storage (.appendFlow flow)).inner.shutdown = false
            rw [hrun]
            exact h.shutdown
          · show (process.run.step storage (.appendFlow flow)).inner.extensions = []
            rw [hrun]
            exact h.extensions
      | registered events hat =>
          have hsound : RecordingSound limits
              (process.run.step storage (.appendStreamEvents events)) :=
            h.sound.step (.appendStreamEvents events)
          refine ⟨hsound, ?_, ?_, fits_move h.fits trivial⟩
          · show (process.run.step storage (.appendStreamEvents events)).inner.shutdown = false
            rcases happend : process.run.inner.appendStreamEvents events with error | inner
            · rw [step_appendStreamEvents_error happend]
              exact h.shutdown
            · rw [step_appendStreamEvents happend]
              exact h.shutdown
          · show (process.run.step storage (.appendStreamEvents events)).inner.extensions = []
            rcases happend : process.run.inner.appendStreamEvents events with error | inner
            · rw [step_appendStreamEvents_error happend]
              exact h.extensions
            · rw [step_appendStreamEvents happend]
              exact h.extensions

/-! ### Flows, entries and what is on its way -/

def Transaction.pends (id : String) : Transaction → Bool
  | .registering events => events.flowId == id
  | .capturing _ | .appending _ _ | .ended => false

def Process.entries (process : Process) : List FlowStreamEvents :=
  process.run.inner.streamEvents.flows

def flowsOf (process : Process) (id : String) : Nat :=
  process.run.flows.countP fun flow => flow.id == id

def entriesOf (process : Process) (id : String) : Nat :=
  process.entries.countP fun entry => entry.flowId == id

def pendingOf (process : Process) (id : String) : Nat :=
  process.transactions.countP (Transaction.pends id)

/-- There are at least so many flows of that id which have no entry and will get none. -/
def Surplus (count : Nat) (id : String) (process : Process) : Prop :=
  entriesOf process id + pendingOf process id + count ≤ flowsOf process id

theorem pendingOf_move {old : Transaction} (new : Transaction) (id : String)
    (hat : process.transactions[index]? = some old) :
    pendingOf (process.move index new) id + (old.pends id).toNat =
      pendingOf process id + (new.pends id).toNat :=
  countP_set (Transaction.pends id) hat

theorem countP_append_one {α : Type} (p : α → Bool) (items : List α) (item : α) :
    (items ++ [item]).countP p = items.countP p + (p item).toNat := by
  rw [List.countP_append, List.countP_singleton]
  cases p item <;> rfl

/-- A registration adds an entry, or leaves its flow without one. -/
theorem surplus_registered {events : FlowStreamEvents} {count : Nat} {id : String}
    (hat : process.transactions[index]? = some (.registering events))
    (h : Surplus count id process) :
    Surplus count id (Process.move
        { process with run := process.run.step storage (.appendStreamEvents events) } index
          .ended) ∧
      ((∃ error, process.run.inner.appendStreamEvents events = .error error) →
        events.flowId = id → Surplus (count + 1) id (Process.move
          { process with run := process.run.step storage (.appendStreamEvents events) } index
            .ended)) := by
  have hpending := pendingOf_move .ended id hat
  simp only [Transaction.pends, Bool.toNat_false, Nat.add_zero] at hpending
  rcases happend : process.run.inner.appendStreamEvents events with error | inner
  · rw [step_appendStreamEvents_error happend]
    unfold Surplus at h ⊢
    constructor
    · have hsame : entriesOf (process.move index .ended) id = entriesOf process id := rfl
      have hflows : flowsOf (process.move index .ended) id = flowsOf process id := rfl
      show entriesOf (process.move index .ended) id + pendingOf (process.move index .ended) id +
        count ≤ flowsOf (process.move index .ended) id
      omega
    · rintro - rfl
      have hsame : entriesOf (process.move index .ended) events.flowId =
        entriesOf process events.flowId := rfl
      have hflows : flowsOf (process.move index .ended) events.flowId =
        flowsOf process events.flowId := rfl
      rw [beq_self_eq_true, Bool.toNat_true] at hpending
      show entriesOf (process.move index .ended) events.flowId +
        pendingOf (process.move index .ended) events.flowId + (count + 1) ≤
          flowsOf (process.move index .ended) events.flowId
      omega
  · refine ⟨?_, (by rintro ⟨error, herror⟩; cases herror)⟩
    rw [step_appendStreamEvents happend]
    have hentries : (process.entries ++ [events]).countP (fun entry => entry.flowId == id) =
        entriesOf process id + (events.flowId == id).toNat := countP_append_one _ _ _
    have hflows : process.run.flows.countP (fun flow => flow.id == id) = flowsOf process id := rfl
    unfold Surplus at h ⊢
    show (process.entries ++ [events]).countP (fun entry => entry.flowId == id) +
      pendingOf (process.move index .ended) id + count ≤
        process.run.flows.countP fun flow => flow.id == id
    omega

theorem surplus_step {turn : Turn} {count : Nat} {id : String} (hkept : Kept limits process)
    (h : Surplus count id process)
    (hstep : step storage codec settings process turn = some next) : Surplus count id next := by
  cases turn with
  | sink operation =>
      obtain rfl := Option.some.inj hstep
      have hsame : SameRecords process.run (process.run.step storage operation.toOperation) :=
        sink_records process.run operation
      unfold Surplus entriesOf flowsOf Process.entries at h ⊢
      dsimp only
      rw [hsame.streamEvents, hsame.flows]
      exact h
  | advance index =>
      cases advances_of_eq hstep with
      | captured exchange done hat hdone =>
          have hpending := pendingOf_move
            (.appending (finishSessionFlow done.capture settings.profileId)
              (sessionEvents exchange done.capture)) id hat
          simp only [Transaction.pends, Bool.toNat_false, Nat.add_zero] at hpending
          unfold Surplus at h ⊢
          rw [hpending]
          exact h
      | refused transaction hat hbefore =>
          have hpending := pendingOf_move .ended id hat
          have hnone : transaction.pends id = false := by
            cases transaction with
            | registering events => exact absurd rfl (hbefore events)
            | capturing _ => rfl
            | appending _ _ => rfl
            | ended => rfl
          rw [hnone] at hpending
          simp only [Transaction.pends, Bool.toNat_false, Nat.add_zero] at hpending
          unfold Surplus at h ⊢
          rw [hpending]
          exact h
      | appended flow events inner hat happend =>
          obtain ⟨hid, -⟩ := hkept.fits _ (List.mem_of_getElem? hat)
          have hpending := pendingOf_move (.registering events) id hat
          simp only [Transaction.pends, Bool.toNat_false, Nat.add_zero] at hpending
          rw [step_appendFlow happend]
          have hflows : (process.run.flows ++ [flow]).countP (fun flow => flow.id == id) =
              flowsOf process id + (flow.id == id).toNat := countP_append_one _ _ _
          have hentries : process.entries.countP (fun entry => entry.flowId == id) =
            entriesOf process id := rfl
          rw [hid] at hflows
          unfold Surplus at h ⊢
          show process.entries.countP (fun entry => entry.flowId == id) +
            pendingOf (process.move index (.registering events)) id + count ≤
              (process.run.flows ++ [flow]).countP fun flow => flow.id == id
          omega
      | registered events hat => exact (surplus_registered hat h).1

/-! ### Turns after which every flow can be scheduled -/

/-- The timeline that is registered starts within the scheduler's bound, and the session takes
it: its delays and trailers are within bounds, and there is room for it. -/
def Admits (process : Process) (turn : Turn) : Prop :=
  ∀ index events, turn = .advance index →
    process.transactions[index]? = some (.registering events) →
      events.startOffsetNs ≤ maxStreamTotalDelayNs ∧ Registrable process.run.inner events

/-- Every flow has an entry or will try to get one, and every entry starts in time. -/
structure Covered (process : Process) : Prop where
  flows : ∀ flow ∈ process.run.flows, (∃ entry ∈ process.entries, entry.flowId = flow.id) ∨
    ∃ events, .registering events ∈ process.transactions ∧ events.flowId = flow.id
  timely : ∀ entry ∈ process.entries, entry.startOffsetNs ≤ maxStreamTotalDelayNs

/-- A flow has no entry and will get none, or some entry starts too late. -/
inductive Spoiled (process : Process) : Prop where
  | missed (id : String) (h : Surplus 1 id process)
  | late (entry : FlowStreamEvents) (hmem : entry ∈ process.entries)
      (h : maxStreamTotalDelayNs < entry.startOffsetNs)

theorem registrable_iff {events : FlowStreamEvents} (hkept : Kept limits process)
    (hat : process.transactions[index]? = some (.registering events)) :
    (∃ inner, process.run.inner.appendStreamEvents events = .ok inner) ↔
      Registrable process.run.inner events := by
  obtain ⟨hid, hrequest, hresponse⟩ := hkept.fits _ (List.mem_of_getElem? hat)
  exact appendStreamEvents_iff hkept.shutdown hid hrequest hresponse

/-- The entries that there are stay. -/
theorem entries_step {turn : Turn} {entry : FlowStreamEvents} (hmem : entry ∈ process.entries)
    (hstep : step storage codec settings process turn = some next) : entry ∈ next.entries := by
  cases turn with
  | sink operation =>
      obtain rfl := Option.some.inj hstep
      have hsame : SameRecords process.run (process.run.step storage operation.toOperation) :=
        sink_records process.run operation
      rw [Process.entries, hsame.streamEvents]
      exact hmem
  | advance index =>
      cases advances_of_eq hstep with
      | captured exchange done hat hdone => exact hmem
      | refused transaction hat hbefore => exact hmem
      | appended flow events inner hat happend =>
          rw [step_appendFlow happend]
          exact hmem
      | registered events hat =>
          rcases happend : process.run.inner.appendStreamEvents events with error | inner
          · rw [step_appendStreamEvents_error happend]
            exact hmem
          · rw [step_appendStreamEvents happend]
            exact List.mem_append_left _ hmem

theorem spoiled_step {turn : Turn} (hkept : Kept limits process) (h : Spoiled process)
    (hstep : step storage codec settings process turn = some next) : Spoiled next := by
  cases h with
  | missed id h => exact .missed id (surplus_step hkept h hstep)
  | late entry hmem h => exact .late entry (entries_step hmem hstep) h

/-- A turn that is not admitted spoils the session. -/
theorem spoiled_of_not_admits {turn : Turn} (hkept : Kept limits process)
    (hsurplus : ∀ id, Surplus 0 id process) (hnot : ¬Admits process turn)
    (hstep : step storage codec settings process turn = some next) : Spoiled next := by
  unfold Admits at hnot
  push Not at hnot
  obtain ⟨index, events, rfl, hat, hnot⟩ := hnot
  have hregister : advance storage codec settings process index = _ := hstep
  rw [advance, hat] at hregister
  obtain rfl := Option.some.inj hregister
  rcases happend : process.run.inner.appendStreamEvents events with error | inner
  · exact .missed events.flowId
      ((surplus_registered hat (hsurplus events.flowId)).2 ⟨error, happend⟩ rfl)
  · have hregistrable : Registrable process.run.inner events :=
      (registrable_iff hkept hat).mp ⟨inner, happend⟩
    have hlate : maxStreamTotalDelayNs < events.startOffsetNs := by
      by_contra hle
      exact hnot (Nat.le_of_not_lt hle) hregistrable
    refine .late events ?_ hlate
    rw [step_appendStreamEvents happend]
    exact List.mem_append_right _ (List.mem_singleton.mpr rfl)

theorem mem_move {transaction old new : Transaction} (hat : process.transactions[index]? = some old)
    (hne : transaction ≠ old) (hmem : transaction ∈ process.transactions) :
    transaction ∈ (process.move index new).transactions := by
  obtain ⟨place, hplace⟩ := List.getElem?_of_mem hmem
  have hother : place ≠ index := by
    rintro rfl
    exact hne (Option.some.inj (hplace.symm.trans hat))
  apply List.mem_of_getElem?
  rw [Process.move, List.getElem?_set_ne hother.symm]
  exact hplace

theorem covered_step {turn : Turn} (hkept : Kept limits process) (h : Covered process)
    (hadmits : Admits process turn)
    (hstep : step storage codec settings process turn = some next) : Covered next := by
  cases turn with
  | sink operation =>
      obtain rfl := Option.some.inj hstep
      have hsame : SameRecords process.run (process.run.step storage operation.toOperation) :=
        sink_records process.run operation
      constructor
      · intro flow hflow
        dsimp only at hflow
        rw [hsame.flows] at hflow
        rw [Process.entries, hsame.streamEvents]
        exact h.flows flow hflow
      · rw [Process.entries, hsame.streamEvents]
        exact h.timely
  | advance index =>
      have hentry := fun entry (hmem : entry ∈ process.entries) => entries_step hmem hstep
      cases advances_of_eq hstep with
      | captured exchange done hat hdone =>
          refine ⟨fun flow hflow => (h.flows flow hflow).imp_right ?_, h.timely⟩
          rintro ⟨events, hmem, hid⟩
          exact ⟨events, mem_move hat (by rintro ⟨⟩) hmem, hid⟩
      | refused transaction hat hbefore =>
          refine ⟨fun flow hflow => (h.flows flow hflow).imp_right ?_, h.timely⟩
          rintro ⟨events, hmem, hid⟩
          exact ⟨events, mem_move hat (Ne.symm (hbefore events)) hmem, hid⟩
      | appended flow events inner hat happend =>
          obtain ⟨hid, -⟩ := hkept.fits _ (List.mem_of_getElem? hat)
          rw [step_appendFlow happend]
          refine ⟨fun other hother => ?_, h.timely⟩
          rcases List.mem_append.mp hother with hold | hnew
          · refine (h.flows other hold).imp_right ?_
            rintro ⟨pending, hmem, hpending⟩
            exact ⟨pending, mem_move hat (by rintro ⟨⟩) hmem, hpending⟩
          · obtain rfl := List.mem_singleton.mp hnew
            refine .inr ⟨events, ?_, hid.symm⟩
            exact List.mem_of_getElem? (getElem?_set_same hat)
      | registered events hat =>
          obtain ⟨htime, hregistrable⟩ := hadmits index events rfl hat
          obtain ⟨inner, happend⟩ := (registrable_iff hkept hat).mpr hregistrable
          rw [step_appendStreamEvents happend] at hentry ⊢
          constructor
          · intro flow hflow
            rcases h.flows flow hflow with ⟨entry, hmem, hid⟩ | ⟨pending, hmem, hid⟩
            · exact .inl ⟨entry, hentry entry hmem, hid⟩
            · by_cases hsame : pending = events
              · subst hsame
                exact .inl ⟨pending, List.mem_append_right _ (List.mem_singleton.mpr rfl), hid⟩
              · refine .inr ⟨pending, mem_move hat ?_ hmem, hid⟩
                rintro ⟨⟩
                exact hsame rfl
          · intro entry hmem
            rcases List.mem_append.mp hmem with hold | hnew
            · exact h.timely entry hold
            · obtain rfl := List.mem_singleton.mp hnew
              exact htime

/-- Whether a run's turns are all admitted decides which of the two it ends in. -/
theorem process_run {turns : List Turn} {final : Process} (hkept : Kept limits process)
    (hsurplus : ∀ id, Surplus 0 id process)
    (hrun : run (step storage codec settings) process turns = some final) :
    Kept limits final ∧ (∀ id, Surplus 0 id final) ∧
      (Covered process → Throughout (step storage codec settings) Admits process turns →
        Covered final) ∧
      (Spoiled process ∨ ¬Throughout (step storage codec settings) Admits process turns →
        Spoiled final) := by
  induction turns generalizing process with
  | nil =>
      obtain rfl := Option.some.inj hrun
      exact ⟨hkept, hsurplus, fun h _ => h, fun h => h.resolve_right fun hnot => hnot trivial⟩
  | cons turn rest ih =>
      obtain ⟨next, hstep, hrest⟩ := run_cons_eq_some.mp hrun
      obtain ⟨hfinal, hsurplus', hcovered, hspoiled⟩ := ih (kept_step hkept hstep)
        (fun id => surplus_step hkept (hsurplus id) hstep) hrest
      refine ⟨hfinal, hsurplus', ?_, ?_⟩
      · intro h hall
        obtain ⟨hhead, htail⟩ := (throughout_cons hstep).mp hall
        exact hcovered (covered_step hkept h hhead hstep) htail
      · intro h
        apply hspoiled
        rw [throughout_cons hstep, not_and_or] at h
        rcases h with hbefore | hhead | htail
        · exact .inl (spoiled_step hkept hbefore hstep)
        · exact .inl (spoiled_of_not_admits hkept hsurplus hhead hstep)
        · exact .inr htail

end EggReplay.Http.RecordingProcess
