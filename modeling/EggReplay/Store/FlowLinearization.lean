import EggReplay.Library.Histories
import EggReplay.Store.CloneInterleavings
import EggReplay.Store.CopyPreserves

/-!
The flow log that the clones of a recording session share, against a log that takes one append
after another and is closed once. The sections under the flow-log lock are the points at which
the operations of the clones take effect.
-/

namespace EggReplay.Store.FlowLinearization

open EggReplay.Library.Checks
open EggReplay.Library.Histories
open EggReplay.Library.LineLog
open EggReplay.Library.Text
open EggReplay.Library.TransitionSystem
open EggReplay.Core.FlowRecord
open EggReplay.Core.StreamTimeline
open EggReplay.Store.Fixture
open EggReplay.Store.SessionOpen
open EggReplay.Store.Staging
open EggReplay.Store.StagedInvariant
open EggReplay.Store.Recording
open EggReplay.Store.Publication
open EggReplay.Store.Copies
open EggReplay.Store.OpenedSessions
open EggReplay.Store.CopyPreserves
open EggReplay.Store.SessionRuns
open EggReplay.Store.FinishSteps
open EggReplay.Store.CloneInterleavings

/-! ### The sequential log -/

/-- A log that is appended to until it is closed. -/
structure FlowLog where
  flows : List Flow
  isOpen : Bool

def FlowLog.empty : FlowLog := { flows := [], isOpen := true }

/-- The sequential log takes the flow. -/
def FlowLog.Accepts (limits : StoreLimits) (log : FlowLog) (flow : Flow) : Prop :=
  log.isOpen = true ∧ log.flows.length < limits.maxFlows ∧
    (log.flows.map flowBodyBytes).sum + flowBodyBytes flow ≤ u64Max ∧
    (log.flows.map flowBodyBytes).sum + flowBodyBytes flow ≤ limits.maxTotalBytes

instance (limits : StoreLimits) (log : FlowLog) (flow : Flow) :
    Decidable (log.Accepts limits flow) :=
  inferInstanceAs (Decidable (_ ∧ _ ∧ _ ∧ _))

/-- What is seen of the clones: a call, and the section of a call under the flow-log lock with
its result. -/
inductive Event where
  | called (call : Call)
  | appended (index : Nat) (flow : Flow) (accepted : Bool)
  | closed (index : Nat) (accepted : Bool)

/-- A section on the sequential log, which has none but its own result. -/
def FlowLog.step (limits : StoreLimits) (log : FlowLog) : Event → Option FlowLog
  | .called _ => some log
  | .appended _ flow accepted =>
      if decide (log.Accepts limits flow) = accepted then
        some (if accepted = true then { log with flows := log.flows ++ [flow] } else log)
      else none
  | .closed _ accepted =>
      if log.isOpen = accepted then some { log with isOpen := false } else none

/-- The flows that were accepted, with the calls that brought them. -/
def accepted (events : List Event) : List (Nat × Flow) :=
  events.filterMap fun event =>
    match event with
    | .appended index flow true => some (index, flow)
    | _ => none

def calls (events : List Event) : List Call :=
  events.filterMap fun event =>
    match event with
    | .called call => some call
    | _ => none

theorem accepted_append (before after : List Event) :
    accepted (before ++ after) = accepted before ++ accepted after :=
  List.filterMap_append

theorem calls_append (before after : List Event) :
    calls (before ++ after) = calls before ++ calls after :=
  List.filterMap_append

/-- The sequential log holds the flows that were accepted, in order. -/
theorem flows_eq_accepted {limits : StoreLimits} {start log : FlowLog} {events : List Event}
    (h : run (FlowLog.step limits) start events = some log) :
    log.flows = start.flows ++ (accepted events).map Prod.snd := by
  induction events generalizing start with
  | nil =>
      obtain rfl := Option.some.inj h
      exact (List.append_nil _).symm
  | cons event rest ih =>
      obtain ⟨next, hstep, hrest⟩ := run_cons_eq_some.mp h
      rw [ih hrest]
      cases event with
      | called call =>
          obtain rfl := Option.some.inj hstep
          rfl
      | appended index flow accepts =>
          simp only [FlowLog.step, Option.ite_none_right_eq_some, Option.some.injEq] at hstep
          obtain ⟨-, rfl⟩ := hstep
          cases accepts with
          | true => exact List.append_assoc _ [flow] _
          | false => rfl
      | closed index accepts =>
          simp only [FlowLog.step, Option.ite_none_right_eq_some, Option.some.injEq] at hstep
          obtain ⟨-, rfl⟩ := hstep
          rfl

/-! ### The sections of the clones -/

/-- The event of a step of the clones, if it has one. -/
def event (world : World) : Action → Option Event
  | .call call => some (.called call)
  | .advance index =>
      match world.threads[index]? with
      | some (.appendChecked flow) =>
          some (.appended index flow (world.inner.appendFlowLocked flow).isOk)
      | some (.finishing (.driving [])) => some (.closed index world.inner.takeFlows.isOk)
      | _ => none
  | .use _ _ => none

def events (codec : Codec) (world : World) (actions : List Action) : List Event :=
  emitted (step codec) event world actions

/-- The flow log, its counters, and whether it can be taken are as they were. -/
structure Quiet (before after : RecordingInner) : Prop where
  log : after.directory.files flowLog = before.directory.files flowLog
  flowCount : after.flowCount = before.flowCount
  totalBytes : after.totalBytes = before.totalBytes
  limits : after.limits = before.limits
  flowsOpen : after.flowsOpen = before.flowsOpen

theorem Quiet.refl (inner : RecordingInner) : Quiet inner inner := ⟨rfl, rfl, rfl, rfl, rfl⟩

/-- What a `finish` knows that has taken the log. -/
def Knows (codec : Codec) (inner : RecordingInner) : FinishPoint → Prop
  | .called | .stored | .counted | .driving _ => True
  | .flowsTaken | .renamed => inner.flowsOpen = false
  | .flowsCounted flowCount | .streamEventsWritten flowCount | .websocketWritten flowCount
  | .fixtureChecked flowCount => inner.flowsOpen = false ∧ flowCount = inner.flowCount
  | .blobsCounted manifest | .manifestWritten manifest =>
      inner.flowsOpen = false ∧ manifest.flowCount = inner.flowCount
  | .returned result => ∀ session, result = .ok session → inner.flowsOpen = false ∧
      ∃ root, Session.open codec root inner.limits = .ok session ∧
        root.files flowLog = inner.directory.files flowLog

/-- The flow that an append has still to write. -/
def pendingFlow : Thread → Option Flow
  | .appending flow | .appendChecked flow => some flow
  | _ => none

def Settled (codec : Codec) (inner : RecordingInner) : Thread → Prop
  | .appendChecked flow => checkFlow inner.limits flow = .ok ()
  | .finishing point => Knows codec inner point
  | _ => True

section

variable {codec : Codec} {shared : Shared} {inner before after : RecordingInner}

theorem Quiet.knows (hquiet : Quiet before after) (point : FinishPoint)
    (h : Knows codec before point) : Knows codec after point := by
  cases point with
  | called => trivial
  | stored => trivial
  | counted => trivial
  | driving _ => trivial
  | flowsTaken => exact hquiet.flowsOpen.trans h
  | flowsCounted _ => exact ⟨hquiet.flowsOpen.trans h.1, h.2.trans hquiet.flowCount.symm⟩
  | streamEventsWritten _ => exact ⟨hquiet.flowsOpen.trans h.1, h.2.trans hquiet.flowCount.symm⟩
  | websocketWritten _ => exact ⟨hquiet.flowsOpen.trans h.1, h.2.trans hquiet.flowCount.symm⟩
  | fixtureChecked _ => exact ⟨hquiet.flowsOpen.trans h.1, h.2.trans hquiet.flowCount.symm⟩
  | blobsCounted _ => exact ⟨hquiet.flowsOpen.trans h.1, h.2.trans hquiet.flowCount.symm⟩
  | manifestWritten _ => exact ⟨hquiet.flowsOpen.trans h.1, h.2.trans hquiet.flowCount.symm⟩
  | renamed => exact hquiet.flowsOpen.trans h
  | returned result =>
      intro session hsession
      obtain ⟨hopen, root, hroot, hlog⟩ := h session hsession
      refine ⟨hquiet.flowsOpen.trans hopen, root, ?_, hlog.trans hquiet.log.symm⟩
      rw [hquiet.limits]
      exact hroot

/-- A thread that has taken the log keeps what it knows while the log stays taken. -/
theorem Quiet.settled (hquiet : Quiet before after) {thread : Thread}
    (h : Settled codec before thread) : Settled codec after thread := by
  cases thread with
  | appendChecked flow =>
      show checkFlow after.limits flow = .ok ()
      rw [hquiet.limits]
      exact h
  | finishing point => exact hquiet.knows point h
  | _ => trivial

/-- While the log is open no thread knows what could change. -/
theorem settled_of_open {thread : Thread} (h : Settled codec before thread)
    (hopen : before.flowsOpen = true) (hlimits : after.limits = before.limits) :
    Settled codec after thread := by
  have hclosed : ∀ {p : Prop}, before.flowsOpen = false → p := by
    intro p hfalse
    rw [hopen] at hfalse
    cases hfalse
  cases thread with
  | appendChecked flow =>
      show checkFlow after.limits flow = .ok ()
      rw [hlimits]
      exact h
  | finishing point =>
      cases point with
      | called => trivial
      | stored => trivial
      | counted => trivial
      | driving _ => trivial
      | flowsTaken => exact hclosed h
      | flowsCounted _ => exact hclosed h.1
      | streamEventsWritten _ => exact hclosed h.1
      | websocketWritten _ => exact hclosed h.1
      | fixtureChecked _ => exact hclosed h.1
      | blobsCounted _ => exact hclosed h.1
      | manifestWritten _ => exact hclosed h.1
      | renamed => exact hclosed h
      | returned result => exact fun session hsession => hclosed (h session hsession).1
  | _ => trivial

/-! ### The steps that leave the log alone -/

/-- A step of a thread outside the two sections. -/
structure Passes (codec : Codec) (before : Shared) (old : Thread) (after : Shared × Thread) :
    Prop where
  quiet : Quiet before.inner after.1.inner
  settled : Settled codec after.1.inner after.2
  owner : pendingFlow after.2 = none ∨ pendingFlow after.2 = pendingFlow old
  renamed : after.1.destination = before.destination ∨ ∃ manifest,
    after.1.destination = some (before.inner.directory, manifest) ∧
      before.inner.flowsOpen = false ∧ manifest.flowCount = before.inner.flowCount

/-- A step that only sends the thread on. -/
theorem passes_idle {old new : Thread} (hquiet : Quiet shared.inner inner)
    (hnew : Settled codec inner new)
    (howner : pendingFlow new = none) :
    Passes codec shared old ({ shared with inner }, new) where
  quiet := hquiet
  settled := hnew
  owner := .inl howner
  renamed := .inl rfl

theorem passes_onPath {old : Thread} {change : Directory → Directory}
    (hfiles : ∀ root, (change root).files = root.files) :
    Passes codec shared old (Shared.onPath shared change, .releasing) := by
  rcases hdestination : shared.destination with _ | landed
  · rw [onPath_staged hdestination]
    exact ⟨⟨congrFun (hfiles shared.inner.directory) flowLog, rfl, rfl, rfl, rfl⟩, trivial,
      .inl rfl, .inl rfl⟩
  · rw [onPath_renamed (by rw [hdestination]; rfl)]
    exact ⟨Quiet.refl _, trivial, .inl rfl, .inl rfl⟩

theorem Quiet.of_same (h : SameStore before after) (htotal : after.totalBytes = before.totalBytes)
    (hlimits : after.limits = before.limits) (hopen : after.flowsOpen = before.flowsOpen) :
    Quiet before after :=
  ⟨h.log, h.flowCount, htotal, hlimits, hopen⟩

theorem writeExtension_total {staged written : Staged} {extension : ExtensionDescriptor}
    {bytes : Bytes} (h : staged.writeExtension extension bytes = .ok written) :
    written.totalBytes = staged.totalBytes := by
  rw [(writeExtension_eq_ok h).next_eq]

theorem quiet_streamEvents {written : RecordingInner} (hlogged : Logged inner)
    (h : inner.writeStreamEventsExtension = .ok written) : Quiet inner written := by
  obtain ⟨hsame, hopen⟩ := streamEvents_same hlogged h
  refine Quiet.of_same hsame ?_ (writeStreamEventsExtension_limits h) hopen
  unfold RecordingInner.writeStreamEventsExtension at h
  split at h
  · obtain rfl := Except.ok.inj h
    rfl
  · simp only [↓bind_unit_eq_ok, bind_eq_ok, pure_eq_ok] at h
    obtain ⟨-, -, staged, hstaged, rfl⟩ := h
    exact writeExtension_total hstaged

theorem quiet_websocket {written : RecordingInner} (hlogged : Logged inner)
    (h : inner.writeWebsocketExtension = .ok written) : Quiet inner written := by
  obtain ⟨hsame, hopen⟩ := websocket_same hlogged h
  refine Quiet.of_same hsame ?_ (writeWebsocketExtension_limits h) hopen
  unfold RecordingInner.writeWebsocketExtension at h
  split at h
  · obtain rfl := Except.ok.inj h
    rfl
  · simp only [bind_eq_ok, pure_eq_ok] at h
    obtain ⟨transcript, -, staged, hstaged, rfl⟩ := h
    exact writeExtension_total hstaged

theorem quiet_manifest {written : RecordingInner} {manifest : Manifest}
    (h : writeManifestFile codec inner manifest = .ok written) : Quiet inner written := by
  obtain ⟨hsame, hopen⟩ := manifest_same h
  simp only [writeManifestFile, bind_eq_ok, pure_eq_ok] at h
  obtain ⟨root, -, rfl⟩ := h
  exact Quiet.of_same hsame rfl rfl hopen

/-- A step of `finish` that goes on or fails. -/
theorem passes_proceed {old : Thread} {result : Except StoreError RecordingInner}
    {following : FinishPoint}
    (h : ∀ written, result = .ok written →
      Quiet shared.inner written ∧ Knows codec written following) :
    Passes codec shared old ((shared.proceed result following).1,
      .finishing (shared.proceed result following).2) := by
  cases result with
  | error error =>
      exact passes_idle (Quiet.refl _) (by rintro session ⟨⟩) rfl
  | ok written =>
      obtain ⟨hquiet, hsettled⟩ := h written rfl
      exact passes_idle hquiet hsettled rfl

/-- Every step of `finish` but the one that takes the log. -/
theorem passes_finishStep {point : FinishPoint} {following : Shared × FinishPoint}
    (hlogged : Logged shared.inner) (hsettled : Knows codec shared.inner point)
    (hpoint : point ≠ .driving []) (hstep : finishStep codec false shared point = some following) :
    Passes codec shared (.finishing point) (following.1, .finishing following.2) := by
  cases point with
  | called =>
      obtain rfl := Option.some.inj hstep
      exact passes_idle ⟨rfl, rfl, rfl, rfl, rfl⟩ trivial rfl
  | stored =>
      obtain rfl := Option.some.inj hstep
      apply passes_proceed
      intro written hwritten
      simp only [↓bind_unit_eq_ok, ensure_eq_ok, pure_eq_ok] at hwritten
      obtain ⟨-, rfl⟩ := hwritten
      exact ⟨Quiet.refl _, trivial⟩
  | counted =>
      obtain rfl := Option.some.inj hstep
      exact passes_idle ⟨rfl, rfl, rfl, rfl, rfl⟩ trivial rfl
  | driving pending =>
      cases pending with
      | nil => exact absurd rfl hpoint
      | cons finalizer rest =>
          simp only [finishStep, Option.ite_none_right_eq_some, Option.some.injEq] at hstep
          obtain ⟨-, rfl⟩ := hstep
          exact passes_idle (Quiet.refl _) trivial rfl
  | flowsTaken =>
      obtain rfl := Option.some.inj hstep
      exact passes_idle (Quiet.refl _) ⟨hsettled, rfl⟩ rfl
  | flowsCounted flowCount =>
      obtain rfl := Option.some.inj hstep
      apply passes_proceed
      intro written hwritten
      have hquiet := quiet_streamEvents hlogged hwritten
      exact ⟨hquiet, hquiet.knows (.streamEventsWritten flowCount) hsettled⟩
  | streamEventsWritten flowCount =>
      obtain rfl := Option.some.inj hstep
      apply passes_proceed
      intro written hwritten
      have hquiet := quiet_websocket hlogged hwritten
      exact ⟨hquiet, hquiet.knows (.websocketWritten flowCount) hsettled⟩
  | websocketWritten flowCount =>
      obtain rfl := Option.some.inj hstep
      apply passes_proceed
      intro written hwritten
      simp only [↓bind_unit_eq_ok, pure_eq_ok] at hwritten
      obtain ⟨-, rfl⟩ := hwritten
      exact ⟨Quiet.refl _, hsettled⟩
  | fixtureChecked flowCount =>
      obtain rfl := Option.some.inj hstep
      exact passes_idle (Quiet.refl _) hsettled rfl
  | blobsCounted manifest =>
      obtain rfl := Option.some.inj hstep
      apply passes_proceed
      intro written hwritten
      have hquiet := quiet_manifest hwritten
      exact ⟨hquiet, hquiet.knows (.manifestWritten manifest) hsettled⟩
  | manifestWritten manifest =>
      obtain rfl := Option.some.inj hstep
      exact ⟨Quiet.refl _, hsettled.1, .inl rfl, .inr ⟨manifest, rfl, hsettled⟩⟩
  | renamed =>
      obtain rfl := Option.some.inj hstep
      apply passes_idle (Quiet.refl _) ?_ rfl
      intro session hsession
      exact ⟨hsettled, shared.inner.directory, hsession, rfl⟩
  | returned result => cases hstep

/-- Every step of a thread but the two sections. -/
theorem passes_advance {old : Thread} {following : Shared × Thread} (hlogged : Logged shared.inner)
    (hsettled : Settled codec shared.inner old) (happend : ∀ flow, old ≠ .appendChecked flow)
    (htake : old ≠ .finishing (.driving []))
    (hstep : advanceThread codec shared old = some following) :
    Passes codec shared old following := by
  have hidle : ∀ {new : Thread}, Settled codec shared.inner new →
      pendingFlow new = none →
      Passes codec shared old (shared, new) :=
    fun hnew howner => passes_idle (Quiet.refl _) hnew howner
  cases old with
  | beginning =>
      rw [advanceThread] at hstep
      split at hstep
      · obtain rfl := Option.some.inj hstep
        exact hidle trivial rfl
      · obtain rfl := Option.some.inj hstep
        exact hidle trivial rfl
  | admitted =>
      rw [advanceThread] at hstep
      split at hstep
      · obtain rfl := Option.some.inj hstep
        exact hidle trivial rfl
      · obtain rfl := Option.some.inj hstep
        exact passes_idle ⟨rfl, rfl, rfl, rfl, rfl⟩ trivial rfl
  | created suffix =>
      obtain rfl := Option.some.inj hstep
      exact passes_idle ⟨rfl, rfl, rfl, rfl, rfl⟩ trivial rfl
  | writing writer => cases hstep
  | publishing writer =>
      rw [advanceThread] at hstep
      split at hstep
      · obtain rfl := Option.some.inj hstep
        exact passes_onPath fun root => rfl
      · split at hstep
        · obtain rfl := Option.some.inj hstep
          exact hidle trivial rfl
        · obtain rfl := Option.some.inj hstep
          exact hidle trivial rfl
  | replacing writer =>
      obtain rfl := Option.some.inj hstep
      exact passes_onPath fun root => rfl
  | moving writer =>
      obtain rfl := Option.some.inj hstep
      exact passes_onPath fun root => rfl
  | dropping writer =>
      obtain rfl := Option.some.inj hstep
      exact passes_onPath fun root => rfl
  | releasing =>
      obtain rfl := Option.some.inj hstep
      exact passes_idle ⟨rfl, rfl, rfl, rfl, rfl⟩ trivial rfl
  | appending flow =>
      rw [advanceThread] at hstep
      split at hstep
      · rename_i hchecked
        obtain rfl := Option.some.inj hstep
        simp only [↓bind_unit_eq_ok] at hchecked
        exact ⟨Quiet.refl _, hchecked.2, .inr rfl, .inl rfl⟩
      · obtain rfl := Option.some.inj hstep
        exact hidle trivial rfl
  | appendChecked flow => exact absurd rfl (happend flow)
  | stopping =>
      obtain rfl := Option.some.inj hstep
      exact passes_idle ⟨rfl, rfl, rfl, rfl, rfl⟩ trivial rfl
  | finishing point =>
      obtain ⟨next, hnext, rfl⟩ := Option.map_eq_some_iff.mp hstep
      exact passes_finishStep hlogged hsettled (fun h => htake (congrArg Thread.finishing h)) hnext
  | ended => cases hstep

/-- What an owner does with its writer. -/
theorem passes_use (writer : BodyWriter) (use : Use) :
    Passes codec shared (.writing writer) (useWriter shared writer use) := by
  cases use with
  | finish => exact passes_idle (Quiet.refl _) trivial rfl
  | drop => exact passes_idle (Quiet.refl _) trivial rfl
  | write buffer =>
      rw [useWriter]
      cases hwrite : writer.write shared.inner.directory buffer with
      | error error => exact passes_idle (Quiet.refl _) trivial rfl
      | ok written =>
          simp only [BodyWriter.write, ↓bind_unit_eq_ok, ensure_eq_ok, pure_eq_ok] at hwrite
          obtain ⟨-, -, rfl⟩ := hwrite
          exact passes_idle ⟨rfl, rfl, rfl, rfl, rfl⟩ trivial rfl

end

/-! ### The invariant -/

/-- The session holds what the sequential log holds. -/
structure Holds (inner : RecordingInner) (log : FlowLog) : Prop where
  file : inner.directory.files flowLog = some (written newline (log.flows.map Flow.encode))
  count : inner.flowCount = log.flows.length
  total : inner.totalBytes = (log.flows.map flowBodyBytes).sum
  isOpen : inner.flowsOpen = log.isOpen

/-- The events are those of the sequential log, and each flow that it took was brought by one
append, which has returned. -/
structure Linear (codec : Codec) (limits : StoreLimits) (world : World) (history : List Event) :
    Prop where
  legal : ∃ log, run (FlowLog.step limits) .empty history = some log ∧ Holds world.inner log
  bounds : world.inner.limits = limits
  length : (calls history).length = world.threads.length
  owner : ∀ (index : Nat) (thread : Thread) (flow : Flow), world.threads[index]? = some thread →
    pendingFlow thread = some flow → (calls history)[index]? = some (.appendFlow flow)
  returned : ∀ entry ∈ accepted history, world.threads[entry.1]? = some .ended ∧
    (calls history)[entry.1]? = some (.appendFlow entry.2) ∧ checkFlow limits entry.2 = .ok ()
  once : ((accepted history).map Prod.fst).Nodup
  settled : ∀ thread ∈ world.threads, Settled codec world.inner thread
  renamed : ∀ root manifest, world.destination = some (root, manifest) →
    world.inner.flowsOpen = false ∧ root.files flowLog = world.inner.directory.files flowLog ∧
      manifest.flowCount = world.inner.flowCount

section

variable {codec : Codec} {limits : StoreLimits} {world next : World} {history added : List Event}
  {index : Nat} {old new : Thread} {shared : Shared}

theorem linear_opened {metadata : SessionMetadata} {inner : RecordingInner}
    (hcreate : RecordingInner.create false metadata limits = .ok inner) :
    Linear codec limits (opened inner) [] := by
  simp only [RecordingInner.create, bind_unit_eq_ok, ensure_eq_ok, pure_eq_ok] at hcreate
  obtain ⟨-, -, rfl⟩ := hcreate
  refine ⟨⟨.empty, rfl, ?_, rfl, rfl, rfl⟩, rfl, rfl, ?_, ?_, List.nodup_nil, ?_, ?_⟩
  · exact Function.update_self flowLog (some []) fun _ => none
  · rintro index thread flow ⟨⟩
  · exact fun entry hentry => absurd hentry List.not_mem_nil
  · exact fun thread hthread => absurd hthread List.not_mem_nil
  · rintro root manifest ⟨⟩

theorem Holds.quiet {inner after : RecordingInner} {log : FlowLog} (h : Holds inner log)
    (hquiet : Quiet inner after) : Holds after log :=
  ⟨hquiet.log.trans h.file, hquiet.flowCount.trans h.count, hquiet.totalBytes.trans h.total,
    hquiet.flowsOpen.trans h.isOpen⟩

theorem Linear.logged (h : Linear codec limits world history) : Logged world.inner := by
  obtain ⟨log, -, hholds⟩ := h.legal
  exact ⟨log.flows, hholds.count, hholds.file⟩

/-- A thread's step, where what it adds to the history is no call. -/
theorem Linear.put (h : Linear codec limits world history)
    (hat : world.threads[index]? = some old) (hold : old ≠ .ended) (hcalls : calls added = [])
    (hlegal : ∃ log, run (FlowLog.step limits) .empty (history ++ added) = some log ∧
      Holds shared.inner log)
    (hlimits : shared.inner.limits = world.inner.limits)
    (haccepted : accepted added = [] ∨ ∃ flow, accepted added = [(index, flow)] ∧
      old = .appendChecked flow ∧ new = .ended)
    (howner : pendingFlow new = none ∨ pendingFlow new = pendingFlow old)
    (hsettled : ∀ thread ∈ world.threads, Settled codec shared.inner thread)
    (hnew : Settled codec shared.inner new)
    (hrenamed : ∀ root manifest, shared.destination = some (root, manifest) →
      shared.inner.flowsOpen = false ∧ root.files flowLog = shared.inner.directory.files flowLog ∧
        manifest.flowCount = shared.inner.flowCount) :
    Linear codec limits (world.put index (shared, new)) (history ++ added) := by
  have hbound := (List.getElem?_eq_some_iff.mp hat).1
  have hput : ∀ place : Nat, (world.put index (shared, new)).threads[place]? =
      if index = place then some new else world.threads[place]? := by
    intro place
    show (world.threads.set index new)[place]? = _
    rw [List.getElem?_set]
    by_cases hplace : index = place
    · subst hplace
      rw [if_pos rfl, if_pos rfl, if_pos hbound]
    · rw [if_neg hplace, if_neg hplace]
  have hkept : ∀ entry ∈ accepted history, index ≠ entry.1 := by
    rintro entry hentry rfl
    exact hold (Option.some.inj (hat.symm.trans (h.returned entry hentry).1))
  refine ⟨hlegal, hlimits.trans h.bounds, ?_, ?_, ?_, ?_, ?_, hrenamed⟩
  · rw [calls_append, hcalls, List.append_nil, h.length]
    exact (List.length_set ..).symm
  · intro place thread flow hthread hflow
    rw [calls_append, hcalls, List.append_nil]
    rw [hput] at hthread
    by_cases hplace : index = place
    · subst hplace
      rw [if_pos rfl] at hthread
      obtain rfl := Option.some.inj hthread
      rcases howner with hnone | hsame
      · rw [hnone] at hflow
        cases hflow
      · exact h.owner index old flow hat (hsame.symm.trans hflow)
    · rw [if_neg hplace] at hthread
      exact h.owner place thread flow hthread hflow
  · intro entry hentry
    rw [accepted_append, List.mem_append] at hentry
    rw [hput, calls_append, hcalls, List.append_nil]
    rcases hentry with hentry | hentry
    · rw [if_neg (hkept entry hentry)]
      exact h.returned entry hentry
    · rcases haccepted with hnone | ⟨flow, hone, rfl, rfl⟩
      · rw [hnone] at hentry
        exact absurd hentry List.not_mem_nil
      · rw [hone, List.mem_singleton] at hentry
        subst hentry
        refine ⟨if_pos rfl, h.owner index _ flow hat rfl, ?_⟩
        have hchecked : checkFlow world.inner.limits flow = .ok () :=
          h.settled _ (List.mem_of_getElem? hat)
        rwa [h.bounds] at hchecked
  · rw [accepted_append, List.map_append]
    rcases haccepted with hnone | ⟨flow, hone, -, -⟩
    · rw [hnone, List.map_nil, List.append_nil]
      exact h.once
    · rw [hone, List.nodup_append]
      refine ⟨h.once, List.nodup_singleton _, ?_⟩
      intro place hplace other hother heq
      obtain ⟨entry, hentry, rfl⟩ := List.mem_map.mp hplace
      rw [List.map_singleton, List.mem_singleton] at hother
      exact hkept entry hentry (hother.symm.trans heq.symm)
  · intro thread hthread
    rcases List.mem_or_eq_of_mem_set hthread with hthread | rfl
    · exact hsettled thread hthread
    · exact hnew

/-- A step outside the two sections. -/
theorem Linear.passes (h : Linear codec limits world history)
    (hat : world.threads[index]? = some old) (hold : old ≠ .ended)
    {following : Shared × Thread} (hpasses : Passes codec world.toShared old following) :
    Linear codec limits (world.put index following) history := by
  obtain ⟨log, hlog, hholds⟩ := h.legal
  rw [← List.append_nil history]
  refine h.put hat hold rfl ?_ hpasses.quiet.limits (.inl rfl) hpasses.owner ?_ hpasses.settled ?_
  · rw [List.append_nil]
    exact ⟨log, hlog, hholds.quiet hpasses.quiet⟩
  · exact fun thread hthread => hpasses.quiet.settled (h.settled thread hthread)
  · intro root manifest hdestination
    rw [hpasses.quiet.flowsOpen, hpasses.quiet.log, hpasses.quiet.flowCount]
    rcases hpasses.renamed with hsame | ⟨landed, hlanded, hopen, hcount⟩
    · exact h.renamed root manifest (hsame.symm.trans hdestination)
    · rw [hlanded, Option.some.injEq, Prod.mk.injEq] at hdestination
      obtain ⟨rfl, rfl⟩ := hdestination
      exact ⟨hopen, rfl, hcount⟩

theorem run_concat_event {start log : FlowLog} {event : Event}
    (h : run (FlowLog.step limits) start history = some log) :
    run (FlowLog.step limits) start (history ++ [event]) = log.step limits event := by
  rcases hstep : log.step limits event with _ | after
  · rcases hrun : run (FlowLog.step limits) start (history ++ [event]) with _ | final
    · rfl
    · obtain ⟨middle, hmiddle, hafter⟩ := run_append.mp hrun
      obtain rfl := Option.some.inj (h.symm.trans hmiddle)
      obtain ⟨last, hlast, -⟩ := run_cons_eq_some.mp hafter
      rw [hstep] at hlast
      cases hlast
  · exact run_append.mpr ⟨log, h, run_cons_eq_some.mpr ⟨after, hstep, rfl⟩⟩

/-- The section of an append takes the flow exactly where the sequential log does. -/
theorem appendFlowLocked_isOk {inner : RecordingInner} {log : FlowLog} (h : Holds inner log)
    (hlimits : inner.limits = limits) (flow : Flow) :
    (inner.appendFlowLocked flow).isOk = decide (log.Accepts limits flow) := by
  subst hlimits
  rw [Bool.eq_iff_iff, isOk_iff, decide_eq_true_eq]
  simp only [RecordingInner.appendFlowLocked, ↓bind_unit_eq_ok, ensure_eq_ok, pure_eq_ok, h.count,
    h.total, h.isOpen, FlowLog.Accepts]
  constructor
  · rintro ⟨inner, hopen, hcount, hmax, htotal, -⟩
    exact ⟨hopen, hcount, hmax, htotal⟩
  · rintro ⟨hopen, hcount, hmax, htotal⟩
    exact ⟨_, hopen, hcount, hmax, htotal, rfl⟩

/-- The section of an append. -/
theorem linear_append (h : Linear codec limits world history) {flow : Flow}
    (hat : world.threads[index]? = some (.appendChecked flow))
    (hstep : step codec world (.advance index) = some next) :
    Linear codec limits next
      (history ++ [.appended index flow (world.inner.appendFlowLocked flow).isOk]) := by
  obtain ⟨log, hlog, hholds⟩ := h.legal
  have haccepts := appendFlowLocked_isOk hholds h.bounds flow
  have hrun : ∀ taken, decide (log.Accepts limits flow) = taken →
      run (FlowLog.step limits) .empty (history ++ [.appended index flow taken]) =
        some (if taken = true then { log with flows := log.flows ++ [flow] } else log) := by
    intro taken htaken
    rw [run_concat_event hlog, FlowLog.step, if_pos htaken]
  simp only [step, hat, Option.bind_eq_bind, Option.bind_some, advanceThread] at hstep
  rcases hresult : world.inner.appendFlowLocked flow with error | inner
  · rw [hresult] at hstep haccepts
    obtain rfl := Option.some.inj hstep
    refine h.put hat (by rintro ⟨⟩) rfl ⟨log, hrun false haccepts.symm, hholds⟩ rfl (.inl rfl)
      (.inl rfl) h.settled trivial h.renamed
  · rw [hresult] at hstep haccepts
    obtain rfl := Option.some.inj hstep
    simp only [RecordingInner.appendFlowLocked, ↓bind_unit_eq_ok, ensure_eq_ok, pure_eq_ok]
      at hresult
    obtain ⟨hopen, -, -, -, rfl⟩ := hresult
    refine h.put hat (by rintro ⟨⟩) rfl ⟨_, hrun true haccepts.symm, ?_⟩ rfl
      (.inr ⟨flow, rfl, rfl, rfl⟩) (.inl rfl) ?_ trivial ?_
    · refine ⟨?_, ?_, ?_, hholds.isOpen⟩
      · show (world.inner.directory.extendFile flowLog (flow.encode ++ [newline])).files flowLog = _
        rw [extendFile_same hholds.file, if_pos rfl, List.map_append, written_append,
          List.map_singleton, written_singleton]
      · show world.inner.flowCount + 1 = (log.flows ++ [flow]).length
        rw [hholds.count, List.length_append, List.length_singleton]
      · show world.inner.totalBytes + flowBodyBytes flow = ((log.flows ++ [flow]).map _).sum
        rw [hholds.total, List.map_append, List.sum_append, List.map_singleton,
          List.sum_singleton]
    · exact fun thread hthread => settled_of_open (h.settled thread hthread) hopen rfl
    · intro root manifest hdestination
      have hclosed := (h.renamed root manifest hdestination).1
      rw [hopen] at hclosed
      cases hclosed

/-- The section of `finish` that takes the log. -/
theorem linear_take (h : Linear codec limits world history)
    (hat : world.threads[index]? = some (.finishing (.driving [])))
    (hstep : step codec world (.advance index) = some next) :
    Linear codec limits next (history ++ [.closed index world.inner.takeFlows.isOk]) := by
  obtain ⟨log, hlog, hholds⟩ := h.legal
  have hrun : ∀ taken, log.isOpen = taken →
      run (FlowLog.step limits) .empty (history ++ [.closed index taken]) =
        some { log with isOpen := false } := by
    intro taken htaken
    rw [run_concat_event hlog, FlowLog.step, if_pos htaken]
  simp only [step, hat, Option.bind_eq_bind, Option.bind_some, advanceThread, finishStep,
    Option.map_some] at hstep
  obtain rfl := Option.some.inj hstep
  rcases hopen : world.inner.flowsOpen with _ | _
  · have hresult : world.inner.takeFlows =
        .error (.invalid "session is already finalizing") := by
      rw [RecordingInner.takeFlows, hopen]
      rfl
    rw [hresult]
    refine h.put hat (by rintro ⟨⟩) rfl ⟨_, hrun false (hholds.isOpen.symm.trans hopen), ?_⟩ rfl
      (.inl rfl) (.inl rfl) h.settled (by rintro session ⟨⟩) h.renamed
    exact ⟨hholds.file, hholds.count, hholds.total, hopen⟩
  · have hresult := takeFlows_eq_ok.mpr ⟨hopen, rfl⟩
    rw [hresult]
    refine h.put hat (by rintro ⟨⟩) rfl ⟨_, hrun true (hholds.isOpen.symm.trans hopen), ?_⟩ rfl
      (.inl rfl) (.inl rfl) ?_ rfl ?_
    · exact ⟨hholds.file, hholds.count, hholds.total, rfl⟩
    · exact fun thread hthread => settled_of_open (h.settled thread hthread) hopen rfl
    · intro root manifest hdestination
      have hclosed := (h.renamed root manifest hdestination).1
      rw [hopen] at hclosed
      cases hclosed

theorem linear_call (h : Linear codec limits world history) (call : Call) :
    Linear codec limits { world with threads := world.threads ++ [call.start] }
      (history ++ [.called call]) := by
  obtain ⟨log, hlog, hholds⟩ := h.legal
  have haccepted : accepted (history ++ [.called call]) = accepted history := by
    rw [accepted_append]
    exact List.append_nil _
  have hcalls : calls (history ++ [.called call]) = calls history ++ [call] :=
    calls_append history [.called call]
  have hlonger : ∀ {place : Nat} {found : Call}, (calls history)[place]? = some found →
      (calls history ++ [call])[place]? = some found := by
    intro place found hfound
    rw [List.getElem?_append_left (List.getElem?_eq_some_iff.mp hfound).1, hfound]
  refine ⟨⟨log, run_concat_event hlog, hholds⟩, h.bounds, ?_, ?_, ?_, ?_, ?_, h.renamed⟩
  · rw [hcalls, List.length_append, List.length_append, h.length]
    rfl
  · intro place thread flow hthread hflow
    rw [hcalls]
    rcases Nat.lt_or_ge place world.threads.length with hplace | hplace
    · rw [List.getElem?_append_left hplace] at hthread
      exact hlonger (h.owner place thread flow hthread hflow)
    · rw [List.getElem?_append_right hplace, List.getElem?_singleton,
        Option.ite_none_right_eq_some] at hthread
      obtain ⟨hlast, hthread⟩ := hthread
      obtain rfl := Option.some.inj hthread
      rw [List.getElem?_append_right (by rw [h.length]; exact hplace), h.length, hlast]
      cases call with
      | appendFlow other =>
          obtain rfl := Option.some.inj hflow
          rfl
      | beginBlob => cases hflow
      | shutdown => cases hflow
      | finish => cases hflow
  · rw [haccepted, hcalls]
    intro entry hentry
    obtain ⟨hended, hcall, hchecked⟩ := h.returned entry hentry
    refine ⟨?_, hlonger hcall, hchecked⟩
    rw [List.getElem?_append_left (List.getElem?_eq_some_iff.mp hended).1, hended]
  · rw [haccepted]
    exact h.once
  · intro thread hthread
    rcases List.mem_append.mp hthread with hthread | hthread
    · exact h.settled thread hthread
    · obtain rfl := List.mem_singleton.mp hthread
      cases call with
      | appendFlow flow => trivial
      | beginBlob => trivial
      | shutdown => trivial
      | finish => trivial

theorem linear_step (h : Linear codec limits world history) {action : Action}
    (hstep : step codec world action = some next) :
    Linear codec limits next (history ++ (event world action).toList) := by
  cases action with
  | call call =>
      obtain rfl := Option.some.inj hstep
      exact linear_call h call
  | advance index =>
      rcases hat : world.threads[index]? with _ | old
      · simp only [step, hat, Option.bind_eq_bind, Option.bind_none] at hstep
        cases hstep
      · by_cases happend : ∃ flow, old = .appendChecked flow
        · obtain ⟨flow, rfl⟩ := happend
          rw [event, hat]
          exact linear_append h hat hstep
        · by_cases htake : old = .finishing (.driving [])
          · subst htake
            rw [event, hat]
            exact linear_take h hat hstep
          · have hnone : event world (.advance index) = none := by
              rw [event, hat]
              split
              · rename_i flow heq
                exact absurd ⟨flow, Option.some.inj heq⟩ happend
              · rename_i heq
                exact absurd (Option.some.inj heq) htake
              · rfl
            rw [hnone, Option.toList_none, List.append_nil]
            simp only [step, hat, Option.bind_eq_bind, Option.bind_some, Option.bind_eq_some_iff]
              at hstep
            obtain ⟨following, hfollowing, hnext⟩ := hstep
            obtain rfl := Option.some.inj hnext
            refine h.passes hat ?_ (passes_advance h.logged
              (h.settled old (List.mem_of_getElem? hat)) (fun flow heq => happend ⟨flow, heq⟩)
              htake hfollowing)
            rintro rfl
            cases hfollowing
  | use index use =>
      rw [event, Option.toList_none, List.append_nil]
      rcases hat : world.threads[index]? with _ | old
      · simp only [step, hat] at hstep
        cases hstep
      · cases old with
        | writing writer =>
            simp only [step, hat] at hstep
            obtain rfl := Option.some.inj hstep
            exact h.passes hat (by rintro ⟨⟩) (passes_use writer use)
        | _ =>
            simp only [step, hat] at hstep
            cases hstep

theorem linear_run {metadata : SessionMetadata} {inner : RecordingInner} {actions : List Action}
    (hcreate : RecordingInner.create false metadata limits = .ok inner)
    (hrun : run (step codec) (opened inner) actions = some world) :
    Linear codec limits world (events codec (opened inner) actions) :=
  @emitted_invariant _ _ _ (step codec) event (opened inner) world [] actions
    (Linear codec limits) (fun _ _ _ _ hinv hstep => linear_step hinv hstep) hrun
    (linear_opened hcreate)

/-- An operation that has returned takes no section any more. -/
theorem ended_not_accepted {actions : List Action} {middle : World}
    (hended : middle.threads[index]? = some .ended)
    (hrun : run (step codec) middle actions = some world) :
    ∀ entry ∈ accepted (events codec middle actions), entry.1 ≠ index := by
  have hkept := @emitted_invariant _ _ _ (step codec) event middle world [] actions
    (fun state history => state.threads[index]? = some .ended ∧
      ∀ entry ∈ accepted history, entry.1 ≠ index) ?_ hrun
    ⟨hended, fun entry hentry => absurd hentry List.not_mem_nil⟩
  · exact hkept.2
  · rintro state history action following ⟨hat, hnone⟩ hstep
    have hother : ∀ {place : Nat} {after : Shared × Thread}, place ≠ index →
        (state.put place after).threads[index]? = some .ended := by
      intro place after hplace
      show (state.threads.set place after.2)[index]? = _
      rw [List.getElem?_set_ne hplace]
      exact hat
    have hplace : ∀ {place : Nat} {old : Thread}, state.threads[place]? = some old →
        old ≠ .ended → place ≠ index := by
      rintro place old hold hne rfl
      exact hne (Option.some.inj (hold.symm.trans hat))
    constructor
    · cases action with
      | call call =>
          obtain rfl := Option.some.inj hstep
          show (state.threads ++ [call.start])[index]? = _
          rw [List.getElem?_append_left (List.getElem?_eq_some_iff.mp hat).1, hat]
      | advance place =>
          simp only [step, Option.bind_eq_bind, Option.bind_eq_some_iff] at hstep
          obtain ⟨old, hold, after, hafter, hnext⟩ := hstep
          obtain rfl := Option.some.inj hnext
          refine hother (hplace hold ?_)
          rintro rfl
          cases hafter
      | use place use =>
          simp only [step] at hstep
          split at hstep
          · rename_i writer hold
            obtain rfl := Option.some.inj hstep
            exact hother (hplace hold (by rintro ⟨⟩))
          · cases hstep
    · intro entry hentry
      rw [accepted_append, List.mem_append] at hentry
      rcases hentry with hentry | hentry
      · exact hnone entry hentry
      · rcases hevent : event state action with _ | emission
        · rw [hevent] at hentry
          exact absurd hentry List.not_mem_nil
        · rw [hevent] at hentry
          cases action with
          | call call =>
              obtain rfl := Option.some.inj hevent
              exact absurd hentry List.not_mem_nil
          | advance place =>
              rw [event] at hevent
              split at hevent
              · rename_i flow hold
                obtain rfl := Option.some.inj hevent
                have hentry : entry ∈ accepted [.appended place flow
                    (state.inner.appendFlowLocked flow).isOk] := hentry
                cases hok : (state.inner.appendFlowLocked flow).isOk with
                | false =>
                    rw [hok] at hentry
                    exact absurd hentry List.not_mem_nil
                | true =>
                    rw [hok] at hentry
                    obtain rfl := List.mem_singleton.mp hentry
                    exact hplace hold (by rintro ⟨⟩)
              · obtain rfl := Option.some.inj hevent
                exact absurd hentry List.not_mem_nil
              · cases hevent
          | use place use => cases hevent

end

section

variable {codec : Codec} {metadata : SessionMetadata} {limits : StoreLimits}
  {inner : RecordingInner} {actions : List Action} {world : World}

/-- The shared flow log is linearizable. In every interleaving the sections under the flow-log
lock, in the order they ran, are those of a sequential log with the same answers; the session
holds what that log holds; each flow in it was brought by one append; and an append that had
returned before another was called comes first. -/
theorem clones_linearize (hcreate : RecordingInner.create false metadata limits = .ok inner)
    (hrun : run (step codec) (opened inner) actions = some world) :
    let history := events codec (opened inner) actions
    (∃ log, run (FlowLog.step limits) .empty history = some log ∧ Holds world.inner log ∧
      log.flows = (accepted history).map Prod.snd) ∧
      ((accepted history).map Prod.fst).Nodup ∧
      (∀ entry ∈ accepted history, (calls history)[entry.1]? = some (.appendFlow entry.2) ∧
        checkFlow limits entry.2 = .ok ()) ∧
      ∀ before after middle, actions = before ++ after →
        run (step codec) (opened inner) before = some middle →
        accepted history =
          accepted (events codec (opened inner) before) ++ accepted (events codec middle after) ∧
        (∀ entry ∈ accepted (events codec (opened inner) before),
          entry.1 < middle.threads.length) ∧
        ∀ entry ∈ accepted (events codec middle after), middle.threads[entry.1]? ≠ some .ended := by
  intro history
  have hlinear := linear_run hcreate hrun
  obtain ⟨log, hlegal, hholds⟩ := hlinear.legal
  refine ⟨⟨log, hlegal, hholds, flows_eq_accepted hlegal⟩, hlinear.once,
    fun entry hentry => (hlinear.returned entry hentry).2, ?_⟩
  rintro before after middle rfl hbefore
  refine ⟨?_, ?_, ?_⟩
  · rw [← accepted_append]
    exact congrArg accepted (emitted_append hbefore)
  · intro entry hentry
    exact (List.getElem?_eq_some_iff.mp ((linear_run hcreate hbefore).returned entry hentry).1).1
  · intro entry hentry hended
    obtain ⟨between, hbetween, hafter⟩ := run_append.mp hrun
    obtain rfl := Option.some.inj (hbefore.symm.trans hbetween)
    exact ended_not_accepted hended hafter entry hentry rfl

theorem reads_unique {lines : List Bytes} {left right : List Flow} (hleft : Reads codec lines left)
    (hright : Reads codec lines right) : left = right := by
  induction hleft generalizing right with
  | nil =>
      cases hright
      rfl
  | cons hline _ ih =>
      cases hright with
      | cons hother hrest =>
          rw [ih hrest, Except.ok.inj (hline.symm.trans hother)]

/-- A session that some `finish` has returned reads as the flows whose appends were accepted, in
the order of their sections, whatever the clones have done before or since; and what was
renamed holds them too. -/
theorem returned_session_reads (hcreate : RecordingInner.create false metadata limits = .ok inner)
    (hrun : run (step codec) (opened inner) actions = some world)
    (hdecodes : DecodesFlows codec
      ((accepted (events codec (opened inner) actions)).map Prod.snd)) :
    let flows := (accepted (events codec (opened inner) actions)).map Prod.snd
    (∀ root manifest, world.destination = some (root, manifest) →
      root.files flowLog = some (written newline (flows.map Flow.encode)) ∧
        manifest.flowCount = flows.length) ∧
      ∀ session, .finishing (.returned (.ok session)) ∈ world.threads →
        Session.flowItems codec session = .ok (flows.map .ok) ∧
          session.manifest.flowCount = flows.length := by
  intro flows
  have hlinear := linear_run hcreate hrun
  obtain ⟨log, hlegal, hholds⟩ := hlinear.legal
  have hflows : log.flows = flows := flows_eq_accepted hlegal
  have hfile := hholds.file
  have hcount := hholds.count
  rw [hflows] at hfile hcount
  constructor
  · intro root manifest hdestination
    obtain ⟨-, hroot, hmanifest⟩ := hlinear.renamed root manifest hdestination
    exact ⟨hroot.trans hfile, hmanifest.trans hcount⟩
  · intro session hsession
    obtain ⟨-, root, hopen, hroot⟩ := hlinear.settled _ hsession session rfl
    obtain ⟨rfl, -, -, -, read, hopened⟩ := open_eq_ok hopen
    obtain ⟨bytes, hbytes, hreads⟩ := hopened.log
    rw [hroot, hfile, Option.some.injEq] at hbytes
    rw [← hbytes, records_log] at hreads
    obtain rfl := reads_unique hreads (reads_lines hdecodes)
    exact ⟨hopened.items, hopened.flowCount⟩

end

/-! ### An append that comes too late -/

/-- One append is accepted, another is checked before `finish` takes the log and comes to its
section after that. -/
def overtakenActions : List Action :=
  [.call (.appendFlow sampleFlow), .advance 0, .advance 0, .call (.appendFlow sampleFlow),
    .advance 1, .call .finish, .advance 2, .advance 2, .advance 2, .advance 2, .advance 1] ++
    List.replicate 8 (.advance 2)

theorem overtaken_runs : ∃ world session,
    run (step (sampleCodec 1)) (opened sampleSession) overtakenActions = some world ∧
      .finishing (.returned (.ok session)) ∈ world.threads := by
  have hruns : (run (step (sampleCodec 1)) (opened sampleSession) overtakenActions).any
      (fun world => world.threads.any Thread.succeeds) = true := by
    decide +kernel
  obtain ⟨world, hrun, hsucceeds⟩ := (Option.any_eq_true _ _).mp hruns
  obtain ⟨session, hfinish⟩ := session_of_succeeds hsucceeds
  exact ⟨world, session, hrun, hfinish⟩

theorem overtaken_linearizes :
    ∃ log, run (FlowLog.step StoreLimits.default) .empty
        (events (sampleCodec 1) (opened sampleSession) overtakenActions) = some log ∧
      log.flows = (accepted (events (sampleCodec 1) (opened sampleSession)
        overtakenActions)).map Prod.snd := by
  obtain ⟨world, -, hrun, -⟩ := overtaken_runs
  have hcreate : RecordingInner.create false sampleMetadata StoreLimits.default =
      .ok sampleSession := rfl
  obtain ⟨⟨log, hlegal, -, hflows⟩, -⟩ := clones_linearize hcreate hrun
  exact ⟨log, hlegal, hflows⟩

theorem overtaken_session_reads :
    ∃ session, Session.flowItems (sampleCodec 1) session =
      .ok (((accepted (events (sampleCodec 1) (opened sampleSession) overtakenActions)).map
        Prod.snd).map .ok) := by
  obtain ⟨world, session, hrun, hfinish⟩ := overtaken_runs
  have hcreate : RecordingInner.create false sampleMetadata StoreLimits.default =
      .ok sampleSession := rfl
  have hflows : (accepted (events (sampleCodec 1) (opened sampleSession) overtakenActions)).map
      Prod.snd = [sampleFlow] := by
    decide +kernel
  have hdecodes : DecodesFlows (sampleCodec 1) ((accepted (events (sampleCodec 1)
      (opened sampleSession) overtakenActions)).map Prod.snd) := by
    rw [hflows]
    intro flow hflow
    obtain rfl := List.mem_singleton.mp hflow
    simp only [sampleCodec, if_true]
  exact ⟨session, ((returned_session_reads hcreate hrun hdecodes).2 session hfinish).1⟩

end EggReplay.Store.FlowLinearization
