import EggReplay.Http.Atomicity
import EggReplay.Library.TransitionSystem
import EggReplay.Store.ConversationAdmission
import EggReplay.Store.CopyPreserves
import EggReplay.Store.FinishSteps

/-!
`finish` beside the task of one WebSocket conversation: which of their steps come first decides
whether the conversation is published.
-/

namespace EggReplay.Http.ConversationDrain

open EggReplay.Core.FlowRecord
open EggReplay.Core.WebSockets
open EggReplay.Store.ConversationAdmission
open EggReplay.Store.Copies
open EggReplay.Store.CopyPreserves
open EggReplay.Store.FinishSteps
open EggReplay.Store.Fixture
open EggReplay.Store.OpenedSessions
open EggReplay.Store.Publication
open EggReplay.Store.Recording
open EggReplay.Store.SessionOpen
open EggReplay.Store.SessionRuns
open EggReplay.Store.StagedInvariant
open EggReplay.Store.Staging
open EggReplay.Library.Checks
open EggReplay.Library.Text
open EggReplay.Library.TransitionSystem

/-! ### The two threads -/

/-- Where the conversation task stands; `append_websocket_conversation` reads the flag once
before and once under the registry's lock. -/
inductive TaskPoint where
  | appending
  | checked
  | locked
  | admitted
  | appended (result : Except StoreError Unit)
  | ended (result : Except StoreError Unit)

/-- What is shared, and where both threads stand. -/
structure World extends Shared where
  task : TaskPoint
  finisher : FinishPoint

inductive Thread where
  | task
  | finisher
  deriving DecidableEq

/-- The conversation of the task, and the finalizer that was registered for it. -/
structure Conversing where
  finalizer : Nat
  conversation : WebSocketConversation

def TaskPoint.holdsRegistry : TaskPoint → Bool
  | .locked | .admitted => true
  | .appending | .checked | .appended _ | .ended _ => false

/-- The next step of the task. The result of the append is dropped before `complete`. -/
def taskStep (conversing : Conversing) (world : World) : Option World :=
  match world.task with
  | .appending =>
      match world.inner.checkRunning with
      | .ok _ => some { world with task := .checked }
      | .error error => some { world with task := .appended (.error error) }
  | .checked => some { world with task := .locked }
  | .locked =>
      match world.inner.checkRunning with
      | .ok _ => some { world with task := .admitted }
      | .error error => some { world with task := .appended (.error error) }
  | .admitted =>
      match appendWebsocketConversation world.inner.websocket conversing.conversation with
      | .ok websocket =>
          some { world with inner := { world.inner with websocket }, task := .appended (.ok ()) }
      | .error error => some { world with task := .appended (.error error) }
  | .appended result =>
      some { world with done := conversing.finalizer :: world.done, task := .ended result }
  | .ended _ => none

def World.finishStep (codec : Codec) (world : World) : Option World :=
  (Store.FinishSteps.finishStep codec world.task.holdsRegistry world.toShared world.finisher).map
    fun next => { world with toShared := next.1, finisher := next.2 }

def step (codec : Codec) (conversing : Conversing) (world : World) : Thread → Option World
  | .task => taskStep conversing world
  | .finisher => World.finishStep codec world

/-- `finish` is called while the task has still to append its conversation. -/
def calledOn (inner : RecordingInner) (done : List Nat) : World where
  inner
  done
  task := .appending
  finisher := .called

/-! ### What holds while both threads run -/

def TaskPoint.accepted : TaskPoint → Bool
  | .appended (.ok _) | .ended (.ok _) => true
  | .appended (.error _) | .ended (.error _) | .appending | .checked | .locked | .admitted => false

def withConversation (base : RecordingInner) (registry : WebSocketAccumulation) : RecordingInner :=
  { base with websocket := registry }

/-- What `finish` had been called on, had the task made its last step before. -/
def current (base : RecordingInner) (registry : WebSocketAccumulation) (task : TaskPoint) :
    RecordingInner :=
  if task.accepted = true then withConversation base registry else base

structure Kept (codec : Codec) (conversing : Conversing) (base : RecordingInner)
    (registry : WebSocketAccumulation) (world : World) : Prop where
  shape : Shape codec (current base registry world.task) world.toShared world.finisher
  ended : conversing.finalizer ∈ world.done ↔ ∃ result, world.task = .ended result
  waits : conversing.finalizer ∈ world.finisher.pending base.websocketFinalizers ∨
    conversing.finalizer ∈ world.done
  others : ∀ other ∈ world.finisher.pending base.websocketFinalizers,
    other = conversing.finalizer ∨ other ∈ world.done

section

variable {codec : Codec} {conversing : Conversing} {world next : World} {base : RecordingInner}
  {registry : WebSocketAccumulation}

theorem kept_called {done : List Nat} (hregistered : conversing.finalizer ∈ base.websocketFinalizers)
    (hpending : conversing.finalizer ∉ done)
    (hothers : ∀ other ∈ base.websocketFinalizers, other = conversing.finalizer ∨ other ∈ done) :
    Kept codec conversing base registry (calledOn base done) where
  shape := ⟨rfl, rfl⟩
  ended := iff_of_false hpending (by rintro ⟨result, ⟨⟩⟩)
  waits := .inl hregistered
  others := hothers

/-- `finish` does not go on before the task has ended. -/
theorem Kept.ended_of_drained (h : Kept codec conversing base registry world)
    (hdrained : world.finisher.drained = true) : ∃ result, world.task = .ended result := by
  apply h.ended.mp
  rcases h.waits with hwaits | hdone
  · rw [pending_of_drained hdrained] at hwaits
    cases hwaits
  · exact hdone

/-- While the task has not ended, the session is the one that `finish` was called on, but for
the flag and the finalizers. -/
theorem Kept.undrained (h : Kept codec conversing base registry world)
    (hrunning : ∀ result, world.task ≠ .ended result) : world.finisher.drained = false := by
  cases hdrained : world.finisher.drained with
  | false => rfl
  | true =>
      obtain ⟨result, hended⟩ := h.ended_of_drained hdrained
      exact absurd hended (hrunning result)

theorem shape_websocket {now : RecordingInner} {shared : Shared} {point : FinishPoint}
    (h : Shape codec now shared point) (hundrained : point.drained = false) :
    shared.inner.websocket = now.websocket := by
  cases point with
  | called => rw [h.1]
  | stored =>
      rw [h.1]
      rfl
  | counted =>
      rw [h.1]
      rfl
  | driving pending =>
      rw [h.1]
      rfl
  | flowsTaken | flowsCounted _ | streamEventsWritten _ | websocketWritten _
  | fixtureChecked _ | blobsCounted _ | manifestWritten _ | renamed | returned _ =>
      cases hundrained

theorem shape_flag {now : RecordingInner} {shared : Shared} {point : FinishPoint}
    (h : Shape codec now shared point) (hundrained : point.drained = false)
    (hcalled : point ≠ .called) : shared.inner.shutdown = true := by
  cases point with
  | called => exact absurd rfl hcalled
  | stored =>
      rw [h.1]
      rfl
  | counted =>
      rw [h.1]
      rfl
  | driving pending =>
      rw [h.1]
      rfl
  | flowsTaken | flowsCounted _ | streamEventsWritten _ | websocketWritten _
  | fixtureChecked _ | blobsCounted _ | manifestWritten _ | renamed | returned _ =>
      cases hundrained

/-- The append of the task is as one that was made before the call. -/
theorem shape_append {now : RecordingInner} {shared : Shared} {point : FinishPoint}
    (h : Shape codec now shared point) (hundrained : point.drained = false) :
    Shape codec (withConversation now registry)
      { shared with inner := withConversation shared.inner registry } point := by
  cases point with
  | called => exact ⟨congrArg (withConversation · registry) h.1, h.2⟩
  | stored => exact ⟨congrArg (withConversation · registry) h.1, h.2⟩
  | counted => exact ⟨congrArg (withConversation · registry) h.1, h.2⟩
  | driving pending => exact ⟨congrArg (withConversation · registry) h.1, h.2⟩
  | flowsTaken | flowsCounted _ | streamEventsWritten _ | websocketWritten _
  | fixtureChecked _ | blobsCounted _ | manifestWritten _ | renamed | returned _ =>
      cases hundrained

/-- A step of the task that leaves the session as it is, and does not end the task. -/
theorem Kept.move {task : TaskPoint} (h : Kept codec conversing base registry world)
    (hrunning : ∀ result, world.task ≠ .ended result) (hnext : ∀ result, task ≠ .ended result)
    (hsame : task.accepted = world.task.accepted) :
    Kept codec conversing base registry { world with task } where
  shape := by
    have hshape := h.shape
    unfold current at hshape ⊢
    rw [hsame]
    exact hshape
  ended := by
    rw [h.ended]
    exact iff_of_false (fun ⟨result, hresult⟩ => hrunning result hresult)
      (fun ⟨result, hresult⟩ => hnext result hresult)
  waits := h.waits
  others := h.others

theorem kept_taskStep
    (hvalid : appendWebsocketConversation base.websocket conversing.conversation = .ok registry)
    (h : Kept codec conversing base registry world) (hstep : taskStep conversing world = some next) :
    Kept codec conversing base registry next := by
  unfold taskStep at hstep
  split at hstep
  · rename_i htask
    have hrunning : ∀ result, world.task ≠ .ended result := by rw [htask]; rintro result ⟨⟩
    split at hstep
    · obtain rfl := Option.some.inj hstep
      exact h.move hrunning (by rintro result ⟨⟩) (by rw [htask]; rfl)
    · obtain rfl := Option.some.inj hstep
      exact h.move hrunning (by rintro result ⟨⟩) (by rw [htask]; rfl)
  · rename_i htask
    obtain rfl := Option.some.inj hstep
    exact h.move (by rw [htask]; rintro result ⟨⟩) (by rintro result ⟨⟩) (by rw [htask]; rfl)
  · rename_i htask
    have hrunning : ∀ result, world.task ≠ .ended result := by rw [htask]; rintro result ⟨⟩
    split at hstep
    · obtain rfl := Option.some.inj hstep
      exact h.move hrunning (by rintro result ⟨⟩) (by rw [htask]; rfl)
    · obtain rfl := Option.some.inj hstep
      exact h.move hrunning (by rintro result ⟨⟩) (by rw [htask]; rfl)
  · rename_i htask
    have hrunning : ∀ result, world.task ≠ .ended result := by rw [htask]; rintro result ⟨⟩
    have hundrained := h.undrained hrunning
    have hshape : Shape codec base world.toShared world.finisher := by
      have hshape := h.shape
      rw [htask] at hshape
      exact hshape
    rw [shape_websocket hshape hundrained, hvalid] at hstep
    obtain rfl := Option.some.inj hstep
    refine ⟨shape_append hshape hundrained, ?_, h.waits, h.others⟩
    rw [h.ended]
    exact iff_of_false (fun ⟨result, hresult⟩ => hrunning result hresult) (by rintro ⟨result, ⟨⟩⟩)
  · rename_i result htask
    obtain rfl := Option.some.inj hstep
    refine ⟨?_, iff_of_true List.mem_cons_self ⟨result, rfl⟩, .inr List.mem_cons_self, ?_⟩
    · have hshape := h.shape
      rw [htask] at hshape
      cases result with
      | error error => exact hshape
      | ok u => exact hshape
    · exact fun other hother => (h.others other hother).imp_right (List.mem_cons_of_mem _)
  · cases hstep

theorem finishStep_eq_some : World.finishStep codec world = some next ↔
    ∃ moved, Store.FinishSteps.finishStep codec world.task.holdsRegistry world.toShared world.finisher =
        some moved ∧
      { world with toShared := moved.1, finisher := moved.2 } = next :=
  Option.map_eq_some_iff

theorem kept_finishStep (hidle : base.activeBlobs = 0)
    (h : Kept codec conversing base registry world)
    (hstep : World.finishStep codec world = some next) :
    Kept codec conversing base registry next := by
  obtain ⟨moved, hmoved, rfl⟩ := finishStep_eq_some.mp hstep
  have hcurrent : (current base registry world.task).activeBlobs = base.activeBlobs ∧
      (current base registry world.task).websocketFinalizers = base.websocketFinalizers := by
    unfold current
    split
    · exact ⟨rfl, rfl⟩
    · exact ⟨rfl, rfl⟩
  have hshape := h.shape
  obtain ⟨hdone, -⟩ := finishStep_done hmoved
  obtain ⟨hnone, hall⟩ : (∀ other ∈ moved.2.pending base.websocketFinalizers,
        other ∈ world.finisher.pending base.websocketFinalizers) ∧
      ∀ other ∈ world.finisher.pending base.websocketFinalizers,
        other ∈ moved.2.pending base.websocketFinalizers ∨ other ∈ world.done := by
    refine pending_finishStep ?_ ?_ hmoved
    · intro hpoint
      rw [hpoint] at hshape
      rw [hshape.1]
      exact hcurrent.1.trans hidle
    · intro hpoint
      rw [hpoint] at hshape
      rw [hshape.1]
      exact hcurrent.2
  refine ⟨shape_finishStep h.shape hmoved, ?_, ?_, ?_⟩
  · dsimp only
    rw [hdone]
    exact h.ended
  · dsimp only
    rw [hdone]
    rcases h.waits with hwaits | hwaits
    · exact hall _ hwaits
    · exact .inr hwaits
  · dsimp only
    rw [hdone]
    exact fun other hother => h.others other (hnone other hother)

theorem kept_step {thread : Thread} (hidle : base.activeBlobs = 0)
    (hvalid : appendWebsocketConversation base.websocket conversing.conversation = .ok registry)
    (h : Kept codec conversing base registry world)
    (hstep : step codec conversing world thread = some next) :
    Kept codec conversing base registry next := by
  cases thread with
  | task => exact kept_taskStep hvalid h hstep
  | finisher => exact kept_finishStep hidle h hstep

/-! ### Whether the append is accepted -/

/-- The second reading of the flag is still to come. -/
def TaskPoint.unsure : TaskPoint → Bool
  | .appending | .checked | .locked => true
  | .admitted | .appended _ | .ended _ => false

def TaskPoint.refused : TaskPoint → Bool
  | .appended (.error _) | .ended (.error _) => true
  | .appended (.ok _) | .ended (.ok _) | .appending | .checked | .locked | .admitted => false

/-- The task has met the flag, or will. -/
def Doomed (world : World) : Prop :=
  world.inner.shutdown = true ∧ world.task.unsure = true ∨ world.task.refused = true

/-- The task is past both readings of the flag. -/
def Settled (world : World) : Prop :=
  world.task = .admitted ∨ world.task.accepted = true

theorem finishStep_task (hstep : World.finishStep codec world = some next) :
    next.task = world.task ∧ next.finisher ≠ .called := by
  obtain ⟨moved, hmoved, rfl⟩ := finishStep_eq_some.mp hstep
  obtain ⟨-, hcalled⟩ := finishStep_done hmoved
  exact ⟨rfl, fun heq => hcalled moved.1 (Prod.ext rfl heq)⟩

theorem not_ended_of_unsure {task : TaskPoint} (h : task.unsure = true) :
    ∀ result, task ≠ .ended result := by
  rintro result rfl
  cases h

/-- A step of `finish` sets the flag for good. -/
theorem doomed_finishStep (hidle : base.activeBlobs = 0)
    (hkept : Kept codec conversing base registry world)
    (h : world.task.unsure = true ∨ world.task.refused = true)
    (hstep : World.finishStep codec world = some next) : Doomed next := by
  obtain ⟨htask, hcalled⟩ := finishStep_task hstep
  unfold Doomed
  rw [htask]
  refine h.imp_left fun hunsure => ⟨?_, hunsure⟩
  have hnext := kept_finishStep hidle hkept hstep
  have hundrained := hnext.undrained (by rw [htask]; exact not_ended_of_unsure hunsure)
  exact shape_flag hnext.shape hundrained hcalled

theorem doomed_step {thread : Thread} (hidle : base.activeBlobs = 0)
    (hkept : Kept codec conversing base registry world) (h : Doomed world)
    (hstep : step codec conversing world thread = some next) : Doomed next := by
  cases thread with
  | finisher => exact doomed_finishStep hidle hkept (h.imp_left And.right) hstep
  | task =>
      have hstep : taskStep conversing world = some next := hstep
      unfold taskStep at hstep
      rcases h with ⟨hflag, hunsure⟩ | hrefused
      · have hrejected : world.inner.checkRunning = .error (.invalid "session is shutting down") :=
          ensure_of_false (by rw [hflag]; decide)
        split at hstep
        · rw [hrejected] at hstep
          obtain rfl := Option.some.inj hstep
          exact .inr rfl
        · obtain rfl := Option.some.inj hstep
          exact .inl ⟨hflag, rfl⟩
        · rw [hrejected] at hstep
          obtain rfl := Option.some.inj hstep
          exact .inr rfl
        all_goals
          rename_i htask
          rw [htask] at hunsure
          cases hunsure
      · cases htask : world.task with
        | appended result =>
            rw [htask] at hstep hrefused
            obtain rfl := Option.some.inj hstep
            cases result with
            | error error => exact .inr rfl
            | ok u => cases hrefused
        | ended result =>
            rw [htask] at hstep
            cases hstep
        | appending =>
            rw [htask] at hrefused
            cases hrefused
        | checked =>
            rw [htask] at hrefused
            cases hrefused
        | locked =>
            rw [htask] at hrefused
            cases hrefused
        | admitted =>
            rw [htask] at hrefused
            cases hrefused

theorem settled_step {thread : Thread}
    (hvalid : appendWebsocketConversation base.websocket conversing.conversation = .ok registry)
    (hkept : Kept codec conversing base registry world) (h : Settled world)
    (hstep : step codec conversing world thread = some next) : Settled next := by
  cases thread with
  | finisher =>
      unfold Settled
      rw [(finishStep_task hstep).1]
      exact h
  | task =>
      have hstep : taskStep conversing world = some next := hstep
      rcases h with hadmitted | haccepted
      · have hundrained := hkept.undrained (by rw [hadmitted]; rintro result ⟨⟩)
        have hsame : world.inner.websocket = base.websocket := by
          have hwebsocket := shape_websocket hkept.shape hundrained
          rw [hadmitted] at hwebsocket
          exact hwebsocket
        rw [taskStep, hadmitted, hsame, hvalid] at hstep
        obtain rfl := Option.some.inj hstep
        exact .inr rfl
      · unfold taskStep at hstep
        split at hstep
        case h_5 result htask =>
          obtain rfl := Option.some.inj hstep
          rw [htask] at haccepted
          cases result with
          | error error => cases haccepted
          | ok u => exact .inr rfl
        case h_6 => cases hstep
        all_goals
          rename_i htask
          rw [htask] at haccepted
          cases haccepted

theorem kept_run {schedule : List Thread} {final : World} (hidle : base.activeBlobs = 0)
    (hvalid : appendWebsocketConversation base.websocket conversing.conversation = .ok registry)
    (hkept : Kept codec conversing base registry world)
    (hrun : run (step codec conversing) world schedule = some final) :
    Kept codec conversing base registry final ∧ (Doomed world → Doomed final) ∧
      (Settled world → Settled final) := by
  induction schedule generalizing world with
  | nil =>
      obtain rfl := Option.some.inj hrun
      exact ⟨hkept, id, id⟩
  | cons thread rest ih =>
      obtain ⟨next, hstep, hrest⟩ := run_cons_eq_some.mp hrun
      obtain ⟨hfinal, hdoomed, hsettled⟩ := ih (kept_step hidle hvalid hkept hstep) hrest
      exact ⟨hfinal, fun h => hdoomed (doomed_step hidle hkept h hstep),
        fun h => hsettled (settled_step hvalid hkept h hstep)⟩

theorem TaskPoint.not_accepted {task : TaskPoint} (h : task.unsure = true ∨ task.refused = true) :
    task.accepted = false := by
  rcases task with _ | _ | _ | _ | (error | u) | (error | u)
  all_goals simp [unsure, refused, accepted] at h ⊢

/-- The steps up to and with the second reading of the flag. -/
def TaskPoint.unread : TaskPoint → Nat
  | .appending => 3
  | .checked => 2
  | .locked => 1
  | .admitted | .appended _ | .ended _ => 0

theorem not_accepted_of_doomed {schedule : List Thread} {final : World}
    (hidle : base.activeBlobs = 0)
    (hvalid : appendWebsocketConversation base.websocket conversing.conversation = .ok registry)
    (hkept : Kept codec conversing base registry world)
    (hrun : run (step codec conversing) world schedule = some final) (h : Doomed world) :
    final.task.accepted = false :=
  TaskPoint.not_accepted (((kept_run hidle hvalid hkept hrun).2.1 h).imp_left And.right)

/-- Before `finish` has moved, the append will be accepted just if the task goes first until it
has read the flag twice. -/
theorem accepted_iff_leads {schedule : List Thread} {final : World}
    {result : Except StoreError Unit} (hidle : base.activeBlobs = 0)
    (hvalid : appendWebsocketConversation base.websocket conversing.conversation = .ok registry)
    (hkept : Kept codec conversing base registry world) (hflag : world.inner.shutdown = false)
    (hunsure : world.task.unsure = true)
    (hrun : run (step codec conversing) world schedule = some final)
    (hended : final.task = .ended result) :
    final.task.accepted = true ↔ List.replicate world.task.unread Thread.task <+: schedule := by
  induction schedule generalizing world with
  | nil =>
      obtain rfl := Option.some.inj hrun
      exact absurd hended (not_ended_of_unsure hunsure result)
  | cons thread rest ih =>
      obtain ⟨next, hstep, hrest⟩ := run_cons_eq_some.mp hrun
      have hnext := kept_step hidle hvalid hkept hstep
      cases thread with
      | finisher =>
          rw [not_accepted_of_doomed hidle hvalid hnext hrest
            (doomed_finishStep hidle hkept (.inl hunsure) hstep)]
          refine iff_of_false Bool.false_ne_true ?_
          cases htask : world.task <;> rw [htask] at hunsure <;>
            simp [TaskPoint.unread, TaskPoint.unsure, List.replicate_succ] at hunsure ⊢
      | task =>
          have hchecked : world.inner.checkRunning = .ok () := ensure_of_true hflag
          have hmove : taskStep conversing world = some next := hstep
          unfold taskStep at hmove
          rw [hchecked] at hmove
          cases htask : world.task with
          | appending =>
              rw [htask] at hmove
              obtain rfl := Option.some.inj hmove
              rw [ih hnext hflag rfl hrest]
              exact List.cons_prefix_cons.trans (and_iff_right rfl) |>.symm
          | checked =>
              rw [htask] at hmove
              obtain rfl := Option.some.inj hmove
              rw [ih hnext hflag rfl hrest]
              exact List.cons_prefix_cons.trans (and_iff_right rfl) |>.symm
          | locked =>
              rw [htask] at hmove
              obtain rfl := Option.some.inj hmove
              have hsettled := (kept_run hidle hvalid hnext hrest).2.2 (.inl rfl)
              have haccepted : final.task.accepted = true :=
                hsettled.resolve_left (by rw [hended]; rintro ⟨⟩)
              exact iff_of_true haccepted (List.cons_prefix_cons.mpr ⟨rfl, List.nil_prefix⟩)
          | admitted =>
              rw [htask] at hunsure
              cases hunsure
          | appended other =>
              rw [htask] at hunsure
              cases hunsure
          | ended other =>
              rw [htask] at hunsure
              cases hunsure

theorem accepted_iff {schedule : List Thread} {final : World} {done : List Nat}
    {result : Except StoreError Unit} (hidle : base.activeBlobs = 0)
    (hvalid : appendWebsocketConversation base.websocket conversing.conversation = .ok registry)
    (hkept : Kept codec conversing base registry (calledOn base done))
    (hrun : run (step codec conversing) (calledOn base done) schedule = some final)
    (hended : final.task = .ended result) :
    final.task.accepted = true ↔
      base.shutdown = false ∧ List.replicate 3 Thread.task <+: schedule := by
  cases hflag : base.shutdown with
  | true =>
      rw [not_accepted_of_doomed hidle hvalid hkept hrun (.inl ⟨hflag, rfl⟩)]
      exact iff_of_false Bool.false_ne_true (fun h => Bool.false_ne_true h.1.symm)
  | false =>
      rw [accepted_iff_leads hidle hvalid hkept hflag rfl hrun hended]
      exact (and_iff_right rfl).symm

/-! ### Where no step is left -/

theorem taskStep_eq_none (h : taskStep conversing world = none) :
    ∃ result, world.task = .ended result := by
  unfold taskStep at h
  split at h
  · split at h <;> cases h
  · cases h
  · split at h <;> cases h
  · split at h <;> cases h
  · cases h
  · rename_i result htask
    exact ⟨result, htask⟩

/-- Neither thread waits for ever. -/
theorem Kept.returned (h : Kept codec conversing base registry world)
    (hstuck : ∀ thread, step codec conversing world thread = none) :
    ∃ result answer, world.task = .ended result ∧ world.finisher = .returned answer := by
  obtain ⟨result, hended⟩ := taskStep_eq_none (hstuck .task)
  have hdone : conversing.finalizer ∈ world.done := h.ended.mpr ⟨result, hended⟩
  have hfinisher : World.finishStep codec world = none := hstuck .finisher
  rw [World.finishStep, Option.map_eq_none_iff] at hfinisher
  refine ⟨result, ?_⟩
  rcases finishStep_eq_none hfinisher with ⟨finalizer, rest, hpoint, hnot⟩ | ⟨hheld, -⟩ |
    ⟨answer, hpoint⟩
  · have hothers := h.others
    rw [hpoint] at hothers
    rcases hothers finalizer List.mem_cons_self with rfl | hother
    · exact absurd hdone hnot
    · exact absurd hother hnot
  · rw [hended] at hheld
    cases hheld
  · exact ⟨answer, hended, hpoint⟩

def TaskPoint.left : TaskPoint → Nat
  | .appending => 5
  | .checked => 4
  | .locked => 3
  | .admitted => 2
  | .appended _ => 1
  | .ended _ => 0

/-- The steps that both threads have left at most. -/
def World.left (world : World) : Nat :=
  world.task.left + world.finisher.left world.inner.websocketFinalizers.length

theorem left_taskStep (hstep : taskStep conversing world = some next) :
    next.left + 1 ≤ world.left := by
  have hmove : next.finisher = world.finisher ∧
      next.inner.websocketFinalizers = world.inner.websocketFinalizers ∧
      next.task.left + 1 ≤ world.task.left := by
    unfold taskStep at hstep
    split at hstep
    case h_1 htask | h_3 htask | h_4 htask =>
      rw [htask]
      split at hstep <;> obtain rfl := Option.some.inj hstep <;>
        exact ⟨rfl, rfl, by simp [TaskPoint.left]⟩
    case h_2 htask | h_5 _ htask =>
      rw [htask]
      obtain rfl := Option.some.inj hstep
      exact ⟨rfl, rfl, Nat.le_refl _⟩
    case h_6 => cases hstep
  obtain ⟨hfinisher, hregistered, hleft⟩ := hmove
  rw [World.left, World.left, hfinisher, hregistered]
  omega

theorem left_worldStep (hstep : World.finishStep codec world = some next) :
    next.left + 1 ≤ world.left := by
  obtain ⟨moved, hmoved, rfl⟩ := finishStep_eq_some.mp hstep
  have hleft := left_finishStep hmoved
  rw [World.left, World.left]
  dsimp only
  omega

/-- Every schedule comes to an end. -/
theorem schedule_length {schedule : List Thread} {final : World}
    (hrun : run (step codec conversing) world schedule = some final) :
    schedule.length ≤ world.left := by
  have hstep : ∀ (state : World) (thread : Thread) (next : World), True →
      step codec conversing state thread = some next →
      True ∧ next.left + true.toNat ≤ state.left := by
    intro state thread next _ hstep
    cases thread with
    | task => exact ⟨trivial, left_taskStep hstep⟩
    | finisher => exact ⟨trivial, left_worldStep hstep⟩
  obtain ⟨-, hle⟩ := @run_countP_le _ _ _ _ _ _ (fun _ => True) World.left (fun _ => true)
    hstep hrun trivial
  rw [List.countP_true] at hle
  omega

end

/-! ### The published transcript -/

/-- The session's `websocket-messages` extension holds these conversations and no others. -/
def HoldsConversations (codec : Codec) (session : Session)
    (conversations : List WebSocketConversation) : Prop :=
  ∃ bytes transcript, Session.readExtension session "websocket-messages" = .ok (some bytes) ∧
    codec.decodeTranscript bytes = .ok transcript ∧ transcript.conversations = conversations

section

variable {codec : Codec} {inner : RecordingInner} {session : Session} {root : Directory}
  {manifest : Manifest}

theorem writeStreamEventsExtension_keeps {middle : RecordingInner}
    (h : inner.writeStreamEventsExtension = .ok middle) :
    middle.websocket = inner.websocket ∧ (middle.extensions = inner.extensions ∨
      middle.extensions = inner.extensions ++ [streamEventsExtension]) := by
  unfold RecordingInner.writeStreamEventsExtension at h
  split at h
  · obtain rfl := Except.ok.inj h
    exact ⟨rfl, .inl rfl⟩
  · simp only [↓bind_unit_eq_ok, bind_eq_ok, pure_eq_ok] at h
    obtain ⟨-, -, staged, hstaged, rfl⟩ := h
    have hregisters := writeExtension_eq_ok hstaged
    have hextensions : staged.extensions = inner.extensions ++ [streamEventsExtension] :=
      hregisters.extensions_eq
    refine ⟨?_, .inr hextensions⟩
    show staged.websocket = inner.websocket
    rw [hregisters.next_eq]

/-- The two extensions that `stage` may write, and what comes of them. -/
theorem stage_eq_ok (h : inner.stage codec = .ok (root, manifest)) :
    inner.activeBlobs = 0 ∧
      ∃ middle final : RecordingInner, middle.websocket = inner.websocket ∧
        (middle.extensions = inner.extensions ∨
          middle.extensions = inner.extensions ++ [streamEventsExtension]) ∧
        middle.writeWebsocketExtension = .ok final ∧ manifest.extensions = final.extensions ∧
        root.files = Function.update final.directory.files manifestFile
          (some (codec.encodeManifest manifest ++ [newline])) := by
  rw [stage_eq] at h
  simp only [↓bind_unit_eq_ok, bind_eq_ok, ensure_eq_ok, afterFlows, afterStreamEvents,
    afterWebsocket, afterFixture_eq] at h
  obtain ⟨hactive, taken, htaken, middle, hmiddle, final, hfinal, -, hwrite⟩ := h
  have hkept : taken.websocket = inner.websocket ∧ taken.extensions = inner.extensions := by
    obtain ⟨-, rfl⟩ := takeFlows_eq_ok.mp htaken
    exact ⟨rfl, rfl⟩
  obtain ⟨hwebsocket, hextensions⟩ := writeStreamEventsExtension_keeps hmiddle
  rw [hkept.1] at hwebsocket
  rw [hkept.2] at hextensions
  refine ⟨hactive, middle, final, hwebsocket, hextensions, hfinal, ?_⟩
  simp [Staged.writeManifest] at hwrite
  obtain ⟨-, rfl, rfl⟩ := hwrite
  exact ⟨rfl, rfl⟩

theorem published_manifest (hmanifest : DecodesManifest codec (inner.stage codec))
    (hstage : inner.stage codec = .ok (root, manifest))
    (hfile : root.files manifestFile = some (codec.encodeManifest manifest ++ [newline]))
    (hopen : Session.open codec root inner.limits = .ok session) :
    session.root = root ∧ session.manifest = manifest ∧ ∃ flows, Opened codec session flows := by
  obtain ⟨hroot, -, ⟨bytes, hbytes, hdecode⟩, -, hopened⟩ := open_eq_ok hopen
  obtain rfl := Option.some.inj (hbytes.symm.trans hfile)
  exact ⟨hroot, Except.ok.inj (hdecode.symm.trans (hmanifest root manifest hstage)), hopened⟩

/-- A published session holds the registry's conversations. -/
theorem holds_published {conversations : List WebSocketConversation}
    (hconversations : inner.websocket.conversations = conversations)
    (hne : conversations ≠ [])
    (hmanifest : DecodesManifest codec (inner.stage codec))
    (hdecode : codec.decodeTranscript (transcriptOf conversations).encode =
      .ok (transcriptOf conversations))
    (hresult : (inner.finish codec).result = .ok session) :
    HoldsConversations codec session conversations ∧
      ∀ entry ∈ inner.extensions, entry.name ≠ "websocket-messages" := by
  rcases hstage : inner.stage codec with error | ⟨root, manifest⟩
  · rw [RecordingInner.finish, hstage] at hresult
    cases hresult
  rw [RecordingInner.finish, hstage] at hresult
  obtain ⟨-, middle, final, hwebsocket, hextensions, hwrite, hfinal, hfiles⟩ := stage_eq_ok hstage
  obtain ⟨rfl, rfl, flows, hopened⟩ := published_manifest hmanifest hstage
    (by rw [hfiles, Function.update_self]) hresult
  have hmiddle : middle.websocket.conversations = conversations := by
    rw [hwebsocket, hconversations]
  rw [RecordingInner.writeWebsocketExtension, if_neg (by rw [hmiddle]; exact hne)] at hwrite
  simp only [websocketTranscript, ↓bind_unit_eq_ok, bind_eq_ok, pure_eq_ok] at hwrite
  obtain ⟨transcript, ⟨-, -, rfl⟩, staged, hstaged, rfl⟩ := hwrite
  have hregisters := writeExtension_eq_ok hstaged
  have hlist : session.manifest.extensions = middle.extensions ++ [websocketExtension] :=
    hfinal.trans hregisters.extensions_eq
  have hbytes : session.root.files "websockets.jsonl" =
      some (transcriptOf conversations).encode := by
    rw [hfiles, Function.update_of_ne (by decide), ← hmiddle]
    exact hregisters.file
  have hmem : websocketExtension ∈ session.manifest.extensions := by
    rw [hlist]
    exact List.mem_append_right _ (List.mem_singleton.mpr rfl)
  have hread : Session.readExtension session "websocket-messages" =
      .ok (some ((session.root.files "websockets.jsonl").getD [])) :=
    Opened.readExtension hopened hmem
  refine ⟨⟨_, transcriptOf conversations, hread, ?_, rfl⟩, ?_⟩
  · rw [hbytes]
    exact hdecode
  · intro entry hentry
    refine (hregisters.fresh entry ?_).1
    rcases hextensions with heq | heq
    · exact heq ▸ hentry
    · exact heq ▸ List.mem_append_left _ hentry

/-- Without a conversation in its registry, a session is published without the extension. -/
theorem not_holds_published {conversations : List WebSocketConversation}
    (hnone : inner.websocket.conversations = [])
    (hfresh : ∀ entry ∈ inner.extensions, entry.name ≠ "websocket-messages")
    (hmanifest : DecodesManifest codec (inner.stage codec))
    (hresult : (inner.finish codec).result = .ok session) :
    ¬HoldsConversations codec session conversations := by
  rcases hstage : inner.stage codec with error | ⟨root, manifest⟩
  · rw [RecordingInner.finish, hstage] at hresult
    cases hresult
  rw [RecordingInner.finish, hstage] at hresult
  obtain ⟨-, middle, final, hwebsocket, hextensions, hwrite, hfinal, hfiles⟩ := stage_eq_ok hstage
  obtain ⟨rfl, rfl, flows, hopened⟩ := published_manifest hmanifest hstage
    (by rw [hfiles, Function.update_self]) hresult
  rw [RecordingInner.writeWebsocketExtension, if_pos (by rw [hwebsocket, hnone])] at hwrite
  obtain rfl := Except.ok.inj hwrite
  have hnotFound : findExtension session.manifest.extensions "websocket-messages" = none := by
    rw [hfinal, findExtension, List.find?_eq_none]
    intro entry hentry
    rw [decide_eq_true_eq]
    rcases hextensions with heq | heq
    · exact hfresh entry (heq ▸ hentry)
    · rw [heq] at hentry
      rcases List.mem_append.mp hentry with hold | hnew
      · exact hfresh entry hold
      · obtain rfl := List.mem_singleton.mp hnew
        decide
  rintro ⟨bytes, transcript, hread, -⟩
  rw [Session.readExtension, hnotFound] at hread
  cases hread

end

/-! ### Whether the conversation is published -/

/-- `finish` has returned a session with exactly this conversation. -/
def Published (codec : Codec) (conversation : WebSocketConversation) (world : World) : Prop :=
  ∃ session, world.finisher = .returned (.ok session) ∧
    HoldsConversations codec session [conversation]

/-- `finish` waits for the task, both come to an end, and the conversation is published exactly
when the task has read the flag for the second time before `finish` stores it. -/
theorem conversation_published_iff (codec : Codec) (conversing : Conversing)
    (inner : RecordingInner) (registry : WebSocketAccumulation) (done : List Nat)
    (schedule : List Thread) (final : World) (session : Session)
    (hregistered : conversing.finalizer ∈ inner.websocketFinalizers)
    (hpending : conversing.finalizer ∉ done)
    (hothers : ∀ other ∈ inner.websocketFinalizers, other = conversing.finalizer ∨ other ∈ done)
    (hnone : inner.websocket.conversations = [])
    (hvalid : appendWebsocketConversation inner.websocket conversing.conversation = .ok registry)
    (hpublishes : ((withConversation inner registry).finish codec).result = .ok session)
    (hmanifest : DecodesManifest codec (inner.stage codec))
    (hmanifest' : DecodesManifest codec ((withConversation inner registry).stage codec))
    (htranscript : codec.decodeTranscript (transcriptOf [conversing.conversation]).encode =
      .ok (transcriptOf [conversing.conversation]))
    (hrun : run (step codec conversing) (calledOn inner done) schedule = some final) :
    schedule.length ≤ 17 + inner.websocketFinalizers.length ∧
      (final.finisher.drained = true → conversing.finalizer ∈ final.done) ∧
      ((∀ thread, step codec conversing final thread = none) →
        (Published codec conversing.conversation final ↔
          inner.shutdown = false ∧ List.replicate 3 Thread.task <+: schedule)) := by
  have hidle : inner.activeBlobs = 0 := by
    rcases hstage : (withConversation inner registry).stage codec with error | ⟨root, manifest⟩
    · rw [RecordingInner.finish, hstage] at hpublishes
      cases hpublishes
    · exact (stage_eq_ok hstage).1
  have hconversations : registry.conversations = [conversing.conversation] := by
    obtain ⟨-, rfl⟩ := appendWebsocketConversation_eq_ok hvalid
    show inner.websocket.conversations ++ [conversing.conversation] = _
    rw [hnone]
    rfl
  have hstart : Kept codec conversing inner registry (calledOn inner done) :=
    kept_called hregistered hpending hothers
  have hkept : Kept codec conversing inner registry final := (kept_run hidle hvalid hstart hrun).1
  refine ⟨?_, fun hdrained => hkept.ended.mpr (hkept.ended_of_drained hdrained), ?_⟩
  · have hlength := schedule_length hrun
    have hleft : (calledOn inner done).left = 5 + (12 + inner.websocketFinalizers.length) := rfl
    omega
  · intro hstuck
    obtain ⟨result, answer, hended, hreturned⟩ := hkept.returned hstuck
    rw [← accepted_iff hidle hvalid hstart hrun hended]
    have hanswer : answer = ((current inner registry final.task).finish codec).result := by
      have hshape := hkept.shape
      rw [hreturned] at hshape
      exact congrArg Publication.result hshape
    obtain ⟨hholds, hfresh⟩ := holds_published hconversations (List.cons_ne_nil _ _) hmanifest'
      htranscript hpublishes
    constructor
    · rintro ⟨published, hother, hpublished⟩
      have hresult := hanswer.symm.trans (FinishPoint.returned.inj (hreturned.symm.trans hother))
      cases haccepted : final.task.accepted with
      | true => rfl
      | false =>
          rw [current, haccepted] at hresult
          exact absurd hpublished (not_holds_published hnone hfresh hmanifest hresult)
    · intro haccepted
      refine ⟨session, ?_, hholds⟩
      rw [hreturned, hanswer, current, if_pos haccepted, hpublishes]

/-! ### A lone upgrade -/

/-- An upgrade that was answered with 101. -/
def upgradeFlow : Flow :=
  { sampleFlow with
    request :=
      { method := "GET", scheme := "ws", authority := "127.0.0.1", path := "/socket", query := [],
        headers := [⟨"upgrade", "websocket"⟩], body := .absent, trailers := [] }
    outcome := .response { status := 101, headers := [], body := .absent, trailers := [] } }

def upgradeConversation : WebSocketConversation :=
  { quietConversation with flowId := "one", terminal := .abnormal "shutdown" }

def upgradeConversing : Conversing where
  finalizer := 0
  conversation := upgradeConversation

def upgradeManifest : Manifest where
  metadata := { sampleMetadata with schemaVersion := sessionSchemaVersion }
  complete := true
  flowCount := 1
  blobCount := 0
  extensions := [websocketExtension]

def upgradeManifestText : Bytes :=
  utf8 ("\x7b\n  \"schema_version\": 2,\n  \"tool_version\": \"0.1.0\",\n".toList ++
    "  \"session_id\": \"session-0\",\n  \"capture_mode\": \"forward\",\n".toList ++
    "  \"source\": null,\n  \"target\": null,\n".toList ++
    "  \"matcher_profile\": \"default\",\n".toList ++
    "  \"redaction_profile\": \"default\",\n  \"complete\": true,\n".toList ++
    "  \"flow_count\": 1,\n  \"blob_count\": 0,\n  \"extensions\": [\n".toList ++
    "    \x7b\n      \"name\": \"websocket-messages\",\n".toList ++
    "      \"schema_version\": 1,\n      \"path\": \"websockets.jsonl\",\n".toList ++
    "      \"required_for_replay\": true\n    \x7d\n  ]\n\x7d".toList)

/-- Decoders for the flow, its conversation and the manifest of a session that holds both. -/
def upgradeCodec : Codec where
  sha256Hex _ := ""
  decodeFlow bytes :=
    if bytes = upgradeFlow.encode ++ [newline] then .ok upgradeFlow else .error "unknown flow"
  encodeManifest _ := upgradeManifestText
  decodeManifest bytes :=
    if bytes = upgradeManifestText ++ [newline] then .ok upgradeManifest
    else .error "unknown manifest"
  decodeStreamEvents _ := .error "unknown stream events"
  decodeTranscript bytes :=
    if bytes = (transcriptOf [upgradeConversation]).encode then
      .ok (transcriptOf [upgradeConversation])
    else .error "unknown transcript"
  decodeRules _ := .error "unknown rules"

/-- The session after the flow was appended and the finalizer registered. -/
def upgradeInner : RecordingInner :=
  { Atomicity.logged sampleSession upgradeFlow with websocketFinalizers := [0] }

def upgradeRegistry : WebSocketAccumulation where
  conversations := [upgradeConversation]
  messages := 0
  payloadBytes := 0
  encodedBytes := upgradeConversation.encode.length + 1

/-- `finish` first, or the task until it has read the flag twice. -/
def finishFirst : List Thread :=
  [.finisher, .task, .task] ++ List.replicate 8 .finisher

def taskFirst : List Thread :=
  [.task, .task, .task, .finisher, .finisher, .task, .task] ++ List.replicate 11 .finisher

def isStuck (world : World) : Bool :=
  (step upgradeCodec upgradeConversing world .task).isNone &&
    (step upgradeCodec upgradeConversing world .finisher).isNone

theorem stuck_of_isStuck {world : World} (h : isStuck world = true) :
    ∀ thread, step upgradeCodec upgradeConversing world thread = none := by
  obtain ⟨htask, hfinisher⟩ := Bool.and_eq_true_iff.mp h
  intro thread
  cases thread with
  | task => exact Option.isNone_iff_eq_none.mp htask
  | finisher => exact Option.isNone_iff_eq_none.mp hfinisher

theorem upgrade_decodesManifest {staging : Except StoreError (Directory × Manifest)}
    (h : settle staging true (fun staged => decide (staged.2 = upgradeManifest)) = true) :
    DecodesManifest upgradeCodec staging := by
  rintro root manifest rfl
  obtain rfl := of_decide_eq_true h
  simp only [upgradeCodec, ↓reduceIte]

theorem upgrade_decodesTranscript :
    upgradeCodec.decodeTranscript (transcriptOf [upgradeConversation]).encode =
      .ok (transcriptOf [upgradeConversation]) := by
  simp only [upgradeCodec, ↓reduceIte]

theorem upgradeFlow_appended : sampleSession.appendFlow upgradeFlow =
    .ok (Atomicity.logged sampleSession upgradeFlow) := by
  rw [Atomicity.appendFlow_eq_ok]
  refine ⟨rfl, ?_, rfl, ?_, ?_, ?_, rfl⟩
  all_goals decide +kernel

/-- The session with and without the conversation, evaluated together. -/
theorem upgrade_evaluates :
    settle (upgradeInner.stage upgradeCodec) true
        (fun staged => decide (staged.2 = upgradeManifest)) = true ∧
      settle ((withConversation upgradeInner upgradeRegistry).stage upgradeCodec) true
        (fun staged => decide (staged.2 = upgradeManifest)) = true ∧
      ((withConversation upgradeInner upgradeRegistry).finish upgradeCodec).result.isOk = true ∧
      appendWebsocketConversation upgradeInner.websocket upgradeConversing.conversation =
        .ok upgradeRegistry := by
  decide +kernel

theorem upgradeInner_manifest : DecodesManifest upgradeCodec (upgradeInner.stage upgradeCodec) :=
  upgrade_decodesManifest upgrade_evaluates.1

theorem upgradeConversation_manifest : DecodesManifest upgradeCodec
    ((withConversation upgradeInner upgradeRegistry).stage upgradeCodec) :=
  upgrade_decodesManifest upgrade_evaluates.2.1

theorem upgradeConversation_publishes : ∃ session,
    ((withConversation upgradeInner upgradeRegistry).finish upgradeCodec).result = .ok session :=
  isOk_iff.mp upgrade_evaluates.2.2.1

theorem upgradeConversation_valid : appendWebsocketConversation upgradeInner.websocket
    upgradeConversing.conversation = .ok upgradeRegistry :=
  upgrade_evaluates.2.2.2

/-- The task appends before `finish` is under way, and its conversation is published. -/
theorem conversation_published_first :
    ∃ final session, run (step upgradeCodec upgradeConversing) (calledOn upgradeInner []) taskFirst =
        some final ∧
      (∀ thread, step upgradeCodec upgradeConversing final thread = none) ∧
      ((withConversation upgradeInner upgradeRegistry).finish upgradeCodec).result = .ok session ∧
      taskFirst.length ≤ 17 + upgradeInner.websocketFinalizers.length ∧
      (final.finisher.drained = true → upgradeConversing.finalizer ∈ final.done) ∧
      ((∀ thread, step upgradeCodec upgradeConversing final thread = none) →
        (Published upgradeCodec upgradeConversation final ↔
          upgradeInner.shutdown = false ∧ List.replicate 3 Thread.task <+: taskFirst)) := by
  obtain ⟨session, hpublishes⟩ := upgradeConversation_publishes
  obtain ⟨final, hrun, hfinal⟩ := (Option.any_eq_true isStuck
    (run (step upgradeCodec upgradeConversing) (calledOn upgradeInner []) taskFirst)).mp
      (by decide +kernel)
  exact ⟨final, session, hrun, stuck_of_isStuck hfinal, hpublishes, conversation_published_iff
    upgradeCodec upgradeConversing upgradeInner upgradeRegistry [] taskFirst final session
    (List.mem_singleton.mpr rfl) List.not_mem_nil
    (fun other hother => .inl (List.mem_singleton.mp hother)) rfl upgradeConversation_valid
    hpublishes upgradeInner_manifest upgradeConversation_manifest upgrade_decodesTranscript hrun⟩

/-- A `finish` that has returned an error. -/
def hasFailed : FinishPoint → Bool
  | .returned result => !result.isOk
  | _ => false

/-- `finish` sets the flag first, so that the conversation it waits for is refused and the
upgrade is left without its transcript. -/
theorem awaited_conversation_lost :
    ¬ ∀ (codec : Codec) (conversing : Conversing) (before flowed inner : RecordingInner)
      (flow : Flow) (registry : WebSocketAccumulation) (schedule : List Thread) (final : World)
      (session : Session),
      before.appendFlow flow = .ok flowed →
      websocket101 flow = true →
      flowed.registerFinalizer conversing.finalizer = .ok inner →
      conversing.conversation.flowId = flow.id →
      inner.websocketFinalizers = [conversing.finalizer] →
      inner.websocket.conversations = [] →
      appendWebsocketConversation inner.websocket conversing.conversation = .ok registry →
      ((withConversation inner registry).finish codec).result = .ok session →
      DecodesManifest codec (inner.stage codec) →
      DecodesManifest codec ((withConversation inner registry).stage codec) →
      codec.decodeTranscript (transcriptOf [conversing.conversation]).encode =
        .ok (transcriptOf [conversing.conversation]) →
      run (step codec conversing) (calledOn inner []) schedule = some final →
      (∀ thread, step codec conversing final thread = none) →
      Published codec conversing.conversation final := by
  intro h
  obtain ⟨session, hpublishes⟩ := upgradeConversation_publishes
  obtain ⟨final, hrun, hfinal⟩ := (Option.any_eq_true
    (fun world => isStuck world && hasFailed world.finisher)
    (run (step upgradeCodec upgradeConversing) (calledOn upgradeInner []) finishFirst)).mp
      (by decide +kernel)
  obtain ⟨hstuck, hfails⟩ := Bool.and_eq_true_iff.mp hfinal
  obtain ⟨published, hreturned, -⟩ := h upgradeCodec upgradeConversing
    sampleSession (Atomicity.logged sampleSession upgradeFlow) upgradeInner upgradeFlow
    upgradeRegistry finishFirst final session upgradeFlow_appended (by decide +kernel) rfl rfl rfl rfl
    upgradeConversation_valid hpublishes upgradeInner_manifest upgradeConversation_manifest
    upgrade_decodesTranscript hrun (stuck_of_isStuck hstuck)
  rw [hreturned] at hfails
  cases hfails

end EggReplay.Http.ConversationDrain
