import EggReplay.Cli.ReportedVerdicts
import EggReplay.Core.TimelineOrder
import EggReplay.Library.Phases
import EggReplay.Library.TransitionSystem

/-!
The loop of the timeline scheduler: a window of spawned tasks that sleep until their offset,
compare their flow and end in any order, while the loop fills the window, joins what has ended
and writes the reports back.
-/

namespace EggReplay.Cli.TimelineRuns

open EggReplay.Core.FlowRecord
open EggReplay.Core.Reports
open EggReplay.Core.StreamTimeline
open EggReplay.Core.TimelineOrder
open EggReplay.Cli.ReportedVerdicts
open EggReplay.Library.Checks
open EggReplay.Library.Phases
open EggReplay.Library.TransitionSystem

/-! ### Tasks -/

/-- How a task ends: with a panic, with the error of its comparison, or with a report. -/
abbrev Outcome := Except String (Except String RegressionReport)

def failureOf : Outcome → Option Failure
  | .error panic => some (runtimeFailure ("timeline task failed: " ++ panic))
  | .ok (.error error) => some (runtimeFailure error)
  | .ok (.ok _) => none

def reportOf : Outcome → Option RegressionReport
  | .ok (.ok report) => some report
  | .ok (.error _) | .error _ => none

inductive Phase where
  | unspawned
  | sleeping
  | comparing
  | finished (outcome : Outcome)
  | joined (outcome : Outcome)

namespace Phase

/-- The task is in the join set. -/
def alive : Phase → Bool
  | .sleeping | .comparing | .finished _ => true
  | .unspawned | .joined _ => false

def begun : Phase → Bool
  | .comparing | .finished _ | .joined _ => true
  | .unspawned | .sleeping => false

/-- How many steps are left to the task. -/
def rank : Phase → Nat
  | .unspawned => 4
  | .sleeping => 3
  | .comparing => 2
  | .finished _ => 1
  | .joined _ => 0

def report : Phase → Option RegressionReport
  | .joined outcome => reportOf outcome
  | .unspawned | .sleeping | .comparing | .finished _ => none

end Phase

/-! ### The loop -/

inductive LoopPoint where
  | filling
  | joining
  | returned (result : Except Failure (List (Option RegressionReport)))

/-- What is fixed when the loop begins. -/
structure Schedule where
  offsets : List Nat
  order : List Nat
  maxConcurrency : Nat
  origin : Nat

/-- The task of a flow stands at the place of the flow. `spawned` and `started` tell what has
happened so far: the flows in the order in which their tasks were spawned, and the moments at
which comparisons have started. -/
structure LoopState where
  clock : Nat
  next : Nat
  tasks : List Phase
  reports : List (Option RegressionReport)
  point : LoopPoint
  spawned : List Nat
  started : List (Nat × Nat)

/-- `tasks.len()` -/
def LoopState.live (s : LoopState) : Nat := s.tasks.countP Phase.alive

/-- The head of the outer loop. -/
def loopHead (schedule : Schedule) (s : LoopState) : LoopState :=
  { s with
    point :=
      if s.next < schedule.order.length ∨ s.live ≠ 0 then .filling
      else .returned (.ok s.reports) }

def spawnNext (schedule : Schedule) (s : LoopState) : Option LoopState :=
  match s.point, schedule.order[s.next]? with
  | .filling, some index =>
      if s.live < schedule.maxConcurrency then
        some { s with
          next := s.next + 1
          tasks := s.tasks.set index .sleeping
          spawned := s.spawned ++ [index] }
      else none
  | _, _ => none

/-- The window is full, or no flow is left. -/
def stopFilling (schedule : Schedule) (s : LoopState) : Option LoopState :=
  match s.point with
  | .filling =>
      if s.next < schedule.order.length ∧ s.live < schedule.maxConcurrency then none
      else some { s with point := .joining }
  | .joining | .returned _ => none

/-- `sleep_until` has returned. -/
def wake (schedule : Schedule) (s : LoopState) (index : Nat) : Option LoopState :=
  match s.tasks[index]? with
  | some .sleeping =>
      if schedule.origin + schedule.offsets.getD index 0 ≤ s.clock then
        some { s with
          tasks := s.tasks.set index .comparing
          started := s.started ++ [(index, s.clock)] }
      else none
  | _ => none

def finishTask (s : LoopState) (index : Nat) (outcome : Outcome) : Option LoopState :=
  match s.tasks[index]? with
  | some .comparing => some { s with tasks := s.tasks.set index (.finished outcome) }
  | _ => none

/-- A failure ends the loop; a report is written back. -/
def afterJoin (schedule : Schedule) (s : LoopState) (index : Nat) (outcome : Outcome) :
    LoopState :=
  match failureOf outcome with
  | some failure =>
      { s with
        tasks := s.tasks.set index (.joined outcome)
        point := .returned (.error failure) }
  | none =>
      loopHead schedule { s with
        tasks := s.tasks.set index (.joined outcome)
        reports := s.reports.set index (reportOf outcome) }

/-- `join_next` gives any task that has ended. -/
def joinNext (schedule : Schedule) (s : LoopState) (index : Nat) : Option LoopState :=
  match s.point, s.tasks[index]? with
  | .joining, some (.finished outcome) => some (afterJoin schedule s index outcome)
  | _, _ => none

/-- `join_next` on an empty set gives nothing. -/
def joinNone (schedule : Schedule) (s : LoopState) : Option LoopState :=
  match s.point with
  | .joining => if s.live = 0 then some (loopHead schedule s) else none
  | .filling | .returned _ => none

inductive Action where
  | tick (elapsed : Nat)
  | spawn
  | fill
  | wake (index : Nat)
  | finish (index : Nat) (outcome : Outcome)
  | join (index : Nat)
  | joinNone

/-- The loop and its tasks step in any order while time passes. A task that has been aborted
takes no step. -/
def step (schedule : Schedule) (s : LoopState) : Action → Option LoopState
  | .tick elapsed => some { s with clock := s.clock + elapsed }
  | .spawn => spawnNext schedule s
  | .fill => stopFilling schedule s
  | .wake index => wake schedule s index
  | .finish index outcome => finishTask s index outcome
  | .join index => joinNext schedule s index
  | .joinNone => joinNone schedule s

/-- The loop, once the offsets are accepted. -/
def beginLoop (schedule : Schedule) : LoopState :=
  loopHead schedule
    { clock := schedule.origin
      next := 0
      tasks := List.replicate schedule.offsets.length .unspawned
      reports := List.replicate schedule.offsets.length none
      point := .filling
      spawned := []
      started := [] }

def planTimeline (offsets : List Nat) (maxConcurrency origin : Nat) :
    Except Failure Schedule := do
  let order ← (timelineOrderOffsets offsets maxConcurrency).mapError fun error =>
    ("configuration", error)
  pure { offsets, order, maxConcurrency, origin }

variable {schedule : Schedule} {s next final : LoopState} {index : Nat} {outcome : Outcome}
  {actions : List Action}

theorem planTimeline_eq_ok {offsets : List Nat} {maxConcurrency origin : Nat} :
    planTimeline offsets maxConcurrency origin = .ok schedule ↔
      ∃ order, timelineOrderOffsets offsets maxConcurrency = .ok order ∧
        { offsets, order, maxConcurrency, origin } = schedule := by
  simp only [planTimeline, bind_eq_ok, mapError_eq_ok, pure_eq_ok]

/-! ### What each step can do -/

theorem spawnNext_eq_some :
    spawnNext schedule s = some next ↔
      ∃ index, s.point = .filling ∧ schedule.order[s.next]? = some index ∧
        s.live < schedule.maxConcurrency ∧
        { s with
          next := s.next + 1
          tasks := s.tasks.set index .sleeping
          spawned := s.spawned ++ [index] } = next := by
  unfold spawnNext
  constructor
  · intro h
    split at h
    · rename_i index hpoint hindex
      split at h
      · rename_i hlive
        exact ⟨index, hpoint, hindex, hlive, Option.some.inj h⟩
      · cases h
    · cases h
  · rintro ⟨index, hpoint, hindex, hlive, rfl⟩
    rw [hpoint, hindex]
    exact if_pos hlive

theorem stopFilling_eq_some :
    stopFilling schedule s = some next ↔
      s.point = .filling ∧
        ¬(s.next < schedule.order.length ∧ s.live < schedule.maxConcurrency) ∧
        { s with point := .joining } = next := by
  unfold stopFilling
  constructor
  · intro h
    split at h
    · rename_i hpoint
      split at h
      · cases h
      · rename_i hfull
        exact ⟨hpoint, hfull, Option.some.inj h⟩
    · cases h
    · cases h
  · rintro ⟨hpoint, hfull, rfl⟩
    rw [hpoint]
    exact if_neg hfull

theorem wake_eq_some :
    wake schedule s index = some next ↔
      s.tasks[index]? = some .sleeping ∧
        schedule.origin + schedule.offsets.getD index 0 ≤ s.clock ∧
        { s with
          tasks := s.tasks.set index .comparing
          started := s.started ++ [(index, s.clock)] } = next := by
  unfold wake
  constructor
  · intro h
    split at h
    · rename_i hphase
      split at h
      · rename_i htime
        exact ⟨hphase, htime, Option.some.inj h⟩
      · cases h
    · cases h
  · rintro ⟨hphase, htime, rfl⟩
    rw [hphase]
    exact if_pos htime

theorem finishTask_eq_some :
    finishTask s index outcome = some next ↔
      s.tasks[index]? = some .comparing ∧
        { s with tasks := s.tasks.set index (.finished outcome) } = next := by
  unfold finishTask
  constructor
  · intro h
    split at h
    · rename_i hphase
      exact ⟨hphase, Option.some.inj h⟩
    · cases h
  · rintro ⟨hphase, rfl⟩
    rw [hphase]

theorem joinNext_eq_some :
    joinNext schedule s index = some next ↔
      ∃ outcome, s.point = .joining ∧ s.tasks[index]? = some (.finished outcome) ∧
        afterJoin schedule s index outcome = next := by
  unfold joinNext
  constructor
  · intro h
    split at h
    · rename_i outcome hpoint hphase
      exact ⟨outcome, hpoint, hphase, Option.some.inj h⟩
    · cases h
  · rintro ⟨outcome, hpoint, hphase, rfl⟩
    rw [hpoint, hphase]

theorem joinNone_eq_some :
    joinNone schedule s = some next ↔
      s.point = .joining ∧ s.live = 0 ∧ loopHead schedule s = next := by
  unfold joinNone
  constructor
  · intro h
    split at h
    · rename_i hpoint
      split at h
      · rename_i hlive
        exact ⟨hpoint, hlive, Option.some.inj h⟩
      · cases h
    · cases h
    · cases h
  · rintro ⟨hpoint, hlive, rfl⟩
    rw [hpoint]
    exact if_pos hlive

/-! ### The tasks -/

/-- What a plan has settled. -/
structure Planned (schedule : Schedule) : Prop where
  perm : schedule.order.Perm (List.range schedule.offsets.length)
  sorted : schedule.order.Pairwise fun left right => before schedule.offsets left right = true
  window_pos : 0 < schedule.maxConcurrency

theorem planned_of_plan {offsets : List Nat} {maxConcurrency origin : Nat}
    (h : planTimeline offsets maxConcurrency origin = .ok schedule) : Planned schedule := by
  obtain ⟨order, horder, rfl⟩ := planTimeline_eq_ok.mp h
  exact ⟨order_perm horder, order_sorted horder, (timelineOrderOffsets_eq_ok.mp horder).1.1⟩

theorem Planned.nodup (h : Planned schedule) : schedule.order.Nodup :=
  h.perm.nodup_iff.mpr List.nodup_range

theorem Planned.mem_order (h : Planned schedule) :
    index ∈ schedule.order ↔ index < schedule.offsets.length := by
  rw [h.perm.mem_iff, List.mem_range]

/-- What holds of the tasks whatever the loop does. -/
structure Kept (schedule : Schedule) (s : LoopState) : Prop where
  length : s.tasks.length = schedule.offsets.length
  reports : s.reports = s.tasks.map Phase.report
  spawned : s.spawned = schedule.order.take s.next
  live : s.live ≤ schedule.maxConcurrency
  unspawned : ∀ index phase, s.tasks[index]? = some phase →
    (phase = .unspawned ↔ index ∉ s.spawned)
  begun : ∀ index phase, s.tasks[index]? = some phase →
    (phase.begun = true ↔ index ∈ s.started.map Prod.fst)
  nodup : (s.started.map Prod.fst).Nodup
  on_time : ∀ start ∈ s.started, start.1 < schedule.offsets.length ∧
    schedule.origin + schedule.offsets.getD start.1 0 ≤ start.2

theorem kept_loopHead : Kept schedule (loopHead schedule s) ↔ Kept schedule s :=
  ⟨fun h => ⟨h.length, h.reports, h.spawned, h.live, h.unspawned, h.begun, h.nodup, h.on_time⟩,
    fun h => ⟨h.length, h.reports, h.spawned, h.live, h.unspawned, h.begun, h.nodup, h.on_time⟩⟩

/-- Every phase but one stays. -/
theorem phase_set {phases : List Phase} {old new phase : Phase} {other : Nat}
    (hold : phases[index]? = some old) (h : (phases.set index new)[other]? = some phase) :
    (other = index ∧ phase = new) ∨ (other ≠ index ∧ phases[other]? = some phase) := by
  by_cases heq : other = index
  · subst heq
    rw [getElem?_set_same hold] at h
    exact .inl ⟨rfl, (Option.some.inj h).symm⟩
  · rw [List.getElem?_set_ne (Ne.symm heq)] at h
    exact .inr ⟨heq, h⟩

theorem live_set {old : Phase} (new : Phase) (hold : s.tasks[index]? = some old) :
    (s.tasks.set index new).countP Phase.alive + old.alive.toNat =
      s.live + new.alive.toNat :=
  countP_set Phase.alive hold

theorem map_report_set {phases : List Phase} {old : Phase} (new : Phase)
    (hold : phases[index]? = some old) (hreport : new.report = old.report) :
    (phases.set index new).map Phase.report = phases.map Phase.report := by
  obtain ⟨hlt, heq⟩ := List.getElem?_eq_some_iff.mp hold
  have hlt' : index < (phases.map Phase.report).length := by rwa [List.length_map]
  have hself : (phases.map Phase.report)[index] = old.report := by rw [List.getElem_map, heq]
  rw [List.map_set, hreport, ← hself]
  exact List.set_getElem_self _

theorem kept_begin : Kept schedule (beginLoop schedule) := by
  refine kept_loopHead.mpr
    { length := List.length_replicate
      reports := ?_
      spawned := rfl
      live := ?_
      unspawned := ?_
      begun := ?_
      nodup := List.nodup_nil
      on_time := fun start hstart => absurd hstart List.not_mem_nil }
  · rw [List.map_replicate]
    rfl
  · rw [LoopState.live, List.countP_replicate]
    exact Nat.zero_le _
  · intro index phase hphase
    obtain rfl := List.eq_of_mem_replicate (List.mem_of_getElem? hphase)
    exact ⟨fun _ => List.not_mem_nil, fun _ => rfl⟩
  · intro index phase hphase
    obtain rfl := List.eq_of_mem_replicate (List.mem_of_getElem? hphase)
    exact ⟨(by rintro ⟨⟩), fun h => absurd h List.not_mem_nil⟩

/-- The next flow has no task yet. -/
theorem Kept.next_unspawned (hplanned : Planned schedule) (h : Kept schedule s)
    (hindex : schedule.order[s.next]? = some index) :
    s.tasks[index]? = some .unspawned ∧ index ∉ s.spawned := by
  have hlt : index < s.tasks.length := by
    rw [h.length, ← hplanned.mem_order]
    exact List.mem_of_getElem? hindex
  have hfresh : index ∉ s.spawned := by
    rw [h.spawned]
    intro hmem
    obtain ⟨place, hplace, heq⟩ := List.mem_take_iff_getElem.mp hmem
    obtain ⟨hnext, hat⟩ := List.getElem?_eq_some_iff.mp hindex
    have hsame := (List.Nodup.getElem_inj_iff hplanned.nodup).mp (heq.trans hat.symm)
    omega
  have hphase : s.tasks[index]? = some (s.tasks[index]) := List.getElem?_eq_getElem hlt
  rw [(h.unspawned index _ hphase).mpr hfresh] at hphase
  exact ⟨hphase, hfresh⟩

theorem kept_spawn (hplanned : Planned schedule) (h : Kept schedule s)
    (hstep : spawnNext schedule s = some next) : Kept schedule next := by
  obtain ⟨index, -, hindex, hlive, rfl⟩ := spawnNext_eq_some.mp hstep
  obtain ⟨hphase, hfresh⟩ := h.next_unspawned hplanned hindex
  have hcount := live_set .sleeping hphase
  exact
    { length := by rw [List.length_set, h.length]
      reports := h.reports.trans (map_report_set .sleeping hphase rfl).symm
      spawned := by
        rw [List.take_add_one, hindex, h.spawned]
        rfl
      live := by
        simp only [Phase.alive, Bool.toNat_false, Bool.toNat_true] at hcount
        rw [LoopState.live]
        dsimp only
        omega
      unspawned := by
        intro other phase hother
        rw [List.mem_append, List.mem_singleton]
        rcases phase_set hphase hother with ⟨rfl, rfl⟩ | ⟨hne, hother⟩
        · exact ⟨(by rintro ⟨⟩), fun hmem => absurd (.inr rfl) hmem⟩
        · rw [h.unspawned other phase hother]
          exact ⟨fun hmem => not_or.mpr ⟨hmem, hne⟩, fun hmem => (not_or.mp hmem).1⟩
      begun := by
        intro other phase hother
        rcases phase_set hphase hother with ⟨rfl, rfl⟩ | ⟨hne, hother⟩
        · exact h.begun other .unspawned hphase
        · exact h.begun other phase hother
      nodup := h.nodup
      on_time := h.on_time }

theorem kept_wake (h : Kept schedule s) (hstep : wake schedule s index = some next) :
    Kept schedule next := by
  obtain ⟨hphase, htime, rfl⟩ := wake_eq_some.mp hstep
  have hcount := live_set .comparing hphase
  have hfresh : index ∉ s.started.map Prod.fst := by
    rw [← h.begun index .sleeping hphase]
    exact Bool.false_ne_true
  exact
    { length := by rw [List.length_set, h.length]
      reports := h.reports.trans (map_report_set .comparing hphase rfl).symm
      spawned := h.spawned
      live := by
        rw [LoopState.live, Nat.add_right_cancel hcount]
        exact h.live
      unspawned := by
        intro other phase hother
        rcases phase_set hphase hother with ⟨rfl, rfl⟩ | ⟨hne, hother⟩
        · rw [← h.unspawned other .sleeping hphase]
          exact ⟨(by rintro ⟨⟩), (by rintro ⟨⟩)⟩
        · exact h.unspawned other phase hother
      begun := by
        intro other phase hother
        rw [List.map_append, List.mem_append]
        rcases phase_set hphase hother with ⟨rfl, rfl⟩ | ⟨hne, hother⟩
        · exact ⟨fun _ => .inr (List.mem_singleton.mpr rfl), fun _ => rfl⟩
        · rw [h.begun other phase hother]
          exact ⟨.inl, fun hmem => hmem.resolve_right fun h => hne (List.mem_singleton.mp h)⟩
      nodup := by
        rw [List.map_append, List.nodup_append]
        refine ⟨h.nodup, List.nodup_singleton _, ?_⟩
        rintro started hstarted _ hlast rfl
        obtain rfl : started = index := List.mem_singleton.mp hlast
        exact hfresh hstarted
      on_time := by
        intro start hstart
        rw [List.mem_append, List.mem_singleton] at hstart
        rcases hstart with hstart | rfl
        · exact h.on_time start hstart
        · exact ⟨h.length ▸ lt_length hphase, htime⟩ }

/-- A task that moves on after its comparison has started. -/
theorem Kept.move {old new : Phase} (h : Kept schedule s) (hphase : s.tasks[index]? = some old)
    (hold : old.begun = true) (hnew : new.begun = true) (hlive : new.alive = true → old.alive = true)
    {reports : List (Option RegressionReport)}
    (hreports : reports = (s.tasks.set index new).map Phase.report) {point : LoopPoint} :
    Kept schedule { s with tasks := s.tasks.set index new, reports, point } where
  length := by rw [List.length_set, h.length]
  reports := hreports
  spawned := h.spawned
  live := by
    have hcount := live_set new hphase
    have hle : new.alive.toNat ≤ old.alive.toNat := Bool.toNat_le_toNat hlive
    have hbefore := h.live
    rw [LoopState.live]
    dsimp only
    omega
  unspawned := by
    intro other phase hother
    rcases phase_set hphase hother with ⟨rfl, rfl⟩ | ⟨hne, hother⟩
    · rw [← h.unspawned other old hphase]
      constructor
      · rintro rfl
        cases hnew
      · rintro rfl
        cases hold
    · exact h.unspawned other phase hother
  begun := by
    intro other phase hother
    rcases phase_set hphase hother with ⟨rfl, rfl⟩ | ⟨hne, hother⟩
    · rw [← h.begun other old hphase, hnew, hold]
    · exact h.begun other phase hother
  nodup := h.nodup
  on_time := h.on_time

theorem kept_finish (h : Kept schedule s) (hstep : finishTask s index outcome = some next) :
    Kept schedule next := by
  obtain ⟨hphase, rfl⟩ := finishTask_eq_some.mp hstep
  refine h.move hphase rfl rfl (fun _ => rfl) ?_
  exact h.reports.trans (map_report_set (.finished outcome) hphase rfl).symm

theorem kept_join (h : Kept schedule s) (hstep : joinNext schedule s index = some next) :
    Kept schedule next := by
  obtain ⟨outcome, -, hphase, rfl⟩ := joinNext_eq_some.mp hstep
  unfold afterJoin
  cases hfailure : failureOf outcome with
  | some failure =>
      refine h.move hphase rfl rfl (by rintro ⟨⟩) ?_
      have hreport : reportOf outcome = none := by
        rcases outcome with _ | (_ | _)
        · rfl
        · rfl
        · cases hfailure
      exact h.reports.trans (map_report_set (.joined outcome) hphase hreport).symm
  | none =>
      refine kept_loopHead.mpr (h.move hphase rfl rfl (by rintro ⟨⟩) ?_)
      rw [List.map_set, h.reports]
      rfl

theorem kept_step {action : Action} (hplanned : Planned schedule) (h : Kept schedule s)
    (hstep : step schedule s action = some next) : Kept schedule next := by
  cases action with
  | tick elapsed =>
      obtain rfl := Option.some.inj hstep
      exact ⟨h.length, h.reports, h.spawned, h.live, h.unspawned, h.begun, h.nodup, h.on_time⟩
  | spawn => exact kept_spawn hplanned h hstep
  | fill =>
      obtain ⟨-, -, rfl⟩ := stopFilling_eq_some.mp hstep
      exact ⟨h.length, h.reports, h.spawned, h.live, h.unspawned, h.begun, h.nodup, h.on_time⟩
  | wake index => exact kept_wake h hstep
  | finish index outcome => exact kept_finish h hstep
  | join index => exact kept_join h hstep
  | joinNone =>
      obtain ⟨-, -, rfl⟩ := joinNone_eq_some.mp hstep
      exact kept_loopHead.mpr h

/-! ### The loop and its end -/

/-- No task that failed has been joined. -/
def Clean (tasks : List Phase) : Prop :=
  ∀ (index : Nat) outcome, tasks[index]? = some (.joined outcome) → failureOf outcome = none

/-- What holds at each point of the loop. -/
def Pointed (schedule : Schedule) (s : LoopState) : Prop :=
  match s.point with
  | .filling => (s.next < schedule.order.length ∨ s.live ≠ 0) ∧ Clean s.tasks
  | .joining => s.live ≠ 0 ∧ Clean s.tasks
  | .returned (.ok reports) =>
      reports = s.reports ∧ schedule.order.length ≤ s.next ∧ s.live = 0 ∧ Clean s.tasks
  | .returned (.error failure) =>
      ∃ (index : Nat) (outcome : Outcome), s.tasks[index]? = some (.joined outcome) ∧
        failureOf outcome = some failure

theorem pointed_loopHead (h : Clean s.tasks) : Pointed schedule (loopHead schedule s) := by
  unfold loopHead Pointed
  by_cases hmore : s.next < schedule.order.length ∨ s.live ≠ 0
  · rw [if_pos hmore]
    exact ⟨hmore, h⟩
  · rw [if_neg hmore]
    rw [not_or, not_lt, not_not] at hmore
    exact ⟨rfl, hmore.1, hmore.2, h⟩

theorem pointed_begin : Pointed schedule (beginLoop schedule) := by
  apply pointed_loopHead
  intro index outcome hphase
  cases List.eq_of_mem_replicate (List.mem_of_getElem? hphase)

theorem live_ne_zero {phase : Phase} (hphase : s.tasks[index]? = some phase)
    (halive : phase.alive = true) : s.live ≠ 0 :=
  Nat.pos_iff_ne_zero.mp
    (List.countP_pos_iff.mpr ⟨phase, List.mem_of_getElem? hphase, halive⟩)

theorem exists_alive (h : s.live ≠ 0) :
    ∃ (index : Nat) (phase : Phase), s.tasks[index]? = some phase ∧ phase.alive = true := by
  obtain ⟨phase, hmem, halive⟩ := List.countP_pos_iff.mp (Nat.pos_iff_ne_zero.mpr h)
  obtain ⟨index, hphase⟩ := List.getElem?_of_mem hmem
  exact ⟨index, phase, hphase, halive⟩

theorem Clean.set {tasks : List Phase} {old new : Phase} (h : Clean tasks)
    (hphase : tasks[index]? = some old)
    (hnew : ∀ outcome, new = .joined outcome → failureOf outcome = none) :
    Clean (tasks.set index new) := by
  intro other outcome hother
  rcases phase_set hphase hother with ⟨-, heq⟩ | ⟨-, hother⟩
  · exact hnew outcome heq.symm
  · exact h other outcome hother

/-- A task of the join set moves on and stays in it. -/
theorem Pointed.move {old new : Phase} (h : Pointed schedule s)
    (hphase : s.tasks[index]? = some old) (hold : old.alive = true) (hnew : new.alive = true)
    {started : List (Nat × Nat)} :
    Pointed schedule { s with tasks := s.tasks.set index new, started } := by
  have hmoved : (s.tasks.set index new)[index]? = some new := getElem?_set_same hphase
  have hlive : (s.tasks.set index new).countP Phase.alive ≠ 0 :=
    Nat.pos_iff_ne_zero.mp
      (List.countP_pos_iff.mpr ⟨new, List.mem_of_getElem? hmoved, hnew⟩)
  have hclean : Clean s.tasks → Clean (s.tasks.set index new) := by
    intro hclean
    apply hclean.set hphase
    rintro outcome rfl
    cases hnew
  unfold Pointed at h ⊢
  dsimp only at h ⊢
  cases hpoint : s.point with
  | filling =>
      rw [hpoint] at h
      exact ⟨.inr hlive, hclean h.2⟩
  | joining =>
      rw [hpoint] at h
      exact ⟨hlive, hclean h.2⟩
  | returned result =>
      rw [hpoint] at h
      cases result with
      | ok reports => exact absurd h.2.2.1 (live_ne_zero hphase hold)
      | error failure =>
          obtain ⟨other, outcome, hother, hfailure⟩ := h
          refine ⟨other, outcome, ?_, hfailure⟩
          rw [List.getElem?_set_ne]
          · exact hother
          · rintro rfl
            rw [hphase] at hother
            cases hother
            cases hold

theorem pointed_step {action : Action} (hplanned : Planned schedule) (h : Pointed schedule s)
    (hkept : Kept schedule s) (hstep : step schedule s action = some next) :
    Pointed schedule next := by
  cases action with
  | tick elapsed =>
      obtain rfl := Option.some.inj hstep
      exact h
  | spawn =>
      obtain ⟨index, hpoint, hindex, -, rfl⟩ := spawnNext_eq_some.mp hstep
      obtain ⟨hphase, -⟩ := hkept.next_unspawned hplanned hindex
      unfold Pointed at h ⊢
      rw [hpoint] at h ⊢
      refine ⟨.inr ?_, h.2.set hphase (by rintro outcome ⟨⟩)⟩
      have hmoved : (s.tasks.set index .sleeping)[index]? = some .sleeping :=
        getElem?_set_same hphase
      exact Nat.pos_iff_ne_zero.mp
        (List.countP_pos_iff.mpr ⟨.sleeping, List.mem_of_getElem? hmoved, rfl⟩)
  | fill =>
      obtain ⟨hpoint, hfull, rfl⟩ := stopFilling_eq_some.mp hstep
      unfold Pointed at h ⊢
      rw [hpoint] at h
      refine ⟨fun hempty => ?_, h.2⟩
      have hempty : s.live = 0 := hempty
      have hmore : s.next < schedule.order.length := h.1.resolve_right fun hne => hne hempty
      exact hfull ⟨hmore, hempty ▸ hplanned.window_pos⟩
  | wake index =>
      obtain ⟨hphase, -, rfl⟩ := wake_eq_some.mp hstep
      exact h.move hphase rfl rfl
  | finish index outcome =>
      obtain ⟨hphase, rfl⟩ := finishTask_eq_some.mp hstep
      exact h.move hphase rfl rfl
  | join index =>
      obtain ⟨outcome, hpoint, hphase, rfl⟩ := joinNext_eq_some.mp hstep
      unfold Pointed at h
      rw [hpoint] at h
      unfold afterJoin
      cases hfailure : failureOf outcome with
      | some failure => exact ⟨index, outcome, getElem?_set_same hphase, hfailure⟩
      | none =>
          apply pointed_loopHead
          apply h.2.set hphase
          rintro _ ⟨⟩
          exact hfailure
  | joinNone =>
      obtain ⟨hpoint, hlive, rfl⟩ := joinNone_eq_some.mp hstep
      unfold Pointed at h
      rw [hpoint] at h
      exact absurd hlive h.1

/-! ### Termination -/

/-- Everything but the passing of time. -/
def Action.advances : Action → Bool
  | .tick _ => false
  | .spawn | .fill | .wake _ | .finish _ _ | .join _ | .joinNone => true

/-- What the loop itself does. -/
def Action.ofLoop : Action → Bool
  | .spawn | .fill | .join _ | .joinNone => true
  | .tick _ | .wake _ | .finish _ _ => false

def LoopPoint.weight : LoopPoint → Nat
  | .filling => 1
  | .joining | .returned _ => 0

/-- How many steps are left at most. -/
def remaining (s : LoopState) : Nat := 2 * total Phase.rank s.tasks + s.point.weight

theorem remaining_loopHead :
    remaining (loopHead schedule s) ≤ 2 * total Phase.rank s.tasks + 1 := by
  unfold remaining loopHead
  apply Nat.add_le_add_left
  dsimp only
  split
  · exact Nat.le_refl 1
  · exact Nat.zero_le 1

theorem remaining_step {action : Action} (hplanned : Planned schedule)
    (h : Pointed schedule s) (hkept : Kept schedule s)
    (hstep : step schedule s action = some next) :
    remaining next + action.advances.toNat ≤ remaining s := by
  cases action with
  | tick elapsed =>
      obtain rfl := Option.some.inj hstep
      exact Nat.le_refl _
  | spawn =>
      obtain ⟨index, hpoint, hindex, -, rfl⟩ := spawnNext_eq_some.mp hstep
      have hrank := total_set Phase.rank .sleeping (hkept.next_unspawned hplanned hindex).1
      simp only [remaining, Action.advances, Bool.toNat_true, Phase.rank] at hrank ⊢
      omega
  | fill =>
      obtain ⟨hpoint, -, rfl⟩ := stopFilling_eq_some.mp hstep
      simp only [remaining, hpoint, LoopPoint.weight, Action.advances, Bool.toNat_true]
      omega
  | wake index =>
      obtain ⟨hphase, -, rfl⟩ := wake_eq_some.mp hstep
      have hrank := total_set Phase.rank .comparing hphase
      simp only [remaining, Action.advances, Bool.toNat_true, Phase.rank] at hrank ⊢
      omega
  | finish index outcome =>
      obtain ⟨hphase, rfl⟩ := finishTask_eq_some.mp hstep
      have hrank := total_set Phase.rank (.finished outcome) hphase
      simp only [remaining, Action.advances, Bool.toNat_true, Phase.rank] at hrank ⊢
      omega
  | join index =>
      obtain ⟨outcome, hpoint, hphase, rfl⟩ := joinNext_eq_some.mp hstep
      have hrank : total Phase.rank (s.tasks.set index (.joined outcome)) + 1 =
          total Phase.rank s.tasks + 0 := total_set Phase.rank (.joined outcome) hphase
      have hbefore : remaining s = 2 * total Phase.rank s.tasks := by
        rw [remaining, hpoint]
        rfl
      rw [hbefore]
      unfold afterJoin
      cases hfailure : failureOf outcome with
      | some failure =>
          simp only [remaining, LoopPoint.weight, Action.advances, Bool.toNat_true]
          omega
      | none =>
          have hhead : remaining (loopHead schedule
              { s with
                tasks := s.tasks.set index (.joined outcome)
                reports := s.reports.set index (reportOf outcome) }) ≤
              2 * total Phase.rank (s.tasks.set index (.joined outcome)) + 1 := remaining_loopHead
          simp only [Action.advances, Bool.toNat_true]
          omega
  | joinNone =>
      obtain ⟨hpoint, hlive, rfl⟩ := joinNone_eq_some.mp hstep
      unfold Pointed at h
      rw [hpoint] at h
      exact absurd hlive h.1

theorem remaining_begin : remaining (beginLoop schedule) ≤ 8 * schedule.offsets.length + 1 := by
  have htotal : total Phase.rank (List.replicate schedule.offsets.length .unspawned) =
      schedule.offsets.length * 4 := by
    rw [total, List.map_replicate, List.sum_replicate]
    rfl
  have hhead : remaining (beginLoop schedule) ≤ 2 * total Phase.rank _ + 1 := remaining_loopHead
  rw [htotal] at hhead
  omega

/-- The loop waits for nothing but tasks that have not ended. -/
theorem loop_advances (h : Pointed schedule s)
    (hrunning : ∀ result, s.point ≠ .returned result)
    (hended : ∀ phase ∈ s.tasks, phase ≠ .sleeping ∧ phase ≠ .comparing) :
    ∃ action, action.ofLoop = true ∧ (step schedule s action).isSome = true := by
  unfold Pointed at h
  cases hpoint : s.point with
  | filling =>
      by_cases hroom : s.next < schedule.order.length ∧ s.live < schedule.maxConcurrency
      · refine ⟨.spawn, rfl, ?_⟩
        have hspawned : spawnNext schedule s = some _ :=
          spawnNext_eq_some.mpr ⟨_, hpoint, List.getElem?_eq_getElem hroom.1, hroom.2, rfl⟩
        rw [step, hspawned]
        rfl
      · refine ⟨.fill, rfl, ?_⟩
        have hfilled : stopFilling schedule s = some _ :=
          stopFilling_eq_some.mpr ⟨hpoint, hroom, rfl⟩
        rw [step, hfilled]
        rfl
  | joining =>
      rw [hpoint] at h
      obtain ⟨index, phase, hphase, halive⟩ := exists_alive h.1
      obtain ⟨hawake, hdone⟩ := hended phase (List.mem_of_getElem? hphase)
      cases phase with
      | unspawned => cases halive
      | sleeping => exact absurd rfl hawake
      | comparing => exact absurd rfl hdone
      | joined outcome => cases halive
      | finished outcome =>
          refine ⟨.join index, rfl, ?_⟩
          have hjoined : joinNext schedule s index = some _ :=
            joinNext_eq_some.mpr ⟨outcome, hpoint, hphase, rfl⟩
          rw [step, hjoined]
          rfl
  | returned result => exact absurd hpoint (hrunning result)

/-! ### Whole runs -/

theorem kept_run (hplanned : Planned schedule)
    (hrun : run (step schedule) (beginLoop schedule) actions = some final) :
    (Kept schedule final ∧ Pointed schedule final) ∧
      remaining final + actions.countP Action.advances ≤ remaining (beginLoop schedule) := by
  apply run_countP_le _ hrun ⟨kept_begin, pointed_begin⟩
  rintro state action next ⟨hkept, hpointed⟩ hstep
  exact ⟨⟨kept_step hplanned hkept hstep, pointed_step hplanned hpointed hkept hstep⟩,
    remaining_step hplanned hpointed hkept hstep⟩

/-- Where the loop returns reports, every task has been joined with one. -/
theorem joined_of_returned (hplanned : Planned schedule) (hkept : Kept schedule s)
    (hpointed : Pointed schedule s) {reports : List (Option RegressionReport)}
    (hreturned : s.point = .returned (.ok reports)) (hindex : index < schedule.offsets.length) :
    ∃ report, s.tasks[index]? = some (.joined (.ok (.ok report))) := by
  unfold Pointed at hpointed
  rw [hreturned] at hpointed
  obtain ⟨-, hall, hdead, hclean⟩ := hpointed
  obtain ⟨phase, hphase⟩ : ∃ phase, s.tasks[index]? = some phase :=
    ⟨_, List.getElem?_eq_getElem (hkept.length ▸ hindex)⟩
  have hspawned : index ∈ s.spawned := by
    rw [hkept.spawned, List.take_of_length_le hall, hplanned.mem_order]
    exact hindex
  cases phase with
  | unspawned => exact absurd hspawned ((hkept.unspawned index _ hphase).mp rfl)
  | sleeping => exact absurd hdead (live_ne_zero hphase rfl)
  | comparing => exact absurd hdead (live_ne_zero hphase rfl)
  | finished outcome => exact absurd hdead (live_ne_zero hphase rfl)
  | joined outcome =>
      have hfailure := hclean index outcome hphase
      rcases outcome with panic | (error | report)
      · cases hfailure
      · cases hfailure
      · exact ⟨report, hphase⟩

/-- What the scheduler promises of a run, finished or not, whatever the comparisons make of the
flows. -/
structure Scheduled (schedule : Schedule) (actions : List Action) (final : LoopState) :
    Prop where
  at_most_once : (final.started.map Prod.fst).Nodup
  all_if_reported : ∀ reports, final.point = .returned (.ok reports) →
    (∀ index < schedule.offsets.length, index ∈ final.started.map Prod.fst) ∧
      ∀ report ∈ reports, report.isSome = true
  window : final.live ≤ schedule.maxConcurrency
  on_time : ∀ start ∈ final.started,
    schedule.origin + schedule.offsets.getD start.1 0 ≤ start.2
  in_order : final.spawned.Pairwise fun left right => before schedule.offsets left right = true
  spawned_once : final.spawned.Nodup
  spawned_first : ∀ index ∈ final.started.map Prod.fst, index ∈ final.spawned
  bounded : actions.countP Action.advances ≤ 8 * schedule.offsets.length + 1
  waits_for_tasks : (∀ result, final.point ≠ .returned result) →
    (∀ phase ∈ final.tasks, phase ≠ .sleeping ∧ phase ≠ .comparing) →
      ∃ action, action.ofLoop = true ∧ (step schedule final action).isSome = true

theorem scheduled_run (hplanned : Planned schedule)
    (hrun : run (step schedule) (beginLoop schedule) actions = some final) :
    Scheduled schedule actions final := by
  obtain ⟨⟨hkept, hpointed⟩, hremaining⟩ := kept_run hplanned hrun
  have hbegin : remaining (beginLoop schedule) ≤ 8 * schedule.offsets.length + 1 :=
    remaining_begin
  exact
    { at_most_once := hkept.nodup
      all_if_reported := by
        intro reports hreturned
        constructor
        · intro index hindex
          obtain ⟨report, hphase⟩ := joined_of_returned hplanned hkept hpointed hreturned hindex
          exact (hkept.begun index _ hphase).mp rfl
        · intro report hmem
          unfold Pointed at hpointed
          rw [hreturned] at hpointed
          rw [hpointed.1, hkept.reports] at hmem
          obtain ⟨index, hreport⟩ := List.getElem?_of_mem hmem
          rw [List.getElem?_map, Option.map_eq_some_iff] at hreport
          obtain ⟨phase, hphase, rfl⟩ := hreport
          have hindex : index < schedule.offsets.length := hkept.length ▸ lt_length hphase
          obtain ⟨made, hjoined⟩ := joined_of_returned hplanned hkept
            (by unfold Pointed; rw [hreturned]; exact hpointed) hreturned hindex
          obtain rfl := Option.some.inj (hphase.symm.trans hjoined)
          rfl
      window := hkept.live
      on_time := fun start hstart => (hkept.on_time start hstart).2
      in_order := by
        rw [hkept.spawned]
        exact hplanned.sorted.sublist (List.take_sublist _ _)
      spawned_once := by
        rw [hkept.spawned]
        exact hplanned.nodup.sublist (List.take_sublist _ _)
      spawned_first := by
        intro index hindex
        obtain ⟨start, hstart, rfl⟩ := List.mem_map.mp hindex
        have hphase : final.tasks[start.1]? = some _ :=
          List.getElem?_eq_getElem (hkept.length ▸ (hkept.on_time start hstart).1)
        have hbegun := (hkept.begun start.1 _ hphase).mpr hindex
        by_contra hfresh
        rw [(hkept.unspawned start.1 _ hphase).mpr hfresh] at hbegun
        cases hbegun
      bounded := by omega
      waits_for_tasks := loop_advances hpointed }

end EggReplay.Cli.TimelineRuns
