import EggReplay.Cli.TimelineRuns

/-!
The reports of the timeline scheduler beside those of the sequential one, and beside the fold
over the joined tasks.
-/

namespace EggReplay.Cli.TimelineReports

open EggReplay.Core.FlowRecord
open EggReplay.Core.Reports
open EggReplay.Core.StreamTimeline
open EggReplay.Core.TimelineOrder
open EggReplay.Cli.ReportedVerdicts
open EggReplay.Cli.TimelineRuns
open EggReplay.Library.Checks
open EggReplay.Library.Phases
open EggReplay.Library.TransitionSystem
open EggReplay.Store.SessionOpen
open EggReplay.Store.SessionRuns (sampleFlow)

variable {schedule : Schedule} {s next final : LoopState} {index : Nat} {outcome : Outcome}
  {actions : List Action}

/-! ### The sequential scheduler -/

section

variable {ρ : Type} {world : CandidateWorld} {streams : Option (List FlowStreamEvents)}
  {flows : List Flow} {aside : RegressionReport → ρ}

/-- The candidate answers as it answers the sequential scheduler, some parts of the reports put
aside. -/
def Answers (world : CandidateWorld) (streams : Option (List FlowStreamEvents))
    (flows : List Flow) (aside : RegressionReport → ρ) (tasks : List Phase) : Prop :=
  ∀ (index : Nat) (outcome : Outcome), tasks[index]? = some (.joined outcome) →
    ∃ flow answer, flows[index]? = some flow ∧ outcome = .ok answer ∧
      answer.map aside = (world.compareCandidateFlow .sequential streams flow).map aside

theorem sequentialReports_eq_ok {reports : List (Option RegressionReport)} :
    sequentialReports world streams flows = .ok reports ↔
      List.Forall₂ (fun flow report => ∃ made,
        world.compareCandidateFlow .sequential streams flow = .ok made ∧ some made = report)
        flows reports := by
  unfold sequentialReports
  rw [mapM_eq_ok]
  simp only [bind_eq_ok, mapError_eq_ok, pure_eq_ok]

theorem sequentialReports_of_answers {reports : List (Option RegressionReport)}
    (h : List.Forall₂ (fun flow report => ∃ made, report = some made ∧
      (world.compareCandidateFlow .sequential streams flow).map aside = .ok (aside made))
      flows reports) :
    (sequentialReports world streams flows).toOption.map (List.map (Option.map aside)) =
      some (reports.map (Option.map aside)) := by
  have hmade : ∃ made, List.Forall₂ (fun flow report => ∃ answer,
      world.compareCandidateFlow .sequential streams flow = .ok answer ∧ some answer = report)
      flows made ∧ made.map (Option.map aside) = reports.map (Option.map aside) := by
    induction h with
    | nil => exact ⟨[], .nil, rfl⟩
    | cons hfirst _ ih =>
        obtain ⟨made, rfl, hanswer⟩ := hfirst
        obtain ⟨answer, hcompare, haside⟩ := map_eq_ok.mp hanswer
        obtain ⟨rest, hrest, hmap⟩ := ih
        refine ⟨some answer :: rest, .cons ⟨answer, hcompare, rfl⟩ hrest, ?_⟩
        rw [List.map_cons, List.map_cons, hmap, Option.map_some, Option.map_some, haside]
  obtain ⟨made, hforall, hmap⟩ := hmade
  rw [sequentialReports_eq_ok.mpr hforall, ← hmap]
  rfl

theorem sequentialReports_of_error {flow : Flow} {error : String} (hmem : flow ∈ flows)
    (h : world.compareCandidateFlow .sequential streams flow = .error error) :
    (sequentialReports world streams flows).toOption = none := by
  cases hreports : sequentialReports world streams flows with
  | error failure => rfl
  | ok reports =>
      obtain ⟨index, hflow⟩ := List.getElem?_of_mem hmem
      have hforall := sequentialReports_eq_ok.mp hreports
      have hlt : index < flows.length := (List.getElem?_eq_some_iff.mp hflow).1
      obtain ⟨made, hmade, -⟩ := hforall.get hlt (hforall.length_eq ▸ hlt)
      rw [List.get_eq_getElem, (List.getElem?_eq_some_iff.mp hflow).2, h] at hmade
      cases hmade

theorem agrees_of_answers (hplanned : Planned schedule)
    (hlength : flows.length = schedule.offsets.length) (hkept : Kept schedule s)
    (hpointed : TimelineRuns.Pointed schedule s) (hanswers : Answers world streams flows aside s.tasks)
    {result : Except Failure (List (Option RegressionReport))}
    (hreturned : s.point = .returned result) :
    result.toOption.map (List.map (Option.map aside)) =
      (sequentialReports world streams flows).toOption.map (List.map (Option.map aside)) := by
  have hpointed' := hpointed
  unfold TimelineRuns.Pointed at hpointed'
  rw [hreturned] at hpointed'
  cases result with
  | ok reports =>
      obtain ⟨hreports, -⟩ := hpointed'
      have hforall : List.Forall₂ (fun flow report => ∃ made, report = some made ∧
          (world.compareCandidateFlow .sequential streams flow).map aside = .ok (aside made))
          flows reports := by
        rw [hreports, hkept.reports]
        refine List.forall₂_iff_get.mpr ⟨by rw [List.length_map, hkept.length, hlength], ?_⟩
        intro index hflow hreport
        have hindex : index < schedule.offsets.length := hlength ▸ hflow
        obtain ⟨report, hjoined⟩ := joined_of_returned hplanned hkept hpointed hreturned hindex
        obtain ⟨flow, answer, hat, houtcome, hanswer⟩ := hanswers index _ hjoined
        obtain rfl := Except.ok.inj houtcome
        refine ⟨report, ?_, ?_⟩
        · rw [List.get_eq_getElem, List.getElem_map, (List.getElem?_eq_some_iff.mp hjoined).2]
          rfl
        · rw [List.get_eq_getElem, (List.getElem?_eq_some_iff.mp hat).2, ← hanswer]
          rfl
      rw [sequentialReports_of_answers hforall]
      rfl
  | error failure =>
      obtain ⟨index, outcome, hjoined, hfailure⟩ := hpointed'
      obtain ⟨flow, answer, hat, rfl, hanswer⟩ := hanswers index outcome hjoined
      cases answer with
      | ok report => cases hfailure
      | error error =>
          cases hcompare : world.compareCandidateFlow .sequential streams flow with
          | ok made =>
              rw [hcompare] at hanswer
              cases hanswer
          | error other =>
              rw [sequentialReports_of_error (List.mem_of_getElem? hat) hcompare]
              rfl

end

/-! ### What the run leaves of the timeline reports -/

section

variable {world : CandidateWorld} {streams : Option (List FlowStreamEvents)} {flows : List Flow}

/-- The flows whose tasks are joined, in that order. -/
def joins (actions : List Action) : List Nat :=
  actions.filterMap fun
    | .join index => some index
    | .tick _ | .spawn | .fill | .wake _ | .finish _ _ | .joinNone => none

/-- A comparison ends with what the candidate makes of the flow. -/
def Compares (world : CandidateWorld) (streams : Option (List FlowStreamEvents))
    (flows : List Flow) (index : Nat) (outcome : Outcome) : Prop :=
  ∃ flow, flows[index]? = some flow ∧
    outcome = .ok (world.compareCandidateFlow .timeline streams flow)

theorem joinTask_of_compares {reports : List (Option RegressionReport)}
    (h : Compares world streams flows index outcome) :
    joinTask world streams flows reports index =
      match failureOf outcome with
      | some failure => .error failure
      | none => .ok (reports.set index (reportOf outcome)) := by
  obtain ⟨flow, hflow, rfl⟩ := h
  rw [joinTask, hflow]
  dsimp only
  cases world.compareCandidateFlow .timeline streams flow <;> rfl

theorem returned_step {action : Action} {result : Except Failure (List (Option RegressionReport))}
    (hreturned : s.point = .returned result) (hstep : step schedule s action = some next) :
    next.point = .returned result ∧ next.reports = s.reports ∧ joins [action] = [] := by
  cases action with
  | tick elapsed =>
      obtain rfl := Option.some.inj hstep
      exact ⟨hreturned, rfl, rfl⟩
  | spawn =>
      obtain ⟨_, hpoint, -⟩ := spawnNext_eq_some.mp hstep
      cases hreturned.symm.trans hpoint
  | fill =>
      obtain ⟨hpoint, -⟩ := stopFilling_eq_some.mp hstep
      cases hreturned.symm.trans hpoint
  | wake index =>
      obtain ⟨-, -, rfl⟩ := wake_eq_some.mp hstep
      exact ⟨hreturned, rfl, rfl⟩
  | finish index outcome =>
      obtain ⟨-, rfl⟩ := finishTask_eq_some.mp hstep
      exact ⟨hreturned, rfl, rfl⟩
  | join index =>
      obtain ⟨_, hpoint, -⟩ := joinNext_eq_some.mp hstep
      cases hreturned.symm.trans hpoint
  | joinNone =>
      obtain ⟨hpoint, -⟩ := joinNone_eq_some.mp hstep
      cases hreturned.symm.trans hpoint

theorem joins_cons (action : Action) (rest : List Action) :
    joins (action :: rest) = joins [action] ++ joins rest := by
  rw [joins, joins, joins, ← List.filterMap_append]
  rfl

theorem returned_run {result : Except Failure (List (Option RegressionReport))}
    (hreturned : s.point = .returned result)
    (hrun : run (step schedule) s actions = some final) :
    final.point = .returned result ∧ final.reports = s.reports ∧ joins actions = [] := by
  induction actions generalizing s with
  | nil =>
      obtain rfl := Option.some.inj hrun
      exact ⟨hreturned, rfl, rfl⟩
  | cons action rest ih =>
      obtain ⟨next, hstep, hrest⟩ := run_cons_eq_some.mp hrun
      obtain ⟨hnext, hreports, hjoins⟩ := returned_step hreturned hstep
      obtain ⟨hfinal, hreports', hjoins'⟩ := ih hnext hrest
      exact ⟨hfinal, hreports'.trans hreports, by rw [joins_cons, hjoins, hjoins']; rfl⟩

/-- Every task that has ended and waits to be joined has compared its flow. -/
def Compared (world : CandidateWorld) (streams : Option (List FlowStreamEvents))
    (flows : List Flow) (tasks : List Phase) : Prop :=
  ∀ (index : Nat) (outcome : Outcome), tasks[index]? = some (.finished outcome) →
    Compares world streams flows index outcome

theorem Compared.set {tasks : List Phase} {old new : Phase}
    (h : Compared world streams flows tasks) (hphase : tasks[index]? = some old)
    (hnew : ∀ outcome, new = .finished outcome → Compares world streams flows index outcome) :
    Compared world streams flows (tasks.set index new) := by
  intro other outcome hother
  rcases phase_set hphase hother with ⟨rfl, heq⟩ | ⟨-, hother⟩
  · exact hnew outcome heq.symm
  · exact h other outcome hother

/-- What a step does to the reports, as the fold over the joined tasks sees it. -/
theorem fold_step {action : Action} (hplanned : Planned schedule) (hkept : Kept schedule s)
    (h : Compared world streams flows s.tasks)
    (haction : ∀ index outcome, action = .finish index outcome →
      Compares world streams flows index outcome)
    (hrunning : ∀ failure, s.point ≠ .returned (.error failure))
    (hstep : step schedule s action = some next) :
    Compared world streams flows next.tasks ∧
      checkFold (joinTask world streams flows) s.reports (joins [action]) =
        match next.point with
        | .returned (.error failure) => .error failure
        | .filling | .joining | .returned (.ok _) => .ok next.reports := by
  have hfold : ∀ {point : LoopPoint}, (∀ failure, point ≠ .returned (.error failure)) →
      (.ok s.reports : Except Failure (List (Option RegressionReport))) =
        match point with
        | .returned (.error failure) => .error failure
        | .filling | .joining | .returned (.ok _) => .ok s.reports := by
    intro point hpoint
    split
    · exact absurd rfl (hpoint _)
    · rfl
    · rfl
    · rfl
  cases action with
  | tick elapsed =>
      obtain rfl := Option.some.inj hstep
      exact ⟨h, hfold hrunning⟩
  | spawn =>
      obtain ⟨index, hpoint, hindex, -, rfl⟩ := spawnNext_eq_some.mp hstep
      exact ⟨h.set (hkept.next_unspawned hplanned hindex).1 (by rintro _ ⟨⟩), hfold hrunning⟩
  | fill =>
      obtain ⟨hpoint, -, rfl⟩ := stopFilling_eq_some.mp hstep
      exact ⟨h, rfl⟩
  | wake index =>
      obtain ⟨hphase, -, rfl⟩ := wake_eq_some.mp hstep
      exact ⟨h.set hphase (by rintro _ ⟨⟩), hfold hrunning⟩
  | finish index outcome =>
      obtain ⟨hphase, rfl⟩ := finishTask_eq_some.mp hstep
      refine ⟨h.set hphase ?_, hfold hrunning⟩
      rintro _ ⟨⟩
      exact haction index outcome rfl
  | join index =>
      obtain ⟨outcome, hpoint, hphase, rfl⟩ := joinNext_eq_some.mp hstep
      have hjoin : checkFold (joinTask world streams flows) s.reports (joins [.join index]) =
          joinTask world streams flows s.reports index := by
        change (joinTask world streams flows s.reports index >>= fun next =>
          (.ok next : Except Failure (List (Option RegressionReport)))) = _
        cases joinTask world streams flows s.reports index <;> rfl
      have htasks : Compared world streams flows (s.tasks.set index (.joined outcome)) :=
        h.set hphase (by rintro _ ⟨⟩)
      rw [hjoin, joinTask_of_compares (h index outcome hphase)]
      unfold afterJoin
      cases hfailure : failureOf outcome with
      | some failure => exact ⟨htasks, rfl⟩
      | none =>
          refine ⟨htasks, ?_⟩
          unfold loopHead
          dsimp only
          split <;> rename_i heq <;> split at heq <;> cases heq <;> rfl
  | joinNone =>
      obtain ⟨hpoint, hlive, rfl⟩ := joinNone_eq_some.mp hstep
      refine ⟨h, ?_⟩
      unfold loopHead
      dsimp only
      split <;> rename_i heq <;> split at heq <;> cases heq <;> rfl

theorem fold_run (hplanned : Planned schedule) (hkept : Kept schedule s)
    (h : Compared world streams flows s.tasks)
    (hactions : ∀ index outcome, .finish index outcome ∈ actions →
      Compares world streams flows index outcome)
    (hrunning : ∀ failure, s.point ≠ .returned (.error failure))
    (hrun : run (step schedule) s actions = some final) :
    checkFold (joinTask world streams flows) s.reports (joins actions) =
      match final.point with
      | .returned (.error failure) => .error failure
      | .filling | .joining | .returned (.ok _) => .ok final.reports := by
  induction actions generalizing s with
  | nil =>
      obtain rfl := Option.some.inj hrun
      split
      · rename_i hpoint
        exact absurd hpoint (hrunning _)
      · rfl
      · rfl
      · rfl
  | cons action rest ih =>
      obtain ⟨next, hstep, hrest⟩ := run_cons_eq_some.mp hrun
      obtain ⟨hnext, hfirst⟩ := fold_step hplanned hkept h
        (fun index outcome heq => hactions index outcome (heq ▸ List.mem_cons_self)) hrunning hstep
      rw [joins_cons, checkFold_append, hfirst]
      cases hpoint : next.point with
      | returned result =>
          obtain ⟨hfinal, hreports, hjoins⟩ := returned_run hpoint hrest
          rw [hfinal, hreports, hjoins]
          cases result <;> rfl
      | filling =>
          exact ih (kept_step hplanned hkept hstep) hnext
            (fun index outcome hmem => hactions index outcome (List.mem_cons_of_mem _ hmem))
            (by rw [hpoint]; rintro failure ⟨⟩) hrest
      | joining =>
          exact ih (kept_step hplanned hkept hstep) hnext
            (fun index outcome hmem => hactions index outcome (List.mem_cons_of_mem _ hmem))
            (by rw [hpoint]; rintro failure ⟨⟩) hrest

/-- Where the loop returns, the joined tasks give the reports of the timeline. -/
theorem timelineReports_of_run {codec : Store.Fixture.Codec} {session : Session} {maxConcurrency origin : Nat}
    {events : List FlowStreamEvents} {offsets : List Nat}
    {result : Except Failure (List (Option RegressionReport))}
    (hevents : readStreams codec session
      ("configuration", "timeline scheduler requires a stream-events extension") "" = .ok events)
    (hoffsets : (flows.mapM fun flow =>
      orFail ((streamOf events flow.id).map FlowStreamEvents.startOffsetNs)
        ("fixture", "timeline offset is missing for flow " ++ flow.id)) = .ok offsets)
    (hplan : planTimeline offsets maxConcurrency origin = .ok schedule)
    (hrun : run (step schedule) (beginLoop schedule) actions = some final)
    (hactions : ∀ index outcome, .finish index outcome ∈ actions →
      Compares world streams flows index outcome)
    (hreturned : final.point = .returned result) :
    timelineReports codec { world with joined := joins actions } maxConcurrency session streams
      flows = result := by
  have hplanned : Planned schedule := planned_of_plan hplan
  have hlength : flows.length = offsets.length := (mapM_eq_ok.mp hoffsets).length_eq
  obtain ⟨order, horder, rfl⟩ := planTimeline_eq_ok.mp hplan
  obtain ⟨hwindow, hlimit, -⟩ := timelineOrderOffsets_eq_ok.mp horder
  have hnonzero : maxConcurrency ≠ 0 ∧ maxConcurrency ≤ 1024 :=
    ⟨Nat.pos_iff_ne_zero.mp hwindow.1, hwindow.2⟩
  have hbegin : ∀ failure, (beginLoop { offsets, order, maxConcurrency, origin }).point ≠
      .returned (.error failure) := by
    intro failure
    unfold beginLoop loopHead
    dsimp only
    split <;> rintro ⟨⟩
  have hcompared : Compared world streams flows
      (beginLoop { offsets, order, maxConcurrency, origin }).tasks := by
    intro index outcome hphase
    cases List.eq_of_mem_replicate (List.mem_of_getElem? hphase)
  have hfold := fold_run hplanned kept_begin hcompared hactions hbegin hrun
  have hreports : (beginLoop { offsets, order, maxConcurrency, origin }).reports =
      List.replicate flows.length none := by rw [hlength]; rfl
  rw [timelineReports, ensure_of_true hnonzero, ok_bind, hevents, ok_bind, hoffsets, ok_bind,
    ensure_of_true hlimit, ok_bind, ← hreports]
  refine hfold.trans ?_
  rw [hreturned]
  cases result with
  | error failure => rfl
  | ok reports =>
      obtain ⟨⟨-, hpointed⟩, -⟩ := kept_run hplanned hrun
      unfold TimelineRuns.Pointed at hpointed
      rw [hreturned] at hpointed
      rw [hpointed.1]

end

/-- Flows with accepted offsets: whatever the candidate answers and in whichever order tasks
wake and end, no comparison starts twice, early or out of the window; once reports are returned
every comparison has started; and a candidate that answers as it answers the sequential
scheduler yields what that one yields. -/
theorem timeline_schedules (jobs : List (Flow × Nat)) (maxConcurrency origin : Nat)
    (hplan : planTimeline (jobs.map Prod.snd) maxConcurrency origin = .ok schedule)
    (hrun : run (step schedule) (beginLoop schedule) actions = some final) :
    Scheduled schedule actions final ∧
      ∀ (ρ : Type) (world : CandidateWorld) (streams : Option (List FlowStreamEvents))
        (aside : RegressionReport → ρ),
        Answers world streams (jobs.map Prod.fst) aside final.tasks →
          ∀ result, final.point = .returned result →
            result.toOption.map (List.map (Option.map aside)) =
              (sequentialReports world streams (jobs.map Prod.fst)).toOption.map
                (List.map (Option.map aside)) := by
  have hplanned : Planned schedule := planned_of_plan hplan
  obtain ⟨⟨hkept, hpointed⟩, -⟩ := kept_run hplanned hrun
  refine ⟨scheduled_run hplanned hrun, ?_⟩
  intro ρ world streams aside hanswers result hreturned
  have hlength : (jobs.map Prod.fst).length = schedule.offsets.length := by
    obtain ⟨order, -, rfl⟩ := planTimeline_eq_ok.mp hplan
    rw [List.length_map, List.length_map]
  exact agrees_of_answers hplanned hlength hkept hpointed hanswers hreturned

/-! ### A window of one -/

/-- Every run that returns has started the comparison of every flow exactly once. -/
def StartsEachOnce (schedule : Schedule) : Prop :=
  ∀ actions final result, run (step schedule) (beginLoop schedule) actions = some final →
    final.point = .returned result →
      ∀ index < schedule.offsets.length, (final.started.map Prod.fst).count index = 1

def twoJobs : List (Flow × Nat) := [(sampleFlow, 0), ({ sampleFlow with id := "two" }, 0)]

def twoFlows : Schedule where
  offsets := [0, 0]
  order := [0, 1]
  maxConcurrency := 1
  origin := 0

theorem twoFlows_planned : planTimeline [0, 0] 1 0 = .ok twoFlows := by
  have hsorted : (List.range [0, 0].length).mergeSort (before [0, 0]) = [0, 1] :=
    List.mergeSort_of_pairwise (by decide)
  exact planTimeline_eq_ok.mpr
    ⟨[0, 1], timelineOrderOffsets_eq_ok.mpr ⟨by decide, by decide, hsorted⟩, rfl⟩

/-- The first flow switched protocols, and its conversation is missing: the second is never
compared. -/
theorem failed_comparison_ends_loop :
    planTimeline (twoJobs.map Prod.snd) 1 0 = .ok twoFlows ∧ ¬StartsEachOnce twoFlows := by
  refine ⟨twoFlows_planned, fun heach => ?_⟩
  have hmissed : (([(0, 0)] : List (Nat × Nat)).map Prod.fst).count 1 = 1 :=
    heach [.spawn, .fill, .wake 0,
      .finish 0 (.ok (.error "WebSocket 101 baseline is missing websocket-messages metadata")),
      .join 0] _ _ rfl rfl 1 (by decide)
  cases hmissed

def matchingReport (flowId : String) : RegressionReport where
  schemaVersion := 3
  scheduler := .timeline
  baselineFlowIds := [flowId]
  findings := []
  suppressed := []

/-- Both flows, one after the other. -/
def twoComparisons : List Action :=
  [.spawn, .fill, .wake 0, .tick 500, .finish 0 (.ok (.ok (matchingReport "one"))), .join 0,
    .spawn, .fill, .wake 1, .finish 1 (.ok (.ok (matchingReport "two"))), .join 1]

def twoCompared : LoopState where
  clock := 500
  next := 2
  tasks := [.joined (.ok (.ok (matchingReport "one"))), .joined (.ok (.ok (matchingReport "two")))]
  reports := [some (matchingReport "one"), some (matchingReport "two")]
  point := .returned (.ok [some (matchingReport "one"), some (matchingReport "two")])
  spawned := [0, 1]
  started := [(0, 0), (1, 500)]

theorem twoJobs_schedules :
    Scheduled twoFlows twoComparisons twoCompared ∧
      ∀ (ρ : Type) (world : CandidateWorld) (streams : Option (List FlowStreamEvents))
        (aside : RegressionReport → ρ),
        Answers world streams (twoJobs.map Prod.fst) aside twoCompared.tasks →
          ∀ result, twoCompared.point = .returned result →
            result.toOption.map (List.map (Option.map aside)) =
              (sequentialReports world streams (twoJobs.map Prod.fst)).toOption.map
                (List.map (Option.map aside)) :=
  timeline_schedules twoJobs 1 0 twoFlows_planned rfl

end EggReplay.Cli.TimelineReports
