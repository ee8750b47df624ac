import EggReplay.Core.ScenarioSteps
import EggReplay.Core.BodyWildcards

/-!
Runs of a scenario: what one request can do to the runtime, and the bounds that hold of
every runtime that a sequence of requests leads to.
-/

namespace EggReplay.Core.ScenarioRuns

open EggReplay.Library.Checks
open EggReplay.Library.Text
open EggReplay.Library.JsonText
open EggReplay.Core.FlowRecord
open EggReplay.Core.Redaction
open EggReplay.Core.Scenarios
open EggReplay.Core.ScenarioSteps
open EggReplay.Core.BodyWildcards

variable {N : Type} {codec : BodyCodec N}

/-! ### Variables -/

theorem mem_insert {vars : Variables} {name value : String} {pair : String × String}
    (h : pair ∈ vars.insert name value) : pair = (name, value) ∨ pair ∈ vars := by
  induction vars with
  | nil => exact .inl (List.mem_singleton.mp h)
  | cons first rest ih =>
      obtain ⟨other, old⟩ := first
      rw [Variables.insert] at h
      split at h
      · rcases List.mem_cons.mp h with rfl | h
        · exact .inl rfl
        · exact .inr (List.mem_cons_of_mem _ h)
      · split at h
        · exact List.mem_cons.mp h
        · rcases List.mem_cons.mp h with rfl | h
          · exact .inr List.mem_cons_self
          · exact (ih h).imp_right (List.mem_cons_of_mem _)

theorem length_insert_le (vars : Variables) (name value : String) :
    (vars.insert name value).length ≤ vars.length + 1 := by
  induction vars with
  | nil => exact le_rfl
  | cons first rest ih =>
      obtain ⟨other, old⟩ := first
      rw [Variables.insert]
      split
      · exact Nat.le_succ _
      · split
        · exact le_rfl
        · exact Nat.succ_le_succ ih

def Bounded (vars : Variables) : Prop :=
  ∀ pair ∈ vars, pair.2.utf8ByteSize ≤ maxValueBytes

/-- The induction rule of extraction: what each inserted value preserves holds at the end. -/
theorem extractAll_induction {redaction : RedactionConfig} {request : HttpRequest}
    {jsonBody : Option (Json N)} {failure : ExtractionFailureBehavior}
    {extract : List VariableExtraction} {vars next : Variables}
    {P : List VariableExtraction → Variables → Prop} (hstart : P extract vars)
    (hstep : ∀ extraction rest vars value, P (extraction :: rest) vars →
      value.utf8ByteSize ≤ maxValueBytes → P rest (vars.insert extraction.name value))
    (h : extractAll codec redaction request jsonBody failure extract vars = .ok (some next)) :
    P [] next := by
  induction extract generalizing vars with
  | nil =>
      cases h
      exact hstart
  | cons extraction rest ih =>
      rw [extractAll] at h
      split at h
      · split at h <;> cases h
      · split at h
        · cases h
        · rename_i hsize
          exact ih (hstep _ _ _ _ hstart (Nat.not_lt.mp hsize)) h

theorem extractAll_length {redaction : RedactionConfig} {request : HttpRequest}
    {jsonBody : Option (Json N)} {failure : ExtractionFailureBehavior}
    {extract : List VariableExtraction} {vars next : Variables}
    (h : extractAll codec redaction request jsonBody failure extract vars = .ok (some next)) :
    next.length ≤ extract.length + vars.length := by
  have hrun := extractAll_induction
    (P := fun rest now => rest.length + now.length ≤ extract.length + vars.length) le_rfl
    (by
      intro extraction rest now value hnow _
      have hone := length_insert_le now extraction.name value
      rw [List.length_cons] at hnow
      omega) h
  simpa using hrun

theorem extractAll_bounded {redaction : RedactionConfig} {request : HttpRequest}
    {jsonBody : Option (Json N)} {failure : ExtractionFailureBehavior}
    {extract : List VariableExtraction} {vars next : Variables} (hvars : Bounded vars)
    (h : extractAll codec redaction request jsonBody failure extract vars = .ok (some next)) :
    Bounded next := by
  refine extractAll_induction (P := fun _ now => Bounded now) hvars ?_ h
  intro extraction rest now value hnow hvalue pair hpair
  rcases mem_insert hpair with rfl | hpair
  · exact hvalue
  · exact hnow pair hpair

/-! ### Rendered sizes -/

theorem renderFrom_size {vars : Variables} {output text : String} {rest : List Char}
    (h : renderFrom vars output rest = .ok text) : text.utf8ByteSize ≤ maxTemplateBytes := by
  fun_induction renderFrom vars output rest with
  | case1 output rest hstart hlimit => cases h
  | case2 output rest hstart hlimit =>
      rw [← Except.ok.inj h]
      exact Nat.not_lt.mp hlimit
  | case3 => cases h
  | case4 => cases h
  | case5 => cases h
  | case6 => cases h
  | case7 output rest lead tail hstart name after hend hname value hvalue current hlimit ih =>
      exact ih h

theorem render_size {template text : String} {vars : Variables}
    (h : render template vars = .ok text) : text.utf8ByteSize ≤ maxTemplateBytes := by
  rw [render] at h
  split at h
  · cases h
  · exact renderFrom_size h

theorem renderBody_size {response : ScenarioResponse} {vars : Variables} {body : Bytes}
    (h : renderBody codec response vars = .ok body) : body.length ≤ maxTemplateBytes := by
  simp only [renderBody, bind_eq_ok] at h
  obtain ⟨text, htext, h⟩ := h
  split at h
  · rw [← pure_eq_ok.mp h, length_utf8]
    exact render_size htext
  · simp only [bind_eq_ok, mapError_eq_ok, ensure_eq_ok, pure_eq_ok] at h
    obtain ⟨_, _, value, _, _, hlength, rfl⟩ := h
    exact hlength

/-- A rendered response within the bounds of its parts. -/
structure WithinBounds (response : RenderedScenarioResponse) : Prop where
  status : 100 ≤ response.status ∧ response.status ≤ 599
  body : response.body.length ≤ maxTemplateBytes

theorem renderResponse_withinBounds {response : ScenarioResponse} {vars : Variables}
    {rendered : RenderedScenarioResponse}
    (h : renderResponse codec response vars = .ok rendered) : WithinBounds rendered := by
  simp only [renderResponse, bind_eq_ok, ensure_eq_ok, pure_eq_ok] at h
  obtain ⟨body, hbody, -, hstatus, headers, -, rfl⟩ := h
  exact ⟨hstatus, renderBody_size hbody⟩

/-! ### Steps -/

/-- The first transition from a state whose predicates all hold. -/
def FirstMatching (transitions : List ScenarioTransition) (state : String)
    (request : HttpRequest) (transition : ScenarioTransition) : Prop :=
  ∃ before after, transitions = before ++ transition :: after ∧
    (transition.fromState = state ∧
      ∀ predicate ∈ transition.when, RequestPredicate.matches request predicate = true) ∧
    ∀ earlier ∈ before, ¬(earlier.fromState = state ∧
      ∀ predicate ∈ earlier.when, RequestPredicate.matches request predicate = true)

theorem selects_iff {state : String} {request : HttpRequest} {transition : ScenarioTransition} :
    selects state request transition = true ↔ transition.fromState = state ∧
      ∀ predicate ∈ transition.when, RequestPredicate.matches request predicate = true := by
  rw [selects, Bool.and_eq_true, decide_eq_true_eq, List.all_eq_true]

theorem firstMatching_of_find {transitions : List ScenarioTransition} {state : String}
    {request : HttpRequest} {transition : ScenarioTransition}
    (h : transitions.find? (selects state request) = some transition) :
    FirstMatching transitions state request transition := by
  obtain ⟨hselects, before, after, rfl, hbefore⟩ := List.find?_eq_some_iff_append.mp h
  refine ⟨before, after, rfl, selects_iff.mp hselects, ?_⟩
  intro earlier hearlier hmatches
  have hnot := hbefore earlier hearlier
  rw [selects_iff.mpr hmatches] at hnot
  cases hnot

/-- All that one call of `advance` can do. -/
inductive Advances (runtime : ScenarioRuntime) (request : HttpRequest) :
    Except String (Option ScenarioStep) → ScenarioRuntime → Prop where
  | failed (error : String) : Advances runtime request (.error error) runtime
  | declined : Advances runtime request (.ok none) runtime
  | taken {transition : ScenarioTransition} {step : ScenarioStep} {next : ScenarioRuntime}
      (first : FirstMatching runtime.scenario.transitions runtime.state request transition)
      (previous : step.previousState = runtime.state)
      (announced : step.nextState = transition.nextState)
      (state : next.state = transition.nextState)
      (program : next.scenario = runtime.scenario)
      (policy : next.redaction = runtime.redaction)
      (response : WithinBounds step.response)
      (count : next.vars.length ≤ maxVariables)
      (values : Bounded runtime.vars → Bounded next.vars) :
      Advances runtime request (.ok (some step)) next

theorem takeTransition_eq_ok {runtime : ScenarioRuntime} {request : HttpRequest}
    {body : Bytes} {transition : ScenarioTransition} {vars : Variables}
    {response : RenderedScenarioResponse}
    (h : takeTransition codec runtime request body transition = .ok (some (vars, response))) :
    transition.extract.length + runtime.vars.length ≤ maxVariables ∧
      ∃ jsonBody, extractAll codec runtime.redaction request jsonBody
          transition.extractionFailure transition.extract runtime.vars = .ok (some vars) ∧
        renderResponse codec transition.response vars = .ok response := by
  simp only [takeTransition, bind_eq_ok, ensure_eq_ok] at h
  obtain ⟨-, hcount, jsonBody, -, extracted, hextract, h⟩ := h
  cases extracted with
  | none =>
      have habsurd := pure_eq_ok.mp h
      cases habsurd
  | some extracted =>
      simp only [bind_eq_ok, pure_eq_ok] at h
      obtain ⟨rendered, hrendered, heq⟩ := h
      cases heq
      exact ⟨hcount, jsonBody, hextract, hrendered⟩

/-- The step lemma: a call fails or declines and changes nothing, or takes the first
transition that matches. -/
theorem advance_advances (runtime : ScenarioRuntime) (request : HttpRequest) (body : Bytes) :
    Advances runtime request (runtime.advance codec request body).1
      (runtime.advance codec request body).2 := by
  rw [ScenarioRuntime.advance]
  split
  · exact .declined
  · rename_i transition hfind
    split
    · exact .failed _
    · exact .declined
    · rename_i vars response htake
      obtain ⟨hcount, jsonBody, hextract, hresponse⟩ := takeTransition_eq_ok htake
      exact .taken (firstMatching_of_find hfind) rfl rfl rfl rfl rfl
        (renderResponse_withinBounds hresponse) ((extractAll_length hextract).trans hcount)
        fun hbounded => extractAll_bounded hbounded hextract

/-! ### Validated rules -/

theorem mem_of_validateState {states result : List String} {earlier : List String}
    (h : checkFold validateState earlier states = .ok result) {state : String}
    (hstate : state ∈ result) : state ∈ earlier ∨ state ∈ states := by
  induction states generalizing earlier with
  | nil =>
      cases h
      exact .inl hstate
  | cons first rest ih =>
      simp only [checkFold_cons, bind_eq_ok, validateState, pure_eq_ok] at h
      obtain ⟨next, ⟨_, _, _, _, rfl⟩, hrest⟩ := h
      rcases ih hrest with hnext | hrest
      · rcases List.mem_cons.mp hnext with rfl | hearlier
        · exact .inr List.mem_cons_self
        · exact .inl hearlier
      · exact .inr (List.mem_cons_of_mem _ hrest)

/-- A scenario whose initial state and transitions lead to declared states only. -/
structure Closed (scenario : Scenario) : Prop where
  initial : scenario.initialState ∈ scenario.states
  next : ∀ transition ∈ scenario.transitions, transition.nextState ∈ scenario.states

theorem validateScenario_eq_ok {ids next : List String} {scenario : Scenario}
    (h : validateScenario ids scenario = .ok next) :
    Closed scenario ∧ scenario.id ∉ ids ∧ next = scenario.id :: ids := by
  simp only [validateScenario, bind_eq_ok, ensure_eq_ok, checkAll_eq_ok, pure_eq_ok] at h
  obtain ⟨_, -, _, hfresh, _, -, states, hstates, _, hinitial, _, -, _, htransitions, rfl⟩ := h
  have hdeclared : ∀ state ∈ states, state ∈ scenario.states := fun state hstate =>
    (mem_of_validateState hstates hstate).resolve_left List.not_mem_nil
  refine ⟨⟨hdeclared _ hinitial, ?_⟩, hfresh, rfl⟩
  intro transition htransition
  obtain ⟨_, hends, -⟩ := htransitions transition htransition
  exact hdeclared _ hends.2

theorem nodup_of_validateScenario {ids result : List String} {scenarios : List Scenario}
    (h : checkFold validateScenario ids scenarios = .ok result) :
    (∀ scenario ∈ scenarios, scenario.id ∉ ids) ∧ (scenarios.map (·.id)).Nodup := by
  induction scenarios generalizing ids with
  | nil => exact ⟨fun _ habsurd => absurd habsurd List.not_mem_nil, List.nodup_nil⟩
  | cons first rest ih =>
      simp only [checkFold_cons, bind_eq_ok] at h
      obtain ⟨next, hfirst, hrest⟩ := h
      obtain ⟨-, hfresh, rfl⟩ := validateScenario_eq_ok hfirst
      obtain ⟨hids, hnodup⟩ := ih hrest
      constructor
      · intro scenario hscenario
        rcases List.mem_cons.mp hscenario with rfl | hscenario
        · exact hfresh
        · exact fun hmem => hids scenario hscenario (List.mem_cons_of_mem _ hmem)
      · rw [List.map_cons, List.nodup_cons]
        refine ⟨?_, hnodup⟩
        intro hmem
        obtain ⟨other, hother, heq⟩ := List.mem_map.mp hmem
        apply hids other hother
        rw [heq]
        exact List.mem_cons_self

theorem validate_eq_ok {rules : ScenarioRules} (h : rules.validate = .ok ()) :
    (∀ scenario ∈ rules.scenarios, Closed scenario) ∧ (rules.scenarios.map (·.id)).Nodup := by
  simp only [ScenarioRules.validate, bind_eq_ok, ensure_eq_ok] at h
  obtain ⟨_, _, _, _, ids, hids, -⟩ := h
  refine ⟨?_, (nodup_of_validateScenario hids).2⟩
  intro scenario hscenario
  obtain ⟨before, after, hcheck⟩ := exists_check_of_mem hids hscenario
  exact (validateScenario_eq_ok hcheck).1

/-- A valid document has a runtime for each of its scenarios. -/
theorem runtimeWithRedaction_of_mem {rules : ScenarioRules} (hvalid : rules.validate = .ok ())
    {scenario : Scenario} (hscenario : scenario ∈ rules.scenarios) (debug : String → String)
    (redaction : RedactionConfig) :
    runtimeWithRedaction debug rules scenario.id redaction =
      .ok
        { scenario := scenario, state := scenario.initialState, vars := []
          redaction := redaction } := by
  have hfind : rules.scenarios.find? (fun other => decide (other.id = scenario.id)) =
      some scenario := by
    obtain ⟨before, after, heq⟩ := List.append_of_mem hscenario
    rw [List.find?_eq_some_iff_append]
    refine ⟨by simp, before, after, heq, ?_⟩
    intro other hother
    have hnodup := (validate_eq_ok hvalid).2
    rw [heq, List.map_append, List.map_cons, List.nodup_append] at hnodup
    have hne := hnodup.2.2 other.id (List.mem_map_of_mem hother) scenario.id List.mem_cons_self
    simpa using hne
  rw [runtimeWithRedaction, hvalid, hfind]
  rfl

/-! ### Runs -/

/-- A runtime of a scenario within the bounds of a run. -/
structure WellFormed (program : Scenario) (runtime : ScenarioRuntime) : Prop where
  scenario : runtime.scenario = program
  state : runtime.state ∈ program.states
  count : runtime.vars.length ≤ maxVariables
  values : Bounded runtime.vars

theorem Advances.wellFormed {program : Scenario} (hclosed : Closed program)
    {runtime next : ScenarioRuntime} {request : HttpRequest}
    {answer : Except String (Option ScenarioStep)} (h : WellFormed program runtime)
    (hstep : Advances runtime request answer next) : WellFormed program next := by
  cases hstep with
  | failed => exact h
  | declined => exact h
  | taken first _ _ state scenario _ _ count values =>
      refine ⟨scenario.trans h.scenario, ?_, count, values h.values⟩
      obtain ⟨before, after, htransitions, -⟩ := first
      rw [state]
      apply hclosed.next
      rw [← h.scenario, htransitions]
      exact List.mem_append_right _ List.mem_cons_self

theorem after_wellFormed {program : Scenario} (hclosed : Closed program)
    {runtime : ScenarioRuntime} (h : WellFormed program runtime)
    (requests : List ScenarioRequest) : WellFormed program (runtime.after codec requests) := by
  induction requests generalizing runtime with
  | nil => exact h
  | cons request rest ih => exact ih ((advance_advances _ _ _).wellFormed hclosed h)

/-- Each call in a run of a valid scenario is atomic and leaves the runtime within its
bounds. -/
theorem scenario_step_atomic (codec : BodyCodec N) {rules : ScenarioRules}
    (hvalid : rules.validate = .ok ()) {scenario : Scenario}
    (hscenario : scenario ∈ rules.scenarios) (debug : String → String)
    (redaction : RedactionConfig) :
    ∃ runtime, runtimeWithRedaction debug rules scenario.id redaction = .ok runtime ∧
      runtime.scenario = scenario ∧
      ∀ (requests : List ScenarioRequest) (request : HttpRequest) (body : Bytes),
        let current := runtime.after codec requests
        let answer := current.advance codec request body
        Advances current request answer.1 answer.2 ∧ WellFormed scenario answer.2 := by
  have hclosed := (validate_eq_ok hvalid).1 scenario hscenario
  let start : ScenarioRuntime :=
    { scenario := scenario, state := scenario.initialState, vars := [], redaction := redaction }
  have hstart : WellFormed scenario start :=
    ⟨rfl, hclosed.initial, Nat.zero_le _, fun _ habsurd => absurd habsurd List.not_mem_nil⟩
  refine ⟨start, runtimeWithRedaction_of_mem hvalid hscenario debug redaction, rfl, ?_⟩
  intro requests request body
  have hcurrent : WellFormed scenario (start.after codec requests) :=
    after_wellFormed hclosed hstart requests
  exact ⟨advance_advances _ _ _, (advance_advances _ _ _).wellFormed hclosed hcurrent⟩

/-- A cart that is opened once, by the name in its query. -/
def cartScenario : Scenario where
  id := "cart"
  initialState := "empty"
  states := ["empty", "open"]
  transitions :=
    [{ fromState := "empty", when := [.method "POST"]
       extract := [{ name := "item", source := .query "item" }]
       extractionFailure := .skip
       response :=
        { status := 201, headers := [], bodyTemplate := "added \x7b\x7bitem\x7d\x7d"
          jsonPointerReplacements := [], fault := none }
       nextState := "open" }]

def cartRules : ScenarioRules where
  schemaVersion := 1
  scenarios := [cartScenario]

/-- The runtime of the cart before any request. -/
def emptyCart : ScenarioRuntime where
  scenario := cartScenario
  state := "empty"
  vars := []
  redaction := RedactionConfig.defaultSecure

/-- The cart is opened by one request and closed to every later one. -/
theorem cart_step_atomic :
    cartRules.validate = .ok () ∧
      (emptyCart.advance sampleCodec { plainRequest with query := [⟨"item", "cup"⟩] } []).2 =
        { emptyCart with state := "open", vars := [("item", "cup")] } ∧
      ∃ runtime, runtimeWithRedaction id cartRules "cart" RedactionConfig.defaultSecure =
          .ok runtime ∧
        runtime.scenario = cartScenario ∧
        ∀ (requests : List ScenarioRequest) (request : HttpRequest) (body : Bytes),
          let current := runtime.after sampleCodec requests
          let answer := current.advance sampleCodec request body
          Advances current request answer.1 answer.2 ∧ WellFormed cartScenario answer.2 := by
  have hvalid : cartRules.validate = .ok () := by decide
  refine ⟨hvalid, by decide +kernel, ?_⟩
  exact scenario_step_atomic sampleCodec hvalid List.mem_cons_self id _

end EggReplay.Core.ScenarioRuns
