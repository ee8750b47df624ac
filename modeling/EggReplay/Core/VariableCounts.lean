import EggReplay.Core.ScenarioRuns

/-!
The errors of a scenario step by the stage that they come from, and the number of variables that
a step is refused for.
-/

namespace EggReplay.Core.VariableCounts

open EggReplay.Library.Checks
open EggReplay.Library.Text
open EggReplay.Library.JsonText
open EggReplay.Core.FlowRecord
open EggReplay.Core.Redaction
open EggReplay.Core.BodyWildcards
open EggReplay.Core.Scenarios
open EggReplay.Core.ScenarioSteps
open EggReplay.Core.ScenarioRuns

variable {N : Type} {codec : BodyCodec N}

/-! ### Errors -/

def variableCountError : String := "scenario variable count exceeds configured limit"

def bodySizeError : String := "JSON extraction body exceeds configured limit"

def bodySyntaxError : String := "JSON extraction body is invalid"

def valueSizeError : String := "scenario variable value exceeds configured limit"

/-- The errors before a value is extracted, or for its size. -/
def guardErrors : List String :=
  [variableCountError, bodySizeError, bodySyntaxError, valueSizeError]

/-- An error that quotes the name of a variable is none of them. -/
theorem quoted_not_guard (name tail : String) :
    "scenario variable \"" ++ name ++ tail ∉ guardErrors := by
  intro h
  have hunquoted : ∀ error ∈ guardErrors, startsWith error "scenario variable \"" = false := by
    decide
  have hquoted : startsWith ("scenario variable \"" ++ name ++ tail) "scenario variable \"" =
      true := by
    rw [startsWith_iff, String.toList_append, String.toList_append, List.append_assoc]
    exact List.prefix_append _ _
  rw [hunquoted _ h] at hquoted
  cases hquoted

theorem extractValue_error {redaction : RedactionConfig} {request : HttpRequest}
    {jsonBody : Option (Json N)} {vars : Variables} {extraction : VariableExtraction}
    {error : String}
    (h : extractValue codec redaction request jsonBody vars extraction = .error error) :
    error ∉ guardErrors := by
  rw [extractValue] at h
  split at h
  · cases h
    decide
  · cases hvalue : sourceValue codec request jsonBody vars extraction.source with
    | some value =>
        rw [hvalue] at h
        cases h
    | none =>
        rw [hvalue] at h
        cases h
        exact quoted_not_guard extraction.name "\" could not be extracted"

theorem renderFrom_error {vars : Variables} {output error : String} {rest : List Char}
    (h : renderFrom vars output rest = .error error) : error ∉ guardErrors := by
  fun_induction renderFrom vars output rest with
  | case1 output rest hstart hlimit =>
      cases h
      decide
  | case2 output rest hstart hlimit => cases h
  | case3 output rest lead tail hstart hend =>
      cases h
      decide
  | case4 output rest lead tail hstart name after hend other hname =>
      cases h
      rw [validateName, ensure] at hname
      split at hname
      · cases hname
      · cases hname
        decide
  | case5 output rest lead tail hstart name after hend hname hvalue =>
      cases h
      exact quoted_not_guard (String.ofList name) "\" is missing"
  | case6 output rest lead tail hstart name after hend hname value hvalue current hlimit =>
      cases h
      decide
  | case7 output rest lead tail hstart name after hend hname value hvalue current hlimit ih =>
      exact ih h

theorem render_error {template error : String} {vars : Variables}
    (h : render template vars = .error error) : error ∉ guardErrors := by
  rw [render] at h
  split at h
  · cases h
    decide
  · exact renderFrom_error h

theorem replaceAt_error {vars : Variables} {value : Json N}
    {replacement : JsonPointerReplacement} {error : String}
    (h : replaceAt vars value replacement = .error error) : error ∉ guardErrors := by
  rw [replaceAt, bind_eq_error] at h
  rcases h with h | ⟨_, -, h⟩
  · obtain ⟨-, rfl⟩ := ensure_eq_error.mp h
    decide
  · rw [bind_eq_error] at h
    rcases h with h | ⟨text, -, h⟩
    · exact render_error h
    · split at h
      · cases h
      · cases h

theorem replaceAll_error {vars : Variables} {value : Json N}
    {replacements : List JsonPointerReplacement} {error : String}
    (h : checkFold (replaceAt vars) value replacements = .error error) : error ∉ guardErrors := by
  induction replacements generalizing value with
  | nil => cases h
  | cons replacement rest ih =>
      rw [checkFold_cons, bind_eq_error] at h
      rcases h with h | ⟨next, -, h⟩
      · exact replaceAt_error h
      · exact ih h

theorem mapError_const_eq_error {ε α : Type} {x : Except ε α} {message error : String}
    (h : x.mapError (fun _ => message) = .error error) : message = error := by
  cases x with
  | ok value => cases h
  | error _ => exact Except.error.inj h

theorem renderBody_error {response : ScenarioResponse} {vars : Variables} {error : String}
    (h : renderBody codec response vars = .error error) : error ∉ guardErrors := by
  rw [renderBody, bind_eq_error] at h
  rcases h with h | ⟨text, -, h⟩
  · exact render_error h
  split at h
  · cases h
  rw [bind_eq_error] at h
  rcases h with h | ⟨value, -, h⟩
  · obtain rfl := mapError_const_eq_error h
    decide
  rw [bind_eq_error] at h
  rcases h with h | ⟨value, -, h⟩
  · exact replaceAll_error h
  rw [bind_eq_error] at h
  rcases h with h | ⟨_, -, h⟩
  · obtain ⟨-, rfl⟩ := ensure_eq_error.mp h
    decide
  · cases h

theorem renderHeaders_error {vars : Variables} {headers : List HeaderEntry} {error : String}
    (h : renderHeaders vars headers = .error error) : error ∉ guardErrors := by
  induction headers with
  | nil => cases h
  | cons header rest ih =>
      rw [renderHeaders, bind_eq_error] at h
      rcases h with h | ⟨rendered, -, h⟩
      · rw [renderHeader, bind_eq_error] at h
        rcases h with h | ⟨value, -, h⟩
        · exact render_error h
        · cases h
      · rw [bind_eq_error] at h
        rcases h with h | ⟨later, -, h⟩
        · exact ih h
        · cases h

theorem renderResponse_error {response : ScenarioResponse} {vars : Variables} {error : String}
    (h : renderResponse codec response vars = .error error) : error ∉ guardErrors := by
  rw [renderResponse, bind_eq_error] at h
  rcases h with h | ⟨body, -, h⟩
  · exact renderBody_error h
  rw [bind_eq_error] at h
  rcases h with h | ⟨_, -, h⟩
  · obtain ⟨-, rfl⟩ := ensure_eq_error.mp h
    decide
  rw [bind_eq_error] at h
  rcases h with h | ⟨headers, -, h⟩
  · exact renderHeaders_error h
  · cases h

theorem parseJsonBody_error {extract : List VariableExtraction} {body : Bytes} {error : String}
    (h : parseJsonBody codec extract body = .error error) :
    error = bodySizeError ∨ error = bodySyntaxError := by
  rw [parseJsonBody] at h
  split at h
  · rw [bind_eq_error] at h
    rcases h with h | ⟨_, -, h⟩
    · exact .inl (ensure_eq_error.mp h).2.symm
    · rw [bind_eq_error] at h
      rcases h with h | ⟨value, -, h⟩
      · exact .inr (mapError_const_eq_error h).symm
      · cases h
  · cases h

theorem extractAll_error {redaction : RedactionConfig} {request : HttpRequest}
    {jsonBody : Option (Json N)} {failure : ExtractionFailureBehavior}
    {extract : List VariableExtraction} {vars : Variables} {error : String}
    (h : extractAll codec redaction request jsonBody failure extract vars = .error error) :
    error = valueSizeError ∨ error ∉ guardErrors := by
  induction extract generalizing vars with
  | nil => cases h
  | cons extraction rest ih =>
      rw [extractAll] at h
      split at h
      · rename_i hvalue
        split at h
        · cases h
          exact .inr (extractValue_error hvalue)
        · cases h
      · split at h
        · cases h
          exact .inl rfl
        · exact ih h

/-- Only the check of the variable limit gives its error. -/
theorem takeTransition_eq_variableCountError {runtime : ScenarioRuntime} {request : HttpRequest}
    {body : Bytes} {transition : ScenarioTransition} :
    takeTransition codec runtime request body transition = .error variableCountError ↔
      maxVariables < transition.extract.length + runtime.vars.length := by
  have hmem : variableCountError ∈ guardErrors := List.mem_cons_self
  rw [takeTransition, bind_eq_error]
  constructor
  · intro h
    rcases h with h | ⟨_, -, h⟩
    · exact Nat.not_le.mp (ensure_eq_error.mp h).1
    rw [bind_eq_error] at h
    rcases h with h | ⟨jsonBody, -, h⟩
    · rcases parseJsonBody_error h with heq | heq
      · exact absurd heq (by decide)
      · exact absurd heq (by decide)
    rw [bind_eq_error] at h
    rcases h with h | ⟨extracted, -, h⟩
    · rcases extractAll_error h with heq | hnot
      · exact absurd heq (by decide)
      · exact absurd hmem hnot
    cases extracted with
    | none => cases h
    | some vars =>
        rw [bind_eq_error] at h
        rcases h with h | ⟨response, -, h⟩
        · exact absurd hmem (renderResponse_error h)
        · cases h
  · intro h
    exact .inl (ensure_eq_error.mpr ⟨Nat.not_le.mpr h, rfl⟩)

theorem advance_eq_variableCountError {runtime : ScenarioRuntime} {request : HttpRequest}
    {body : Bytes} :
    (runtime.advance codec request body).1 = .error variableCountError ↔
      ∃ transition, runtime.scenario.transitions.find? (selects runtime.state request) =
        some transition ∧ maxVariables < transition.extract.length + runtime.vars.length := by
  rw [ScenarioRuntime.advance]
  cases hfind : runtime.scenario.transitions.find? (selects runtime.state request) with
  | none =>
      constructor
      · rintro ⟨⟩
      · rintro ⟨_, hnone, _⟩
        cases hnone
  | some transition =>
      have htake := @takeTransition_eq_variableCountError N codec runtime request body transition
      dsimp only
      constructor
      · intro h
        refine ⟨transition, rfl, htake.mp ?_⟩
        split at h
        · rename_i error herror
          rw [herror, Except.error.inj h]
        · cases h
        · cases h
      · rintro ⟨other, hother, hcount⟩
        obtain rfl := Option.some.inj hother
        rw [htake.mpr hcount]

/-! ### Distinct names -/

def names (vars : Variables) : List String :=
  vars.map Prod.fst

/-- The names of the map are in order, each of them once. -/
def Ascending (vars : Variables) : Prop :=
  (names vars).Pairwise (· < ·)

theorem mem_names_insert {vars : Variables} {name value found : String}
    (h : found ∈ names (vars.insert name value)) : found = name ∨ found ∈ names vars := by
  obtain ⟨pair, hpair, rfl⟩ := List.mem_map.mp h
  rcases mem_insert hpair with rfl | hpair
  · exact .inl rfl
  · exact .inr (List.mem_map_of_mem hpair)

theorem ascending_insert {vars : Variables} (h : Ascending vars) (name value : String) :
    Ascending (vars.insert name value) := by
  induction vars with
  | nil => exact List.pairwise_singleton _ _
  | cons first rest ih =>
      obtain ⟨other, old⟩ := first
      obtain ⟨hleast, hrest⟩ := List.pairwise_cons.mp h
      rw [Variables.insert]
      split
      · rename_i heq
        subst heq
        exact List.pairwise_cons.mpr ⟨hleast, hrest⟩
      · rename_i hne
        split
        · rename_i hless
          refine List.pairwise_cons.mpr ⟨?_, h⟩
          intro found hfound
          rcases List.mem_cons.mp hfound with rfl | hfound
          · exact hless
          · exact hless.trans (hleast found hfound)
        · rename_i hnot
          refine List.pairwise_cons.mpr ⟨?_, ih hrest⟩
          intro found hfound
          rcases mem_names_insert hfound with rfl | hfound
          · exact lt_of_le_of_ne (not_lt.mp hnot) (Ne.symm hne)
          · exact hleast found hfound

theorem extractAll_ascending {redaction : RedactionConfig} {request : HttpRequest}
    {jsonBody : Option (Json N)} {failure : ExtractionFailureBehavior}
    {extract : List VariableExtraction} {vars next : Variables} (hvars : Ascending vars)
    (h : extractAll codec redaction request jsonBody failure extract vars = .ok (some next)) :
    Ascending next := by
  refine extractAll_induction (P := fun _ now => Ascending now) hvars ?_ h
  intro extraction rest now value hnow _
  exact ascending_insert hnow extraction.name value

theorem advance_ascending {runtime : ScenarioRuntime} (h : Ascending runtime.vars)
    (request : HttpRequest) (body : Bytes) :
    Ascending (runtime.advance codec request body).2.vars := by
  rw [ScenarioRuntime.advance]
  split
  · exact h
  · split
    · exact h
    · exact h
    · rename_i vars response htake
      obtain ⟨-, jsonBody, hextract, -⟩ := takeTransition_eq_ok htake
      exact extractAll_ascending h hextract

theorem after_ascending {runtime : ScenarioRuntime} (h : Ascending runtime.vars)
    (requests : List ScenarioRequest) : Ascending (runtime.after codec requests).vars := by
  induction requests generalizing runtime with
  | nil => exact h
  | cons request rest ih => exact ih (advance_ascending h request.1 request.2)

/-- The validator lets no name be extracted twice. -/
theorem nodup_of_validateExtraction {extract : List VariableExtraction}
    {earlier final : List String} (h : checkFold validateExtraction earlier extract = .ok final) :
    (extract.map (·.name)).Nodup ∧ ∀ extraction ∈ extract, extraction.name ∉ earlier := by
  induction extract generalizing earlier with
  | nil => exact ⟨List.nodup_nil, fun _ habsurd => absurd habsurd List.not_mem_nil⟩
  | cons extraction rest ih =>
      simp only [checkFold_cons, bind_eq_ok, validateExtraction, ensure_eq_ok, pure_eq_ok] at h
      obtain ⟨next, ⟨_, -, _, hfresh, _, -, rfl⟩, hrest⟩ := h
      obtain ⟨hnodup, hlater⟩ := ih hrest
      constructor
      · refine List.nodup_cons.mpr ⟨?_, hnodup⟩
        intro hmem
        obtain ⟨other, hother, heq⟩ := List.mem_map.mp hmem
        apply hlater other hother
        rw [heq]
        exact List.mem_cons_self
      · intro found hfound
        rcases List.mem_cons.mp hfound with rfl | hfound
        · exact hfresh
        · exact fun hmem => hlater found hfound (List.mem_cons_of_mem _ hmem)

theorem validateTransition_of_validate {rules : ScenarioRules} (hvalid : rules.validate = .ok ())
    {scenario : Scenario} (hscenario : scenario ∈ rules.scenarios)
    {transition : ScenarioTransition} (htransition : transition ∈ scenario.transitions) :
    validateTransition transition = .ok () := by
  simp only [ScenarioRules.validate, bind_eq_ok, ensure_eq_ok] at hvalid
  obtain ⟨_, -, _, -, ids, hids, -⟩ := hvalid
  obtain ⟨before, after, hcheck⟩ := exists_check_of_mem hids hscenario
  simp only [validateScenario, bind_eq_ok, ensure_eq_ok, checkAll_eq_ok, pure_eq_ok] at hcheck
  obtain ⟨_, -, _, -, _, -, states, -, _, -, _, -, _, htransitions, -⟩ := hcheck
  obtain ⟨_, -, hchecked⟩ := htransitions transition htransition
  exact hchecked

theorem nodup_of_validate {rules : ScenarioRules} (hvalid : rules.validate = .ok ())
    {scenario : Scenario} (hscenario : scenario ∈ rules.scenarios)
    {transition : ScenarioTransition} (htransition : transition ∈ scenario.transitions) :
    (transition.extract.map (·.name)).Nodup := by
  have hchecked := validateTransition_of_validate hvalid hscenario htransition
  simp only [validateTransition, bind_eq_ok, ensure_eq_ok] at hchecked
  obtain ⟨_, -, _, -, _, -, _, -, _, -, _, -, _, -, final, hfinal, -⟩ := hchecked
  exact (nodup_of_validateExtraction hfinal).1

/-! ### The limit -/

def extractedNames (transition : ScenarioTransition) : Finset String :=
  (transition.extract.map (·.name)).toFinset

/-- The error for the number of variables is given only where the names of the variables and of
the extractions together are too many. -/
def CountsDistinct (codec : BodyCodec N) (runtime : ScenarioRuntime) (request : HttpRequest)
    (body : Bytes) : Prop :=
  (runtime.advance codec request body).1 = .error variableCountError →
    ∃ transition, runtime.scenario.transitions.find? (selects runtime.state request) =
        some transition ∧
      maxVariables < (extractedNames transition ∪ (names runtime.vars).toFinset).card

/-- The extractions of the transition that is selected and the variables are no more than the
limit, or too many even without the extractions that overwrite a variable. -/
def OverwritesFew (runtime : ScenarioRuntime) (request : HttpRequest) : Prop :=
  ∀ transition, runtime.scenario.transitions.find? (selects runtime.state request) =
      some transition →
    transition.extract.length + runtime.vars.length ≤ maxVariables ∨
      maxVariables < transition.extract.length + runtime.vars.length -
        (extractedNames transition ∩ (names runtime.vars).toFinset).card

theorem card_distinct {runtime : ScenarioRuntime} (hvars : Ascending runtime.vars)
    {transition : ScenarioTransition} (hnodup : (transition.extract.map (·.name)).Nodup) :
    (extractedNames transition ∪ (names runtime.vars).toFinset).card =
      transition.extract.length + runtime.vars.length -
        (extractedNames transition ∩ (names runtime.vars).toFinset).card := by
  have hnames : (names runtime.vars).toFinset.card = runtime.vars.length := by
    rw [List.toFinset_card_of_nodup (hvars.imp ne_of_lt), names, List.length_map]
  have hextracted : (extractedNames transition).card = transition.extract.length := by
    rw [extractedNames, List.toFinset_card_of_nodup hnodup, List.length_map]
  rw [Finset.card_union, hnames, hextracted]

theorem countsDistinct_iff {runtime : ScenarioRuntime} (hvars : Ascending runtime.vars)
    (hnodup : ∀ transition ∈ runtime.scenario.transitions,
      (transition.extract.map (·.name)).Nodup) (request : HttpRequest) (body : Bytes) :
    CountsDistinct codec runtime request body ↔ OverwritesFew runtime request := by
  constructor
  · intro h transition hfind
    by_cases hcount : transition.extract.length + runtime.vars.length ≤ maxVariables
    · exact .inl hcount
    · right
      obtain ⟨other, hother, hmany⟩ :=
        h (advance_eq_variableCountError.mpr ⟨transition, hfind, Nat.not_le.mp hcount⟩)
      obtain rfl := Option.some.inj (hother.symm.trans hfind)
      rwa [card_distinct hvars (hnodup other (List.mem_of_find?_eq_some hfind))] at hmany
  · intro h herror
    obtain ⟨transition, hfind, hcount⟩ := advance_eq_variableCountError.mp herror
    refine ⟨transition, hfind, ?_⟩
    rw [card_distinct hvars (hnodup transition (List.mem_of_find?_eq_some hfind))]
    exact (h transition hfind).resolve_left (Nat.not_le.mpr hcount)

theorem advances_scenario {runtime next : ScenarioRuntime} {request : HttpRequest}
    {answer : Except String (Option ScenarioStep)} (h : Advances runtime request answer next) :
    next.scenario = runtime.scenario := by
  cases h with
  | failed => rfl
  | declined => rfl
  | taken _ _ _ _ program => exact program

theorem after_scenario (runtime : ScenarioRuntime) (requests : List ScenarioRequest) :
    (runtime.after codec requests).scenario = runtime.scenario := by
  induction requests generalizing runtime with
  | nil => rfl
  | cons request rest ih => exact (ih _).trans (advances_scenario (advance_advances _ _ _))

/-- In every state that a run of a valid scenario reaches, the limit counts the distinct variables
exactly where few of them are overwritten. -/
theorem variable_limit_iff (codec : BodyCodec N) {rules : ScenarioRules}
    (hvalid : rules.validate = .ok ()) {scenario : Scenario}
    (hscenario : scenario ∈ rules.scenarios) (debug : String → String)
    (redaction : RedactionConfig) :
    ∃ runtime, runtimeWithRedaction debug rules scenario.id redaction = .ok runtime ∧
      ∀ (requests : List ScenarioRequest) (request : HttpRequest) (body : Bytes),
        CountsDistinct codec (runtime.after codec requests) request body ↔
          OverwritesFew (runtime.after codec requests) request := by
  refine ⟨_, runtimeWithRedaction_of_mem hvalid hscenario debug redaction, ?_⟩
  intro requests request body
  apply countsDistinct_iff
  · apply after_ascending
    exact List.Pairwise.nil
  · intro transition htransition
    rw [after_scenario] at htransition
    exact nodup_of_validate hvalid hscenario htransition

/-- A loop that extracts `count` variables, named by letters. -/
def loopTransition (count : Nat) : ScenarioTransition where
  fromState := "here"
  when := []
  extract := (List.range count).map fun index =>
    { name := String.ofList (List.replicate (index + 1) 'a'), source := .pathSegment 0 }
  extractionFailure := .abort
  response :=
    { status := 200, headers := [], bodyTemplate := "", jsonPointerReplacements := []
      fault := none }
  nextState := "here"

def loopScenario (count : Nat) : Scenario where
  id := "loop"
  initialState := "here"
  states := ["here"]
  transitions := [loopTransition count]

def loopRules (count : Nat) : ScenarioRules where
  schemaVersion := 1
  scenarios := [loopScenario count]

def loopRuntime (count : Nat) : ScenarioRuntime where
  scenario := loopScenario count
  state := "here"
  vars := []
  redaction := RedactionConfig.defaultSecure

def loopRequest : HttpRequest :=
  { plainRequest with path := "/x" }

/-- The second pass through the loop fails, although its 33 variables are all set. -/
theorem loop_count_fails :
    ¬ ∀ (rules : ScenarioRules) (scenario : Scenario) (runtime : ScenarioRuntime)
      (requests : List ScenarioRequest) (request : HttpRequest) (body : Bytes),
      rules.validate = .ok () → scenario ∈ rules.scenarios →
        runtimeWithRedaction id rules scenario.id RedactionConfig.defaultSecure = .ok runtime →
          CountsDistinct sampleCodec (runtime.after sampleCodec requests) request body := by
  intro h
  have hvalid : (loopRules 33).validate = .ok () := by decide
  have hmem : loopScenario 33 ∈ (loopRules 33).scenarios := List.mem_cons_self
  have hcounts := h (loopRules 33) (loopScenario 33) (loopRuntime 33) [(loopRequest, [])]
    loopRequest [] hvalid hmem (runtimeWithRedaction_of_mem hvalid hmem id _)
  obtain ⟨transition, hfind, hmany⟩ := hcounts (by decide +kernel)
  have hloop : ((loopRuntime 33).after sampleCodec [(loopRequest, [])]).scenario.transitions.find?
      (selects ((loopRuntime 33).after sampleCodec [(loopRequest, [])]).state loopRequest) =
        some (loopTransition 33) := by
    decide +kernel
  obtain rfl := Option.some.inj (hloop.symm.trans hfind)
  exact absurd hmany (by decide +kernel)

theorem small_loop_counts :
    (loopRules 2).validate = .ok () ∧
      ∃ runtime, runtimeWithRedaction id (loopRules 2) "loop" RedactionConfig.defaultSecure =
          .ok runtime ∧
        ∀ (requests : List ScenarioRequest) (request : HttpRequest) (body : Bytes),
          CountsDistinct sampleCodec (runtime.after sampleCodec requests) request body ↔
            OverwritesFew (runtime.after sampleCodec requests) request := by
  have hvalid : (loopRules 2).validate = .ok () := by decide
  refine ⟨hvalid, ?_⟩
  exact variable_limit_iff sampleCodec hvalid List.mem_cons_self id _

end EggReplay.Core.VariableCounts
