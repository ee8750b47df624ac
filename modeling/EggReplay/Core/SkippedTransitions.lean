import EggReplay.Core.VariableCounts

/-!
A transition that is to be skipped, against the scenario without it: what stops a transition that
was selected, and when the transition leaves no trace in a step.
-/

namespace EggReplay.Core.SkippedTransitions

open EggReplay.Library.Checks
open EggReplay.Library.Text
open EggReplay.Library.JsonText
open EggReplay.Library.JsonPointer
open EggReplay.Core.FlowRecord
open EggReplay.Core.Redaction
open EggReplay.Core.BodyWildcards
open EggReplay.Core.Scenarios
open EggReplay.Core.ScenarioSteps
open EggReplay.Core.ScenarioRuns
open EggReplay.Core.VariableCounts

variable {N : Type}

/-! ### What stops a transition -/

/-- The JSON value that the pointers of a transition look into. -/
def bodyJson (codec : BodyCodec N) (body : Bytes) : Option (Json N) :=
  (codec.fromSlice body).toOption

/-- One of the extractions finds no value, those before it being made. -/
inductive Unextractable (codec : BodyCodec N) (redaction : RedactionConfig)
    (request : HttpRequest) (jsonBody : Option (Json N)) :
    List VariableExtraction → Variables → Prop
  | here {extraction : VariableExtraction} {rest : List VariableExtraction} {vars : Variables}
      {error : String}
      (h : extractValue codec redaction request jsonBody vars extraction = .error error) :
      Unextractable codec redaction request jsonBody (extraction :: rest) vars
  | later {extraction : VariableExtraction} {rest : List VariableExtraction} {vars : Variables}
      {value : String}
      (h : extractValue codec redaction request jsonBody vars extraction = .ok value)
      (hrest : Unextractable codec redaction request jsonBody rest
        (vars.insert extraction.name value)) :
      Unextractable codec redaction request jsonBody (extraction :: rest) vars

/-- The first thing that keeps a selected transition from being rendered. -/
inductive Stop where
  | variableCount | bodySize | bodySyntax | valueSize | skipped | aborted
  deriving DecidableEq, Repr

def extractionStop (codec : BodyCodec N) (redaction : RedactionConfig) (request : HttpRequest)
    (jsonBody : Option (Json N)) (failure : ExtractionFailureBehavior) :
    List VariableExtraction → Variables → Option Stop
  | [], _ => none
  | extraction :: rest, vars =>
      match extractValue codec redaction request jsonBody vars extraction with
      | .error _ => some (if failure = .skip then .skipped else .aborted)
      | .ok value =>
          if maxValueBytes < value.utf8ByteSize then some .valueSize
          else extractionStop codec redaction request jsonBody failure rest
            (vars.insert extraction.name value)

def stop (codec : BodyCodec N) (runtime : ScenarioRuntime) (request : HttpRequest) (body : Bytes)
    (transition : ScenarioTransition) : Option Stop :=
  if maxVariables < transition.extract.length + runtime.vars.length then some .variableCount
  else if transition.extract.any isJsonSource = true ∧ maxJsonBytes < body.length then
    some .bodySize
  else if transition.extract.any isJsonSource = true ∧ bodyJson codec body = none then
    some .bodySyntax
  else extractionStop codec runtime.redaction request (bodyJson codec body)
    transition.extractionFailure transition.extract runtime.vars

/-- What becomes of a transition, by what stops it. -/
inductive Outcome : Option Stop → Except String (Option (Variables × RenderedScenarioResponse)) →
    Prop
  | variableCount : Outcome (some .variableCount) (.error variableCountError)
  | bodySize : Outcome (some .bodySize) (.error bodySizeError)
  | bodySyntax : Outcome (some .bodySyntax) (.error bodySyntaxError)
  | valueSize : Outcome (some .valueSize) (.error valueSizeError)
  | skipped : Outcome (some .skipped) (.ok none)
  | aborted {error : String} (h : error ∉ guardErrors) : Outcome (some .aborted) (.error error)
  | failed {error : String} (h : error ∉ guardErrors) : Outcome none (.error error)
  | taken (result : Variables × RenderedScenarioResponse) : Outcome none (.ok (some result))

section

variable {codec : BodyCodec N}

/-- Sources other than a pointer do not look at the body. -/
theorem extractValue_jsonBody {redaction : RedactionConfig} {request : HttpRequest}
    {vars : Variables} {extraction : VariableExtraction} (h : isJsonSource extraction = false)
    (jsonBody other : Option (Json N)) :
    extractValue codec redaction request jsonBody vars extraction =
      extractValue codec redaction request other vars extraction := by
  obtain ⟨name, source⟩ := extraction
  cases source with
  | jsonPointer pointer => cases h
  | pathSegment index => rfl
  | query key => rfl
  | header name => rfl
  | priorVariable name => rfl

theorem extractAll_jsonBody {redaction : RedactionConfig} {request : HttpRequest}
    {failure : ExtractionFailureBehavior} {extract : List VariableExtraction} {vars : Variables}
    (h : extract.any isJsonSource = false) (jsonBody other : Option (Json N)) :
    extractAll codec redaction request jsonBody failure extract vars =
      extractAll codec redaction request other failure extract vars := by
  induction extract generalizing vars with
  | nil => rfl
  | cons extraction rest ih =>
      rw [List.any_cons, Bool.or_eq_false_iff] at h
      rw [extractAll, extractAll, extractValue_jsonBody h.1 jsonBody other]
      split
      · rfl
      · rw [ih h.2]

/-- The extractions by what stops them. -/
inductive ExtractionOutcome : Option Stop → Except String (Option Variables) → Prop
  | valueSize : ExtractionOutcome (some .valueSize) (.error valueSizeError)
  | skipped : ExtractionOutcome (some .skipped) (.ok none)
  | aborted {error : String} (h : error ∉ guardErrors) :
      ExtractionOutcome (some .aborted) (.error error)
  | finished (vars : Variables) : ExtractionOutcome none (.ok (some vars))

theorem extractAll_outcome (redaction : RedactionConfig) (request : HttpRequest)
    (jsonBody : Option (Json N)) (failure : ExtractionFailureBehavior)
    (extract : List VariableExtraction) (vars : Variables) :
    ExtractionOutcome (extractionStop codec redaction request jsonBody failure extract vars)
      (extractAll codec redaction request jsonBody failure extract vars) := by
  induction extract generalizing vars with
  | nil => exact .finished vars
  | cons extraction rest ih =>
      rw [extractionStop, extractAll]
      cases hvalue : extractValue codec redaction request jsonBody vars extraction with
      | error error =>
          cases failure with
          | abort => exact .aborted (extractValue_error hvalue)
          | skip => exact .skipped
      | ok value =>
          dsimp only
          split
          · exact .valueSize
          · exact ih _

/-- The body is parsed where a pointer looks into it. -/
theorem parseJsonBody_eq (extract : List VariableExtraction) (body : Bytes) :
    parseJsonBody codec extract body =
      if extract.any isJsonSource = true ∧ maxJsonBytes < body.length then .error bodySizeError
      else if extract.any isJsonSource = true ∧ bodyJson codec body = none then
        .error bodySyntaxError
      else .ok (if extract.any isJsonSource = true then bodyJson codec body else none) := by
  rw [parseJsonBody, bodyJson]
  by_cases hjson : extract.any isJsonSource = true
  · rw [if_pos hjson, if_pos hjson]
    by_cases hsize : maxJsonBytes < body.length
    · rw [if_pos ⟨hjson, hsize⟩, ensure_of_false (Nat.not_le.mpr hsize)]
      rfl
    · rw [if_neg fun h => hsize h.2, ensure_of_true (Nat.not_lt.mp hsize)]
      cases codec.fromSlice body with
      | error error =>
          rw [if_pos ⟨hjson, rfl⟩]
          rfl
      | ok value =>
          rw [if_neg fun h => by cases h.2]
          rfl
  · rw [if_neg hjson, if_neg fun h => hjson h.1, if_neg fun h => hjson h.1, if_neg hjson]
    rfl

theorem takeTransition_outcome (runtime : ScenarioRuntime) (request : HttpRequest) (body : Bytes)
    (transition : ScenarioTransition) :
    Outcome (stop codec runtime request body transition)
      (takeTransition codec runtime request body transition) := by
  rw [stop, takeTransition, parseJsonBody_eq]
  split
  · rename_i hcount
    rw [ensure_of_false (Nat.not_le.mpr hcount)]
    exact .variableCount
  rename_i hcount
  rw [ensure_of_true (Nat.not_lt.mp hcount)]
  split
  · exact .bodySize
  split
  · exact .bodySyntax
  have hextract : extractAll codec runtime.redaction request
      (if transition.extract.any isJsonSource = true then bodyJson codec body else none)
      transition.extractionFailure transition.extract runtime.vars =
        extractAll codec runtime.redaction request (bodyJson codec body)
          transition.extractionFailure transition.extract runtime.vars := by
    split
    · rfl
    · rename_i hjson
      exact extractAll_jsonBody (Bool.eq_false_iff.mpr hjson) _ _
  have houtcome := @extractAll_outcome N codec runtime.redaction request
    (bodyJson codec body) transition.extractionFailure transition.extract runtime.vars
  rw [ok_bind, ok_bind, hextract]
  generalize extractionStop codec runtime.redaction request (bodyJson codec body)
    transition.extractionFailure transition.extract runtime.vars = stopped at houtcome ⊢
  generalize extractAll codec runtime.redaction request (bodyJson codec body)
    transition.extractionFailure transition.extract runtime.vars = extracted at houtcome ⊢
  cases houtcome with
  | valueSize => exact .valueSize
  | skipped => exact .skipped
  | aborted h => exact .aborted h
  | finished vars =>
      rw [ok_bind]
      dsimp only
      cases hresponse : renderResponse codec transition.response vars with
      | error error => exact .failed (renderResponse_error hresponse)
      | ok response => exact .taken (vars, response)

/-- A transition that stops itself for another reason than its own abort. -/
def Quiet (stopped : Option Stop) : Prop :=
  stopped ≠ none ∧ stopped ≠ some .aborted

/-- What stopped a transition, as far as it can be told from what became of it. -/
def stopOf (result : Except String (Option (Variables × RenderedScenarioResponse))) :
    Option Stop :=
  match result with
  | .ok none => some .skipped
  | .ok (some _) => none
  | .error error =>
      if error = variableCountError then some .variableCount
      else if error = bodySizeError then some .bodySize
      else if error = bodySyntaxError then some .bodySyntax
      else if error = valueSizeError then some .valueSize
      else none

theorem stopOf_not_guard {error : String} (h : error ∉ guardErrors) :
    stopOf (.error error) = none := by
  simp only [guardErrors, List.mem_cons, List.not_mem_nil, or_false, not_or] at h
  obtain ⟨hcount, hsize, hsyntax, hvalue⟩ := h
  rw [stopOf, if_neg hcount, if_neg hsize, if_neg hsyntax, if_neg hvalue]

theorem Outcome.stopOf_eq {stopped : Option Stop}
    {result : Except String (Option (Variables × RenderedScenarioResponse))}
    (h : Outcome stopped result) :
    stopOf result = if stopped = some .aborted then none else stopped := by
  cases h with
  | variableCount => rfl
  | bodySize => rfl
  | bodySyntax => rfl
  | valueSize => rfl
  | skipped => rfl
  | aborted h => exact stopOf_not_guard h
  | failed h => exact stopOf_not_guard h
  | taken result => rfl

/-- Of two transitions, the first of them quiet, the same becomes where the same stops them. -/
theorem Outcome.eq_iff {stopped other : Option Stop}
    {left right : Except String (Option (Variables × RenderedScenarioResponse))}
    (hquiet : Quiet stopped) (hleft : Outcome stopped left) (hright : Outcome other right) :
    left = right ↔ stopped = other := by
  constructor
  · rintro rfl
    have hsame := hleft.stopOf_eq.symm.trans hright.stopOf_eq
    rw [if_neg hquiet.2] at hsame
    split at hsame
    · exact absurd hsame hquiet.1
    · exact hsame
  · rintro rfl
    cases hleft with
    | aborted h => exact absurd rfl hquiet.2
    | failed h => exact absurd rfl hquiet.1
    | taken result => exact absurd rfl hquiet.1
    | variableCount => cases hright with | variableCount => rfl
    | bodySize => cases hright with | bodySize => rfl
    | bodySyntax => cases hright with | bodySyntax => rfl
    | valueSize => cases hright with | valueSize => rfl
    | skipped => cases hright with | skipped => rfl

/-- One of the extractions of a transition that skips finds no value. -/
theorem quiet_of_unextractable {redaction : RedactionConfig} {request : HttpRequest}
    {jsonBody : Option (Json N)} {extract : List VariableExtraction} {vars : Variables}
    (h : Unextractable codec redaction request jsonBody extract vars) :
    Quiet (extractionStop codec redaction request jsonBody .skip extract vars) := by
  induction h with
  | here h =>
      rw [extractionStop, h]
      exact ⟨(by rintro ⟨⟩), (by rintro ⟨⟩)⟩
  | later h _ ih =>
      rw [extractionStop, h]
      dsimp only
      split
      · exact ⟨(by rintro ⟨⟩), (by rintro ⟨⟩)⟩
      · exact ih

theorem stop_quiet {runtime : ScenarioRuntime} {request : HttpRequest} {body : Bytes}
    {transition : ScenarioTransition} (hskip : transition.extractionFailure = .skip)
    (h : Unextractable codec runtime.redaction request (bodyJson codec body) transition.extract
      runtime.vars) : Quiet (stop codec runtime request body transition) := by
  rw [stop, hskip]
  split
  · exact ⟨(by rintro ⟨⟩), (by rintro ⟨⟩)⟩
  · split
    · exact ⟨(by rintro ⟨⟩), (by rintro ⟨⟩)⟩
    · split
      · exact ⟨(by rintro ⟨⟩), (by rintro ⟨⟩)⟩
      · exact quiet_of_unextractable h

end

/-! ### Steps without the transition -/

/-- What a step makes of the transition that it selects. -/
def answerWith (runtime : ScenarioRuntime) (transition : ScenarioTransition)
    (result : Except String (Option (Variables × RenderedScenarioResponse))) :
    Except String (Option ScenarioStep) × ScenarioRuntime :=
  match result with
  | .error error => (.error error, runtime)
  | .ok none => (.ok none, runtime)
  | .ok (some (vars, response)) =>
      (.ok (some
        { scenarioId := runtime.scenario.id
          previousState := runtime.state
          nextState := transition.nextState
          response := response }),
        { runtime with state := transition.nextState, vars := vars })

def withTransitions (runtime : ScenarioRuntime) (transitions : List ScenarioTransition) :
    ScenarioRuntime :=
  { runtime with scenario := { runtime.scenario with transitions } }

/-- Two calls with the same result, which leave the same state and variables. -/
structure SameStep (left right : Except String (Option ScenarioStep) × ScenarioRuntime) :
    Prop where
  result : left.1 = right.1
  state : left.2.state = right.2.state
  vars : left.2.vars = right.2.vars

/-- A step goes as it does in the scenario without the transition. -/
def LeavesNoTrace (codec : BodyCodec N) (runtime : ScenarioRuntime)
    (before after : List ScenarioTransition) (request : HttpRequest) (body : Bytes) : Prop :=
  SameStep (runtime.advance codec request body)
    ((withTransitions runtime (before ++ after)).advance codec request body)

/-- No transition matches before it, and it does. -/
def IsSelected (runtime : ScenarioRuntime) (before : List ScenarioTransition)
    (transition : ScenarioTransition) (request : HttpRequest) : Prop :=
  selects runtime.state request transition = true ∧
    ∀ earlier ∈ before, selects runtime.state request earlier = false

/-- What stops the next transition that matches; a request without one is passed over as well. -/
def nextStop (codec : BodyCodec N) (runtime : ScenarioRuntime) (after : List ScenarioTransition)
    (request : HttpRequest) (body : Bytes) : Option Stop :=
  match after.find? (selects runtime.state request) with
  | none => some .skipped
  | some next => stop codec runtime request body next

section

variable {codec : BodyCodec N} {runtime : ScenarioRuntime} {request : HttpRequest} {body : Bytes}
  {before after : List ScenarioTransition} {transition : ScenarioTransition}

theorem advance_of_find
    (h : runtime.scenario.transitions.find? (selects runtime.state request) = some transition) :
    runtime.advance codec request body =
      answerWith runtime transition (takeTransition codec runtime request body transition) := by
  rw [ScenarioRuntime.advance, h]
  dsimp only
  rcases takeTransition codec runtime request body transition with error | _ | ⟨vars, response⟩
  · rfl
  · rfl
  · rfl

theorem advance_of_find_none
    (h : runtime.scenario.transitions.find? (selects runtime.state request) = none) :
    runtime.advance codec request body = (.ok none, runtime) := by
  rw [ScenarioRuntime.advance, h]

theorem sameStep_answerWith (transitions : List ScenarioTransition)
    (result : Except String (Option (Variables × RenderedScenarioResponse))) :
    SameStep (answerWith runtime transition result)
      (answerWith (withTransitions runtime transitions) transition result) := by
  rcases result with error | _ | ⟨vars, response⟩
  · exact ⟨rfl, rfl, rfl⟩
  · exact ⟨rfl, rfl, rfl⟩
  · exact ⟨rfl, rfl, rfl⟩

/-- A result of a quiet transition is told from every other one. -/
theorem sameStep_answerWith_iff {next : ScenarioTransition}
    {transitions : List ScenarioTransition}
    {result other : Except String (Option (Variables × RenderedScenarioResponse))}
    (hquiet : ∀ taken, result ≠ .ok (some taken)) :
    SameStep (answerWith runtime transition result)
        (answerWith (withTransitions runtime transitions) next other) ↔ result = other := by
  constructor
  · intro h
    have hresult := h.result
    rcases result with error | _ | taken
    · rcases other with error' | _ | taken'
      · exact congrArg Except.error (Except.error.inj hresult)
      · cases hresult
      · cases hresult
    · rcases other with error' | _ | taken'
      · cases hresult
      · rfl
      · cases hresult
    · exact absurd rfl (hquiet taken)
  · rintro rfl
    rcases result with error | _ | taken
    · exact ⟨rfl, rfl, rfl⟩
    · exact ⟨rfl, rfl, rfl⟩
    · exact absurd rfl (hquiet taken)

theorem find_of_isSelected (after : List ScenarioTransition)
    (h : IsSelected runtime before transition request) :
    (before ++ transition :: after).find? (selects runtime.state request) = some transition ∧
      (before ++ after).find? (selects runtime.state request) =
        after.find? (selects runtime.state request) := by
  have hbefore : before.find? (selects runtime.state request) = none := by
    rw [List.find?_eq_none]
    intro earlier hearlier hselects
    rw [h.2 earlier hearlier] at hselects
    cases hselects
  constructor
  · rw [List.find?_append, hbefore, Option.none_or, List.find?_cons_of_pos h.1]
  · rw [List.find?_append, hbefore, Option.none_or]

theorem find_of_not_isSelected (after : List ScenarioTransition)
    (h : ¬IsSelected runtime before transition request) :
    (before ++ transition :: after).find? (selects runtime.state request) =
      (before ++ after).find? (selects runtime.state request) := by
  rw [List.find?_append, List.find?_append]
  cases hbefore : before.find? (selects runtime.state request) with
  | some found => rfl
  | none =>
      have hnot : ¬selects runtime.state request transition = true := by
        intro hselects
        apply h
        refine ⟨hselects, ?_⟩
        intro earlier hearlier
        exact Bool.eq_false_iff.mpr (List.find?_eq_none.mp hbefore earlier hearlier)
      rw [List.find?_cons_of_neg hnot]

/-- A transition that is to be skipped and finds no value leaves no trace exactly where it is not
the one that is selected, or the same stops the next one that matches. -/
theorem leavesNoTrace_iff (hsplit : runtime.scenario.transitions = before ++ transition :: after)
    (hskip : transition.extractionFailure = .skip)
    (h : Unextractable codec runtime.redaction request (bodyJson codec body) transition.extract
      runtime.vars) :
    LeavesNoTrace codec runtime before after request body ↔
      (IsSelected runtime before transition request →
        stop codec runtime request body transition =
          nextStop codec runtime after request body) := by
  rw [LeavesNoTrace]
  by_cases hselected : IsSelected runtime before transition request
  · obtain ⟨hfind, hafter⟩ := find_of_isSelected after hselected
    rw [← hsplit] at hfind
    have houtcome := @takeTransition_outcome N codec runtime request body transition
    have hquiet := stop_quiet hskip h
    have huntaken : ∀ taken, takeTransition codec runtime request body transition ≠
        .ok (some taken) := by
      intro taken htaken
      rw [htaken] at houtcome
      generalize stop codec runtime request body transition = stopped at houtcome hquiet
      cases houtcome
      exact hquiet.1 rfl
    rw [advance_of_find hfind, nextStop]
    cases hnext : after.find? (selects runtime.state request) with
    | none =>
        have hremoved : (withTransitions runtime (before ++ after)).advance codec request body =
            answerWith (withTransitions runtime (before ++ after)) transition (.ok none) :=
          advance_of_find_none (hafter.trans hnext)
        rw [hremoved, sameStep_answerWith_iff huntaken, houtcome.eq_iff hquiet .skipped]
        exact ⟨fun heq _ => heq, fun heq => heq hselected⟩
    | some next =>
        have hremoved : (withTransitions runtime (before ++ after)).advance codec request body =
            answerWith (withTransitions runtime (before ++ after)) next
              (takeTransition codec runtime request body next) :=
          advance_of_find (hafter.trans hnext)
        rw [hremoved, sameStep_answerWith_iff huntaken,
          houtcome.eq_iff hquiet (takeTransition_outcome runtime request body next)]
        exact ⟨fun heq _ => heq, fun heq => heq hselected⟩
  · have hfind := find_of_not_isSelected after hselected
    rw [← hsplit] at hfind
    refine ⟨fun _ hselects => absurd hselects hselected, fun _ => ?_⟩
    cases hremoved : (before ++ after).find? (selects runtime.state request) with
    | none =>
        have hright : (withTransitions runtime (before ++ after)).advance codec request body =
            (.ok none, withTransitions runtime (before ++ after)) :=
          advance_of_find_none hremoved
        rw [advance_of_find_none (hfind.trans hremoved), hright]
        exact ⟨rfl, rfl, rfl⟩
    | some next =>
        have hright : (withTransitions runtime (before ++ after)).advance codec request body =
            answerWith (withTransitions runtime (before ++ after)) next
              (takeTransition codec runtime request body next) :=
          advance_of_find hremoved
        rw [advance_of_find (hfind.trans hremoved), hright]
        exact sameStep_answerWith (before ++ after) _

end

/-! ### A transition with an alternative -/

/-- An answer to every request, or for a variable from the query. -/
def shopTransition (status : Nat) (extract : List VariableExtraction) : ScenarioTransition where
  fromState := "shop"
  when := []
  extract := extract
  extractionFailure := .skip
  response :=
    { status := status, headers := [], bodyTemplate := "", jsonPointerReplacements := []
      fault := none }
  nextState := "shop"

def searchTransition : ScenarioTransition :=
  shopTransition 200 [{ name := "term", source := .query "q" }]

def shopScenario (transitions : List ScenarioTransition) : Scenario where
  id := "shop"
  initialState := "shop"
  states := ["shop"]
  transitions := transitions

def shopRules (transitions : List ScenarioTransition) : ScenarioRules where
  schemaVersion := 1
  scenarios := [shopScenario transitions]

def shopRuntime (transitions : List ScenarioTransition) : ScenarioRuntime where
  scenario := shopScenario transitions
  state := "shop"
  vars := []
  redaction := RedactionConfig.defaultSecure

theorem search_unextractable (transitions : List ScenarioTransition) :
    Unextractable sampleCodec (shopRuntime transitions).redaction plainRequest
      (bodyJson sampleCodec []) searchTransition.extract (shopRuntime transitions).vars := by
  have hmissing : extractValue sampleCodec RedactionConfig.defaultSecure plainRequest
      (bodyJson sampleCodec []) [] { name := "term", source := .query "q" } =
        .error "scenario variable \"term\" could not be extracted" := by
    decide
  exact .here hmissing

/-- A request without the query is not answered, although the second transition matches it. -/
theorem skipped_transition_hides_next :
    ¬ ∀ (rules : ScenarioRules) (scenario : Scenario) (runtime : ScenarioRuntime)
      (before after : List ScenarioTransition) (transition : ScenarioTransition)
      (request : HttpRequest) (body : Bytes),
      rules.validate = .ok () → scenario ∈ rules.scenarios → runtime.scenario = scenario →
        scenario.transitions = before ++ transition :: after →
          transition.extractionFailure = .skip →
            Unextractable sampleCodec runtime.redaction request (bodyJson sampleCodec body)
                transition.extract runtime.vars →
              LeavesNoTrace sampleCodec runtime before after request body := by
  intro h
  have hsame := h (shopRules [searchTransition, shopTransition 404 []])
    (shopScenario [searchTransition, shopTransition 404 []])
    (shopRuntime [searchTransition, shopTransition 404 []]) [] [shopTransition 404 []]
    searchTransition plainRequest [] (by decide) List.mem_cons_self rfl rfl rfl
    (search_unextractable _)
  have hresult := hsame.result
  have hskipped : ((shopRuntime [searchTransition, shopTransition 404 []]).advance sampleCodec
      plainRequest []).1 = .ok none := by
    decide
  have hanswered : ((withTransitions (shopRuntime [searchTransition, shopTransition 404 []])
      ([] ++ [shopTransition 404 []])).advance sampleCodec plainRequest []).1 ≠ .ok none := by
    decide +kernel
  exact hanswered (hresult.symm.trans hskipped)

theorem last_transition_leaves_no_trace :
    LeavesNoTrace sampleCodec (shopRuntime [searchTransition]) [] [] plainRequest [] := by
  have hsplit : (shopRuntime [searchTransition]).scenario.transitions =
      [] ++ searchTransition :: [] := rfl
  apply (leavesNoTrace_iff hsplit rfl (search_unextractable _)).mpr
  intro _
  decide

end EggReplay.Core.SkippedTransitions
