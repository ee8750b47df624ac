import EggReplay.Core.VariableCounts

/-!
The headers of a rendered response: a template as literal text and named variables, and when the
value that it renders to is one that an authored header could have.
-/

namespace EggReplay.Core.RenderedHeaders

open EggReplay.Library.Checks
open EggReplay.Library.Text
open EggReplay.Library.JsonText
open EggReplay.Core.FlowRecord
open EggReplay.Core.Redaction
open EggReplay.Core.BodyWildcards
open EggReplay.Core.Scenarios
open EggReplay.Core.ScenarioSteps
open EggReplay.Core.ScenarioRuns
open EggReplay.Core.VariableCounts

variable {N : Type} {codec : BodyCodec N}

/-! ### Templates -/

inductive Part where
  | literal (chars : List Char)
  | named (name : String)
  deriving DecidableEq, Repr

/-- The literal text and the names of a template, in their order. A brace pair that is not closed
is literal. -/
def parts (template : List Char) : List Part :=
  match hstart : splitOncePair '{' '{' template with
  | none => [.literal template]
  | some (lead, tail) =>
      match hend : splitOncePair '}' '}' tail with
      | none => [.literal template]
      | some (name, after) => .literal lead :: .named (String.ofList name) :: parts after
termination_by template.length
decreasing_by
  rw [splitOncePair_eq_some hstart, splitOncePair_eq_some hend]
  simp only [List.length_append, List.length_cons]
  omega

def Part.text (vars : Variables) : Part → String
  | .literal chars => String.ofList chars
  | .named name => (vars.lookup name).getD ""

def filled (vars : Variables) : List Part → String
  | [] => ""
  | part :: rest => part.text vars ++ filled vars rest

theorem parts_of_none {template : List Char} (h : splitOncePair '{' '{' template = none) :
    parts template = [.literal template] := by
  rw [parts]
  split
  · rfl
  · rename_i lead tail hstart
    rw [h] at hstart
    cases hstart

theorem parts_of_some {template lead tail name after : List Char}
    (hstart : splitOncePair '{' '{' template = some (lead, tail))
    (hend : splitOncePair '}' '}' tail = some (name, after)) :
    parts template = .literal lead :: .named (String.ofList name) :: parts after := by
  rw [parts]
  split
  · rename_i hnone
    rw [hstart] at hnone
    cases hnone
  · rename_i lead' tail' hstart'
    obtain ⟨rfl, rfl⟩ := Prod.mk.inj (Option.some.inj (hstart.symm.trans hstart'))
    split
    · rename_i hnone
      rw [hend] at hnone
      cases hnone
    · rename_i name' after' hend'
      obtain ⟨rfl, rfl⟩ := Prod.mk.inj (Option.some.inj (hend.symm.trans hend'))
      rfl

/-- A template renders to its parts, each variable replaced by its value. -/
theorem renderFrom_eq_filled {vars : Variables} {output text : String} {rest : List Char}
    (h : renderFrom vars output rest = .ok text) : text = output ++ filled vars (parts rest) := by
  fun_induction renderFrom vars output rest with
  | case1 output rest hstart hlimit => cases h
  | case2 output rest hstart hlimit =>
      rw [← Except.ok.inj h, parts_of_none hstart, filled, filled, Part.text, String.append_empty]
  | case3 => cases h
  | case4 => cases h
  | case5 => cases h
  | case6 => cases h
  | case7 output rest lead tail hstart name after hend hname value hvalue current hlimit ih =>
      rw [ih h, parts_of_some hstart hend, filled, filled, Part.text, Part.text, hvalue,
        Option.getD_some, String.append_assoc, String.append_assoc]

theorem render_eq_filled {vars : Variables} {template text : String}
    (h : render template vars = .ok text) : text = filled vars (parts template.toList) := by
  rw [render] at h
  split at h
  · cases h
  · rw [renderFrom_eq_filled h, String.empty_append]

/-- Literal parts are text of the template. -/
theorem literal_of_mem_parts {template chars : List Char}
    (h : Part.literal chars ∈ parts template) : ∀ c ∈ chars, c ∈ template := by
  fun_induction parts template with
  | case1 template hstart =>
      obtain rfl := Part.literal.inj (List.mem_singleton.mp h)
      exact fun c hc => hc
  | case2 template lead tail hstart hend =>
      obtain rfl := Part.literal.inj (List.mem_singleton.mp h)
      exact fun c hc => hc
  | case3 template lead tail hstart name after hend ih =>
      rw [splitOncePair_eq_some hstart, splitOncePair_eq_some hend]
      intro c hc
      rcases List.mem_cons.mp h with heq | h
      · obtain rfl := Part.literal.inj heq
        exact List.mem_append_left _ hc
      · rcases List.mem_cons.mp h with heq | h
        · cases heq
        · have hafter := ih h c hc
          simp only [List.mem_append, List.mem_cons]
          tauto

/-! ### Headers -/

def namesIn (template : String) : List String :=
  (parts template.toList).filterMap fun part =>
    match part with
    | .literal _ => none
    | .named name => some name

/-- The variables that a template names have values of characters that a header may have, and the
literal text and the values together are not too long. -/
structure Fits (vars : Variables) (template : String) : Prop where
  size : ((parts template.toList).map fun part => (part.text vars).utf8ByteSize).sum ≤ maxValueBytes
  chars : ∀ name ∈ namesIn template, ∀ value, vars.lookup name = some value →
    value.toList.all headerValueChar = true

theorem utf8ByteSize_filled (vars : Variables) (pieces : List Part) :
    (filled vars pieces).utf8ByteSize =
      (pieces.map fun part => (part.text vars).utf8ByteSize).sum := by
  induction pieces with
  | nil => rfl
  | cons part rest ih =>
      rw [filled, String.utf8ByteSize_append, ih, List.map_cons, List.sum_cons]

theorem all_filled (vars : Variables) (pieces : List Part) (p : Char → Bool) :
    (filled vars pieces).toList.all p = true ↔
      ∀ part ∈ pieces, (part.text vars).toList.all p = true := by
  induction pieces with
  | nil => exact ⟨fun _ part hpart => absurd hpart List.not_mem_nil, fun _ => rfl⟩
  | cons part rest ih =>
      rw [filled, String.toList_append, List.all_append, Bool.and_eq_true, ih,
        List.forall_mem_cons]

theorem validateResponseHeader_eq_ok {header : HeaderEntry} :
    validateResponseHeader header = .ok () ↔
      (header.name.utf8ByteSize ≤ 256 ∧ header.value.utf8ByteSize ≤ maxValueBytes) ∧
        header.name ≠ "" ∧ header.name.toList.all headerNameChar = true ∧
          header.value.toList.all headerValueChar = true := by
  simp only [validateResponseHeader, bind_unit_eq_ok, ensure_eq_ok]

/-- The rendered header meets the bounds of an authored one exactly where the values fit its
template. -/
theorem rendered_header_iff {vars : Variables} {header rendered : HeaderEntry}
    (hauthored : validateResponseHeader header = .ok ())
    (h : renderHeader vars header = .ok rendered) :
    validateResponseHeader rendered = .ok () ↔ Fits vars header.value := by
  simp only [renderHeader, bind_eq_ok, pure_eq_ok] at h
  obtain ⟨value, hvalue, rfl⟩ := h
  obtain ⟨⟨hname, -⟩, hnonempty, htoken, hchars⟩ := validateResponseHeader_eq_ok.mp hauthored
  have hfilled := render_eq_filled hvalue
  rw [validateResponseHeader_eq_ok]
  dsimp only
  constructor
  · rintro ⟨⟨-, hsize⟩, -, -, hall⟩
    rw [hfilled, utf8ByteSize_filled] at hsize
    rw [hfilled, all_filled] at hall
    refine ⟨hsize, ?_⟩
    intro name hname value hlookup
    obtain ⟨part, hpart, hnamed⟩ := List.mem_filterMap.mp hname
    cases part with
    | literal chars => cases hnamed
    | named other =>
        obtain rfl := Option.some.inj hnamed
        have hpartChars := hall _ hpart
        rwa [Part.text, hlookup] at hpartChars
  · intro hfits
    refine ⟨⟨hname, ?_⟩, hnonempty, htoken, ?_⟩
    · rw [hfilled, utf8ByteSize_filled]
      exact hfits.size
    · rw [hfilled, all_filled]
      intro part hpart
      cases part with
      | literal chars =>
          rw [Part.text, String.toList_ofList, List.all_eq_true]
          intro c hc
          exact List.all_eq_true.mp hchars c (literal_of_mem_parts hpart c hc)
      | named name =>
          have hmem : name ∈ namesIn header.value :=
            List.mem_filterMap.mpr ⟨.named name, hpart, rfl⟩
          rw [Part.text]
          cases hlookup : vars.lookup name with
          | none => rfl
          | some value => exact hfits.chars name hmem value hlookup

theorem rendered_headers_iff {vars : Variables} {headers rendered : List HeaderEntry}
    (hauthored : ∀ header ∈ headers, validateResponseHeader header = .ok ())
    (h : renderHeaders vars headers = .ok rendered) :
    (∀ header ∈ rendered, validateResponseHeader header = .ok ()) ↔
      ∀ header ∈ headers, Fits vars header.value := by
  induction headers generalizing rendered with
  | nil =>
      cases h
      exact ⟨fun _ header hheader => absurd hheader List.not_mem_nil,
        fun _ header hheader => absurd hheader List.not_mem_nil⟩
  | cons header rest ih =>
      simp only [renderHeaders, bind_eq_ok, pure_eq_ok] at h
      obtain ⟨first, hfirst, later, hlater, rfl⟩ := h
      rw [List.forall_mem_cons, List.forall_mem_cons,
        rendered_header_iff (hauthored header List.mem_cons_self) hfirst,
        ih (fun other hother => hauthored other (List.mem_cons_of_mem _ hother)) hlater]

/-! ### Steps -/

/-- The variables that the response of a transition is rendered with: those of the runtime, and
those that are extracted from the request. -/
def Extracts (codec : BodyCodec N) (runtime : ScenarioRuntime) (request : HttpRequest)
    (body : Bytes) (transition : ScenarioTransition) (vars : Variables) : Prop :=
  ∃ jsonBody, parseJsonBody codec transition.extract body = .ok jsonBody ∧
    extractAll codec runtime.redaction request jsonBody transition.extractionFailure
      transition.extract runtime.vars = .ok (some vars)

/-- The variables fit the header templates of the transition that is selected. -/
def SubstitutionsFit (codec : BodyCodec N) (runtime : ScenarioRuntime) (request : HttpRequest)
    (body : Bytes) : Prop :=
  ∀ transition vars, runtime.scenario.transitions.find? (selects runtime.state request) =
      some transition → Extracts codec runtime request body transition vars →
    ∀ header ∈ transition.response.headers, Fits vars header.value

def HeadersWellFormed (step : ScenarioStep) : Prop :=
  ∀ header ∈ step.response.headers, validateResponseHeader header = .ok ()

theorem takeTransition_extracts {runtime : ScenarioRuntime} {request : HttpRequest} {body : Bytes}
    {transition : ScenarioTransition} {vars : Variables} {response : RenderedScenarioResponse}
    (h : takeTransition codec runtime request body transition = .ok (some (vars, response))) :
    Extracts codec runtime request body transition vars ∧
      renderHeaders vars transition.response.headers = .ok response.headers := by
  simp only [takeTransition, bind_eq_ok, ensure_eq_ok] at h
  obtain ⟨_, -, jsonBody, hjson, extracted, hextract, h⟩ := h
  cases extracted with
  | none =>
      have habsurd := pure_eq_ok.mp h
      cases habsurd
  | some extracted =>
      simp only [bind_eq_ok, pure_eq_ok] at h
      obtain ⟨rendered, hrendered, heq⟩ := h
      cases heq
      simp only [renderResponse, bind_eq_ok, ensure_eq_ok, pure_eq_ok] at hrendered
      obtain ⟨text, -, _, -, headers, hheaders, rfl⟩ := hrendered
      exact ⟨⟨jsonBody, hjson, hextract⟩, hheaders⟩

theorem advance_eq_step {runtime next : ScenarioRuntime} {request : HttpRequest} {body : Bytes}
    {step : ScenarioStep} (h : runtime.advance codec request body = (.ok (some step), next)) :
    ∃ transition vars, runtime.scenario.transitions.find? (selects runtime.state request) =
        some transition ∧ Extracts codec runtime request body transition vars ∧
      renderHeaders vars transition.response.headers = .ok step.response.headers := by
  rw [ScenarioRuntime.advance] at h
  split at h
  · cases h
  · rename_i transition hfind
    split at h
    · cases h
    · cases h
    · rename_i vars response htake
      obtain ⟨hextracts, hheaders⟩ := takeTransition_extracts htake
      cases h
      exact ⟨transition, vars, hfind, hextracts, hheaders⟩

theorem Extracts.unique {runtime : ScenarioRuntime} {request : HttpRequest} {body : Bytes}
    {transition : ScenarioTransition} {vars other : Variables}
    (h : Extracts codec runtime request body transition vars)
    (hother : Extracts codec runtime request body transition other) : vars = other := by
  obtain ⟨jsonBody, hjson, hvars⟩ := h
  obtain ⟨jsonBody', hjson', hvars'⟩ := hother
  obtain rfl := Except.ok.inj (hjson.symm.trans hjson')
  exact Option.some.inj (Except.ok.inj (hvars.symm.trans hvars'))

theorem headers_of_validate {rules : ScenarioRules} (hvalid : rules.validate = .ok ())
    {scenario : Scenario} (hscenario : scenario ∈ rules.scenarios)
    {transition : ScenarioTransition} (htransition : transition ∈ scenario.transitions) :
    ∀ header ∈ transition.response.headers, validateResponseHeader header = .ok () := by
  have hchecked := validateTransition_of_validate hvalid hscenario htransition
  simp only [validateTransition, bind_eq_ok, ensure_eq_ok, checkAll_eq_ok] at hchecked
  obtain ⟨_, -, _, -, _, -, _, -, _, -, _, -, _, hheaders, -⟩ := hchecked
  exact hheaders

/-- In every run of a valid scenario the headers of a response meet the bounds of authored headers
exactly where the values that are substituted fit their templates. -/
theorem headers_wellFormed_iff (codec : BodyCodec N) {rules : ScenarioRules}
    (hvalid : rules.validate = .ok ()) {scenario : Scenario}
    (hscenario : scenario ∈ rules.scenarios) (debug : String → String)
    (redaction : RedactionConfig) :
    ∃ runtime, runtimeWithRedaction debug rules scenario.id redaction = .ok runtime ∧
      ∀ (requests : List ScenarioRequest) (request : HttpRequest) (body : Bytes)
        (step : ScenarioStep) (next : ScenarioRuntime),
        (runtime.after codec requests).advance codec request body = (.ok (some step), next) →
          (HeadersWellFormed step ↔
            SubstitutionsFit codec (runtime.after codec requests) request body) := by
  refine ⟨_, runtimeWithRedaction_of_mem hvalid hscenario debug redaction, ?_⟩
  intro requests request body step next hadvance
  obtain ⟨transition, vars, hfind, hextracts, hheaders⟩ := advance_eq_step hadvance
  have hmem := List.mem_of_find?_eq_some hfind
  rw [after_scenario] at hmem
  rw [HeadersWellFormed,
    rendered_headers_iff (headers_of_validate hvalid hscenario hmem) hheaders]
  constructor
  · intro hfits other vars' hother hextracts'
    obtain rfl := Option.some.inj (hfind.symm.trans hother)
    obtain rfl := hextracts.unique hextracts'
    exact hfits
  · intro hfit
    exact hfit transition vars hfind hextracts

/-- An answer that repeats a part of the query in a header. -/
def echoScenario : Scenario where
  id := "echo"
  initialState := "ready"
  states := ["ready"]
  transitions :=
    [{ fromState := "ready", when := []
       extract := [{ name := "term", source := .query "q" }]
       extractionFailure := .abort
       response :=
        { status := 200, headers := [⟨"x-term", "\x7b\x7bterm\x7d\x7d"⟩], bodyTemplate := ""
          jsonPointerReplacements := [], fault := none }
       nextState := "ready" }]

def echoRules : ScenarioRules where
  schemaVersion := 1
  scenarios := [echoScenario]

def echoRuntime : ScenarioRuntime where
  scenario := echoScenario
  state := "ready"
  vars := []
  redaction := RedactionConfig.defaultSecure

def echoRequest (term : String) : HttpRequest :=
  { plainRequest with query := [⟨"q", term⟩] }

/-- A line break in the query is one in the header. -/
theorem echoed_line_break :
    ¬ ∀ (rules : ScenarioRules) (scenario : Scenario) (runtime next : ScenarioRuntime)
      (requests : List ScenarioRequest) (request : HttpRequest) (body : Bytes)
      (step : ScenarioStep), rules.validate = .ok () → scenario ∈ rules.scenarios →
        runtimeWithRedaction id rules scenario.id RedactionConfig.defaultSecure = .ok runtime →
          (runtime.after sampleCodec requests).advance sampleCodec request body =
              (.ok (some step), next) →
            HeadersWellFormed step := by
  intro h
  have hvalid : echoRules.validate = .ok () := by decide
  have hmem : echoScenario ∈ echoRules.scenarios := List.mem_cons_self
  have hstep : echoRuntime.advance sampleCodec (echoRequest "a\r\nb") [] =
      (.ok (some
        { scenarioId := "echo"
          previousState := "ready"
          nextState := "ready"
          response :=
            { status := 200, headers := [⟨"x-term", "a\r\nb"⟩], body := [], fault := none } }),
        { echoRuntime with vars := [("term", "a\r\nb")] }) := by
    decide +kernel
  have hwell := h echoRules echoScenario echoRuntime _ [] (echoRequest "a\r\nb") [] _ hvalid hmem
    (runtimeWithRedaction_of_mem hvalid hmem id _) hstep
  have hheader := hwell ⟨"x-term", "a\r\nb"⟩ List.mem_cons_self
  exact absurd hheader (by decide)

theorem echoed_word_wellFormed :
    echoRules.validate = .ok () ∧
      ∃ runtime, runtimeWithRedaction id echoRules "echo" RedactionConfig.defaultSecure =
          .ok runtime ∧
        ∀ (requests : List ScenarioRequest) (request : HttpRequest) (body : Bytes)
          (step : ScenarioStep) (next : ScenarioRuntime),
          (runtime.after sampleCodec requests).advance sampleCodec request body =
              (.ok (some step), next) →
            (HeadersWellFormed step ↔
              SubstitutionsFit sampleCodec (runtime.after sampleCodec requests) request body) := by
  have hvalid : echoRules.validate = .ok () := by decide
  refine ⟨hvalid, ?_⟩
  exact headers_wellFormed_iff sampleCodec hvalid List.mem_cons_self id _

end EggReplay.Core.RenderedHeaders
