import EggReplay.Core.ScenarioSteps
import EggReplay.Core.BodyWildcards

/-!
Two runs of a scenario over requests that differ in redacted fields only: what an
extraction can read of a redacted field, and when the two runs are the same.
-/

namespace EggReplay.Core.ScenarioSecrecy

open EggReplay.Library.Checks
open EggReplay.Library.Text
open EggReplay.Library.JsonText
open EggReplay.Library.JsonReader
open EggReplay.Library.JsonPointer
open EggReplay.Library.JsonLookup
open EggReplay.Core.FlowRecord
open EggReplay.Core.Redaction
open EggReplay.Core.BodyWildcards
open EggReplay.Core.Scenarios
open EggReplay.Core.ScenarioSteps

variable {N : Type}

/-! ### Requests that differ in redacted fields -/

def SameField (config : RedactionConfig) (left right : HeaderEntry) : Prop :=
  left.name = right.name ∧
    (toAsciiLowercase left.name ∈ config.headers ∨ left.value = right.value)

def SamePair (config : RedactionConfig) (left right : QueryPair) : Prop :=
  left.key = right.key ∧ (left.key ∈ config.queryKeys ∨ left.value = right.value)

/-- A JSON value with each value at a redacted pointer overwritten. -/
def concealed (config : RedactionConfig) (value : Json N) : Json N :=
  (redactPointers (config.jsonPaths.sort (· ≤ ·)) (value, false)).1

/-- The same bytes, or two JSON values that differ at redacted pointers only. -/
def SameBody (codec : BodyCodec N) (config : RedactionConfig) (left right : Bytes) : Prop :=
  left = right ∨ ∃ value value', codec.fromSlice left = .ok value ∧
    codec.fromSlice right = .ok value' ∧ concealed config value = concealed config value'

structure SameRequest (codec : BodyCodec N) (config : RedactionConfig)
    (left right : ScenarioRequest) : Prop where
  method : left.1.method = right.1.method
  path : left.1.path = right.1.path
  query : List.Forall₂ (SamePair config) left.1.query right.1.query
  headers : List.Forall₂ (SameField config) left.1.headers right.1.headers
  body : SameBody codec config left.2 right.2

/-- The predicate asks for no redacted header or query key. -/
def Public (config : RedactionConfig) : RequestPredicate → Prop
  | .method _ | .path _ => True
  | .query key _ => key ∉ config.queryKeys
  | .header name _ => toAsciiLowercase name ∉ config.headers

/-! ### Lookups -/

/-- Searching two lists by what their elements have in common finds the same, as far as it
is the same in what is found. -/
theorem find_value_related {α β : Type} {R : α → α → Prop} {p : α → Bool} {f : α → β}
    {left right : List α} (h : List.Forall₂ R left right) (hp : ∀ a b, R a b → p a = p b)
    (hf : ∀ a b, R a b → p a = true → f a = f b) :
    (left.find? p).map f = (right.find? p).map f := by
  induction h with
  | nil => rfl
  | @cons a b left right hab _ ih =>
      rw [List.find?_cons, List.find?_cons, ← hp a b hab]
      split
      · rename_i hfound
        exact congrArg some (hf a b hab hfound)
      · exact ih

theorem any_related {α : Type} {R : α → α → Prop} {p : α → Bool} {left right : List α}
    (h : List.Forall₂ R left right) (hp : ∀ a b, R a b → p a = p b) :
    left.any p = right.any p := by
  induction h with
  | nil => rfl
  | cons hab _ ih => rw [List.any_cons, List.any_cons, hp _ _ hab, ih]

theorem SameField.names {config : RedactionConfig} {left right : HeaderEntry}
    (h : SameField config left right) (name : String) :
    eqIgnoreAsciiCase left.name name = eqIgnoreAsciiCase right.name name := by
  rw [h.1]

/-- What is found under a public name is the same. -/
theorem SameField.value {config : RedactionConfig} {left right : HeaderEntry}
    (h : SameField config left right) {name : String}
    (hname : eqIgnoreAsciiCase left.name name = true)
    (hpublic : toAsciiLowercase name ∉ config.headers) : left.value = right.value := by
  refine h.2.resolve_left ?_
  rw [eqIgnoreAsciiCase, decide_eq_true_eq] at hname
  rwa [hname]

section

variable {codec : BodyCodec N} {config : RedactionConfig} {left right : ScenarioRequest}

theorem predicate_matches_same (h : SameRequest codec config left right)
    {predicate : RequestPredicate} (hpublic : Public config predicate) :
    RequestPredicate.matches left.1 predicate = RequestPredicate.matches right.1 predicate := by
  cases predicate with
  | method value => rw [RequestPredicate.matches, RequestPredicate.matches, h.method]
  | path value => rw [RequestPredicate.matches, RequestPredicate.matches, h.path]
  | query key value =>
      apply any_related h.query
      intro a b hab
      rw [← hab.1]
      by_cases hkey : a.key = key
      · rw [hab.2.resolve_left (by rwa [hkey])]
      · simp [hkey]
  | header name value =>
      apply any_related h.headers
      intro a b hab
      rw [hab.names]
      by_cases hname : eqIgnoreAsciiCase a.name name = true
      · rw [hab.value hname hpublic]
      · rw [hab.names, Bool.not_eq_true] at hname
        rw [hname]
        rfl

theorem selects_same (h : SameRequest codec config left right) {state : String}
    {transition : ScenarioTransition}
    (hpublic : ∀ predicate ∈ transition.when, Public config predicate) :
    selects state left.1 transition = selects state right.1 transition := by
  rw [selects, selects]
  congr 1
  rw [Bool.eq_iff_iff, List.all_eq_true, List.all_eq_true]
  refine forall₂_congr fun predicate hpredicate => ?_
  rw [predicate_matches_same h (hpublic predicate hpredicate)]

theorem find_selects_same (h : SameRequest codec config left right) {state : String}
    {transitions : List ScenarioTransition}
    (hpublic : ∀ transition ∈ transitions, ∀ predicate ∈ transition.when,
      Public config predicate) :
    transitions.find? (selects state left.1) = transitions.find? (selects state right.1) := by
  induction transitions with
  | nil => rfl
  | cons transition rest ih =>
      rw [List.find?_cons, List.find?_cons,
        selects_same h (hpublic transition List.mem_cons_self),
        ih fun other hother => hpublic other (List.mem_cons_of_mem _ hother)]

/-! ### JSON values apart from the redacted ones -/

theorem pointerValue_redactPointer {pointer redactedPointer : String}
    (hapart : ∀ path other, tokens pointer = some path →
      tokens redactedPointer = some other → Apart path other) (value : Json N) :
    pointerValue (redactPointer value redactedPointer) pointer = pointerValue value pointer := by
  rw [pointerValue, pointerValue, redactPointer]
  rcases hpath : tokens pointer with _ | path
  · rfl
  rcases hother : tokens redactedPointer with _ | other
  · rfl
  exact valueAt_modifyAt (hapart path other hpath hother) _ value

/-- Neither the pointer nor a redacted one leads to the other's place or below it. -/
def ApartFromRedacted (config : RedactionConfig) (pointer : String) : Prop :=
  ∀ redactedPointer ∈ config.jsonPaths, ∀ path other, tokens pointer = some path →
    tokens redactedPointer = some other → Apart path other

theorem pointerValue_concealed {pointer : String} (h : ApartFromRedacted config pointer)
    (value : Json N) :
    pointerValue (concealed config value) pointer = pointerValue value pointer := by
  have hfold : ∀ (pointers : List String) (value : Json N),
      (∀ other ∈ pointers, other ∈ config.jsonPaths) →
      pointerValue (pointers.foldl redactPointer value) pointer = pointerValue value pointer := by
    intro pointers
    induction pointers with
    | nil => exact fun _ _ => rfl
    | cons first rest ih =>
        intro value hmem
        rw [List.foldl_cons, ih _ fun other hother => hmem other (List.mem_cons_of_mem _ hother)]
        exact pointerValue_redactPointer (h first (hmem first List.mem_cons_self)) value
  rw [concealed, redactPointers_fst]
  exact hfold _ value fun other hother => (Finset.mem_sort _).mp hother

/-- The two bodies hold the same at a pointer. -/
def SameAt (codec : BodyCodec N) (pointer : String) (left right : Bytes) : Prop :=
  ∀ value value', codec.fromSlice left = .ok value → codec.fromSlice right = .ok value' →
    pointerValue value pointer = pointerValue value' pointer

theorem sameAt_of_apart {pointer : String} {body body' : Bytes}
    (h : ApartFromRedacted config pointer) (hbody : SameBody codec config body body') :
    SameAt codec pointer body body' := by
  intro value value' hvalue hvalue'
  rcases hbody with rfl | ⟨other, other', hother, hother', hsame⟩
  · rw [hvalue] at hvalue'
    rw [Except.ok.inj hvalue']
  · rw [hvalue] at hother
    rw [hvalue'] at hother'
    obtain rfl := Except.ok.inj hother
    obtain rfl := Except.ok.inj hother'
    rw [← pointerValue_concealed h value, hsame, pointerValue_concealed h value']

/-! ### The condition on a step -/

/-- A transition that would read the same from two bodies: each pointer that it extracts
from is redacted as it is written, or is apart from the redacted ones, or leads to the same
in both bodies, and either both bodies are short enough to be read or neither is. -/
structure ReadsAlike (codec : BodyCodec N) (config : RedactionConfig)
    (transition : ScenarioTransition) (left right : Bytes) : Prop where
  pointers : ∀ extraction ∈ transition.extract, ∀ pointer,
    extraction.source = .jsonPointer pointer →
      pointer ∈ config.jsonPaths ∨ ApartFromRedacted config pointer ∨
        SameAt codec pointer left right
  size : transition.extract.any isJsonSource = true →
    (left.length ≤ maxJsonBytes ↔ right.length ≤ maxJsonBytes)

/-- What two parsed bodies have in common for the extractions of a transition. -/
def SameJson (config : RedactionConfig) (extract : List VariableExtraction) :
    Option (Json N) → Option (Json N) → Prop
  | none, none => True
  | some value, some value' => ∀ extraction ∈ extract, ∀ pointer,
      extraction.source = .jsonPointer pointer → pointer ∉ config.jsonPaths →
        pointerValue value pointer = pointerValue value' pointer
  | _, _ => False

theorem parseJsonBody_same {transition : ScenarioTransition}
    (hbody : SameBody codec config left.2 right.2)
    (h : ReadsAlike codec config transition left.2 right.2) :
    (∃ error, parseJsonBody codec transition.extract left.2 = .error error ∧
      parseJsonBody codec transition.extract right.2 = .error error) ∨
    ∃ value value', parseJsonBody codec transition.extract left.2 = .ok value ∧
      parseJsonBody codec transition.extract right.2 = .ok value' ∧
      SameJson config transition.extract value value' := by
  rw [parseJsonBody, parseJsonBody]
  split
  · rename_i hreads
    have hsize := h.size hreads
    by_cases hleft : left.2.length ≤ maxJsonBytes
    · rw [ensure_of_true hleft, ensure_of_true (hsize.mp hleft), ok_bind, ok_bind]
      have hpointers : ∀ value value', codec.fromSlice left.2 = .ok value →
          codec.fromSlice right.2 = .ok value' →
          SameJson config transition.extract (some value) (some value') := by
        intro value value' hvalue hvalue' extraction hextraction pointer hsource hopen
        rcases h.pointers extraction hextraction pointer hsource with hmem | hapart | hsame
        · exact absurd hmem hopen
        · exact sameAt_of_apart hapart hbody value value' hvalue hvalue'
        · exact hsame value value' hvalue hvalue'
      rcases hvalue : codec.fromSlice left.2 with error | value
      · rcases hbody with heq | ⟨_, _, hparsed, -⟩
        · rw [← heq, hvalue]
          exact .inl ⟨_, rfl, rfl⟩
        · rw [hvalue] at hparsed
          cases hparsed
      · rcases hvalue' : codec.fromSlice right.2 with error | value'
        · rcases hbody with heq | ⟨_, _, -, hparsed, -⟩
          · rw [heq, hvalue'] at hvalue
            cases hvalue
          · rw [hvalue'] at hparsed
            cases hparsed
        · exact .inr ⟨some value, some value', rfl, rfl, hpointers value value' hvalue hvalue'⟩
    · have hright : ¬right.2.length ≤ maxJsonBytes := fun hright => hleft (hsize.mpr hright)
      rw [ensure_of_false hleft, ensure_of_false hright]
      exact .inl ⟨_, rfl, rfl⟩
  · exact .inr ⟨none, none, rfl, rfl, trivial⟩

theorem sourceValue_same (h : SameRequest codec config left right)
    {jsonBody jsonBody' : Option (Json N)} {extract : List VariableExtraction}
    (hjson : SameJson config extract jsonBody jsonBody') {vars : Variables}
    {extraction : VariableExtraction} (hextraction : extraction ∈ extract)
    (hopen : ¬sourceRedacted config extraction.source = true) :
    sourceValue codec left.1 jsonBody vars extraction.source =
      sourceValue codec right.1 jsonBody' vars extraction.source := by
  cases hsource : extraction.source with
  | pathSegment index => rw [sourceValue, sourceValue, h.path]
  | query key =>
      rw [hsource, sourceRedacted, decide_eq_true_eq] at hopen
      apply find_value_related h.query
      · intro a b hab
        rw [hab.1]
      · intro a b hab hkey
        rw [decide_eq_true_eq] at hkey
        exact hab.2.resolve_left (by rwa [hkey])
  | header name =>
      rw [hsource, sourceRedacted, decide_eq_true_eq] at hopen
      apply find_value_related h.headers
      · intro a b hab
        exact hab.names name
      · intro a b hab hname
        exact hab.value hname hopen
  | jsonPointer pointer =>
      rw [hsource, sourceRedacted, decide_eq_true_eq] at hopen
      rw [sourceValue, sourceValue]
      rcases jsonBody with _ | value
      · rcases jsonBody' with _ | value'
        · rfl
        · exact hjson.elim
      · rcases jsonBody' with _ | value'
        · exact hjson.elim
        · rw [Option.bind_some, Option.bind_some,
            hjson extraction hextraction pointer hsource hopen]
  | priorVariable name => rfl

theorem extractAll_same (h : SameRequest codec config left right)
    {jsonBody jsonBody' : Option (Json N)} {all extract : List VariableExtraction}
    (hjson : SameJson config all jsonBody jsonBody') (hsub : extract ⊆ all)
    {failure : ExtractionFailureBehavior} {vars : Variables} :
    extractAll codec config left.1 jsonBody failure extract vars =
      extractAll codec config right.1 jsonBody' failure extract vars := by
  induction extract generalizing vars with
  | nil => rfl
  | cons extraction rest ih =>
      have hvalue : extractValue codec config left.1 jsonBody vars extraction =
          extractValue codec config right.1 jsonBody' vars extraction := by
        rw [extractValue, extractValue]
        split
        · rfl
        · rename_i hopen
          rw [sourceValue_same h hjson (hsub List.mem_cons_self) hopen]
      rw [extractAll, extractAll, hvalue]
      simp only [ih (List.subset_of_cons_subset hsub)]

theorem takeTransition_same (h : SameRequest codec config left right)
    {runtime : ScenarioRuntime} (hpolicy : runtime.redaction = config)
    {transition : ScenarioTransition}
    (hreads : ReadsAlike codec config transition left.2 right.2) :
    takeTransition codec runtime left.1 left.2 transition =
      takeTransition codec runtime right.1 right.2 transition := by
  rw [takeTransition, takeTransition, hpolicy]
  rcases parseJsonBody_same h.body hreads with
    ⟨error, hleft, hright⟩ | ⟨value, value', hleft, hright, hjson⟩
  · rw [hleft, hright]
    rfl
  · rw [hleft, hright, ok_bind, ok_bind, extractAll_same h hjson (List.Subset.refl _)]

/-- What the step of a runtime reads of two requests is the same. -/
def StepReadsAlike (codec : BodyCodec N) (runtime : ScenarioRuntime)
    (left right : ScenarioRequest) : Prop :=
  ∀ transition, runtime.scenario.transitions.find? (selects runtime.state left.1) =
      some transition →
    ReadsAlike codec runtime.redaction transition left.2 right.2

/-- The predicates of a scenario ask for no redacted field. -/
def PublicScenario (config : RedactionConfig) (scenario : Scenario) : Prop :=
  ∀ transition ∈ scenario.transitions, ∀ predicate ∈ transition.when, Public config predicate

/-- The step lemma: the two calls answer alike and leave the same runtime. -/
theorem advance_same {runtime : ScenarioRuntime}
    (hpublic : PublicScenario runtime.redaction runtime.scenario)
    (h : SameRequest codec runtime.redaction left right)
    (hreads : StepReadsAlike codec runtime left right) :
    runtime.advance codec left.1 left.2 = runtime.advance codec right.1 right.2 := by
  rw [ScenarioRuntime.advance, ScenarioRuntime.advance, ← find_selects_same h hpublic]
  rcases hfind : runtime.scenario.transitions.find? (selects runtime.state left.1) with
    _ | transition
  · rfl
  · dsimp only
    rw [takeTransition_same h rfl (hreads transition hfind)]

theorem advance_keeps (runtime : ScenarioRuntime) (request : HttpRequest) (body : Bytes) :
    (runtime.advance codec request body).2.scenario = runtime.scenario ∧
      (runtime.advance codec request body).2.redaction = runtime.redaction := by
  rw [ScenarioRuntime.advance]
  split
  · exact ⟨rfl, rfl⟩
  · split <;> exact ⟨rfl, rfl⟩

/-- Each step of the run on the first requests reads the same of the second ones. -/
def RunReadsAlike (codec : BodyCodec N) :
    ScenarioRuntime → List ScenarioRequest → List ScenarioRequest → Prop
  | runtime, left :: lefts, right :: rights =>
      StepReadsAlike codec runtime left right ∧
        RunReadsAlike codec (runtime.advance codec left.1 left.2).2 lefts rights
  | _, _, _ => True

/-- The run lemma. -/
theorem advanceAll_same {runtime : ScenarioRuntime} {lefts rights : List ScenarioRequest}
    (hpublic : PublicScenario runtime.redaction runtime.scenario)
    (h : List.Forall₂ (SameRequest codec runtime.redaction) lefts rights)
    (hreads : RunReadsAlike codec runtime lefts rights) :
    runtime.advanceAll codec lefts = runtime.advanceAll codec rights := by
  induction lefts generalizing runtime rights with
  | nil =>
      cases h
      rfl
  | cons left lefts ih =>
      obtain ⟨right, rights, hhead, hrest, rfl⟩ := List.forall₂_cons_left_iff.mp h
      obtain ⟨hstep, hrun⟩ := hreads
      have hkeeps := @advance_keeps _ codec runtime left.1 left.2
      obtain ⟨hscenario, hpolicy⟩ := hkeeps
      have hanswer := advance_same hpublic hhead hstep
      rw [ScenarioRuntime.advanceAll, ScenarioRuntime.advanceAll]
      rw [← hpolicy] at hrest
      rw [← hpolicy, ← hscenario] at hpublic
      rw [ih hpublic hrest hrun, hanswer]

end

/-- Two runs over requests that differ in redacted fields only are the same, where each
step reads the same of both. -/
theorem scenario_conceals {codec : BodyCodec N} {debug : String → String} {rules : ScenarioRules}
    {scenarioId : String} {config : RedactionConfig} {runtime : ScenarioRuntime}
    (hruntime : runtimeWithRedaction debug rules scenarioId config = .ok runtime)
    (hpublic : PublicScenario config runtime.scenario) {lefts rights : List ScenarioRequest}
    (hsame : List.Forall₂ (SameRequest codec config) lefts rights)
    (hreads : RunReadsAlike codec runtime lefts rights) :
    runtime.advanceAll codec lefts = runtime.advanceAll codec rights := by
  have hpolicy : runtime.redaction = config := by
    simp only [runtimeWithRedaction, bind_eq_ok, orFail_eq_ok, pure_eq_ok] at hruntime
    obtain ⟨_, _, scenario, -, rfl⟩ := hruntime
    rfl
  subst hpolicy
  exact advanceAll_same hpublic hsame hreads

/-! ### A scenario that reads an account -/

/-- One state, and one transition that answers with the value at a pointer. -/
def accountScenario (pointer : String) : Scenario where
  id := "account"
  initialState := "start"
  states := ["start"]
  transitions :=
    [{ fromState := "start", when := [.method "POST"]
       extract := [{ name := "v", source := .jsonPointer pointer }]
       extractionFailure := .abort
       response :=
        { status := 200, headers := [], bodyTemplate := "\x7b\x7bv\x7d\x7d"
          jsonPointerReplacements := [], fault := none }
       nextState := "start" }]

def accountRules (pointer : String) : ScenarioRules where
  schemaVersion := 1
  scenarios := [accountScenario pointer]

def accountConfig : RedactionConfig where
  headers := ∅
  queryKeys := ∅
  jsonPaths := {"/user/ssn"}

def accountValue (ssn : String) : Json Nat :=
  .object [("user", .object [("name", .string "ann"), ("ssn", .string ssn)])]

def accountRequest (ssn : String) : ScenarioRequest :=
  (plainRequest, encode (accountValue ssn))

def accountRuntime (pointer : String) : ScenarioRuntime where
  scenario := accountScenario pointer
  state := "start"
  vars := []
  redaction := accountConfig

theorem accountRequest_parsed (ssn : String) :
    sampleCodec.fromSlice (accountRequest ssn).2 = .ok (accountValue ssn) := by
  have hordered : (["name", "ssn"] : List String).Pairwise (· < ·) := by decide
  apply sampleCodec_eq_ok.mpr
  apply decode_encode
  rw [accountValue, depthLimit, fits_object]
  refine ⟨List.pairwise_singleton _ _, ?_⟩
  intro member hmember
  rw [List.mem_singleton.mp hmember, fits_object]
  exact ⟨hordered, by simp [Json.fits]⟩

theorem accountRequest_same :
    SameRequest sampleCodec accountConfig (accountRequest "1") (accountRequest "2") where
  method := rfl
  path := rfl
  query := .nil
  headers := .nil
  body := .inr ⟨accountValue "1", accountValue "2", accountRequest_parsed "1",
    accountRequest_parsed "2", by decide +kernel⟩

theorem account_public (pointer : String) :
    PublicScenario accountConfig (accountScenario pointer) := by
  intro transition htransition predicate hpredicate
  rw [List.mem_singleton.mp htransition] at hpredicate
  rw [List.mem_singleton.mp hpredicate]
  trivial

theorem name_apartFromRedacted : ApartFromRedacted accountConfig "/user/name" := by
  intro redactedPointer hredacted path other hpath hother
  rw [Finset.mem_singleton.mp hredacted] at hother
  obtain rfl : ["user", "name"] = path := by
    have htokens : tokens "/user/name" = some ["user", "name"] := by decide +kernel
    exact Option.some.inj (htokens.symm.trans hpath)
  obtain rfl : ["user", "ssn"] = other := by
    have htokens : tokens "/user/ssn" = some ["user", "ssn"] := by decide +kernel
    exact Option.some.inj (htokens.symm.trans hother)
  decide

/-- Extracting the name conceals the number beside it. -/
theorem account_name_conceals :
    runtimeWithRedaction id (accountRules "/user/name") "account" accountConfig =
        .ok (accountRuntime "/user/name") ∧
      accountRequest "1" ≠ accountRequest "2" ∧
      (accountRuntime "/user/name").advanceAll sampleCodec [accountRequest "1"] =
        (accountRuntime "/user/name").advanceAll sampleCodec [accountRequest "2"] := by
  have hruntime : runtimeWithRedaction id (accountRules "/user/name") "account" accountConfig =
      .ok (accountRuntime "/user/name") := by decide +kernel
  refine ⟨hruntime, by decide +kernel, ?_⟩
  refine scenario_conceals hruntime (account_public _) (.cons accountRequest_same .nil)
    ⟨?_, trivial⟩
  intro transition htransition
  have hfind : (accountScenario "/user/name").transitions.find?
      (selects "start" (accountRequest "1").1) =
      (accountScenario "/user/name").transitions.head? := by decide +kernel
  obtain rfl := Option.some.inj (hfind.symm.trans htransition)
  refine ⟨?_, fun _ => by decide +kernel⟩
  intro extraction hextraction pointer hsource
  rw [List.mem_singleton.mp hextraction] at hsource
  obtain rfl : "/user/name" = pointer := by simpa using hsource
  exact .inr (.inl name_apartFromRedacted)

/-- The value above a redacted one is no redacted source, and holds it. -/
theorem account_user_reveals :
    ¬∀ (codec : BodyCodec Nat) (debug : String → String) (rules : ScenarioRules)
      (scenarioId : String) (config : RedactionConfig) (runtime : ScenarioRuntime)
      (lefts rights : List ScenarioRequest),
      runtimeWithRedaction debug rules scenarioId config = .ok runtime →
      PublicScenario config runtime.scenario →
      List.Forall₂ (SameRequest codec config) lefts rights →
      runtime.advanceAll codec lefts = runtime.advanceAll codec rights := by
  intro h
  have hruntime : runtimeWithRedaction id (accountRules "/user") "account" accountConfig =
      .ok (accountRuntime "/user") := by decide +kernel
  have hsame := h sampleCodec _ _ _ _ _ [accountRequest "1"] [accountRequest "2"] hruntime
    (account_public _) (.cons accountRequest_same .nil)
  have hleft : ((accountRuntime "/user").advanceAll sampleCodec [accountRequest "1"]).map
      (fun answer => answer.2.vars) =
      [[("v", "\x7b\"name\":\"ann\",\"ssn\":\"1\"\x7d")]] := by decide +kernel
  have hright : ((accountRuntime "/user").advanceAll sampleCodec [accountRequest "2"]).map
      (fun answer => answer.2.vars) =
      [[("v", "\x7b\"name\":\"ann\",\"ssn\":\"2\"\x7d")]] := by decide +kernel
  rw [hsame, hright] at hleft
  exact absurd hleft (by decide)

end EggReplay.Core.ScenarioSecrecy
