import EggReplay.Core.Redaction
import EggReplay.Core.Scenarios
import EggReplay.Library.JsonLookup

/-!
Scenarios at run time: the first matching transition, the extraction of variables from
the request, templates, and the step that a server takes for a request.
-/

namespace EggReplay.Core.ScenarioSteps

open EggReplay.Library.Checks
open EggReplay.Library.Text
open EggReplay.Library.JsonText
open EggReplay.Library.JsonPointer
open EggReplay.Library.JsonLookup
open EggReplay.Core.FlowRecord
open EggReplay.Core.Redaction
open EggReplay.Core.Scenarios

variable {N : Type}

def maxJsonBytes : Nat := 1024 * 1024

structure RenderedScenarioResponse where
  status : Nat
  headers : List HeaderEntry
  body : Bytes
  fault : Option ScenarioFault
  deriving DecidableEq, Repr

structure ScenarioStep where
  scenarioId : String
  previousState : String
  nextState : String
  response : RenderedScenarioResponse
  deriving DecidableEq, Repr

/-! ### Variables -/

/-- A map from names to values, in the order of its names. -/
abbrev Variables := List (String × String)

def Variables.insert (vars : Variables) (name value : String) : Variables :=
  match vars with
  | [] => [(name, value)]
  | (other, old) :: rest =>
      if name = other then (name, value) :: rest
      else if name < other then (name, value) :: (other, old) :: rest
      else (other, old) :: Variables.insert rest name value

structure ScenarioRuntime where
  scenario : Scenario
  state : String
  vars : Variables
  redaction : RedactionConfig
  deriving DecidableEq

/-! ### Extraction -/

def sourceRedacted (redaction : RedactionConfig) : VariableSource → Bool
  | .query key => decide (key ∈ redaction.queryKeys)
  | .header name => decide (toAsciiLowercase name ∈ redaction.headers)
  | .jsonPointer pointer => decide (pointer ∈ redaction.jsonPaths)
  | .pathSegment _ | .priorVariable _ => false

/-- `Value::to_string`. -/
def jsonText (codec : BodyCodec N) (value : Json N) : String :=
  String.ofList ((decodeUtf8 (codec.toVec value)).getD [])

def extractedText (codec : BodyCodec N) : Json N → String
  | .string text => text
  | other => jsonText codec other

def sourceValue (codec : BodyCodec N) (request : HttpRequest) (jsonBody : Option (Json N))
    (vars : Variables) : VariableSource → Option String
  | .pathSegment index => ((split request.path '/').filter (· ≠ ""))[index]?
  | .query key => (request.query.find? fun pair => decide (pair.key = key)).map (·.value)
  | .header name =>
      (request.headers.find? fun field => eqIgnoreAsciiCase field.name name).map (·.value)
  | .jsonPointer pointer =>
      (jsonBody.bind fun value => pointerValue value pointer).map (extractedText codec)
  | .priorVariable name => vars.lookup name

def extractValue (codec : BodyCodec N) (redaction : RedactionConfig) (request : HttpRequest)
    (jsonBody : Option (Json N)) (vars : Variables) (extraction : VariableExtraction) :
    Except String String :=
  if sourceRedacted redaction extraction.source = true then
    .error "scenario extraction source is redacted"
  else
    orFail (sourceValue codec request jsonBody vars extraction.source)
      ("scenario variable \"" ++ extraction.name ++ "\" could not be extracted")

/-- The variables after the extractions in turn, or none where one fails and the transition
says to skip. -/
def extractAll (codec : BodyCodec N) (redaction : RedactionConfig) (request : HttpRequest)
    (jsonBody : Option (Json N)) (failure : ExtractionFailureBehavior) :
    List VariableExtraction → Variables → Except String (Option Variables)
  | [], vars => .ok (some vars)
  | extraction :: rest, vars =>
      match extractValue codec redaction request jsonBody vars extraction with
      | .error error =>
          match failure with
          | .abort => .error error
          | .skip => .ok none
      | .ok value =>
          if maxValueBytes < value.utf8ByteSize then
            .error "scenario variable value exceeds configured limit"
          else
            extractAll codec redaction request jsonBody failure rest
              (vars.insert extraction.name value)

/-! ### Templates -/

def templateLimit : String := "rendered scenario template exceeds configured limit"

/-- The output so far, followed by what the rest of a template renders to. -/
def renderFrom (vars : Variables) (output : String) (rest : List Char) :
    Except String String :=
  match hstart : splitOncePair '{' '{' rest with
  | none =>
      if maxTemplateBytes < (output ++ String.ofList rest).utf8ByteSize then
        .error templateLimit
      else .ok (output ++ String.ofList rest)
  | some (lead, tail) =>
      match hend : splitOncePair '}' '}' tail with
      | none => .error "unterminated scenario variable"
      | some (name, after) =>
          match validateName (String.ofList name) "template variable" with
          | .error error => .error error
          | .ok () =>
              match vars.lookup (String.ofList name) with
              | none =>
                  .error ("scenario variable \"" ++ String.ofList name ++ "\" is missing")
              | some value =>
                  let output := output ++ String.ofList lead ++ value
                  if maxTemplateBytes < output.utf8ByteSize then .error templateLimit
                  else renderFrom vars output after
termination_by rest.length
decreasing_by
  rw [splitOncePair_eq_some hstart, splitOncePair_eq_some hend]
  simp only [List.length_append, List.length_cons]
  omega

def render (template : String) (vars : Variables) : Except String String :=
  if maxTemplateBytes < template.utf8ByteSize then
    .error "scenario template exceeds configured limit"
  else renderFrom vars "" template.toList

/-! ### Steps -/

def RequestPredicate.matches (request : HttpRequest) : RequestPredicate → Bool
  | .method value => decide (request.method = value)
  | .path value => decide (request.path = value)
  | .query key value =>
      request.query.any fun pair => decide (pair.key = key) && decide (pair.value = value)
  | .header name value =>
      request.headers.any fun field =>
        eqIgnoreAsciiCase field.name name && decide (field.value = value)

def selects (state : String) (request : HttpRequest) (transition : ScenarioTransition) : Bool :=
  decide (transition.fromState = state) &&
    transition.when.all (RequestPredicate.matches request)

def isJsonSource (extraction : VariableExtraction) : Bool :=
  match extraction.source with
  | .jsonPointer _ => true
  | .pathSegment _ | .query _ | .header _ | .priorVariable _ => false

def parseJsonBody (codec : BodyCodec N) (extract : List VariableExtraction) (body : Bytes) :
    Except String (Option (Json N)) :=
  if extract.any isJsonSource = true then do
    ensure (body.length ≤ maxJsonBytes) "JSON extraction body exceeds configured limit"
    let value ← (codec.fromSlice body).mapError fun _ => "JSON extraction body is invalid"
    pure (some value)
  else pure none

def replaceAt (vars : Variables) (value : Json N) (replacement : JsonPointerReplacement) :
    Except String (Json N) := do
  ensure (pointerResolves value replacement.pointer = true)
    "scenario JSON Pointer target was not found"
  let text ← render replacement.valueTemplate vars
  match tokens replacement.pointer with
  | some path => pure (modifyAt path (fun _ => .string text) value)
  | none => pure value

def renderBody (codec : BodyCodec N) (response : ScenarioResponse) (vars : Variables) :
    Except String Bytes := do
  let body ← render response.bodyTemplate vars
  if response.jsonPointerReplacements = [] then pure (utf8 body.toList)
  else do
    let value ← (codec.fromSlice (utf8 body.toList)).mapError fun _ =>
      "scenario JSON transform body is invalid JSON"
    let value ← checkFold (replaceAt vars) value response.jsonPointerReplacements
    let body := codec.toVec value
    ensure (body.length ≤ maxTemplateBytes) "rendered scenario JSON exceeds configured limit"
    pure body

def renderHeader (vars : Variables) (header : HeaderEntry) : Except String HeaderEntry := do
  let value ← render header.value vars
  pure { name := header.name, value := value }

def renderHeaders (vars : Variables) : List HeaderEntry → Except String (List HeaderEntry)
  | [] => pure []
  | header :: rest => do
      let header ← renderHeader vars header
      let rest ← renderHeaders vars rest
      pure (header :: rest)

def renderResponse (codec : BodyCodec N) (response : ScenarioResponse) (vars : Variables) :
    Except String RenderedScenarioResponse := do
  let body ← renderBody codec response vars
  ensure (100 ≤ response.status ∧ response.status ≤ 599) "scenario response status is invalid"
  let headers ← renderHeaders vars response.headers
  pure { status := response.status, headers := headers, body := body, fault := response.fault }

/-- What a request makes of the runtime where nothing goes wrong: the variables and the
response of a transition, or none where it is skipped. -/
def takeTransition (codec : BodyCodec N) (runtime : ScenarioRuntime) (request : HttpRequest)
    (body : Bytes) (transition : ScenarioTransition) :
    Except String (Option (Variables × RenderedScenarioResponse)) := do
  ensure (transition.extract.length + runtime.vars.length ≤ maxVariables)
    "scenario variable count exceeds configured limit"
  let jsonBody ← parseJsonBody codec transition.extract body
  let extracted ← extractAll codec runtime.redaction request jsonBody
    transition.extractionFailure transition.extract runtime.vars
  match extracted with
  | none => pure none
  | some vars => do
      let response ← renderResponse codec transition.response vars
      pure (some (vars, response))

/-- `ScenarioRuntime::advance`, with the runtime that it leaves behind. -/
def ScenarioRuntime.advance (codec : BodyCodec N) (runtime : ScenarioRuntime)
    (request : HttpRequest) (body : Bytes) :
    Except String (Option ScenarioStep) × ScenarioRuntime :=
  match runtime.scenario.transitions.find? (selects runtime.state request) with
  | none => (.ok none, runtime)
  | some transition =>
      match takeTransition codec runtime request body transition with
      | .error error => (.error error, runtime)
      | .ok none => (.ok none, runtime)
      | .ok (some (vars, response)) =>
          (.ok (some
            { scenarioId := runtime.scenario.id
              previousState := runtime.state
              nextState := transition.nextState
              response := response }),
            { runtime with state := transition.nextState, vars := vars })

/-- `runtime_with_redaction`, given how a text is written with `{:?}`. -/
def runtimeWithRedaction (debug : String → String) (rules : ScenarioRules)
    (scenarioId : String) (redaction : RedactionConfig) : Except String ScenarioRuntime := do
  rules.validate
  let scenario ← orFail (rules.scenarios.find? fun scenario => decide (scenario.id = scenarioId))
    ("scenario " ++ debug scenarioId ++ " was not found")
  pure
    { scenario := scenario
      state := scenario.initialState
      vars := []
      redaction := redaction }

/-- A request with the bytes of its body. -/
abbrev ScenarioRequest := HttpRequest × Bytes

/-- The runtime after a sequence of requests. -/
def ScenarioRuntime.after (codec : BodyCodec N) (runtime : ScenarioRuntime)
    (requests : List ScenarioRequest) : ScenarioRuntime :=
  requests.foldl (fun current request => (current.advance codec request.1 request.2).2) runtime

/-- The answers to a sequence of requests, each with the runtime after it. -/
def ScenarioRuntime.advanceAll (codec : BodyCodec N) (runtime : ScenarioRuntime) :
    List ScenarioRequest → List (Except String (Option ScenarioStep) × ScenarioRuntime)
  | [] => []
  | (request, body) :: rest =>
      let answer := runtime.advance codec request body
      answer :: ScenarioRuntime.advanceAll codec answer.2 rest

end EggReplay.Core.ScenarioSteps
