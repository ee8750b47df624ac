import EggReplay.Core.FlowRecord

/-!
Authored scenario rules as data, and the bounds that a rules document must meet
before a session that carries it opens.
-/

namespace EggReplay.Core.Scenarios

open EggReplay.Library.Checks
open EggReplay.Library.Text
open EggReplay.Core.FlowRecord

def maxScenarios : Nat := 128
def maxStates : Nat := 128
def maxTransitions : Nat := 1024
def maxVariables : Nat := 64
def maxNameBytes : Nat := 128
def maxTemplateBytes : Nat := 16 * 1024
def maxValueBytes : Nat := 4096
def maxFaultDelayMs : Nat := 30000
def maxFaultChunkBytes : Nat := 16 * 1024 * 1024
def rulesSchemaVersion : Nat := 1

inductive ExtractionFailureBehavior where
  | abort | skip
  deriving DecidableEq, Repr

inductive RequestPredicate where
  | method (value : String)
  | path (value : String)
  | query (key value : String)
  | header (name value : String)
  deriving DecidableEq, Repr

inductive VariableSource where
  | pathSegment (index : Nat)
  | query (key : String)
  | header (name : String)
  | jsonPointer (pointer : String)
  | priorVariable (name : String)
  deriving DecidableEq, Repr

structure VariableExtraction where
  name : String
  source : VariableSource
  deriving DecidableEq, Repr

structure JsonPointerReplacement where
  pointer : String
  valueTemplate : String
  deriving DecidableEq, Repr

inductive ScenarioFault where
  | responseHeadDelay (delayMs : Nat)
  | bodyChunkDelay (delayMs chunkBytes : Nat)
  | closeBeforeResponse
  | closeAfterBytes (bytes : Nat)
  | transportError (category : ErrorCategory) (phase : ErrorPhase)
  deriving DecidableEq, Repr

structure ScenarioResponse where
  status : Nat
  headers : List HeaderEntry
  bodyTemplate : String
  jsonPointerReplacements : List JsonPointerReplacement
  fault : Option ScenarioFault
  deriving DecidableEq, Repr

structure ScenarioTransition where
  fromState : String
  when : List RequestPredicate
  extract : List VariableExtraction
  extractionFailure : ExtractionFailureBehavior
  response : ScenarioResponse
  nextState : String
  deriving DecidableEq, Repr

structure Scenario where
  id : String
  initialState : String
  states : List String
  transitions : List ScenarioTransition
  deriving DecidableEq, Repr

structure ScenarioRules where
  schemaVersion : Nat
  scenarios : List Scenario
  deriving DecidableEq, Repr

def validateName (value label : String) : Except String Unit :=
  ensure (value ≠ "" ∧ value.utf8ByteSize ≤ maxNameBytes ∧
      value.toList.all (fun c => c.isAlphanum || c == '_' || c == '-' || c == '.') = true)
    ("invalid or oversized " ++ label)

def ScenarioFault.validate : ScenarioFault → Except String Unit
  | .responseHeadDelay delayMs =>
      ensure (delayMs ≤ maxFaultDelayMs) "scenario fault delay exceeds configured limit"
  | .bodyChunkDelay delayMs chunkBytes => do
      ensure (delayMs ≤ maxFaultDelayMs) "scenario fault delay exceeds configured limit"
      ensure (chunkBytes ≠ 0 ∧ chunkBytes ≤ maxFaultChunkBytes)
        "scenario fault chunk size exceeds configured bounds"
  | .closeBeforeResponse | .closeAfterBytes _ | .transportError _ _ => pure ()

def headerNameChar (c : Char) : Bool :=
  c.isAlphanum || "!#$%&'*+-.^_`|~".toList.contains c

/-- Carriage return and line feed are among the rejected control characters. -/
def headerValueChar (c : Char) : Bool :=
  !(c == '\r' || c == '\n' || (c.toNat < 32 && c != '\t'))

def validateReplacement (replacement : JsonPointerReplacement) : Except String Unit :=
  ensure (replacement.pointer.utf8ByteSize ≤ maxNameBytes ∧
      (replacement.pointer = "" ∨ startsWith replacement.pointer "/" = true) ∧
      replacement.valueTemplate.utf8ByteSize ≤ maxTemplateBytes)
    "invalid or oversized scenario JSON transform"

def validateResponseHeader (header : HeaderEntry) : Except String Unit := do
  ensure (header.name.utf8ByteSize ≤ 256 ∧ header.value.utf8ByteSize ≤ maxValueBytes)
    "scenario response header exceeds configured limit"
  ensure (header.name ≠ "" ∧ header.name.toList.all headerNameChar = true ∧
      header.value.toList.all headerValueChar = true)
    "scenario response header is malformed"

def VariableSource.validate : VariableSource → Except String Unit
  | .query key | .header key => validateName key "extraction key"
  | .jsonPointer pointer =>
      ensure (pointer.utf8ByteSize ≤ maxNameBytes ∧
        (pointer = "" ∨ startsWith pointer "/" = true)) "invalid JSON Pointer"
  | .priorVariable name => validateName name "prior variable"
  | .pathSegment index =>
      ensure (index ≤ 1024) "path segment index exceeds configured limit"

def validateExtraction (names : List String) (extraction : VariableExtraction) :
    Except String (List String) := do
  validateName extraction.name "variable name"
  ensure (extraction.name ∉ names) "duplicate variable extraction name"
  extraction.source.validate
  pure (extraction.name :: names)

def checkPredicateValue (name value : String) : Except String Unit :=
  ensure (value.utf8ByteSize ≤ maxValueBytes)
    ("scenario " ++ name ++ " predicate exceeds configured limit")

def RequestPredicate.validate : RequestPredicate → Except String Unit
  | .method value => checkPredicateValue "method" value
  | .path value => checkPredicateValue "path" value
  | .query key value => do
      checkPredicateValue "query key" key
      checkPredicateValue "query value" value
  | .header name value => do
      checkPredicateValue "header name" name
      checkPredicateValue "header value" value

def validateTransition (transition : ScenarioTransition) : Except String Unit := do
  ensure (transition.extract.length ≤ maxVariables)
    "transition variable count exceeds configured limit"
  ensure (transition.response.bodyTemplate.utf8ByteSize ≤ maxTemplateBytes)
    "scenario template exceeds configured limit"
  ensure (transition.response.jsonPointerReplacements.length ≤ 32)
    "scenario JSON transform count exceeds configured limit"
  checkAll validateReplacement transition.response.jsonPointerReplacements
  ensure (100 ≤ transition.response.status ∧ transition.response.status ≤ 599)
    "scenario response status is invalid"
  checkAll ScenarioFault.validate transition.response.fault.toList
  checkAll validateResponseHeader transition.response.headers
  let _ ← checkFold validateExtraction [] transition.extract
  checkAll RequestPredicate.validate transition.when

def validateState (states : List String) (state : String) :
    Except String (List String) := do
  validateName state "state name"
  ensure (state ∉ states) "duplicate scenario state"
  pure (state :: states)

def validateScenario (ids : List String) (scenario : Scenario) :
    Except String (List String) := do
  validateName scenario.id "scenario id"
  ensure (scenario.id ∉ ids) "duplicate scenario id"
  ensure (scenario.states ≠ [] ∧ scenario.states.length ≤ maxStates)
    "scenario state count exceeds configured bounds"
  let states ← checkFold validateState [] scenario.states
  ensure (scenario.initialState ∈ states) "initial state is not declared"
  ensure (scenario.transitions.length ≤ maxTransitions)
    "scenario transition count exceeds configured limit"
  checkAll (fun transition => do
    ensure (transition.fromState ∈ states ∧ transition.nextState ∈ states)
      "transition references an undeclared state"
    validateTransition transition) scenario.transitions
  pure (scenario.id :: ids)

def ScenarioRules.validate (rules : ScenarioRules) : Except String Unit := do
  ensure (rules.schemaVersion = rulesSchemaVersion)
    ("unsupported rules schema " ++ Nat.repr rules.schemaVersion)
  ensure (rules.scenarios.length ≤ maxScenarios)
    "scenario count exceeds configured limit"
  let _ ← checkFold validateScenario [] rules.scenarios
  pure ()

end EggReplay.Core.Scenarios
