import EggReplay.Core.Redaction

/-!
Request matching: normalization, the selection loop over candidates in fixture
order, body comparison with redacted fields as wildcards, and consumption. A loader
answers by candidate, without a state of its own.
-/

namespace EggReplay.Core.Matching

open EggReplay.Library.Checks
open EggReplay.Library.Text
open EggReplay.Library.JsonText
open EggReplay.Library.JsonPointer
open EggReplay.Core.FlowRecord
open EggReplay.Core.Redaction

variable {N : Type}

inductive BodyMatchMode where
  | exactBytes | exactText | semanticJson
  deriving DecidableEq, Repr

inductive ConsumptionMode where
  | once | repeatLast | unlimited
  deriving DecidableEq, Repr

inductive MatcherProfile where
  | strict | practical
  deriving DecidableEq, Repr

/-- Values grouped by lowercase name, in the order of the names. -/
abbrev HeaderGroups := List (String × List String)

structure NormalizedRequest where
  scheme : String
  authority : String
  path : String
  query : List QueryPair
  headers : HeaderGroups
  deriving DecidableEq, Repr

inductive CandidateBody where
  | absent
  | empty
  | digest (sha256 : String) (length : Nat)
  | inline (bytes : Bytes)
  deriving DecidableEq, Repr

def CandidateBody.fromBodyRef : BodyRef → CandidateBody
  | .absent => .absent
  | .empty => .empty
  | .blob reference => .digest reference.sha256 reference.length

structure MatchCandidate where
  flow : Flow
  body : CandidateBody
  requestBody : Bytes
  deriving DecidableEq, Repr

def MatchCandidate.new (flow : Flow) (requestBody : Bytes) : MatchCandidate where
  flow := flow
  body := .inline requestBody
  requestBody := requestBody

def MatchCandidate.fromFlow (flow : Flow) : MatchCandidate where
  flow := flow
  body := CandidateBody.fromBodyRef flow.request.body
  requestBody := []

inductive MatchDimension where
  | method | authority | path | query | headers | body
  deriving DecidableEq, Repr

structure NearMiss where
  candidateIndex : Nat
  cost : Nat
  dimensions : List MatchDimension
  summary : String
  deriving DecidableEq, Repr

inductive MatchResult where
  | matched (index : Nat)
  | noMatch (nearMisses : List NearMiss)
  | exhausted (nearMisses : List NearMiss)
  deriving DecidableEq, Repr

structure Matcher where
  profile : MatcherProfile
  bodyMode : BodyMatchMode
  ignoredHeaders : Finset String
  ignoredJsonPaths : Finset String
  maxNearMisses : Nat
  deriving DecidableEq

def Matcher.new (profile : MatcherProfile) (bodyMode : BodyMatchMode)
    (maxNearMisses : Nat) : Matcher where
  profile := profile
  bodyMode := bodyMode
  ignoredHeaders := ∅
  ignoredJsonPaths := ∅
  maxNearMisses := maxNearMisses

def Matcher.strict (maxNearMisses : Nat) : Matcher :=
  Matcher.new .strict .exactBytes maxNearMisses

def Matcher.practical (maxNearMisses : Nat) : Matcher :=
  { Matcher.new .practical .exactBytes maxNearMisses with
    ignoredHeaders := {"date", "user-agent", "x-request-id"} }

def Matcher.ignoreHeader (matcher : Matcher) (name : String) : Matcher :=
  { matcher with ignoredHeaders := insert (toAsciiLowercase name) matcher.ignoredHeaders }

def Matcher.ignoreJsonPath (matcher : Matcher) (path : String) : Matcher :=
  { matcher with ignoredJsonPaths := insert path matcher.ignoredJsonPaths }

/-! ### Normalization -/

def pushGrouped (name value : String) : HeaderGroups → HeaderGroups
  | [] => [(name, [value])]
  | (other, values) :: rest =>
      if name = other then (other, values ++ [value]) :: rest
      else if name < other then (name, [value]) :: (other, values) :: rest
      else (other, values) :: pushGrouped name value rest

def normalizeHeaders (headers : List HeaderEntry) (ignored : Finset String) :
    HeaderGroups :=
  headers.foldl (fun groups header =>
    let name := toAsciiLowercase header.name
    if name ∈ ignored then groups else pushGrouped name header.value groups) []

def Matcher.normalize (matcher : Matcher) (request : HttpRequest) : NormalizedRequest where
  scheme := toAsciiLowercase request.scheme
  authority := toAsciiLowercase request.authority
  path := if request.path = "" then "/" else request.path
  query := request.query
  headers := normalizeHeaders request.headers matcher.ignoredHeaders

/-! ### Markers -/

def markedFields (lead : String) (markers : List RedactionMarker) : List String :=
  markers.filterMap fun marker => stripLead marker.field lead

def redactedRequestHeaders (markers : List RedactionMarker) : Finset String :=
  ((markedFields "request.headers." markers).map toAsciiLowercase).toFinset

def redactedRequestQuery (markers : List RedactionMarker) : Finset String :=
  (markedFields "request.query." markers).toFinset

def redactedBodyJsonPaths (markers : List RedactionMarker) (response : Bool) :
    Finset String :=
  (markedFields
    (if response = true then responseBodyJsonMarkerPrefix else bodyJsonMarkerPrefix)
    markers).toFinset

def redactedBodyFormKeys (markers : List RedactionMarker) : Finset String :=
  (markedFields "request.body.form:" markers).toFinset

def filterQuery (query : List QueryPair) (redacted : Finset String) : List QueryPair :=
  if redacted = ∅ then query else query.filter fun pair => pair.key ∉ redacted

/-! ### Bodies -/

/-- `Map::remove` by the raw token, or `Vec::remove` at the index it parses to. -/
def removeChild (token : String) : Json N → Json N
  | .object members => .object (members.filter fun member => member.1 ≠ token)
  | .array items =>
      match parseUsize token with
      | some index => .array (items.eraseIdx index)
      | none => .array items
  | other => other

def removeJsonPointer (value : Json N) (pointer : String) : Json N :=
  if pointer = "" then value
  else match rsplitOnce pointer '/' with
    | none => value
    | some (parent, token) =>
        match tokens parent with
        | none => value
        | some path => modifyAt path (removeChild token) value

def removePointers (pointers : Finset String) (value : Json N) : Json N :=
  (pointers.sort (· ≤ ·)).foldl removeJsonPointer value

def bodyMatchWithJson [DecidableEq N] (codec : BodyCodec N) (actual expected : Bytes)
    (ignoredPaths : Finset String) : Bool :=
  match codec.fromSlice actual, codec.fromSlice expected with
  | .ok actualJson, .ok expectedJson =>
      decide (removePointers ignoredPaths actualJson =
        removePointers ignoredPaths expectedJson)
  | _, _ => false

def isUtf8 (bytes : Bytes) : Bool := (decodeUtf8 bytes).isSome

def bodyMatch [DecidableEq N] (codec : BodyCodec N) (mode : BodyMatchMode)
    (actual expected : Bytes) (ignoredPaths : Finset String) : Bool :=
  match mode with
  | .exactBytes => decide (actual = expected)
  | .exactText => decide (actual = expected) && isUtf8 actual
  | .semanticJson => bodyMatchWithJson codec actual expected ignoredPaths

def isForm (text : String) : Bool :=
  containsChar text '=' && !startsWith (trimStart text) "\x7b"

def formRemainder (codec : BodyCodec N) (body : Bytes) (redactedKeys : Finset String) :
    List (String × String) :=
  (codec.parseForm body).filter fun pair => pair.1 ∉ redactedKeys

def tryFormWildcard (codec : BodyCodec N) (actual expected : Bytes)
    (redactedKeys : Finset String) : Option Bool := do
  let actualText ← decodeUtf8 actual
  let expectedText ← decodeUtf8 expected
  if isForm (String.ofList actualText) = true ∧ isForm (String.ofList expectedText) = true then
    some (decide (formRemainder codec actual redactedKeys =
      formRemainder codec expected redactedKeys))
  else none

abbrev Loader := Nat → MatchCandidate → Option Bytes

/-- The bytes that a redacted candidate is compared with. -/
def expectedBytes (loader : Loader) (index : Nat) (candidate : MatchCandidate) :
    Option Bytes :=
  match candidate.body with
  | .digest _ _ => loader index candidate
  | .inline bytes =>
      if bytes ≠ [] then some bytes
      else if candidate.requestBody ≠ [] then some candidate.requestBody
      else loader index candidate
  | .absent | .empty => some []

def Matcher.bodyMatchesRedacted [DecidableEq N] (matcher : Matcher) (codec : BodyCodec N)
    (actualBody : Bytes) (index : Nat) (candidate : MatchCandidate) (loader : Loader) : Bool :=
  let redactedJson := redactedBodyJsonPaths candidate.flow.redactions false
  let redactedForm := redactedBodyFormKeys candidate.flow.redactions
  match expectedBytes loader index candidate with
  | none => false
  | some expected =>
      let form := if redactedForm = ∅ then none
        else tryFormWildcard codec actualBody expected redactedForm
      match form with
      | some result => result
      | none =>
          bodyMatchWithJson codec actualBody expected (matcher.ignoredJsonPaths ∪ redactedJson)

def Matcher.bodyMatchesPlain [DecidableEq N] (matcher : Matcher) (codec : BodyCodec N)
    (actualBody : Bytes) (narrowed : Bool) (index : Nat) (candidate : MatchCandidate)
    (loader : Loader) : Bool :=
  match candidate.body with
  | .absent | .empty => decide (actualBody = [])
  | .digest sha256 length =>
      let same := decide (actualBody.length = length) && decide (codec.sha256 actualBody = sha256)
      match matcher.bodyMode with
      | .exactBytes => same
      | .exactText => same && isUtf8 actualBody
      | .semanticJson =>
          if narrowed = false then false
          else match loader index candidate with
            | some expected =>
                bodyMatch codec .semanticJson actualBody expected matcher.ignoredJsonPaths
            | none => false
  | .inline expected =>
      let bytes := if expected = [] then candidate.requestBody else expected
      bodyMatch codec matcher.bodyMode actualBody bytes matcher.ignoredJsonPaths

def Matcher.bodyMatchesLazy [DecidableEq N] (matcher : Matcher) (codec : BodyCodec N)
    (actualBody : Bytes) (narrowed : Bool) (index : Nat) (candidate : MatchCandidate)
    (loader : Loader) : Bool :=
  if redactedBodyJsonPaths candidate.flow.redactions false ≠ ∅ ∨
      redactedBodyFormKeys candidate.flow.redactions ≠ ∅ then
    narrowed && matcher.bodyMatchesRedacted codec actualBody index candidate loader
  else matcher.bodyMatchesPlain codec actualBody narrowed index candidate loader

/-! ### Selection -/

structure MatcherSession where
  consumed : Finset Nat
  last : Option Nat
  deriving DecidableEq

def MatcherSession.new : MatcherSession where
  consumed := ∅
  last := none

def MatcherSession.isAvailable (session : MatcherSession) (index : Nat) :
    ConsumptionMode → Bool
  | .once => decide (index ∉ session.consumed)
  | .repeatLast =>
      match session.last with
      | some last => decide (last = index)
      | none => decide (index ∉ session.consumed)
  | .unlimited => true

def MatcherSession.consume (session : MatcherSession) (index : Nat)
    (mode : ConsumptionMode) : MatcherSession where
  consumed := if mode = .unlimited then session.consumed else insert index session.consumed
  last := if mode = .repeatLast then some index else session.last

/-- The dimensions other than the body in which a candidate differs. -/
def Matcher.dimensions (matcher : Matcher) (actual : HttpRequest)
    (candidate : MatchCandidate) : List MatchDimension :=
  let markers := candidate.flow.redactions
  let expected := candidate.flow.request
  let ignored := matcher.ignoredHeaders ∪ redactedRequestHeaders markers
  let redactedQuery := redactedRequestQuery markers
  let left := matcher.normalize actual
  let right := matcher.normalize expected
  (if left.scheme ≠ right.scheme ∨ left.authority ≠ right.authority then [.authority] else []) ++
    (if left.path ≠ right.path then [.path] else []) ++
    (if filterQuery actual.query redactedQuery ≠ filterQuery expected.query redactedQuery
      then [.query] else []) ++
    (if normalizeHeaders actual.headers ignored ≠ normalizeHeaders expected.headers ignored
      then [.headers] else []) ++
    (if actual.method ≠ expected.method then [.method] else [])

structure Scan where
  near : List NearMiss
  matchingConsumed : Bool
  deriving DecidableEq, Repr

def Scan.differs (scan : Scan) (matcher : Matcher) (index : Nat)
    (dimensions : List MatchDimension) : Scan :=
  if dimensions ≠ [] ∧ scan.near.length < matcher.maxNearMisses then
    { scan with near := scan.near ++ [{
        candidateIndex := index
        cost := min dimensions.length 255
        dimensions := dimensions
        summary := "candidate differs in explicit request dimensions" }] }
  else scan

def Scan.result (scan : Scan) : MatchResult :=
  let near := scan.near.mergeSort fun a b =>
    decide (a.cost < b.cost ∨ a.cost = b.cost ∧ a.candidateIndex ≤ b.candidateIndex)
  if scan.matchingConsumed = true then .exhausted near else .noMatch near

def Matcher.selectFrom [DecidableEq N] (matcher : Matcher) (codec : BodyCodec N)
    (actual : HttpRequest) (actualBody : Bytes) (mode : ConsumptionMode)
    (session : MatcherSession) (loader : Loader) :
    Nat → List MatchCandidate → Scan → MatchResult × MatcherSession
  | _, [], scan => (scan.result, session)
  | index, candidate :: rest, scan =>
      let dimensions := matcher.dimensions actual candidate
      let narrowed := decide (dimensions = [])
      let bodyMatch := matcher.bodyMatchesLazy codec actualBody narrowed index candidate loader
      if narrowed = true ∧ bodyMatch = true then
        if session.isAvailable index mode = true then
          (.matched index, session.consume index mode)
        else
          matcher.selectFrom codec actual actualBody mode session loader (index + 1) rest
            { scan with matchingConsumed := true }
      else
        matcher.selectFrom codec actual actualBody mode session loader (index + 1) rest
          (scan.differs matcher index
            (dimensions ++ if bodyMatch = true then [] else [.body]))

def Matcher.selectWithLoader [DecidableEq N] (matcher : Matcher) (codec : BodyCodec N)
    (actual : HttpRequest) (actualBody : Bytes) (candidates : List MatchCandidate)
    (mode : ConsumptionMode) (session : MatcherSession) (loader : Loader) :
    MatchResult × MatcherSession :=
  matcher.selectFrom codec actual actualBody mode session loader 0 candidates
    { near := [], matchingConsumed := false }

/-- Selection without a loader: a stored body is compared by its metadata only. -/
def Matcher.select [DecidableEq N] (matcher : Matcher) (codec : BodyCodec N)
    (actual : HttpRequest) (actualBody : Bytes) (candidates : List MatchCandidate)
    (mode : ConsumptionMode) (session : MatcherSession) : MatchResult × MatcherSession :=
  matcher.selectWithLoader codec actual actualBody candidates mode session fun _ _ => none

end EggReplay.Core.Matching
