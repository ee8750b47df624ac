import EggReplay.Core.FlowRecord
import EggReplay.Library.JsonPointer

/-!
Redaction of a flow and of structured body bytes, with the markers it leaves. The
JSON, form and digest routines are parameters; a set of selectors is gone through
in the order of its strings.
-/

namespace EggReplay.Core.Redaction

open EggReplay.Library.Checks
open EggReplay.Library.Text
open EggReplay.Library.JsonText
open EggReplay.Library.JsonPointer
open EggReplay.Core.FlowRecord

variable {N : Type}

structure RedactionConfig where
  headers : Finset String
  queryKeys : Finset String
  jsonPaths : Finset String
  deriving DecidableEq

def RedactionConfig.defaultSecure : RedactionConfig where
  headers := {"authorization", "proxy-authorization", "cookie", "set-cookie"}
  queryKeys := ∅
  jsonPaths := ∅

def RedactionConfig.wantsBodyRedaction (config : RedactionConfig) : Bool :=
  decide (config.jsonPaths ≠ ∅) || decide (config.queryKeys ≠ ∅)

def bodyJsonMarkerPrefix : String := "request.body.json:"
def responseBodyJsonMarkerPrefix : String := "response.body.json:"
def redacted : String := "<redacted>"

/-- The routines of other packages that bodies go through. -/
structure BodyCodec (N : Type) where
  fromSlice : Bytes → Except String (Json N)
  toVec : Json N → Bytes
  parseForm : Bytes → List (String × String)
  serializeForm : List (String × String) → Bytes
  sha256 : Bytes → String

/-! ### Flows -/

def redactHeader (names : Finset String) (header : HeaderEntry) : HeaderEntry :=
  if toAsciiLowercase header.name ∈ names then { header with value := redacted }
  else header

def headerMarkers (names : Finset String) (lead profile : String)
    (headers : List HeaderEntry) : List RedactionMarker :=
  (headers.filter fun header => toAsciiLowercase header.name ∈ names).map fun header =>
    { field := lead ++ "." ++ header.name, profile := profile }

def redactPair (keys : Finset String) (pair : QueryPair) : QueryPair :=
  if pair.key ∈ keys then { pair with value := redacted } else pair

def queryMarkers (keys : Finset String) (profile : String) (query : List QueryPair) :
    List RedactionMarker :=
  (query.filter fun pair => pair.key ∈ keys).map fun pair =>
    { field := "request.query." ++ pair.key, profile := profile }

def redactResponse (names : Finset String) (response : HttpResponse) : HttpResponse :=
  { response with
    headers := response.headers.map (redactHeader names)
    trailers := response.trailers.map (redactHeader names) }

def redactOutcome (names : Finset String) : FlowOutcome → FlowOutcome
  | .response response => .response (redactResponse names response)
  | .error failure => .error failure

def outcomeMarkers (names : Finset String) (profile : String) :
    FlowOutcome → List RedactionMarker
  | .response response =>
      headerMarkers names "response.headers" profile response.headers ++
        headerMarkers names "response.trailers" profile response.trailers
  | .error _ => []

def redactFlow (flow : Flow) (config : RedactionConfig) (profile : String) : Flow :=
  { flow with
    request := { flow.request with
      headers := flow.request.headers.map (redactHeader config.headers)
      trailers := flow.request.trailers.map (redactHeader config.headers)
      query := flow.request.query.map (redactPair config.queryKeys) }
    outcome := redactOutcome config.headers flow.outcome
    redactions := flow.redactions ++
      headerMarkers config.headers "request.headers" profile flow.request.headers ++
      headerMarkers config.headers "request.trailers" profile flow.request.trailers ++
      outcomeMarkers config.headers profile flow.outcome ++
      queryMarkers config.queryKeys profile flow.request.query }

/-! ### Bodies -/

-- The order in which the selectors of a set are gone through.

instance selectorTrans : IsTrans String fun left right => left ≤ right := inferInstance

instance selectorAntisymm : Std.Antisymm fun left right : String => left ≤ right := inferInstance

def bodyMarkers (paths : Finset String) (profile : String) (isResponse : Bool) :
    List RedactionMarker :=
  let lead := if isResponse = true then responseBodyJsonMarkerPrefix else bodyJsonMarkerPrefix
  (paths.sort (· ≤ ·)).map fun path => { field := lead ++ path, profile := profile }

def pushBodyMarkers (markers : List RedactionMarker) (paths : Finset String)
    (profile : String) (isResponse : Bool) : List RedactionMarker :=
  markers ++ bodyMarkers paths profile isResponse

/-- `pointer_mut` followed by an assignment, where the pointer resolves. -/
def redactPointer (value : Json N) (pointer : String) : Json N :=
  match tokens pointer with
  | some path => modifyAt path (fun _ => .string redacted) value
  | none => value

def pointerResolves (value : Json N) (pointer : String) : Bool :=
  match tokens pointer with
  | some path => resolves path value
  | none => false

/-- The value after each of the pointers in turn, and whether any of them resolved. -/
def redactPointers : List String → Json N × Bool → Json N × Bool
  | [], state => state
  | pointer :: rest, (value, found) =>
      redactPointers rest (redactPointer value pointer, found || pointerResolves value pointer)

def applyJsonRedaction (codec : BodyCodec N) (body : Bytes) (paths : Finset String) :
    Except String (Bytes × Bool) := do
  let value ← (codec.fromSlice body).mapError ("malformed JSON for redaction: " ++ ·)
  let (clean, found) := redactPointers (paths.sort (· ≤ ·)) (value, false)
  pure (codec.toVec clean, found)

def redactFormPair (keys : Finset String) (pair : String × String) : String × String :=
  if pair.1 ∈ keys then (pair.1, redacted) else pair

def applyFormRedaction (codec : BodyCodec N) (body : Bytes) (queryKeys : Finset String) :
    Except String (Bytes × Bool) := do
  let _ ← orFail (decodeUtf8 body) "form body is not valid UTF-8"
  let pairs := codec.parseForm body
  ensure (¬(pairs = [] ∧ body ≠ [])) "malformed form body for redaction"
  pure (codec.serializeForm (pairs.map (redactFormPair queryKeys)),
    pairs.any fun pair => decide (pair.1 ∈ queryKeys))

/-! ### Headers after a body transform -/

inductive HeaderVerdict where
  | keep
  | warn
  | drop
  | dropMarked (name : String)
  deriving DecidableEq, Repr

def reconcileHeader (header : HeaderEntry) : HeaderVerdict :=
  let name := toAsciiLowercase header.name
  if name = "content-length" then .drop
  else if name = "content-md5" ∨ name = "content-digest" ∨ name = "digest" ∨
      name = "signature" ∨ name = "signature-input" then .dropMarked name
  else if name = "etag" then
    if startsWith (trimStart header.value) "W/" = true then .warn else .dropMarked "etag"
  else .keep

structure Reconciled where
  headers : List HeaderEntry
  markers : List RedactionMarker
  annotations : List (String × String)
  deriving DecidableEq, Repr

def reconcileHeadersAfterBodyRedaction (headers : List HeaderEntry) (newLen : Nat)
    (profile : String) : Reconciled where
  headers :=
    (headers.filter fun header =>
      decide (reconcileHeader header = .keep ∨ reconcileHeader header = .warn)) ++
      [{ name := "content-length", value := Nat.repr newLen }]
  markers := headers.filterMap fun header =>
    match reconcileHeader header with
    | .dropMarked name =>
        some { field := "headers." ++ name ++ ".removed-after-redaction", profile := profile }
    | _ => none
  annotations := headers.filterMap fun header =>
    match reconcileHeader header with
    | .warn => some ("redaction", "weak-etag-preserved-after-redaction")
    | _ => none

/-! ### What redaction leaves out -/

@[simp] theorem redactPointers_fst (pointers : List String) (value : Json N) (found : Bool) :
    (redactPointers pointers (value, found)).1 = pointers.foldl redactPointer value := by
  induction pointers generalizing value found with
  | nil => rfl
  | cons pointer rest ih => exact ih _ _

theorem applyJsonRedaction_eq_ok {codec : BodyCodec N} {body : Bytes}
    {paths : Finset String} {clean : Bytes} {found : Bool}
    (h : applyJsonRedaction codec body paths = .ok (clean, found)) :
    ∃ value, codec.fromSlice body = .ok value ∧
      clean = codec.toVec ((paths.sort (· ≤ ·)).foldl redactPointer value) := by
  simp only [applyJsonRedaction, bind_eq_ok, mapError_eq_ok, pure_eq_ok,
    Prod.mk.injEq] at h
  obtain ⟨value, hvalue, hclean, -⟩ := h
  rw [redactPointers_fst] at hclean
  exact ⟨value, hvalue, hclean.symm⟩

/-- Redaction in turn overwrites the values that the pointers locate. -/
theorem foldl_redactPointer (pointers : List String) (value : Json N) :
    pointers.foldl redactPointer value =
      overwriteAll (pointers.filterMap tokens) (.string redacted) value := by
  induction pointers generalizing value with
  | nil => rfl
  | cons pointer rest ih =>
      rw [List.foldl_cons, ih, redactPointer]
      rcases htokens : tokens pointer with _ | path
      · rw [List.filterMap_cons_none htokens]
      · rw [List.filterMap_cons_some htokens]
        rfl

/-- Two values that differ by changes at the configured pointers. -/
inductive ChangedAt (pointers : Finset String) (value : Json N) : Json N → Prop
  | refl : ChangedAt pointers value value
  | step {other : Json N} {pointer : String} {path : List String} (f : Json N → Json N)
      (changed : ChangedAt pointers value other) (selected : pointer ∈ pointers)
      (located : tokens pointer = some path) : ChangedAt pointers value (modifyAt path f other)

/-- Changes at the pointers are gone once the pointers are redacted. -/
theorem ChangedAt.redacted_eq {pointers : Finset String} {value other : Json N}
    (h : ChangedAt pointers value other) :
    (pointers.sort (· ≤ ·)).foldl redactPointer other =
      (pointers.sort (· ≤ ·)).foldl redactPointer value := by
  induction h with
  | refl => rfl
  | @step other pointer path f changed selected located ih =>
      rw [← ih, foldl_redactPointer, foldl_redactPointer]
      apply overwriteAll_modifyAt
      rw [List.mem_filterMap]
      exact ⟨pointer, (Finset.mem_sort _).mpr selected, located⟩

theorem ChangedAt.foldl {pointers : Finset String} {value other : Json N}
    (h : ChangedAt pointers value other) {list : List String}
    (hlist : ∀ pointer ∈ list, pointer ∈ pointers) :
    ChangedAt pointers value (list.foldl redactPointer other) := by
  induction list generalizing other with
  | nil => exact h
  | cons pointer rest ih =>
      rw [List.foldl_cons, redactPointer]
      have hrest : ∀ pointer ∈ rest, pointer ∈ pointers :=
        fun other hother => hlist other (List.mem_cons_of_mem _ hother)
      rcases htokens : tokens pointer with _ | path
      · exact ih h hrest
      · exact ih (.step _ h (hlist pointer List.mem_cons_self) htokens) hrest

theorem foldl_redactPointer_idem (pointers : Finset String) (value : Json N) :
    (pointers.sort (· ≤ ·)).foldl redactPointer
        ((pointers.sort (· ≤ ·)).foldl redactPointer value) =
      (pointers.sort (· ≤ ·)).foldl redactPointer value :=
  (ChangedAt.refl.foldl fun _ hpointer => (Finset.mem_sort _).mp hpointer).redacted_eq

end EggReplay.Core.Redaction
