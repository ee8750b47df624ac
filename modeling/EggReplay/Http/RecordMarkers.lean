import EggReplay.Core.FieldWildcards
import EggReplay.Http.Captures

/-!
The markers of a recorded flow: which of them are of the fields, which of the two bodies, and
which of the headers that a transform makes stale.
-/

namespace EggReplay.Http.RecordMarkers

open EggReplay.Library.Checks
open EggReplay.Library.Text
open EggReplay.Core.FlowRecord
open EggReplay.Core.StreamTimeline
open EggReplay.Core.Redaction
open EggReplay.Core.Matching
open EggReplay.Core.BodyWildcards
open EggReplay.Core.FieldWildcards
open EggReplay.Store.Fixture
open EggReplay.Store.Recording
open EggReplay.Store.BlobContents
open EggReplay.Http.StreamEventCapture
open EggReplay.Http.Transaction
open EggReplay.Http.Recorder
open EggReplay.Http.Captures

variable {N : Type}

/-! ### The transform of a body -/

/-- What becomes of a body, and the markers for it. -/
inductive Transform (codec : BodyCodec N) (config : RedactionConfig) (profile : String)
    (isResponse : Bool) (contentType : Option String) (content : Bytes) :
    Bytes → List RedactionMarker → Prop
  | kept (h : content = [] ∨ needsTransform config contentType = false) :
      Transform codec config profile isResponse contentType content content []
  | json {clean : Bytes} {found : Bool} (hcontent : content ≠ [])
      (hpaths : config.jsonPaths ≠ ∅) (htype : isJsonContentType contentType = true)
      (h : applyJsonRedaction codec content config.jsonPaths = .ok (clean, found)) :
      Transform codec config profile isResponse contentType content clean
        (bodyMarkers config.jsonPaths profile isResponse)
  | form {clean : Bytes} {found : Bool} (hcontent : content ≠ [])
      (hkeys : config.queryKeys ≠ ∅) (htype : isFormContentType contentType = true)
      (h : applyFormRedaction codec content config.queryKeys = .ok (clean, found)) :
      Transform codec config profile isResponse contentType content clean
        (formMarkers config.queryKeys profile isResponse)

section

variable {codec : BodyCodec N} {config : RedactionConfig} {profile : String}
  {isResponse : Bool} {contentType : Option String} {content clean : Bytes}
  {markers : List RedactionMarker}

theorem transformBody_eq_ok
    (h : transformBody codec content contentType config profile isResponse =
      .ok (clean, markers)) :
    Transform codec config profile isResponse contentType content clean markers := by
  rw [transformBody] at h
  split at h
  · rename_i hempty
    cases h
    rw [hempty]
    exact .kept (.inl rfl)
  rename_i hcontent
  split at h
  · rename_i hjson
    simp only [bind_eq_ok, mapError_eq_ok, pure_eq_ok, Prod.mk.injEq] at h
    obtain ⟨⟨bytes, found⟩, hredacted, rfl, rfl⟩ := h
    rw [pushBodyMarkers, List.nil_append]
    exact .json hcontent hjson.1 hjson.2 hredacted
  rename_i hjson
  split at h
  · rename_i hform
    simp only [bind_eq_ok, mapError_eq_ok, pure_eq_ok, Prod.mk.injEq] at h
    obtain ⟨⟨bytes, found⟩, hredacted, rfl, rfl⟩ := h
    exact .form hcontent hform.1 hform.2 hredacted
  rename_i hform
  split at h
  · cases h
  · cases h
    apply Transform.kept
    right
    rw [Bool.eq_false_iff]
    intro hneeds
    rcases needsTransform_iff.mp hneeds with hwants | hwants
    · exact hjson hwants
    · exact hform hwants

theorem sort_ne_nil {names : Finset String} (h : names ≠ ∅) : names.sort (· ≤ ·) ≠ [] := by
  intro hsort
  apply h
  have hfinset := congrArg List.toFinset hsort
  rwa [Finset.sort_toFinset] at hfinset

theorem bodyMarkers_ne_nil (hpaths : config.jsonPaths ≠ ∅) :
    bodyMarkers config.jsonPaths profile isResponse ≠ [] :=
  fun h => sort_ne_nil hpaths (List.map_eq_nil_iff.mp h)

theorem formMarkers_ne_nil (hkeys : config.queryKeys ≠ ∅) :
    formMarkers config.queryKeys profile isResponse ≠ [] :=
  fun h => sort_ne_nil hkeys (List.map_eq_nil_iff.mp h)

/-! ### Markers of one body -/

variable {wanted : String}

theorem markedFields_bodyMarkers_eq_nil
    (h : Apart (if isResponse = true then responseBodyJsonMarkerPrefix else bodyJsonMarkerPrefix)
      wanted) (paths : Finset String) :
    markedFields wanted (bodyMarkers paths profile isResponse) = [] := by
  apply markedFields_eq_nil
  intro marker hmarker
  obtain ⟨path, -, rfl⟩ := List.mem_map.mp hmarker
  exact h.stripLead_eq_none path

theorem markedFields_formMarkers_eq_nil
    (h : Apart ((if isResponse = true then "response." else "request.") ++ "body.form:") wanted)
    (keys : Finset String) : markedFields wanted (formMarkers keys profile isResponse) = [] := by
  apply markedFields_eq_nil
  intro marker hmarker
  obtain ⟨key, -, rfl⟩ := List.mem_map.mp hmarker
  exact h.stripLead_eq_none key

theorem markedFields_formMarkers_lead (keys : Finset String) :
    markedFields ((if isResponse = true then "response." else "request.") ++ "body.form:")
      (formMarkers keys profile isResponse) = keys.sort (· ≤ ·) := by
  rw [markedFields, formMarkers, List.filterMap_map]
  generalize (if isResponse = true then "response." else "request.") ++ "body.form:" = lead
  have hstrip : ((fun marker : RedactionMarker => stripLead marker.field lead) ∘
      fun key : String => ⟨lead ++ key, profile⟩) = some := by
    funext key
    exact stripLead_append lead key
  exact (congrArg (fun f => (keys.sort (· ≤ ·)).filterMap f) hstrip).trans List.filterMap_some

theorem markedFields_formMarkers (keys : Finset String) :
    markedFields "request.body.form:" (formMarkers keys profile false) = keys.sort (· ≤ ·) :=
  @markedFields_formMarkers_lead profile false keys

theorem markedFields_reconciled_eq_nil (h : Apart "headers." wanted)
    (headers : List HeaderEntry) (newLen : Nat) :
    markedFields wanted
      (reconcileHeadersAfterBodyRedaction headers newLen profile).markers = [] := by
  apply markedFields_eq_nil
  intro marker hmarker
  obtain ⟨header, -, hheader⟩ := List.mem_filterMap.mp hmarker
  split at hheader
  · rename_i name _
    cases hheader
    rw [String.append_assoc]
    exact h.stripLead_eq_none _
  · cases hheader

theorem Transform.markedFields_eq_nil
    (h : Transform codec config profile isResponse contentType content clean markers)
    (hjson : Apart (if isResponse = true then responseBodyJsonMarkerPrefix
      else bodyJsonMarkerPrefix) wanted)
    (hform : Apart ((if isResponse = true then "response." else "request.") ++ "body.form:")
      wanted) : markedFields wanted markers = [] := by
  cases h with
  | kept _ => rfl
  | json _ _ _ _ => exact markedFields_bodyMarkers_eq_nil hjson _
  | form _ _ _ _ => exact markedFields_formMarkers_eq_nil hform _

/-! ### Markers of the response -/

variable {storage : Codec} {settings : Settings} {maxBlobBytes : Nat} {exchange : Exchange}
  {answer : FiledOutcome}

/-- No marker of a response looks like one of a request. -/
theorem markedFields_observed_eq_nil
    (h : filedOutcome storage codec settings maxBlobBytes exchange = .ok answer)
    (hjson : Apart responseBodyJsonMarkerPrefix wanted)
    (hform : Apart ("response." ++ "body.form:") wanted) (hheaders : Apart "headers." wanted) :
    markedFields wanted answer.observed.markers = [] := by
  rw [filedOutcome] at h
  rcases hresult : exchange.result with failure | reply
  · rw [hresult] at h
    cases h
    rfl
  · rw [hresult] at h
    simp only [bind_eq_ok, pure_eq_ok] at h
    obtain ⟨received, -, stored, hstored, rfl⟩ := h
    have htransform := transformBody_eq_ok (filedStaged_eq_ok hstored).1
    simp only [Received.observe, observeResponse]
    split
    · rfl
    · rw [markedFields_append, htransform.markedFields_eq_nil hjson hform,
        markedFields_reconciled_eq_nil hheaders]
      rfl

/-! ### Markers of the record -/

/-- The fields and the response leave no marker that looks like one of a request's body. -/
theorem markedFields_redactFlow (flow : Flow) (hheaders : Apart ("request.headers" ++ ".") wanted)
    (htrailers : Apart ("request.trailers" ++ ".") wanted)
    (hresponse : Apart ("response.headers" ++ ".") wanted)
    (hresponseTrailers : Apart ("response.trailers" ++ ".") wanted)
    (hquery : Apart "request.query." wanted) :
    markedFields wanted (redactFlow flow config profile).redactions =
      markedFields wanted flow.redactions := by
  rw [redactFlow]
  simp only [markedFields_append]
  rw [markedFields_queryMarkers_eq_nil _ hquery, markedFields_headerMarkers_eq_nil _ hheaders,
    markedFields_headerMarkers_eq_nil _ htrailers,
    markedFields_outcomeMarkers_eq_nil _ hresponse hresponseTrailers]
  simp only [List.append_nil]

variable {push : Push} {done : Captured} {converted : RecordedRequest} {stored : Filed}

/-- The markers of a record, before the request's headers are reconciled. -/
def recordMarkers (capture : Capture) : List RedactionMarker :=
  capture.flow.redactions ++ capture.markers

theorem recordMarkers_bodyJson (parts : CapturedFrom storage push codec settings maxBlobBytes
    exchange done converted stored answer) :
    markedFields bodyJsonMarkerPrefix (recordMarkers done.capture) =
      markedFields bodyJsonMarkerPrefix stored.markers := by
  rw [recordMarkers, parts.flow, parts.markers, capturedFlow, markedFields_append,
    markedFields_append, markedFields_redactFlow _ (by decide) (by decide) (by decide) (by decide)
      (by decide),
    markedFields_observed_eq_nil parts.outcome (by decide) (by decide) (by decide)]
  rw [observedFlow, markedFields, List.filterMap_nil, List.nil_append, List.append_nil]

theorem recordMarkers_bodyForm (parts : CapturedFrom storage push codec settings maxBlobBytes
    exchange done converted stored answer) :
    markedFields "request.body.form:" (recordMarkers done.capture) =
      markedFields "request.body.form:" stored.markers := by
  rw [recordMarkers, parts.flow, parts.markers, capturedFlow, markedFields_append,
    markedFields_append, markedFields_redactFlow _ (by decide) (by decide) (by decide) (by decide)
      (by decide),
    markedFields_observed_eq_nil parts.outcome (by decide) (by decide) (by decide)]
  rw [observedFlow, markedFields, List.filterMap_nil, List.nil_append, List.append_nil]

/-- The markers of the response's body are those that its transform left. -/
theorem recordMarkers_responseForm (parts : CapturedFrom storage push codec settings maxBlobBytes
    exchange done converted stored answer) :
    markedFields ("response." ++ "body.form:") (recordMarkers done.capture) =
      markedFields ("response." ++ "body.form:") answer.observed.markers := by
  have hrequest := transformBody_eq_ok (filedStaged_eq_ok parts.request).1
  rw [recordMarkers, parts.flow, parts.markers, capturedFlow, markedFields_append,
    markedFields_append, markedFields_redactFlow _ (by decide) (by decide) (by decide) (by decide)
      (by decide),
    hrequest.markedFields_eq_nil (by decide) (by decide)]
  rw [observedFlow, markedFields, List.filterMap_nil, List.nil_append, List.nil_append]

end

theorem any_isRequestBodyMarker {markers : List RedactionMarker} :
    markers.any isRequestBodyMarker = true ↔
      markedFields bodyJsonMarkerPrefix markers ≠ [] ∨
        markedFields "request.body.form:" markers ≠ [] := by
  have hlead : ∀ lead : String, markedFields lead markers ≠ [] ↔
      ∃ marker ∈ markers, startsWith marker.field lead = true := by
    intro lead
    rw [markedFields, Ne, List.filterMap_eq_nil_iff]
    simp only [startsWith_iff_stripLead, not_forall, Option.ne_none_iff_exists', exists_prop]
  rw [hlead, hlead, List.any_eq_true]
  simp only [isRequestBodyMarker, Bool.or_eq_true]
  rw [bodyJsonMarkerPrefix]
  constructor
  · rintro ⟨marker, hmarker, h | h⟩
    · exact .inl ⟨marker, hmarker, h⟩
    · exact .inr ⟨marker, hmarker, h⟩
  · rintro (⟨marker, hmarker, h⟩ | ⟨marker, hmarker, h⟩)
    · exact ⟨marker, hmarker, .inl h⟩
    · exact ⟨marker, hmarker, .inr h⟩

/-- A transformed request body is what has its headers reconciled. -/
theorem Transform.any_isRequestBodyMarker_iff {codec : BodyCodec N} {config : RedactionConfig}
    {profile : String} {contentType : Option String} {content clean : Bytes}
    {markers : List RedactionMarker}
    (h : Transform codec config profile false contentType content clean markers) :
    markedFields bodyJsonMarkerPrefix markers ≠ [] ∨
      markedFields "request.body.form:" markers ≠ [] ↔ markers ≠ [] := by
  cases h with
  | kept _ => simp [markedFields]
  | json _ hpaths _ _ =>
      rw [markedFields_bodyMarkers]
      exact iff_of_true (.inl (sort_ne_nil hpaths)) (bodyMarkers_ne_nil hpaths)
  | form _ hkeys _ _ =>
      rw [markedFields_formMarkers]
      exact iff_of_true (.inr (sort_ne_nil hkeys)) (formMarkers_ne_nil hkeys)

theorem recordMarkers_any_iff {storage : Codec} {push : Push} {codec : BodyCodec N}
    {settings : Settings} {maxBlobBytes : Nat} {exchange : Exchange} {done : Captured}
    {converted : RecordedRequest} {stored : Filed} {answer : FiledOutcome}
    (parts : CapturedFrom storage push codec settings maxBlobBytes exchange done converted stored
      answer) :
    (recordMarkers done.capture).any isRequestBodyMarker = true ↔ stored.markers ≠ [] := by
  have htransform := transformBody_eq_ok (filedStaged_eq_ok parts.request).1
  rw [any_isRequestBodyMarker, recordMarkers_bodyJson parts, recordMarkers_bodyForm parts]
  exact htransform.any_isRequestBodyMarker_iff

/-- The headers that are reconciled last leave no marker that looks like one of a body. -/
theorem markedFields_finish {wanted : String} (hheaders : Apart "headers." wanted)
    (capture : Capture) (profile : String) :
    markedFields wanted (finishSessionFlow capture profile).redactions =
      markedFields wanted (recordMarkers capture) := by
  have hreconciled : markedFields wanted (reconcileRequest
      { capture.flow with redactions := recordMarkers capture } profile).redactions =
        markedFields wanted (recordMarkers capture) := by
    rw [reconcileRequest, markedFields_append, markedFields_reconciled_eq_nil hheaders,
      List.append_nil]
  rw [finishSessionFlow, noteLossyHeaders]
  split
  · split
    · exact hreconciled
    · rfl
  · split
    · exact hreconciled
    · rfl

end EggReplay.Http.RecordMarkers
