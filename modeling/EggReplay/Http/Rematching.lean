import EggReplay.Http.Atomicity
import EggReplay.Http.RecordMarkers

/-!
Whether a request whose body was redacted is found again: what the recorder leaves of its
headers, and what the strict matcher compares of its body.
-/

namespace EggReplay.Http.Rematching

open EggReplay.Library.Checks
open EggReplay.Library.Text
open EggReplay.Library.JsonText
open EggReplay.Library.JsonPointer
open EggReplay.Library.Stateful
open EggReplay.Core.FlowRecord
open EggReplay.Core.StreamTimeline
open EggReplay.Core.Redaction
open EggReplay.Core.Matching
open EggReplay.Core.BodyWildcards
open EggReplay.Core.Consumption
open EggReplay.Core.FieldWildcards
open EggReplay.Store.Fixture
open EggReplay.Store.Recording
open EggReplay.Store.BlobContents
open EggReplay.Http.StreamEventCapture
open EggReplay.Http.Transaction
open EggReplay.Http.Recorder
open EggReplay.Http.Captures
open EggReplay.Http.RecordMarkers
open EggReplay.Http.Atomicity

variable {N : Type}

/-! ### Reconciled headers -/

/-- The header is still there after the body was redacted. -/
def survives (header : HeaderEntry) : Bool :=
  decide (reconcileHeader header = .keep ∨ reconcileHeader header = .warn)

/-- The headers of a request compare equal to what is recorded of them once its body is
redacted to the length: the length is the recorded one or redacted itself, and no other
header is lost without being redacted. -/
structure HeadersRematch (config : RedactionConfig) (headers : List HeaderEntry)
    (newLen : Nat) : Prop where
  length : headerValues "content-length" headers = [Nat.repr newLen] ∨
    "content-length" ∈ config.headers ∧
      ∃ header ∈ headers, toAsciiLowercase header.name = "content-length"
  stale : ∀ header ∈ headers, toAsciiLowercase header.name ≠ "content-length" →
    toAsciiLowercase header.name ∉ config.headers → survives header = true

/-- A weak tag is kept with a warning, a strong one is not. -/
example : survives { name := "ETag", value := "W/\"1\"" } = true ∧
    survives { name := "ETag", value := "\"1\"" } = false := by decide

theorem reconcileHeader_eq_drop {header : HeaderEntry} :
    reconcileHeader header = .drop ↔ toAsciiLowercase header.name = "content-length" := by
  rw [reconcileHeader]
  split
  · rename_i hname
    exact iff_of_true rfl hname
  · rename_i hname
    refine iff_of_false ?_ hname
    intro h
    split at h
    · cases h
    · split at h
      · split at h
        · cases h
        · cases h
      · cases h

theorem survives_of_length {header : HeaderEntry}
    (h : toAsciiLowercase header.name = "content-length") : survives header = false := by
  rw [survives, reconcileHeader_eq_drop.mpr h]
  decide

theorem headerValues_append (name : String) (left right : List HeaderEntry) :
    headerValues name (left ++ right) = headerValues name left ++ headerValues name right := by
  rw [headerValues, headerValues, headerValues, List.filter_append, List.map_append]

theorem headerValues_eq_nil {name : String} {headers : List HeaderEntry}
    (h : ∀ header ∈ headers, toAsciiLowercase header.name ≠ name) :
    headerValues name headers = [] := by
  rw [headerValues, List.map_eq_nil_iff, List.filter_eq_nil_iff]
  intro header hheader
  simpa using h header hheader

/-- A filter leaves the values of a name as they are where it keeps each of its headers. -/
theorem headerValues_filter_iff (keep : HeaderEntry → Bool) (name : String)
    (headers : List HeaderEntry) :
    headerValues name (headers.filter keep) = headerValues name headers ↔
      ∀ header ∈ headers, toAsciiLowercase header.name = name → keep header = true := by
  have hswap : (headers.filter keep).filter (fun header => toAsciiLowercase header.name = name) =
      (headers.filter fun header => toAsciiLowercase header.name = name).filter keep := by
    rw [List.filter_filter, List.filter_filter]
    simp only [Bool.and_comm]
  rw [headerValues, headerValues, hswap]
  constructor
  · intro h header hheader hname
    have hlength := congrArg List.length h
    rw [List.length_map, List.length_map, List.length_filter_eq_length_iff] at hlength
    apply hlength
    rw [List.mem_filter]
    exact ⟨hheader, by simpa using hname⟩
  · intro h
    apply congrArg (List.map HeaderEntry.value)
    rw [List.filter_eq_self]
    intro header hheader
    rw [List.mem_filter] at hheader
    exact h header hheader.1 (by simpa using hheader.2)

/-- Redaction and a filter that go by name, seen at a name that is not redacted. -/
theorem headerValues_filter_redactHeader {names : Finset String} (keep : HeaderEntry → Bool)
    {headers : List HeaderEntry} {name : String}
    (h : ∀ header ∈ headers, toAsciiLowercase header.name = name →
      toAsciiLowercase header.name ∉ names) :
    headerValues name ((headers.map (redactHeader names)).filter keep) =
      headerValues name (headers.filter keep) := by
  induction headers with
  | nil => rfl
  | cons header rest ih =>
      have hrest := ih fun other hother => h other (List.mem_cons_of_mem _ hother)
      by_cases hname : toAsciiLowercase header.name = name
      · have hkept : redactHeader names header = header := by
          rw [redactHeader, if_neg (h header List.mem_cons_self hname)]
        rw [List.map_cons, hkept, List.filter_cons, List.filter_cons]
        split
        · rw [← List.singleton_append, headerValues_append, hrest, ← headerValues_append]
          rfl
        · exact hrest
      · have hother : toAsciiLowercase (redactHeader names header).name ≠ name := by
          unfold redactHeader
          split
          · exact hname
          · exact hname
        have hskip : ∀ (first : HeaderEntry) (others : List HeaderEntry),
            toAsciiLowercase first.name ≠ name →
            headerValues name ((first :: others).filter keep) =
              headerValues name (others.filter keep) := by
          intro first others hfirst
          rw [List.filter_cons]
          split
          · rw [← List.singleton_append, headerValues_append, headerValues_eq_nil,
              List.nil_append]
            intro only honly
            rwa [List.mem_singleton.mp honly]
          · rfl
        rw [List.map_cons, hskip _ _ hother, hskip _ _ hname, hrest]

theorem headerValues_reconciled (headers : List HeaderEntry) (newLen : Nat) (profile name : String) :
    headerValues name (reconcileHeadersAfterBodyRedaction headers newLen profile).headers =
      headerValues name (headers.filter survives) ++
        if name = "content-length" then [Nat.repr newLen] else [] := by
  rw [reconcileHeadersAfterBodyRedaction]
  show headerValues name (headers.filter survives ++ _) = _
  rw [headerValues_append]
  congr 1
  have hlower : toAsciiLowercase "content-length" = "content-length" := by decide
  split
  · rename_i hname
    rw [headerValues, List.filter_singleton, hlower, hname]
    rfl
  · rename_i hname
    apply headerValues_eq_nil
    intro header hheader
    rw [List.mem_singleton.mp hheader]
    show toAsciiLowercase "content-length" ≠ name
    rw [hlower]
    exact fun h => hname h.symm

/-- The values of every name that is not redacted are what they were. -/
theorem headersRematch_iff (config : RedactionConfig) (headers : List HeaderEntry)
    (newLen : Nat) (profile : String) :
    (∀ name ∉ (headers.map fun header => toAsciiLowercase header.name).toFinset.filter
        (· ∈ config.headers),
      headerValues name headers = headerValues name
        (reconcileHeadersAfterBodyRedaction (headers.map (redactHeader config.headers)) newLen
          profile).headers) ↔
      HeadersRematch config headers newLen := by
  have hmem : ∀ name, name ∈ (headers.map fun header =>
      toAsciiLowercase header.name).toFinset.filter (· ∈ config.headers) ↔
      (∃ header ∈ headers, toAsciiLowercase header.name = name) ∧ name ∈ config.headers := by
    intro name
    rw [Finset.mem_filter, List.mem_toFinset, List.mem_map]
  simp only [hmem, headerValues_reconciled]
  have hplain : ∀ name, ¬((∃ header ∈ headers, toAsciiLowercase header.name = name) ∧
      name ∈ config.headers) →
      headerValues name ((headers.map (redactHeader config.headers)).filter survives) =
        headerValues name (headers.filter survives) := by
    intro name hname
    apply headerValues_filter_redactHeader
    intro header hheader heq hredacted
    exact hname ⟨⟨header, hheader, heq⟩, heq ▸ hredacted⟩
  have hdropped : headerValues "content-length" (headers.filter survives) = [] := by
    apply headerValues_eq_nil
    intro header hheader hname
    have hsurvives := (List.mem_filter.mp hheader).2
    rw [survives_of_length hname] at hsurvives
    cases hsurvives
  constructor
  · intro h
    refine ⟨?_, ?_⟩
    · by_cases hredacted : (∃ header ∈ headers,
          toAsciiLowercase header.name = "content-length") ∧ "content-length" ∈ config.headers
      · exact .inr ⟨hredacted.2, hredacted.1⟩
      · left
        rw [h _ hredacted, hplain _ hredacted, hdropped, if_pos rfl, List.nil_append]
    · intro header hheader hlength hname
      have hredacted : ¬((∃ other ∈ headers,
          toAsciiLowercase other.name = toAsciiLowercase header.name) ∧
          toAsciiLowercase header.name ∈ config.headers) := fun h => hname h.2
      have hvalues := h _ hredacted
      rw [hplain _ hredacted, if_neg hlength, List.append_nil] at hvalues
      exact (headerValues_filter_iff survives _ headers).mp hvalues.symm header hheader rfl
  · rintro ⟨hlength, hstale⟩ name hname
    rw [hplain _ hname]
    split
    · rename_i hcontent
      subst hcontent
      rw [hdropped, List.nil_append]
      rcases hlength with hlength | ⟨hredacted, hpresent⟩
      · exact hlength
      · exact absurd ⟨hpresent, hredacted⟩ hname
    · rename_i hcontent
      rw [List.append_nil]
      symm
      rw [headerValues_filter_iff]
      intro header hheader heq
      apply hstale header hheader
      · rwa [heq]
      · rw [heq]
        exact fun hredacted => hname ⟨⟨header, hheader, heq⟩, hredacted⟩

/-! ### The recorded request -/

section

variable {storage : Codec} {codec : BodyCodec N} {settings : Settings} {push : Push}
  {maxBlobBytes : Nat} {exchange : Exchange} {done : Captured} {converted : RecordedRequest}
  {stored : Filed} {answer : FiledOutcome}

/-- What is stored for a body that is redacted. -/
def redactedContent (codec : BodyCodec N) (settings : Settings) (contentType : Option String)
    (content : Bytes) : Bytes :=
  match transformBody codec content contentType settings.redaction settings.profileId false with
  | .ok (clean, _) => clean
  | .error _ => []

/-- The flow that a recorder redacts. -/
def unredacted (exchange : Exchange) (head : HttpRequest) (taken : Taken) (stored : Filed)
    (observed : Observed) : Flow :=
  observedFlow exchange { head with body := stored.body, trailers := taken.trailers }
    observed.outcome observed.transportNote

/-- A record has the markers of its fields, of its bodies and of its stale headers; only
those of the request's body start like them. -/
theorem markedFields_finishSessionFlow {wanted : String}
    (parts : CapturedFrom storage push codec settings maxBlobBytes exchange done converted stored
      answer)
    (hjson : Apart responseBodyJsonMarkerPrefix wanted)
    (hform : Apart ("response." ++ "body.form:") wanted) (hheaders : Apart "headers." wanted) :
    markedFields wanted (finishSessionFlow done.capture settings.profileId).redactions =
      markedFields wanted (redactFlow (unredacted exchange converted.request
        (takenBody maxBlobBytes push exchange) stored answer.observed) settings.redaction
        settings.profileId).redactions ++ markedFields wanted stored.markers := by
  rw [markedFields_finish hheaders, recordMarkers, parts.flow, parts.markers, capturedFlow,
    markedFields_append, markedFields_append,
    markedFields_observed_eq_nil parts.outcome hjson hform hheaders, List.append_nil]
  rfl

/-- The headers of a request whose body is redacted are reconciled with the stored length. -/
theorem finishSessionFlow_request (parts : CapturedFrom storage push codec settings maxBlobBytes
    exchange done converted stored answer) (hmarkers : stored.markers ≠ []) :
    (finishSessionFlow done.capture settings.profileId).request =
      { (redactFlow (unredacted exchange converted.request
          (takenBody maxBlobBytes push exchange) stored answer.observed) settings.redaction
          settings.profileId).request with
        headers := (reconcileHeadersAfterBodyRedaction
          (converted.request.headers.map (redactHeader settings.redaction.headers))
          (stored.body.len.getD 0) settings.profileId).headers } := by
  have hany := (recordMarkers_any_iff parts).mpr hmarkers
  rw [recordMarkers] at hany
  rw [finishSessionFlow, noteLossyHeaders]
  dsimp only
  rw [if_pos hany, reconcileRequest, parts.flow]
  split
  · rfl
  · rfl

/-! ### Dimensions -/

/-- A request with the head of another; its body is compared apart from it. -/
def HasHead (head actual : HttpRequest) : Prop :=
  actual = { head with body := actual.body, trailers := actual.trailers }

theorem redactedRequestHeaders_recorded (parts : CapturedFrom storage push codec settings
    maxBlobBytes exchange done converted stored answer) :
    redactedRequestHeaders (finishSessionFlow done.capture settings.profileId).redactions =
      (converted.request.headers.map fun header =>
        toAsciiLowercase header.name).toFinset.filter (· ∈ settings.redaction.headers) := by
  have htransform := transformBody_eq_ok (filedStaged_eq_ok parts.request).1
  rw [redactedRequestHeaders, markedFields_finishSessionFlow parts (by decide) (by decide)
    (by decide), htransform.markedFields_eq_nil (by decide) (by decide), List.append_nil,
    ← redactedRequestHeaders, redactedRequestHeaders_redactFlow]
  exact Finset.empty_union _

theorem redactedRequestQuery_recorded (parts : CapturedFrom storage push codec settings
    maxBlobBytes exchange done converted stored answer) :
    redactedRequestQuery (finishSessionFlow done.capture settings.profileId).redactions =
      (converted.request.query.map (·.key)).toFinset.filter
        (· ∈ settings.redaction.queryKeys) := by
  have htransform := transformBody_eq_ok (filedStaged_eq_ok parts.request).1
  rw [redactedRequestQuery, markedFields_finishSessionFlow parts (by decide) (by decide)
    (by decide), htransform.markedFields_eq_nil (by decide) (by decide), List.append_nil,
    ← redactedRequestQuery, redactedRequestQuery_redactFlow]
  exact Finset.empty_union _

/-- A request with the recorded head differs from the record in its headers only, and in
none of them exactly when they compare equal after the reconciliation. -/
theorem dimensions_recorded_iff (parts : CapturedFrom storage push codec settings maxBlobBytes
    exchange done converted stored answer) (hmarkers : stored.markers ≠ [])
    {actual : HttpRequest} (hhead : HasHead converted.request actual) (limit : Nat) :
    (Matcher.strict limit).dimensions actual
        (.fromFlow (finishSessionFlow done.capture settings.profileId)) = [] ↔
      HeadersRematch settings.redaction converted.request.headers stored.content.length := by
  have hlength : stored.body.len.getD 0 = stored.content.length := by
    rw [reference_len (filedStaged_eq_ok parts.request).2.1]
    rfl
  rw [dimensions_eq_nil_iff rfl]
  show AgreesApartFrom
    (redactedRequestHeaders (finishSessionFlow done.capture settings.profileId).redactions)
    (redactedRequestQuery (finishSessionFlow done.capture settings.profileId).redactions) actual
    (finishSessionFlow done.capture settings.profileId).request ↔ _
  rw [redactedRequestHeaders_recorded parts, redactedRequestQuery_recorded parts,
    finishSessionFlow_request parts hmarkers, hlength,
    ← headersRematch_iff settings.redaction _ _ settings.profileId]
  rw [hhead]
  constructor
  · exact fun h => h.headers
  · intro h
    refine ⟨rfl, rfl, rfl, rfl, h, ?_⟩
    · symm
      apply filter_redactPair
      intro pair hpair hkey
      rw [Finset.mem_filter, List.mem_toFinset]
      exact ⟨List.mem_map_of_mem hpair, hkey⟩

/-! ### The body -/

/-- A loader that reads the stored blobs. -/
def storedLoader (blobs : Contents) : Loader := fun _ candidate =>
  match candidate.body with
  | .digest sha256 _ => blobs sha256
  | .absent | .empty | .inline _ => none

theorem expectedBytes_stored {content : Bytes} {body : BodyRef} {candidate : MatchCandidate}
    {blobs : Contents} (hreference : reference storage content = .ok body)
    (hlower : toAsciiLowercase (storage.sha256Hex content) = storage.sha256Hex content)
    (hblob : content ≠ [] → blobs (storage.sha256Hex content) = some content)
    (hbody : candidate.body = .fromBodyRef body) (index : Nat) :
    expectedBytes (storedLoader blobs) index candidate = some content := by
  rw [reference] at hreference
  split at hreference
  · rename_i hempty
    cases hreference
    rw [expectedBytes, hbody, hempty]
    rfl
  · rename_i hcontent
    simp only [bind_eq_ok, mapError_eq_ok, pure_eq_ok] at hreference
    obtain ⟨blob, hblobRef, rfl⟩ := hreference
    have hdigest : blob.sha256 = storage.sha256Hex content := by
      simp only [BlobRef.new, bind_unit_eq_ok, ensure_eq_ok, pure_eq_ok] at hblobRef
      obtain ⟨-, rfl⟩ := hblobRef
      exact hlower
    have hloaded : expectedBytes (storedLoader blobs) index candidate =
        blobs blob.sha256 := by
      simp only [expectedBytes, storedLoader, hbody, CandidateBody.fromBodyRef]
    rw [hloaded, hdigest]
    exact hblob hcontent

/-- What the body routines promise for the redaction of one body: the redacted value is
parsed back from its text, and the redacted pairs from theirs, which is a form and no JSON
text. -/
structure PrintsRedacted (codec : BodyCodec N) (config : RedactionConfig) (content : Bytes) :
    Prop where
  json : ∀ value, codec.fromSlice content = .ok value →
    codec.fromSlice (codec.toVec
        (overwriteAll (pointerPaths config.jsonPaths) (.string redacted) value)) =
      .ok (overwriteAll (pointerPaths config.jsonPaths) (.string redacted) value)
  form : codec.parseForm (codec.serializeForm
        ((codec.parseForm content).map (redactFormPair config.queryKeys))) =
      (codec.parseForm content).map (redactFormPair config.queryKeys)
  text : codec.parseForm content ≠ [] → ∃ text,
    decodeUtf8 (codec.serializeForm
        ((codec.parseForm content).map (redactFormPair config.queryKeys))) = some text ∧
      isForm (String.ofList text) = true
  notJson : codec.parseForm content ≠ [] → ∀ value,
    codec.fromSlice (codec.serializeForm
        ((codec.parseForm content).map (redactFormPair config.queryKeys))) ≠ .ok value

/-- What arrives agrees with what was recorded in all that the matcher compares of it: JSON
values once the configured pointers are removed from the one that arrives and from the
redacted one, forms once the configured keys are left out. -/
def BodyRematches (codec : BodyCodec N) (config : RedactionConfig) (contentType : Option String)
    (recorded arriving : Bytes) : Prop :=
  if config.jsonPaths ≠ ∅ ∧ isJsonContentType contentType = true then
    ∃ value requested, codec.fromSlice recorded = .ok value ∧
      codec.fromSlice arriving = .ok requested ∧
      removePointers config.jsonPaths requested = removePointers config.jsonPaths
        (overwriteAll (pointerPaths config.jsonPaths) (.string redacted) value)
  else
    ∃ text, decodeUtf8 arriving = some text ∧ isForm (String.ofList text) = true ∧
      formRemainder codec arriving config.queryKeys = formRemainder codec recorded config.queryKeys

theorem redactedBodyJsonPaths_recorded (parts : CapturedFrom storage push codec settings
    maxBlobBytes exchange done converted stored answer) :
    redactedBodyJsonPaths (finishSessionFlow done.capture settings.profileId).redactions false =
      (markedFields bodyJsonMarkerPrefix stored.markers).toFinset := by
  rw [redactedBodyJsonPaths, if_neg (by simp), markedFields_finishSessionFlow parts (by decide)
    (by decide) (by decide), markedFields_redactFlow _ (by decide) (by decide) (by decide)
    (by decide) (by decide)]
  rfl

theorem redactedBodyFormKeys_recorded (parts : CapturedFrom storage push codec settings
    maxBlobBytes exchange done converted stored answer) :
    redactedBodyFormKeys (finishSessionFlow done.capture settings.profileId).redactions =
      (markedFields "request.body.form:" stored.markers).toFinset := by
  rw [redactedBodyFormKeys, markedFields_finishSessionFlow parts (by decide) (by decide)
    (by decide), markedFields_redactFlow _ (by decide) (by decide) (by decide) (by decide)
    (by decide)]
  rfl

theorem applyFormRedaction_eq_ok {body clean : Bytes} {keys : Finset String} {found : Bool}
    (h : applyFormRedaction codec body keys = .ok (clean, found)) :
    clean = codec.serializeForm ((codec.parseForm body).map (redactFormPair keys)) ∧
      (body ≠ [] → codec.parseForm body ≠ []) := by
  simp only [applyFormRedaction, bind_eq_ok, ensure_eq_ok, pure_eq_ok, Prod.mk.injEq] at h
  obtain ⟨-, -, -, hpairs, rfl, -⟩ := h
  exact ⟨rfl, fun hbody hnone => hpairs ⟨hnone, hbody⟩⟩

theorem formRemainder_redacted {codec : BodyCodec N} {pairs : List (String × String)}
    {keys : Finset String}
    (hprints : codec.parseForm (codec.serializeForm (pairs.map (redactFormPair keys))) =
      pairs.map (redactFormPair keys)) :
    formRemainder codec (codec.serializeForm (pairs.map (redactFormPair keys))) keys =
      pairs.filter fun pair => pair.1 ∉ keys := by
  rw [formRemainder, hprints]
  clear hprints
  induction pairs with
  | nil => rfl
  | cons pair rest ih =>
      rw [List.map_cons, List.filter_cons, List.filter_cons, ih, redactFormPair]
      by_cases hkey : pair.1 ∈ keys
      · rw [if_pos hkey]
        simp [hkey]
      · rw [if_neg hkey]

theorem bodyMatchWithJson_iff [DecidableEq N] {arriving expected : Bytes}
    {ignored : Finset String} {value : Json N} (hexpected : codec.fromSlice expected = .ok value) :
    bodyMatchWithJson codec arriving expected ignored = true ↔
      ∃ requested, codec.fromSlice arriving = .ok requested ∧
        removePointers ignored requested = removePointers ignored value := by
  rw [bodyMatchWithJson, hexpected]
  rcases codec.fromSlice arriving with error | requested
  · simp
  · simp

theorem bodyMatchWithJson_of_notJson [DecidableEq N] {arriving expected : Bytes}
    {ignored : Finset String} (hexpected : ∀ value, codec.fromSlice expected ≠ .ok value) :
    bodyMatchWithJson codec arriving expected ignored = false := by
  rw [bodyMatchWithJson]
  rcases hparse : codec.fromSlice expected with error | value
  · rcases codec.fromSlice arriving with error | requested
    · rfl
    · rfl
  · exact absurd hparse (hexpected value)

/-- The comparison of a form with a redacted one. -/
theorem tryFormWildcard_eq {arriving expected : Bytes} {text : List Char}
    {keys : Finset String} (htext : decodeUtf8 expected = some text)
    (hform : isForm (String.ofList text) = true) :
    tryFormWildcard codec arriving expected keys =
      (decodeUtf8 arriving).bind fun chars =>
        if isForm (String.ofList chars) = true then
          some (decide (formRemainder codec arriving keys = formRemainder codec expected keys))
        else none := by
  rw [tryFormWildcard]
  rcases decodeUtf8 arriving with _ | chars
  · rfl
  · show (decodeUtf8 expected).bind _ = _
    rw [htext]
    simp [hform]

variable [DecidableEq N]

/-- A redacted JSON body is compared without what the pointers remove. -/
theorem bodyMatchesRedacted_json {paths : Finset String} {candidate : MatchCandidate}
    {arriving expected : Bytes} {loader : Loader} {index limit : Nat} {value : Json N}
    (hjson : redactedBodyJsonPaths candidate.flow.redactions false = paths)
    (hform : redactedBodyFormKeys candidate.flow.redactions = ∅)
    (hloaded : expectedBytes loader index candidate = some expected)
    (hexpected : codec.fromSlice expected = .ok value) :
    (Matcher.strict limit).bodyMatchesRedacted codec arriving index candidate loader = true ↔
      ∃ requested, codec.fromSlice arriving = .ok requested ∧
        removePointers paths requested = removePointers paths value := by
  rw [Matcher.bodyMatchesRedacted, hloaded, hjson, hform]
  dsimp only
  rw [if_pos rfl]
  show bodyMatchWithJson codec arriving expected (∅ ∪ paths) = true ↔ _
  rw [Finset.empty_union]
  exact bodyMatchWithJson_iff hexpected

/-- A redacted form is compared without the pairs of the keys, with what reads as a form. -/
theorem bodyMatchesRedacted_form {keys : Finset String} {candidate : MatchCandidate}
    {arriving expected : Bytes} {loader : Loader} {index limit : Nat} {text : List Char}
    (hform : redactedBodyFormKeys candidate.flow.redactions = keys) (hkeys : keys ≠ ∅)
    (hloaded : expectedBytes loader index candidate = some expected)
    (htext : decodeUtf8 expected = some text) (hisForm : isForm (String.ofList text) = true)
    (hexpected : ∀ value, codec.fromSlice expected ≠ .ok value) :
    (Matcher.strict limit).bodyMatchesRedacted codec arriving index candidate loader = true ↔
      ∃ chars, decodeUtf8 arriving = some chars ∧ isForm (String.ofList chars) = true ∧
        formRemainder codec arriving keys = formRemainder codec expected keys := by
  rw [Matcher.bodyMatchesRedacted, hloaded, hform]
  dsimp only
  rw [if_neg hkeys, tryFormWildcard_eq htext hisForm]
  rcases hchars : decodeUtf8 arriving with _ | chars
  · show bodyMatchWithJson codec arriving expected _ = true ↔ _
    rw [bodyMatchWithJson_of_notJson hexpected]
    simp
  · rw [Option.bind_some]
    by_cases harriving : isForm (String.ofList chars) = true
    · rw [if_pos harriving]
      simp [harriving]
    · rw [if_neg harriving]
      show bodyMatchWithJson codec arriving expected _ = true ↔ _
      rw [bodyMatchWithJson_of_notJson hexpected]
      simp [harriving]

/-- A recorded body that was redacted matches exactly what agrees with it in what the matcher
compares. -/
theorem bodyMatches_recorded_iff (parts : CapturedFrom storage push codec settings maxBlobBytes
    exchange done converted stored answer) (hmarkers : stored.markers ≠ [])
    (hprints : PrintsRedacted codec settings.redaction
      (takenBody maxBlobBytes push exchange).content)
    {loader : Loader} (hloaded : expectedBytes loader 0
      (.fromFlow (finishSessionFlow done.capture settings.profileId)) = some stored.content)
    (arriving : Bytes) (limit : Nat) :
    (Matcher.strict limit).bodyMatchesLazy codec arriving true 0
        (.fromFlow (finishSessionFlow done.capture settings.profileId)) loader = true ↔
      BodyRematches codec settings.redaction (contentType exchange.headers)
        (takenBody maxBlobBytes push exchange).content arriving := by
  have hpaths := redactedBodyJsonPaths_recorded parts
  have hkeys := redactedBodyFormKeys_recorded parts
  have htransform := transformBody_eq_ok (filedStaged_eq_ok parts.request).1
  rw [Matcher.bodyMatchesLazy, BodyRematches]
  generalize stored.markers = markers at hpaths hkeys htransform hmarkers
  generalize stored.content = clean at htransform hloaded
  cases htransform with
  | kept _ => exact absurd rfl hmarkers
  | json hcontent hconfigured htype hredacted =>
      obtain ⟨value, hvalue, hclean⟩ := applyJsonRedaction_eq_ok hredacted
      rw [foldl_redactPointer] at hclean
      have hexpected := hprints.json value hvalue
      rw [pointerPaths, ← hclean] at hexpected
      rw [markedFields_bodyMarkers, Finset.sort_toFinset] at hpaths
      have hnone : (markedFields "request.body.form:" (bodyMarkers settings.redaction.jsonPaths
          settings.profileId false)).toFinset = ∅ := by
        rw [markedFields_bodyMarkers_eq_nil (by decide)]
        rfl
      rw [hnone] at hkeys
      have hleft : redactedBodyJsonPaths (MatchCandidate.fromFlow (finishSessionFlow done.capture
          settings.profileId)).flow.redactions false ≠ ∅ := by
        rw [MatchCandidate.fromFlow, hpaths]
        exact hconfigured
      rw [if_pos (Or.inl hleft), if_pos ⟨hconfigured, htype⟩, Bool.true_and,
        bodyMatchesRedacted_json hpaths hkeys hloaded hexpected]
      constructor
      · rintro ⟨requested, hrequested, hsame⟩
        exact ⟨value, requested, hvalue, hrequested, hsame⟩
      · rintro ⟨other, requested, hother, hrequested, hsame⟩
        cases hvalue.symm.trans hother
        exact ⟨requested, hrequested, hsame⟩
  | form hcontent hconfigured htype hredacted =>
      obtain ⟨rfl, hpairs⟩ := applyFormRedaction_eq_ok hredacted
      obtain ⟨text, htext, hisForm⟩ := hprints.text (hpairs hcontent)
      rw [markedFields_formMarkers, Finset.sort_toFinset] at hkeys
      have hright : redactedBodyFormKeys (MatchCandidate.fromFlow (finishSessionFlow done.capture
          settings.profileId)).flow.redactions ≠ ∅ := by
        rw [MatchCandidate.fromFlow, hkeys]
        exact hconfigured
      have hnotJson : ¬(settings.redaction.jsonPaths ≠ ∅ ∧
          isJsonContentType (contentType exchange.headers) = true) := by
        rintro ⟨-, hjson⟩
        rw [isFormContentType, decide_eq_true_eq] at htype
        rw [htype] at hjson
        exact absurd hjson (by decide)
      rw [if_pos (Or.inr hright), if_neg hnotJson, Bool.true_and,
        bodyMatchesRedacted_form hkeys hconfigured hloaded htext hisForm
          (hprints.notJson (hpairs hcontent)),
        formRemainder_redacted hprints.form]
      rfl

/-! ### A redacted request comes again -/

omit [DecidableEq N] in
/-- A body that is to be transformed has markers. -/
theorem markers_ne_nil_of_transform {contentType : Option String} {content clean : Bytes}
    {markers : List RedactionMarker}
    (h : Transform codec settings.redaction settings.profileId false contentType content clean
      markers) (hcontent : content ≠ [])
    (hneeds : needsTransform settings.redaction contentType = true) : markers ≠ [] := by
  cases h with
  | kept hkept =>
      rcases hkept with hempty | hplain
      · exact absurd hempty hcontent
      · exact absurd (hneeds.symm.trans hplain) (by decide)
  | json _ hpaths _ _ => exact bodyMarkers_ne_nil hpaths
  | form _ hkeys _ _ => exact formMarkers_ne_nil hkeys

/-- The contents after a successful call. -/
theorem recorded_contents {inner next : RecordingInner} {flow : Flow}
    {captureState flowed : RecordingInner} {base : Contents} {events : FlowStreamEvents}
    (hrunning : Running inner.limits.maxBlobBytes base captureState)
    (hflow : captureState.appendFlow flow = .ok flowed)
    (hevents : flowed.appendStreamEvents events = .ok next) : contents next.directory = base := by
  obtain ⟨-, -, -, -, -, -, rfl⟩ := appendFlow_eq_ok.mp hflow
  obtain ⟨-, -, -, rfl⟩ := appendStreamEvents_eq_ok.mp hevents
  exact hrunning.contents

/-- A request with a redacted body is found again, by a request with its head, exactly when
its headers and the body that arrives compare equal to what was left of them. -/
theorem rematches_iff {inner next : RecordingInner} {flow : Flow} {arrival : Arrival}
    (hrun : recordRequestWithSession storage codec settings exchange inner = (.ok flow, next))
    (hhead : requestHead codec exchange.method exchange.uri exchange.headers = .ok converted)
    {recorded : Bytes} (hrecorded : (takenBody inner.limits.maxBlobBytes pushStreamEventInner
      exchange).content = recorded) (hbody : recorded ≠ [])
    (hneeds : needsTransform settings.redaction (contentType exchange.headers) = true)
    {clean : Bytes}
    (hclean : redactedContent codec settings (contentType exchange.headers) recorded = clean)
    (hlower : toAsciiLowercase (storage.sha256Hex clean) = storage.sha256Hex clean)
    (hfree : ∀ other, contents inner.directory (storage.sha256Hex clean) = some other →
      other = clean)
    (hprints : PrintsRedacted codec settings.redaction recorded)
    (hrequest : HasHead converted.request arrival.request)
    (hloader : arrival.loader = storedLoader (contents next.directory)) (limit : Nat) :
    Selected codec limit arrival (.fromFlow flow) ↔
      HeadersRematch settings.redaction converted.request.headers clean.length ∧
        BodyRematches codec settings.redaction (contentType exchange.headers) recorded
          arrival.body := by
  obtain ⟨done, captureState, flowed, hdone, rfl, -, hrunning, hflow, hevents⟩ :=
    recordRequestWithSession_eq_ok hrun
  obtain ⟨other, stored, answer, parts⟩ := captured_eq_ok hdone
  cases hhead.symm.trans parts.head
  have hfiled := filedStaged_eq_ok parts.request
  have hmarkers : stored.markers ≠ [] := by
    apply markers_ne_nil_of_transform (transformBody_eq_ok hfiled.1) _ hneeds
    rwa [hrecorded]
  have hstored : stored.content = clean := by
    rw [← hclean, redactedContent, ← hrecorded, hfiled.1]
  have hblob : stored.content ≠ [] →
      contents next.directory (storage.sha256Hex stored.content) = some stored.content := by
    intro hcontent
    rw [recorded_contents hrunning hflow hevents, parts.requestContent]
    apply Contents.file_mono
    rw [Contents.file_digest storage _ hcontent, hstored]
    rcases hbase : contents inner.directory (storage.sha256Hex clean) with _ | earlier
    · rfl
    · rw [hfree earlier hbase]
      rfl
  have hloaded : expectedBytes arrival.loader 0
      (.fromFlow (finishSessionFlow done.capture settings.profileId)) = some stored.content := by
    rw [hloader]
    apply expectedBytes_stored hfiled.2.1 (by rwa [hstored]) hblob
    rw [MatchCandidate.fromFlow, finishSessionFlow_request parts hmarkers]
    rfl
  rw [← hrecorded] at hprints
  rw [selected_iff, matchesAt, Bool.and_eq_true, decide_eq_true_eq,
    dimensions_recorded_iff parts hmarkers hrequest,
    bodyMatches_recorded_iff parts hmarkers hprints hloaded, hstored, hrecorded]

end

/-- The same form comes again. -/
def formArrival (headers : HeaderMap) (body : String) (blobs : Contents) : Arrival where
  request :=
    { plainRequest with
      authority := "example.test"
      headers := (headerEntries (formPost headers body).headers).1 }
  body := utf8 body.toList
  loader := storedLoader blobs

theorem formPost_head (headers : HeaderMap) (body : String) (blobs : Contents) :
    requestHead formCodec (formPost headers body).method (formPost headers body).uri
      (formPost headers body).headers =
      .ok
        { request := (formArrival headers body blobs).request
          lossyHeaderValues := (headerEntries (formPost headers body).headers).2 } := by
  have hhost : withoutUserinfo "example.test" = "example.test" := by decide
  show Except.ok _ = Except.ok _
  rw [hhost]
  rfl

theorem formPost_printsRedacted : PrintsRedacted formCodec formSettings.redaction
    (utf8 "k=abcdefghijklmn".toList) where
  json value h := by cases h
  form := by decide
  text _ := ⟨"k=%3Credacted%3E".toList, by decide, by decide⟩
  notJson _ value h := by cases h

/-- A form as long as its redacted text is found again. -/
theorem long_form_rematches :
    ∃ flow next, recordRequestWithSession formStorage formCodec formSettings
        (formPost [formLength 16] "k=abcdefghijklmn") freshSession = (.ok flow, next) ∧
      Selected formCodec 0
        (formArrival [formLength 16] "k=abcdefghijklmn" (contents next.directory))
        (.fromFlow flow) := by
  have hok : (recordRequestWithSession formStorage formCodec formSettings
      (formPost [formLength 16] "k=abcdefghijklmn") freshSession).1.isOk = true := by
    decide +kernel
  obtain ⟨flow, next, hrun⟩ := Op.exists_of_isOk hok
  have hclean : redactedContent formCodec formSettings
      (contentType (formPost [formLength 16] "k=abcdefghijklmn").headers)
      (utf8 "k=abcdefghijklmn".toList) = redactedForm := by
    decide
  have hrecorded : (takenBody freshSession.limits.maxBlobBytes pushStreamEventInner
      (formPost [formLength 16] "k=abcdefghijklmn")).content =
      utf8 "k=abcdefghijklmn".toList := by
    decide
  have hfree : ∀ other, contents freshSession.directory (formStorage.sha256Hex redactedForm) =
      some other → other = redactedForm := by
    intro other hother
    cases hother
  have hlength : headerValues "content-length" (headerEntries
      (formPost [formLength 16] "k=abcdefghijklmn").headers).1 = [Nat.repr redactedForm.length] ∧
      ∀ header ∈ (headerEntries (formPost [formLength 16] "k=abcdefghijklmn").headers).1,
        toAsciiLowercase header.name ≠ "content-length" → survives header = true := by
    decide
  refine ⟨flow, next, hrun, ?_⟩
  apply (rematches_iff hrun (formPost_head _ _ (contents next.directory)) hrecorded
    (by decide) (by decide) hclean (by decide) hfree formPost_printsRedacted
    rfl rfl 0).mpr
  refine ⟨⟨.inl hlength.1, fun header hheader hname _ => hlength.2 header hheader hname⟩, ?_⟩
  rw [BodyRematches, if_neg fun h => h.1 rfl]
  exact ⟨"k=abcdefghijklmn".toList, decodeUtf8_utf8 _, by decide, rfl⟩

/-- The length of the form is recorded as that of its redacted text. -/
theorem short_form_not_rematched :
    ¬∀ (storage : Codec) (codec : BodyCodec Nat) (settings : Settings) (exchange : Exchange)
      (inner next : RecordingInner) (flow : Flow) (converted : RecordedRequest)
      (arrival : Arrival) (recorded clean : Bytes) (limit : Nat),
      recordRequestWithSession storage codec settings exchange inner = (.ok flow, next) →
      requestHead codec exchange.method exchange.uri exchange.headers = .ok converted →
      (takenBody inner.limits.maxBlobBytes pushStreamEventInner exchange).content = recorded →
      recorded ≠ [] →
      needsTransform settings.redaction (contentType exchange.headers) = true →
      redactedContent codec settings (contentType exchange.headers) recorded = clean →
      toAsciiLowercase (storage.sha256Hex clean) = storage.sha256Hex clean →
      (∀ other, contents inner.directory (storage.sha256Hex clean) = some other →
        other = clean) →
      PrintsRedacted codec settings.redaction recorded →
      HasHead converted.request arrival.request → arrival.body = recorded →
      arrival.loader = storedLoader (contents next.directory) →
      Selected codec limit arrival (.fromFlow flow) := by
  intro h
  have hok : (recordRequestWithSession formStorage formCodec formSettings
      (formPost [formLength 3] "k=v") freshSession).1.isOk = true := by
    decide +kernel
  obtain ⟨flow, next, hrun⟩ := Op.exists_of_isOk hok
  have hprints : PrintsRedacted formCodec formSettings.redaction (utf8 "k=v".toList) :=
    { json := fun value h => by cases h
      form := by decide
      text := fun _ => ⟨"k=%3Credacted%3E".toList, by decide, by decide⟩
      notJson := fun _ value h => by cases h }
  have hselected := h formStorage formCodec formSettings (formPost [formLength 3] "k=v")
    freshSession next flow _ (formArrival [formLength 3] "k=v" (contents next.directory))
    (utf8 "k=v".toList) redactedForm 0 hrun (formPost_head _ _ (contents next.directory))
    (by decide) (by decide) (by decide) (by decide) (by decide)
    (fun other hother => by cases hother) hprints rfl rfl rfl
  have hmissed : (match recordRequestWithSession formStorage formCodec formSettings
      (formPost [formLength 3] "k=v") freshSession with
    | (.ok flow, next) => decide ((selectArrival formCodec (Matcher.strict 0)
        [.fromFlow flow] .once MatcherSession.new
        (formArrival [formLength 3] "k=v" (contents next.directory))).1 = .matched 0)
    | (.error _, _) => false) = false := by
    decide +kernel
  rw [hrun] at hmissed
  exact (decide_eq_false_iff_not.mp hmissed) hselected

end EggReplay.Http.Rematching
