import EggReplay.Core.SteadyPointers
import EggReplay.Library.JsonReader

/-!
A candidate whose JSON body was redacted, and the request bodies it is selected
for: those that agree with the recorded one outside the redacted values, exactly
when the matcher's removals hit what the pointers locate.
-/

namespace EggReplay.Core.BodyWildcards

open EggReplay.Library.Checks
open EggReplay.Library.Text
open EggReplay.Library.JsonText
open EggReplay.Library.JsonPointer
open EggReplay.Library.JsonPlaces
open EggReplay.Library.JsonReader
open EggReplay.Core.FlowRecord
open EggReplay.Core.Redaction
open EggReplay.Core.Matching
open EggReplay.Core.RemovalPlaces
open EggReplay.Core.SteadyPointers

variable {N : Type}

/-! ### Replaying against a redacted candidate -/

/-- What the JSON parser and printer of the other package promise: they undo each
other on what the parser can return, which has each object's keys in order and
nests at most to a limit, and a leading space does not count. -/
structure Lawful (codec : BodyCodec N) : Prop where
  fits_of_parse : ∀ body value, codec.fromSlice body = .ok value →
    value.fits depthLimit = true
  parse_print : ∀ value : Json N, value.fits depthLimit = true →
    codec.fromSlice (codec.toVec value) = .ok value
  parse_space : ∀ body value, codec.fromSlice body = .ok value →
    codec.fromSlice (0x20 :: body) = .ok value
  parse_empty : ∀ value, codec.fromSlice [] ≠ .ok value

def pointerPaths (pointers : Finset String) : List (List String) :=
  (pointers.sort (· ≤ ·)).filterMap tokens

/-- The value without what is located at the pointers. -/
def remainder (pointers : Finset String) (value : Json N) : Json N :=
  disregard (locatedBy (pointerPaths pointers)) value

/-- A request that is matched against a candidate which stores a redacted body and
agrees with it in every dimension but the body. -/
structure Replay (codec : BodyCodec N) (pointers : Finset String) (mode : BodyMatchMode) where
  matcher : Matcher
  actual : HttpRequest
  before : List MatchCandidate
  candidate : MatchCandidate
  after : List MatchCandidate
  loader : Loader
  consumption : ConsumptionMode
  session : MatcherSession
  profile : String
  others : List RedactionMarker
  recordedBody : Bytes
  recorded : Json N
  stored : Bytes
  found : Bool
  actualBody : Bytes
  requested : Json N
  mode_eq : matcher.bodyMode = mode
  none_ignored : matcher.ignoredJsonPaths = ∅
  parses_recorded : codec.fromSlice recordedBody = .ok recorded
  parses_requested : codec.fromSlice actualBody = .ok requested
  redacts : applyJsonRedaction codec recordedBody pointers = .ok (stored, found)
  marked : candidate.flow.redactions = pushBodyMarkers others pointers profile false
  others_elsewhere : ∀ marker ∈ others,
    stripLead marker.field bodyJsonMarkerPrefix = none ∧
      stripLead marker.field "request.body.form:" = none
  stores : candidate.body = .inline stored ∨
    candidate.body = .digest (codec.sha256 stored) stored.length ∧
      loader before.length candidate = some stored
  agrees : matcher.dimensions actual candidate = []
  earlier_differ : ∀ earlier ∈ before, matcher.dimensions actual earlier ≠ []
  available : session.isAvailable before.length consumption = true

def Replay.Accepted [DecidableEq N] {codec : BodyCodec N} {pointers : Finset String}
    {mode : BodyMatchMode} (replay : Replay codec pointers mode) : Prop :=
  (replay.matcher.selectWithLoader codec replay.actual replay.actualBody
    (replay.before ++ replay.candidate :: replay.after) replay.consumption replay.session
    replay.loader).1 = .matched replay.before.length

/-- Exactly the bodies with the recorded remainder are accepted. -/
def Replayable [DecidableEq N] (codec : BodyCodec N) (pointers : Finset String)
    (mode : BodyMatchMode) : Prop :=
  ∀ replay : Replay codec pointers mode, replay.Accepted ↔
    remainder pointers replay.requested = remainder pointers replay.recorded

section

variable {codec : BodyCodec N} {pointers : Finset String} {mode : BodyMatchMode}

theorem markedFields_append (lead : String) (left right : List RedactionMarker) :
    markedFields lead (left ++ right) = markedFields lead left ++ markedFields lead right :=
  List.filterMap_append

theorem markedFields_eq_nil {lead : String} {markers : List RedactionMarker}
    (h : ∀ marker ∈ markers, stripLead marker.field lead = none) :
    markedFields lead markers = [] := by
  rw [markedFields, List.filterMap_eq_nil_iff]
  exact h

theorem markedFields_bodyMarkers (profile : String) :
    markedFields bodyJsonMarkerPrefix (bodyMarkers pointers profile false) =
      pointers.sort (· ≤ ·) := by
  rw [markedFields, bodyMarkers, List.filterMap_map]
  have hstrip : ((fun marker : RedactionMarker => stripLead marker.field bodyJsonMarkerPrefix) ∘
      fun path => { field := bodyJsonMarkerPrefix ++ path, profile := profile }) = some := by
    funext path
    exact stripLead_append _ _
  exact (congrArg (fun f => (pointers.sort (· ≤ ·)).filterMap f) hstrip).trans
    List.filterMap_some

theorem stripLead_form_bodyMarker (path : String) :
    stripLead (bodyJsonMarkerPrefix ++ path) "request.body.form:" = none := by
  rw [stripLead, if_neg]
  rw [startsWith_iff]
  intro h
  have hlength : "request.body.form:".toList.length ≤ bodyJsonMarkerPrefix.toList.length := by
    decide
  rw [String.toList_append] at h
  have hprefix := List.prefix_of_prefix_length_le h (List.prefix_append _ _) hlength
  exact absurd hprefix (by decide)

theorem redactedBodyJsonPaths_eq (replay : Replay codec pointers mode) :
    redactedBodyJsonPaths replay.candidate.flow.redactions false = pointers := by
  rw [redactedBodyJsonPaths, if_neg (by simp), replay.marked, pushBodyMarkers,
    markedFields_append, markedFields_bodyMarkers,
    markedFields_eq_nil fun marker hmarker => (replay.others_elsewhere marker hmarker).1,
    List.nil_append, Finset.sort_toFinset]

theorem redactedBodyFormKeys_eq (replay : Replay codec pointers mode) :
    redactedBodyFormKeys replay.candidate.flow.redactions = ∅ := by
  rw [redactedBodyFormKeys, replay.marked, pushBodyMarkers, markedFields_eq_nil]
  · rfl
  · intro marker hmarker
    rcases List.mem_append.mp hmarker with h | h
    · exact (replay.others_elsewhere marker h).2
    · obtain ⟨path, -, rfl⟩ := List.mem_map.mp h
      exact stripLead_form_bodyMarker path

theorem string_fits (s : String) (depth : Nat) : (Json.string s : Json N).fits depth = true := by
  cases depth <;> rfl

/-- The stored body is read back as the redacted value. -/
theorem parses_stored (hcodec : Lawful codec) (replay : Replay codec pointers mode) :
    codec.fromSlice replay.stored =
      .ok (overwriteAll (pointerPaths pointers) (.string redacted) replay.recorded) := by
  obtain ⟨value, hvalue, hstored⟩ := applyJsonRedaction_eq_ok replay.redacts
  rw [replay.parses_recorded] at hvalue
  obtain rfl := Except.ok.inj hvalue
  rw [hstored, foldl_redactPointer]
  exact hcodec.parse_print _
    (overwriteAll_fits (string_fits _) (hcodec.fits_of_parse _ _ replay.parses_recorded))

theorem stored_ne_nil (hcodec : Lawful codec) (replay : Replay codec pointers mode) :
    replay.stored ≠ [] := by
  intro h
  have hparse := parses_stored hcodec replay
  rw [h] at hparse
  exact hcodec.parse_empty _ hparse

/-! ### When the removals agree with the pointers -/

/-- Followed through the removals in the order of the pointers, the places that end
up removed cover what the pointers locate and nothing else. -/
def RemovesLocated (pointers : Finset String) : Prop :=
  ∀ place : Place, place.length ≤ depthLimit →
    inside (removed (pointers.sort (· ≤ ·))) place =
      inside (locatedBy (pointerPaths pointers)) place

theorem remainder_overwriteAll (c value : Json N) :
    remainder pointers (overwriteAll (pointerPaths pointers) c value) =
      remainder pointers value :=
  disregard_overwriteAll (fun _ h => h) c value

theorem removesLocated_iff :
    RemovesLocated pointers ↔ ∀ x y : Json N,
      x.fits depthLimit = true → y.fits depthLimit = true →
        (removePointers pointers x = removePointers pointers y ↔
          remainder pointers x = remainder pointers y) := by
  simp only [removePointers_eq]
  exact inside_eq_iff depthLimit _ _

/-! ### What is accepted -/

variable [DecidableEq N]

theorem selectFrom_ge (matcher : Matcher) (actual : HttpRequest) (actualBody : Bytes)
    (consumption : ConsumptionMode) (session : MatcherSession) (loader : Loader)
    (candidates : List MatchCandidate) (start index : Nat) (scan : Scan)
    (h : (matcher.selectFrom codec actual actualBody consumption session loader start
      candidates scan).1 = .matched index) : start ≤ index := by
  induction candidates generalizing start scan with
  | nil =>
      simp only [Matcher.selectFrom, Scan.result] at h
      split at h <;> cases h
  | cons candidate rest ih =>
      simp only [Matcher.selectFrom] at h
      split at h
      · split at h
        · cases h
          exact Nat.le_refl _
        · exact Nat.le_of_succ_le (ih _ _ h)
      · exact Nat.le_of_succ_le (ih _ _ h)

theorem selectFrom_append (matcher : Matcher) (actual : HttpRequest) (actualBody : Bytes)
    (consumption : ConsumptionMode) (session : MatcherSession) (loader : Loader)
    (before rest : List MatchCandidate)
    (hbefore : ∀ earlier ∈ before, matcher.dimensions actual earlier ≠ []) (start : Nat)
    (scan : Scan) :
    ∃ later, matcher.selectFrom codec actual actualBody consumption session loader start
      (before ++ rest) scan = matcher.selectFrom codec actual actualBody consumption session
        loader (start + before.length) rest later := by
  induction before generalizing start scan with
  | nil => exact ⟨scan, rfl⟩
  | cons earlier before ih =>
      have hdiffers := hbefore earlier (by simp)
      rw [List.cons_append, Matcher.selectFrom, if_neg (by simp [hdiffers])]
      obtain ⟨later, hlater⟩ := ih (fun other hother => hbefore other (by simp [hother]))
        (start + 1) _
      exact ⟨later, by rw [hlater, List.length_cons, Nat.add_right_comm, Nat.add_assoc]⟩

/-- Where the candidates before it differ, a candidate that agrees in every dimension but the body
is selected by its body. -/
theorem matched_iff_bodyMatches {matcher : Matcher} {actual : HttpRequest} {actualBody : Bytes}
    {before after : List MatchCandidate} {candidate : MatchCandidate}
    {consumption : ConsumptionMode} {session : MatcherSession} {loader : Loader}
    (hbefore : ∀ earlier ∈ before, matcher.dimensions actual earlier ≠ [])
    (hagrees : matcher.dimensions actual candidate = [])
    (havailable : session.isAvailable before.length consumption = true) :
    (matcher.selectWithLoader codec actual actualBody (before ++ candidate :: after) consumption
        session loader).1 = .matched before.length ↔
      matcher.bodyMatchesLazy codec actualBody true before.length candidate loader = true := by
  obtain ⟨later, hlater⟩ := @selectFrom_append N codec _ matcher actual actualBody consumption
    session loader before (candidate :: after) hbefore 0 { near := [], matchingConsumed := false }
  rw [Matcher.selectWithLoader, hlater, Nat.zero_add, Matcher.selectFrom]
  simp only [hagrees, decide_true, true_and, havailable, if_true]
  split
  · rename_i hbody
    exact ⟨fun _ => hbody, fun _ => rfl⟩
  · rename_i hbody
    constructor
    · intro h
      have := selectFrom_ge _ _ _ _ _ _ _ _ _ _ h
      omega
    · intro h
      exact absurd h hbody

theorem accepted_iff_bodyMatches (replay : Replay codec pointers mode) :
    replay.Accepted ↔ replay.matcher.bodyMatchesLazy codec replay.actualBody true
      replay.before.length replay.candidate replay.loader = true :=
  matched_iff_bodyMatches replay.earlier_differ replay.agrees replay.available

theorem accepted_iff_removed (hcodec : Lawful codec) (replay : Replay codec pointers mode)
    (h : pointers ≠ ∅ ∨ mode = .semanticJson) :
    replay.Accepted ↔ removePointers pointers replay.requested =
      removePointers pointers
        (overwriteAll (pointerPaths pointers) (.string redacted) replay.recorded) := by
  have hbody : bodyMatchWithJson codec replay.actualBody replay.stored pointers =
      decide (removePointers pointers replay.requested = removePointers pointers
        (overwriteAll (pointerPaths pointers) (.string redacted) replay.recorded)) := by
    simp only [bodyMatchWithJson, replay.parses_requested, parses_stored hcodec replay]
  have hstored := stored_ne_nil hcodec replay
  rw [accepted_iff_bodyMatches, Matcher.bodyMatchesLazy, redactedBodyJsonPaths_eq,
    redactedBodyFormKeys_eq]
  by_cases hpointers : pointers = ∅
  · have hmode : replay.matcher.bodyMode = .semanticJson := by
      rw [replay.mode_eq]
      exact h.resolve_left (fun hne => hne hpointers)
    have hignored : replay.matcher.ignoredJsonPaths = pointers :=
      replay.none_ignored.trans hpointers.symm
    rw [if_neg (by simp [hpointers]), Matcher.bodyMatchesPlain]
    rcases replay.stores with hinline | ⟨hdigest, hloader⟩
    · simp [hinline, hstored, hmode, bodyMatch, hignored, hbody]
    · simp [hdigest, hloader, hmode, bodyMatch, hignored, hbody]
  · rw [if_pos (Or.inl hpointers), Matcher.bodyMatchesRedacted, redactedBodyJsonPaths_eq,
      redactedBodyFormKeys_eq, replay.none_ignored]
    rcases replay.stores with hinline | ⟨hdigest, hloader⟩
    · simp [expectedBytes, hinline, hstored, hbody]
    · simp [expectedBytes, hdigest, hloader, hbody]

/-! ### A replay for any two bodies -/

def plainRequest : HttpRequest where
  method := "POST"
  scheme := "http"
  authority := "localhost"
  path := "/"
  query := []
  headers := []
  body := .absent
  trailers := []

def plainFlow (redactions : List RedactionMarker) : Flow where
  schemaVersion := flowSchemaVersion
  id := "one"
  startedAtMs := 0
  completedAtMs := none
  request := plainRequest
  outcome := .error { category := .other, phase := .other, message := "" }
  physicalRoute := none
  provenance := { mode := "proxy", observer := "eggreplay" }
  annotations := []
  redactions := redactions

/-- The only candidate, held in memory, for any two bodies. -/
def plainReplay (codec : BodyCodec N) (pointers : Finset String) (mode : BodyMatchMode)
    {recordedBody actualBody : Bytes} {recorded requested : Json N}
    (hrecorded : codec.fromSlice recordedBody = .ok recorded)
    (hrequested : codec.fromSlice actualBody = .ok requested) :
    Replay codec pointers mode where
  matcher := Matcher.new .strict mode 0
  actual := plainRequest
  before := []
  candidate := MatchCandidate.new (plainFlow (pushBodyMarkers [] pointers "default" false))
    (codec.toVec ((pointers.sort (· ≤ ·)).foldl redactPointer recorded))
  after := []
  loader := fun _ _ => none
  consumption := .unlimited
  session := MatcherSession.new
  profile := "default"
  others := []
  recordedBody := recordedBody
  recorded := recorded
  stored := codec.toVec ((pointers.sort (· ≤ ·)).foldl redactPointer recorded)
  found := (redactPointers (pointers.sort (· ≤ ·)) (recorded, false)).2
  actualBody := actualBody
  requested := requested
  mode_eq := rfl
  none_ignored := rfl
  parses_recorded := hrecorded
  parses_requested := hrequested
  redacts := by
    rw [applyJsonRedaction, hrecorded]
    show Except.ok (codec.toVec (redactPointers _ _).1, _) = _
    rw [redactPointers_fst]
  marked := rfl
  others_elsewhere := by simp
  stores := Or.inl rfl
  agrees := by simp [Matcher.dimensions, MatchCandidate.new, plainFlow]
  earlier_differ := by simp
  available := rfl

theorem replayable_of_removesLocated (hcodec : Lawful codec)
    (h : pointers ≠ ∅ ∨ mode = .semanticJson) (hremoves : RemovesLocated pointers) :
    Replayable codec pointers mode := by
  intro replay
  have hrequested := hcodec.fits_of_parse _ _ replay.parses_requested
  have hrecorded := hcodec.fits_of_parse _ _ replay.parses_recorded
  rw [accepted_iff_removed hcodec replay h, removesLocated_iff.mp hremoves _ _ hrequested
    (overwriteAll_fits (string_fits _) hrecorded), remainder_overwriteAll]

theorem plainReplay_accepted_iff (hcodec : Lawful codec)
    (h : pointers ≠ ∅ ∨ mode = .semanticJson) {recordedBody actualBody : Bytes}
    {recorded requested : Json N} (hrecorded : codec.fromSlice recordedBody = .ok recorded)
    (hrequested : codec.fromSlice actualBody = .ok requested) :
    (plainReplay codec pointers mode hrecorded hrequested).Accepted ↔
      removePointers pointers requested = removePointers pointers
        (overwriteAll (pointerPaths pointers) (.string redacted) recorded) :=
  accepted_iff_removed hcodec _ h

theorem removesLocated_of_replayable (hcodec : Lawful codec)
    (h : pointers ≠ ∅ ∨ mode = .semanticJson) (hreplay : Replayable codec pointers mode) :
    RemovesLocated pointers := by
  have hremoved : ∀ x y : Json N, x.fits depthLimit = true → y.fits depthLimit = true →
      (removePointers pointers x = removePointers pointers
          (overwriteAll (pointerPaths pointers) (.string redacted) y) ↔
        remainder pointers x = remainder pointers y) := by
    intro x y hx hy
    have hxy := hreplay (plainReplay codec pointers mode (hcodec.parse_print y hy)
      (hcodec.parse_print x hx))
    rwa [plainReplay_accepted_iff hcodec h] at hxy
  rw [@removesLocated_iff N]
  intro x y hx hy
  rw [← hremoved x y hx hy, ← (hremoved y y hy hy).mpr rfl]

theorem not_replayable_of_exact (hcodec : Lawful codec) (hempty : pointers = ∅)
    (hmode : mode ≠ .semanticJson) : ¬Replayable codec pointers mode := by
  intro hreplay
  have hparse := hcodec.parse_print .null rfl
  have haccepted := (hreplay (plainReplay codec pointers mode hparse
    (hcodec.parse_space _ _ hparse))).mpr rfl
  rw [accepted_iff_bodyMatches, Matcher.bodyMatchesLazy, redactedBodyJsonPaths_eq,
    redactedBodyFormKeys_eq, if_neg (by simp [hempty])] at haccepted
  have hstored : codec.toVec .null ≠ [] := by
    intro h
    rw [h] at hparse
    exact hcodec.parse_empty _ hparse
  subst hempty
  rcases mode
  · simp [Matcher.bodyMatchesPlain, plainReplay, MatchCandidate.new, Matcher.new, bodyMatch,
      hstored] at haccepted
  · simp [Matcher.bodyMatchesPlain, plainReplay, MatchCandidate.new, Matcher.new, bodyMatch,
      hstored] at haccepted
  · exact hmode rfl

/-- The matcher accepts exactly the bodies that agree outside the redacted values if
and only if some body redaction or comparison as JSON is in force and the removals hit
what the pointers locate. -/
theorem replayable_iff (hcodec : Lawful codec) :
    Replayable codec pointers mode ↔
      (pointers ≠ ∅ ∨ mode = .semanticJson) ∧ RemovesLocated pointers := by
  constructor
  · intro hreplay
    have h : pointers ≠ ∅ ∨ mode = .semanticJson := by
      by_contra hneither
      push Not at hneither
      exact not_replayable_of_exact hcodec hneither.1 hneither.2 hreplay
    exact ⟨h, removesLocated_of_replayable hcodec h hreplay⟩
  · rintro ⟨h, hremoves⟩
    exact replayable_of_removesLocated hcodec h hremoves

end

theorem removesLocated_of_steady {pointers : Finset String}
    (h : Steady (pointers.sort (· ≤ ·))) : RemovesLocated pointers := by
  intro place _
  rw [removed_eq_inside h]
  exact inside_idem _ place

/-- The JSON routines on compact texts of values with natural numbers. -/
def sampleCodec : BodyCodec Nat where
  fromSlice := fun body =>
    match decode body with
    | some value => .ok value
    | none => .error "expected value"
  toVec := encode
  parseForm := fun _ => []
  serializeForm := fun _ => []
  sha256 := fun _ => ""

theorem sampleCodec_eq_ok {body : Bytes} {value : Json Nat} :
    sampleCodec.fromSlice body = .ok value ↔ decode body = some value := by
  simp only [sampleCodec]
  rcases decode body with _ | other <;> simp

theorem sampleCodec_parses {value : Json Nat} (h : value.fits depthLimit = true) :
    sampleCodec.fromSlice (encode value) = .ok value :=
  sampleCodec_eq_ok.mpr (decode_encode h)

theorem sampleCodec_lawful : Lawful sampleCodec where
  fits_of_parse := fun body value h => fits_of_decode (sampleCodec_eq_ok.mp h)
  parse_print := fun value h => sampleCodec_parses h
  parse_space := by
    intro body value h
    rw [sampleCodec_eq_ok] at h ⊢
    rwa [decode_space]
  parse_empty := by
    intro value h
    rw [sampleCodec_eq_ok, decode_nil] at h
    cases h

theorem steady_replayable :
    Replayable sampleCodec {"/items/2/key", "/items/3"} .exactText := by
  apply (replayable_iff sampleCodec_lawful).mpr
  refine ⟨Or.inl (by simp), removesLocated_of_steady ?_⟩
  have hsort : ({"/items/2/key", "/items/3"} : Finset String).sort (· ≤ ·) =
      ["/items/2/key", "/items/3"] := by
    rw [Finset.sort_insert, Finset.sort_singleton]
    · simp
    · simp
  rw [hsort]
  exact ⟨by decide, by decide, by decide⟩

/-- A slash in a member's name: the removal looks for the name as the pointer writes
it, so even the recorded body is turned down. -/
theorem escaped_not_replayable : ¬Replayable sampleCodec {"/a~1b"} .exactBytes := by
  intro h
  have hfits : (Json.object [("a/b", .number 1)] : Json Nat).fits depthLimit = true := by
    rw [depthLimit, fits_object]
    simp [Json.fits]
  have hparse := sampleCodec_parses hfits
  have haccepted := (h (plainReplay _ _ _ hparse hparse)).mpr rfl
  rw [plainReplay_accepted_iff sampleCodec_lawful (Or.inl (by simp)), removePointers,
    removePointers, pointerPaths, Finset.sort_singleton] at haccepted
  have hkept : ["/a~1b"].foldl removeJsonPointer (.object [("a/b", .number 1)] : Json Nat) ≠
      ["/a~1b"].foldl removeJsonPointer
        (overwriteAll (["/a~1b"].filterMap tokens) (.string redacted)
          (.object [("a/b", .number 1)])) := by
    decide
  exact hkept haccepted

end EggReplay.Core.BodyWildcards
