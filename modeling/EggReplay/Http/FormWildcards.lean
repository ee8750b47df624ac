import EggReplay.Http.RecordMarkers

/-!
A candidate whose form body was redacted, and the request bodies it is selected for: the matcher
looks at the text of both bodies to tell that they are forms.
-/

namespace EggReplay.Http.FormWildcards

open EggReplay.Library.Checks
open EggReplay.Library.Text
open EggReplay.Core.FlowRecord
open EggReplay.Core.Redaction
open EggReplay.Core.Matching
open EggReplay.Core.BodyWildcards
open EggReplay.Core.FieldWildcards
open EggReplay.Http.Transaction
open EggReplay.Http.RecordMarkers
open EggReplay.Http.Captures

variable {N : Type}

/-! ### Replaying against a redacted form -/

/-- The characters that a serialized form is made of. -/
def formCharacter (c : Char) : Bool :=
  c.isAlphanum || "*-._+%&=".toList.contains c

/-- What the form routines of the other package promise for a list of pairs, and what the JSON
parser does with the text of a form. -/
structure Serializes (codec : BodyCodec N) (pairs : List (String × String)) : Prop where
  reads_back : codec.parseForm (codec.serializeForm pairs) = pairs
  parse_empty : codec.parseForm [] = []
  serialize_empty : codec.serializeForm [] = []
  text : ∃ text, decodeUtf8 (codec.serializeForm pairs) = some text ∧
    (∀ c ∈ text, formCharacter c = true) ∧ (pairs ≠ [] → '=' ∈ text)
  not_json : ∀ value, codec.fromSlice (codec.serializeForm pairs) ≠ .ok value

/-- The candidate holds the stored bytes, or the loader returns them for it. -/
inductive Stores (codec : BodyCodec N) (stored : Bytes) (loader : Loader) (index : Nat)
    (candidate : MatchCandidate) : Prop
  | inline (hbody : candidate.body = .inline stored) (hlegacy : candidate.requestBody = stored)
      (hload : ∀ bytes, loader index candidate = some bytes → bytes = stored)
  | digest (hbody : candidate.body = .digest (codec.sha256 stored) stored.length)
      (hload : loader index candidate = some stored)
  | nothing (hbody : candidate.body = .absent ∨ candidate.body = .empty) (hstored : stored = [])

/-- A request that is matched against a candidate which stores a redacted form and agrees with it
in every dimension but the body. The recorder redacts a form only where there are keys to
redact. -/
structure FormReplay (codec : BodyCodec N) where
  matcher : Matcher
  actual : HttpRequest
  before : List MatchCandidate
  candidate : MatchCandidate
  after : List MatchCandidate
  loader : Loader
  consumption : ConsumptionMode
  session : MatcherSession
  profile : String
  others : List RedactionMarker
  keys : Finset String
  recordedBody : Bytes
  stored : Bytes
  found : Bool
  actualBody : Bytes
  keys_nonempty : keys ≠ ∅
  redacts : applyFormRedaction codec recordedBody keys = .ok (stored, found)
  serializes : Serializes codec ((codec.parseForm recordedBody).map (redactFormPair keys))
  marked : candidate.flow.redactions = others ++ formMarkers keys profile false
  others_elsewhere : ∀ marker ∈ others, stripLead marker.field "request.body.form:" = none
  stores : Stores codec stored loader before.length candidate
  agrees : matcher.dimensions actual candidate = []
  earlier_differ : ∀ earlier ∈ before, matcher.dimensions actual earlier ≠ []
  available : session.isAvailable before.length consumption = true

def FormReplay.Accepted [DecidableEq N] {codec : BodyCodec N} (replay : FormReplay codec) : Prop :=
  (replay.matcher.selectWithLoader codec replay.actual replay.actualBody
    (replay.before ++ replay.candidate :: replay.after) replay.consumption replay.session
    replay.loader).1 = .matched replay.before.length

/-- The decoded pairs of the two bodies are the same, in order, outside the redacted keys. -/
def FormReplay.Agrees {codec : BodyCodec N} (replay : FormReplay codec) : Prop :=
  (codec.parseForm replay.actualBody).filter (fun pair => pair.1 ∉ replay.keys) =
    (codec.parseForm replay.recordedBody).filter fun pair => pair.1 ∉ replay.keys

/-- UTF-8 with an equals sign, and without a brace in front. -/
def FormText (body : Bytes) : Prop :=
  ∃ text, decodeUtf8 body = some text ∧ isForm (String.ofList text) = true

section

variable {codec : BodyCodec N} {keys : Finset String}

theorem filter_redactFormPair (pairs : List (String × String)) :
    (pairs.map (redactFormPair keys)).filter (fun pair => pair.1 ∉ keys) =
      pairs.filter fun pair => pair.1 ∉ keys := by
  induction pairs with
  | nil => rfl
  | cons pair rest ih =>
      rw [List.map_cons, List.filter_cons, List.filter_cons, ih, redactFormPair]
      by_cases hkey : pair.1 ∈ keys
      · rw [if_pos hkey, if_neg, if_neg]
        · simpa using hkey
        · simpa using hkey
      · rw [if_neg hkey]

theorem applyFormRedaction_eq_ok {body stored : Bytes} {found : Bool}
    (h : applyFormRedaction codec body keys = .ok (stored, found)) :
    stored = codec.serializeForm ((codec.parseForm body).map (redactFormPair keys)) ∧
      (codec.parseForm body = [] → body = []) := by
  rw [applyFormRedaction] at h
  simp only [bind_eq_ok, pure_eq_ok, ensure_eq_ok, Prod.mk.injEq] at h
  obtain ⟨-, -, -, hmalformed, hstored, -⟩ := h
  refine ⟨hstored.symm, ?_⟩
  intro hnothing
  by_contra hbody
  exact hmalformed ⟨hnothing, hbody⟩

/-- The text that a serialized form has is recognised as a form where there is a pair. -/
theorem formText_serializeForm {pairs : List (String × String)} (h : Serializes codec pairs)
    (hpairs : pairs ≠ []) : FormText (codec.serializeForm pairs) := by
  obtain ⟨text, htext, hcharacters, hequals⟩ := h.text
  refine ⟨text, htext, ?_⟩
  rw [isForm, Bool.and_eq_true]
  constructor
  · rw [containsChar, String.toList_ofList, List.contains_iff_mem]
    exact hequals hpairs
  · rw [Bool.not_eq_true', ← Bool.not_eq_true, startsWith_iff]
    intro hbrace
    have hmem : '\x7b' ∈ (trimStart (String.ofList text)).toList :=
      hbrace.subset List.mem_cons_self
    rw [trimStart, String.toList_ofList, String.toList_ofList] at hmem
    have hcharacter := hcharacters _ ((List.dropWhile_suffix _).subset hmem)
    exact absurd hcharacter (by decide)

theorem not_formText_nil : ¬FormText [] := by
  rintro ⟨text, htext, hform⟩
  rw [show decodeUtf8 [] = some [] from rfl] at htext
  obtain rfl := Option.some.inj htext
  exact absurd hform (by decide)

theorem tryFormWildcard_of_formText {actual expected : Bytes} (hactual : FormText actual)
    (hexpected : FormText expected) :
    tryFormWildcard codec actual expected keys =
      some (decide (formRemainder codec actual keys = formRemainder codec expected keys)) := by
  obtain ⟨actualText, hactualText, hactualForm⟩ := hactual
  obtain ⟨expectedText, hexpectedText, hexpectedForm⟩ := hexpected
  rw [tryFormWildcard, hactualText, hexpectedText]
  exact if_pos ⟨hactualForm, hexpectedForm⟩

theorem tryFormWildcard_eq_none {actual expected : Bytes}
    (h : ¬(FormText actual ∧ FormText expected)) :
    tryFormWildcard codec actual expected keys = none := by
  rw [tryFormWildcard]
  cases hactual : decodeUtf8 actual with
  | none => rfl
  | some actualText =>
      cases hexpected : decodeUtf8 expected with
      | none => rfl
      | some expectedText =>
          apply if_neg
          rintro ⟨hactualForm, hexpectedForm⟩
          exact h ⟨⟨actualText, hactual, hactualForm⟩, ⟨expectedText, hexpected, hexpectedForm⟩⟩

end

section

variable {codec : BodyCodec N} (replay : FormReplay codec)

theorem FormReplay.stored_eq : replay.stored =
    codec.serializeForm ((codec.parseForm replay.recordedBody).map (redactFormPair replay.keys)) :=
  (applyFormRedaction_eq_ok replay.redacts).1

theorem FormReplay.parseForm_stored : codec.parseForm replay.stored =
    (codec.parseForm replay.recordedBody).map (redactFormPair replay.keys) := by
  rw [replay.stored_eq]
  exact replay.serializes.reads_back

theorem FormReplay.redactedBodyFormKeys_eq :
    redactedBodyFormKeys replay.candidate.flow.redactions = replay.keys := by
  rw [redactedBodyFormKeys, replay.marked, markedFields_append, markedFields_formMarkers,
    markedFields_eq_nil replay.others_elsewhere, List.nil_append, Finset.sort_toFinset]

theorem FormReplay.formText_stored (h : replay.recordedBody ≠ []) : FormText replay.stored := by
  rw [replay.stored_eq]
  apply formText_serializeForm replay.serializes
  intro hpairs
  exact h ((applyFormRedaction_eq_ok replay.redacts).2 (List.map_eq_nil_iff.mp hpairs))

theorem FormReplay.stored_eq_nil (h : replay.recordedBody = []) : replay.stored = [] := by
  rw [replay.stored_eq, h, replay.serializes.parse_empty]
  exact replay.serializes.serialize_empty

variable [DecidableEq N]

/-- Bodies that are not both recognised as forms are compared as JSON, which a serialized form is
not. -/
theorem FormReplay.bodyMatchWithJson_stored (ignored : Finset String) :
    bodyMatchWithJson codec replay.actualBody replay.stored ignored = false := by
  rw [bodyMatchWithJson]
  cases hexpected : codec.fromSlice replay.stored with
  | ok value =>
      rw [replay.stored_eq] at hexpected
      exact absurd hexpected (replay.serializes.not_json value)
  | error message =>
      split
      · rename_i hboth
        cases hboth
      · rfl

omit [DecidableEq N] in
/-- An empty body that is held in memory is looked for with the loader. -/
theorem FormReplay.expectedBytes_eq :
    expectedBytes replay.loader replay.before.length replay.candidate = some replay.stored ∨
      expectedBytes replay.loader replay.before.length replay.candidate = none ∧
        replay.stored = [] := by
  rw [expectedBytes]
  cases replay.stores with
  | inline hbody hlegacy hload =>
      rw [hbody, hlegacy]
      dsimp only
      by_cases hstored : replay.stored = []
      · rw [if_neg (not_not.mpr hstored), if_neg (not_not.mpr hstored)]
        cases hloaded : replay.loader replay.before.length replay.candidate with
        | none => exact .inr ⟨rfl, hstored⟩
        | some bytes => exact .inl (congrArg some (hload bytes hloaded))
      · rw [if_pos hstored]
        exact .inl rfl
  | digest hbody hload =>
      rw [hbody]
      exact .inl hload
  | nothing hbody hstored =>
      rw [hstored]
      rcases hbody with hbody | hbody
      · rw [hbody]
        exact .inl rfl
      · rw [hbody]
        exact .inl rfl

theorem FormReplay.bodyMatchesRedacted_eq :
    replay.matcher.bodyMatchesRedacted codec replay.actualBody replay.before.length
        replay.candidate replay.loader =
      (tryFormWildcard codec replay.actualBody replay.stored replay.keys).getD false := by
  rw [Matcher.bodyMatchesRedacted, replay.redactedBodyFormKeys_eq]
  rcases replay.expectedBytes_eq with hexpected | ⟨hexpected, hstored⟩
  · rw [hexpected]
    dsimp only
    rw [if_neg replay.keys_nonempty, replay.bodyMatchWithJson_stored]
    cases tryFormWildcard codec replay.actualBody replay.stored replay.keys with
    | none => rfl
    | some result => rfl
  · rw [hexpected, hstored, tryFormWildcard_eq_none fun hboth => not_formText_nil hboth.2]
    rfl

theorem FormReplay.accepted_iff_tryFormWildcard : replay.Accepted ↔
    tryFormWildcard codec replay.actualBody replay.stored replay.keys = some true := by
  rw [FormReplay.Accepted,
    matched_iff_bodyMatches replay.earlier_differ replay.agrees replay.available,
    Matcher.bodyMatchesLazy, if_pos, Bool.true_and, replay.bodyMatchesRedacted_eq]
  · cases tryFormWildcard codec replay.actualBody replay.stored replay.keys with
    | none => exact ⟨(by rintro ⟨⟩), (by rintro ⟨⟩)⟩
    | some result => exact ⟨fun h => congrArg some h, fun h => Option.some.inj h⟩
  · right
    rw [replay.redactedBodyFormKeys_eq]
    exact replay.keys_nonempty

/-- Accepted are the bodies with the recorded pairs, where the text of both bodies is recognised
as a form. -/
theorem FormReplay.accepted_iff : replay.Accepted ↔
    (FormText replay.actualBody ∧ replay.recordedBody ≠ []) ∧ replay.Agrees := by
  rw [replay.accepted_iff_tryFormWildcard]
  have hagrees : formRemainder codec replay.actualBody replay.keys =
      formRemainder codec replay.stored replay.keys ↔ replay.Agrees := by
    rw [formRemainder, formRemainder, replay.parseForm_stored, filter_redactFormPair]
    exact Iff.rfl
  have hform : FormText replay.stored ↔ replay.recordedBody ≠ [] := by
    constructor
    · intro htext hempty
      rw [replay.stored_eq_nil hempty] at htext
      exact not_formText_nil htext
    · exact replay.formText_stored
  by_cases hboth : FormText replay.actualBody ∧ FormText replay.stored
  · rw [tryFormWildcard_of_formText hboth.1 hboth.2, Option.some_inj, decide_eq_true_eq, hagrees]
    rw [hform] at hboth
    exact ⟨fun h => ⟨hboth, h⟩, fun h => h.2⟩
  · rw [tryFormWildcard_eq_none hboth]
    rw [hform] at hboth
    exact ⟨(by rintro ⟨⟩), fun h => absurd h.1 hboth⟩

/-- A redacted form is accepted for exactly the bodies with its pairs outside the keys, unless
such a body is not recognised as a form by its text, or the recorded body is empty. -/
theorem form_replayable_iff :
    (replay.Accepted ↔ replay.Agrees) ↔
      (replay.Agrees → FormText replay.actualBody ∧ replay.recordedBody ≠ []) := by
  rw [replay.accepted_iff]
  constructor
  · intro h hagrees
    exact (h.mpr hagrees).1
  · intro h
    exact ⟨fun haccepted => haccepted.2, fun hagrees => ⟨h hagrees, hagrees⟩⟩

end

/-! ### A bare key -/

theorem formCodec_serializes : Serializes formCodec [("k", redacted)] where
  parse_empty := rfl
  serialize_empty := by decide
  reads_back := by decide
  text := ⟨"k=%3Credacted%3E".toList, decodeUtf8_utf8 _, List.all_eq_true.mp (by decide),
    fun _ => by decide⟩
  not_json := by rintro _ ⟨⟩

theorem isAvailable_new : MatcherSession.new.isAvailable 0 .unlimited = true := rfl

/-- The only candidate, for a recorded form of one pair with the key `k`. -/
def keyReplay (recorded actual : String)
    (hredacts : applyFormRedaction formCodec (utf8 recorded.toList) {"k"} =
      .ok (redactedForm, true))
    (hpairs : (formCodec.parseForm (utf8 recorded.toList)).map (redactFormPair {"k"}) =
      [("k", redacted)]) : FormReplay formCodec where
  matcher := Matcher.strict 0
  actual := plainRequest
  before := []
  candidate := MatchCandidate.new (plainFlow (formMarkers {"k"} "default" false)) redactedForm
  after := []
  loader := fun _ _ => none
  consumption := .unlimited
  session := MatcherSession.new
  profile := "default"
  others := []
  keys := {"k"}
  recordedBody := utf8 recorded.toList
  stored := redactedForm
  found := true
  actualBody := utf8 actual.toList
  keys_nonempty := Finset.singleton_ne_empty "k"
  redacts := hredacts
  serializes := by
    rw [hpairs]
    exact formCodec_serializes
  marked := rfl
  others_elsewhere := fun marker hmarker => absurd hmarker List.not_mem_nil
  stores := .inline rfl rfl (by rintro _ ⟨⟩)
  agrees := by simp [Matcher.dimensions, MatchCandidate.new, plainFlow]
  earlier_differ := fun earlier hearlier => absurd hearlier List.not_mem_nil
  available := isAvailable_new

/-- The body `k` is the recorded one, byte for byte, but it has no equals sign. -/
theorem bare_key_not_replayable :
    ¬ ∀ replay : FormReplay formCodec, replay.Accepted ↔ replay.Agrees := by
  intro h
  have haccepted := (h (keyReplay "k" "k" (by decide) (by decide))).mpr rfl
  rw [FormReplay.accepted_iff] at haccepted
  obtain ⟨text, htext, hform⟩ := haccepted.1.1
  have hbare : decodeUtf8 (utf8 "k".toList) = some "k".toList := decodeUtf8_utf8 _
  obtain rfl := Option.some.inj (hbare.symm.trans htext)
  exact absurd hform (by decide)

theorem other_value_replayable :
    (keyReplay "k=v" "k=w" (by decide) (by decide)).Accepted ↔
      (keyReplay "k=v" "k=w" (by decide) (by decide)).Agrees :=
  (form_replayable_iff _).mpr fun _ =>
    ⟨⟨"k=w".toList, by decide, by decide⟩, by decide⟩

end EggReplay.Http.FormWildcards
