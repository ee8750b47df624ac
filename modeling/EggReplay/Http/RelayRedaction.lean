import EggReplay.Http.RelayTranscripts

/-!
What the relay stores of text messages under JSON redaction: which payloads depend on
redacted values, and which are stored as they came.
-/

namespace EggReplay.Http.RelayRedaction

open EggReplay.Library.Checks
open EggReplay.Library.Text
open EggReplay.Library.JsonText
open EggReplay.Core.FlowRecord
open EggReplay.Core.WebSockets
open EggReplay.Core.Redaction
open EggReplay.Core.BodyWildcards
open EggReplay.Http.WebSocketRelay
open EggReplay.Http.RelayTranscripts

variable {N : Type}

/-- The payload blobs that the relay writes for a message. -/
def blobsWritten (codec : BodyCodec N) (options : WebSocketRecordingOptions)
    (config : RedactionConfig) (state : RelayState) (direction : WebSocketDirection)
    (message : Message) (handling : Handling) : List Bytes :=
  (Outcome.state (relayMessage codec options config state direction message handling)).stored.drop
    state.stored.length

/-- The entries that the relay records for a message. -/
def entriesRecorded (codec : BodyCodec N) (options : WebSocketRecordingOptions)
    (config : RedactionConfig) (state : RelayState) (direction : WebSocketDirection)
    (message : Message) (handling : Handling) : List WebSocketMessage :=
  (Outcome.state (relayMessage codec options config state direction message
    handling)).messages.drop state.messages.length

/-- Texts that parse to values which differ at the configured pointers only. -/
def Varies (codec : BodyCodec N) (config : RedactionConfig) (content other : String) : Prop :=
  ∃ value changed, codec.fromSlice (utf8 content.toList) = .ok value ∧
    codec.fromSlice (utf8 other.toList) = .ok changed ∧ ChangedAt config.jsonPaths value changed

/-- What is written for a text message does not depend on redacted values, and a text that
redaction cannot be applied to is replaced as a whole or not stored. -/
structure FailsClosed (codec : BodyCodec N) (options : WebSocketRecordingOptions)
    (config : RedactionConfig) (content : String) : Prop where
  independent : ∀ other, Varies codec config content other → ∀ state direction handling,
    blobsWritten codec options config state direction (.text other) handling =
      blobsWritten codec options config state direction (.text content) handling
  closed : (∃ error, applyJsonRedaction codec (utf8 content.toList) config.jsonPaths =
      .error error) → ∀ state direction handling,
    blobsWritten codec options config state direction (.text content) handling = [] ∨
      blobsWritten codec options config state direction (.text content) handling =
          [redactedText] ∧
        ∀ entry ∈ entriesRecorded codec options config state direction (.text content) handling,
          entry.redactions = [.wholeMessage]

variable {codec : BodyCodec N} {options : WebSocketRecordingOptions} {config : RedactionConfig}

/-! ### What one message writes -/

theorem sendOn_record (state : RelayState) (direction : WebSocketDirection) (message : Message)
    (projected : Projection) (reason : Option String) (answered sent : Bool) :
    (Outcome.state (sendOn state direction message projected reason answered sent)).stored =
        state.stored ∧
      (Outcome.state (sendOn state direction message projected reason answered sent)).messages =
        state.messages := by
  have hfinish : ∀ (final : RelayState) (code : Option Nat),
      final.stored = state.stored ∧ final.messages = state.messages →
      (Outcome.state (if final.bothClosed = true then .ended final (.cleanClose code reason)
        else .running final)).stored = state.stored ∧
      (Outcome.state (if final.bothClosed = true then .ended final (.cleanClose code reason)
        else .running final)).messages = state.messages := by
    intro final code hfinal
    split
    · exact hfinal
    · exact hfinal
  rw [sendOn]
  split
  · rw [relayClose]
    dsimp only
    split
    · exact hfinish _ _ ⟨rfl, rfl⟩
    · cases sent with
      | true => exact hfinish _ _ ⟨rfl, rfl⟩
      | false => exact ⟨rfl, rfl⟩
  · split
    · exact ⟨rfl, rfl⟩
    · cases sent with
      | true => exact ⟨rfl, rfl⟩
      | false => exact ⟨rfl, rfl⟩

/-- The blob of a message is the payload that is recorded, where it is not empty and can
be stored; the entry, where there is one, carries the markers of the record. -/
theorem relayMessage_record (state : RelayState) (direction : WebSocketDirection)
    {message : Message} (handling : Handling) {projected : Projection}
    (hproject : project message = some projected) :
    blobsWritten codec options config state direction message handling =
        (if (recordedAs codec options config projected).payload ≠ [] ∧ handling.kept = true then
          [(recordedAs codec options config projected).payload] else []) ∧
      ∀ entry ∈ entriesRecorded codec options config state direction message handling,
        entry.redactions = (recordedAs codec options config projected).redaction.toList := by
  rw [blobsWritten, entriesRecorded, relayMessage, hproject]
  dsimp only
  by_cases hlost : (recordedAs codec options config projected).payload ≠ [] ∧
      handling.kept = false
  · rw [if_pos hlost, if_neg (by rw [hlost.2]; simp)]
    simp [Outcome.state]
  · have hkept : (if (recordedAs codec options config projected).payload ≠ [] ∧
        handling.kept = true then [(recordedAs codec options config projected).payload] else []) =
        if (recordedAs codec options config projected).payload = [] then []
          else [(recordedAs codec options config projected).payload] := by
      by_cases hpayload : (recordedAs codec options config projected).payload = []
      · simp [hpayload]
      · have htrue : handling.kept = true := by
          rw [← Bool.not_eq_false]
          exact fun hfalse => hlost ⟨hpayload, hfalse⟩
        simp [hpayload, htrue]
    rw [if_neg hlost, hkept]
    split
    · refine ⟨?_, ?_⟩
      · simp only [Outcome.state, RelayState.keep]
        split <;> simp
      · simp [Outcome.state, RelayState.keep]
    · rw [(sendOn_record _ _ _ _ _ _ _).1, (sendOn_record _ _ _ _ _ _ _).2]
      refine ⟨?_, ?_⟩
      · simp only [RelayState.push, RelayState.keep]
        split <;> simp
      · simp [RelayState.push, RelayState.keep, messageEntry]

theorem entriesRecorded_eq {state : RelayState} {direction : WebSocketDirection}
    {message : Message} {handling : Handling} {projected : Projection}
    (hproject : project message = some projected)
    (hkept : (recordedAs codec options config projected).payload ≠ [] → handling.kept = true)
    (hlimits : overLimits state (recordedAs codec options config projected).payload
      (state.clockNs + handling.untilCheckedNs) = false) :
    entriesRecorded codec options config state direction message handling =
      [messageEntry codec state.messages.length direction
        (elapsedNs (state.clockNs + handling.untilCheckedNs + handling.untilRecordedNs)) projected
        (recordedAs codec options config projected)] := by
  have hstored : ¬((recordedAs codec options config projected).payload ≠ [] ∧
      handling.kept = false) := by
    rintro ⟨hpayload, hlost⟩
    rw [hkept hpayload] at hlost
    cases hlost
  rw [entriesRecorded, relayMessage, hproject]
  dsimp only
  rw [if_neg hstored, hlimits, if_neg Bool.false_ne_true, (sendOn_record _ _ _ _ _ _ _).2]
  simp [RelayState.push, RelayState.keep]

/-! ### Text messages -/

/-- What the projection of a text is recorded as. -/
def textPayload (codec : BodyCodec N) (options : WebSocketRecordingOptions)
    (config : RedactionConfig) (content : String) : Bytes × Option WebSocketRedaction :=
  redactPayload codec options config .text (utf8 content.toList)

theorem recordedAs_text (content : String) :
    recordedAs codec options config
        { kind := .text, bytes := utf8 content.toList, closeCode := none, closeReason := none } =
      { payload := (textPayload codec options config content).1
        closeReason := none
        redaction := (textPayload codec options config content).2 } := by
  rw [recordedAs, if_neg fun h => (by cases h.1)]
  rfl

theorem text_record (state : RelayState) (direction : WebSocketDirection) (content : String)
    (handling : Handling) :
    blobsWritten codec options config state direction (.text content) handling =
        (if (textPayload codec options config content).1 ≠ [] ∧ handling.kept = true then
          [(textPayload codec options config content).1] else []) ∧
      ∀ entry ∈ entriesRecorded codec options config state direction (.text content) handling,
        entry.redactions = (textPayload codec options config content).2.toList := by
  have hproject : project (.text content) = some
      { kind := .text, bytes := utf8 content.toList, closeCode := none, closeReason := none } := rfl
  have hrecord := @relayMessage_record N codec options config state direction _ handling _ hproject
  rw [recordedAs_text] at hrecord
  exact hrecord

theorem utf8_eq_nil {chars : List Char} : utf8 chars = [] ↔ chars = [] := by
  constructor
  · intro h
    rcases chars with _ | ⟨first, rest⟩
    · rfl
    · have hlength := String.length_utf8EncodeChar first
      have hsize := Char.utf8Size_pos first
      rw [utf8, List.flatMap_cons, List.append_eq_nil_iff] at h
      rw [h.1] at hlength
      simp at hlength
      omega
  · rintro rfl
    rfl

theorem textPayload_whole (hwhole : options.redactText = true) (content : String) :
    textPayload codec options config content = (redactedText, some .wholeMessage) := by
  rw [textPayload, redactPayload, if_pos ⟨rfl, hwhole⟩]

theorem textPayload_pointers (hwhole : options.redactText ≠ true)
    (hpaths : config.jsonPaths ≠ ∅) {content : String} {clean : Bytes} {found : Bool}
    (h : applyJsonRedaction codec (utf8 content.toList) config.jsonPaths = .ok (clean, found)) :
    textPayload codec options config content =
      (clean, some (.jsonPointers (config.jsonPaths.sort (· ≤ ·)))) := by
  rw [textPayload, redactPayload, if_neg fun hcase => hwhole hcase.2, if_pos ⟨rfl, hpaths⟩, h]

theorem textPayload_clear (hwhole : options.redactText ≠ true)
    (hpaths : config.jsonPaths ≠ ∅) {content : String} {error : String}
    (h : applyJsonRedaction codec (utf8 content.toList) config.jsonPaths = .error error) :
    textPayload codec options config content = (utf8 content.toList, none) := by
  rw [textPayload, redactPayload, if_neg fun hcase => hwhole hcase.2, if_pos ⟨rfl, hpaths⟩, h]

theorem applyJsonRedaction_ok {body : Bytes} {paths : Finset String} {value : Json N}
    (h : codec.fromSlice body = .ok value) :
    ∃ found, applyJsonRedaction codec body paths =
      .ok (codec.toVec ((paths.sort (· ≤ ·)).foldl redactPointer value), found) := by
  refine ⟨(redactPointers (paths.sort (· ≤ ·)) (value, false)).2, ?_⟩
  rw [applyJsonRedaction, h, ← redactPointers_fst _ _ false]
  rfl

theorem textPayload_varies (hpaths : config.jsonPaths ≠ ∅) {content other : String}
    (h : Varies codec config content other) :
    textPayload codec options config other = textPayload codec options config content := by
  obtain ⟨value, changed, hvalue, hchanged, hvaries⟩ := h
  by_cases hwhole : options.redactText = true
  · rw [textPayload_whole hwhole, textPayload_whole hwhole]
  · obtain ⟨found, hok⟩ := @applyJsonRedaction_ok N codec _ config.jsonPaths _ hvalue
    obtain ⟨found', hok'⟩ := @applyJsonRedaction_ok N codec _ config.jsonPaths _ hchanged
    rw [textPayload_pointers hwhole hpaths hok, textPayload_pointers hwhole hpaths hok',
      hvaries.redacted_eq]

/-- The relay fails closed on exactly the texts that are replaced as a whole, empty, or
JSON. -/
theorem failsClosed_iff (hpaths : config.jsonPaths ≠ ∅) (content : String) :
    FailsClosed codec options config content ↔
      options.redactText = true ∨ content = "" ∨
        ∃ value, codec.fromSlice (utf8 content.toList) = .ok value := by
  constructor
  · intro h
    by_contra hnone
    simp only [not_or, not_exists] at hnone
    obtain ⟨hwhole, hempty, hparse⟩ := hnone
    have herror : ∃ error, applyJsonRedaction codec (utf8 content.toList) config.jsonPaths =
        .error error := by
      rw [exists_error_iff]
      rintro ⟨clean, found⟩ hok
      obtain ⟨value, hvalue, -⟩ := applyJsonRedaction_eq_ok hok
      exact hparse value hvalue
    obtain ⟨error, hfails⟩ := herror
    have hclear := textPayload_clear hwhole hpaths hfails
    -- a first message that is stored and sent on is recorded without a marker
    let handling : Handling :=
      { untilCheckedNs := 0, untilRecordedNs := 0, kept := true, sent := true }
    have hrecord := @text_record N codec options config .start .clientToServer content handling
    have hpayload : utf8 content.toList ≠ [] := by
      rw [Ne, utf8_eq_nil, String.toList_eq_nil_iff]
      exact hempty
    rw [hclear, if_pos ⟨hpayload, rfl⟩] at hrecord
    rcases h.closed ⟨error, hfails⟩ .start .clientToServer handling with hnone | ⟨hsame, hmarked⟩
    · rw [hrecord.1] at hnone
      cases hnone
    · rw [hrecord.1] at hsame
      have htext := List.singleton_inj.mp hsame
      have hentries := @entriesRecorded_eq N codec options config .start .clientToServer
        (.text content) handling _ rfl (fun _ => rfl)
        (by rw [recordedAs_text, hclear, htext]
            exact (by decide : overLimits .start redactedText 0 = false))
      rw [recordedAs_text, hclear] at hentries
      have hentry := hmarked _ (by rw [hentries]; exact List.mem_singleton.mpr rfl)
      cases hentry
  · intro h
    constructor
    · intro other hvaries state direction handling
      rw [(text_record state direction other handling).1,
        (text_record state direction content handling).1, textPayload_varies hpaths hvaries]
    · rintro ⟨error, hfails⟩ state direction handling
      rcases h with hwhole | rfl | ⟨value, hvalue⟩
      · have hrecord := @text_record N codec options config state direction content handling
        rw [textPayload_whole hwhole] at hrecord
        rw [hrecord.1]
        split
        · exact .inr ⟨rfl, hrecord.2⟩
        · exact .inl rfl
      · by_cases hwhole : options.redactText = true
        · have hrecord := @text_record N codec options config state direction "" handling
          rw [textPayload_whole hwhole] at hrecord
          rw [hrecord.1]
          split
          · exact .inr ⟨rfl, hrecord.2⟩
          · exact .inl rfl
        · left
          rw [(text_record state direction "" handling).1, textPayload_clear hwhole hpaths hfails]
          rfl
      · obtain ⟨found, hok⟩ := @applyJsonRedaction_ok N codec _ config.jsonPaths _ hvalue
        rw [hok] at hfails
        cases hfails

def pathConfig : RedactionConfig where
  headers := ∅
  queryKeys := ∅
  jsonPaths := {"/token"}

theorem failsClosed_number :
    FailsClosed letterCodec plainOptions pathConfig "7" ↔
      plainOptions.redactText = true ∨ "7" = "" ∨
        ∃ value, letterCodec.fromSlice (utf8 "7".toList) = .ok value :=
  failsClosed_iff (by decide) "7"

/-- A text that is not JSON is stored as it came. -/
theorem text_stored_in_clear : ¬FailsClosed letterCodec plainOptions pathConfig "a" := by
  intro h
  let handling : Handling :=
    { untilCheckedNs := 0, untilRecordedNs := 0, kept := true, sent := true }
  have hwritten : blobsWritten letterCodec plainOptions pathConfig .start .clientToServer
      (.text "a") handling = [utf8 ['a']] := by
    decide
  have herror : ∃ error, applyJsonRedaction letterCodec (utf8 "a".toList) pathConfig.jsonPaths =
      .error error := by
    refine ⟨"malformed JSON for redaction: expected value", ?_⟩
    have hparse : letterCodec.fromSlice (utf8 "a".toList) = .error "expected value" := by
      decide
    rw [applyJsonRedaction, hparse]
    rfl
  rcases h.closed herror .start .clientToServer handling with hnone | ⟨hmarker, -⟩
  · rw [hwritten] at hnone
    cases hnone
  · rw [hwritten] at hmarker
    exact absurd hmarker (by decide)

end EggReplay.Http.RelayRedaction
