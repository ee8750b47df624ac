import EggReplay.Http.RelayRedaction

/-!
Comparison of recorded WebSocket messages with received ones, as replay and as candidate
regression make it, and what either makes of the message that was recorded.
-/

namespace EggReplay.Http.WebSocketMatching

open EggReplay.Library.Checks
open EggReplay.Library.Text
open EggReplay.Library.JsonText
open EggReplay.Library.JsonReader
open EggReplay.Library.JsonPointer
open EggReplay.Core.FlowRecord
open EggReplay.Core.WebSockets
open EggReplay.Core.Redaction
open EggReplay.Core.BodyWildcards
open EggReplay.Http.WebSocketRelay
open EggReplay.Http.RelayTranscripts
open EggReplay.Http.RelayRedaction

variable {N : Type}

/-- `read_blob` of the session, where it succeeds. -/
abbrev ReadBlob := BlobRef → Option Bytes

/-- What a comparison sees of a message: unlike the relay, an empty close reason too. -/
def observe : Message → Option Projection
  | .text content =>
      some { kind := .text, bytes := utf8 content.toList, closeCode := none, closeReason := none }
  | .binary data => some { kind := .binary, bytes := data, closeCode := none, closeReason := none }
  | .ping data => some { kind := .ping, bytes := data, closeCode := none, closeReason := none }
  | .pong data => some { kind := .pong, bytes := data, closeCode := none, closeReason := none }
  | .close frame =>
      some {
        kind := .close
        bytes := []
        closeCode := frame.map CloseFrame.code
        closeReason := frame.map CloseFrame.reason }
  | .frame => none

def isWildcard : WebSocketRedaction → Bool
  | .wholeMessage | .closeReason => true
  | .jsonPointers _ => false

def expectedPayload (read : ReadBlob) (expected : WebSocketMessage) : Option Bytes :=
  match expected.payload with
  | some (.blob reference) => read reference
  | _ => some []

def sameRedacted (codec : BodyCodec N) (pointers : List String) (expected actual : Bytes) : Bool :=
  match applyJsonRedaction codec expected pointers.toFinset,
      applyJsonRedaction codec actual pointers.toFinset with
  | .ok (a, _), .ok (b, _) => decide (a = b)
  | _, _ => false

/-- The comparison up to how the payloads are compared under the redactions. -/
def matchesWith (samePayload : List WebSocketRedaction → Bytes → Bytes → Bool)
    (read : ReadBlob) (expected : WebSocketMessage) (actual : Message) : Bool :=
  match observe actual with
  | none => false
  | some seen =>
      if seen.kind ≠ expected.kind ∨
          seen.kind = .close ∧ seen.closeCode ≠ expected.closeCode then false
      else if expected.redactions.any isWildcard = true then true
      else if seen.kind = .close then decide (seen.closeReason = expected.closeReason)
      else match expectedPayload read expected with
        | none => false
        | some payload => samePayload expected.redactions payload seen.bytes

/-- The loop over the redactions: the first JSON marker decides. -/
def comparePayloads (codec : BodyCodec N) : List WebSocketRedaction → Bytes → Bytes → Bool
  | [], expected, actual => decide (actual = expected)
  | .jsonPointers pointers :: _, expected, actual => sameRedacted codec pointers expected actual
  | .wholeMessage :: rest, expected, actual => comparePayloads codec rest expected actual
  | .closeReason :: rest, expected, actual => comparePayloads codec rest expected actual

def websocketMessageMatches (codec : BodyCodec N) (read : ReadBlob) (expected : WebSocketMessage)
    (actual : Message) : Bool :=
  matchesWith (comparePayloads codec) read expected actual

def jsonPointersOf : WebSocketRedaction → Option (List String)
  | .jsonPointers pointers => some pointers
  | .wholeMessage | .closeReason => none

/-- The payloads under the marker that a search for one finds. -/
def compareFound (codec : BodyCodec N) (redactions : List WebSocketRedaction)
    (expected actual : Bytes) : Bool :=
  match redactions.findSome? jsonPointersOf with
  | some pointers => sameRedacted codec pointers expected actual
  | none => decide (actual = expected)

def candidateMessageMatches (codec : BodyCodec N) (read : ReadBlob) (expected : WebSocketMessage)
    (actual : Message) : Bool :=
  matchesWith (compareFound codec) read expected actual

variable {codec : BodyCodec N} {options : WebSocketRecordingOptions} {config : RedactionConfig}

/-- Both comparisons come to the same. -/
theorem candidateMessageMatches_eq (read : ReadBlob) (expected : WebSocketMessage)
    (actual : Message) :
    candidateMessageMatches codec read expected actual =
      websocketMessageMatches codec read expected actual := by
  have hpayload : compareFound codec = comparePayloads codec := by
    funext redactions payload other
    induction redactions with
    | nil => rfl
    | cons redaction rest ih =>
        cases redaction with
        | jsonPointers pointers => rfl
        | wholeMessage => exact ih
        | closeReason => exact ih
  rw [candidateMessageMatches, hpayload, websocketMessageMatches]

/-! ### What was recorded -/

/-- A close frame with a code and no reason: the relay records the reason as absent. -/
def EmptyReason (message : Message) : Prop :=
  ∃ code, message = .close (some { code := code, reason := "" })

theorem nonemptyReason_eq_iff (frame : CloseFrame) :
    some frame.reason = nonemptyReason frame ↔ frame.reason ≠ "" := by
  unfold nonemptyReason
  split
  · rename_i h
    simp [h]
  · rename_i h
    simp [h]

/-- A comparison sees what the relay projected, but for an empty close reason. -/
theorem observe_of_project {message : Message} {projected : Projection}
    (h : project message = some projected) :
    ∃ seen, observe message = some seen ∧ seen.kind = projected.kind ∧
      seen.bytes = projected.bytes ∧ seen.closeCode = projected.closeCode ∧
      (seen.closeReason = projected.closeReason ↔ ¬EmptyReason message) := by
  cases message with
  | close frame =>
      obtain rfl := Option.some.inj h
      refine ⟨_, rfl, rfl, rfl, rfl, ?_⟩
      cases frame with
      | none => simp [EmptyReason]
      | some frame =>
          show some frame.reason = nonemptyReason frame ↔ _
          rw [nonemptyReason_eq_iff, EmptyReason]
          constructor
          · rintro hreason ⟨code, hframe⟩
            obtain rfl := Option.some.inj (Message.close.inj hframe)
            exact hreason rfl
          · intro hnone hreason
            exact hnone ⟨frame.code, by rw [← hreason]⟩
  | frame => cases h
  | text content =>
      obtain rfl := Option.some.inj h
      exact ⟨_, rfl, rfl, rfl, rfl, by rintro _ ⟨_, ⟨⟩⟩, fun _ => rfl⟩
  | binary data =>
      obtain rfl := Option.some.inj h
      exact ⟨_, rfl, rfl, rfl, rfl, by rintro _ ⟨_, ⟨⟩⟩, fun _ => rfl⟩
  | ping data =>
      obtain rfl := Option.some.inj h
      exact ⟨_, rfl, rfl, rfl, rfl, by rintro _ ⟨_, ⟨⟩⟩, fun _ => rfl⟩
  | pong data =>
      obtain rfl := Option.some.inj h
      exact ⟨_, rfl, rfl, rfl, rfl, by rintro _ ⟨_, ⟨⟩⟩, fun _ => rfl⟩

theorem observe_shape {message : Message} {seen : Projection} (h : observe message = some seen) :
    (seen.kind = .close → seen.bytes = []) ∧
      (seen.kind ≠ .close → seen.closeCode = none ∧ seen.closeReason = none) := by
  cases message with
  | close frame =>
      obtain rfl := Option.some.inj h
      exact ⟨fun _ => rfl, fun hne => absurd rfl hne⟩
  | frame => cases h
  | text content =>
      obtain rfl := Option.some.inj h
      exact ⟨fun hclose => (by cases hclose), fun _ => ⟨rfl, rfl⟩⟩
  | binary data =>
      obtain rfl := Option.some.inj h
      exact ⟨fun hclose => (by cases hclose), fun _ => ⟨rfl, rfl⟩⟩
  | ping data =>
      obtain rfl := Option.some.inj h
      exact ⟨fun hclose => (by cases hclose), fun _ => ⟨rfl, rfl⟩⟩
  | pong data =>
      obtain rfl := Option.some.inj h
      exact ⟨fun hclose => (by cases hclose), fun _ => ⟨rfl, rfl⟩⟩

/-- A close is known by its code and reason, any other message by its kind and bytes. -/
theorem observe_eq_of_fields {seen other : Projection} {message actual : Message}
    (hseen : observe message = some seen) (hother : observe actual = some other)
    (hkind : other.kind = seen.kind) (hbytes : seen.kind ≠ .close → other.bytes = seen.bytes)
    (hclose : seen.kind = .close → other.closeCode = seen.closeCode ∧
      other.closeReason = seen.closeReason) : observe actual = observe message := by
  have hsame : other.bytes = seen.bytes ∧ other.closeCode = seen.closeCode ∧
      other.closeReason = seen.closeReason := by
    by_cases h : seen.kind = .close
    · refine ⟨?_, hclose h⟩
      rw [(observe_shape hother).1 (hkind.trans h), (observe_shape hseen).1 h]
    · obtain ⟨hcode, hreason⟩ := (observe_shape hseen).2 h
      obtain ⟨hcode', hreason'⟩ := (observe_shape hother).2 (hkind ▸ h)
      exact ⟨hbytes h, hcode'.trans hcode.symm, hreason'.trans hreason.symm⟩
  rw [hseen, hother]
  obtain ⟨hbytes, hcode, hreason⟩ := hsame
  cases seen
  cases other
  simp only at hkind hbytes hcode hreason
  rw [hkind, hbytes, hcode, hreason]

/-- The record of a projection that is not a close: replaced as a whole, redacted at the
pointers, or as it came. -/
theorem recordedAs_data {projected : Projection} (hkind : projected.kind ≠ .close) :
    (recordedAs codec options config projected).redaction = some .wholeMessage ∨
    (∃ found, applyJsonRedaction codec projected.bytes config.jsonPaths =
        .ok ((recordedAs codec options config projected).payload, found) ∧
      (recordedAs codec options config projected).redaction =
        some (.jsonPointers (config.jsonPaths.sort (· ≤ ·)))) ∨
    (recordedAs codec options config projected).redaction = none ∧
      (recordedAs codec options config projected).payload = projected.bytes := by
  rw [recordedAs, if_neg fun h => hkind h.1]
  dsimp only
  rw [redactPayload]
  split
  · exact .inl rfl
  · split
    · rcases happly : applyJsonRedaction codec projected.bytes config.jsonPaths with
        error | ⟨clean, found⟩
      · exact .inr (.inr ⟨rfl, rfl⟩)
      · exact .inr (.inl ⟨found, rfl, rfl⟩)
    · split
      · exact .inl rfl
      · exact .inr (.inr ⟨rfl, rfl⟩)

theorem recordedAs_close {projected : Projection} (hkind : projected.kind = .close) :
    (recordedAs codec options config projected).redaction = some .closeReason ∧
        projected.closeReason.isSome = true ∨
      (recordedAs codec options config projected).redaction = none ∧
        (recordedAs codec options config projected).closeReason = projected.closeReason := by
  rw [recordedAs]
  split
  · rename_i h
    exact .inl ⟨rfl, h.2.2⟩
  · refine .inr ⟨?_, rfl⟩
    rw [redactPayload, hkind]
    simp

/-- Redacting a redacted body again changes nothing. -/
theorem applyJsonRedaction_idem (hcodec : Lawful codec) {body clean : Bytes}
    {paths : Finset String} {found : Bool}
    (h : applyJsonRedaction codec body paths = .ok (clean, found)) :
    ∃ again, applyJsonRedaction codec clean paths = .ok (clean, again) := by
  obtain ⟨value, hvalue, rfl⟩ := applyJsonRedaction_eq_ok h
  have hfits : ((paths.sort (· ≤ ·)).foldl redactPointer value).fits depthLimit = true := by
    rw [foldl_redactPointer]
    exact overwriteAll_fits (string_fits _) (hcodec.fits_of_parse _ _ hvalue)
  have hagain := @applyJsonRedaction_ok N codec _ paths _ (hcodec.parse_print _ hfits)
  rwa [foldl_redactPointer_idem] at hagain

/-! ### A message and its own record -/

/-- A message that the loop recorded, with its payload blob still in place. -/
structure Recording (codec : BodyCodec N) (options : WebSocketRecordingOptions)
    (config : RedactionConfig) (read : ReadBlob) (message : Message)
    (entry : WebSocketMessage) where
  state : RelayState
  direction : WebSocketDirection
  handling : Handling
  recorded : entriesRecorded codec options config state direction message handling = [entry]
  intact : ∀ blob ∈ blobsWritten codec options config state direction message handling,
    read { sha256 := codec.sha256 blob, length := blob.length } = some blob

section

variable {read : ReadBlob} {message : Message} {entry : WebSocketMessage}

/-- The entry is the one of the projected message, and what its payload refers to reads back. -/
theorem Recording.exists_entry (recording : Recording codec options config read message entry) :
    ∃ projected sequence direction deltaNs, project message = some projected ∧
      entry = messageEntry codec sequence direction deltaNs projected
        (recordedAs codec options config projected) ∧
      ((recordedAs codec options config projected).payload ≠ [] →
        read { sha256 := codec.sha256 (recordedAs codec options config projected).payload,
               length := (recordedAs codec options config projected).payload.length } =
          some (recordedAs codec options config projected).payload) := by
  obtain ⟨state, direction, handling, hrecorded, hintact⟩ := recording
  rcases hproject : project message with _ | projected
  · rw [entriesRecorded, relayMessage_raw hproject] at hrecorded
    simp [Outcome.state] at hrecorded
  · have hkept : (recordedAs codec options config projected).payload ≠ [] →
        handling.kept = true := by
      intro hpayload
      by_contra hlost
      rw [entriesRecorded, relayMessage, hproject] at hrecorded
      dsimp only at hrecorded
      rw [if_pos ⟨hpayload, Bool.eq_false_iff.mpr hlost⟩] at hrecorded
      simp [Outcome.state] at hrecorded
    have hstored : ¬((recordedAs codec options config projected).payload ≠ [] ∧
        handling.kept = false) := by
      rintro ⟨hpayload, hlost⟩
      rw [hkept hpayload] at hlost
      cases hlost
    have hlimits : overLimits state (recordedAs codec options config projected).payload
        (state.clockNs + handling.untilCheckedNs) = false := by
      by_contra hover
      rw [entriesRecorded, relayMessage, hproject] at hrecorded
      dsimp only at hrecorded
      rw [if_neg hstored, if_pos (Bool.not_eq_false _ |>.mp hover)] at hrecorded
      simp [Outcome.state, RelayState.keep] at hrecorded
    rw [entriesRecorded_eq hproject hkept hlimits, List.singleton_inj] at hrecorded
    refine ⟨projected, _, _, _, rfl, hrecorded.symm, ?_⟩
    intro hpayload
    apply hintact
    rw [(relayMessage_record state direction handling hproject).1, if_pos ⟨hpayload, hkept hpayload⟩]
    exact List.mem_singleton.mpr rfl

/-- An entry says what was projected and recorded, and its payload reads back. -/
theorem Recording.entry_eq (recording : Recording codec options config read message entry) :
    ∃ projected, project message = some projected ∧
      entry.kind = projected.kind ∧ entry.closeCode = projected.closeCode ∧
      entry.closeReason = (recordedAs codec options config projected).closeReason ∧
      entry.redactions = (recordedAs codec options config projected).redaction.toList ∧
      expectedPayload read entry = some (recordedAs codec options config projected).payload := by
  obtain ⟨projected, sequence, direction, deltaNs, hproject, rfl, hread⟩ := recording.exists_entry
  refine ⟨projected, hproject, rfl, rfl, rfl, rfl, ?_⟩
  by_cases hpayload : (recordedAs codec options config projected).payload = []
  · simp [expectedPayload, messageEntry, payloadRef, hpayload]
  · simpa [expectedPayload, messageEntry, payloadRef, hpayload] using hread hpayload

theorem matches_eq_true_iff {actual : Message} :
    websocketMessageMatches codec read entry actual = true ↔
      ∃ seen, observe actual = some seen ∧ seen.kind = entry.kind ∧
        (seen.kind = .close → seen.closeCode = entry.closeCode) ∧
        (entry.redactions.any isWildcard = true ∨
          entry.redactions.any isWildcard = false ∧
            (seen.kind = .close ∧ seen.closeReason = entry.closeReason ∨
              seen.kind ≠ .close ∧ ∃ payload, expectedPayload read entry = some payload ∧
                comparePayloads codec entry.redactions payload seen.bytes = true)) := by
  rw [websocketMessageMatches, matchesWith]
  rcases observe actual with _ | seen
  · simp
  · simp only [Option.some.injEq, exists_eq_left']
    by_cases hkind : seen.kind = entry.kind
    · rw [← hkind]
      by_cases hclose : seen.kind = .close
      · by_cases hcode : seen.closeCode = entry.closeCode
        · rcases entry.redactions.any isWildcard with _ | _
          · simp [hclose, hcode]
          · simp [hclose, hcode]
        · simp [hclose, hcode]
      · rcases entry.redactions.any isWildcard with _ | _
        · rcases expectedPayload read entry with _ | payload
          · simp [hclose]
          · simp [hclose]
        · simp [hclose]
    · simp [hkind]

theorem Recording.not_emptyReason (recording : Recording codec options config read message entry)
    (h : websocketMessageMatches codec read entry message = true) : ¬EmptyReason message := by
  obtain ⟨projected, hproject, hkind, -, hreason, hredactions, -⟩ := recording.entry_eq
  obtain ⟨seen, hseen, hsame, -, -, hiff⟩ := observe_of_project hproject
  obtain ⟨other, hother, -, -, hcases⟩ := matches_eq_true_iff.mp h
  obtain rfl := Option.some.inj (hseen.symm.trans hother)
  intro hempty
  have hclose : projected.kind = .close := by
    obtain ⟨code, rfl⟩ := hempty
    obtain rfl := Option.some.inj hproject
    rfl
  have hnone : projected.closeReason = none := by
    obtain ⟨code, rfl⟩ := hempty
    obtain rfl := Option.some.inj hproject
    rfl
  rcases @recordedAs_close N codec options config projected hclose with ⟨-, hsome⟩ |
    ⟨hredaction, hrecorded⟩
  · rw [hnone] at hsome
    cases hsome
  · rw [hredactions, hredaction, hreason, hrecorded] at hcases
    rcases hcases with hwild | ⟨-, ⟨-, hequal⟩ | ⟨hdata, -⟩⟩
    · cases hwild
    · exact (hiff.mp hequal) hempty
    · exact hdata (hsame.trans hclose)

theorem Recording.matches_self (hcodec : Lawful codec)
    (recording : Recording codec options config read message entry)
    (h : ¬EmptyReason message) : websocketMessageMatches codec read entry message = true := by
  obtain ⟨projected, hproject, hkind, hcode, hreason, hredactions, hpayload⟩ := recording.entry_eq
  obtain ⟨seen, hseen, hsame, hbytes, hseenCode, hiff⟩ := observe_of_project hproject
  refine matches_eq_true_iff.mpr ⟨seen, hseen, hsame.trans hkind.symm,
    fun _ => hseenCode.trans hcode.symm, ?_⟩
  rw [hredactions, hreason]
  by_cases hclose : projected.kind = .close
  · rcases @recordedAs_close N codec options config projected hclose with ⟨hredaction, -⟩ |
      ⟨hredaction, hrecorded⟩
    · rw [hredaction]
      exact .inl rfl
    · rw [hredaction, hrecorded]
      exact .inr ⟨rfl, .inl ⟨hsame.trans hclose, hiff.mpr h⟩⟩
  · have hdata : seen.kind ≠ .close := hsame ▸ hclose
    rcases @recordedAs_data N codec options config projected hclose with hredaction |
      ⟨found, happly, hredaction⟩ | ⟨hredaction, hrecorded⟩
    · rw [hredaction]
      exact .inl rfl
    · rw [hredaction]
      refine .inr ⟨rfl, .inr ⟨hdata, _, hpayload, ?_⟩⟩
      obtain ⟨again, hagain⟩ := applyJsonRedaction_idem hcodec happly
      show sameRedacted codec (config.jsonPaths.sort (· ≤ ·)) _ seen.bytes = true
      rw [sameRedacted, Finset.sort_toFinset, hbytes, hagain, happly]
      exact decide_eq_true rfl
    · rw [hredaction]
      refine .inr ⟨rfl, .inr ⟨hdata, _, hpayload, ?_⟩⟩
      rw [hrecorded, hbytes]
      exact decide_eq_true rfl

theorem Recording.observe_eq (recording : Recording codec options config read message entry)
    (h : ¬EmptyReason message) (hredactions : entry.redactions = []) {actual : Message}
    (hmatches : websocketMessageMatches codec read entry actual = true) :
    observe actual = observe message := by
  obtain ⟨projected, hproject, hkind, hcode, hreason, hmarkers, hpayload⟩ := recording.entry_eq
  obtain ⟨seen, hseen, hsame, hbytes, hseenCode, hiff⟩ := observe_of_project hproject
  obtain ⟨other, hother, hotherKind, hotherCode, hcases⟩ := matches_eq_true_iff.mp hmatches
  have hnone : (recordedAs codec options config projected).redaction = none := by
    rw [hredactions] at hmarkers
    rcases hfound : (recordedAs codec options config projected).redaction with _ | redaction
    · rfl
    · rw [hfound] at hmarkers
      cases hmarkers
  have hkinds : other.kind = seen.kind := hotherKind.trans (hkind.trans hsame.symm)
  rw [hredactions] at hcases
  rcases hcases with hwild | ⟨-, ⟨hclose, hequal⟩ | ⟨hdata, payload, hread, hcompare⟩⟩
  · cases hwild
  · have hprojected : projected.kind = .close := hsame.symm.trans (hkinds.symm.trans hclose)
    rcases @recordedAs_close N codec options config projected hprojected with ⟨hredaction, -⟩ |
      ⟨-, hrecorded⟩
    · rw [hnone] at hredaction
      cases hredaction
    · refine observe_eq_of_fields hseen hother hkinds
        (fun hdata => absurd (hkinds.symm.trans hclose) hdata) fun _ => ⟨?_, ?_⟩
      · exact (hotherCode hclose).trans (hcode.trans hseenCode.symm)
      · rw [hequal, hreason, hrecorded]
        exact (hiff.mpr h).symm
  · have hprojected : projected.kind ≠ .close := fun hclose =>
      hdata (hkinds.trans (hsame.trans hclose))
    rcases @recordedAs_data N codec options config projected hprojected with hredaction |
      ⟨-, -, hredaction⟩ | ⟨-, hrecorded⟩
    · rw [hnone] at hredaction
      cases hredaction
    · rw [hnone] at hredaction
      cases hredaction
    · refine observe_eq_of_fields hseen hother hkinds (fun _ => ?_) fun hclose =>
        absurd (hkinds.trans hclose) hdata
      rw [hpayload, hrecorded] at hread
      rw [hbytes, Option.some.inj hread]
      exact of_decide_eq_true hcompare

/-- Both comparisons accept a recorded message for its own record, and without markers
nothing else, exactly where it is not a close frame with an empty reason. -/
theorem recorded_matches_iff (hcodec : Lawful codec)
    (recording : Recording codec options config read message entry) :
    (websocketMessageMatches codec read entry message = true ∧
        candidateMessageMatches codec read entry message = true ∧
        (entry.redactions = [] → ∀ actual,
          websocketMessageMatches codec read entry actual = true ∨
              candidateMessageMatches codec read entry actual = true →
            observe actual = observe message)) ↔
      ¬EmptyReason message := by
  simp only [candidateMessageMatches_eq, or_self]
  constructor
  · rintro ⟨hmatches, -, -⟩
    exact recording.not_emptyReason hmatches
  · intro h
    have hself := recording.matches_self hcodec h
    exact ⟨hself, hself, fun hredactions actual => recording.observe_eq h hredactions⟩

end

/-! ### Two recordings -/

theorem letterCodec_lawful : Lawful letterCodec where
  fits_of_parse := sampleCodec_lawful.fits_of_parse
  parse_print := sampleCodec_lawful.parse_print
  parse_space := sampleCodec_lawful.parse_space
  parse_empty := sampleCodec_lawful.parse_empty

def textRecording : Recording letterCodec plainOptions .defaultSecure
    (fun _ => some (utf8 ['a'])) (.text "a") oneTextEntry where
  state := .start
  direction := .clientToServer
  handling := { untilCheckedNs := 1, untilRecordedNs := 1, kept := true, sent := true }
  recorded := by decide
  intact := by
    intro blob hblob
    have hwritten : blobsWritten letterCodec plainOptions .defaultSecure .start .clientToServer
        (.text "a") { untilCheckedNs := 1, untilRecordedNs := 1, kept := true, sent := true } =
        [utf8 ['a']] := by
      decide
    rw [hwritten, List.mem_singleton] at hblob
    rw [hblob]

theorem text_matches_iff :
    (websocketMessageMatches letterCodec (fun _ => some (utf8 ['a'])) oneTextEntry (.text "a") =
          true ∧
        candidateMessageMatches letterCodec (fun _ => some (utf8 ['a'])) oneTextEntry (.text "a") =
          true ∧
        (oneTextEntry.redactions = [] → ∀ actual,
          websocketMessageMatches letterCodec (fun _ => some (utf8 ['a'])) oneTextEntry actual =
                true ∨
              candidateMessageMatches letterCodec (fun _ => some (utf8 ['a'])) oneTextEntry
                actual = true →
            observe actual = observe (.text "a"))) ↔
      ¬EmptyReason (.text "a") :=
  recorded_matches_iff letterCodec_lawful textRecording

def closeEntry : WebSocketMessage where
  sequence := 0
  direction := .clientToServer
  deltaNs := 0
  kind := .close
  payload := none
  closeCode := some 1000
  closeReason := none
  redactions := []

def closeRecording : Recording letterCodec plainOptions .defaultSecure (fun _ => none)
    (.close (some { code := 1000, reason := "" })) closeEntry where
  state := .start
  direction := .clientToServer
  handling := { untilCheckedNs := 0, untilRecordedNs := 0, kept := true, sent := true }
  recorded := by decide
  intact := by
    intro blob hblob
    have hwritten : blobsWritten letterCodec plainOptions .defaultSecure .start .clientToServer
        (.close (some { code := 1000, reason := "" }))
        { untilCheckedNs := 0, untilRecordedNs := 0, kept := true, sent := true } = [] := by
      decide
    rw [hwritten] at hblob
    cases hblob

/-- A close frame without a reason does not match its own record. -/
theorem empty_reason_not_matched :
    ¬∀ (message : Message) (entry : WebSocketMessage),
      Recording letterCodec plainOptions .defaultSecure (fun _ => none) message entry →
        websocketMessageMatches letterCodec (fun _ => none) entry message = true := by
  intro h
  exact absurd (h _ _ closeRecording) (by decide)

end EggReplay.Http.WebSocketMatching
