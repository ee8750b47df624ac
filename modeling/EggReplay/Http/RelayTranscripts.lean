import EggReplay.Core.BodyWildcards
import EggReplay.Http.WebSocketRelay

/-!
The transcripts that the relay leaves, against the checks that a transcript has to pass:
each step of the loop keeps the messages acceptable or makes them unacceptable for good.
-/

namespace EggReplay.Http.RelayTranscripts

open EggReplay.Library.Checks
open EggReplay.Library.Text
open EggReplay.Core.FlowRecord
open EggReplay.Core.StreamTimeline
open EggReplay.Core.WebSockets
open EggReplay.Core.Redaction
open EggReplay.Core.BodyWildcards
open EggReplay.Http.WebSocketRelay

/-- The id, flow id and subprotocols around the messages of one conversation. -/
structure Envelope where
  id : String
  flowId : String
  offered : List String
  selected : Option String
  id_valid : id ≠ "" ∧ id.utf8ByteSize ≤ 128
  flowId_valid : flowId ≠ "" ∧ flowId.utf8ByteSize ≤ 128
  offered_count : offered.length ≤ WebSocketLimits.default.maxSubprotocols
  offered_valid : ∀ protocol ∈ offered, protocol ≠ "" ∧
    protocol.utf8ByteSize ≤ WebSocketLimits.default.maxSubprotocolBytes ∧
    protocol.toList.all isTokenByte = true
  selected_offered : ∀ protocol ∈ selected, protocol ∈ offered

def Envelope.wrap (envelope : Envelope) (messages : List WebSocketMessage)
    (terminal : WebSocketTerminal) : WebSocketTranscript where
  schemaVersion := websocketSchemaVersion
  conversations := [{
    id := envelope.id
    flowId := envelope.flowId
    offeredSubprotocols := envelope.offered
    selectedSubprotocol := envelope.selected
    messages := messages
    terminal := terminal }]

/-- What the checks make of the messages alone. -/
def checkMessages (messages : List WebSocketMessage) : Except String MessageState :=
  checkFold (validateMessage .default) { totalPayload := 0 } messages

/-- The checks accept the messages and the terminal after them. -/
def Acceptable (messages : List WebSocketMessage) (terminal : WebSocketTerminal) : Prop :=
  messages.length ≤ WebSocketLimits.default.maxMessagesPerConversation ∧
    ∃ final, checkMessages messages = .ok final ∧
      validateTerminal .default messages final.closeDirections terminal = .ok ()

theorem Envelope.validate_wrap (envelope : Envelope) (messages : List WebSocketMessage)
    (terminal : WebSocketTerminal) :
    (envelope.wrap messages terminal).validate .default = .ok () ↔
      Acceptable messages terminal := by
  have hselected : ∀ protocol ∈ envelope.selected, protocol ∈ envelope.offered ∧
      protocol.utf8ByteSize ≤ WebSocketLimits.default.maxSubprotocolBytes := by
    intro protocol hprotocol
    have hoffered := envelope.selected_offered protocol hprotocol
    exact ⟨hoffered, (envelope.offered_valid protocol hoffered).2.1⟩
  rw [transcript_validate_eq_ok]
  simp [Envelope.wrap, validateConversation]
  constructor
  · rintro ⟨-, -, -, -, -, -, hcount, -, -, final, hfinal, hterminal⟩
    exact ⟨hcount, final, hfinal, hterminal⟩
  · rintro ⟨hcount, final, hfinal, hterminal⟩
    refine ⟨by decide, envelope.id_valid, envelope.flowId_valid, envelope.offered_count, ?_,
      hselected, hcount, hcount.trans (by decide), hcount.trans (by decide), final, hfinal,
      hterminal⟩
    intro protocol hprotocol
    obtain ⟨hnonempty, hsize, htoken⟩ := envelope.offered_valid protocol hprotocol
    exact ⟨hnonempty, hsize, List.all_eq_true.mp htoken⟩

/-! ### One recorded message -/

variable {N : Type} {codec : BodyCodec N} {options : WebSocketRecordingOptions}
  {config : RedactionConfig}

/-- What a message has to meet, where the loop stands, for its record to be accepted. -/
structure Storable (codec : BodyCodec N) (options : WebSocketRecordingOptions)
    (config : RedactionConfig) (state : RelayState) (direction : WebSocketDirection)
    (projected : Projection) (handling : Handling) : Prop where
  kept : (recordedAs codec options config projected).payload ≠ [] → handling.kept = true
  room : state.messages.length < WebSocketLimits.default.maxMessagesPerConversation
  total : state.totalPayloadBytes + (recordedAs codec options config projected).payload.length ≤
    WebSocketLimits.default.maxTotalPayloadBytes
  duration : state.clockNs + handling.untilCheckedNs + handling.untilRecordedNs ≤
    WebSocketLimits.default.maxDurationNs
  notClosed : state.closeSeen.get direction = false
  size : (recordedAs codec options config projected).payload.length ≤
    WebSocketLimits.default.maxMessageBytes
  control : isControl projected.kind = true →
    (recordedAs codec options config projected).payload.length ≤ 125
  closeCode : ∀ code ∈ projected.closeCode, validCloseCode code = true
  closeReason : ∀ reason ∈ (recordedAs codec options config projected).closeReason,
    reason.utf8ByteSize ≤ 123
  pointers : ∀ pointers,
    (recordedAs codec options config projected).redaction = some (.jsonPointers pointers) →
      pointers.length ≤ 256 ∧
        ∀ pointer ∈ pointers, pointer.utf8ByteSize ≤ 1024 ∧ startsWith pointer "/" = true

/-- The shape of a projection: close data on a close message only, and nothing else there. -/
structure Shaped (projected : Projection) : Prop where
  close : projected.kind = .close → projected.bytes = []
  code : projected.kind ≠ .close → projected.closeCode = none
  reason : projected.kind ≠ .close → projected.closeReason = none
  reasoned : projected.closeReason.isSome = true → projected.closeCode.isSome = true

theorem project_shaped {message : Message} {projected : Projection}
    (h : project message = some projected) : Shaped projected := by
  cases message with
  | close frame =>
      obtain rfl := Option.some.inj h
      refine ⟨fun _ => rfl, fun hkind => absurd rfl hkind, fun hkind => absurd rfl hkind, ?_⟩
      cases frame with
      | none =>
          intro hreason
          cases hreason
      | some frame => exact fun _ => rfl
  | frame => cases h
  | text content =>
      obtain rfl := Option.some.inj h
      exact ⟨fun hkind => (by cases hkind), fun _ => rfl, fun _ => rfl, fun hnone => (by cases hnone)⟩
  | binary data =>
      obtain rfl := Option.some.inj h
      exact ⟨fun hkind => (by cases hkind), fun _ => rfl, fun _ => rfl, fun hnone => (by cases hnone)⟩
  | ping data =>
      obtain rfl := Option.some.inj h
      exact ⟨fun hkind => (by cases hkind), fun _ => rfl, fun _ => rfl, fun hnone => (by cases hnone)⟩
  | pong data =>
      obtain rfl := Option.some.inj h
      exact ⟨fun hkind => (by cases hkind), fun _ => rfl, fun _ => rfl, fun hnone => (by cases hnone)⟩

/-- The shape of a record: what redaction does to the projection of each kind. -/
structure RecordShaped (projected : Projection) (recorded : Recorded) : Prop where
  close : projected.kind = .close → recorded.payload = []
  reason : projected.kind ≠ .close → recorded.closeReason = none
  reasoned : recorded.closeReason.isSome = true → projected.closeCode.isSome = true
  redaction : ∀ redaction ∈ recorded.redaction,
    (∀ pointers, redaction = .jsonPointers pointers → projected.kind = .text) ∧
      (redaction = .closeReason → projected.kind = .close)

theorem recordedAs_shaped {projected : Projection} (h : Shaped projected) :
    RecordShaped projected (recordedAs codec options config projected) := by
  unfold recordedAs
  dsimp only
  split
  · rename_i hclose
    obtain ⟨hkind, -, hreason⟩ := hclose
    have hpayload : (redactPayload codec options config projected.kind projected.bytes).1 = [] := by
      rw [redactPayload, hkind]
      simp [h.close hkind]
    refine ⟨fun _ => hpayload, fun hne => absurd hkind hne, fun _ => h.reasoned hreason, ?_⟩
    rintro redaction hredaction
    obtain rfl := Option.some.inj hredaction
    exact ⟨fun pointers hpointers => (by cases hpointers), fun _ => hkind⟩
  · refine ⟨?_, h.reason, h.reasoned, ?_⟩
    · intro hkind
      show (redactPayload codec options config projected.kind projected.bytes).1 = []
      rw [redactPayload, hkind]
      simp [h.close hkind]
    · intro redaction hredaction
      have hfound : (redactPayload codec options config projected.kind projected.bytes).2 =
          some redaction := hredaction
      unfold redactPayload at hfound
      split at hfound
      · obtain rfl := Option.some.inj hfound
        exact ⟨fun pointers hpointers => (by cases hpointers), fun hother => (by cases hother)⟩
      · split at hfound
        · rename_i htext
          refine ⟨fun _ _ => htext.1, ?_⟩
          rintro rfl
          split at hfound
          · cases hfound
          · cases hfound
        · split at hfound
          · obtain rfl := Option.some.inj hfound
            exact ⟨fun pointers hpointers => (by cases hpointers), fun hother => (by cases hother)⟩
          · cases hfound

/-- The checks of the messages so far, as the variables of the loop know them. -/
structure Tracks (checked : MessageState) (state : RelayState) : Prop where
  index : checked.index = state.messages.length
  priorDelta : checked.priorDelta ≤ elapsedNs state.clockNs
  closes : ∀ direction,
    direction ∈ checked.closeDirections ↔ state.closeSeen.get direction = true
  nodup : checked.closeDirections.Nodup
  terminated : checked.terminated = state.bothClosed
  total : checked.totalPayload = state.totalPayloadBytes
  bounded : state.totalPayloadBytes ≤ WebSocketLimits.default.maxTotalPayloadBytes

theorem length_eq_two_iff {closed : List WebSocketDirection} {seen : PerDirection Bool}
    (hcloses : ∀ direction, direction ∈ closed ↔ seen.get direction = true)
    (hnodup : closed.Nodup) :
    closed.length = 2 ↔ (seen.clientToServer && seen.serverToClient) = true := by
  have hclient := hcloses .clientToServer
  have hserver := hcloses .serverToClient
  simp only [PerDirection.get] at hclient hserver
  rw [Bool.and_eq_true, ← hclient, ← hserver]
  constructor
  · intro hlength
    obtain ⟨first, second, rfl⟩ := List.length_eq_two.mp hlength
    cases first <;> cases second <;> simp at hnodup ⊢
  · rintro ⟨hfirst, hsecond⟩
    rcases closed with _ | ⟨a, _ | ⟨b, _ | ⟨c, rest⟩⟩⟩
    · cases hfirst
    · cases a <;> simp at hfirst hsecond
    · rfl
    · cases a <;> cases b <;> cases c <;> simp at hnodup

theorem elapsedNs_le_iff {clockNs : Nat} :
    elapsedNs clockNs ≤ WebSocketLimits.default.maxDurationNs ↔
      clockNs ≤ WebSocketLimits.default.maxDurationNs := by
  have hmax : WebSocketLimits.default.maxDurationNs < u64Max := by decide
  unfold elapsedNs
  omega

theorem saturatingAdd_eq {a b : Nat}
    (h : a + b ≤ WebSocketLimits.default.maxTotalPayloadBytes) : saturatingAdd a b = a + b :=
  Nat.min_eq_left (h.trans (by decide))

theorem elapsedNs_mono {a b : Nat} (h : a ≤ b) : elapsedNs a ≤ elapsedNs b := by
  unfold elapsedNs
  omega

section

variable {checked : MessageState} {state : RelayState} {direction : WebSocketDirection}
  {projected : Projection} {handling : Handling} {recorded : Recorded} {recordedNs : Nat}

theorem validateMessage_close (htracks : Tracks checked state)
    (hopen : state.bothClosed = false) (hkind : projected.kind = .close)
    (hrecord : RecordShaped projected recorded) (hclock : state.clockNs ≤ recordedNs)
    {next : MessageState} :
    validateMessage .default checked (messageEntry codec state.messages.length direction
        (elapsedNs recordedNs) projected recorded) = .ok next ↔
      recordedNs ≤ WebSocketLimits.default.maxDurationNs ∧
        state.closeSeen.get direction = false ∧
        (∀ code ∈ projected.closeCode, validCloseCode code = true) ∧
        (∀ reason ∈ recorded.closeReason, reason.utf8ByteSize ≤ 123) ∧
        next =
          { index := checked.index + 1, priorDelta := elapsedNs recordedNs,
            closeDirections := direction :: checked.closeDirections,
            terminated := decide (checked.closeDirections.length + 1 = 2),
            totalPayload := checked.totalPayload } := by
  have hpayload := hrecord.close hkind
  have hprior := htracks.priorDelta.trans (elapsedNs_mono hclock)
  have htotal : checked.totalPayload ≤ WebSocketLimits.default.maxTotalPayloadBytes :=
    htracks.total ▸ htracks.bounded
  have hfits : checked.totalPayload ≤ u64Max := htotal.trans (by decide)
  have hnotClosed : direction ∉ checked.closeDirections ↔
      state.closeSeen.get direction = false := by
    rw [htracks.closes, Bool.not_eq_true]
  unfold validateMessage
  simp [messageEntry, hkind, hpayload, payloadRef, htracks.index, htracks.terminated, hopen,
    elapsedNs_le_iff, hnotClosed, hprior, htotal, hfits]
  intro _
  constructor
  · rintro ⟨hcode, hreason, hclosed, -, rfl⟩
    exact ⟨hclosed, hcode, fun reason h => (hreason reason h).1.2, rfl⟩
  · rintro ⟨hclosed, hcode, hreason, rfl⟩
    refine ⟨hcode, ?_, hclosed, ?_, rfl⟩
    · intro reason h
      exact ⟨⟨hreason reason h, hreason reason h⟩, hrecord.reasoned (by rw [h]; rfl)⟩
    · intro redaction h
      cases redaction with
      | jsonPointers pointers =>
          have htext := (hrecord.redaction _ h).1 pointers rfl
          rw [hkind] at htext
          cases htext
      | wholeMessage => rfl
      | closeReason => rfl

theorem validateMessage_data (htracks : Tracks checked state)
    (hopen : state.bothClosed = false) (hkind : projected.kind ≠ .close)
    (hshape : Shaped projected) (hrecord : RecordShaped projected recorded)
    (hclock : state.clockNs ≤ recordedNs) {next : MessageState} :
    validateMessage .default checked (messageEntry codec state.messages.length direction
        (elapsedNs recordedNs) projected recorded) = .ok next ↔
      recordedNs ≤ WebSocketLimits.default.maxDurationNs ∧
        state.closeSeen.get direction = false ∧
        recorded.payload.length ≤ WebSocketLimits.default.maxMessageBytes ∧
        state.totalPayloadBytes + recorded.payload.length ≤
          WebSocketLimits.default.maxTotalPayloadBytes ∧
        (isControl projected.kind = true → recorded.payload.length ≤ 125) ∧
        (∀ pointers, recorded.redaction = some (.jsonPointers pointers) →
          pointers.length ≤ 256 ∧
            ∀ pointer ∈ pointers, pointer.utf8ByteSize ≤ 1024 ∧ startsWith pointer "/" = true) ∧
        next =
          { index := checked.index + 1, priorDelta := elapsedNs recordedNs,
            closeDirections := checked.closeDirections, terminated := checked.terminated,
            totalPayload := checked.totalPayload + recorded.payload.length } := by
  have hprior := htracks.priorDelta.trans (elapsedNs_mono hclock)
  have hnotClosed : direction ∉ checked.closeDirections ↔
      state.closeSeen.get direction = false := by
    rw [htracks.closes, Bool.not_eq_true]
  have hfits : checked.totalPayload + recorded.payload.length ≤
      WebSocketLimits.default.maxTotalPayloadBytes →
      checked.totalPayload + recorded.payload.length ≤ u64Max := fun h => h.trans (by decide)
  have hmarkers : (∀ redaction ∈ recorded.redaction,
        validateRedaction projected.kind redaction = .ok ()) ↔
      ∀ pointers, recorded.redaction = some (.jsonPointers pointers) →
        pointers.length ≤ 256 ∧
          ∀ pointer ∈ pointers, pointer.utf8ByteSize ≤ 1024 ∧ startsWith pointer "/" = true := by
    constructor
    · intro h pointers hpointers
      have hmarker := h _ hpointers
      rw [validateRedaction, ensure_eq_ok] at hmarker
      exact hmarker.2
    · intro h redaction hredaction
      cases redaction with
      | jsonPointers pointers =>
          rw [validateRedaction, ensure_eq_ok]
          exact ⟨(hrecord.redaction _ hredaction).1 pointers rfl, h pointers hredaction⟩
      | wholeMessage => rfl
      | closeReason => exact absurd ((hrecord.redaction _ hredaction).2 rfl) hkind
  rw [← htracks.total, ← hmarkers]
  unfold validateMessage
  rcases hpayload : recorded.payload with _ | ⟨byte, rest⟩
  · rw [hpayload] at hfits
    simp [messageEntry, hkind, hshape.code hkind, hrecord.reason hkind, htracks.index,
      htracks.terminated, hopen, elapsedNs_le_iff, hnotClosed, hprior, payloadRef, hpayload]
    intro _ _
    constructor
    · rintro ⟨-, htotal, hmarked, rfl⟩
      exact ⟨htotal, hmarked, rfl⟩
    · rintro ⟨htotal, hmarked, rfl⟩
      exact ⟨hfits htotal, htotal, hmarked, rfl⟩
  · rw [hpayload] at hfits
    simp [messageEntry, hkind, hshape.code hkind, hrecord.reason hkind, htracks.index,
      htracks.terminated, hopen, elapsedNs_le_iff, hnotClosed, hprior, payloadRef, hpayload,
      BodyRef.len]
    intro _ _ _
    constructor
    · rintro ⟨-, htotal, hcontrol, hmarked, rfl⟩
      refine ⟨htotal, fun h => ?_, hmarked, rfl⟩
      rcases hcontrol with hdata | hcontrol
      · rw [hdata] at h
        cases h
      · exact hcontrol.2
    · rintro ⟨htotal, hcontrol, hmarked, rfl⟩
      refine ⟨hfits htotal, htotal, ?_, hmarked, rfl⟩
      rcases hdata : isControl projected.kind with _ | _
      · exact .inl rfl
      · exact .inr ⟨hcontrol hdata, hcontrol hdata⟩

/-- The state after a message is recorded, before it is sent on. -/
def recordedState (codec : BodyCodec N) (state : RelayState) (direction : WebSocketDirection)
    (projected : Projection) (recorded : Recorded) (recordedNs : Nat) : RelayState :=
  { state with
    messages := state.messages ++
      [messageEntry codec state.messages.length direction (elapsedNs recordedNs) projected recorded]
    closeSeen := if projected.kind = .close then state.closeSeen.set direction true
      else state.closeSeen
    totalPayloadBytes := saturatingAdd state.totalPayloadBytes recorded.payload.length
    clockNs := recordedNs }

@[simp] theorem get_set {α : Type} (pair : PerDirection α)
    (direction other : WebSocketDirection) (value : α) :
    (pair.set direction value).get other = if other = direction then value else pair.get other := by
  cases direction <;> cases other <;> rfl

/-- The record of a message passes the checks exactly where the message is storable. -/
theorem exists_next_iff (htracks : Tracks checked state) (hopen : state.bothClosed = false)
    (hshape : Shaped projected) (hroom : state.messages.length <
      WebSocketLimits.default.maxMessagesPerConversation)
    (hkept : (recordedAs codec options config projected).payload ≠ [] → handling.kept = true) :
    (∃ next, validateMessage .default checked (messageEntry codec state.messages.length direction
        (elapsedNs (state.clockNs + handling.untilCheckedNs + handling.untilRecordedNs)) projected
        (recordedAs codec options config projected)) = .ok next) ↔
      Storable codec options config state direction projected handling := by
  have hrecord := @recordedAs_shaped N codec options config projected hshape
  have hclock : state.clockNs ≤ state.clockNs + handling.untilCheckedNs +
      handling.untilRecordedNs := by
    omega
  by_cases hkind : projected.kind = .close
  · simp only [validateMessage_close htracks hopen hkind hrecord hclock]
    have hpayload := hrecord.close hkind
    constructor
    · rintro ⟨next, hduration, hclosed, hcode, hreason, -⟩
      refine ⟨hkept, hroom, ?_, hduration, hclosed, ?_, ?_, hcode, hreason, ?_⟩
      · rw [hpayload]
        exact htracks.bounded
      · rw [hpayload]
        exact Nat.zero_le _
      · intro _
        rw [hpayload]
        exact Nat.zero_le _
      · intro pointers hpointers
        have htext := (hrecord.redaction _ hpointers).1 pointers rfl
        rw [hkind] at htext
        cases htext
    · intro h
      exact ⟨_, h.duration, h.notClosed, h.closeCode, h.closeReason, rfl⟩
  · simp only [validateMessage_data htracks hopen hkind hshape hrecord hclock]
    constructor
    · rintro ⟨next, hduration, hclosed, hsize, htotal, hcontrol, hpointers, -⟩
      refine ⟨hkept, hroom, htotal, hduration, hclosed, hsize, hcontrol, ?_, ?_, hpointers⟩
      · rw [hshape.code hkind]
        exact fun code hcode => (by cases hcode)
      · rw [hrecord.reason hkind]
        exact fun reason hreason => (by cases hreason)
    · intro h
      exact ⟨_, h.duration, h.notClosed, h.size, h.total, h.control, h.pointers, rfl⟩

theorem tracks_next (htracks : Tracks checked state) (hopen : state.bothClosed = false)
    (hshape : Shaped projected) (hclock : state.clockNs ≤ recordedNs)
    (hrecord : RecordShaped projected recorded) {next : MessageState}
    (h : validateMessage .default checked (messageEntry codec state.messages.length direction
      (elapsedNs recordedNs) projected recorded) = .ok next) :
    Tracks next (recordedState codec state direction projected recorded recordedNs) := by
  by_cases hkind : projected.kind = .close
  · obtain ⟨-, hclosed, -, -, rfl⟩ :=
      (validateMessage_close htracks hopen hkind hrecord hclock).mp h
    have hpayload := hrecord.close hkind
    have hcloses : ∀ other, other ∈ direction :: checked.closeDirections ↔
        (state.closeSeen.set direction true).get other = true := by
      intro other
      rw [List.mem_cons, htracks.closes other, get_set]
      by_cases hother : other = direction
      · simp [hother]
      · simp [hother]
    have hnodup : (direction :: checked.closeDirections).Nodup := by
      rw [List.nodup_cons, htracks.closes, Bool.not_eq_true]
      exact ⟨hclosed, htracks.nodup⟩
    constructor
    · simp [recordedState, htracks.index]
    · exact le_refl _
    · intro other
      rw [recordedState, if_pos hkind]
      exact hcloses other
    · exact hnodup
    · rw [recordedState, if_pos hkind]
      exact Bool.eq_iff_iff.mpr
        (decide_eq_true_iff.trans (length_eq_two_iff hcloses hnodup))
    · rw [htracks.total, recordedState, hpayload]
      exact (@saturatingAdd_eq state.totalPayloadBytes 0 htracks.bounded).symm
    · rw [recordedState, hpayload]
      exact (@saturatingAdd_eq state.totalPayloadBytes 0 htracks.bounded).le.trans htracks.bounded
  · obtain ⟨-, -, -, htotal, -, -, rfl⟩ :=
      (validateMessage_data htracks hopen hkind hshape hrecord hclock).mp h
    constructor
    · simp [recordedState, htracks.index]
    · exact le_refl _
    · intro other
      rw [recordedState, if_neg hkind]
      exact htracks.closes other
    · exact htracks.nodup
    · rw [htracks.terminated, recordedState, if_neg hkind]
      rfl
    · rw [htracks.total]
      exact (saturatingAdd_eq htotal).symm
    · exact (saturatingAdd_eq htotal).le.trans htotal

end

/-! ### One turn of the loop -/

/-- Two states that the checks do not tell apart. -/
structure SameRecord (left right : RelayState) : Prop where
  messages : left.messages = right.messages
  closeSeen : left.closeSeen = right.closeSeen
  totalPayloadBytes : left.totalPayloadBytes = right.totalPayloadBytes
  clockNs : left.clockNs = right.clockNs

theorem SameRecord.bothClosed {left right : RelayState} (h : SameRecord left right) :
    left.bothClosed = right.bothClosed := by
  rw [RelayState.bothClosed, h.closeSeen, RelayState.bothClosed]

theorem SameRecord.tracks {left right : RelayState} (h : SameRecord left right)
    {checked : MessageState} (htracks : Tracks checked right) : Tracks checked left where
  index := by rw [h.messages, htracks.index]
  priorDelta := by rw [h.clockNs]; exact htracks.priorDelta
  closes := by rw [h.closeSeen]; exact htracks.closes
  nodup := htracks.nodup
  terminated := by rw [h.bothClosed, htracks.terminated]
  total := by rw [h.totalPayloadBytes, htracks.total]
  bounded := by rw [h.totalPayloadBytes]; exact htracks.bounded

/-- A loop that is still running, with messages that the checks accept. -/
structure Sound (state : RelayState) : Prop where
  checked : ∃ checked, checkMessages state.messages = .ok checked ∧ Tracks checked state
  running : state.bothClosed = false
  count : state.messages.length ≤ WebSocketLimits.default.maxMessagesPerConversation

def Broken (messages : List WebSocketMessage) : Prop :=
  ∀ checked, checkMessages messages ≠ .ok checked

def Good : Outcome → Prop
  | .running state => Sound state
  | .ended state terminal => Acceptable state.messages terminal

def Bad : Outcome → Prop
  | .running state => Broken state.messages
  | .ended state terminal => ¬Acceptable state.messages terminal

theorem Sound.congr {left right : RelayState} (h : SameRecord left right)
    (hsound : Sound right) : Sound left := by
  obtain ⟨⟨checked, hchecked, htracks⟩, hrunning, hcount⟩ := hsound
  refine ⟨⟨checked, ?_, h.tracks htracks⟩, ?_, ?_⟩
  · rw [h.messages, hchecked]
  · rw [h.bothClosed, hrunning]
  · rw [h.messages]
    exact hcount

theorem Broken.not_acceptable {messages : List WebSocketMessage} (h : Broken messages)
    (terminal : WebSocketTerminal) : ¬Acceptable messages terminal := by
  rintro ⟨-, final, hfinal, -⟩
  exact h final hfinal

theorem checkMessages_concat {messages : List WebSocketMessage} {message : WebSocketMessage}
    {next : MessageState} :
    checkMessages (messages ++ [message]) = .ok next ↔
      ∃ checked, checkMessages messages = .ok checked ∧
        validateMessage .default checked message = .ok next := by
  rw [checkMessages, checkFold_append, bind_eq_ok]
  simp only [checkFold_cons, checkFold_nil, bind_eq_ok, Except.ok.injEq, exists_eq_right,
    checkMessages]

theorem Broken.concat {messages : List WebSocketMessage} (h : Broken messages)
    (message : WebSocketMessage) : Broken (messages ++ [message]) := by
  intro next hnext
  obtain ⟨checked, hchecked, -⟩ := checkMessages_concat.mp hnext
  exact h checked hchecked

theorem Sound.acceptable {state : RelayState} (h : Sound state) {cause : String}
    (hcause : cause ∈ abnormalCauses) : Acceptable state.messages (.abnormal cause) := by
  obtain ⟨checked, hchecked, -⟩ := h.checked
  exact ⟨h.count, checked, hchecked, by rw [validateTerminal, ensure_eq_ok]; exact hcause⟩

theorem not_acceptable_of_cause {messages : List WebSocketMessage} {cause : String}
    (hcause : cause ∉ abnormalCauses) : ¬Acceptable messages (.abnormal cause) := by
  rintro ⟨-, final, -, hterminal⟩
  rw [validateTerminal, ensure_eq_ok] at hterminal
  exact hcause hterminal

/-- What sending on comes to: the record stays as it is, and a close that completes the
handshake ends the loop. -/
inductive SentOn (recorded : RelayState) (kind : WebSocketMessageKind) (code : Option Nat)
    (reason : Option String) : Outcome → Prop
  | running {final : RelayState} (same : SameRecord final recorded)
      (unfinished : kind = .close → final.bothClosed = false) :
      SentOn recorded kind code reason (.running final)
  | failed {final : RelayState} (same : SameRecord final recorded) :
      SentOn recorded kind code reason (.ended final (.abnormal "write-error"))
  | closed {final : RelayState} (same : SameRecord final recorded) (close : kind = .close)
      (finished : final.bothClosed = true) :
      SentOn recorded kind code reason (.ended final (.cleanClose code reason))

theorem sendOn_sentOn (state : RelayState) (direction : WebSocketDirection) (message : Message)
    (projected : Projection) (reason : Option String) (answered sent : Bool) :
    SentOn
      { state with
        closeSeen := if projected.kind = .close then state.closeSeen.set direction true
          else state.closeSeen }
      projected.kind projected.closeCode reason
      (sendOn state direction message projected reason answered sent) := by
  by_cases hkind : projected.kind = .close
  · have hfinish : ∀ final : RelayState,
        SameRecord final { state with closeSeen := state.closeSeen.set direction true } →
        SentOn { state with closeSeen := state.closeSeen.set direction true } projected.kind
          projected.closeCode reason
          (if final.bothClosed = true then .ended final (.cleanClose projected.closeCode reason)
            else .running final) := by
      intro final hsame
      split
      · rename_i hboth
        exact .closed hsame hkind hboth
      · rename_i hboth
        exact .running hsame fun _ => Bool.eq_false_iff.mpr hboth
    rw [sendOn, if_pos hkind, if_pos hkind, relayClose]
    dsimp only
    split
    · exact hfinish _ ⟨rfl, rfl, rfl, rfl⟩
    · cases sent with
      | true => exact hfinish _ ⟨rfl, rfl, rfl, rfl⟩
      | false => exact .failed ⟨rfl, rfl, rfl, rfl⟩
  · rw [sendOn, if_neg hkind, if_neg hkind]
    split
    · exact .running ⟨rfl, rfl, rfl, rfl⟩ fun hclose => absurd hclose hkind
    · cases sent with
      | true => exact .running ⟨rfl, rfl, rfl, rfl⟩ fun hclose => absurd hclose hkind
      | false => exact .failed ⟨rfl, rfl, rfl, rfl⟩

theorem SentOn.bad {recorded : RelayState} {kind : WebSocketMessageKind} {code : Option Nat}
    {reason : Option String} {outcome : Outcome} (h : SentOn recorded kind code reason outcome)
    (hbroken : Broken recorded.messages) : Bad outcome := by
  cases h with
  | running same unfinished =>
      rw [Bad, same.messages]
      exact hbroken
  | failed same =>
      rw [Bad, same.messages]
      exact hbroken.not_acceptable _
  | closed same close finished =>
      rw [Bad, same.messages]
      exact hbroken.not_acceptable _

theorem SentOn.congr {recorded other : RelayState} {kind : WebSocketMessageKind}
    {code : Option Nat} {reason : Option String} {outcome : Outcome}
    (hsame : SameRecord recorded other) (h : SentOn recorded kind code reason outcome) :
    SentOn other kind code reason outcome := by
  have htrans : ∀ final, SameRecord final recorded → SameRecord final other :=
    fun final hfinal => ⟨hfinal.messages.trans hsame.messages,
      hfinal.closeSeen.trans hsame.closeSeen,
      hfinal.totalPayloadBytes.trans hsame.totalPayloadBytes, hfinal.clockNs.trans hsame.clockNs⟩
  cases h with
  | running same unfinished => exact .running (htrans _ same) unfinished
  | failed same => exact .failed (htrans _ same)
  | closed same close finished => exact .closed (htrans _ same) close finished

theorem SentOn.good {recorded : RelayState} {last : WebSocketMessage} {outcome : Outcome}
    {checked : MessageState}
    (h : SentOn recorded last.kind last.closeCode last.closeReason outcome)
    (hchecked : checkMessages recorded.messages = .ok checked) (htracks : Tracks checked recorded)
    (hcount : recorded.messages.length ≤ WebSocketLimits.default.maxMessagesPerConversation)
    (hrunning : last.kind ≠ .close → recorded.bothClosed = false)
    (hlast : recorded.messages.getLast? = some last)
    (hcode : ∀ code ∈ last.closeCode, validCloseCode code = true)
    (hreason : ∀ reason ∈ last.closeReason,
      reason.utf8ByteSize ≤ 123 ∧ last.closeCode.isSome = true) : Good outcome := by
  cases h with
  | @running final same unfinished =>
      refine ⟨⟨checked, ?_, same.tracks htracks⟩, ?_, ?_⟩
      · rw [same.messages, hchecked]
      · by_cases hkind : last.kind = .close
        · exact unfinished hkind
        · rw [same.bothClosed, hrunning hkind]
      · rw [same.messages]
        exact hcount
  | @failed final same =>
      rw [Good, same.messages]
      refine ⟨hcount, checked, hchecked, ?_⟩
      rw [validateTerminal, ensure_eq_ok]
      decide
  | @closed final same close finished =>
      rw [Good, same.messages]
      refine ⟨hcount, checked, hchecked, ?_⟩
      rw [same.bothClosed] at finished
      have hboth := (length_eq_two_iff htracks.closes htracks.nodup).mpr finished
      simp only [validateTerminal, bind_eq_ok, ensure_eq_ok, orFail_eq_ok]
      refine ⟨(), hboth, last, hlast, (), ⟨close, rfl, rfl⟩, hcode, ?_⟩
      intro reason h
      exact ⟨Nat.le_min.mpr ⟨(hreason reason h).1, (hreason reason h).1⟩, (hreason reason h).2⟩

section

variable {state : RelayState} {direction : WebSocketDirection} {message : Message}
  {projected : Projection} {handling : Handling}

/-- A storable message is within the limits that the loop itself looks at. -/
theorem Storable.not_overLimits
    (h : Storable codec options config state direction projected handling) :
    overLimits state (recordedAs codec options config projected).payload
      (state.clockNs + handling.untilCheckedNs) = false := by
  have hchecked : state.clockNs + handling.untilCheckedNs ≤
      WebSocketLimits.default.maxDurationNs := by
    have hduration := h.duration
    omega
  have htotal : saturatingAdd state.totalPayloadBytes
      (recordedAs codec options config projected).payload.length ≤
      WebSocketLimits.default.maxTotalPayloadBytes := (Nat.min_le_left _ _).trans h.total
  rw [overLimits]
  simp only [Bool.or_eq_false_iff, decide_eq_false_iff_not, not_le, not_lt]
  exact ⟨⟨h.room, htotal⟩, elapsedNs_le_iff.mpr hchecked⟩

theorem relayMessage_raw (hproject : project message = none) :
    relayMessage codec options config state direction message handling = .running state := by
  rw [relayMessage, hproject]

/-- The three ways a message goes: its payload is not stored, a limit is exceeded, or it
is recorded and sent on. -/
theorem relayMessage_cases (hproject : project message = some projected) :
    ((recordedAs codec options config projected).payload ≠ [] ∧ handling.kept = false ∧
      ∃ final, relayMessage codec options config state direction message handling =
        .ended final (.abnormal "storage-error")) ∨
    (overLimits state (recordedAs codec options config projected).payload
        (state.clockNs + handling.untilCheckedNs) = true ∧
      ∃ final, relayMessage codec options config state direction message handling =
        .ended final (.abnormal "capture-limit")) ∨
    ((recordedAs codec options config projected).payload ≠ [] → handling.kept = true) ∧
      overLimits state (recordedAs codec options config projected).payload
        (state.clockNs + handling.untilCheckedNs) = false ∧
      SentOn
        (recordedState codec state direction projected (recordedAs codec options config projected)
          (state.clockNs + handling.untilCheckedNs + handling.untilRecordedNs))
        projected.kind projected.closeCode (recordedAs codec options config projected).closeReason
        (relayMessage codec options config state direction message handling) := by
  rw [relayMessage, hproject]
  dsimp only
  by_cases hlost : (recordedAs codec options config projected).payload ≠ [] ∧
      handling.kept = false
  · rw [if_pos hlost]
    exact .inl ⟨hlost.1, hlost.2, _, rfl⟩
  · rw [if_neg hlost]
    rcases hlimits : overLimits state (recordedAs codec options config projected).payload
      (state.clockNs + handling.untilCheckedNs) with _ | _
    · rw [if_neg Bool.false_ne_true]
      refine .inr (.inr ⟨?_, rfl, ?_⟩)
      · intro hpayload
        rw [← Bool.not_eq_false]
        exact fun hkept => hlost ⟨hpayload, hkept⟩
      · have hsent := sendOn_sentOn
          ((state.keep (answerPings state.pingPongs projected.kind direction projected.bytes).1
            (recordedAs codec options config projected).payload
            (state.clockNs + handling.untilCheckedNs + handling.untilRecordedNs)).push
            (messageEntry codec state.messages.length direction
              (elapsedNs (state.clockNs + handling.untilCheckedNs + handling.untilRecordedNs))
              projected (recordedAs codec options config projected)))
          direction message projected (recordedAs codec options config projected).closeReason
          (answerPings state.pingPongs projected.kind direction projected.bytes).2 handling.sent
        refine hsent.congr ?_
        exact ⟨rfl, rfl, rfl, rfl⟩
    · rw [if_pos rfl]
      exact .inr (.inl ⟨rfl, _, rfl⟩)

theorem relayMessage_good (hsound : Sound state) (hproject : project message = some projected)
    (h : Storable codec options config state direction projected handling) :
    Good (relayMessage codec options config state direction message handling) := by
  rcases relayMessage_cases hproject with ⟨hpayload, hlost, -⟩ | ⟨hlimits, -⟩ | ⟨-, -, hsent⟩
  · rw [h.kept hpayload] at hlost
    cases hlost
  · rw [h.not_overLimits] at hlimits
    cases hlimits
  · obtain ⟨checked, hchecked, htracks⟩ := hsound.checked
    have hshape := project_shaped hproject
    have hrecord := @recordedAs_shaped N codec options config projected hshape
    have hclock : state.clockNs ≤ state.clockNs + handling.untilCheckedNs +
        handling.untilRecordedNs := by
      omega
    obtain ⟨next, hnext⟩ := (exists_next_iff htracks hsound.running hshape h.room h.kept).mpr h
    have htracked := tracks_next htracks hsound.running hshape hclock hrecord hnext
    refine @SentOn.good _ (messageEntry codec state.messages.length direction
      (elapsedNs (state.clockNs + handling.untilCheckedNs + handling.untilRecordedNs)) projected
      (recordedAs codec options config projected)) _ _ hsent
      (checkMessages_concat.mpr ⟨checked, hchecked, hnext⟩) htracked ?_ ?_ ?_ h.closeCode ?_
    · simpa [recordedState] using h.room
    · intro hkind
      have hother : projected.kind ≠ .close := hkind
      rw [recordedState, if_neg hother]
      exact hsound.running
    · simp [recordedState]
    · intro reason hreason
      refine ⟨h.closeReason reason hreason, hrecord.reasoned ?_⟩
      rw [show (recordedAs codec options config projected).closeReason = some reason from hreason]
      rfl

theorem relayMessage_bad (hsound : Sound state) (hproject : project message = some projected)
    (h : ¬Storable codec options config state direction projected handling) :
    Bad (relayMessage codec options config state direction message handling) := by
  rcases relayMessage_cases hproject with ⟨-, -, final, hended⟩ | ⟨-, final, hended⟩ |
    ⟨hkept, hlimits, hsent⟩
  · rw [hended]
    exact not_acceptable_of_cause (by decide)
  · rw [hended]
    exact not_acceptable_of_cause (by decide)
  · apply hsent.bad
    intro next hnext
    obtain ⟨checked, hchecked, hentry⟩ := checkMessages_concat.mp hnext
    obtain ⟨tracked, htracked, htracks⟩ := hsound.checked
    obtain rfl := Except.ok.inj (htracked.symm.trans hchecked)
    rw [overLimits] at hlimits
    simp only [Bool.or_eq_false_iff, decide_eq_false_iff_not, not_le, not_lt] at hlimits
    exact h ((exists_next_iff htracks hsound.running (project_shaped hproject) hlimits.1.1
      hkept).mp ⟨next, hentry⟩)

theorem relayMessage_broken (hbroken : Broken state.messages)
    (hproject : project message = some projected) :
    Bad (relayMessage codec options config state direction message handling) := by
  rcases relayMessage_cases hproject with ⟨-, -, final, hended⟩ | ⟨-, final, hended⟩ |
    ⟨-, -, hsent⟩
  · rw [hended]
    exact not_acceptable_of_cause (by decide)
  · rw [hended]
    exact not_acceptable_of_cause (by decide)
  · exact hsent.bad (hbroken.concat _)

end

/-- What an event has to meet: a message that the loop hears has to be storable. -/
def EventStorable (codec : BodyCodec N) (options : WebSocketRecordingOptions)
    (config : RedactionConfig) (state : RelayState) : Event → Prop
  | .received direction (.message message handling) =>
      state.isOpen.get direction = true → ∀ projected, project message = some projected →
        Storable codec options config state direction projected handling
  | .received _ (.failed _) | .received _ .ended | .deadline | .cancelled => True

theorem websocketErrorCause_mem (error : TransportError) :
    websocketErrorCause error ∈ abnormalCauses := by
  cases error <;> decide

theorem relayEnd_good {state : RelayState} (hsound : Sound state)
    (direction : WebSocketDirection) : Good (relayEnd state direction) := by
  have hsame : SameRecord { state with isOpen := state.isOpen.set direction false } state :=
    ⟨rfl, rfl, rfl, rfl⟩
  have hclosed := hsound.congr hsame
  rw [relayEnd]
  dsimp only
  rw [if_neg (by rw [hsound.running]; exact Bool.false_ne_true)]
  split
  · exact hclosed.acceptable (by decide)
  · split
    · exact hclosed.acceptable (by decide)
    · exact hclosed

theorem relayStep_good {state : RelayState} {event : Event} (hsound : Sound state)
    (h : EventStorable codec options config state event) :
    Good (relayStep codec options config state event) := by
  cases event with
  | deadline => exact hsound.acceptable (by decide)
  | cancelled => exact hsound.acceptable (by decide)
  | received direction value =>
      unfold relayStep
      dsimp only
      split
      · exact hsound
      · rename_i hopen
        cases value with
        | message message handling =>
            cases hproject : project message with
            | none =>
                show Good (relayMessage codec options config state direction message handling)
                rw [relayMessage_raw hproject]
                exact hsound
            | some projected =>
                exact relayMessage_good hsound hproject
                  (h (Bool.not_eq_false _ |>.mp hopen) projected hproject)
        | failed error => exact hsound.acceptable (websocketErrorCause_mem error)
        | ended => exact relayEnd_good hsound direction

theorem relayStep_bad {state : RelayState} {event : Event} (hsound : Sound state)
    (h : ¬EventStorable codec options config state event) :
    Bad (relayStep codec options config state event) := by
  cases event with
  | deadline => exact absurd trivial h
  | cancelled => exact absurd trivial h
  | received direction value =>
      cases value with
      | message message handling =>
          simp only [EventStorable, not_forall] at h
          obtain ⟨hopen, projected, hproject, hnot⟩ := h
          unfold relayStep
          dsimp only
          rw [if_neg (by rw [hopen]; decide)]
          exact relayMessage_bad hsound hproject hnot
      | failed error => exact absurd trivial h
      | ended => exact absurd trivial h

theorem relayStep_broken {state : RelayState} (hbroken : Broken state.messages)
    (event : Event) : Bad (relayStep codec options config state event) := by
  cases event with
  | deadline => exact hbroken.not_acceptable _
  | cancelled => exact hbroken.not_acceptable _
  | received direction value =>
      unfold relayStep
      dsimp only
      split
      · exact hbroken
      · cases value with
        | message message handling =>
            cases hproject : project message with
            | none =>
                show Bad (relayMessage codec options config state direction message handling)
                rw [relayMessage_raw hproject]
                exact hbroken
            | some projected => exact relayMessage_broken hbroken hproject
        | failed error => exact hbroken.not_acceptable _
        | ended =>
            show Bad (relayEnd state direction)
            rw [relayEnd]
            dsimp only
            split
            · exact hbroken.not_acceptable _
            · split
              · exact hbroken.not_acceptable _
              · split
                · exact hbroken.not_acceptable _
                · exact hbroken

/-! ### Runs -/

/-- Every event that a loop still running comes to is storable where it stands. -/
def EachStorable (codec : BodyCodec N) (options : WebSocketRecordingOptions)
    (config : RedactionConfig) (state : RelayState) (events : List Event) : Prop :=
  ∀ before event after reached, events = before ++ event :: after →
    runningAfter codec options config state before = some reached →
      EventStorable codec options config reached event

theorem eachStorable_cons {state : RelayState} {event : Event} {rest : List Event} :
    EachStorable codec options config state (event :: rest) ↔
      EventStorable codec options config state event ∧
        ∀ next, relayStep codec options config state event = .running next →
          EachStorable codec options config next rest := by
  constructor
  · intro h
    refine ⟨h [] event rest state rfl rfl, ?_⟩
    rintro next hnext before later after reached rfl hreached
    apply h (event :: before) later after reached rfl
    rw [runningAfter, hnext]
    exact hreached
  · rintro ⟨hevent, hrest⟩ before later after reached hsplit hreached
    cases before with
    | nil =>
        obtain ⟨rfl, rfl⟩ := List.cons.inj hsplit
        obtain rfl := Option.some.inj hreached
        exact hevent
    | cons first before =>
        obtain ⟨rfl, rfl⟩ := List.cons.inj hsplit
        rw [runningAfter] at hreached
        split at hreached
        · rename_i next hnext
          exact hrest next hnext before later after reached rfl hreached
        · cases hreached

theorem not_acceptable_of_broken {state final : RelayState} {terminal : WebSocketTerminal}
    {events : List Event} (hbroken : Broken state.messages)
    (h : relayFrom codec options config state events = some (final, terminal)) :
    ¬Acceptable final.messages terminal := by
  induction events generalizing state with
  | nil => cases h
  | cons event rest ih =>
      have hbad := @relayStep_broken N codec options config state hbroken event
      rw [relayFrom] at h
      split at h
      · rename_i next hnext
        rw [hnext] at hbad
        exact ih hbad h
      · rename_i ended cause hended
        rw [hended] at hbad
        obtain ⟨rfl, rfl⟩ := Prod.mk.inj (Option.some.inj h)
        exact hbad

theorem relayFrom_acceptable_iff {state final : RelayState} {terminal : WebSocketTerminal}
    {events : List Event} (hsound : Sound state)
    (h : relayFrom codec options config state events = some (final, terminal)) :
    Acceptable final.messages terminal ↔ EachStorable codec options config state events := by
  induction events generalizing state with
  | nil => cases h
  | cons event rest ih =>
      rw [eachStorable_cons]
      by_cases hevent : EventStorable codec options config state event
      · have hgood := relayStep_good hsound hevent
        rw [relayFrom] at h
        rcases hstep : relayStep codec options config state event with next | ⟨ended, cause⟩
        · rw [hstep] at h hgood
          rw [ih hgood h]
          constructor
          · intro hrest
            refine ⟨hevent, ?_⟩
            rintro other hother
            obtain rfl := Outcome.running.inj hother
            exact hrest
          · exact fun hall => hall.2 next rfl
        · rw [hstep] at h hgood
          obtain ⟨rfl, rfl⟩ := Prod.mk.inj (Option.some.inj h)
          exact ⟨fun _ => ⟨hevent, fun _ hother => (by cases hother)⟩, fun _ => hgood⟩
      · have hbad := relayStep_bad hsound hevent
        refine ⟨fun hacceptable => ?_, fun hall => absurd hall.1 hevent⟩
        rw [relayFrom] at h
        rcases hstep : relayStep codec options config state event with next | ⟨ended, cause⟩
        · rw [hstep] at h hbad
          exact absurd hacceptable (not_acceptable_of_broken hbad h)
        · rw [hstep] at h hbad
          obtain ⟨rfl, rfl⟩ := Prod.mk.inj (Option.some.inj h)
          exact absurd hacceptable hbad

theorem sound_start : Sound RelayState.start where
  checked := ⟨_, rfl, by
    constructor
    · rfl
    · exact Nat.zero_le _
    · intro direction
      cases direction <;> exact ⟨fun h => (by cases h), fun h => (by cases h)⟩
    · exact List.nodup_nil
    · rfl
    · rfl
    · exact Nat.zero_le _⟩
  running := rfl
  count := Nat.zero_le _

/-- A conversation that the relay produces can be stored exactly where every message it
came to was storable. -/
theorem relayWebsocket_valid_iff (envelope : Envelope) {events : List Event}
    {messages : List WebSocketMessage} {terminal : WebSocketTerminal}
    (h : relayWebsocket codec options config events = some (messages, terminal)) :
    (envelope.wrap messages terminal).validate .default = .ok () ↔
      EachStorable codec options config .start events := by
  obtain ⟨⟨final, cause⟩, hfinal, hsame⟩ := Option.map_eq_some_iff.mp h
  obtain ⟨rfl, rfl⟩ := Prod.mk.inj hsame
  rw [envelope.validate_wrap]
  exact relayFrom_acceptable_iff sound_start hfinal

/-! ### Two runs -/

def sampleEnvelope : Envelope where
  id := "ws"
  flowId := "one"
  offered := []
  selected := none
  id_valid := by decide
  flowId_valid := by decide
  offered_count := by decide
  offered_valid := fun protocol h => (by cases h)
  selected_offered := fun protocol h => (by cases h)

def plainOptions : WebSocketRecordingOptions where
  redactText := false
  redactBinary := false

/-- The digest of the only payload that the runs below store. -/
def letterCodec : BodyCodec Nat :=
  { sampleCodec with
    sha256 := fun _ => "ca978112ca1bbdcafac231b39a23dc4da786eff8147c4e72b9807785afee48bb" }

/-- One text message from the client, then the end of the lifecycle. -/
def oneText (kept : Bool) : List Event :=
  [.received .clientToServer (.message (.text "a")
    { untilCheckedNs := 1, untilRecordedNs := 1, kept := kept, sent := true }), .cancelled]

def oneTextEntry : WebSocketMessage where
  sequence := 0
  direction := .clientToServer
  deltaNs := 2
  kind := .text
  payload := payloadRef letterCodec (utf8 ['a'])
  closeCode := none
  closeReason := none
  redactions := []

theorem oneText_valid_iff :
    (sampleEnvelope.wrap [oneTextEntry] (.abnormal "shutdown")).validate .default = .ok () ↔
      EachStorable letterCodec plainOptions .defaultSecure .start (oneText true) :=
  relayWebsocket_valid_iff sampleEnvelope (by decide)

/-- A payload that cannot be stored ends the relay with a cause outside the vocabulary of
the checks. -/
theorem storage_failure_not_valid :
    ¬∀ (envelope : Envelope) (events : List Event) (messages : List WebSocketMessage)
        (terminal : WebSocketTerminal),
      relayWebsocket letterCodec plainOptions .defaultSecure events = some (messages, terminal) →
      (envelope.wrap messages terminal).validate .default = .ok () := by
  intro h
  have hvalid := h sampleEnvelope (oneText false) [] (.abnormal "storage-error")
    (by decide)
  rw [Envelope.validate_wrap] at hvalid
  exact not_acceptable_of_cause (by decide) hvalid

end EggReplay.Http.RelayTranscripts
