import EggReplay.Core.WebSockets

/-!
What `WebSocketTranscript::validate` accepts, said of the transcript as a whole: the order of
the messages and the close rules of each conversation, the ids and totals of the session, and
the rules about the metadata around them.
-/

namespace EggReplay.Core.ConversationRules

open EggReplay.Library.Checks
open EggReplay.Library.Text
open EggReplay.Core.FlowRecord
open EggReplay.Core.StreamTimeline
open EggReplay.Core.WebSockets

/-- The payload length of a message, nothing for a message without payload. -/
def payloadLength (message : WebSocketMessage) : Nat :=
  (message.payload.bind BodyRef.len).getD 0

def payloadTotal (messages : List WebSocketMessage) : Nat := (messages.map payloadLength).sum

/-! ### The rules -/

/-- The sizes and the close data of one message. -/
structure Bounded (limits : WebSocketLimits) (message : WebSocketMessage) : Prop where
  duration : message.deltaNs ≤ limits.maxDurationNs
  payload : payloadLength message ≤ limits.maxMessageBytes
  control : isControl message.kind = true →
    payloadLength message ≤ min limits.maxControlPayloadBytes 125
  closeOnly : message.kind ≠ .close → message.closeCode = none ∧ message.closeReason = none
  code : ∀ code ∈ message.closeCode, validCloseCode code = true
  reason : ∀ reason ∈ message.closeReason,
    reason.utf8ByteSize ≤ min limits.maxCloseReasonBytes 123 ∧ message.closeCode.isSome = true

/-- A redaction marker that stands on a message of its kind. -/
def MarkerFits (kind : WebSocketMessageKind) : WebSocketRedaction → Prop
  | .jsonPointers pointers =>
      kind = .text ∧ pointers.length ≤ 256 ∧
        ∀ pointer ∈ pointers, pointer.utf8ByteSize ≤ 1024 ∧ startsWith pointer "/" = true
  | .wholeMessage => True
  | .closeReason => kind = .close

/-- The remaining rules about one message: its payload is of a measured kind, a Close has
none, and its redaction markers fit. -/
structure Annotated (message : WebSocketMessage) : Prop where
  measured : ∀ body ∈ message.payload, body.len.isSome = true
  bare : message.kind = .close → message.payload = none
  markers : ∀ marker ∈ message.redactions, MarkerFits message.kind marker

def BothClosed (messages : List WebSocketMessage) : Prop :=
  ∀ direction, ∃ message ∈ messages, message.kind = .close ∧ message.direction = direction

/-- The terminal has the data of a last Close after which both directions are closed. -/
def RepeatsClose (messages : List WebSocketMessage) (terminal : WebSocketTerminal) : Prop :=
  BothClosed messages ∧ ∃ last, messages.getLast? = some last ∧ last.kind = .close ∧
    terminal = .cleanClose last.closeCode last.closeReason

/-- A well-formed conversation within the limits. A direction is silent after its Close, so
that it has one Close at most. -/
structure WellFormed (limits : WebSocketLimits) (conversation : WebSocketConversation) : Prop where
  id : conversation.id ≠ "" ∧ conversation.id.utf8ByteSize ≤ 128
  flowId : conversation.flowId ≠ "" ∧ conversation.flowId.utf8ByteSize ≤ 128
  offered : conversation.offeredSubprotocols.length ≤ limits.maxSubprotocols ∧
    ∀ protocol ∈ conversation.offeredSubprotocols,
      protocol ≠ "" ∧ protocol.utf8ByteSize ≤ limits.maxSubprotocolBytes
  selected : ∀ selected ∈ conversation.selectedSubprotocol,
    selected.utf8ByteSize ≤ limits.maxSubprotocolBytes
  count : conversation.messages.length ≤ limits.maxMessagesPerConversation
  sequences : conversation.messages.map WebSocketMessage.sequence =
    List.range conversation.messages.length
  deltas : (conversation.messages.map WebSocketMessage.deltaNs).Pairwise (· ≤ ·)
  each : ∀ message ∈ conversation.messages, Bounded limits message
  silent : conversation.messages.Pairwise fun earlier later =>
    earlier.kind = .close → later.direction ≠ earlier.direction
  last : ∀ before message after, conversation.messages = before ++ message :: after →
    message.kind = .close → (∃ earlier ∈ before, earlier.kind = .close) → after = []
  clean : (∃ code reason, conversation.terminal = .cleanClose code reason) ↔
    RepeatsClose conversation.messages conversation.terminal
  cause : ∀ cause, conversation.terminal = .abnormal cause → cause ∈ abnormalCauses

/-- The metadata of a conversation follows its rules. -/
structure MetadataFits (conversation : WebSocketConversation) : Prop where
  tokens : ∀ protocol ∈ conversation.offeredSubprotocols,
    protocol.toList.all isTokenByte = true
  selected : ∀ selected ∈ conversation.selectedSubprotocol,
    selected ∈ conversation.offeredSubprotocols
  messages : ∀ message ∈ conversation.messages, Annotated message

/-- Well-formed conversations with distinct ids, and their totals within the limits. The
totals are also bounded by the integers that the code counts in. -/
structure Conversations (limits : WebSocketLimits) (conversations : List WebSocketConversation) :
    Prop where
  count : conversations.length ≤ limits.maxConversations
  each : ∀ conversation ∈ conversations, WellFormed limits conversation
  ids : (conversations.map WebSocketConversation.id).Nodup
  flowIds : (conversations.map WebSocketConversation.flowId).Nodup
  messages : (conversations.map fun conversation => conversation.messages.length).sum ≤
    min limits.maxMessagesPerSession u64Max
  payload : (conversations.map fun conversation => payloadTotal conversation.messages).sum ≤
    min limits.maxTotalPayloadBytes u64Max

/-! ### One message -/

theorem validateRedaction_eq_ok {kind : WebSocketMessageKind} {marker : WebSocketRedaction} :
    validateRedaction kind marker = .ok () ↔ MarkerFits kind marker := by
  cases marker with
  | jsonPointers pointers => exact ensure_eq_ok
  | wholeMessage => exact iff_of_true rfl trivial
  | closeReason => exact ensure_eq_ok

/-- The directions that are closed after the message. -/
def closedAfter (closed : List WebSocketDirection) (message : WebSocketMessage) :
    List WebSocketDirection :=
  if message.kind = .close then message.direction :: closed else closed

/-- The state after an accepted message. -/
def advance (state : MessageState) (message : WebSocketMessage) : MessageState where
  index := state.index + 1
  priorDelta := message.deltaNs
  closeDirections := closedAfter state.closeDirections message
  terminated := decide ((closedAfter state.closeDirections message).length = 2)
  totalPayload := state.totalPayload + payloadLength message

/-- What the loop remembers about closes is consistent. -/
structure Consistent (state : MessageState) : Prop where
  nodup : state.closeDirections.Nodup
  terminated : state.terminated = decide (state.closeDirections.length = 2)

theorem length_eq_two_iff {closed : List WebSocketDirection} (h : closed.Nodup) :
    closed.length = 2 ↔ ∀ direction, direction ∈ closed := by
  have hsubset : closed ⊆ [.clientToServer, .serverToClient] := by
    intro direction _
    cases direction <;> decide
  have hsubperm := List.subperm_of_subset h hsubset
  constructor
  · intro hlength direction
    have hperm := hsubperm.perm_of_length_le (hlength ▸ Nat.le_refl _)
    apply hperm.mem_iff.mpr
    cases direction <;> decide
  · intro hall
    have hle := hsubperm.length_le
    have hge := (List.subperm_of_subset (by decide :
      [WebSocketDirection.clientToServer, .serverToClient].Nodup) fun direction _ =>
        hall direction).length_le
    exact Nat.le_antisymm hle hge

/-- A message in a direction that is still open does not follow the second Close. -/
theorem Consistent.not_terminated {state : MessageState} (h : Consistent state)
    {direction : WebSocketDirection} (hopen : direction ∉ state.closeDirections) :
    state.terminated = false := by
  rw [h.terminated]
  apply decide_eq_false
  intro hlength
  exact hopen ((length_eq_two_iff h.nodup).mp hlength direction)

theorem Consistent.next {state : MessageState} (h : Consistent state)
    {message : WebSocketMessage} (hopen : message.direction ∉ state.closeDirections) :
    Consistent (advance state message) where
  nodup := by
    show (closedAfter state.closeDirections message).Nodup
    rw [closedAfter]
    split
    · exact List.nodup_cons.mpr ⟨hopen, h.nodup⟩
    · exact h.nodup
  terminated := rfl

/-- What a message needs at its place in the conversation. -/
structure Fits (limits : WebSocketLimits) (state : MessageState) (message : WebSocketMessage) :
    Prop where
  sequence : message.sequence = state.index
  delta : 0 < state.index → state.priorDelta ≤ message.deltaNs
  direction : message.direction ∉ state.closeDirections
  bounded : Bounded limits message
  annotated : Annotated message
  total : state.totalPayload + payloadLength message ≤ min limits.maxTotalPayloadBytes u64Max

section
variable {limits : WebSocketLimits} {state next : MessageState} {message : WebSocketMessage}

theorem payloadLength_none (h : message.payload = none) : payloadLength message = 0 := by
  rw [payloadLength, h]
  rfl

theorem payloadLength_some {body : BodyRef} {length : Nat} (h : message.payload = some body)
    (hlen : body.len = some length) : payloadLength message = length := by
  rw [payloadLength, h]
  exact congrArg (Option.getD · 0) hlen

theorem validateMessage_close (hkind : message.kind = .close) :
    validateMessage limits state message = .ok next ↔
      message.sequence = state.index ∧ ¬(0 < state.index ∧ message.deltaNs < state.priorDelta) ∧
      message.deltaNs ≤ limits.maxDurationNs ∧ state.terminated = false ∧
      (state.totalPayload ≤ u64Max ∧ state.totalPayload ≤ limits.maxTotalPayloadBytes) ∧
      message.payload = none ∧ (∀ code ∈ message.closeCode, validCloseCode code = true) ∧
      (∀ reason ∈ message.closeReason,
        reason.utf8ByteSize ≤ min limits.maxCloseReasonBytes 123 ∧
          message.closeCode.isSome = true) ∧
      message.direction ∉ state.closeDirections ∧
      (∀ marker ∈ message.redactions, MarkerFits .close marker) ∧
      MessageState.mk (state.index + 1) message.deltaNs
        (message.direction :: state.closeDirections)
        (decide ((message.direction :: state.closeDirections).length = 2))
        state.totalPayload = next := by
  unfold validateMessage
  rcases hpayload : message.payload with _ | body
  · simp only [hkind, ↓bind_unit_eq_ok, bind_eq_ok, ensure_eq_ok, pure_eq_ok, checkAll_eq_ok,
      validateRedaction_eq_ok, if_true, exists_eq_left', Nat.add_zero, Nat.zero_le, true_and, or_true,
      and_assoc]
  · simp only [hkind, ↓bind_unit_eq_ok, bind_eq_ok, ensure_eq_ok, if_true, reduceCtorEq, false_and, and_false, exists_false]

theorem validateMessage_data (hkind : message.kind ≠ .close) :
    validateMessage limits state message = .ok next ↔
      message.sequence = state.index ∧ ¬(0 < state.index ∧ message.deltaNs < state.priorDelta) ∧
      message.deltaNs ≤ limits.maxDurationNs ∧ state.terminated = false ∧
      message.direction ∉ state.closeDirections ∧ (∀ body ∈ message.payload, body.len.isSome = true) ∧
      payloadLength message ≤ limits.maxMessageBytes ∧
      (state.totalPayload + payloadLength message ≤ u64Max ∧
        state.totalPayload + payloadLength message ≤ limits.maxTotalPayloadBytes) ∧
      (isControl message.kind = false ∨
        payloadLength message ≤ min limits.maxControlPayloadBytes 125) ∧
      (message.closeCode = none ∧ message.closeReason = none) ∧
      (∀ marker ∈ message.redactions, MarkerFits message.kind marker) ∧
      MessageState.mk (state.index + 1) message.deltaNs state.closeDirections state.terminated
        (state.totalPayload + payloadLength message) = next := by
  unfold validateMessage
  rcases hpayload : message.payload with _ | body
  · simp only [hkind, ↓bind_unit_eq_ok, bind_eq_ok, ensure_eq_ok, pure_eq_ok, checkAll_eq_ok,
      validateRedaction_eq_ok, if_false, exists_eq_left', or_false, payloadLength_none hpayload,
      and_assoc, Option.not_mem_none, false_imp_iff, forall_true_iff, true_and]
  · rcases hlen : body.len with _ | length
    · simp only [↓bind_unit_eq_ok, bind_eq_ok, ensure_eq_ok, hlen, orFail_eq_ok, reduceCtorEq,
        false_and, exists_false, and_false, Option.mem_some_iff, forall_eq', Option.isSome_none,
        Bool.false_eq_true]
    · simp only [hkind, ↓bind_unit_eq_ok, bind_eq_ok, ensure_eq_ok, pure_eq_ok, hlen,
        orFail_eq_ok, Option.some.injEq, checkAll_eq_ok, validateRedaction_eq_ok, if_false,
        exists_eq_left', or_false, payloadLength_some hpayload hlen, and_assoc,
        Option.mem_some_iff, forall_eq', Option.isSome_some, true_and]

theorem validateMessage_eq_ok (h : Consistent state) :
    validateMessage limits state message = .ok next ↔
      Fits limits state message ∧ advance state message = next := by
  by_cases hkind : message.kind = .close
  · have hclosed : closedAfter state.closeDirections message =
        message.direction :: state.closeDirections := if_pos hkind
    have hzero (hnone : message.payload = none) :
        state.totalPayload + payloadLength message = state.totalPayload := by
      rw [payloadLength_none hnone, Nat.add_zero]
    rw [validateMessage_close hkind]
    constructor
    · rintro ⟨hsequence, hdelta, hduration, -, hlimit, hnone, hcode, hreason, hopen, hmarkers,
        rfl⟩
      refine ⟨⟨hsequence, fun hpos => Nat.not_lt.mp fun hlt => hdelta ⟨hpos, hlt⟩, hopen,
        ⟨hduration, ?_, fun _ => ?_, fun hother => absurd hkind hother, hcode, hreason⟩,
        ⟨?_, fun _ => hnone, ?_⟩, ?_⟩, ?_⟩
      · rw [payloadLength_none hnone]
        exact Nat.zero_le _
      · rw [payloadLength_none hnone]
        exact Nat.zero_le _
      · rw [hnone]
        exact fun _ hbody => absurd hbody (Option.not_mem_none _)
      · rw [hkind]
        exact hmarkers
      · rw [hzero hnone]
        exact Nat.le_min.mpr hlimit.symm
      · rw [advance, hclosed, hzero hnone]
    · rintro ⟨hfits, rfl⟩
      have hnone := hfits.annotated.bare hkind
      have htotal := hfits.total
      have hmarkers := hfits.annotated.markers
      rw [hzero hnone] at htotal
      rw [hkind] at hmarkers
      refine ⟨hfits.sequence, fun hboth => Nat.not_lt.mpr (hfits.delta hboth.1) hboth.2,
        hfits.bounded.duration, h.not_terminated hfits.direction, (Nat.le_min.mp htotal).symm,
        hnone, hfits.bounded.code, hfits.bounded.reason, hfits.direction, hmarkers, ?_⟩
      rw [advance, hclosed, hzero hnone]
  · have hclosed : closedAfter state.closeDirections message = state.closeDirections :=
      if_neg hkind
    rw [validateMessage_data hkind]
    constructor
    · rintro ⟨hsequence, hdelta, hduration, -, hopen, hmeasured, hpayload, htotal, hcontrol,
        hdata, hmarkers, rfl⟩
      refine ⟨⟨hsequence, fun hpos => Nat.not_lt.mp fun hlt => hdelta ⟨hpos, hlt⟩, hopen,
        ⟨hduration, hpayload, fun hcontrols => hcontrol.resolve_left (hcontrols ▸ Bool.noConfusion),
          fun _ => hdata, ?_, ?_⟩,
        ⟨hmeasured, fun hclose => absurd hclose hkind, hmarkers⟩, Nat.le_min.mpr htotal.symm⟩, ?_⟩
      · rw [hdata.1]
        exact fun _ hcode => absurd hcode (Option.not_mem_none _)
      · rw [hdata.2]
        exact fun _ hreason => absurd hreason (Option.not_mem_none _)
      · rw [advance, hclosed, h.terminated]
    · rintro ⟨hfits, rfl⟩
      refine ⟨hfits.sequence, fun hboth => Nat.not_lt.mpr (hfits.delta hboth.1) hboth.2,
        hfits.bounded.duration, h.not_terminated hfits.direction, hfits.direction,
        hfits.annotated.measured, hfits.bounded.payload, (Nat.le_min.mp hfits.total).symm, ?_,
        hfits.bounded.closeOnly hkind, hfits.annotated.markers, ?_⟩
      · rw [← Bool.not_eq_true, ← imp_iff_not_or]
        exact hfits.bounded.control
      · rw [advance, hclosed, h.terminated]

/-! ### The messages of a conversation -/

/-- What the rest of a conversation needs after the messages that led to the state. -/
structure FitsFrom (limits : WebSocketLimits) (state : MessageState)
    (messages : List WebSocketMessage) : Prop where
  sequences : messages.map WebSocketMessage.sequence = List.range' state.index messages.length
  deltas : (messages.map WebSocketMessage.deltaNs).Pairwise (· ≤ ·)
  later : 0 < state.index → ∀ message ∈ messages, state.priorDelta ≤ message.deltaNs
  each : ∀ message ∈ messages, Bounded limits message
  annotated : ∀ message ∈ messages, Annotated message
  silent : messages.Pairwise fun earlier later =>
    earlier.kind = .close → later.direction ≠ earlier.direction
  directions : ∀ message ∈ messages, message.direction ∉ state.closeDirections
  total : state.totalPayload + payloadTotal messages ≤ min limits.maxTotalPayloadBytes u64Max

theorem payloadTotal_cons (message : WebSocketMessage) (rest : List WebSocketMessage) :
    payloadTotal (message :: rest) = payloadLength message + payloadTotal rest := by
  rw [payloadTotal, payloadTotal, List.map_cons, List.sum_cons]

theorem mem_closedAfter {closed : List WebSocketDirection} {direction : WebSocketDirection} :
    direction ∈ closedAfter closed message ↔
      direction ∈ closed ∨ (message.kind = .close ∧ direction = message.direction) := by
  rw [closedAfter]
  split
  · rename_i hclose
    rw [List.mem_cons, or_comm, and_iff_right hclose]
  · rename_i hother
    rw [or_iff_left fun hboth => hother hboth.1]

theorem fitsFrom_cons {rest : List WebSocketMessage} :
    FitsFrom limits state (message :: rest) ↔
      Fits limits state message ∧ FitsFrom limits (advance state message) rest := by
  have hmem : message ∈ message :: rest := List.mem_cons_self
  have hrest {other : WebSocketMessage} (hother : other ∈ rest) : other ∈ message :: rest :=
    List.mem_cons_of_mem _ hother
  constructor
  · intro h
    obtain ⟨hsequence, hsequences⟩ := List.cons_eq_cons.mp h.sequences
    obtain ⟨hdelta, hdeltas⟩ := List.pairwise_cons.mp h.deltas
    obtain ⟨hclose, hsilent⟩ := List.pairwise_cons.mp h.silent
    have htotal := h.total
    rw [payloadTotal_cons, ← Nat.add_assoc] at htotal
    refine ⟨⟨hsequence, fun hpos => h.later hpos message hmem, h.directions message hmem,
      h.each message hmem, h.annotated message hmem, (Nat.le_add_right _ _).trans htotal⟩,
      ⟨hsequences, hdeltas, fun _ other hother => hdelta _ (List.mem_map_of_mem hother),
        fun other hother => h.each other (hrest hother),
        fun other hother => h.annotated other (hrest hother), hsilent, ?_, htotal⟩⟩
    intro other hother hclosed
    rcases mem_closedAfter.mp hclosed with hclosed | ⟨hkind, hsame⟩
    · exact h.directions other (hrest hother) hclosed
    · exact hclose other hother hkind hsame
  · rintro ⟨hfirst, h⟩
    have htotal := h.total
    rw [advance, Nat.add_assoc, ← payloadTotal_cons] at htotal
    have hafter {other : WebSocketMessage} (hother : other ∈ rest) :
        message.deltaNs ≤ other.deltaNs := h.later (Nat.succ_pos _) other hother
    have hopen {other : WebSocketMessage} (hother : other ∈ rest) :=
      mt mem_closedAfter.mpr (h.directions other hother)
    refine ⟨?_, ?_, ?_, ?_, ?_, ?_, ?_, htotal⟩
    · exact List.cons_eq_cons.mpr ⟨hfirst.sequence, h.sequences⟩
    · refine List.pairwise_cons.mpr ⟨fun delta hdelta => ?_, h.deltas⟩
      obtain ⟨other, hother, rfl⟩ := List.mem_map.mp hdelta
      exact hafter hother
    · intro hpos
      exact List.forall_mem_cons.mpr
        ⟨hfirst.delta hpos, fun other hother => (hfirst.delta hpos).trans (hafter hother)⟩
    · exact List.forall_mem_cons.mpr ⟨hfirst.bounded, h.each⟩
    · exact List.forall_mem_cons.mpr ⟨hfirst.annotated, h.annotated⟩
    · exact List.pairwise_cons.mpr
        ⟨fun other hother hkind hsame => hopen hother (.inr ⟨hkind, hsame⟩), h.silent⟩
    · exact List.forall_mem_cons.mpr
        ⟨hfirst.direction, fun other hother hclosed => hopen hother (.inl hclosed)⟩

/-- The loop over the messages accepts exactly what fits, and its state is that of the fold. -/
theorem checkFold_validateMessage {messages : List WebSocketMessage} {final : MessageState}
    (h : Consistent state)
    (htotal : state.totalPayload ≤ min limits.maxTotalPayloadBytes u64Max) :
    checkFold (validateMessage limits) state messages = .ok final ↔
      FitsFrom limits state messages ∧ messages.foldl advance state = final := by
  induction messages generalizing state with
  | nil =>
      constructor
      · rintro ⟨⟩
        exact ⟨⟨rfl, List.Pairwise.nil, fun _ => List.forall_mem_nil _, List.forall_mem_nil _,
          List.forall_mem_nil _, List.Pairwise.nil, List.forall_mem_nil _, htotal⟩, rfl⟩
      · rintro ⟨-, rfl⟩
        rfl
  | cons message rest ih =>
      rw [checkFold_cons, bind_eq_ok, fitsFrom_cons, List.foldl_cons]
      constructor
      · rintro ⟨next, hnext, hfold⟩
        obtain ⟨hfits, rfl⟩ := (validateMessage_eq_ok h).mp hnext
        obtain ⟨hrest, hfinal⟩ := (ih (h.next hfits.direction) hfits.total).mp hfold
        exact ⟨⟨hfits, hrest⟩, hfinal⟩
      · rintro ⟨⟨hfits, hrest⟩, hfinal⟩
        exact ⟨advance state message, (validateMessage_eq_ok h).mpr ⟨hfits, rfl⟩,
          (ih (h.next hfits.direction) hfits.total).mpr ⟨hrest, hfinal⟩⟩

theorem foldl_advance_totalPayload (messages : List WebSocketMessage) (state : MessageState) :
    (messages.foldl advance state).totalPayload = state.totalPayload + payloadTotal messages := by
  induction messages generalizing state with
  | nil => rfl
  | cons message rest ih =>
      rw [List.foldl_cons, ih, advance, payloadTotal_cons, Nat.add_assoc]

theorem mem_foldl_advance {messages : List WebSocketMessage} {direction : WebSocketDirection} :
    direction ∈ (messages.foldl advance state).closeDirections ↔
      direction ∈ state.closeDirections ∨
        ∃ message ∈ messages, message.kind = .close ∧ message.direction = direction := by
  induction messages generalizing state with
  | nil => simp
  | cons message rest ih =>
      rw [List.foldl_cons, ih, advance, mem_closedAfter, or_assoc, List.exists_mem_cons_iff]
      exact or_congr_right (or_congr_left (and_congr_right fun _ => eq_comm))

theorem Consistent.foldl {messages : List WebSocketMessage} (h : Consistent state)
    (hfits : FitsFrom limits state messages) : Consistent (messages.foldl advance state) := by
  induction messages generalizing state with
  | nil => exact h
  | cons message rest ih =>
      obtain ⟨hfirst, hrest⟩ := fitsFrom_cons.mp hfits
      exact ih (h.next hfirst.direction) hrest

/-! ### A conversation -/

theorem validateTerminal_eq_ok {messages : List WebSocketMessage}
    {closed : List WebSocketDirection} {terminal : WebSocketTerminal} (hnodup : closed.Nodup)
    (hclosed : ∀ direction, direction ∈ closed ↔
      ∃ message ∈ messages, message.kind = .close ∧ message.direction = direction)
    (heach : ∀ message ∈ messages, Bounded limits message) :
    validateTerminal limits messages closed terminal = .ok () ↔
      ((∃ code reason, terminal = .cleanClose code reason) ↔ RepeatsClose messages terminal) ∧
        ∀ cause, terminal = .abnormal cause → cause ∈ abnormalCauses := by
  have hboth : closed.length = 2 ↔ BothClosed messages := by
    rw [length_eq_two_iff hnodup]
    exact forall_congr' hclosed
  cases terminal with
  | cleanClose code reason =>
      simp only [validateTerminal, ↓bind_unit_eq_ok, bind_eq_ok, ensure_eq_ok, orFail_eq_ok, hboth,
        exists_const]
      constructor
      · rintro ⟨hboth, last, hlast, ⟨hkind, rfl, rfl⟩, -⟩
        exact ⟨iff_of_true ⟨_, _, rfl⟩ ⟨hboth, last, hlast, hkind, rfl⟩, by rintro _ ⟨⟩⟩
      · rintro ⟨hclean, -⟩
        obtain ⟨hboth, last, hlast, hkind, heq⟩ := hclean.mp ⟨code, reason, rfl⟩
        obtain ⟨rfl, rfl⟩ := WebSocketTerminal.cleanClose.inj heq
        have hbounded := heach last (List.mem_of_getLast? hlast)
        exact ⟨hboth, last, hlast, ⟨hkind, rfl, rfl⟩, hbounded.code, hbounded.reason⟩
  | abnormal cause =>
      rw [validateTerminal, ensure_eq_ok]
      constructor
      · intro hcause
        refine ⟨iff_of_false ?_ ?_, ?_⟩
        · rintro ⟨_, _, ⟨⟩⟩
        · rintro ⟨-, _, -, -, ⟨⟩⟩
        · rintro _ ⟨⟩
          exact hcause
      · exact fun h => h.2 cause rfl

/-- There is no third direction that could follow the second Close. -/
theorem nothing_follows {messages : List WebSocketMessage}
    (h : messages.Pairwise fun earlier later =>
      earlier.kind = .close → later.direction ≠ earlier.direction)
    {before after : List WebSocketMessage} (hsplit : messages = before ++ message :: after)
    (hkind : message.kind = .close) (hearlier : ∃ earlier ∈ before, earlier.kind = .close) :
    after = [] := by
  obtain ⟨earlier, hmem, hclose⟩ := hearlier
  rw [hsplit] at h
  obtain ⟨-, hrest, hacross⟩ := List.pairwise_append.mp h
  rcases after with _ | ⟨later, more⟩
  · rfl
  · have hfirst := hacross earlier hmem message List.mem_cons_self hclose
    have hsecond := hacross earlier hmem later (List.mem_cons_of_mem _ List.mem_cons_self) hclose
    have hthird := (List.pairwise_cons.mp hrest).1 later List.mem_cons_self hkind
    cases hone : earlier.direction <;> cases htwo : message.direction <;>
      cases hthree : later.direction <;> simp_all

/-- The state after an accepted conversation. -/
def enter (state : TranscriptState) (conversation : WebSocketConversation) : TranscriptState where
  ids := conversation.id :: state.ids
  flowIds := conversation.flowId :: state.flowIds
  totalMessages := state.totalMessages + conversation.messages.length
  totalPayload := state.totalPayload + payloadTotal conversation.messages

/-- What a conversation needs at its place in the transcript. -/
structure Joins (limits : WebSocketLimits) (state : TranscriptState)
    (conversation : WebSocketConversation) : Prop where
  wellFormed : WellFormed limits conversation
  metadata : MetadataFits conversation
  id : conversation.id ∉ state.ids
  flowId : conversation.flowId ∉ state.flowIds
  messages : state.totalMessages + conversation.messages.length ≤
    min limits.maxMessagesPerSession u64Max
  payload : state.totalPayload + payloadTotal conversation.messages ≤
    min limits.maxTotalPayloadBytes u64Max

theorem validateConversation_eq_ok {state next : TranscriptState}
    {conversation : WebSocketConversation}
    (htotal : state.totalPayload ≤ min limits.maxTotalPayloadBytes u64Max) :
    validateConversation limits state conversation = .ok next ↔
      Joins limits state conversation ∧ enter state conversation = next := by
  have hstart : Consistent { totalPayload := state.totalPayload } := ⟨List.nodup_nil, rfl⟩
  simp only [validateConversation, ↓bind_unit_eq_ok, bind_eq_ok, ensure_eq_ok, pure_eq_ok,
    checkFold_validateMessage hstart htotal, exists_const]
  constructor
  · rintro ⟨hid, hflowId, hnew, hnewFlow, hoffered, hprotocols, hselected, hcount, hwide, hmessages,
      final, ⟨hfits, rfl⟩, hterminal, rfl⟩
    have hconsistent := hstart.foldl hfits
    have hclosed (direction) := @mem_foldl_advance { totalPayload := state.totalPayload }
      conversation.messages direction
    simp only [List.not_mem_nil, false_or] at hclosed
    obtain ⟨hclean, hcause⟩ :=
      (validateTerminal_eq_ok hconsistent.nodup hclosed hfits.each).mp hterminal
    refine ⟨⟨⟨hid, hflowId, ⟨hoffered, fun protocol hmem =>
        ⟨(hprotocols protocol hmem).1, (hprotocols protocol hmem).2.1⟩⟩,
        fun selected hmem => (hselected selected hmem).2, hcount,
        hfits.sequences.trans List.range_eq_range'.symm, hfits.deltas, hfits.each, hfits.silent,
        fun _ _ _ => nothing_follows hfits.silent, hclean, hcause⟩,
      ⟨fun protocol hmem => (hprotocols protocol hmem).2.2,
        fun selected hmem => (hselected selected hmem).1, hfits.annotated⟩,
      hnew, hnewFlow, Nat.le_min.mpr ⟨hmessages, hwide⟩, hfits.total⟩, ?_⟩
    rw [enter, foldl_advance_totalPayload]
  · rintro ⟨⟨hwell, hmetadata, hnew, hnewFlow, hmessages, hpayload⟩, rfl⟩
    have hfits : FitsFrom limits { totalPayload := state.totalPayload } conversation.messages :=
      ⟨hwell.sequences.trans List.range_eq_range', hwell.deltas, fun hpos => absurd hpos
        (Nat.lt_irrefl 0), hwell.each, hmetadata.messages, hwell.silent,
        fun _ _ => List.not_mem_nil, hpayload⟩
    have hconsistent := hstart.foldl hfits
    have hclosed (direction) := @mem_foldl_advance { totalPayload := state.totalPayload }
      conversation.messages direction
    simp only [List.not_mem_nil, false_or] at hclosed
    obtain ⟨hlimit, hwide⟩ := Nat.le_min.mp hmessages
    refine ⟨hwell.id, hwell.flowId, hnew, hnewFlow, hwell.offered.1, fun protocol hmem =>
      ⟨(hwell.offered.2 protocol hmem).1, (hwell.offered.2 protocol hmem).2,
        hmetadata.tokens protocol hmem⟩,
      fun selected hmem => ⟨hmetadata.selected selected hmem, hwell.selected selected hmem⟩,
      hwell.count, hwide, hlimit, _, ⟨hfits, rfl⟩,
      (validateTerminal_eq_ok hconsistent.nodup hclosed hfits.each).mpr
        ⟨hwell.clean, hwell.cause⟩, ?_⟩
    rw [enter, foldl_advance_totalPayload]

/-! ### The transcript -/

/-- What the remaining conversations need after those that led to the state. -/
structure JoinsFrom (limits : WebSocketLimits) (state : TranscriptState)
    (conversations : List WebSocketConversation) : Prop where
  each : ∀ conversation ∈ conversations, WellFormed limits conversation
  metadata : ∀ conversation ∈ conversations, MetadataFits conversation
  ids : (conversations.map WebSocketConversation.id).Nodup
  newIds : ∀ conversation ∈ conversations, conversation.id ∉ state.ids
  flowIds : (conversations.map WebSocketConversation.flowId).Nodup
  newFlowIds : ∀ conversation ∈ conversations, conversation.flowId ∉ state.flowIds
  messages : state.totalMessages +
      (conversations.map fun conversation => conversation.messages.length).sum ≤
    min limits.maxMessagesPerSession u64Max
  payload : state.totalPayload +
      (conversations.map fun conversation => payloadTotal conversation.messages).sum ≤
    min limits.maxTotalPayloadBytes u64Max

theorem joinsFrom_cons {state : TranscriptState} {conversation : WebSocketConversation}
    {rest : List WebSocketConversation} :
    JoinsFrom limits state (conversation :: rest) ↔
      Joins limits state conversation ∧ JoinsFrom limits (enter state conversation) rest := by
  have hmem : conversation ∈ conversation :: rest := List.mem_cons_self
  have hrest {other : WebSocketConversation} (hother : other ∈ rest) :
      other ∈ conversation :: rest := List.mem_cons_of_mem _ hother
  constructor
  · intro h
    obtain ⟨hid, hids⟩ := List.nodup_cons.mp h.ids
    obtain ⟨hflowId, hflowIds⟩ := List.nodup_cons.mp h.flowIds
    have hmessages := h.messages
    have hpayload := h.payload
    rw [List.map_cons, List.sum_cons, ← Nat.add_assoc] at hmessages hpayload
    refine ⟨⟨h.each _ hmem, h.metadata _ hmem, h.newIds _ hmem, h.newFlowIds _ hmem,
      (Nat.le_add_right _ _).trans hmessages, (Nat.le_add_right _ _).trans hpayload⟩,
      ⟨fun other hother => h.each other (hrest hother),
        fun other hother => h.metadata other (hrest hother), hids, fun other hother => ?_,
        hflowIds, fun other hother => ?_, hmessages, hpayload⟩⟩
    · refine List.not_mem_cons_of_ne_of_not_mem (fun hsame => hid ?_) (h.newIds other (hrest hother))
      exact hsame ▸ List.mem_map_of_mem hother
    · refine List.not_mem_cons_of_ne_of_not_mem (fun hsame => hflowId ?_)
        (h.newFlowIds other (hrest hother))
      exact hsame ▸ List.mem_map_of_mem hother
  · rintro ⟨hfirst, h⟩
    have hmessages := h.messages
    have hpayload := h.payload
    rw [enter, Nat.add_assoc] at hmessages hpayload
    refine ⟨List.forall_mem_cons.mpr ⟨hfirst.wellFormed, h.each⟩,
      List.forall_mem_cons.mpr ⟨hfirst.metadata, h.metadata⟩,
      List.nodup_cons.mpr ⟨?_, h.ids⟩,
      List.forall_mem_cons.mpr ⟨hfirst.id, fun other hother =>
        List.not_mem_of_not_mem_cons (h.newIds other hother)⟩,
      List.nodup_cons.mpr ⟨?_, h.flowIds⟩,
      List.forall_mem_cons.mpr ⟨hfirst.flowId, fun other hother =>
        List.not_mem_of_not_mem_cons (h.newFlowIds other hother)⟩, ?_, ?_⟩
    · intro hsame
      obtain ⟨other, hother, heq⟩ := List.mem_map.mp hsame
      exact List.ne_of_not_mem_cons (h.newIds other hother) heq
    · intro hsame
      obtain ⟨other, hother, heq⟩ := List.mem_map.mp hsame
      exact List.ne_of_not_mem_cons (h.newFlowIds other hother) heq
    · rw [List.map_cons, List.sum_cons]
      exact hmessages
    · rw [List.map_cons, List.sum_cons]
      exact hpayload

/-- The loop over the conversations accepts exactly what joins. -/
theorem checkFold_validateConversation {conversations : List WebSocketConversation}
    {state : TranscriptState}
    (hmessages : state.totalMessages ≤ min limits.maxMessagesPerSession u64Max)
    (hpayload : state.totalPayload ≤ min limits.maxTotalPayloadBytes u64Max) :
    (∃ final, checkFold (validateConversation limits) state conversations = .ok final) ↔
      JoinsFrom limits state conversations := by
  induction conversations generalizing state with
  | nil =>
      exact iff_of_true ⟨state, rfl⟩ ⟨List.forall_mem_nil _, List.forall_mem_nil _,
        List.nodup_nil, List.forall_mem_nil _, List.nodup_nil, List.forall_mem_nil _, hmessages,
        hpayload⟩
  | cons conversation rest ih =>
      simp only [checkFold_cons, bind_eq_ok, validateConversation_eq_ok hpayload, joinsFrom_cons]
      constructor
      · rintro ⟨final, next, ⟨hjoins, rfl⟩, hrest⟩
        exact ⟨hjoins, (ih hjoins.messages hjoins.payload).mp ⟨final, hrest⟩⟩
      · rintro ⟨hjoins, hrest⟩
        obtain ⟨final, hfinal⟩ := (ih hjoins.messages hjoins.payload).mpr hrest
        exact ⟨final, _, ⟨hjoins, rfl⟩, hfinal⟩

end

theorem joinsFrom_start {limits : WebSocketLimits} {conversations : List WebSocketConversation} :
    conversations.length ≤ limits.maxConversations ∧ JoinsFrom limits {} conversations ↔
      Conversations limits conversations ∧
        ∀ conversation ∈ conversations, MetadataFits conversation := by
  constructor
  · rintro ⟨hcount, h⟩
    have hmessages := h.messages
    have hpayload := h.payload
    rw [Nat.zero_add] at hmessages hpayload
    exact ⟨⟨hcount, h.each, h.ids, h.flowIds, hmessages, hpayload⟩, h.metadata⟩
  · rintro ⟨h, hmetadata⟩
    exact ⟨h.count, h.each, hmetadata, h.ids, fun _ _ => List.not_mem_nil, h.flowIds,
      fun _ _ => List.not_mem_nil, (Nat.zero_add _).trans_le h.messages,
      (Nat.zero_add _).trans_le h.payload⟩

/-- A transcript is accepted under some limits exactly when its conversations are well formed
within them and the schema and the metadata are those of the current version. -/
theorem accepted_iff_wellFormed (limits : WebSocketLimits) (transcript : WebSocketTranscript) :
    transcript.validate limits = .ok () ↔
      Conversations limits transcript.conversations ∧
        transcript.schemaVersion = websocketSchemaVersion ∧
        ∀ conversation ∈ transcript.conversations, MetadataFits conversation := by
  rw [transcript_validate_eq_ok,
    checkFold_validateConversation (Nat.zero_le _) (Nat.zero_le _), joinsFrom_start,
    and_left_comm]

/-- A conversation without messages, for which a subprotocol with a space in its name was
offered. -/
def spacedTranscript : WebSocketTranscript where
  schemaVersion := websocketSchemaVersion
  conversations :=
    [{ id := "one", flowId := "flow", offeredSubprotocols := ["a b"], selectedSubprotocol := none,
       messages := [], terminal := .abnormal "eof" }]

/-- Well-formed conversations within the limits are not enough. -/
theorem spacedTranscript_rejected :
    ¬ ∀ (limits : WebSocketLimits) (transcript : WebSocketTranscript),
      transcript.validate limits = .ok () ↔ Conversations limits transcript.conversations := by
  intro h
  have hrejected : spacedTranscript.validate .default ≠ .ok () := by decide
  apply hrejected
  rw [h]
  refine ⟨by decide, List.forall_mem_singleton.mpr ⟨by decide, by decide,
    by decide, ?_, Nat.zero_le _, rfl, List.Pairwise.nil, List.forall_mem_nil _,
    List.Pairwise.nil, ?_, ?_, ?_⟩, List.nodup_singleton _, List.nodup_singleton _,
    Nat.zero_le _, Nat.zero_le _⟩
  · rintro _ ⟨⟩
  · intro before message after hsplit
    exact absurd hsplit.symm (List.append_ne_nil_of_right_ne_nil _ (List.cons_ne_nil _ _))
  · refine iff_of_false ?_ ?_
    · rintro ⟨_, _, ⟨⟩⟩
    · rintro ⟨-, _, -, -, ⟨⟩⟩
  · rintro _ ⟨⟩
    decide

end EggReplay.Core.ConversationRules
