import EggReplay.Core.ConversationRules
import EggReplay.Library.JsonLengths
import EggReplay.Store.SessionRuns

/-!
The running totals of `append_websocket_conversation` against the validation of the whole
transcript: what is admitted one by one is accepted together.
-/

namespace EggReplay.Store.ConversationAdmission

open EggReplay.Library.Checks
open EggReplay.Library.Text
open EggReplay.Library.JsonText
open EggReplay.Library.JsonLengths
open EggReplay.Core.FlowRecord
open EggReplay.Core.StreamTimeline
open EggReplay.Core.WebSockets
open EggReplay.Core.ConversationRules
open EggReplay.Store.Fixture
open EggReplay.Store.SessionOpen
open EggReplay.Store.Staging
open EggReplay.Store.Writer
open EggReplay.Store.Recording
open EggReplay.Store.SessionRuns

/-- An accumulation with the conversations that were accepted into it. -/
structure Admission where
  accumulation : WebSocketAccumulation := {}
  accepted : List WebSocketConversation := []

def Admission.offer (admission : Admission) (conversation : WebSocketConversation) : Admission :=
  settle (appendWebsocketConversation admission.accumulation conversation) admission
    fun accumulation => { accumulation, accepted := admission.accepted ++ [conversation] }

def offerAll (offers : List WebSocketConversation) : Admission :=
  offers.foldl Admission.offer {}

/-- What every conversation adds to the byte estimate, its separator included. -/
def encodedSizes (conversations : List WebSocketConversation) : List Nat :=
  conversations.map fun conversation => conversation.encode.length

/-- The totals are those of the accepted conversations, each of which is valid. -/
structure Admitted (admission : Admission) : Prop where
  conversations : admission.accumulation.conversations = admission.accepted
  count : admission.accepted.length ≤ WebSocketLimits.default.maxConversations
  each : ∀ conversation ∈ admission.accepted, WellFormed .default conversation
  metadata : ∀ conversation ∈ admission.accepted, MetadataFits conversation
  ids : (admission.accepted.map WebSocketConversation.id).Nodup
  flowIds : (admission.accepted.map WebSocketConversation.flowId).Nodup
  messages : admission.accumulation.messages =
    (admission.accepted.map fun conversation => conversation.messages.length).sum
  messageBound : admission.accumulation.messages ≤
    WebSocketLimits.default.maxMessagesPerSession
  payload : admission.accumulation.payloadBytes =
    (admission.accepted.map fun conversation => payloadTotal conversation.messages).sum
  payloadBound : admission.accumulation.payloadBytes ≤
    WebSocketLimits.default.maxTotalPayloadBytes
  encoded : admission.accumulation.encodedBytes =
    ((encodedSizes admission.accepted).map (· + 1)).sum
  encodedBound : admission.accumulation.encodedBytes + 64 ≤ maxExtensionBytes

theorem admitted_start : Admitted {} where
  conversations := rfl
  count := Nat.zero_le _
  each := List.forall_mem_nil _
  metadata := List.forall_mem_nil _
  ids := List.nodup_nil
  flowIds := List.nodup_nil
  messages := rfl
  messageBound := Nat.zero_le _
  payload := rfl
  payloadBound := Nat.zero_le _
  encoded := rfl
  encodedBound := by decide

/-! ### One offer -/

theorem conversationPayload_eq (conversation : WebSocketConversation) :
    conversationPayload conversation = payloadTotal conversation.messages := by
  rw [conversationPayload, payloadTotal]
  induction conversation.messages with
  | nil => rfl
  | cons message rest ih =>
      rw [List.filterMap_cons, List.map_cons, List.sum_cons, ← ih, payloadLength]
      rcases message.payload.bind BodyRef.len with _ | length
      · exact (Nat.zero_add _).symm
      · rfl

theorem sum_map_append_one {α : Type} (f : α → Nat) (items : List α) (item : α) :
    ((items ++ [item]).map f).sum = (items.map f).sum + f item := by
  rw [List.map_append, List.sum_append, List.map_singleton, List.sum_singleton]

/-- What an accepted offer has passed. -/
structure Passes (accumulation : WebSocketAccumulation) (conversation : WebSocketConversation) :
    Prop where
  count : accumulation.conversations.length < WebSocketLimits.default.maxConversations
  fresh : ∀ existing ∈ accumulation.conversations,
    existing.id ≠ conversation.id ∧ existing.flowId ≠ conversation.flowId
  wellFormed : WellFormed .default conversation
  metadata : MetadataFits conversation
  messages : accumulation.messages + conversation.messages.length ≤
    WebSocketLimits.default.maxMessagesPerSession
  payload : accumulation.payloadBytes + payloadTotal conversation.messages ≤
    WebSocketLimits.default.maxTotalPayloadBytes
  encoded : accumulation.encodedBytes + (conversation.encode.length + 1) + 64 ≤ maxExtensionBytes

theorem single_eq_ok {conversation : WebSocketConversation}
    (h : (WebSocketTranscript.mk websocketSchemaVersion [conversation]).validate .default =
      .ok ()) : WellFormed .default conversation ∧ MetadataFits conversation := by
  rw [transcript_validate_eq_ok,
    checkFold_validateConversation (Nat.zero_le _) (Nat.zero_le _)] at h
  obtain ⟨-, -, hjoins⟩ := h
  exact ⟨hjoins.each _ List.mem_cons_self, hjoins.metadata _ List.mem_cons_self⟩

theorem appendWebsocketConversation_eq_ok {accumulation next : WebSocketAccumulation}
    {conversation : WebSocketConversation}
    (h : appendWebsocketConversation accumulation conversation = .ok next) :
    Passes accumulation conversation ∧
      next =
        { conversations := accumulation.conversations ++ [conversation],
          messages := accumulation.messages + conversation.messages.length,
          payloadBytes := accumulation.payloadBytes + payloadTotal conversation.messages,
          encodedBytes := accumulation.encodedBytes + (conversation.encode.length + 1) } := by
  simp only [appendWebsocketConversation, ↓bind_unit_eq_ok, ensure_eq_ok, mapError_eq_ok,
    pure_eq_ok, conversationPayload_eq] at h
  obtain ⟨hcount, hfresh, hsingle, -, hmessages, -, -, hpayload, -, hencoded, rfl⟩ := h
  obtain ⟨hwell, hmetadata⟩ := single_eq_ok hsingle
  refine ⟨⟨hcount, hfresh, hwell, hmetadata, hmessages, hpayload, ?_⟩, rfl⟩
  have hbound : maxExtensionBytes < u64Max := by decide
  rw [saturatingAdd] at hencoded
  omega

theorem nodup_map_append_one {α β : Type} {f : α → β} {items : List α} {item : α}
    (h : (items.map f).Nodup) (hnew : ∀ existing ∈ items, f existing ≠ f item) :
    ((items ++ [item]).map f).Nodup := by
  rw [List.map_append, List.map_singleton]
  refine List.nodup_append.mpr ⟨h, List.nodup_singleton _, ?_⟩
  rintro _ hmem _ hlast
  obtain ⟨existing, hexisting, rfl⟩ := List.mem_map.mp hmem
  rw [List.mem_singleton.mp hlast]
  exact hnew existing hexisting

theorem Admitted.offer {admission : Admission} (h : Admitted admission)
    (conversation : WebSocketConversation) : Admitted (admission.offer conversation) := by
  refine settle_induction h fun next hnext => ?_
  obtain ⟨hpasses, rfl⟩ := appendWebsocketConversation_eq_ok hnext
  have hfresh := hpasses.fresh
  have hcount := hpasses.count
  rw [h.conversations] at hfresh hcount
  constructor
  · exact congrArg (· ++ [conversation]) h.conversations
  · show (admission.accepted ++ [conversation]).length ≤ _
    rw [List.length_append, List.length_singleton]
    exact hcount
  · exact List.forall_mem_append.mpr ⟨h.each, List.forall_mem_singleton.mpr hpasses.wellFormed⟩
  · exact List.forall_mem_append.mpr ⟨h.metadata, List.forall_mem_singleton.mpr hpasses.metadata⟩
  · exact nodup_map_append_one h.ids fun existing hmem => (hfresh existing hmem).1
  · exact nodup_map_append_one h.flowIds fun existing hmem => (hfresh existing hmem).2
  · show _ + _ = _
    rw [sum_map_append_one, h.messages]
  · exact hpasses.messages
  · show _ + _ = _
    rw [sum_map_append_one, h.payload]
  · exact hpasses.payload
  · show _ + _ = _
    rw [h.encoded, encodedSizes, encodedSizes, List.map_append, List.map_singleton,
      sum_map_append_one]
  · exact hpasses.encoded

theorem admitted_offerAll (offers : List WebSocketConversation) : Admitted (offerAll offers) :=
  List.foldlRecOn offers _ admitted_start fun _ h conversation _ => h.offer conversation

/-! ### The transcript of the accepted conversations -/

def transcriptOf (accepted : List WebSocketConversation) : WebSocketTranscript where
  schemaVersion := websocketSchemaVersion
  conversations := accepted

/-- The wrapper takes 39 bytes, and commas join the conversations. -/
theorem length_encode_transcript (accepted : List WebSocketConversation) :
    (transcriptOf accepted).encode.length = 39 + joinedLength (encodedSizes accepted) := by
  have hwrapper : (encode (.object [("schema_version", .number websocketSchemaVersion),
      ("conversations", .array [])])).length = 39 := by decide
  have hlength := length_encode_listed "schema_version" "conversations"
    (.number websocketSchemaVersion) (accepted.map WebSocketConversation.toJson)
  rw [List.map_map, hwrapper] at hlength
  exact hlength

theorem Admitted.encode_le {admission : Admission} (h : Admitted admission) :
    (transcriptOf admission.accepted).encode.length ≤ maxExtensionBytes := by
  have hjoined := joinedLength_le (encodedSizes admission.accepted)
  have hbound := h.encodedBound
  rw [h.encoded] at hbound
  rw [length_encode_transcript]
  omega

theorem Admitted.validate {admission : Admission} (h : Admitted admission) :
    (transcriptOf admission.accepted).validate .default = .ok () := by
  have hmessages := h.messageBound
  have hpayload := h.payloadBound
  rw [h.messages] at hmessages
  rw [h.payload] at hpayload
  rw [transcript_validate_eq_ok,
    checkFold_validateConversation (Nat.zero_le _) (Nat.zero_le _), joinsFrom_start]
  refine ⟨rfl, ⟨h.count, h.each, h.ids, h.flowIds, ?_, ?_⟩, h.metadata⟩
  · exact Nat.le_min.mpr ⟨hmessages, hmessages.trans (by decide)⟩
  · exact Nat.le_min.mpr ⟨hpayload, hpayload.trans (by decide)⟩

theorem Admitted.websocketTranscript {admission : Admission} (h : Admitted admission) :
    websocketTranscript admission.accumulation = .ok (transcriptOf admission.accepted) := by
  rw [Staging.websocketTranscript, h.conversations]
  show ((transcriptOf admission.accepted).validate _).mapError _ >>= _ = _
  rw [h.validate]
  show ensure ((transcriptOf admission.accepted).encode.length ≤ _) _ >>= _ = _
  rw [ensure_of_true h.encode_le]
  rfl

/-! ### Runs of the writers -/

/-- The conversations that a sequence of operations offers. -/
def offersOf (operations : List Operation) : List WebSocketConversation :=
  operations.filterMap fun operation =>
    match operation with
    | .appendWebsocketConversation conversation => some conversation
    | _ => none

/-- What an operation makes of the accumulation. -/
def accumulate (accumulation : WebSocketAccumulation) : Operation → WebSocketAccumulation
  | .appendWebsocketConversation conversation =>
      settle (appendWebsocketConversation accumulation conversation) accumulation id
  | _ => accumulation

theorem settle_websocket {σ ε α : Type} (websocket : σ → WebSocketAccumulation)
    {result : Except ε α} {unchanged : σ} {accept : α → σ}
    (h : ∀ a, result = .ok a → websocket (accept a) = websocket unchanged) :
    websocket (settle result unchanged accept) = websocket unchanged :=
  settle_induction (P := fun next => websocket next = websocket unchanged) rfl h

theorem writeExtension_websocket {staged next : Staged} {extension : ExtensionDescriptor}
    {bytes : Bytes} (h : staged.writeExtension extension bytes = .ok next) :
    next.websocket = staged.websocket := by
  simp only [Staged.writeExtension, bind_eq_ok, pure_eq_ok] at h
  obtain ⟨_, -, rfl⟩ := h
  rfl

theorem reserveStreamEvents_websocket {staged next : Staged} {events : FlowStreamEvents}
    (h : staged.reserveStreamEvents events = .ok next) : next.websocket = staged.websocket := by
  simp only [Staged.reserveStreamEvents, bind_eq_ok, pure_eq_ok] at h
  obtain ⟨_, -, _, -, rfl⟩ := h
  rfl

theorem writer_step_websocket (codec : Codec) (run : WriterRun) (operation : Operation) :
    (run.step codec operation).writer.websocket =
      accumulate run.writer.websocket operation := by
  rcases operation with _ | ⟨suffix, buffer⟩ | suffix | suffix | flow | events | conversation |
    ⟨extension, bytes⟩
  · rfl
  · simp only [WriterRun.step, accumulate]
    rcases findBody run.bodies suffix with _ | body
    · rfl
    · exact settle_websocket (fun run : WriterRun => run.writer.websocket)
        fun _ _ => rfl
  · simp only [WriterRun.step, accumulate]
    rcases findBody run.bodies suffix with _ | body
    · rfl
    · rfl
  · simp only [WriterRun.step, accumulate]
    rcases findBody run.bodies suffix with _ | body
    · rfl
    · rfl
  · refine settle_websocket (fun run : WriterRun => run.writer.websocket)
      fun writer hwriter => ?_
    obtain ⟨-, rfl⟩ := appendFlow_appendable hwriter
    rfl
  · refine settle_websocket (fun run : WriterRun => run.writer.websocket)
      fun writer hwriter => ?_
    simp only [SessionWriter.appendStreamEvents, bind_eq_ok, pure_eq_ok] at hwriter
    obtain ⟨_, -, _, -, staged, hstaged, rfl⟩ := hwriter
    exact reserveStreamEvents_websocket hstaged
  · simp only [WriterRun.step, accumulate, SessionWriter.appendWebsocketConversation]
    rcases appendWebsocketConversation run.writer.websocket conversation with error | next
    · rfl
    · rfl
  · refine settle_websocket (fun run : WriterRun => run.writer.websocket)
      fun writer hwriter => ?_
    simp only [SessionWriter.writeExtension, bind_eq_ok, pure_eq_ok] at hwriter
    obtain ⟨staged, hstaged, rfl⟩ := hwriter
    exact writeExtension_websocket hstaged

theorem settle_recording {ε α : Type} {result : Except ε α} {run : RecordingRun}
    {accept : α → RecordingRun} (hrunning : run.inner.shutdown = false)
    (h : ∀ a, result = .ok a →
      (accept a).inner.websocket = run.inner.websocket ∧ (accept a).inner.shutdown = false) :
    (settle result run accept).inner.websocket = run.inner.websocket ∧
      (settle result run accept).inner.shutdown = false :=
  settle_induction (P := fun next : RecordingRun =>
    next.inner.websocket = run.inner.websocket ∧ next.inner.shutdown = false) ⟨rfl, hrunning⟩ h

theorem recording_step_websocket (codec : Codec) (run : RecordingRun) (operation : Operation)
    (hrunning : run.inner.shutdown = false) :
    (run.step codec operation).inner.websocket = accumulate run.inner.websocket operation ∧
      (run.step codec operation).inner.shutdown = false := by
  rcases operation with _ | ⟨suffix, buffer⟩ | suffix | suffix | flow | events | conversation |
    ⟨extension, bytes⟩
  · refine settle_recording hrunning fun begun hbegun => ?_
    simp only [RecordingInner.beginBlob, bind_eq_ok, pure_eq_ok] at hbegun
    obtain ⟨_, -, rfl⟩ := hbegun
    exact ⟨rfl, hrunning⟩
  · simp only [RecordingRun.step, accumulate]
    rcases findBody run.bodies suffix with _ | body
    · exact ⟨rfl, hrunning⟩
    · refine settle_recording hrunning fun written hwritten => ?_
      simp only [RecordingInner.writeBody, bind_eq_ok, pure_eq_ok] at hwritten
      obtain ⟨_, -, rfl⟩ := hwritten
      exact ⟨rfl, hrunning⟩
  · simp only [RecordingRun.step, accumulate]
    rcases findBody run.bodies suffix with _ | body
    · exact ⟨rfl, hrunning⟩
    · exact ⟨rfl, hrunning⟩
  · simp only [RecordingRun.step, accumulate]
    rcases findBody run.bodies suffix with _ | body
    · exact ⟨rfl, hrunning⟩
    · exact ⟨rfl, hrunning⟩
  · refine settle_recording hrunning fun inner hinner => ?_
    obtain ⟨-, rfl⟩ := recording_appendFlow_appendable hinner
    exact ⟨rfl, hrunning⟩
  · refine settle_recording hrunning fun inner hinner => ?_
    simp only [RecordingInner.appendStreamEvents, bind_eq_ok, pure_eq_ok] at hinner
    obtain ⟨_, -, _, -, _, -, _, -, staged, hstaged, rfl⟩ := hinner
    exact ⟨reserveStreamEvents_websocket hstaged, hrunning⟩
  · simp only [RecordingRun.step, accumulate, RecordingInner.appendWebsocketConversation,
      RecordingInner.checkRunning, ensure_of_true hrunning, ok_bind]
    rcases appendWebsocketConversation run.inner.websocket conversation with error | next
    · exact ⟨rfl, hrunning⟩
    · exact ⟨rfl, hrunning⟩
  · refine settle_recording hrunning fun inner hinner => ?_
    simp only [RecordingInner.writeExtension, bind_eq_ok, pure_eq_ok] at hinner
    obtain ⟨_, -, staged, hstaged, rfl⟩ := hinner
    exact ⟨writeExtension_websocket hstaged, hrunning⟩

theorem offer_accumulation (admission : Admission) (conversation : WebSocketConversation) :
    (admission.offer conversation).accumulation =
      accumulate admission.accumulation (.appendWebsocketConversation conversation) := by
  rw [Admission.offer, accumulate]
  rcases appendWebsocketConversation admission.accumulation conversation with error | next
  · rfl
  · rfl

/-- The operations act on the accumulation by their offers only. -/
theorem foldl_accumulate (operations : List Operation) (admission : Admission) :
    operations.foldl accumulate admission.accumulation =
      ((offersOf operations).foldl Admission.offer admission).accumulation := by
  induction operations generalizing admission with
  | nil => rfl
  | cons operation rest ih =>
      cases operation
      case appendWebsocketConversation conversation =>
        rw [List.foldl_cons, ← offer_accumulation]
        exact ih (admission.offer conversation)
      all_goals exact ih admission

theorem writer_run_websocket {codec : Codec} {metadata : SessionMetadata} {limits : StoreLimits}
    {start : SessionWriter} (hcreate : SessionWriter.create false metadata limits = .ok start)
    (operations : List Operation) :
    (WriterRun.run codec start operations).writer.websocket =
      (offerAll (offersOf operations)).accumulation := by
  have hrun : ∀ (items : List Operation) (run : WriterRun),
      (items.foldl (WriterRun.step codec) run).writer.websocket =
        items.foldl accumulate run.writer.websocket := by
    intro items
    induction items with
    | nil => exact fun _ => rfl
    | cons operation rest ih =>
        intro run
        rw [List.foldl_cons, List.foldl_cons, ih, writer_step_websocket]
  simp only [SessionWriter.create, bind_eq_ok, pure_eq_ok] at hcreate
  obtain ⟨_, -, _, -, rfl⟩ := hcreate
  rw [WriterRun.run, hrun, offerAll]
  exact foldl_accumulate operations {}

theorem recording_run_websocket {codec : Codec} {metadata : SessionMetadata}
    {limits : StoreLimits} {start : RecordingInner}
    (hcreate : RecordingInner.create false metadata limits = .ok start)
    (operations : List Operation) :
    (RecordingRun.run codec start operations).inner.websocket =
      (offerAll (offersOf operations)).accumulation := by
  have hrun : ∀ (items : List Operation) (run : RecordingRun), run.inner.shutdown = false →
      (items.foldl (RecordingRun.step codec) run).inner.websocket =
        items.foldl accumulate run.inner.websocket := by
    intro items
    induction items with
    | nil => exact fun _ _ => rfl
    | cons operation rest ih =>
        intro run hrunning
        obtain ⟨hstep, hnext⟩ := recording_step_websocket codec run operation hrunning
        rw [List.foldl_cons, List.foldl_cons, ih _ hnext, hstep]
  simp only [RecordingInner.create, bind_eq_ok, pure_eq_ok] at hcreate
  obtain ⟨_, -, _, -, rfl⟩ := hcreate
  rw [RecordingRun.run, hrun operations _ rfl, offerAll]
  exact foldl_accumulate operations {}

/-- However the offers are made, the accepted conversations together pass
`websocket_transcript`, and a rejected one changes nothing. -/
theorem accepted_together (offers : List WebSocketConversation) :
    websocketTranscript (offerAll offers).accumulation =
        .ok (transcriptOf (offerAll offers).accepted) ∧
      (transcriptOf (offerAll offers).accepted).encode.length =
        39 + joinedLength (encodedSizes (offerAll offers).accepted) ∧
      (transcriptOf (offerAll offers).accepted).encode.length ≤ maxExtensionBytes ∧
      ∀ conversation,
        (∀ next, appendWebsocketConversation (offerAll offers).accumulation conversation =
            .ok next → offerAll (offers ++ [conversation]) =
              { accumulation := next, accepted := (offerAll offers).accepted ++ [conversation] }) ∧
        (∀ error, appendWebsocketConversation (offerAll offers).accumulation conversation =
            .error error → offerAll (offers ++ [conversation]) = offerAll offers) := by
  have h := admitted_offerAll offers
  refine ⟨h.websocketTranscript, length_encode_transcript _, h.encode_le, fun conversation =>
    ⟨fun next hnext => ?_, fun error herror => ?_⟩⟩
  · rw [offerAll, List.foldl_append]
    show settle _ _ _ = _
    rw [← offerAll, hnext]
    rfl
  · rw [offerAll, List.foldl_append]
    show settle _ _ _ = _
    rw [← offerAll, herror]
    rfl

def quietConversation : WebSocketConversation where
  id := "one"
  flowId := "flow"
  offeredSubprotocols := []
  selectedSubprotocol := none
  messages := []
  terminal := .abnormal "eof"

/-- A conversation that is offered twice is accepted once. -/
theorem quietConversation_once :
    websocketTranscript (offerAll [quietConversation]).accumulation =
        .ok (transcriptOf [quietConversation]) ∧
      offerAll [quietConversation, quietConversation] = offerAll [quietConversation] := by
  obtain ⟨haccepted, -, -, hoffer⟩ := accepted_together [quietConversation]
  refine ⟨?_, (hoffer quietConversation).2
    (.invalid "duplicate WebSocket conversation or flow id") (by decide +kernel)⟩
  have hlist : (offerAll [quietConversation]).accepted = [quietConversation] := by decide +kernel
  rw [haccepted, hlist]

end EggReplay.Store.ConversationAdmission
