import EggReplay.Core.ScenarioSteps
import EggReplay.Http.ResponseRendering
import EggReplay.Library.PolledStreams

/-!
The authored faults of scenario responses: the stream that a fault makes of the rendered body,
the length that is declared for it, and whether a client can take it for a complete response.
-/

namespace EggReplay.Http.ScenarioFaults

open EggReplay.Library.Checks
open EggReplay.Library.Text
open EggReplay.Library.PolledStreams
open EggReplay.Core.FlowRecord
open EggReplay.Core.StreamTimeline
open EggReplay.Core.Scenarios
open EggReplay.Core.ScenarioSteps
open EggReplay.Http.ResponseRendering

/-- A rendered response as a program holds it: a `Vec` has at most `isize::MAX` bytes. -/
structure Rendered extends RenderedScenarioResponse where
  body_lt : body.length < 2 ^ 63

/-! ### The stream -/

/-- The state that the stream is unfolded from. -/
structure FaultState where
  body : Bytes
  offset : Nat
  pending : Option String

/-- A stream of the body and the length it is declared with. -/
structure FaultStream where
  start : FaultState
  chunk : Nat
  delayMs : Nat
  declaredLength : Nat

def pollFault (chunk delayMs : Nat) (state : FaultState) : Option (Polled × FaultState) :=
  if state.offset < state.body.length then
    let stop := min (saturatingAdd state.offset chunk) state.body.length
    some (⟨delayMs * 1000000, .ok ((state.body.take stop).drop state.offset)⟩,
      { state with offset := stop })
  else
    -- The pending message is consumed, so that the next poll ends the stream.
    state.pending.map fun message => (⟨0, .error message⟩, { state with pending := none })

def faultBodyStream (body : Bytes) (declaredLength chunkBytes delayMs : Nat)
    (terminalError : Option String) : FaultStream where
  start := { body, offset := 0, pending := terminalError }
  chunk := max chunkBytes 1
  delayMs := delayMs
  declaredLength := declaredLength

/-- The items that the stream emits until it ends. -/
def FaultStream.Emits (stream : FaultStream) (items : List (Except String Bytes)) : Prop :=
  ∃ polls, Unfolds (pollFault stream.chunk stream.delayMs) stream.start polls ∧
    items = polls.map Polled.item

/-! ### The response -/

inductive FaultBody where
  | bytes (content : Bytes)
  | stream (stream : FaultStream)

/-- The response after the sleep that comes before its head. -/
structure FaultResponse where
  headDelayMs : Nat := 0
  status : Nat
  headers : List HeaderEntry
  body : FaultBody

def buildFault (checks : HttpChecks) (headDelayMs status : Nat) (headers : List HeaderEntry)
    (body : FaultBody) : Except ServiceError FaultResponse := do
  buildHead checks status headers
  pure { headDelayMs, status, headers, body }

def scenarioFaultResponse (checks : HttpChecks) (rendered : RenderedScenarioResponse) :
    Except ServiceError FaultResponse :=
  let length := rendered.body.length
  let build := buildFault checks 0 rendered.status rendered.headers
  match rendered.fault with
  | none => build (.bytes rendered.body)
  | some (.responseHeadDelay delayMs) =>
      buildFault checks delayMs rendered.status rendered.headers (.bytes rendered.body)
  | some (.bodyChunkDelay delayMs chunkBytes) =>
      build (.stream (faultBodyStream rendered.body length chunkBytes delayMs none))
  | some .closeBeforeResponse =>
      build (.stream (faultBodyStream [] length 1 0 (some "fault: close before response")))
  | some (.closeAfterBytes bytes) =>
      build (.stream (faultBodyStream (rendered.body.take (min length bytes)) length u64Max 0
        (some "fault: close after bytes")))
  | some (.transportError category _) =>
      buildFault checks 0 502 []
        (.bytes (utf8 ("recorded upstream error: " ++ category.debug ++ "\n").toList))

/-! ### What the faults promise -/

/-- The bytes among the items. -/
def emitted (items : List (Except String Bytes)) : Bytes :=
  (items.filterMap Except.toOption).flatten

/-- The whole body in bounded chunks, and no error. -/
structure CompleteBody (body : Bytes) (chunkBytes declaredLength : Nat)
    (items : List (Except String Bytes)) : Prop where
  chunks : ∃ chunks : List Bytes, items = chunks.map .ok ∧
    ∀ chunk ∈ chunks, chunk ≠ [] ∧ chunk.length ≤ chunkBytes
  whole : emitted items = body
  declared : declaredLength = body.length

/-- A prefix of the body, one error at the end, and a declared length that is not reached. -/
structure VisibleTruncation (body : Bytes) (declaredLength : Nat)
    (items : List (Except String Bytes)) : Prop where
  ends : ∃ (chunks : List Bytes) (message : String),
    items = chunks.map .ok ++ [.error message]
  part : emitted items <+: body
  declared : (emitted items).length < declaredLength

/-- What the fault of a response promises of its stream. -/
def Promised (rendered : RenderedScenarioResponse) (declaredLength : Nat)
    (items : List (Except String Bytes)) : Prop :=
  match rendered.fault with
  | some (.bodyChunkDelay _ chunkBytes) =>
      1 ≤ chunkBytes → CompleteBody rendered.body chunkBytes declaredLength items
  | some .closeBeforeResponse | some (.closeAfterBytes _) =>
      VisibleTruncation rendered.body declaredLength items
  | _ => True

/-- The fault cuts something off the body, where it is one that cuts. -/
def CutsShort (rendered : RenderedScenarioResponse) : Prop :=
  match rendered.fault with
  | some .closeBeforeResponse => rendered.body ≠ []
  | some (.closeAfterBytes bytes) => bytes < rendered.body.length
  | _ => True

/-! ### What a stream emits -/

section

variable {chunk delayMs : Nat} {state : FaultState}

/-- Nothing saturates below the length of a body. -/
theorem min_saturatingAdd {offset length : Nat} (h : length ≤ u64Max) :
    min (saturatingAdd offset chunk) length = min (offset + chunk) length := by
  rw [saturatingAdd, Nat.min_assoc, Nat.min_eq_right h]

theorem slice_append_drop {body : Bytes} {offset stop : Nat} (h : offset ≤ stop)
    (hstop : stop ≤ body.length) :
    (body.take stop).drop offset ++ body.drop stop = body.drop offset := by
  have hlength : offset ≤ (body.take stop).length := by
    rw [List.length_take, Nat.min_eq_left hstop]
    exact h
  rw [← List.drop_append_of_le_length hlength, List.take_append_drop]

theorem pollFault_more (hbody : state.body.length ≤ u64Max)
    (h : state.offset < state.body.length) :
    pollFault chunk delayMs state =
      some (⟨delayMs * 1000000,
          .ok ((state.body.take (min (state.offset + chunk) state.body.length)).drop
            state.offset)⟩,
        { state with offset := min (state.offset + chunk) state.body.length }) := by
  rw [pollFault, if_pos h, min_saturatingAdd hbody]

theorem pollFault_end (h : ¬state.offset < state.body.length) :
    pollFault chunk delayMs state =
      state.pending.map fun message => (⟨0, .error message⟩, { state with pending := none }) :=
  if_neg h

/-- The rest of the body in chunks, and then the pending error. -/
theorem unfolds_items {polls : List Polled} (hchunk : 0 < chunk)
    (h : Unfolds (pollFault chunk delayMs) state polls) (hbody : state.body.length ≤ u64Max)
    (hoffset : state.offset ≤ state.body.length) :
    ∃ chunks : List Bytes,
      polls.map Polled.item = chunks.map .ok ++ state.pending.toList.map .error ∧
      (∀ part ∈ chunks, part ≠ [] ∧ part.length ≤ chunk) ∧
      chunks.flatten = state.body.drop state.offset := by
  induction h with
  | @done state hdone =>
      by_cases hmore : state.offset < state.body.length
      · rw [pollFault_more hbody hmore] at hdone
        cases hdone
      · rw [pollFault_end hmore, Option.map_eq_none_iff] at hdone
        refine ⟨[], ?_, List.forall_mem_nil _, ?_⟩
        · rw [hdone]
          rfl
        · exact (List.drop_of_length_le (Nat.not_lt.mp hmore)).symm
  | @more state next polled polls hpoll hrest ih =>
      by_cases hmore : state.offset < state.body.length
      · rw [pollFault_more hbody hmore] at hpoll
        obtain ⟨rfl, rfl⟩ := Prod.mk.inj (Option.some.inj hpoll)
        obtain ⟨chunks, hitems, hchunks, hflatten⟩ := ih hbody (Nat.min_le_right _ _)
        have hstop : state.offset < min (state.offset + chunk) state.body.length :=
          Nat.lt_min.mpr ⟨Nat.lt_add_of_pos_right hchunk, hmore⟩
        have hlength : ((state.body.take (min (state.offset + chunk) state.body.length)).drop
            state.offset).length =
            min (state.offset + chunk) state.body.length - state.offset := by
          rw [List.length_drop, List.length_take, Nat.min_assoc, Nat.min_self]
        refine ⟨_ :: chunks, congrArg (_ :: ·) hitems, List.forall_mem_cons.mpr ⟨⟨?_, ?_⟩, hchunks⟩,
          ?_⟩
        · exact List.ne_nil_of_length_pos (hlength ▸ Nat.sub_pos_of_lt hstop)
        · rw [hlength]
          exact Nat.sub_le_iff_le_add'.mpr (Nat.min_le_left _ _)
        · rw [List.flatten_cons, hflatten]
          exact slice_append_drop hstop.le (Nat.min_le_right _ _)
      · rw [pollFault_end hmore, Option.map_eq_some_iff] at hpoll
        obtain ⟨message, hmessage, heq⟩ := hpoll
        obtain ⟨rfl, rfl⟩ := Prod.mk.inj heq
        obtain ⟨chunks, hitems, hchunks, hflatten⟩ := ih hbody hoffset
        have hempty : state.body.drop state.offset = [] :=
          List.drop_of_length_le (Nat.not_lt.mp hmore)
        rw [hempty] at hflatten
        obtain rfl : chunks = [] := by
          rcases chunks with _ | ⟨first, rest⟩
          · rfl
          · exact absurd (List.append_eq_nil_iff.mp hflatten).1
              (hchunks first List.mem_cons_self).1
        refine ⟨[], ?_, List.forall_mem_nil _, hempty.symm⟩
        rw [List.map_cons, hitems, hmessage]
        rfl

theorem exists_unfolds_fault (hchunk : 0 < chunk) (hbody : state.body.length ≤ u64Max)
    (hoffset : state.offset ≤ state.body.length) :
    ∃ polls, Unfolds (pollFault chunk delayMs) state polls := by
  refine exists_unfolds
    (P := fun state => state.body.length ≤ u64Max ∧ state.offset ≤ state.body.length)
    (fun state => state.body.length - state.offset + state.pending.toList.length) ?_
    ⟨hbody, hoffset⟩
  rintro state polled next ⟨hbody, hoffset⟩ hpoll
  by_cases hmore : state.offset < state.body.length
  · rw [pollFault_more hbody hmore] at hpoll
    obtain ⟨-, rfl⟩ := Prod.mk.inj (Option.some.inj hpoll)
    have hstop : state.offset < min (state.offset + chunk) state.body.length :=
      Nat.lt_min.mpr ⟨Nat.lt_add_of_pos_right hchunk, hmore⟩
    exact ⟨⟨hbody, Nat.min_le_right _ _⟩,
      Nat.add_lt_add_right (Nat.sub_lt_sub_left hmore hstop) _⟩
  · rw [pollFault_end hmore, Option.map_eq_some_iff] at hpoll
    obtain ⟨message, hmessage, heq⟩ := hpoll
    obtain ⟨-, rfl⟩ := Prod.mk.inj heq
    refine ⟨⟨hbody, hoffset⟩, ?_⟩
    rw [hmessage]
    exact Nat.lt_succ_self _

end

theorem emitted_items (chunks : List Bytes) (messages : List String) :
    emitted (chunks.map .ok ++ messages.map .error) = chunks.flatten := by
  rw [emitted, List.filterMap_append, List.filterMap_map, List.filterMap_map]
  have hchunks : chunks.filterMap (Except.toOption ∘ (.ok : Bytes → Except String Bytes)) =
      chunks := List.filterMap_some
  have hmessages : messages.filterMap
      (Except.toOption ∘ (.error : String → Except String Bytes)) = [] :=
    List.filterMap_eq_nil_iff.mpr fun _ _ => rfl
  rw [hchunks, hmessages, List.append_nil]

/-- What a fault body stream emits. -/
theorem emits_faultBodyStream {body : Bytes} {declaredLength chunkBytes delayMs : Nat}
    {terminalError : Option String} {items : List (Except String Bytes)}
    (hbody : body.length < 2 ^ 63)
    (h : (faultBodyStream body declaredLength chunkBytes delayMs terminalError).Emits items) :
    ∃ chunks : List Bytes, items = chunks.map .ok ++ terminalError.toList.map .error ∧
      (∀ chunk ∈ chunks, chunk ≠ [] ∧ chunk.length ≤ max chunkBytes 1) ∧
      emitted items = body := by
  obtain ⟨polls, hpolls, rfl⟩ := h
  have hlength : body.length ≤ u64Max := by
    rw [u64Max]
    omega
  obtain ⟨chunks, hitems, hchunks, hflatten⟩ :=
    unfolds_items (Nat.le_max_right _ _) hpolls hlength (Nat.zero_le _)
  refine ⟨chunks, hitems, hchunks, ?_⟩
  rw [hitems, emitted_items, hflatten]
  rfl

theorem exists_emits {body : Bytes} {declaredLength chunkBytes delayMs : Nat}
    {terminalError : Option String} (hbody : body.length < 2 ^ 63) :
    ∃ items,
      (faultBodyStream body declaredLength chunkBytes delayMs terminalError).Emits items := by
  have hlength : body.length ≤ u64Max := by
    rw [u64Max]
    omega
  obtain ⟨polls, hpolls⟩ : ∃ polls, Unfolds (pollFault (max chunkBytes 1) delayMs)
      ⟨body, 0, terminalError⟩ polls :=
    exists_unfolds_fault (Nat.le_max_right chunkBytes 1) hlength (Nat.zero_le _)
  exact ⟨_, polls, hpolls, rfl⟩

/-! ### The promises -/

theorem completeBody_of_emits {body : Bytes} {chunkBytes delayMs : Nat}
    {items : List (Except String Bytes)} (hbody : body.length < 2 ^ 63) (hchunk : 1 ≤ chunkBytes)
    (h : (faultBodyStream body body.length chunkBytes delayMs none).Emits items) :
    CompleteBody body chunkBytes body.length items := by
  obtain ⟨chunks, hitems, hchunks, hemitted⟩ := emits_faultBodyStream hbody h
  rw [Nat.max_eq_left hchunk] at hchunks
  exact ⟨⟨chunks, hitems.trans (List.append_nil _), hchunks⟩, hemitted, rfl⟩

/-- A stream that ends with the error is a visible truncation where it stops before the end of
the body. -/
theorem visibleTruncation_iff {body part : Bytes} {chunkBytes delayMs : Nat} {message : String}
    {items : List (Except String Bytes)} (hbody : part.length < 2 ^ 63) (hpart : part <+: body)
    (h : (faultBodyStream part body.length chunkBytes delayMs (some message)).Emits items) :
    VisibleTruncation body body.length items ↔ part.length < body.length := by
  obtain ⟨chunks, hitems, -, hemitted⟩ := emits_faultBodyStream hbody h
  constructor
  · intro hvisible
    have hdeclared := hvisible.declared
    rw [hemitted] at hdeclared
    exact hdeclared
  · intro hless
    exact ⟨⟨chunks, message, hitems⟩, hemitted ▸ hpart, hemitted ▸ hless⟩

theorem buildFault_body {checks : HttpChecks} {headDelayMs status : Nat}
    {headers : List HeaderEntry} {body : FaultBody} {response : FaultResponse}
    (h : buildFault checks headDelayMs status headers body = .ok response) :
    response.body = body := by
  obtain ⟨_, -, h⟩ := bind_eq_ok.mp h
  obtain rfl := pure_eq_ok.mp h
  rfl

/-- Every stream of a scenario response ends, and it keeps what its fault promises exactly when
a fault that cuts the body off leaves something of it unsent. -/
theorem promised_iff_cutsShort (checks : HttpChecks) (rendered : Rendered)
    (response : FaultResponse) (stream : FaultStream)
    (hresponse : scenarioFaultResponse checks rendered.toRenderedScenarioResponse = .ok response)
    (hstream : response.body = .stream stream) :
    (∃ items, stream.Emits items) ∧
      ∀ items, stream.Emits items →
        (Promised rendered.toRenderedScenarioResponse stream.declaredLength items ↔
          CutsShort rendered.toRenderedScenarioResponse) := by
  obtain ⟨⟨status, headers, body, fault⟩, hbody⟩ := rendered
  rcases fault with _ | ⟨delayMs⟩ | ⟨delayMs, chunkBytes⟩ | _ | ⟨bytes⟩ | ⟨category, phase⟩
  · cases (buildFault_body hresponse).symm.trans hstream
  · cases (buildFault_body hresponse).symm.trans hstream
  · cases (buildFault_body hresponse).symm.trans hstream
    exact ⟨exists_emits hbody, fun items hitems =>
      iff_of_true (fun hchunk => completeBody_of_emits hbody hchunk hitems) trivial⟩
  · cases (buildFault_body hresponse).symm.trans hstream
    refine ⟨exists_emits (by decide), fun items hitems => ?_⟩
    refine (visibleTruncation_iff (by decide) List.nil_prefix hitems).trans ?_
    exact List.length_pos_iff
  · cases (buildFault_body hresponse).symm.trans hstream
    have hlength : (body.take (min body.length bytes)).length = min body.length bytes := by
      rw [List.length_take]
      omega
    have hpart : (body.take (min body.length bytes)).length < 2 ^ 63 := by
      rw [hlength]
      exact (Nat.min_le_left _ _).trans_lt hbody
    refine ⟨exists_emits hpart, fun items hitems => ?_⟩
    refine (visibleTruncation_iff hpart (List.take_prefix _ _) hitems).trans ?_
    show _ < body.length ↔ bytes < body.length
    rw [hlength]
    omega
  · cases (buildFault_body hresponse).symm.trans hstream

/-- Checks that have nothing against a plain response. -/
def plainChecks : HttpChecks where
  status _ := .ok ()
  header _ := .ok ()
  trailers _ := .ok ()

def closing (body : String) (fault : ScenarioFault)
    (h : (utf8 body.toList).length < 2 ^ 63) : Rendered where
  status := 200
  headers := []
  body := utf8 body.toList
  fault := some fault
  body_lt := h

theorem letter_lt : (utf8 "a".toList).length < 2 ^ 63 := by decide

theorem nothing_lt : (utf8 "".toList).length < 2 ^ 63 := by decide

/-- A body of one letter that is closed before it. -/
theorem letter_promised :
    ∃ items, Promised (closing "a" (.closeAfterBytes 0) letter_lt).toRenderedScenarioResponse 1
      items := by
  obtain ⟨⟨items, hitems⟩, hpromised⟩ := promised_iff_cutsShort plainChecks
    (closing "a" (.closeAfterBytes 0) letter_lt)
    ⟨0, 200, [], .stream (faultBodyStream [] 1 u64Max 0 (some "fault: close after bytes"))⟩
    (faultBodyStream [] 1 u64Max 0 (some "fault: close after bytes")) rfl rfl
  exact ⟨items, (hpromised items hitems).mpr (by decide : 0 < (utf8 "a".toList).length)⟩

/-- Before an empty body there is nothing left to cut off: the declared length is reached. -/
theorem nothing_not_promised :
    ¬ ∀ (checks : HttpChecks) (rendered : Rendered) (response : FaultResponse)
      (stream : FaultStream) (items : List (Except String Bytes)),
      scenarioFaultResponse checks rendered.toRenderedScenarioResponse = .ok response →
        response.body = .stream stream → stream.Emits items →
          Promised rendered.toRenderedScenarioResponse stream.declaredLength items := by
  intro h
  obtain ⟨items, hitems⟩ := @exists_emits [] 0 1 0 (some "fault: close before response") (by decide)
  have hpromised := h plainChecks (closing "" .closeBeforeResponse nothing_lt)
    ⟨0, 200, [], .stream (faultBodyStream [] 0 1 0 (some "fault: close before response"))⟩
    (faultBodyStream [] 0 1 0 (some "fault: close before response")) items rfl rfl hitems
  exact absurd hpromised.declared (Nat.not_lt_zero _)

end EggReplay.Http.ScenarioFaults
