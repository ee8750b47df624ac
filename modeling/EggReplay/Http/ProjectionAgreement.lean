import EggReplay.Core.ReportVerdicts
import EggReplay.Http.Candidates
import EggReplay.Http.Captures

/-!
One response read by the recorder and by the candidate's observer: the two projections and
when their comparison finds nothing.
-/

namespace EggReplay.Http.ProjectionAgreement

open EggReplay.Library.Checks
open EggReplay.Library.Text
open EggReplay.Library.Stateful
open EggReplay.Library.LossyText
open EggReplay.Core.FlowRecord
open EggReplay.Core.StreamTimeline
open EggReplay.Core.Redaction
open EggReplay.Core.Matching
open EggReplay.Core.FieldWildcards
open EggReplay.Core.Reports
open EggReplay.Core.ReportVerdicts
open EggReplay.Store.Fixture
open EggReplay.Store.Recording
open EggReplay.Store.BlobContents
open EggReplay.Http.StreamEventCapture
open EggReplay.Http.Transaction
open EggReplay.Http.Recorder
open EggReplay.Http.Captures
open EggReplay.Http.Candidates

variable {N : Type}

/-! ### Header values -/

def Visible (field : HeaderField) : Prop :=
  field.value.all isVisibleAscii = true

instance (field : HeaderField) : Decidable (Visible field) :=
  inferInstanceAs (Decidable (_ = true))

theorem isVisibleAscii_lt {byte : UInt8} (h : isVisibleAscii byte = true) :
    byte.toNat < 0x80 := by
  simp only [isVisibleAscii, Bool.or_eq_true, Bool.and_eq_true, decide_eq_true_eq,
    beq_iff_eq] at h
  rcases h with ⟨-, hlt⟩ | rfl
  · have hbound := UInt8.lt_iff_toNat_lt.mp hlt
    have hvalue : (127 : UInt8).toNat = 127 := rfl
    omega
  · decide

theorem length_flatMap_hexByte (bytes : Bytes) :
    (bytes.flatMap hexByte).length = 2 * bytes.length := by
  induction bytes with
  | nil => rfl
  | cons byte rest ih =>
      rw [List.flatMap_cons, List.length_append, ih, List.length_cons]
      show 2 + 2 * rest.length = 2 * (rest.length + 1)
      omega

/-- The two encodings agree on visible ASCII, and nowhere else. -/
theorem entry_value_eq_iff (field : HeaderField) :
    (headerEntry field).value = (candidateEntry field).value ↔ Visible field := by
  show (toStr field.value).getD (String.ofList (field.value.flatMap hexByte)) =
    fromUtf8Lossy field.value ↔ _
  rw [toStr]
  constructor
  · intro h
    by_contra hopaque
    rw [Visible] at hopaque
    rw [if_neg hopaque, Option.getD_none] at h
    have hlength := fromUtf8Lossy_length field.value
    rw [← h, String.toList_ofList, length_flatMap_hexByte] at hlength
    apply hopaque
    have hempty : field.value = [] := List.length_eq_zero_iff.mp (by omega)
    rw [hempty]
    rfl
  · intro h
    rw [Visible] at h
    rw [if_pos h, Option.getD_some, fromUtf8Lossy_ascii]
    exact fun byte hbyte => isVisibleAscii_lt (List.all_eq_true.mp h byte hbyte)

theorem entry_name_same (field : HeaderField) (name : String) :
    eqIgnoreAsciiCase (headerEntry field).name name = eqIgnoreAsciiCase field.name name := by
  rw [eqIgnoreAsciiCase, eqIgnoreAsciiCase, decide_eq_decide, headerEntry,
    toAsciiLowercase_idem]

/-- The fields that the comparison reads under a name. -/
def fieldsNamed (name : String) (fields : HeaderMap) : HeaderMap :=
  fields.filter fun field => eqIgnoreAsciiCase field.name name

theorem fieldValues_candidateEntry (name : String) (fields : HeaderMap) :
    fieldValues name (fields.map candidateEntry) =
      (fieldsNamed name fields).map fun field => (candidateEntry field).value := by
  rw [fieldValues, fieldsNamed, List.filter_map, List.map_map]
  rfl

theorem fieldValues_headerEntry (name : String) (fields : HeaderMap) :
    fieldValues name (fields.map headerEntry) =
      (fieldsNamed name fields).map fun field => (headerEntry field).value := by
  have hnames : ((fun header : HeaderEntry => eqIgnoreAsciiCase header.name name) ∘
      headerEntry) = fun field => eqIgnoreAsciiCase field.name name := by
    funext field
    rw [Function.comp_apply, entry_name_same]
  rw [fieldValues, fieldsNamed, List.filter_map, hnames, List.map_map]
  rfl

/-- The fields whose values are compared hold visible ASCII only. -/
def AllVisible (policy : ComparisonPolicy) (fields : HeaderMap) : Prop :=
  ∀ field ∈ fields, policy.isVolatile field.name = true ∨ Visible field

instance (policy : ComparisonPolicy) (fields : HeaderMap) :
    Decidable (AllVisible policy fields) :=
  inferInstanceAs (Decidable (∀ field ∈ fields, _))

theorem isVolatile_congr {policy : ComparisonPolicy} {left right : String}
    (h : eqIgnoreAsciiCase left right = true) :
    policy.isVolatile left = policy.isVolatile right := by
  rw [eqIgnoreAsciiCase, decide_eq_true_eq] at h
  rw [← isVolatile_toAsciiLowercase, h, isVolatile_toAsciiLowercase]

theorem sameFields_projections_iff {policy : ComparisonPolicy} {fields : HeaderMap} :
    SameFields policy (fields.map headerEntry) (fields.map candidateEntry) ↔
      AllVisible policy fields := by
  constructor
  · intro h field hfield
    by_cases hvolatile : policy.isVolatile field.name = true
    · exact .inl hvolatile
    · refine .inr ?_
      have hvalues := h field.name fun htolerated => hvolatile htolerated.1
      rw [fieldValues_headerEntry, fieldValues_candidateEntry] at hvalues
      have hmem : field ∈ fieldsNamed field.name fields :=
        List.mem_filter.mpr ⟨hfield, by simp [eqIgnoreAsciiCase]⟩
      rw [← entry_value_eq_iff]
      exact List.map_inj_left.mp hvalues field hmem
  · intro h name hname
    rw [fieldValues_headerEntry, fieldValues_candidateEntry]
    apply List.map_congr_left
    intro field hfield
    obtain ⟨hmem, heq⟩ := List.mem_filter.mp hfield
    rw [entry_value_eq_iff]
    rcases h field hmem with hvolatile | hvisible
    · -- a volatile name that is there at all is there on both sides
      have hpresent : fieldsNamed name fields ≠ [] := List.ne_nil_of_mem hfield
      refine absurd ⟨?_, ?_, ?_⟩ hname
      · rwa [← isVolatile_congr heq]
      · rw [fieldValues_headerEntry]
        simpa using hpresent
      · rw [fieldValues_candidateEntry]
        simpa using hpresent
    · exact hvisible

/-! ### Events -/

def SameEvent (left right : StreamEvent) : Prop :=
  sameStreamEvent left.event right.event = true

abbrev SameEvents : List StreamEvent → List StreamEvent → Prop := List.Forall₂ SameEvent

theorem sameEvents_iff {left right : List StreamEvent} :
    SameEvents left right ↔ left.length = right.length ∧
      (left.zip right).any (fun pair => !sameStreamEvent pair.1.event pair.2.event) = false := by
  rw [SameEvents, List.forall₂_iff_zip, List.any_eq_false]
  refine and_congr_right fun _ => ?_
  constructor
  · rintro h ⟨a, b⟩ hpair
    rw [h hpair]
    decide
  · intro h a b hpair
    rw [SameEvent]
    simpa using h (a, b) hpair

/-- Without a cadence, nothing is found exactly where the two timelines are the same event
by event. -/
theorem compareStreamEvents_eq_nil_iff {baseline candidate : FlowStreamEvents} :
    compareStreamEvents baseline candidate none = [] ↔
      SameEvents baseline.response candidate.response := by
  rw [sameEvents_iff, compareStreamEvents]
  split
  · rename_i hdiffers
    refine iff_of_false (by simp) ?_
    rintro ⟨hlength, hnone⟩
    rw [hnone] at hdiffers
    simp [hlength] at hdiffers
  · rename_i hsame
    rw [not_or, not_not, Bool.not_eq_true] at hsame
    exact iff_of_true (by simp) hsame

theorem sameEvent_trailers (delta delta' : Nat) (fields : HeaderMap) :
    SameEvent ⟨delta, .trailers (fields.map headerEntry)⟩
      ⟨delta', .trailers (fields.map candidateEntry)⟩ := by
  show ((fields.map headerEntry).length == (fields.map candidateEntry).length &&
    ((fields.map headerEntry).zip (fields.map candidateEntry)).all
      fun pair => eqIgnoreAsciiCase pair.1.name pair.2.name) = true
  rw [List.length_map, List.length_map, beq_self_eq_true, Bool.true_and, List.all_eq_true]
  rintro ⟨a, b⟩ hpair
  rw [List.zip_map', List.mem_map] at hpair
  obtain ⟨field, -, heq⟩ := hpair
  rw [Prod.mk.injEq] at heq
  obtain ⟨rfl, rfl⟩ := heq
  rw [entry_name_same]
  simp [eqIgnoreAsciiCase, candidateEntry]

theorem sameEvent_self (delta delta' : Nat) {event : StreamEventKind}
    (h : ∀ fields, event ≠ .trailers fields) : SameEvent ⟨delta, event⟩ ⟨delta', event⟩ := by
  rw [SameEvent]
  cases event with
  | data => simp [sameStreamEvent]
  | trailers fields => exact absurd rfl (h fields)
  | finish => rfl
  | error => simp [sameStreamEvent]

/-- Only DATA is the same as DATA, and then alike. -/
theorem SameEvent.data_iff {a b : StreamEvent} (h : SameEvent a b) (offset length : Nat) :
    a.event = .data offset length ↔ b.event = .data offset length := by
  obtain ⟨delta, event⟩ := a
  obtain ⟨delta', event'⟩ := b
  cases event with
  | data =>
      cases event' with
      | data =>
          simp only [SameEvent, sameStreamEvent, Bool.and_eq_true, beq_iff_eq] at h
          rw [h.1, h.2]
      | trailers | finish | error => cases h
  | trailers | finish | error =>
      cases event' with
      | data => cases h
      | trailers | finish | error => simp

theorem isEmptyData_iff (event : StreamEvent) :
    isEmptyData event = true ↔ ∃ offset, event.event = .data offset 0 := by
  obtain ⟨delta, event⟩ := event
  rw [isEmptyData]
  split
  · rename_i offset heq
    exact iff_of_true rfl ⟨offset, heq⟩
  · rename_i hother
    refine iff_of_false (by simp) ?_
    rintro ⟨offset, heq⟩
    exact hother offset heq

theorem SameEvent.isEmptyData_eq {a b : StreamEvent} (h : SameEvent a b) :
    isEmptyData a = isEmptyData b := by
  rw [Bool.eq_iff_iff, isEmptyData_iff, isEmptyData_iff]
  exact exists_congr fun offset => h.data_iff offset 0

/-- What coalescing has joined. -/
theorem coalesce_inv {events next : List StreamEvent} {event : StreamEvent}
    (h : coalesce events event = some next) :
    ∃ before delta offset length more,
      events = before ++ [⟨delta, .data offset length⟩] ∧
      event.event = .data (saturatingAdd offset length) more ∧
      next = before ++ [⟨delta, .data offset (saturatingAdd length more)⟩] := by
  unfold coalesce at h
  split at h
  · rename_i last offset more hlast hevent
    obtain ⟨delta, kind⟩ := last
    split at h
    · rename_i lastOffset length hkind
      split at h
      · rename_i hjoined
        obtain rfl : kind = .data lastOffset length := hkind
        obtain ⟨before, hevents⟩ := List.getLast?_eq_some_iff.mp hlast
        refine ⟨before, delta, lastOffset, length, more, hevents, ?_, ?_⟩
        · rw [hevent, hjoined]
        · rw [← Option.some.inj h, hevents, List.dropLast_concat]
      · cases h
    · cases h
  · cases h

theorem sameEvents_concat_iff {left right : List StreamEvent} {a b : StreamEvent} :
    SameEvents (left ++ [a]) (right ++ [b]) ↔ SameEvents left right ∧ SameEvent a b := by
  rw [SameEvents, ← List.forall₂_reverse_iff, List.reverse_append, List.reverse_append,
    List.reverse_singleton, List.reverse_singleton, List.singleton_append,
    List.singleton_append, List.forall₂_cons, List.forall₂_reverse_iff, and_comm]

theorem SameEvents.coalesce {left right left' right' : List StreamEvent} {a b : StreamEvent}
    (h : SameEvents left right) (hevent : SameEvent a b) (hleft : coalesce left a = some left')
    (hright : coalesce right b = some right') : SameEvents left' right' := by
  obtain ⟨before, delta, offset, length, more, rfl, ha, rfl⟩ := coalesce_inv hleft
  obtain ⟨before', delta', offset', length', more', rfl, hb, rfl⟩ := coalesce_inv hright
  obtain ⟨hbefore, hlast⟩ := sameEvents_concat_iff.mp h
  have hkinds := (hlast.data_iff offset length).mp rfl
  obtain ⟨rfl, rfl⟩ : offset' = offset ∧ length' = length := by simpa using hkinds
  have hmore := (hevent.data_iff _ _).mp ha
  rw [hb] at hmore
  obtain rfl : more' = more := by simpa using hmore
  exact sameEvents_concat_iff.mpr ⟨hbefore, sameEvent_self _ _ (by simp)⟩

/-- The step of the simulation: the two pushes keep the timelines the same. -/
theorem SameEvents.push {left right left' right' : List StreamEvent} {a b : StreamEvent}
    (h : SameEvents left right) (hevent : SameEvent a b)
    (hleft : pushStreamEventInner left a = .ok left')
    (hright : pushCandidateEvent right b = .ok right') : SameEvents left' right' := by
  have hlength : left.length = right.length := List.Forall₂.length_eq h
  rw [pushCandidateEvent, ← hevent.isEmptyData_eq] at hright
  rw [pushStreamEventInner] at hleft
  split at hleft
  · rename_i hempty
    rw [if_pos hempty] at hright
    cases hleft
    cases hright
    exact h
  · rename_i hempty
    rw [if_neg hempty] at hright
    split at hright
    · cases hright
    · split at hleft
      · rename_i hroom
        rw [hlength] at hroom
        rw [if_pos hroom] at hright
        cases hleft
        cases hright
        exact sameEvents_concat_iff.mpr ⟨h, hevent⟩
      · rename_i hroom
        rw [hlength] at hroom
        rw [if_neg hroom, orFail_eq_ok] at hright
        rw [orFail_eq_ok] at hleft
        exact h.coalesce hevent hleft hright

/-! ### DATA lengths -/

def eventLength (event : StreamEvent) : Nat :=
  match event.event with
  | .data _ length => length
  | .trailers _ | .finish | .error _ _ _ => 0

theorem dataLength_concat (events : List StreamEvent) (event : StreamEvent) :
    dataLength (events ++ [event]) = saturatingAdd (dataLength events) (eventLength event) := by
  rw [dataLength, List.foldl_append]
  obtain ⟨delta, kind⟩ := event
  cases kind <;> rfl

theorem dataLength_le (events : List StreamEvent) : dataLength events ≤ u64Max := by
  induction events using List.reverseRecOn with
  | nil => exact Nat.zero_le _
  | append_singleton before event ih =>
      rw [dataLength_concat, saturatingAdd]
      exact min_le_right _ _

theorem pushStreamEventInner_dataLength {events next : List StreamEvent} {event : StreamEvent}
    (h : pushStreamEventInner events event = .ok next) :
    dataLength next = saturatingAdd (dataLength events) (eventLength event) := by
  rw [pushStreamEventInner] at h
  split at h
  · rename_i hempty
    obtain ⟨offset, hevent⟩ := (isEmptyData_iff event).mp hempty
    cases h
    rw [eventLength, hevent, saturatingAdd_zero (dataLength_le events)]
  · split at h
    · cases h
      exact dataLength_concat events event
    · rw [orFail_eq_ok] at h
      obtain ⟨before, delta, offset, length, more, rfl, hevent, rfl⟩ := coalesce_inv h
      rw [dataLength_concat, dataLength_concat, eventLength, eventLength, eventLength, hevent]
      simp only [saturatingAdd]
      omega

/-! ### The simulation -/

def trailersAfter (trailers : HeaderMap) (frame : TimedFrame) : HeaderMap :=
  match frame.content with
  | .data _ => trailers
  | .trailers fields => fields

/-- The fields of the last trailers frame. -/
def trailerFields (frames : List TimedFrame) : HeaderMap :=
  frames.foldl trailersAfter []

/-- What the two readers have of the same frames. -/
structure SameReceived (trailers : HeaderMap) (received : Received) (state : CandidateState) :
    Prop where
  content : state.bytes = received.content
  offset : state.offset = received.offset
  small : received.offset ≤ u64Max
  recorded : received.trailers = trailers.map headerEntry
  observed : state.trailers = trailers.map candidateEntry
  events : SameEvents received.events state.events
  length : dataLength received.events = received.content.length

theorem sameReceived_start : SameReceived [] .start .start where
  content := rfl
  offset := rfl
  small := Nat.zero_le _
  recorded := rfl
  observed := rfl
  events := .nil
  length := rfl

theorem candidatePush_eq_ok {state next : CandidateState} {event : StreamEvent}
    (h : state.push event = .ok next) :
    ∃ events, pushCandidateEvent state.events event = .ok events ∧
      next = { state with events := events } := by
  simp only [CandidateState.push, bind_eq_ok, mapError_eq_ok, pure_eq_ok] at h
  obtain ⟨events, hevents, rfl⟩ := h
  exact ⟨events, hevents, rfl⟩

section

variable {maxBlobBytes maxBodyBytes : Nat} {trailers : HeaderMap}

theorem SameReceived.data {received next : Received} {state next' : CandidateState}
    {delta delta' : Nat} {bytes : Bytes} (h : SameReceived trailers received state)
    (hleft : received.frame maxBlobBytes ⟨delta, .data bytes⟩ = .ok next)
    (hright : state.frame maxBodyBytes ⟨delta', .data bytes⟩ = .ok next') :
    SameReceived trailers next next' := by
  simp only [Received.frame, bind_eq_ok, mapError_eq_ok, pushStreamEvent, pure_eq_ok] at hleft
  obtain ⟨content, hgrow, events, hpush, rfl⟩ := hleft
  obtain rfl := grow_eq_ok hgrow
  have hbound : received.content.length + bytes.length ≤ u64Max := by
    simpa using grow_length_le hgrow
  have hlength : dataLength events = (received.content ++ bytes).length := by
    rw [pushStreamEventInner_dataLength hpush, h.length, List.length_append]
    show min (received.content.length + bytes.length) u64Max = _
    exact min_eq_left hbound
  have hsmall : saturatingAdd received.offset bytes.length ≤ u64Max := min_le_right _ _
  rw [CandidateState.frame] at hright
  dsimp only at hright
  split at hright
  · -- an empty frame, which only the recorder's push sees
    rename_i hempty
    subst hempty
    cases hright
    obtain rfl : received.events = events := by
      simpa [pushStreamEventInner, isEmptyData] using hpush
    refine ⟨?_, ?_, hsmall, h.recorded, h.observed, h.events, hlength⟩
    · simpa using h.content
    · show state.offset = saturatingAdd received.offset 0
      rw [saturatingAdd_zero h.small, h.offset]
  · simp only [bind_eq_ok, pure_eq_ok] at hright
    obtain ⟨-, -, pushed, hpushed, rfl⟩ := hright
    obtain ⟨events', hpush', rfl⟩ := candidatePush_eq_ok hpushed
    refine ⟨?_, ?_, hsmall, h.recorded, h.observed, ?_, hlength⟩
    · show state.bytes ++ bytes = received.content ++ bytes
      rw [h.content]
    · show saturatingAdd state.offset bytes.length = saturatingAdd received.offset bytes.length
      rw [h.offset]
    · refine h.events.push ?_ hpush hpush'
      rw [← h.offset]
      exact sameEvent_self _ _ (by simp)

theorem SameReceived.trailersFrame {received next : Received} {state next' : CandidateState}
    {delta delta' : Nat} {fields : HeaderMap} (h : SameReceived trailers received state)
    (hleft : received.frame maxBlobBytes ⟨delta, .trailers fields⟩ = .ok next)
    (hright : state.frame maxBodyBytes ⟨delta', .trailers fields⟩ = .ok next') :
    SameReceived fields next next' := by
  simp only [Received.frame, bind_eq_ok, mapError_eq_ok, pushStreamEvent, pure_eq_ok] at hleft
  obtain ⟨events, hpush, rfl⟩ := hleft
  obtain ⟨events', hpush', rfl⟩ := candidatePush_eq_ok hright
  refine ⟨h.content, h.offset, h.small, rfl, rfl, ?_, ?_⟩
  · exact h.events.push (sameEvent_trailers _ _ _) hpush hpush'
  · show dataLength events = received.content.length
    rw [pushStreamEventInner_dataLength hpush, ← h.length]
    exact saturatingAdd_zero (dataLength_le _)

theorem SameReceived.frame {received next : Received} {state next' : CandidateState}
    {frame frame' : TimedFrame} (hcontent : frame.content = frame'.content)
    (h : SameReceived trailers received state)
    (hleft : received.frame maxBlobBytes frame = .ok next)
    (hright : state.frame maxBodyBytes frame' = .ok next') :
    SameReceived (trailersAfter trailers frame) next next' := by
  obtain ⟨delta, content⟩ := frame
  obtain ⟨delta', content'⟩ := frame'
  obtain rfl : content = content' := hcontent
  cases content with
  | data bytes => exact h.data hleft hright
  | trailers fields => exact h.trailersFrame hleft hright

theorem SameReceived.frames {received final : Received} {state final' : CandidateState}
    {frames frames' : List TimedFrame}
    (hcontent : frames.map (·.content) = frames'.map (·.content))
    (h : SameReceived trailers received state)
    (hleft : checkFold (Received.frame maxBlobBytes) received frames = .ok final)
    (hright : checkFold (CandidateState.frame maxBodyBytes) state frames' = .ok final') :
    SameReceived (frames.foldl trailersAfter trailers) final final' := by
  induction frames generalizing trailers received state frames' with
  | nil =>
      obtain rfl : frames' = [] := by simpa using hcontent.symm
      cases hleft
      cases hright
      exact h
  | cons frame frames ih =>
      obtain ⟨frame', rest, rfl, hframe, hrest⟩ := List.map_eq_cons_iff.mp hcontent.symm
      simp only [checkFold_cons, bind_eq_ok] at hleft hright
      obtain ⟨next, hnext, hleft⟩ := hleft
      obtain ⟨next', hnext', hright⟩ := hright
      exact ih hrest.symm (h.frame hframe.symm hnext hnext') hleft hright

/-- One response, as two readers may time it. -/
structure SameReply (reply reply' : Reply) : Prop where
  status : reply.status = reply'.status
  headers : reply.headers = reply'.headers
  frames : reply.frames.map (·.content) = reply'.frames.map (·.content)
  failure : reply.ending.failure = reply'.ending.failure

theorem sameReceived_body {reply reply' : Reply} {received : Received} {state : CandidateState}
    (hsame : SameReply reply reply') (hleft : receivedBody maxBlobBytes reply = .ok received)
    (hright : candidateBody maxBodyBytes reply' = .ok state) :
    SameReceived (trailerFields reply.frames) received state := by
  simp only [receivedBody, bind_eq_ok, pushStreamEvent, mapError_eq_ok, pure_eq_ok] at hleft
  obtain ⟨before, hframes, events, hpush, rfl⟩ := hleft
  simp only [candidateBody, bind_eq_ok] at hright
  obtain ⟨before', hframes', hended⟩ := hright
  obtain ⟨events', hpush', rfl⟩ := candidatePush_eq_ok hended
  have h := sameReceived_start.frames hsame.frames hframes hframes'
  refine ⟨h.content, h.offset, h.small, h.recorded, h.observed, ?_, ?_⟩
  · refine h.events.push ?_ hpush hpush'
    rw [h.offset, responseEndEvent, responseEndEvent, hsame.failure]
    exact sameEvent_self _ _ (by cases reply'.ending.failure <;> simp)
  · show dataLength events = before.content.length
    rw [pushStreamEventInner_dataLength hpush, ← h.length, responseEndEvent]
    rcases reply.ending.failure with _ | ⟨category, phase⟩
    · exact saturatingAdd_zero (dataLength_le _)
    · exact saturatingAdd_zero (dataLength_le _)

end

/-! ### The projections -/

def noRedaction : RedactionConfig where
  headers := ∅
  queryKeys := ∅
  jsonPaths := ∅

theorem map_redactHeader_noRedaction (headers : List HeaderEntry) :
    headers.map (redactHeader noRedaction.headers) = headers := by
  have hsame : redactHeader noRedaction.headers = id := by
    funext header
    exact if_neg (Finset.notMem_empty _)
  rw [hsame, List.map_id]

theorem redactFlow_noRedaction_outcome (flow : Flow) (profile : String) :
    (redactFlow flow noRedaction profile).outcome = flow.outcome := by
  rw [redactFlow]
  cases houtcome : flow.outcome with
  | response response =>
      show FlowOutcome.response (redactResponse noRedaction.headers response) = _
      rw [redactResponse, map_redactHeader_noRedaction, map_redactHeader_noRedaction]
  | error => rfl

/-- A capture of the session's recorder in the form of an observation. -/
def projectionOf (done : Captured) (profile : String) : CandidateObservation where
  flow := finishSessionFlow done.capture profile
  responseBody := done.responseContent
  responseEvents := done.capture.responseEvents

/-- What the session's recorder records of a transaction. -/
def recordedProjection (storage : Codec) (codec : BodyCodec N) (settings : Settings)
    (maxBlobBytes : Nat) (exchange : Exchange) : Except HttpError CandidateObservation := do
  let done ← captured storage pushStreamEventInner codec settings maxBlobBytes exchange
  pure (projectionOf done settings.profileId)

/-- An observation as the stream comparison takes it. -/
def responseStreams (flowId : String) (observation : CandidateObservation) :
    FlowStreamEvents where
  flowId := flowId
  startOffsetNs := 0
  request := []
  response := observation.responseEvents

section

variable {storage : Codec} {codec : BodyCodec N} {settings : Settings} {maxBlobBytes : Nat}

/-- The projection of a response that no redaction touches. -/
theorem recordedProjection_eq_ok {exchange : Exchange} {reply : Reply}
    {recorded : CandidateObservation} (hplain : settings.redaction = noRedaction)
    (hresult : exchange.result = .ok reply)
    (h : recordedProjection storage codec settings maxBlobBytes exchange = .ok recorded) :
    ∃ received, receivedBody maxBlobBytes reply = .ok received ∧
      recorded.responseBody = received.content ∧
      recorded.responseEvents =
        reconcileStreamEventBodyLength received.events recorded.flow.outcome ∧
      ∃ body : BodyRef, body.len = some received.content.length ∧
        recorded.flow.outcome = .response
          { status := reply.status
            headers := reply.headers.map headerEntry
            body := body
            trailers := received.trailers } := by
  simp only [recordedProjection, bind_eq_ok, pure_eq_ok] at h
  obtain ⟨done, hdone, rfl⟩ := h
  obtain ⟨converted, stored, answer, hparts⟩ := captured_eq_ok hdone
  have houtcome := hparts.outcome
  rw [filedOutcome, hresult] at houtcome
  simp only [bind_eq_ok, pure_eq_ok] at houtcome
  obtain ⟨received, hreceived, answered, hanswered, rfl⟩ := houtcome
  obtain ⟨htransform, hreference, -⟩ := filedStaged_eq_ok hanswered
  rw [hplain, transformBody_untransformed (needsTransform_of_wants rfl) rfl] at htransform
  obtain ⟨hcontent, hmarkers⟩ : received.content = answered.content ∧ [] = answered.markers := by
    simpa using htransform
  have hobserved : (projectionOf done settings.profileId).flow.outcome =
      (received.observe reply settings answered.body answered.markers).outcome := by
    rw [projectionOf, finishSessionFlow_outcome, hparts.flow, capturedFlow, hplain,
      redactFlow_noRedaction_outcome]
    rfl
  refine ⟨received, hreceived, ?_, ?_, answered.body, ?_, ?_⟩
  · exact hparts.responseContent.trans hcontent.symm
  · rw [hobserved]
    exact hparts.responseEvents
  · rw [hcontent]
    exact reference_len hreference
  · rw [hobserved, ← hmarkers]
    rfl

/-- The recorder's call publishes its projection. -/
theorem recordRequestWithSession_projection {exchange : Exchange} {inner next : RecordingInner}
    {flow : Flow}
    (h : recordRequestWithSession storage codec settings exchange inner = (.ok flow, next)) :
    ∃ recorded,
      recordedProjection storage codec settings inner.limits.maxBlobBytes exchange =
        .ok recorded ∧
      recorded.flow = flow := by
  obtain ⟨done, -, -, hdone, rfl, -⟩ := recordRequestWithSession_eq_ok h
  refine ⟨projectionOf done settings.profileId, ?_, rfl⟩
  rw [recordedProjection, hdone]
  rfl

/-- Nothing is found between two projections of one response exactly where each value that
is compared is visible ASCII. -/
theorem projections_agree_iff {checks : RequestChecks}
    {client : OutgoingRequest → Except FlowError Reply} {exchange : Exchange}
    {execution : Execution} {reply reply' : Reply} {inner next : RecordingInner} {flow : Flow}
    {observation : CandidateObservation} (sha256 : Bytes → String)
    (scheduler : ReportScheduler) (flowId : String)
    (hplain : settings.redaction = noRedaction) (hresult : exchange.result = .ok reply)
    (hclient : ∀ outgoing,
      outgoingRequest checks codec execution.targetBase execution.request
        execution.requestBody = .ok outgoing → client outgoing = .ok reply')
    (hsame : SameReply reply reply')
    (hrecord : recordRequestWithSession storage codec settings exchange inner =
      (.ok flow, next))
    (hobserve : executeCandidate checks codec client execution = .ok observation) :
    ∃ recorded,
      recordedProjection storage codec settings inner.limits.maxBlobBytes exchange =
        .ok recorded ∧
      recorded.flow = flow ∧
      ((compareFlowsWithTimingAndPolicy sha256 flow observation.flow recorded.responseBody
            observation.responseBody scheduler none .default).findings = [] ∧
          compareStreamEvents (responseStreams flowId recorded)
            (responseStreams flowId observation) none = [] ↔
        AllVisible .default (reply.headers ++ trailerFields reply.frames)) := by
  obtain ⟨recorded, hrecorded, rfl⟩ := recordRequestWithSession_projection hrecord
  obtain ⟨received, hreceived, hbody, hevents, body, hlength, houtcome⟩ :=
    recordedProjection_eq_ok hplain hresult hrecorded
  obtain ⟨outgoing, houtgoing, hanswer⟩ := executeCandidate_eq_ok hobserve
  obtain ⟨state, hstate, rfl⟩ := hanswer reply' (hclient outgoing houtgoing)
  have h := sameReceived_body hsame hreceived hstate
  refine ⟨recorded, hrecorded, rfl, ?_⟩
  have hstreams : compareStreamEvents (responseStreams flowId recorded)
      (responseStreams flowId (observeCandidate execution reply' state)) none = [] := by
    rw [compareStreamEvents_eq_nil_iff]
    show SameEvents recorded.responseEvents state.events
    rw [hevents, houtcome, reconcileStreamEventBodyLength]
    dsimp only
    rw [hlength, Option.getD_some, if_pos h.length]
    exact h.events
  have hflows := @isSuccess_compareFlows_iff sha256 recorded.flow
    (observeCandidate execution reply' state).flow recorded.responseBody state.bytes scheduler
  rw [RegressionReport.isSuccess, List.isEmpty_iff,
    compareOutcomes_findings_eq_nil_iff rfl fun _ => hbody.trans h.content.symm] at hflows
  refine (and_iff_left hstreams).trans (hflows.trans ?_)
  have hvisible : AllVisible .default (reply.headers ++ trailerFields reply.frames) ↔
      AllVisible .default reply.headers ∧ AllVisible .default (trailerFields reply.frames) :=
    List.forall_mem_append
  rw [houtcome, hvisible]
  refine sameOutcome_response_iff.trans ?_
  show reply.status = reply'.status ∧
    SameFields .default (reply.headers.map headerEntry) (reply'.headers.map candidateEntry) ∧
    SameFields .default received.trailers state.trailers ∧
    recorded.responseBody = state.bytes ↔ _
  rw [h.recorded, h.observed, ← hsame.headers, sameFields_projections_iff,
    sameFields_projections_iff, ← hsame.status, hbody, h.content]
  tauto

end

/-! ### A response of one frame -/

/-- The digest of `a`. -/
def oneFrameStorage : Codec :=
  { formStorage with
    sha256Hex := fun body =>
      if body = [97] then "ca978112ca1bbdcafac231b39a23dc4da786eff8147c4e72b9807785afee48bb"
      else "" }

def plainSettings : Settings where
  redaction := noRedaction
  profileId := "default"
  maxStructuredBytes := 1024

/-- The body `a` after a header field, read at some pace. -/
def oneFrame (field : HeaderField) (pace : Nat) : Reply where
  status := 200
  http2 := false
  headers := [field]
  frames := [⟨pace, .data [97]⟩, ⟨2 * pace, .data []⟩]
  ending := ⟨3 * pace, none⟩

def oneFrameExchange (field : HeaderField) : Exchange :=
  { formPost [] "" with
    headers := [], polled := [], requestEnd := some ⟨1, none⟩
    result := .ok (oneFrame field 1) }

/-- Conversions that accept the text of the one request below. -/
def acceptingChecks : RequestChecks where
  uri _ := .ok { scheme := some "http", authority := some "example.test", path := "/", query := none }
  method _ := .ok ()
  headerName _ := .ok ()
  headerValue _ := .ok ()

def oneFrameExecution : Execution where
  request :=
    { method := "GET", scheme := "http", authority := "example.test", path := "/", query := []
      headers := [], body := .absent, trailers := [] }
  requestBody := []
  targetBase := { scheme := some "http", authority := some "example.test", path := "/", query := none }
  maxBodyBytes := 16
  physicalRoute := none
  uuid := "1"
  startMs := 1
  elapsedMs := 1

theorem sameReply_oneFrame (field : HeaderField) (pace : Nat) :
    SameReply (oneFrame field 1) (oneFrame field pace) :=
  ⟨rfl, rfl, rfl, rfl⟩

def textField : HeaderField where
  name := "x-mode"
  value := utf8 "fast".toList

/-- The byte E9, which is no text. -/
def opaqueField : HeaderField where
  name := "x-mode"
  value := [0xE9]

theorem text_projections_agree :
    ∃ flow next observation recorded,
      recordRequestWithSession oneFrameStorage formCodec plainSettings
        (oneFrameExchange textField) freshSession = (.ok flow, next) ∧
      recordedProjection oneFrameStorage formCodec plainSettings
        freshSession.limits.maxBlobBytes (oneFrameExchange textField) = .ok recorded ∧
      executeCandidate acceptingChecks formCodec (fun _ => .ok (oneFrame textField 7))
        oneFrameExecution = .ok observation ∧
      (compareFlowsWithTimingAndPolicy oneFrameStorage.sha256Hex flow observation.flow
          recorded.responseBody observation.responseBody .sequential none .default).findings =
        [] ∧
      compareStreamEvents (responseStreams "flow" recorded) (responseStreams "flow" observation)
        none = [] := by
  have hrecord : (recordRequestWithSession oneFrameStorage formCodec plainSettings
      (oneFrameExchange textField) freshSession).1.isOk = true := by decide +kernel
  have hobserve : (executeCandidate acceptingChecks formCodec
      (fun _ => .ok (oneFrame textField 7)) oneFrameExecution).isOk = true := by decide
  obtain ⟨flow, next, hflow⟩ := Op.exists_of_isOk hrecord
  rcases hobservation : executeCandidate acceptingChecks formCodec
    (fun _ => .ok (oneFrame textField 7)) oneFrameExecution with error | observation
  · rw [hobservation] at hobserve
    cases hobserve
  obtain ⟨recorded, hrecorded, -, hiff⟩ := projections_agree_iff oneFrameStorage.sha256Hex .sequential
    "flow" rfl rfl (fun _ _ => rfl) (sameReply_oneFrame textField 7) hflow hobservation
  obtain ⟨hflows, hstreams⟩ := hiff.mpr (by decide)
  exact ⟨flow, next, observation, recorded, hflow, hrecorded, rfl, hflows, hstreams⟩

/-- The recorder writes the byte E9 in hexadecimal and the observer as the replacement
character. -/
theorem opaque_value_projected_differently :
    ¬∀ (storage : Codec) (codec : BodyCodec Nat) (settings : Settings) (checks : RequestChecks)
      (client : OutgoingRequest → Except FlowError Reply) (exchange : Exchange)
      (execution : Execution) (reply reply' : Reply) (inner next : RecordingInner) (flow : Flow)
      (observation recorded : CandidateObservation),
      settings.redaction = noRedaction → exchange.result = .ok reply →
      (∀ outgoing, client outgoing = .ok reply') → SameReply reply reply' →
      recordRequestWithSession storage codec settings exchange inner = (.ok flow, next) →
      recordedProjection storage codec settings inner.limits.maxBlobBytes exchange =
        .ok recorded →
      executeCandidate checks codec client execution = .ok observation →
      (compareFlowsWithTimingAndPolicy storage.sha256Hex recorded.flow observation.flow
          recorded.responseBody observation.responseBody .sequential none .default).findings =
        [] ∧
      compareStreamEvents (responseStreams flow.id recorded)
        (responseStreams flow.id observation) none = [] := by
  intro h
  have hrecord : (recordRequestWithSession oneFrameStorage formCodec plainSettings
      (oneFrameExchange opaqueField) freshSession).1.isOk = true := by decide +kernel
  have hfound : (do
      let recorded ← recordedProjection oneFrameStorage formCodec plainSettings
        freshSession.limits.maxBlobBytes (oneFrameExchange opaqueField) |>.toOption
      let observation ← executeCandidate acceptingChecks formCodec
        (fun _ => .ok (oneFrame opaqueField 7)) oneFrameExecution |>.toOption
      some (compareFlowsWithTimingAndPolicy oneFrameStorage.sha256Hex recorded.flow
        observation.flow recorded.responseBody observation.responseBody .sequential none
        .default).findings) =
      some [⟨.header, "response.headers.x-mode", "<present>", "<present>"⟩] := by
    decide +kernel
  obtain ⟨flow, next, hflow⟩ := Op.exists_of_isOk hrecord
  obtain ⟨recorded, hrecorded, -⟩ := recordRequestWithSession_projection hflow
  rcases hobservation : executeCandidate acceptingChecks formCodec
    (fun _ => .ok (oneFrame opaqueField 7)) oneFrameExecution with error | observation
  · rw [hobservation] at hfound
    simp [Except.toOption] at hfound
  rw [hobservation, hrecorded] at hfound
  obtain ⟨hnone, -⟩ := h _ _ _ _ _ _ _ _ _ _ _ _ _ _ rfl rfl (fun _ => rfl)
    (sameReply_oneFrame opaqueField 7) hflow hrecorded hobservation
  have hfindings := Option.some.inj hfound
  rw [hnone] at hfindings
  exact absurd hfindings (by simp)

end EggReplay.Http.ProjectionAgreement
