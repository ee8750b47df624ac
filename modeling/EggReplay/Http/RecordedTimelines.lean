import EggReplay.Http.Captures

/-!
The timelines that a capture records. Their order, offsets and number are always what the
validation asks for; their delays and trailers are whatever came.
-/

namespace EggReplay.Http.RecordedTimelines

open EggReplay.Library.Checks
open EggReplay.Library.Text
open EggReplay.Core.FlowRecord
open EggReplay.Core.StreamTimeline
open EggReplay.Core.Redaction
open EggReplay.Store.Fixture
open EggReplay.Store.BlobContents
open EggReplay.Http.StreamEventCapture
open EggReplay.Http.Transaction
open EggReplay.Http.Recorder
open EggReplay.Http.Captures

variable {N : Type}

/-! ### The two halves of the validation -/

def isTrailers (event : StreamEvent) : Bool :=
  match event.event with
  | .trailers _ => true
  | .data _ _ | .finish | .error _ _ _ => false

def isTerminal (event : StreamEvent) : Bool :=
  match event.event with
  | .finish | .error _ _ _ => true
  | .data _ _ | .trailers _ => false

/-- The state after an accepted event. -/
def advance (state : DirectionState) (event : StreamEvent) : DirectionState where
  lastDelta := event.deltaNs
  lastOffset :=
    match event.event with
    | .data offset length => saturatingAdd offset length
    | .trailers _ | .finish | .error _ _ _ => state.lastOffset
  terminal := state.terminal || isTerminal event
  trailersSeen := state.trailersSeen || isTrailers event

/-- The event comes after the ones before it, at the offset that they reach. -/
def Follows (state : DirectionState) (event : StreamEvent) : Prop :=
  state.terminal = false ∧ state.lastDelta ≤ event.deltaNs ∧
    match event.event with
    | .data offset length => offset = state.lastOffset ∧ length ≠ 0
    | .error offset category phase =>
        offset = state.lastOffset ∧ category.utf8ByteSize ≤ 64 ∧ phase.utf8ByteSize ≤ 64
    | .trailers _ | .finish => True

/-- The event is within the bounds on delays and trailers, and nothing but the end of the
body comes after trailers. -/
def Within (trailersSeen : Bool) (event : StreamEvent) : Prop :=
  event.deltaNs ≤ maxStreamDelayNs ∧
    match event.event with
    | .data _ _ => trailersSeen = false
    | .trailers fields => trailersSeen = false ∧ TrailersFit fields
    | .finish | .error _ _ _ => True

def Sequenced : DirectionState → List StreamEvent → Prop
  | _, [] => True
  | state, event :: rest => Follows state event ∧ Sequenced (advance state event) rest

/-- Every delay is within 60 seconds, every trailer block within its bounds, and no DATA and
no further trailers come after it. -/
def Bounded : Bool → List StreamEvent → Prop
  | _, [] => True
  | trailersSeen, event :: rest =>
      Within trailersSeen event ∧ Bounded (trailersSeen || isTrailers event) rest

theorem validateEvent_eq_ok_iff {state next : DirectionState} {event : StreamEvent} :
    validateEvent state event = .ok next ↔
      Follows state event ∧ Within state.trailersSeen event ∧ advance state event = next := by
  rcases event with ⟨delta, ⟨offset, length⟩ | fields | _ | ⟨offset, category, phase⟩⟩
  · rw [validateEvent_data_eq_ok]
    simp only [Follows, Within, advance, isTerminal, isTrailers, Bool.or_false]
    tauto
  · rw [validateEvent_trailers_eq_ok]
    simp only [Follows, Within, advance, isTerminal, isTrailers, Bool.or_false, Bool.or_true,
      TrailersFit]
    tauto
  · rw [validateEvent_finish_eq_ok]
    simp only [Follows, Within, advance, isTerminal, isTrailers, Bool.or_false, Bool.or_true]
    tauto
  · rw [validateEvent_error_eq_ok]
    simp only [Follows, Within, advance, isTerminal, isTrailers, Bool.or_false, Bool.or_true]
    tauto

theorem checkFold_validateEvent_iff {state : DirectionState} {events : List StreamEvent} :
    (∃ final, checkFold validateEvent state events = .ok final) ↔
      Sequenced state events ∧ Bounded state.trailersSeen events := by
  induction events generalizing state with
  | nil => exact iff_of_true ⟨state, rfl⟩ ⟨trivial, trivial⟩
  | cons event rest ih =>
      rw [Sequenced, Bounded, checkFold_cons]
      simp only [bind_eq_ok, validateEvent_eq_ok_iff]
      constructor
      · rintro ⟨final, next, ⟨hfollows, hwithin, rfl⟩, hrest⟩
        obtain ⟨hsequenced, hbounded⟩ := ih.mp ⟨final, hrest⟩
        exact ⟨⟨hfollows, hsequenced⟩, hwithin, hbounded⟩
      · rintro ⟨⟨hfollows, hsequenced⟩, hwithin, hbounded⟩
        obtain ⟨final, hrest⟩ := ih.mpr ⟨hsequenced, hbounded⟩
        exact ⟨final, _, ⟨hfollows, hwithin, rfl⟩, hrest⟩

theorem validateDirection_iff {events : List StreamEvent} :
    validateDirection events = .ok () ↔ Sequenced {} events ∧ Bounded false events := by
  rw [validateDirection_eq_ok]
  exact checkFold_validateEvent_iff

theorem sequenced_append {state : DirectionState} {left right : List StreamEvent} :
    Sequenced state (left ++ right) ↔
      Sequenced state left ∧ Sequenced (left.foldl advance state) right := by
  induction left generalizing state with
  | nil => simp [Sequenced]
  | cons event rest ih =>
      rw [List.cons_append, Sequenced, Sequenced, ih, List.foldl_cons, and_assoc]

/-! ### Pushing -/

/-- A list of events that pushes have built: in sequence, with an end of the body only where
`ended`, no later than `time`, its DATA up to `reach`. -/
structure Built (events : List StreamEvent) (ended : Bool) (time reach : Nat) : Prop where
  sequenced : Sequenced {} events
  terminal : (events.foldl advance {}).terminal = ended
  delta : (events.foldl advance {}).lastDelta ≤ time
  offset : (events.foldl advance {}).lastOffset = reach
  length : events.length ≤ maxEventsPerDirection
  small : reach ≤ u64Max

theorem built_nil (time : Nat) : Built [] false time 0 where
  sequenced := trivial
  terminal := rfl
  delta := Nat.zero_le _
  offset := rfl
  length := Nat.zero_le _
  small := Nat.zero_le _

/-- The event is at the offset, where it has one. -/
def Placed (offset : Nat) (event : StreamEvent) : Prop :=
  match event.event with
  | .data dataOffset _ => dataOffset = offset
  | .error errorOffset category phase =>
      errorOffset = offset ∧ category.utf8ByteSize ≤ 64 ∧ phase.utf8ByteSize ≤ 64
  | .trailers _ | .finish => True

theorem placed_data (delta offset length : Nat) : Placed offset ⟨delta, .data offset length⟩ :=
  rfl

theorem placed_trailers (delta offset : Nat) (fields : List HeaderEntry) :
    Placed offset ⟨delta, .trailers fields⟩ :=
  trivial

theorem Placed.follows {offset time : Nat} {event : StreamEvent} (h : Placed offset event)
    (htime : time ≤ event.deltaNs) (hdata : isEmptyData event = false) :
    Follows { lastDelta := time, lastOffset := offset } event := by
  rcases event with ⟨delta, ⟨dataOffset, length⟩ | fields | _ | ⟨errorOffset, category, phase⟩⟩
  · refine ⟨rfl, htime, h, ?_⟩
    rintro rfl
    cases hdata
  · exact ⟨rfl, htime, trivial⟩
  · exact ⟨rfl, htime, trivial⟩
  · exact ⟨rfl, htime, h⟩

theorem Built.later {events : List StreamEvent} {ended : Bool} {time later offset : Nat}
    (h : Built events ended time offset) (hlater : time ≤ later) :
    Built events ended later offset :=
  { h with delta := h.delta.trans hlater }

theorem saturatingAdd_assoc (a b c : Nat) :
    saturatingAdd a (saturatingAdd b c) = saturatingAdd (saturatingAdd a b) c := by
  simp only [saturatingAdd]
  omega

theorem Built.append {events : List StreamEvent} {time offset : Nat} {event : StreamEvent}
    (h : Built events false time offset) (htime : time ≤ event.deltaNs)
    (hfollows : Follows { lastDelta := time, lastOffset := offset } event)
    (hroom : events.length < maxEventsPerDirection) :
    Built (events ++ [event]) (isTerminal event) event.deltaNs
      (advance { lastOffset := offset } event).lastOffset := by
  have hstate : Follows (events.foldl advance {}) event := by
    obtain ⟨-, -, hkind⟩ := hfollows
    refine ⟨h.terminal, h.delta.trans htime, ?_⟩
    rw [h.offset]
    exact hkind
  refine ⟨?_, ?_, ?_, ?_, ?_, ?_⟩
  · rw [sequenced_append]
    exact ⟨h.sequenced, hstate, trivial⟩
  · rw [List.foldl_append, List.foldl_cons, List.foldl_nil, advance, h.terminal]
    rfl
  · rw [List.foldl_append]
    exact Nat.le_refl _
  · rw [List.foldl_append, List.foldl_cons, List.foldl_nil, advance, advance, h.offset]
  · rw [List.length_append]
    exact hroom
  · rcases event with ⟨delta, ⟨dataOffset, length⟩ | fields | _ | ⟨_, _, _⟩⟩
    · exact saturatingAdd_le _ _
    · exact h.small
    · exact h.small
    · exact h.small

/-- DATA that is folded into the last event keeps the events in sequence. -/
theorem Built.coalesce {events next : List StreamEvent} {time offset delta length : Nat}
    (h : Built events false time offset) (htime : time ≤ delta)
    (hcoalesce : coalesce events ⟨delta, .data offset length⟩ = some next) :
    Built next false delta (saturatingAdd offset length) := by
  rw [StreamEventCapture.coalesce] at hcoalesce
  rcases hlast : events.getLast? with _ | ⟨lastDelta, kind⟩
  · rw [hlast] at hcoalesce
    cases hcoalesce
  rw [hlast] at hcoalesce
  rcases kind with ⟨lastOffset, lastLength⟩ | fields | _ | ⟨_, _, _⟩
  · dsimp only at hcoalesce
    split at hcoalesce
    · rename_i hoffset
      cases hcoalesce
      have hevents := List.dropLast_append_getLast? _ hlast
      have hsequenced := h.sequenced
      have hterminal := h.terminal
      have hdelta := h.delta
      have hlength := h.length
      rw [← hevents] at hsequenced hterminal hdelta hlength
      rw [sequenced_append] at hsequenced
      obtain ⟨hinit, ⟨hopen, horder, hplace, hnonempty⟩, -⟩ := hsequenced
      rw [List.foldl_append] at hterminal hdelta
      rw [List.length_append] at hlength
      refine ⟨?_, ?_, ?_, ?_, ?_, saturatingAdd_le _ _⟩
      · rw [sequenced_append]
        refine ⟨hinit, ⟨hopen, horder, hplace, ?_⟩, trivial⟩
        simp only [saturatingAdd, u64Max]
        omega
      · rw [List.foldl_append]
        exact hterminal
      · rw [List.foldl_append]
        exact hdelta.trans htime
      · rw [List.foldl_append]
        show saturatingAdd lastOffset (saturatingAdd lastLength length) = _
        rw [saturatingAdd_assoc, hoffset]
      · rw [List.length_append]
        exact hlength
    · cases hcoalesce
  · cases hcoalesce
  · cases hcoalesce
  · cases hcoalesce

/-- What a push that is accepted builds. -/
theorem Built.push {events next : List StreamEvent} {time offset : Nat} {event : StreamEvent}
    (h : Built events false time offset) (htime : time ≤ event.deltaNs)
    (hplaced : Placed offset event) (hpush : pushStreamEventInner events event = .ok next) :
    Built next (isTerminal event) event.deltaNs
      (advance { lastOffset := offset } event).lastOffset := by
  rw [pushStreamEventInner] at hpush
  split at hpush
  · rename_i hempty
    cases hpush
    rcases event with ⟨delta, ⟨dataOffset, _ | length⟩ | fields | _ | ⟨_, _, _⟩⟩
    · obtain rfl : dataOffset = offset := hplaced
      have hsame : saturatingAdd dataOffset 0 = dataOffset := saturatingAdd_of_le h.small
      show Built events false delta (saturatingAdd dataOffset 0)
      rw [hsame]
      exact h.later htime
    · cases hempty
    · cases hempty
    · cases hempty
    · cases hempty
  · rename_i hdata
    split at hpush
    · rename_i hroom
      cases hpush
      exact h.append htime (hplaced.follows htime (by simpa using hdata)) hroom
    · rw [orFail_eq_ok] at hpush
      obtain ⟨⟨dataOffset, length, hkind⟩, -⟩ := coalesce_eq_some hpush
      rcases event with ⟨delta, kind⟩
      obtain rfl : kind = .data dataOffset length := hkind
      obtain rfl : dataOffset = offset := hplaced
      exact h.coalesce htime hpush

/-! ### One clock for one body -/

/-- The times of the frames and of the end, as one clock gives them. -/
def Clocked (frames : List TimedFrame) (ending : Option TimedEnd) : Prop :=
  (frames.map TimedFrame.deltaNs ++ ending.toList.map TimedEnd.deltaNs).Pairwise (· ≤ ·)

theorem Clocked.head {frame : TimedFrame} {frames : List TimedFrame} {ending : Option TimedEnd}
    (h : Clocked (frame :: frames) ending) : ∀ later ∈ frames, frame.deltaNs ≤ later.deltaNs := by
  intro later hlater
  apply List.rel_of_pairwise_cons h
  exact List.mem_append_left _ (List.mem_map_of_mem hlater)

theorem Clocked.end {frame : TimedFrame} {frames : List TimedFrame} {ending : Option TimedEnd}
    (h : Clocked (frame :: frames) ending) : ∀ last ∈ ending, frame.deltaNs ≤ last.deltaNs := by
  intro last hlast
  apply List.rel_of_pairwise_cons h
  apply List.mem_append_right
  exact List.mem_map_of_mem (Option.mem_toList.mpr hlast)

theorem Clocked.tail {frame : TimedFrame} {frames : List TimedFrame} {ending : Option TimedEnd}
    (h : Clocked (frame :: frames) ending) : Clocked frames ending :=
  List.Pairwise.of_cons h

/-! ### The request -/

section

variable {maxBlobBytes : Nat}

theorem taken_frame_built {taken : Taken} {time : Nat} {frame : TimedFrame}
    (h : Built taken.events false time taken.offset) (htime : time ≤ frame.deltaNs) :
    Built (taken.frame maxBlobBytes pushStreamEventInner frame).events false frame.deltaNs
      (taken.frame maxBlobBytes pushStreamEventInner frame).offset := by
  rcases frame with ⟨delta, bytes | fields⟩
  · rw [Taken.frame]
    split
    · exact h.later htime
    · dsimp only
      rcases grow maxBlobBytes taken.content bytes with error | content
      · exact h.later htime
      · rcases hpush : pushStreamEventInner taken.events
          ⟨delta, .data taken.offset bytes.length⟩ with message | next
        · exact h.later htime
        · exact h.push htime (placed_data _ _ _) hpush
  · rw [Taken.frame]
    split
    · exact h.later htime
    · dsimp only
      rcases hpush : pushStreamEventInner taken.events
        ⟨delta, .trailers (headerEntries fields).1⟩ with message | next
      · exact h.later htime
      · exact h.push htime (placed_trailers _ _ _) hpush

/-- The events of a request body are in sequence, and there is room for them. -/
theorem takenFrames_sequenced {taken : Taken} {time : Nat} {frames : List TimedFrame}
    {ending : Option TimedEnd} (h : Built taken.events false time taken.offset)
    (hframes : ∀ frame ∈ frames, time ≤ frame.deltaNs)
    (hending : ∀ last ∈ ending, time ≤ last.deltaNs) (hclock : Clocked frames ending) :
    Sequenced {} ((frames.foldl (Taken.frame maxBlobBytes pushStreamEventInner) taken).finish
        pushStreamEventInner ending).events ∧
      ((frames.foldl (Taken.frame maxBlobBytes pushStreamEventInner) taken).finish
        pushStreamEventInner ending).events.length ≤ maxEventsPerDirection := by
  induction frames generalizing taken time with
  | nil =>
      rw [List.foldl_nil]
      rcases ending with _ | last
      · exact ⟨h.sequenced, h.length⟩
      · rw [Taken.finish]
        split
        · exact ⟨h.sequenced, h.length⟩
        · dsimp only
          rcases hpush : pushStreamEventInner taken.events (requestEndEvent taken.offset last) with
            message | next
          · exact ⟨h.sequenced, h.length⟩
          · have hplaced : Placed taken.offset (requestEndEvent taken.offset last) := by
              rcases last with ⟨delta, _ | failure⟩
              · trivial
              · exact ⟨rfl, category_asStr_size _, phase_asStr_size _⟩
            have hbuilt := h.push (hending last rfl) hplaced hpush
            exact ⟨hbuilt.sequenced, hbuilt.length⟩
  | cons frame frames ih =>
      rw [List.foldl_cons]
      exact ih (taken_frame_built h (hframes frame List.mem_cons_self)) hclock.head hclock.end
        hclock.tail

theorem takenBody_sequenced {exchange : Exchange}
    (hclock : Clocked exchange.polled exchange.requestEnd) :
    Sequenced {} (takenBody maxBlobBytes pushStreamEventInner exchange).events ∧
      (takenBody maxBlobBytes pushStreamEventInner exchange).events.length ≤
        maxEventsPerDirection :=
  takenFrames_sequenced (built_nil 0) (fun _ _ => Nat.zero_le _) (fun _ _ => Nat.zero_le _) hclock

/-! ### The response -/

theorem pushStreamEventInner_isData {events next : List StreamEvent} {event : StreamEvent}
    (hpush : pushStreamEventInner events event = .ok next) (hdata : isEmptyData event = false) :
    (events.any isData = true ∨ isData event = true) → next.any isData = true := by
  rw [pushStreamEventInner, if_neg (by simp [hdata])] at hpush
  intro h
  split at hpush
  · cases hpush
    simpa using h
  · rw [orFail_eq_ok, coalesce] at hpush
    split at hpush
    · split at hpush
      · split at hpush
        · cases hpush
          simp [isData]
        · cases hpush
      · cases hpush
    · cases hpush

/-- What the response loop has built: the events, and that stored bytes have left DATA. -/
structure ReceivedBuilt (received : Received) (time : Nat) : Prop where
  built : Built received.events false time received.offset
  data : received.content ≠ [] → received.events.any isData = true
  small : received.content.length ≤ u64Max

theorem receivedStart_built (time : Nat) : ReceivedBuilt .start time where
  built := built_nil time
  data h := absurd rfl h
  small := Nat.zero_le _

theorem received_frame_built {received next : Received} {time : Nat} {frame : TimedFrame}
    (h : ReceivedBuilt received time) (htime : time ≤ frame.deltaNs)
    (hframe : received.frame maxBlobBytes frame = .ok next) :
    ReceivedBuilt next frame.deltaNs := by
  rcases frame with ⟨delta, bytes | fields⟩
  · simp only [Received.frame, bind_eq_ok, mapError_eq_ok, pushStreamEvent, pure_eq_ok] at hframe
    obtain ⟨content, hgrow, events, hpush, rfl⟩ := hframe
    refine ⟨h.built.push htime (placed_data _ _ _) hpush, ?_, ?_⟩
    · intro hcontent
      rcases bytes with _ | ⟨byte, bytes⟩
      · rw [grow_eq_ok hgrow, List.append_nil] at hcontent
        cases hpush
        exact h.data hcontent
      · exact pushStreamEventInner_isData hpush rfl (.inr rfl)
    · exact grow_length_le hgrow
  · simp only [Received.frame, bind_eq_ok, mapError_eq_ok, pushStreamEvent, pure_eq_ok] at hframe
    obtain ⟨events, hpush, rfl⟩ := hframe
    refine ⟨h.built.push htime (placed_trailers _ _ _) hpush, ?_, h.small⟩
    intro hcontent
    exact pushStreamEventInner_isData hpush rfl (.inl (h.data hcontent))

theorem receivedFrames_built {received final : Received} {time : Nat} {frames : List TimedFrame}
    {last : TimedEnd} (h : ReceivedBuilt received time)
    (hframes : ∀ frame ∈ frames, time ≤ frame.deltaNs) (hlast : time ≤ last.deltaNs)
    (hclock : Clocked frames (some last))
    (hrun : checkFold (Received.frame maxBlobBytes) received frames = .ok final) :
    ReceivedBuilt final last.deltaNs := by
  induction frames generalizing received time with
  | nil =>
      cases hrun
      exact ⟨h.built.later hlast, h.data, h.small⟩
  | cons frame frames ih =>
      simp only [checkFold_cons, bind_eq_ok] at hrun
      obtain ⟨next, hnext, hrest⟩ := hrun
      exact ih (received_frame_built h (hframes frame List.mem_cons_self) hnext) hclock.head
        (hclock.end last rfl) hclock.tail hrest

theorem receivedBody_sequenced {reply : Reply} {received : Received}
    (hclock : Clocked reply.frames (some reply.ending))
    (h : receivedBody maxBlobBytes reply = .ok received) :
    Sequenced {} received.events ∧ received.events.length ≤ maxEventsPerDirection ∧
      (received.content ≠ [] → received.events.any isData = true) ∧
      received.content.length ≤ u64Max := by
  simp only [receivedBody, bind_eq_ok, pushStreamEvent, mapError_eq_ok, pure_eq_ok] at h
  obtain ⟨before, hframes, events, hpush, rfl⟩ := h
  have hbuilt := receivedFrames_built (receivedStart_built 0) (fun _ _ => Nat.zero_le _)
    (Nat.zero_le _) hclock hframes
  have hplaced : Placed before.offset (responseEndEvent before.offset reply.ending) := by
    rcases reply.ending with ⟨delta, _ | ⟨category, phase⟩⟩
    · trivial
    · exact ⟨rfl, category_asStr_size _, phase_asStr_size _⟩
  have hended := hbuilt.built.push (Nat.le_refl _) hplaced hpush
  refine ⟨hended.sequenced, hended.length, ?_, hbuilt.small⟩
  intro hcontent
  have hdata : isEmptyData (responseEndEvent before.offset reply.ending) = false := by
    rcases reply.ending with ⟨delta, _ | ⟨category, phase⟩⟩
    · rfl
    · rfl
  exact pushStreamEventInner_isData hpush hdata (.inl (hbuilt.data hcontent))

/-! ### After a transform of the response -/

/-- Without its DATA a timeline is still in sequence, from any earlier state. -/
theorem sequenced_withoutData {state earlier : DirectionState} {events : List StreamEvent}
    (hterminal : earlier.terminal = state.terminal) (hdelta : earlier.lastDelta ≤ state.lastDelta)
    (h : Sequenced state events) :
    Sequenced earlier
      ((events.filter fun event => !isData event).map (errorAt earlier.lastOffset)) := by
  induction events generalizing state earlier with
  | nil => trivial
  | cons event rest ih =>
      obtain ⟨⟨hopen, horder, hkind⟩, hrest⟩ := h
      have hearlier : earlier.terminal = false := hterminal.trans hopen
      rcases event with ⟨delta, ⟨offset, length⟩ | fields | _ | ⟨offset, category, phase⟩⟩
      · exact ih (by simp [advance, isTerminal, hterminal]) (hdelta.trans horder) hrest
      · refine ⟨⟨hearlier, hdelta.trans horder, trivial⟩, ?_⟩
        have hstate : (advance earlier ⟨delta, .trailers fields⟩).terminal =
            (advance state ⟨delta, .trailers fields⟩).terminal := by
          simp [advance, isTerminal, hterminal]
        exact ih hstate (Nat.le_refl _) hrest
      · refine ⟨⟨hearlier, hdelta.trans horder, trivial⟩, ?_⟩
        have hstate : (advance earlier ⟨delta, .finish⟩).terminal =
            (advance state ⟨delta, .finish⟩).terminal := by
          simp [advance, isTerminal]
        exact ih hstate (Nat.le_refl _) hrest
      · refine ⟨⟨hearlier, hdelta.trans horder, rfl, hkind.2⟩, ?_⟩
        have hstate : (advance earlier ⟨delta, .error earlier.lastOffset category phase⟩).terminal =
            (advance state ⟨delta, .error offset category phase⟩).terminal := by
          simp [advance, isTerminal]
        exact ih hstate (Nat.le_refl _) hrest

theorem foldl_advance_terminal (state : DirectionState) (events : List StreamEvent) :
    (events.foldl advance state).terminal = (state.terminal || events.any isTerminal) := by
  induction events generalizing state with
  | nil => simp
  | cons event rest ih =>
      rw [List.foldl_cons, ih, List.any_cons, advance, Bool.or_assoc]

theorem foldl_advance_lastOffset {events : List StreamEvent}
    (h : ∀ event ∈ events, isData event = false) (state : DirectionState) :
    (events.foldl advance state).lastOffset = state.lastOffset := by
  induction events generalizing state with
  | nil => rfl
  | cons event rest ih =>
      rw [List.foldl_cons, ih fun other hother => h other (List.mem_cons_of_mem _ hother)]
      have hevent := h event List.mem_cons_self
      rcases event with ⟨delta, ⟨offset, length⟩ | fields | _ | ⟨_, _, _⟩⟩
      · cases hevent
      · rfl
      · rfl
      · rfl

theorem map_errorAt {events : List StreamEvent} (h : ∀ event ∈ events, isTerminal event = false)
    (offset : Nat) : events.map (errorAt offset) = events := by
  conv_rhs => rw [← List.map_id events]
  apply List.map_congr_left
  intro event hevent
  have hopen := h event hevent
  rcases event with ⟨delta, ⟨_, _⟩ | fields | _ | ⟨_, _, _⟩⟩
  · rfl
  · rfl
  · rfl
  · cases hopen

/-- With one DATA event in the place of the first, it is in sequence again. -/
theorem sequenced_oneData {before after : List StreamEvent} {first : StreamEvent}
    {expected : Nat} (hbefore : ∀ event ∈ before, isData event = false)
    (hfirst : isData first = true) (hexpected : expected ≠ 0) (hsmall : expected ≤ u64Max)
    (h : Sequenced {} (before ++ first :: after)) :
    Sequenced {} ((before ++ ⟨first.deltaNs, .data 0 expected⟩ ::
      after.filter fun event => !isData event).map (errorAt expected)) := by
  rw [sequenced_append] at h
  obtain ⟨hlead, ⟨hopen, horder, -⟩, hrest⟩ := h
  have hterminal := hopen
  rw [foldl_advance_terminal, Bool.false_or] at hterminal
  have hbeforeOpen : ∀ event ∈ before, isTerminal event = false := by
    intro event hevent
    by_contra hended
    have hany : before.any isTerminal = true :=
      List.any_eq_true.mpr ⟨event, hevent, by simpa using hended⟩
    rw [hany] at hterminal
    cases hterminal
  rw [List.map_append, map_errorAt hbeforeOpen, sequenced_append]
  refine ⟨hlead, ⟨hopen, horder, ?_, hexpected⟩, ?_⟩
  · rw [foldl_advance_lastOffset hbefore]
  · have hoffset : (advance (before.foldl advance {})
        ⟨first.deltaNs, .data 0 expected⟩).lastOffset = expected := by
      show saturatingAdd 0 expected = expected
      rw [saturatingAdd_of_le (by omega), Nat.zero_add]
    have hstate : (advance (before.foldl advance {})
        ⟨first.deltaNs, .data 0 expected⟩).terminal =
        (advance (before.foldl advance {}) first).terminal := by
      rcases first with ⟨delta, ⟨_, _⟩ | fields | _ | ⟨_, _, _⟩⟩
      · rfl
      · cases hfirst
      · cases hfirst
      · cases hfirst
    have hafter := sequenced_withoutData hstate (Nat.le_refl _) hrest
    rw [hoffset] at hafter
    exact hafter

theorem reconcile_sequenced {events : List StreamEvent} {outcome : FlowOutcome}
    (h : Sequenced {} events) (hlength : events.length ≤ maxEventsPerDirection)
    (hdata : ∀ response, outcome = .response response → 0 < response.body.len.getD 0 →
      events.any isData = true)
    (hsmall : ∀ response, outcome = .response response → response.body.len.getD 0 ≤ u64Max) :
    Sequenced {} (reconcileStreamEventBodyLength events outcome) ∧
      (reconcileStreamEventBodyLength events outcome).length ≤ maxEventsPerDirection := by
  rcases outcome with response | failure
  · rw [reconcileStreamEventBodyLength]
    dsimp only
    split
    · exact ⟨h, hlength⟩
    · split
      · rename_i hexpected
        obtain ⟨event, hevent, hisData⟩ := List.any_eq_true.mp (hdata response rfl hexpected)
        obtain ⟨first, hfirst⟩ : ∃ first, events.find? isData = some first := by
          rw [← Option.isSome_iff_exists, List.find?_isSome]
          exact ⟨event, hevent, hisData⟩
        obtain ⟨hdataFirst, before, after, rfl, hbefore⟩ :=
          List.find?_eq_some_iff_append.mp hfirst
        have hnone : ∀ event ∈ before, isData event = false := by
          simpa using hbefore
        have hindex : (before ++ first :: after).findIdx? isData = some before.length := by
          rw [List.findIdx?_append, List.findIdx?_eq_none_iff.mpr hnone, List.findIdx?_cons,
            if_pos hdataFirst]
          simp
        have hothers : (before ++ first :: after).filter (fun event => !isData event) =
            before ++ after.filter fun event => !isData event := by
          rw [List.filter_append, List.filter_cons_of_neg (by simp [hdataFirst]),
            List.filter_eq_self.mpr (by simpa using hnone)]
        have hinsert : min before.length
            (before ++ after.filter fun event => !isData event).length = before.length := by
          rw [List.length_append]
          omega
        rw [hfirst, hindex, hothers]
        simp only [Option.map_some, Option.getD_some, hinsert, List.take_left', List.drop_left']
        refine ⟨sequenced_oneData hnone hdataFirst hexpected.ne' (hsmall response rfl) h, ?_⟩
        have hfilter := List.length_filter_le (fun event => !isData event) after
        simp only [List.length_map, List.length_append, List.length_cons] at hlength ⊢
        omega
      · rename_i hexpected
        have hzero : response.body.len.getD 0 = 0 := by omega
        refine ⟨?_, ?_⟩
        · rw [hzero]
          exact sequenced_withoutData rfl (Nat.le_refl _) h
        · rw [List.length_map]
          exact (List.length_filter_le _ _).trans hlength
  · exact ⟨h, hlength⟩

theorem filedOutcome_sequenced {storage : Codec} {codec : BodyCodec N} {settings : Settings}
    {exchange : Exchange} {answer : FiledOutcome}
    (hclock : ∀ reply, exchange.result = .ok reply → Clocked reply.frames (some reply.ending))
    (h : filedOutcome storage codec settings maxBlobBytes exchange = .ok answer) :
    Sequenced {}
        (reconcileStreamEventBodyLength answer.observed.events answer.observed.outcome) ∧
      (reconcileStreamEventBodyLength answer.observed.events answer.observed.outcome).length ≤
        maxEventsPerDirection := by
  rw [filedOutcome] at h
  rcases hresult : exchange.result with failure | reply
  · rw [hresult] at h
    cases h
    exact ⟨trivial, Nat.zero_le _⟩
  · rw [hresult] at h
    simp only [bind_eq_ok, pure_eq_ok] at h
    obtain ⟨received, hreceived, stored, hstored, rfl⟩ := h
    obtain ⟨hsequenced, hlength, hdata, hsmall⟩ :=
      receivedBody_sequenced (hclock reply hresult) hreceived
    obtain ⟨htransform, hreference, hbound⟩ := filedStaged_eq_ok hstored
    have hbody : stored.body.len.getD 0 = stored.content.length := by
      rw [reference_len hreference]
      rfl
    refine reconcile_sequenced hsequenced hlength ?_ ?_
    · rintro response hresponse hpositive
      cases hresponse
      apply hdata
      rintro hempty
      rw [hempty, transformBody, if_pos rfl] at htransform
      have hcleared : [] = stored.content := congrArg Prod.fst (Except.ok.inj htransform)
      change 0 < stored.body.len.getD 0 at hpositive
      rw [hbody, ← hcleared] at hpositive
      exact absurd hpositive (Nat.lt_irrefl 0)
    · rintro response hresponse
      cases hresponse
      show stored.body.len.getD 0 ≤ u64Max
      rw [hbody]
      omega

end

end EggReplay.Http.RecordedTimelines
