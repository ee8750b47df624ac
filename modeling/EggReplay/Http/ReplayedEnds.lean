import EggReplay.Http.ResponseRendering
import EggReplay.Http.StreamEventCapture

/-!
When a replayed body is the recorded one. A timed body gives every stored byte and then ends
as its timeline does; a response without stored bytes, and one appended since the load, is
rendered without its timeline.
-/

namespace EggReplay.Http.ReplayedEnds

open EggReplay.Library.Checks
open EggReplay.Library.Text
open EggReplay.Core.FlowRecord
open EggReplay.Core.StreamTimeline
open EggReplay.Store.Fixture
open EggReplay.Http.ResponseRendering
open EggReplay.Http.StreamEventCapture

/-! ### Timelines -/

def errorMessage (category phase : String) : String :=
  "recorded stream error: " ++ category ++ "/" ++ phase

/-- The first error of a timeline, and the DATA lengths before it. -/
def eventsError : List StreamEvent → Option String
  | [] => none
  | event :: rest =>
      match event.event with
      | .error _ category phase => some (errorMessage category phase)
      | .data _ _ | .trailers _ | .finish => eventsError rest

def eventSegments : List StreamEvent → List Nat
  | [] => []
  | event :: rest =>
      match event.event with
      | .error _ _ _ => []
      | .data _ length => length :: eventSegments rest
      | .trailers _ | .finish => eventSegments rest

def stepsError : List TimedStreamStep → Option String
  | [] => none
  | .error _ message :: _ => some message
  | .data _ _ :: rest => stepsError rest

def segments : List TimedStreamStep → List Nat
  | [] => []
  | .error _ _ :: _ => []
  | .data _ length :: rest => length :: segments rest

/-- The recorded events end in an error. -/
def endsInError (events : List StreamEvent) : Bool :=
  match events.getLast? with
  | some ⟨_, .error _ _ _⟩ => true
  | _ => false

theorem scheduleEvent_steps {timing : StreamTimingMode} {schedule next : Schedule}
    {event : StreamEvent} (h : scheduleEvent timing schedule event = .ok next) :
    ∃ added, next.steps = schedule.steps ++ added ∧
      (∀ rest, stepsError (added ++ rest) =
        match event.event with
        | .error _ category phase => some (errorMessage category phase)
        | .data _ _ | .trailers _ | .finish => stepsError rest) ∧
      ∀ rest, segments (added ++ rest) =
        match event.event with
        | .error _ _ _ => []
        | .data _ length => length :: segments rest
        | .trailers _ | .finish => segments rest := by
  rw [scheduleEvent, bind_eq_ok] at h
  obtain ⟨delay, -, h⟩ := h
  rcases hevent : event.event with ⟨offset, length⟩ | fields | _ | ⟨offset, category, phase⟩
  · rw [hevent] at h
    obtain rfl := pure_eq_ok.mp h
    exact ⟨_, rfl, fun rest => rfl, fun rest => rfl⟩
  · rw [hevent] at h
    obtain rfl := pure_eq_ok.mp h
    exact ⟨[], (List.append_nil _).symm, fun rest => rfl, fun rest => rfl⟩
  · rw [hevent] at h
    obtain rfl := pure_eq_ok.mp h
    exact ⟨[], (List.append_nil _).symm, fun rest => rfl, fun rest => rfl⟩
  · rw [hevent] at h
    obtain rfl := pure_eq_ok.mp h
    exact ⟨_, rfl, fun rest => rfl, fun rest => rfl⟩

/-- The schedule has the segments and the error of its timeline. -/
theorem schedule_steps {timing : StreamTimingMode} {start final : Schedule}
    {events : List StreamEvent} (h : checkFold (scheduleEvent timing) start events = .ok final) :
    ∃ added, final.steps = start.steps ++ added ∧ stepsError added = eventsError events ∧
      segments added = eventSegments events := by
  induction events generalizing start with
  | nil =>
      obtain rfl := Except.ok.inj h
      exact ⟨[], (List.append_nil _).symm, rfl, rfl⟩
  | cons event rest ih =>
      rw [checkFold_cons, bind_eq_ok] at h
      obtain ⟨next, hnext, hrest⟩ := h
      obtain ⟨first, hfirst, herror, hsegments⟩ := scheduleEvent_steps hnext
      obtain ⟨added, hadded, hresterror, hrestsegments⟩ := ih hrest
      refine ⟨first ++ added, ?_, ?_, ?_⟩
      · rw [hadded, hfirst, List.append_assoc]
      · rw [herror, hresterror, eventsError]
      · rw [hsegments, hrestsegments, eventSegments]

theorem endsInError_cons {event : StreamEvent} {rest : List StreamEvent} (h : rest ≠ []) :
    endsInError (event :: rest) = endsInError rest := by
  rw [endsInError, endsInError, List.getLast?_cons, List.getLast?_eq_some_getLast h]
  rfl

theorem validateEvent_terminal {state next : DirectionState} {event : StreamEvent}
    (h : validateEvent state event = .ok next) :
    state.terminal = false ∧
      ((∃ offset category phase, event.event = .error offset category phase) →
        next.terminal = true) := by
  obtain ⟨delta, kind⟩ := event
  rcases kind with ⟨offset, length⟩ | fields | _ | ⟨offset, category, phase⟩
  · obtain ⟨⟨hopen, -⟩, -, -⟩ := validateEvent_data_eq_ok.mp h
    exact ⟨hopen, fun ⟨_, _, _, hother⟩ => by cases hother⟩
  · obtain ⟨⟨hopen, -⟩, -, -⟩ := validateEvent_trailers_eq_ok.mp h
    exact ⟨hopen, fun ⟨_, _, _, hother⟩ => by cases hother⟩
  · obtain ⟨⟨hopen, -⟩, -⟩ := validateEvent_finish_eq_ok.mp h
    exact ⟨hopen, fun ⟨_, _, _, hother⟩ => by cases hother⟩
  · obtain ⟨⟨hopen, -⟩, -, rfl⟩ := validateEvent_error_eq_ok.mp h
    exact ⟨hopen, fun _ => rfl⟩

/-- Nothing comes after an error. -/
theorem rest_eq_nil {state final : DirectionState} {event : StreamEvent} {rest : List StreamEvent}
    (h : checkFold validateEvent state (event :: rest) = .ok final)
    (herror : ∃ offset category phase, event.event = .error offset category phase) :
    rest = [] := by
  rw [checkFold_cons, bind_eq_ok] at h
  obtain ⟨next, hnext, hrest⟩ := h
  have hterminal := (validateEvent_terminal hnext).2 herror
  cases rest with
  | nil => rfl
  | cons later rest =>
      rw [checkFold_cons, bind_eq_ok] at hrest
      obtain ⟨after, hafter, -⟩ := hrest
      rw [(validateEvent_terminal hafter).1] at hterminal
      cases hterminal

theorem endsInError_iff {state final : DirectionState} {events : List StreamEvent}
    (h : checkFold validateEvent state events = .ok final) :
    endsInError events = true ↔ eventsError events ≠ none := by
  induction events generalizing state with
  | nil => exact ⟨(by rintro ⟨⟩), fun hnone => absurd rfl hnone⟩
  | cons event rest ih =>
      obtain ⟨delta, kind⟩ := event
      by_cases herror : ∃ offset category phase, kind = .error offset category phase
      · obtain rfl := rest_eq_nil h herror
        obtain ⟨offset, category, phase, rfl⟩ := herror
        exact ⟨fun _ => Option.some_ne_none _, fun _ => rfl⟩
      · have hrest : eventsError (⟨delta, kind⟩ :: rest) = eventsError rest := by
          rcases kind with _ | _ | _ | ⟨offset, category, phase⟩
          · rfl
          · rfl
          · rfl
          · exact absurd ⟨offset, category, phase, rfl⟩ herror
        rw [checkFold_cons, bind_eq_ok] at h
        obtain ⟨next, -, hnext⟩ := h
        rw [hrest, ← ih hnext]
        by_cases hnil : rest = []
        · subst hnil
          rcases kind with _ | _ | _ | ⟨offset, category, phase⟩
          · exact Iff.rfl
          · exact Iff.rfl
          · exact Iff.rfl
          · exact absurd ⟨offset, category, phase, rfl⟩ herror
        · rw [endsInError_cons hnil]

theorem eventSegments_ne_zero {state final : DirectionState} {events : List StreamEvent}
    (h : checkFold validateEvent state events = .ok final) :
    ∀ length ∈ eventSegments events, length ≠ 0 := by
  induction events generalizing state with
  | nil => exact fun length hlength => absurd hlength List.not_mem_nil
  | cons event rest ih =>
      obtain ⟨delta, kind⟩ := event
      rw [checkFold_cons, bind_eq_ok] at h
      obtain ⟨next, hnext, hrest⟩ := h
      rcases kind with ⟨offset, length⟩ | fields | _ | ⟨offset, category, phase⟩
      · obtain ⟨-, ⟨-, -, hlength⟩, -⟩ := validateEvent_data_eq_ok.mp hnext
        intro other hother
        rcases List.mem_cons.mp hother with rfl | hmem
        · exact hlength
        · exact ih hrest other hmem
      · exact ih hrest
      · exact ih hrest
      · exact fun length hlength => absurd hlength List.not_mem_nil

theorem saturatingAdd_lt {a b : Nat} (h : saturatingAdd a b < u64Max) :
    saturatingAdd a b = a + b := by
  rw [saturatingAdd] at h ⊢
  omega

/-- The lengths add up as long as the sum stays below the bound of its type. -/
theorem sum_eventSegments {state final : DirectionState} {events : List StreamEvent}
    (h : checkFold validateEvent state events = .ok final) (hlt : dataLength events < u64Max) :
    (eventSegments events).sum = dataLength events := by
  suffices hsum : ∀ total,
      events.foldl (fun total event => saturatingAdd total (dataBytes event)) total < u64Max →
        events.foldl (fun total event => saturatingAdd total (dataBytes event)) total =
          total + (eventSegments events).sum by
    have hzero := hsum 0 hlt
    rw [Nat.zero_add] at hzero
    exact hzero.symm
  clear hlt
  induction events generalizing state with
  | nil => exact fun total _ => rfl
  | cons event rest ih =>
      intro total hlt
      have hall := h
      obtain ⟨delta, kind⟩ := event
      rw [checkFold_cons, bind_eq_ok] at h
      obtain ⟨next, -, hrest⟩ := h
      rw [List.foldl_cons] at hlt ⊢
      rcases kind with ⟨offset, length⟩ | fields | _ | ⟨offset, category, phase⟩
      · have hmore := ih hrest _ hlt
        have hfirst : saturatingAdd total length = total + length := by
          refine saturatingAdd_lt ?_
          dsimp only [dataBytes] at hmore hlt
          omega
        rw [hmore, eventSegments, List.sum_cons, dataBytes]
        dsimp only
        rw [hfirst, Nat.add_assoc]
      · have hmore := ih hrest _ hlt
        have hfirst : saturatingAdd total 0 = total + 0 := by
          refine saturatingAdd_lt ?_
          dsimp only [dataBytes] at hmore hlt
          omega
        rw [hmore, eventSegments, dataBytes]
        dsimp only
        rw [hfirst, Nat.add_zero]
      · have hmore := ih hrest _ hlt
        have hfirst : saturatingAdd total 0 = total + 0 := by
          refine saturatingAdd_lt ?_
          dsimp only [dataBytes] at hmore hlt
          omega
        rw [hmore, eventSegments, dataBytes]
        dsimp only
        rw [hfirst, Nat.add_zero]
      · obtain rfl := rest_eq_nil hall ⟨offset, category, phase, rfl⟩
        exact saturatingAdd_lt hlt

/-! ### Reading a segment -/

/-- A stored blob whose file holds it and can be read. -/
structure Stored (sha256 : Bytes → String) (blob : BlobRef) (file : BlobFile) : Prop where
  length : file.content.length = blob.length
  digest : sha256 file.content = blob.sha256
  readable : ∀ offset, (file.given offset).isSome = true

/-- A body stream on its way through the file. -/
structure Reading (file : BlobFile) (state : BodyState) : Prop where
  opened : state.file = some file
  running : state.terminal = false
  hashed : state.hashed = file.content.take state.read
  bounded : state.read ≤ file.content.length

section

variable {sha256 : Bytes → String} {blob : BlobRef} {file : BlobFile}

/-- A read gives some of what is left, and nothing only at the end. -/
theorem readAt_stored (hstored : Stored sha256 blob file) (offset : Nat) {bufferLength : Nat}
    (hbuffer : bufferLength ≠ 0) :
    ∃ chunk, file.readAt offset bufferLength = .ok chunk ∧ chunk.length ≤ bufferLength ∧
      (chunk = [] → file.content.length ≤ offset) ∧
      file.content.drop offset = chunk ++ file.content.drop (offset + chunk.length) := by
  obtain ⟨count, hcount⟩ := Option.isSome_iff_exists.mp (hstored.readable offset)
  refine ⟨(file.content.drop offset).take (min bufferLength (max count 1)), ?_, ?_, ?_, ?_⟩
  · rw [BlobFile.readAt, hcount]
  · rw [List.length_take]
    omega
  · intro hnil
    have hlength := congrArg List.length hnil
    rw [List.length_take, List.length_drop, List.length_nil] at hlength
    omega
  · rw [List.length_take, List.length_drop]
    rcases Nat.le_total (min bufferLength (max count 1)) (file.content.length - offset) with
      hle | hle
    · rw [Nat.min_eq_left hle, ← List.drop_drop, List.take_append_drop]
    · have hend : file.content.drop (offset + (file.content.length - offset)) = [] :=
        List.drop_eq_nil_of_le (by omega)
      rw [Nat.min_eq_right hle, hend, List.append_nil,
        List.take_of_length_le (by rw [List.length_drop]; exact hle)]

/-- The state after a chunk. -/
def nextState (state : BodyState) (chunk : Bytes) : BodyState :=
  { state with
    hashed := state.hashed ++ chunk
    read := state.read + chunk.length
    segmentRemaining := state.segmentRemaining - chunk.length }

theorem readSegment_stored (hstored : Stored sha256 blob file) {state : BodyState}
    (hreading : Reading file state) (delayNs : Nat) :
    (file.content.drop state.read = [] ∧
      state.readSegment sha256 blob file delayNs = none) ∨
    ∃ chunk, chunk ≠ [] ∧ (state.segmentRemaining ≠ 0 → chunk.length ≤ state.segmentRemaining) ∧
      file.content.drop state.read = chunk ++ file.content.drop (state.read + chunk.length) ∧
      state.readSegment sha256 blob file delayNs =
        some (⟨delayNs, .ok chunk⟩, nextState state chunk) := by
  have hbuffer : (if state.segmentRemaining = 0 then maxChunkBytes
      else min state.segmentRemaining maxChunkBytes) ≠ 0 := by
    rw [maxChunkBytes]
    split
    · decide
    · omega
  obtain ⟨chunk, hchunk, hshort, hend, hdrop⟩ := readAt_stored hstored state.read hbuffer
  rw [BodyState.readSegment, hchunk]
  dsimp only
  rcases hcases : chunk with _ | ⟨first, others⟩
  · have hread : state.read = file.content.length :=
      Nat.le_antisymm hreading.bounded (hend hcases)
    have hhashed : sha256 state.hashed = blob.sha256 := by
      rw [hreading.hashed, hread, List.take_length, hstored.digest]
    refine .inl ⟨List.drop_eq_nil_of_le (Nat.le_of_eq hread.symm), ?_⟩
    have hwhole : ¬(state.read ≠ blob.length ∨ sha256 state.hashed ≠ blob.sha256) := by
      rw [not_or, not_not, not_not]
      exact ⟨hread.trans hstored.length, hhashed⟩
    exact if_neg hwhole
  · rw [hcases] at hshort hdrop
    refine .inr ⟨first :: others, List.cons_ne_nil _ _, ?_, hdrop, ?_⟩
    · intro hsegment
      rw [if_neg hsegment] at hshort
      exact hshort.trans (Nat.min_le_left _ _)
    · have hlength := congrArg List.length hdrop
      rw [List.length_append, List.length_drop] at hlength
      have hinside : ¬blob.length < state.read + (first :: others).length := by
        rw [← hstored.length]
        have hbounded := hreading.bounded
        omega
      exact if_neg hinside

theorem Reading.next {state : BodyState} (hreading : Reading file state) {chunk : Bytes}
    (hdrop : file.content.drop state.read =
      chunk ++ file.content.drop (state.read + chunk.length)) :
    Reading file (nextState state chunk) where
  opened := hreading.opened
  running := hreading.running
  hashed := by
    rw [nextState]
    dsimp only
    have htake : (file.content.drop state.read).take chunk.length = chunk := by
      rw [hdrop, List.take_left]
    rw [List.take_add, ← hreading.hashed, htake]
  bounded := by
    have hlength := congrArg List.length hdrop
    rw [List.length_append, List.length_drop] at hlength
    have hbounded := hreading.bounded
    rw [nextState]
    dsimp only
    by_cases hend : state.read + chunk.length ≤ file.content.length
    · exact hend
    · omega

/-- Where the schedule ends in an error, its segments are what is left to read. -/
def Fits (state : BodyState) (left : Nat) : Prop :=
  stepsError state.steps ≠ none →
    (∀ length ∈ segments state.steps, length ≠ 0) ∧
      state.segmentRemaining + (segments state.steps).sum = left

/-- How a body ends. -/
def bodyEnding (finish : Ending) : Option String → Ending
  | none => finish
  | some message => .failed message

/-- What a read comes to where a segment is under way before a recorded error. -/
theorem readSegment_fits (hstored : Stored sha256 blob file) {state : BodyState}
    (hreading : Reading file state) (hfits : Fits state (file.content.drop state.read).length)
    (hsegment : stepsError state.steps ≠ none → state.segmentRemaining ≠ 0) (delayNs : Nat) :
    (file.content.drop state.read = [] ∧ stepsError state.steps = none ∧
      state.readSegment sha256 blob file delayNs = none) ∨
    ∃ chunk next, chunk ≠ [] ∧ Reading file next ∧
      Fits next (file.content.drop next.read).length ∧ next.steps = state.steps ∧
      file.content.drop state.read = chunk ++ file.content.drop next.read ∧
      state.readSegment sha256 blob file delayNs = some (⟨delayNs, .ok chunk⟩, next) := by
  rcases readSegment_stored hstored hreading delayNs with ⟨hend, hpoll⟩ |
    ⟨chunk, hchunk, hinside, hdrop, hpoll⟩
  · refine .inl ⟨hend, ?_, hpoll⟩
    by_contra herror
    have hsum := (hfits herror).2
    rw [hend, List.length_nil] at hsum
    exact hsegment herror (Nat.eq_zero_of_add_eq_zero_right hsum)
  · refine .inr ⟨chunk, nextState state chunk, hchunk, hreading.next hdrop, ?_, rfl, hdrop, hpoll⟩
    intro herror
    obtain ⟨hnonzero, hsum⟩ := hfits herror
    refine ⟨hnonzero, ?_⟩
    have hlength := congrArg List.length hdrop
    rw [List.length_append, ← hsum] at hlength
    have hshort := hinside (hsegment herror)
    rw [nextState]
    dsimp only
    omega

/-- One poll: the recorded error, the end of the file, or the next chunk. -/
theorem poll_stored (hstored : Stored sha256 blob file) {state : BodyState}
    (hreading : Reading file state)
    (hfits : Fits state (file.content.drop state.read).length) :
    (∃ delay message next, file.content.drop state.read = [] ∧
      stepsError state.steps = some message ∧
      state.poll sha256 blob = some (⟨delay, .error message⟩, next)) ∨
    (file.content.drop state.read = [] ∧ stepsError state.steps = none ∧
      state.poll sha256 blob = none) ∨
    ∃ delay chunk next, chunk ≠ [] ∧ Reading file next ∧
      Fits next (file.content.drop next.read).length ∧
      stepsError next.steps = stepsError state.steps ∧
      file.content.drop state.read = chunk ++ file.content.drop next.read ∧
      state.poll sha256 blob = some (⟨delay, .ok chunk⟩, next) := by
  by_cases hidle : state.segmentRemaining = 0 ∧ state.steps ≠ []
  · obtain ⟨hzero, hsteps⟩ := hidle
    obtain ⟨step, rest, hrest⟩ := List.exists_cons_of_ne_nil hsteps
    rcases step with ⟨delay, length⟩ | ⟨delay, message⟩
    · have hpoll : state.poll sha256 blob =
          { state with steps := rest, segmentRemaining := length }.readSegment sha256 blob file
            delay := by
        rw [BodyState.poll, hreading.running, hreading.opened, hzero, hrest]
        rfl
      have hsame : stepsError state.steps = stepsError rest := by
        rw [hrest]
        rfl
      have hopened : stepsError rest ≠ none → length ≠ 0 ∧
          (∀ other ∈ segments rest, other ≠ 0) ∧
            length + (segments rest).sum = (file.content.drop state.read).length := by
        intro herror
        obtain ⟨hnonzero, hsum⟩ := hfits (by rw [hsame]; exact herror)
        rw [hrest, segments] at hnonzero hsum
        rw [hzero, Nat.zero_add, List.sum_cons] at hsum
        exact ⟨hnonzero length List.mem_cons_self,
          fun other hother => hnonzero other (List.mem_cons_of_mem _ hother), hsum⟩
      have hreading' : Reading file { state with steps := rest, segmentRemaining := length } :=
        ⟨hreading.opened, hreading.running, hreading.hashed, hreading.bounded⟩
      rcases readSegment_fits hstored hreading' (fun herror => (hopened herror).2)
          (fun herror => (hopened herror).1) delay with ⟨hend, herror, hread⟩ |
        ⟨chunk, next, hchunk, hnext, hfits', hsteps', hdrop, hread⟩
      · exact .inr (.inl ⟨hend, hsame.trans herror, hpoll.trans hread⟩)
      · refine .inr (.inr ⟨delay, chunk, next, hchunk, hnext, hfits', ?_, hdrop,
          hpoll.trans hread⟩)
        rw [hsteps', hsame]
    · have herror : stepsError state.steps = some message := by
        rw [hrest]
        rfl
      obtain ⟨-, hsum⟩ := hfits (by rw [herror]; exact Option.some_ne_none _)
      rw [hzero, hrest] at hsum
      refine .inl ⟨delay, message, { state.stop with steps := rest },
        List.length_eq_zero_iff.mp hsum.symm, herror, ?_⟩
      rw [BodyState.poll, hreading.running, hreading.opened, hzero, hrest]
      rfl
  · have hpoll : state.poll sha256 blob = state.readSegment sha256 blob file 0 := by
      rw [BodyState.poll, hreading.running, hreading.opened]
      dsimp only
      split
      · rename_i hzero hsteps
        exact absurd ⟨hzero, by rw [hsteps]; exact List.cons_ne_nil _ _⟩ hidle
      · rename_i hzero hsteps
        exact absurd ⟨hzero, by rw [hsteps]; exact List.cons_ne_nil _ _⟩ hidle
      · rfl
    have hsegment : stepsError state.steps ≠ none → state.segmentRemaining ≠ 0 := by
      intro herror hzero
      refine hidle ⟨hzero, ?_⟩
      intro hnil
      rw [hnil] at herror
      exact herror rfl
    rcases readSegment_fits hstored hreading hfits hsegment 0 with ⟨hend, herror, hread⟩ |
      ⟨chunk, next, hchunk, hnext, hfits', hsteps', hdrop, hread⟩
    · exact .inr (.inl ⟨hend, herror, hpoll.trans hread⟩)
    · refine .inr (.inr ⟨0, chunk, next, hchunk, hnext, hfits', ?_, hdrop, hpoll.trans hread⟩)
      rw [hsteps']

/-- A timed body gives what is left of the file, and ends as its schedule does. -/
theorem play_timed (hstored : Stored sha256 blob file) {finish : Ending} {fuel : Nat}
    {state : BodyState} (hreading : Reading file state)
    (hfits : Fits state (file.content.drop state.read).length)
    (hfuel : (file.content.drop state.read).length < fuel) :
    ∃ chunks, (ByteStream.timed blob state).play sha256 finish fuel =
        some ⟨chunks, bodyEnding finish (stepsError state.steps)⟩ ∧
      chunks.flatten = file.content.drop state.read := by
  induction fuel generalizing state with
  | zero => exact absurd hfuel (Nat.not_lt_zero _)
  | succ fuel ih =>
      rw [ByteStream.play, ByteStream.poll]
      rcases poll_stored hstored hreading hfits with ⟨delay, message, next, hend, herror, hpoll⟩ |
        ⟨hend, herror, hpoll⟩ | ⟨delay, chunk, next, hchunk, hnext, hfits', hsteps, hdrop, hpoll⟩
      · refine ⟨[], ?_, hend.symm⟩
        rw [hpoll, herror]
        rfl
      · refine ⟨[], ?_, hend.symm⟩
        rw [hpoll, herror]
        rfl
      · have hlength := congrArg List.length hdrop
        have hpos := List.length_pos_of_ne_nil hchunk
        rw [List.length_append] at hlength
        obtain ⟨chunks, hplay, hflatten⟩ := ih hnext hfits' (by omega)
        refine ⟨chunk :: chunks, ?_, ?_⟩
        · rw [hpoll, ← hsteps]
          dsimp only [Option.map_some]
          rw [hplay]
          rfl
        · rw [List.flatten_cons, hflatten, hdrop]

/-- The plain stream gives what is left of the file. -/
theorem play_plain (hstored : Stored sha256 blob file) {finish : Ending} {fuel : Nat}
    {offset : Option Nat} (hfuel : (file.content.drop (offset.getD 0)).length < fuel) :
    ∃ chunks, (ByteStream.plain file offset).play sha256 finish fuel = some ⟨chunks, finish⟩ ∧
      chunks.flatten = file.content.drop (offset.getD 0) := by
  induction fuel generalizing offset with
  | zero => exact absurd hfuel (Nat.not_lt_zero _)
  | succ fuel ih =>
      obtain ⟨chunk, hchunk, -, hend, hdrop⟩ := readAt_stored hstored (offset.getD 0)
        (show maxChunkBytes ≠ 0 by decide)
      rw [ByteStream.play, ByteStream.poll, pollFile, hchunk]
      rcases chunk with _ | ⟨first, others⟩
      · exact ⟨[], rfl, (List.drop_eq_nil_of_le (hend rfl)).symm⟩
      · have hlength := congrArg List.length hdrop
        have hpos : 0 < (first :: others).length := Nat.succ_pos _
        rw [List.length_append] at hlength
        have hfuel' : (file.content.drop
            ((some (offset.getD 0 + (first :: others).length)).getD 0)).length < fuel := by
          rw [Option.getD_some]
          omega
        obtain ⟨chunks, hplay, hflatten⟩ := ih hfuel'
        refine ⟨(first :: others) :: chunks, ?_, ?_⟩
        · dsimp only [Option.map_some]
          rw [hplay]
          rfl
        · rw [List.flatten_cons, hflatten, hdrop]
          rfl

end

/-! ### Responses -/

section

variable {checks : HttpChecks} {sha256 : Bytes → String} {limits : StoreLimits}
  {fixture recording : BlobFiles} {http2 : Bool} {selection : Selection} {content : Bytes}

/-- What the load of a fixture, or the append to a recording, has checked of a candidate. -/
structure Checked (selection : Selection) : Prop where
  validated : ∀ timeline ∈ selection.recorded, validateDirection timeline.response = .ok ()
  length : selection.inAppend = false → ∀ timeline ∈ selection.recorded,
    dataLength timeline.response = selection.response.body.len.getD 0

theorem Checked.recorded_length (h : Checked selection) (hloaded : selection.inAppend = false)
    (hfailed : endsInError selection.recordedEvents = true) :
    dataLength selection.recordedEvents = selection.response.body.len.getD 0 := by
  rcases hrecorded : selection.recorded with _ | timeline
  · rw [Selection.recordedEvents, hrecorded] at hfailed
    cases hfailed
  · rw [Selection.recordedEvents, hrecorded]
    exact h.length hloaded timeline hrecorded

/-- The stored bytes of a body, in a blob that has them. -/
def Intact (sha256 : Bytes → String) (limits : StoreLimits) (files : BlobFiles)
    (content : Bytes) : BodyRef → Prop
  | .absent | .empty => content = []
  | .blob blob =>
      validateDigest blob.sha256 = .ok () ∧ blob.length ≤ limits.maxBlobBytes ∧
        ∃ file, files blob.sha256 = some file ∧ file.content = content ∧ Stored sha256 blob file

/-- The other packages take the recorded head and trailers. -/
structure Sendable (checks : HttpChecks) (http2 : Bool) (response : HttpResponse) : Prop where
  head : buildHead checks response.status (renderRecordedHeaders http2 response.headers) = .ok ()
  trailers : checks.trailers response.trailers = .ok ()

/-- The stored bytes in order, then the recorded end. -/
structure Reproduces (content : Bytes) (events : List StreamEvent) (trailers : List HeaderEntry)
    (played : Played) : Prop where
  bytes : played.chunks.flatten = content
  failed : endsInError events = true → ∃ message, played.ending = .failed message
  clean : endsInError events = false → played.ending = .clean trailers

def Bodiless : BodyRef → Prop
  | .absent | .empty => True
  | .blob _ => False

theorem finish_sendable (hsendable : Sendable checks http2 selection.response)
    {stream : ResponseStream} (htrailers : stream.trailers = selection.response.trailers) :
    stream.finish checks = .clean selection.response.trailers := by
  rw [ResponseStream.finish, htrailers, hsendable.trailers]
  dsimp only
  split
  · rename_i hnil
    rw [hnil]
  · rfl

theorem bodyEnding_reproduces {events : List StreamEvent} {trailers : List HeaderEntry}
    {chunks : List Bytes} {error : Option String} (hbytes : chunks.flatten = content)
    (herror : endsInError events = true ↔ error ≠ none) :
    Reproduces content events trailers ⟨chunks, bodyEnding (.clean trailers) error⟩ := by
  cases error with
  | none =>
      have hclean : endsInError events = false := by
        by_contra htrue
        exact herror.mp (Bool.not_eq_false _ |>.mp htrue) rfl
      refine ⟨hbytes, ?_, fun _ => rfl⟩
      rw [hclean]
      rintro ⟨⟩
  | some message =>
      have hfailed := herror.mpr (Option.some_ne_none _)
      refine ⟨hbytes, fun _ => ⟨message, rfl⟩, ?_⟩
      rw [hfailed]
      rintro ⟨⟩

/-- A blob of the fixture is replayed with its timeline. -/
theorem loaded_reproduces {blob : BlobRef} (hbody : selection.response.body = .blob blob)
    (hloaded : selection.inAppend = false) (hchecked : Checked selection)
    (hintact : Intact sha256 limits fixture content (.blob blob))
    (hsendable : Sendable checks http2 selection.response) {schedule : Schedule}
    (haccepted : buildSchedule selection.timing selection.streamEvents = .ok schedule) :
    ∃ response, renderResponse checks sha256 limits fixture recording http2 selection =
        .ok response ∧
      ∀ fuel, content.length < fuel → ∃ played,
        response.body.play checks sha256 fuel = some played ∧
          Reproduces content selection.recordedEvents selection.response.trailers played := by
  obtain ⟨hdigest, hlimit, file, hfile, rfl, hstored⟩ := hintact
  have hopen : openBlob limits fixture blob = .ok file := by
    simp [openBlob, hdigest, hlimit, hfile, hstored.length]
  have hevents : selection.streamEvents = selection.recordedEvents := by
    rw [Selection.streamEvents, hloaded]
    rfl
  rw [hevents] at haccepted
  obtain ⟨added, hsteps, herror, hsegments⟩ := schedule_steps haccepted
  rw [List.nil_append] at hsteps
  have hvalid : ∃ final, checkFold validateEvent {} selection.recordedEvents = .ok final := by
    rw [Selection.recordedEvents]
    rcases hrecorded : selection.recorded with _ | timeline
    · exact ⟨_, rfl⟩
    · exact validateDirection_eq_ok.mp (hchecked.validated timeline hrecorded)
  obtain ⟨final, hvalid⟩ := hvalid
  refine ⟨⟨selection.response.status, renderRecordedHeaders http2 selection.response.headers,
    .stream (timedStream blob file schedule selection.response.trailers)⟩, ?_, ?_⟩
  · rw [renderResponse, hbody]
    dsimp only
    rw [hloaded, hopen, hevents, haccepted]
    simp [buildResponse, hsendable.head]
  · intro fuel hfuel
    have hfits : Fits (.start file schedule.steps) (file.content.drop 0).length := by
      intro hfailed
      have hsome : endsInError selection.recordedEvents = true := by
        rw [endsInError_iff hvalid, ← herror, ← hsteps]
        exact hfailed
      have hlength := hchecked.recorded_length hloaded hsome
      rw [hbody, BodyRef.len, Option.getD_some, ← hstored.length] at hlength
      have hsize := file.size_lt
      have hsum := sum_eventSegments hvalid (by rw [hlength, u64Max]; omega)
      rw [BodyState.start, hsteps, hsegments, hsum, hlength]
      exact ⟨eventSegments_ne_zero hvalid, Nat.zero_add _⟩
    have hreading : Reading file (.start file schedule.steps) := ⟨rfl, rfl, rfl, Nat.zero_le _⟩
    obtain ⟨chunks, hplay, hflatten⟩ := play_timed hstored hreading hfits hfuel
    refine ⟨_, hplay, ?_⟩
    rw [finish_sendable hsendable rfl]
    refine bodyEnding_reproduces hflatten ?_
    rw [endsInError_iff hvalid, ← herror, ← hsteps]
    rfl

/-- A blob appended since the load is replayed whole, whatever its timeline. -/
theorem appended_played {blob : BlobRef} (hbody : selection.response.body = .blob blob)
    (happended : selection.inAppend = true)
    (hintact : Intact sha256 limits recording content (.blob blob))
    (hsendable : Sendable checks http2 selection.response) :
    ∃ response, renderResponse checks sha256 limits fixture recording http2 selection =
        .ok response ∧
      ∀ fuel, content.length < fuel → ∃ chunks,
        response.body.play checks sha256 fuel =
            some ⟨chunks, .clean selection.response.trailers⟩ ∧ chunks.flatten = content := by
  obtain ⟨hdigest, hlimit, file, hfile, rfl, hstored⟩ := hintact
  have hpath : bodyPath sha256 limits recording blob = .ok file := by
    simp [bodyPath, hdigest, hlimit, hfile, hstored.length, hstored.digest]
  refine ⟨⟨selection.response.status, renderRecordedHeaders http2 selection.response.headers,
    .stream (responseStream file blob.length selection.response.trailers)⟩, ?_, ?_⟩
  · rw [renderResponse, hbody]
    dsimp only
    rw [if_pos happended, hpath]
    simp [buildResponse, hsendable.head]
  · intro fuel hfuel
    have hfinish : (responseStream file blob.length selection.response.trailers).finish checks =
        .clean selection.response.trailers := finish_sendable hsendable rfl
    have hplayed : ∃ chunks, (ByteStream.plain file none).play sha256
        (.clean selection.response.trailers) fuel =
          some ⟨chunks, .clean selection.response.trailers⟩ ∧
        chunks.flatten = file.content.drop 0 := play_plain hstored hfuel
    obtain ⟨chunks, hplay, hflatten⟩ := hplayed
    refine ⟨chunks, ?_, hflatten⟩
    rw [ResponseBody.play, hfinish]
    exact hplay

theorem bodiless_played (hbody : Bodiless selection.response.body)
    (hsendable : Sendable checks http2 selection.response) :
    ∃ response, renderResponse checks sha256 limits fixture recording http2 selection =
        .ok response ∧
      ∀ fuel, response.body.play checks sha256 fuel = some ⟨[], .clean []⟩ := by
  refine ⟨⟨selection.response.status, renderRecordedHeaders http2 selection.response.headers,
    .empty⟩, ?_, fun fuel => rfl⟩
  rw [renderResponse]
  rcases hbody' : selection.response.body with _ | _ | blob
  · simp [buildResponse, hsendable.head]
  · simp [buildResponse, hsendable.head]
  · rw [hbody'] at hbody
    exact hbody.elim

theorem clean_reproduces_iff {events : List StreamEvent} {trailers sent : List HeaderEntry}
    {chunks : List Bytes} (hbytes : chunks.flatten = content) :
    Reproduces content events trailers ⟨chunks, .clean sent⟩ ↔
      endsInError events = false ∧ sent = trailers := by
  constructor
  · intro h
    have hclean : endsInError events = false := by
      by_contra htrue
      obtain ⟨message, hfailed⟩ := h.failed (Bool.not_eq_false _ |>.mp htrue)
      cases hfailed
    exact ⟨hclean, Ending.clean.inj (h.clean hclean)⟩
  · rintro ⟨hclean, rfl⟩
    refine ⟨hbytes, ?_, fun _ => rfl⟩
    rw [hclean]
    rintro ⟨⟩

/-- A replayed body is the recorded one exactly where a response that is rendered without its
timeline has no recorded error, and one without stored bytes no trailers. -/
theorem reproduces_iff (hchecked : Checked selection)
    (hintact : Intact sha256 limits (selection.files fixture recording) content
      selection.response.body)
    (haccepted : ∃ schedule, buildSchedule selection.timing selection.streamEvents = .ok schedule)
    (hsendable : Sendable checks http2 selection.response) :
    ∃ response, renderResponse checks sha256 limits fixture recording http2 selection =
        .ok response ∧
      ∀ fuel, content.length < fuel → ∃ played,
        response.body.play checks sha256 fuel = some played ∧
          (Reproduces content selection.recordedEvents selection.response.trailers played ↔
            (selection.inAppend = true ∨ Bodiless selection.response.body →
              endsInError selection.recordedEvents = false) ∧
            (Bodiless selection.response.body → selection.response.trailers = [])) := by
  by_cases hbodiless : Bodiless selection.response.body
  · obtain ⟨response, hresponse, hplay⟩ := bodiless_played hbodiless hsendable
    refine ⟨response, hresponse, fun fuel _ => ⟨_, hplay fuel, ?_⟩⟩
    have hcontent : [].flatten = content := by
      rcases hbody : selection.response.body with _ | _ | blob
      · rw [hbody] at hintact
        exact hintact.symm
      · rw [hbody] at hintact
        exact hintact.symm
      · rw [hbody] at hbodiless
        exact hbodiless.elim
    rw [clean_reproduces_iff hcontent]
    constructor
    · rintro ⟨hclean, htrailers⟩
      exact ⟨fun _ => hclean, fun _ => htrailers.symm⟩
    · rintro ⟨hclean, htrailers⟩
      exact ⟨hclean (.inr hbodiless), (htrailers hbodiless).symm⟩
  · have hblob : ∃ blob, selection.response.body = .blob blob := by
      rcases hbody : selection.response.body with _ | _ | blob
      · exact absurd (by rw [hbody]; trivial) hbodiless
      · exact absurd (by rw [hbody]; trivial) hbodiless
      · exact ⟨blob, rfl⟩
    obtain ⟨blob, hbody⟩ := hblob
    rw [hbody] at hintact
    rcases hsource : selection.inAppend with _ | _
    · rw [Selection.files, hsource] at hintact
      obtain ⟨schedule, hschedule⟩ := haccepted
      obtain ⟨response, hresponse, hplay⟩ :=
        loaded_reproduces hbody hsource hchecked hintact hsendable hschedule
      refine ⟨response, hresponse, fun fuel hfuel => ?_⟩
      obtain ⟨played, hplayed, hreproduces⟩ := hplay fuel hfuel
      refine ⟨played, hplayed, iff_of_true hreproduces ⟨?_, fun h => absurd h hbodiless⟩⟩
      rintro (hfalse | h)
      · cases hfalse
      · exact absurd h hbodiless
    · rw [Selection.files, hsource] at hintact
      obtain ⟨response, hresponse, hplay⟩ := appended_played hbody hsource hintact hsendable
      refine ⟨response, hresponse, fun fuel hfuel => ?_⟩
      obtain ⟨chunks, hplayed, hflatten⟩ := hplay fuel hfuel
      refine ⟨_, hplayed, ?_⟩
      rw [clean_reproduces_iff hflatten]
      constructor
      · rintro ⟨hclean, -⟩
        exact ⟨fun _ => hclean, fun h => absurd h hbodiless⟩
      · rintro ⟨hclean, -⟩
        exact ⟨hclean (.inl rfl), rfl⟩

end

/-! ### Two responses -/

def openChecks : HttpChecks where
  status _ := .ok ()
  header _ := .ok ()
  trailers _ := .ok ()

def letterBlob : BlobRef where
  sha256 := "ca978112ca1bbdcafac231b39a23dc4da786eff8147c4e72b9807785afee48bb"
  length := 1

def letterFile : BlobFile where
  content := utf8 ['a']
  size_lt := by decide
  given _ := some 1

/-- A response whose body broke off behind its bytes. -/
def brokenSelection (body : BodyRef) (events : List StreamEvent) : Selection where
  response := { status := 200, headers := [], body := body, trailers := [] }
  inAppend := false
  recorded := some { flowId := "one", startOffsetNs := 0, request := [], response := events }
  timing := .recorded

def brokenEvents : List StreamEvent :=
  [⟨5, .data 0 1⟩, ⟨9, .error 1 "timeout" "body"⟩]

theorem letter_reproduces_iff :
    ∃ response, renderResponse openChecks (fun _ => letterBlob.sha256) .default
        (fun _ => some letterFile) (fun _ => none) false
        (brokenSelection (.blob letterBlob) brokenEvents) = .ok response ∧
      ∀ fuel, 1 < fuel → ∃ played,
        response.body.play openChecks (fun _ => letterBlob.sha256) fuel = some played ∧
          (Reproduces (utf8 ['a']) brokenEvents [] played ↔
            (false = true ∨ Bodiless (.blob letterBlob) → endsInError brokenEvents = false) ∧
            (Bodiless (.blob letterBlob) → ([] : List HeaderEntry) = [])) := by
  have hchecked : Checked (brokenSelection (.blob letterBlob) brokenEvents) := by
    constructor
    · rintro timeline ⟨⟩
      decide
    · rintro - timeline ⟨⟩
      decide
  have hintact : Intact (fun _ => letterBlob.sha256) .default (fun _ => some letterFile)
      (utf8 ['a']) (.blob letterBlob) :=
    ⟨by decide, by decide, letterFile, rfl, rfl, rfl, rfl, fun _ => rfl⟩
  have haccepted : ∃ schedule, buildSchedule
      (brokenSelection (.blob letterBlob) brokenEvents).timing
      (brokenSelection (.blob letterBlob) brokenEvents).streamEvents = .ok schedule :=
    ⟨_, rfl⟩
  exact reproduces_iff hchecked hintact haccepted ⟨rfl, rfl⟩

/-- A response that broke off before its first byte is replayed as an empty one. -/
theorem broken_replayed_whole :
    ¬∀ (selection : Selection), selection.inAppend = false → Checked selection →
      Intact (fun _ => letterBlob.sha256) .default (fun _ => none) [] selection.response.body →
      (∃ schedule, buildSchedule selection.timing selection.streamEvents = .ok schedule) →
      Sendable openChecks false selection.response →
      ∃ response played, renderResponse openChecks (fun _ => letterBlob.sha256) .default
          (fun _ => none) (fun _ => none) false selection = .ok response ∧
        response.body.play openChecks (fun _ => letterBlob.sha256) 2 = some played ∧
        Reproduces [] selection.recordedEvents selection.response.trailers played := by
  intro h
  have hchecked : Checked (brokenSelection .empty [⟨7, .error 0 "timeout" "body"⟩]) := by
    constructor
    · rintro timeline ⟨⟩
      decide
    · rintro - timeline ⟨⟩
      decide
  obtain ⟨response, played, hresponse, hplayed, hreproduces⟩ :=
    h _ rfl hchecked rfl ⟨_, rfl⟩ ⟨rfl, rfl⟩
  obtain rfl := Except.ok.inj hresponse
  obtain rfl := Option.some.inj hplayed
  obtain ⟨message, hfailed⟩ := hreproduces.failed rfl
  cases hfailed

end EggReplay.Http.ReplayedEnds
