import EggReplay.Core.ServerSentEvents
import EggReplay.Library.JsonLengths

/-!
The line parser of Server-Sent Events over texts that are put together: one text after another,
line feeds for pairs of carriage return and line feed, and lines that are left out.
-/

namespace EggReplay.Core.SseComposition

open EggReplay.Library.Checks
open EggReplay.Library.Text
open EggReplay.Library.JsonLengths
open EggReplay.Core.ServerSentEvents

/-! ### Lines -/

/-- The pieces of a text between its line feeds. -/
def sseLines (text : List Char) : List (List Char) := splitChars '\n' text

theorem splitChars_eq_splitOn (separator : Char) (chars : List Char) :
    splitChars separator chars = chars.splitOn separator := by
  induction chars with
  | nil => rfl
  | cons c rest ih =>
      rw [splitChars, List.splitOn_cons_eq_if_modifyHead, ih]
      by_cases h : c = separator
      · rw [if_pos h, if_pos (beq_iff_eq.mpr h)]
      · rw [if_neg h, if_neg (by simpa using h)]
        obtain ⟨piece, pieces, hsplit⟩ :=
          List.exists_cons_of_ne_nil (List.splitOn_ne_nil separator rest)
        rw [hsplit]
        rfl

/-- A text is its lines with line feeds between them. -/
theorem intercalate_sseLines (text : List Char) :
    List.intercalate ['\n'] (sseLines text) = text := by
  rw [sseLines, splitChars_eq_splitOn]
  exact List.intercalate_splitOn '\n'

theorem not_mem_of_mem_sseLines {text line : List Char} (h : line ∈ sseLines text) :
    '\n' ∉ line := by
  induction text generalizing line with
  | nil =>
      rw [sseLines, splitChars, List.mem_singleton] at h
      rw [h]
      exact List.not_mem_nil
  | cons c rest ih =>
      rw [sseLines, splitChars] at h
      split at h
      · rcases List.mem_cons.mp h with rfl | h
        · exact List.not_mem_nil
        · exact ih h
      · rename_i hc
        rcases hsplit : splitChars '\n' rest with _ | ⟨piece, pieces⟩
        · exact absurd hsplit (splitChars_ne_nil _ _)
        · have hmem : ∀ {line}, line ∈ piece :: pieces → '\n' ∉ line := by
            intro line hline
            exact ih (by rwa [sseLines, hsplit])
          rw [hsplit] at h
          rcases List.mem_cons.mp h with rfl | h
          · refine List.not_mem_cons_of_ne_of_not_mem ?_ (hmem List.mem_cons_self)
            exact fun heq => hc heq.symm
          · exact hmem (List.mem_cons_of_mem _ h)

/-- Lines without line feeds, joined by line feeds, are the lines of what they are joined to. -/
theorem sseLines_intercalate {lines : List (List Char)} (hne : lines ≠ [])
    (h : ∀ line ∈ lines, '\n' ∉ line) : sseLines (List.intercalate ['\n'] lines) = lines := by
  rw [sseLines, splitChars_eq_splitOn]
  exact List.splitOn_intercalate '\n' h hne

/-! ### Reading a text -/

/-- A line without the carriage return at its end. -/
def withoutReturn (raw : String) : String := (stripTail raw "\r").getD raw

/-- What the parser makes of the state in which the lines are read or the loop has broken off. -/
def sseResult : Except SseState SseState → SseParseResult
  | .error state => state.finish
  | .ok state => state.finish

/-- A text within the limit is read line by line. -/
theorem parseSse_utf8 {text : List Char} (hsize : (utf8 text).length ≤ maxSseBodyBytes)
    (includeComments : Bool) :
    parseSse (utf8 text) includeComments =
      sseResult (checkFold (SseState.line includeComments) {}
        ((sseLines text).map String.ofList)) := by
  rw [parseSse, if_neg (Nat.not_lt.mpr hsize), decodeUtf8_utf8]
  dsimp only
  rw [sseLines]
  cases checkFold (SseState.line includeComments) {}
    ((splitChars '\n' text).map String.ofList) <;> rfl

theorem parseSse_oversized {body : Bytes} (h : maxSseBodyBytes < body.length)
    (includeComments : Bool) : (parseSse body includeComments).error ≠ none := by
  rw [parseSse, if_pos h]
  exact Option.some_ne_none _

/-- Where the loop breaks off there is an error. -/
theorem line_error {includeComments : Bool} {state broken : SseState} {raw : String}
    (h : state.line includeComments raw = .error broken) : broken.error ≠ none := by
  unfold SseState.line at h
  dsimp only at h
  split at h
  · cases h
    exact Option.some_ne_none _
  · split at h
    · split at h
      · split at h
        · cases h
          exact Option.some_ne_none _
        · cases h
      · cases h
    · split at h
      · split at h <;> cases h
      · cases h

theorem lines_error {includeComments : Bool} {state broken : SseState} {lines : List String}
    (h : checkFold (SseState.line includeComments) state lines = .error broken) :
    broken.error ≠ none := by
  induction lines generalizing state with
  | nil => cases h
  | cons raw rest ih =>
      rw [checkFold_cons, bind_eq_error] at h
      rcases h with h | ⟨next, -, h⟩
      · exact line_error h
      · exact ih h

theorem finish_error_ne_none {state : SseState} (h : state.error ≠ none) :
    state.finish.error ≠ none := by
  obtain ⟨message, hmessage⟩ := Option.ne_none_iff_exists'.mp h
  rw [SseState.finish_error hmessage]
  exact Option.some_ne_none _

/-! ### One line -/

/-- What a line that is not blank makes of the fields of the event being read. -/
def SseState.read (includeComments : Bool) (state : SseState) (line : String) : SseState :=
  match stripLead line ":" with
  | some comment =>
      if includeComments then
        { state with comments := state.comments ++ [(stripLead comment " ").getD comment] }
      else state
  | none =>
      let (field, value) := (splitOnce line ':').getD (line, "")
      state.field field ((stripLead value " ").getD value)

/-- A line is read without its carriage return: it is blank, or it changes the event. -/
theorem line_eq_ok {includeComments : Bool} {state next : SseState} {raw : String} :
    state.line includeComments raw = .ok next ↔
      (withoutReturn raw).utf8ByteSize ≤ maxSseLineBytes ∧
        (withoutReturn raw = "" ∧ state.pending = true ∧
            state.events.length < maxSseEvents ∧ state.dispatch = next ∨
          withoutReturn raw = "" ∧ state.pending = false ∧ state = next ∨
          withoutReturn raw ≠ "" ∧
            SseState.read includeComments state (withoutReturn raw) = next) := by
  unfold SseState.line
  rw [← withoutReturn]
  generalize withoutReturn raw = line
  dsimp only
  by_cases hsize : maxSseLineBytes < line.utf8ByteSize
  · rw [if_pos hsize]
    simp only [reduceCtorEq, false_iff, not_and]
    exact fun hle => absurd hsize (Nat.not_lt.mpr hle)
  · rw [if_neg hsize]
    simp only [Nat.not_lt.mp hsize, true_and]
    by_cases hblank : line = ""
    · simp only [hblank, if_true, true_and, ne_eq, not_true_eq_false, false_and, or_false]
      by_cases hpending : state.pending = true
      · simp only [hpending, if_true, true_and, Bool.true_eq_false, false_and, or_false]
        by_cases hcount : maxSseEvents ≤ state.events.length
        · rw [if_pos hcount]
          simp [Nat.not_lt.mpr hcount]
        · rw [if_neg hcount, Except.ok.injEq]
          simp [Nat.not_le.mp hcount]
      · simp only [Bool.not_eq_true] at hpending
        simp [hpending]
    · simp only [hblank, if_false, false_and, false_or, ne_eq, not_false_eq_true, true_and]
      unfold SseState.read
      cases stripLead line ":" with
      | none => simp
      | some comment => cases includeComments <;> simp

theorem line_congr {includeComments : Bool} {state : SseState} {raw raw' : String}
    (h : withoutReturn raw = withoutReturn raw') :
    state.line includeComments raw = state.line includeComments raw' := by
  unfold SseState.line
  rw [← withoutReturn, ← withoutReturn, h]

/-! ### After earlier events -/

/-- The state that stands behind earlier events. -/
def SseState.after (earlier : List SseEvent) (state : SseState) : SseState :=
  { state with events := earlier ++ state.events }

@[simp] theorem field_events (state : SseState) (name value : String) :
    (state.field name value).events = state.events := by
  unfold SseState.field SseState.invalidValue
  repeat' split
  all_goals rfl

@[simp] theorem field_after (earlier : List SseEvent) (state : SseState) (name value : String) :
    (SseState.after earlier state).field name value =
      SseState.after earlier (state.field name value) := by
  unfold SseState.field SseState.invalidValue
  repeat' split
  all_goals rfl

@[simp] theorem read_events (includeComments : Bool) (state : SseState) (line : String) :
    (SseState.read includeComments state line).events = state.events := by
  unfold SseState.read
  cases stripLead line ":" with
  | none => exact field_events state _ _
  | some comment => cases includeComments <;> rfl

@[simp] theorem read_after (includeComments : Bool) (earlier : List SseEvent) (state : SseState)
    (line : String) :
    SseState.read includeComments (SseState.after earlier state) line =
      SseState.after earlier (SseState.read includeComments state line) := by
  unfold SseState.read
  cases stripLead line ":" with
  | none => exact field_after earlier state _ _
  | some comment => cases includeComments <;> rfl

@[simp] theorem pending_after (earlier : List SseEvent) (state : SseState) :
    (SseState.after earlier state).pending = state.pending := rfl

@[simp] theorem dispatch_after (earlier : List SseEvent) (state : SseState) :
    (SseState.after earlier state).dispatch = SseState.after earlier state.dispatch := by
  simp only [SseState.dispatch, SseState.after, List.append_assoc]
  rfl

/-- A line never takes an event back. -/
theorem events_length_le {includeComments : Bool} {state next : SseState} {raw : String}
    (h : state.line includeComments raw = .ok next) :
    state.events.length ≤ next.events.length := by
  obtain ⟨-, ⟨-, -, -, rfl⟩ | ⟨-, -, rfl⟩ | ⟨-, rfl⟩⟩ := line_eq_ok.mp h
  · rw [SseState.dispatch, List.length_append]
    exact Nat.le_add_right _ _
  · exact Nat.le_refl _
  · rw [read_events]

/-- A line does the same behind earlier events, as long as all of them are within the limit. -/
theorem line_after {includeComments : Bool} {state next : SseState} {raw : String}
    {earlier : List SseEvent} (h : state.line includeComments raw = .ok next)
    (hroom : earlier.length + next.events.length ≤ maxSseEvents) :
    (SseState.after earlier state).line includeComments raw = .ok (SseState.after earlier next) := by
  rw [line_eq_ok, pending_after, dispatch_after, read_after]
  obtain ⟨hsize, hline⟩ := line_eq_ok.mp h
  refine ⟨hsize, ?_⟩
  rcases hline with ⟨hblank, hpending, -, rfl⟩ | ⟨hblank, hpending, rfl⟩ | ⟨hwritten, rfl⟩
  · refine .inl ⟨hblank, hpending, ?_, rfl⟩
    rw [SseState.dispatch, List.length_append, List.length_singleton] at hroom
    rw [SseState.after, List.length_append]
    omega
  · exact .inr (.inl ⟨hblank, hpending, rfl⟩)
  · exact .inr (.inr ⟨hwritten, rfl⟩)

theorem lines_after {includeComments : Bool} {state final : SseState} {lines : List String}
    {earlier : List SseEvent}
    (h : checkFold (SseState.line includeComments) state lines = .ok final)
    (hroom : earlier.length + final.events.length ≤ maxSseEvents) :
    checkFold (SseState.line includeComments) (SseState.after earlier state) lines =
      .ok (SseState.after earlier final) := by
  induction lines generalizing state with
  | nil =>
      cases h
      rfl
  | cons raw rest ih =>
      rw [checkFold_cons, bind_eq_ok] at h
      obtain ⟨next, hnext, hrest⟩ := h
      have hmore : next.events.length ≤ final.events.length :=
        checkFold_invariant (fun later => next.events.length ≤ later.events.length)
          (fun _ _ _ hle hstep => Nat.le_trans hle (events_length_le hstep)) (Nat.le_refl _) hrest
      rw [checkFold_cons, line_after hnext (by omega), ok_bind]
      exact ih hrest

/-- At the end an event that is being read counts, as if a blank line followed. -/
theorem finish_eq {state : SseState} {events : List SseEvent} :
    state.finish = ⟨events, none⟩ ↔
      state.error = none ∧
        (state.pending = true ∧ state.events.length < maxSseEvents ∧
            state.dispatch.events = events ∨
          state.pending = false ∧ state.events = events) := by
  unfold SseState.finish
  by_cases herror : state.error = none
  · rw [herror]
    by_cases hpending : state.pending = true
    · simp only [hpending, and_self, if_true, true_and, Bool.true_eq_false, false_and, or_false]
      by_cases hcount : maxSseEvents ≤ state.events.length
      · rw [if_pos hcount]
        simp [Nat.not_lt.mpr hcount]
      · rw [if_neg hcount]
        simp [Nat.not_le.mp hcount, SseState.dispatch]
    · rw [Bool.not_eq_true] at hpending
      simp [hpending]
  · simp [herror]

/-- The event that is still being read at the end also stands behind the earlier ones. -/
theorem finish_after {state : SseState} {earlier events : List SseEvent}
    (h : state.finish = ⟨events, none⟩) (hroom : earlier.length + events.length ≤ maxSseEvents) :
    (SseState.after earlier state).finish = ⟨earlier ++ events, none⟩ := by
  rw [finish_eq, pending_after, dispatch_after]
  obtain ⟨herror, ⟨hpending, -, rfl⟩ | ⟨hpending, rfl⟩⟩ := finish_eq.mp h
  · refine ⟨herror, .inl ⟨hpending, ?_, rfl⟩⟩
    rw [SseState.dispatch, List.length_append, List.length_singleton] at hroom
    rw [SseState.after, List.length_append]
    omega
  · exact ⟨herror, .inr ⟨hpending, rfl⟩⟩

theorem events_length_le_finish {state : SseState} {events : List SseEvent}
    (h : state.finish = ⟨events, none⟩) : state.events.length ≤ events.length := by
  obtain ⟨-, ⟨-, -, rfl⟩ | ⟨-, rfl⟩⟩ := finish_eq.mp h
  · rw [SseState.dispatch, List.length_append]
    exact Nat.le_add_right _ _
  · exact Nat.le_refl _

/-! ### Between two texts -/

/-- A text that is empty or ends with a blank line. -/
def EndsBlank (text : List Char) : Prop :=
  text = [] ∨ ∃ before blank, text = before ++ blank ++ ['\n'] ∧
    (before = [] ∨ ∃ earlier, before = earlier ++ ['\n']) ∧ (blank = [] ∨ blank = ['\r'])

/-- The lines up to a blank end are read before those of what follows. -/
theorem sseLines_endsBlank {text : List Char} (h : EndsBlank text) (hne : text ≠ []) :
    ∃ earlier blank, (blank = [] ∨ blank = ['\r']) ∧
      ∀ next, sseLines (text ++ next) = earlier ++ blank :: sseLines next := by
  rcases h with rfl | ⟨before, blank, rfl, hbefore, hblank⟩
  · exact absurd rfl hne
  · have hline : sseLines blank = [blank] := by
      apply splitChars_of_not_mem
      rcases hblank with rfl | rfl <;> decide
    rcases hbefore with rfl | ⟨earlier, rfl⟩
    · refine ⟨[], blank, hblank, fun next => ?_⟩
      rw [List.nil_append, List.append_assoc, List.singleton_append, sseLines, splitChars_append,
        ← sseLines, ← sseLines, hline]
      rfl
    · refine ⟨sseLines earlier, blank, hblank, fun next => ?_⟩
      have htext : earlier ++ ['\n'] ++ blank ++ ['\n'] ++ next =
          earlier ++ '\n' :: (blank ++ '\n' :: next) := by
        simp
      rw [htext, sseLines, splitChars_append, splitChars_append, ← sseLines, ← sseLines,
        ← sseLines, hline]
      rfl

/-- After a blank line nothing is being read. -/
theorem pending_of_blank {includeComments : Bool} {state next : SseState} {raw : String}
    (h : state.line includeComments raw = .ok next) (hblank : withoutReturn raw = "") :
    next.pending = false := by
  obtain ⟨-, ⟨-, -, -, rfl⟩ | ⟨-, hpending, rfl⟩ | ⟨hwritten, -⟩⟩ := line_eq_ok.mp h
  · rfl
  · exact hpending
  · exact absurd hblank hwritten

/-- A state without an error in which nothing is being read is the first one behind its events. -/
theorem eq_after_of_settled {state : SseState} (herror : state.error = none)
    (hpending : state.pending = false) : state = SseState.after state.events {} := by
  obtain ⟨events, error, data, event, id, retry, comments⟩ := state
  simp only [SseState.pending, Bool.or_eq_false_iff, Bool.not_eq_false', List.isEmpty_iff,
    Option.isSome_eq_false_iff, Option.isNone_iff_eq_none] at hpending
  obtain ⟨⟨⟨⟨rfl, rfl⟩, rfl⟩, rfl⟩, rfl⟩ := hpending
  simp only at herror
  rw [herror, SseState.after, List.append_nil]

/-- A text that parses is read to its end, and what is read last counts. -/
theorem lines_of_parsed {text : List Char} {includeComments : Bool}
    (h : (parseSse (utf8 text) includeComments).error = none) :
    (utf8 text).length ≤ maxSseBodyBytes ∧
      ∃ final, checkFold (SseState.line includeComments) {} ((sseLines text).map String.ofList) =
          .ok final ∧
        final.finish = ⟨(parseSse (utf8 text) includeComments).events, none⟩ := by
  have hsize : (utf8 text).length ≤ maxSseBodyBytes := by
    by_contra hlarge
    exact parseSse_oversized (Nat.not_le.mp hlarge) includeComments h
  refine ⟨hsize, ?_⟩
  rw [parseSse_utf8 hsize] at h ⊢
  cases hrun : checkFold (SseState.line includeComments) {}
    ((sseLines text).map String.ofList) with
  | error broken =>
      rw [hrun] at h
      exact absurd h (finish_error_ne_none (lines_error hrun))
  | ok final =>
      rw [hrun] at h
      refine ⟨final, rfl, ?_⟩
      rw [← h]
      rfl

/-- Nothing of a text with a blank end is left over for what follows. -/
theorem lines_of_endsBlank {text : List Char} {includeComments : Bool} (hblank : EndsBlank text)
    (h : (parseSse (utf8 text) includeComments).error = none) (next : List Char) :
    checkFold (SseState.line includeComments) {} ((sseLines (text ++ next)).map String.ofList) =
      checkFold (SseState.line includeComments)
        (SseState.after (parseSse (utf8 text) includeComments).events {})
        ((sseLines next).map String.ofList) := by
  by_cases hne : text = []
  · subst hne
    rfl
  · obtain ⟨-, final, hrun, hfinish⟩ := lines_of_parsed h
    obtain ⟨earlier, blank, hreturn, hlines⟩ := sseLines_endsBlank hblank hne
    have hraw : withoutReturn (String.ofList blank) = "" := by
      rcases hreturn with rfl | rfl <;> decide
    have hempty : sseLines [] = [[]] := rfl
    have htext := hlines []
    rw [List.append_nil, hempty] at htext
    rw [htext, List.map_append, List.map_cons, checkFold_append, bind_eq_ok] at hrun
    obtain ⟨state, hstate, hrun⟩ := hrun
    rw [checkFold_cons, bind_eq_ok] at hrun
    obtain ⟨settled, hsettled, hlast⟩ := hrun
    have hpending := pending_of_blank hsettled hraw
    -- the empty piece behind the last line feed changes nothing
    have hsame : settled = final := by
      rw [List.map_cons, List.map_nil, checkFold_cons, bind_eq_ok] at hlast
      obtain ⟨last, hlast, hend⟩ := hlast
      obtain ⟨-, ⟨-, habsurd, -⟩ | ⟨-, -, rfl⟩ | ⟨hwritten, -⟩⟩ := line_eq_ok.mp hlast
      · rw [hpending] at habsurd
        cases habsurd
      · exact Except.ok.inj hend
      · exact absurd rfl hwritten
    subst hsame
    obtain ⟨herror, ⟨habsurd, -⟩ | ⟨-, hevents⟩⟩ := finish_eq.mp hfinish
    · rw [hpending] at habsurd
      cases habsurd
    · rw [hlines next, List.map_append, List.map_cons, checkFold_append, hstate, ok_bind,
        checkFold_cons, hsettled, ok_bind, ← hevents, ← eq_after_of_settled herror hpending]

/-- A text behind one with a blank end adds its events. -/
theorem parseSse_append {text next : List Char} {includeComments : Bool}
    (hblank : EndsBlank text)
    (htext : (parseSse (utf8 text) includeComments).error = none)
    (hnext : (parseSse (utf8 next) includeComments).error = none)
    (hsize : (utf8 (text ++ next)).length ≤ maxSseBodyBytes)
    (hcount : (parseSse (utf8 text) includeComments).events.length +
      (parseSse (utf8 next) includeComments).events.length ≤ maxSseEvents) :
    parseSse (utf8 (text ++ next)) includeComments =
      ⟨(parseSse (utf8 text) includeComments).events ++
        (parseSse (utf8 next) includeComments).events, none⟩ := by
  obtain ⟨-, final, hrun, hfinish⟩ := lines_of_parsed hnext
  have hroom := Nat.le_trans (Nat.add_le_add_left (events_length_le_finish hfinish) _) hcount
  rw [parseSse_utf8 hsize, lines_of_endsBlank hblank htext, lines_after hrun hroom]
  exact finish_after hfinish hcount

/-! ### Carriage returns -/

/-- A text with a carriage return before every line feed. -/
def toCrlf (text : List Char) : List Char :=
  text.flatMap fun c => if c = '\n' then ['\r', '\n'] else [c]

theorem withoutReturn_append (line : List Char) :
    withoutReturn (String.ofList (line ++ ['\r'])) = String.ofList line := by
  have h : stripTail (String.ofList (line ++ ['\r'])) "\r" = some (String.ofList line) := by
    rw [stripTail_eq_some, String.ofList_append]
  rw [withoutReturn, h]
  rfl

theorem withoutReturn_of_not_mem {line : List Char} (h : '\r' ∉ line) :
    withoutReturn (String.ofList line) = String.ofList line := by
  have hnone : stripTail (String.ofList line) "\r" = none := by
    by_contra hsome
    obtain ⟨lead, hlead⟩ := Option.ne_none_iff_exists'.mp hsome
    rw [stripTail_eq_some, ← String.toList_inj, String.toList_append, String.toList_ofList]
      at hlead
    apply h
    rw [hlead]
    exact List.mem_append_right _ List.mem_cons_self
  rw [withoutReturn, hnone]
  rfl

/-- The lines only differ in a carriage return that is not read. -/
theorem lines_toCrlf {text : List Char} (h : '\r' ∉ text) :
    List.Forall₂ (fun long line => '\r' ∉ line ∧ (long = line ∨ long = line ++ ['\r']))
      (sseLines (toCrlf text)) (sseLines text) := by
  induction text with
  | nil => exact .cons ⟨List.not_mem_nil, .inl rfl⟩ .nil
  | cons c rest ih =>
      have hlines := ih (List.not_mem_of_not_mem_cons h)
      rw [toCrlf, List.flatMap_cons, ← toCrlf, sseLines, sseLines]
      by_cases hc : c = '\n'
      · rw [if_pos hc, splitChars, if_pos hc]
        exact .cons ⟨List.not_mem_nil, .inr rfl⟩ hlines
      · rw [if_neg hc, List.singleton_append, splitChars, if_neg hc, splitChars, if_neg hc]
        obtain ⟨long, longs, hlong⟩ :=
          List.exists_cons_of_ne_nil (splitChars_ne_nil '\n' (toCrlf rest))
        obtain ⟨line, lines, hline⟩ := List.exists_cons_of_ne_nil (splitChars_ne_nil '\n' rest)
        rw [sseLines, sseLines, hlong, hline] at hlines
        rw [hlong, hline]
        cases hlines with
        | cons hfirst hrest =>
            obtain ⟨hreturn, hsame⟩ := hfirst
            refine .cons ⟨?_, ?_⟩ hrest
            · exact List.not_mem_cons_of_ne_of_not_mem (List.ne_of_not_mem_cons h) hreturn
            · rcases hsame with rfl | rfl
              · exact .inl rfl
              · exact .inr rfl

/-- The reading only depends on what the lines are without their carriage returns. -/
theorem checkFold_congr_lines {includeComments : Bool} {lines lines' : List (List Char)}
    (h : List.Forall₂ (fun line line' => withoutReturn (String.ofList line) =
      withoutReturn (String.ofList line')) lines lines') (state : SseState) :
    checkFold (SseState.line includeComments) state (lines.map String.ofList) =
      checkFold (SseState.line includeComments) state (lines'.map String.ofList) := by
  induction h generalizing state with
  | nil => rfl
  | cons hline _ ih =>
      rw [List.map_cons, List.map_cons, checkFold_cons, checkFold_cons, line_congr hline]
      apply congrArg
      funext next
      exact ih next

theorem length_toCrlf (text : List Char) :
    (utf8 text).length ≤ (utf8 (toCrlf text)).length := by
  induction text with
  | nil => exact Nat.le_refl _
  | cons c rest ih =>
      rw [toCrlf, List.flatMap_cons, ← toCrlf, utf8_cons, length_utf8_append, List.length_append]
      have hfirst : (utf8 [c]).length ≤ (utf8 (if c = '\n' then ['\r', '\n'] else [c])).length := by
        split
        · rename_i hc
          rw [hc]
          decide
        · exact Nat.le_refl _
      omega

theorem parseSse_toCrlf {text : List Char} (h : '\r' ∉ text)
    (hsize : (utf8 (toCrlf text)).length ≤ maxSseBodyBytes) (includeComments : Bool) :
    parseSse (utf8 (toCrlf text)) includeComments = parseSse (utf8 text) includeComments := by
  rw [parseSse_utf8 hsize, parseSse_utf8 (Nat.le_trans (length_toCrlf text) hsize)]
  rw [checkFold_congr_lines ((lines_toCrlf h).imp _) {}]
  intro long line ⟨hreturn, hsame⟩
  rcases hsame with rfl | rfl
  · rfl
  · rw [withoutReturn_append, withoutReturn_of_not_mem hreturn]

/-! ### Comment lines -/

def isComment (line : List Char) : Bool := line.head? = some ':'

/-- A text without its comment lines. -/
def withoutComments (text : List Char) : List Char :=
  List.intercalate ['\n'] ((sseLines text).filter fun line => !isComment line)

theorem startsWith_of_isComment {line : List Char} (h : isComment line = true) :
    startsWith (withoutReturn (String.ofList line)) ":" = true := by
  rw [isComment, decide_eq_true_eq, List.head?_eq_some_iff] at h
  obtain ⟨comment, rfl⟩ := h
  rw [startsWith_iff]
  cases hstrip : stripTail (String.ofList (':' :: comment)) "\r" with
  | none =>
      rw [withoutReturn, hstrip, Option.getD_none, @String.toList_ofList (':' :: comment)]
      exact List.prefix_append [':'] comment
  | some lead =>
      rw [withoutReturn, hstrip, Option.getD_some]
      rw [stripTail_eq_some, ← String.toList_inj, String.toList_append,
        @String.toList_ofList (':' :: comment)] at hstrip
      cases hlead : lead.toList with
      | nil =>
          rw [hlead] at hstrip
          exact absurd (List.head_eq_of_cons_eq hstrip) (by decide)
      | cons first more =>
          rw [hlead] at hstrip
          rw [← List.head_eq_of_cons_eq hstrip]
          exact List.prefix_append [':'] more

/-- With comments disabled a comment line of an allowed length does nothing. -/
theorem line_of_comment {line : List Char} (h : isComment line = true)
    (hsize : (withoutReturn (String.ofList line)).utf8ByteSize ≤ maxSseLineBytes)
    (state : SseState) : state.line false (String.ofList line) = .ok state := by
  have hstart := startsWith_of_isComment h
  obtain ⟨comment, hcomment⟩ := startsWith_iff_stripLead.mp hstart
  refine line_eq_ok.mpr ⟨hsize, .inr (.inr ⟨?_, ?_⟩)⟩
  · intro hblank
    rw [hblank] at hstart
    exact absurd hstart (by decide)
  · rw [SseState.read, hcomment]
    rfl

theorem checkFold_withoutComments {lines : List (List Char)}
    (h : ∀ line ∈ lines, isComment line = true →
      (withoutReturn (String.ofList line)).utf8ByteSize ≤ maxSseLineBytes) (state : SseState) :
    checkFold (SseState.line false) state
        ((lines.filter fun line => !isComment line).map String.ofList) =
      checkFold (SseState.line false) state (lines.map String.ofList) := by
  induction lines generalizing state with
  | nil => rfl
  | cons line rest ih =>
      have hrest := ih fun line hline => h line (List.mem_cons_of_mem _ hline)
      by_cases hcomment : isComment line = true
      · rw [List.filter_cons_of_neg (by simp [hcomment]), hrest, List.map_cons, checkFold_cons,
          line_of_comment hcomment (h line List.mem_cons_self hcomment), ok_bind]
      · rw [List.filter_cons_of_pos (by simpa using hcomment), List.map_cons, List.map_cons,
          checkFold_cons, checkFold_cons]
        apply congrArg
        funext next
        exact hrest next

theorem length_utf8_intercalate (lines : List (List Char)) :
    (utf8 (List.intercalate ['\n'] lines)).length =
      joinedLength (lines.map fun line => (utf8 line).length) := by
  induction lines with
  | nil => rfl
  | cons first rest ih =>
      cases rest with
      | nil => simp [joinedLength]
      | cons second more =>
          rw [List.intercalate_cons_cons, length_utf8_append, length_utf8_append, ih]
          have hfeed : (utf8 ['\n']).length = 1 := by decide
          simp only [hfeed, joinedLength, List.map_cons, List.sum_cons, List.length_cons,
            List.length_map]
          omega

theorem length_withoutComments (text : List Char) :
    (utf8 (withoutComments text)).length ≤ (utf8 text).length := by
  conv => rhs; rw [← intercalate_sseLines text]
  rw [withoutComments, length_utf8_intercalate, length_utf8_intercalate]
  have hsub := (List.filter_sublist (p := fun line => !isComment line) (l := sseLines text)).map
    fun line => (utf8 line).length
  have hsum := hsub.sum_le_sum (fun n _ => Nat.zero_le n)
  have hlength := hsub.length_le
  simp only [joinedLength]
  omega

/-- The lines of what is left of a text, which are none where every line is a comment. -/
theorem sseLines_withoutComments (text : List Char) :
    sseLines (withoutComments text) =
        (sseLines text).filter (fun line => !isComment line) ∨
      (sseLines text).filter (fun line => !isComment line) = [] ∧
        sseLines (withoutComments text) = [[]] := by
  by_cases hnone : (sseLines text).filter (fun line => !isComment line) = []
  · refine .inr ⟨hnone, ?_⟩
    rw [withoutComments, hnone]
    rfl
  · refine .inl (sseLines_intercalate hnone fun line hline => ?_)
    exact not_mem_of_mem_sseLines (List.mem_of_mem_filter hline)

theorem parseSse_withoutComments {text : List Char}
    (hsize : (utf8 text).length ≤ maxSseBodyBytes)
    (h : ∀ line ∈ sseLines text, isComment line = true →
      (withoutReturn (String.ofList line)).utf8ByteSize ≤ maxSseLineBytes) :
    parseSse (utf8 (withoutComments text)) false = parseSse (utf8 text) false := by
  rw [parseSse_utf8 hsize,
    parseSse_utf8 (Nat.le_trans (length_withoutComments text) hsize),
    ← checkFold_withoutComments h]
  rcases sseLines_withoutComments text with hlines | ⟨hnone, hlines⟩
  · rw [hlines]
  · rw [hlines, hnone]
    decide

/-! ### The parser -/

/-- Within the limits, events behind a blank end add up, carriage returns before line feeds do
not count, and neither do comment lines where comments are disabled. -/
theorem parseSse_compositional :
    (∀ (includeComments : Bool) (text next : List Char), EndsBlank text →
      (parseSse (utf8 text) includeComments).error = none →
      (parseSse (utf8 next) includeComments).error = none →
      (utf8 (text ++ next)).length ≤ maxSseBodyBytes →
      (parseSse (utf8 text) includeComments).events.length +
        (parseSse (utf8 next) includeComments).events.length ≤ maxSseEvents →
      parseSse (utf8 (text ++ next)) includeComments =
        ⟨(parseSse (utf8 text) includeComments).events ++
          (parseSse (utf8 next) includeComments).events, none⟩) ∧
    (∀ (includeComments : Bool) (text : List Char), '\r' ∉ text →
      (utf8 (toCrlf text)).length ≤ maxSseBodyBytes →
      parseSse (utf8 (toCrlf text)) includeComments = parseSse (utf8 text) includeComments) ∧
    (∀ text : List Char, (utf8 text).length ≤ maxSseBodyBytes →
      (∀ line ∈ sseLines text, isComment line = true →
        (withoutReturn (String.ofList line)).utf8ByteSize ≤ maxSseLineBytes) →
      parseSse (utf8 (withoutComments text)) false = parseSse (utf8 text) false) := by
  refine ⟨?_, ?_, ?_⟩
  · intro includeComments text next hblank htext hnext hsize hcount
    exact parseSse_append hblank htext hnext hsize hcount
  · intro includeComments text hreturn hsize
    exact parseSse_toCrlf hreturn hsize includeComments
  · intro text hsize hcomments
    exact parseSse_withoutComments hsize hcomments

theorem parseSse_twoEvents :
    parseSse (utf8 "id: 7\ndata: a\n\ndata: b".toList) true =
        ⟨(parseSse (utf8 "id: 7\ndata: a\n\n".toList) true).events ++
          (parseSse (utf8 "data: b".toList) true).events, none⟩ ∧
      parseSse (utf8 (toCrlf "id: 7\ndata: a\n\n".toList)) true =
        parseSse (utf8 "id: 7\ndata: a\n\n".toList) true ∧
      parseSse (utf8 (withoutComments ": hi\ndata: a\n: ho".toList)) false =
        parseSse (utf8 ": hi\ndata: a\n: ho".toList) false := by
  obtain ⟨happend, hcrlf, hcomments⟩ := parseSse_compositional
  refine ⟨?_, ?_, ?_⟩
  · have hblank : EndsBlank "id: 7\ndata: a\n\n".toList := by
      refine .inr ⟨"id: 7\ndata: a\n".toList, [], rfl, ?_, .inl rfl⟩
      exact .inr ⟨"id: 7\ndata: a".toList, rfl⟩
    refine happend true "id: 7\ndata: a\n\n".toList "data: b".toList hblank ?_ ?_ ?_ ?_
    all_goals decide
  · exact hcrlf true "id: 7\ndata: a\n\n".toList (by decide) (by decide)
  · exact hcomments ": hi\ndata: a\n: ho".toList (by decide) (by decide)

/-! ### At the limits -/

theorem length_utf8_replicate (count : Nat) {c : Char} (hc : (utf8 [c]).length = 1) :
    (utf8 (List.replicate count c)).length = count := by
  induction count with
  | zero => rfl
  | succ count ih => rw [List.replicate_succ, length_utf8_cons hc, ih]

theorem sseLines_feeds (count : Nat) :
    sseLines (List.replicate count '\n') = List.replicate (count + 1) [] := by
  induction count with
  | zero => rfl
  | succ count ih =>
      rw [List.replicate_succ, sseLines, splitChars, if_pos rfl, ← sseLines, ih]
      rfl

/-- Blank lines alone are no events. -/
theorem parseSse_feeds {count : Nat} (h : count ≤ maxSseBodyBytes) (includeComments : Bool) :
    parseSse (utf8 (List.replicate count '\n')) includeComments = ⟨[], none⟩ := by
  have hfeed : (utf8 ['\n']).length = 1 := by decide
  have hlines : ∀ lines, checkFold (SseState.line includeComments) {}
      (List.replicate lines (String.ofList [])) = .ok {} := by
    intro lines
    induction lines with
    | zero => rfl
    | succ lines ih =>
        have hline : SseState.line includeComments {} (String.ofList []) = .ok {} := by
          exact line_eq_ok.mpr ⟨by decide, .inr (.inl ⟨rfl, rfl, rfl⟩)⟩
        rw [List.replicate_succ, checkFold_cons, hline, ok_bind, ih]
  rw [parseSse_utf8 (by rwa [length_utf8_replicate count hfeed]), sseLines_feeds,
    List.map_replicate, hlines]
  rfl

theorem endsBlank_feeds (count : Nat) : EndsBlank (List.replicate count '\n') := by
  cases count with
  | zero => exact .inl rfl
  | succ count =>
      refine .inr ⟨List.replicate count '\n', [], ?_, ?_, .inl rfl⟩
      · rw [List.replicate_succ', List.append_nil]
      · cases count with
        | zero => exact .inl rfl
        | succ count => exact .inr ⟨List.replicate count '\n', List.replicate_succ'⟩

theorem toCrlf_feeds_oversized {count : Nat} (h : maxSseBodyBytes < 2 * count)
    (includeComments : Bool) :
    (parseSse (utf8 (toCrlf (List.replicate count '\n'))) includeComments).error ≠ none := by
  apply parseSse_oversized
  have hlength : ∀ count, (utf8 (toCrlf (List.replicate count '\n'))).length = 2 * count := by
    intro count
    induction count with
    | zero => rfl
    | succ count ih =>
        rw [List.replicate_succ, toCrlf, List.flatMap_cons, ← toCrlf, if_pos rfl,
          length_utf8_append, ih]
        have hpair : (utf8 ['\r', '\n']).length = 2 := by decide
        omega
  rw [hlength]
  exact h

/-- A comment line that is longer than a line may be is an error, and nothing once it is left
out. -/
theorem longComment {count : Nat} (hline : maxSseLineBytes ≤ count)
    (hbody : count < maxSseBodyBytes) :
    (parseSse (utf8 (':' :: List.replicate count 'x')) false).error ≠ none ∧
      parseSse (utf8 (withoutComments (':' :: List.replicate count 'x'))) false = ⟨[], none⟩ := by
  have hletter : (utf8 ['x']).length = 1 := by decide
  have hlength : (utf8 (':' :: List.replicate count 'x')).length = count + 1 := by
    rw [length_utf8_cons (by decide), length_utf8_replicate count hletter]
  have hmem : ∀ c, c = '\n' ∨ c = '\r' → c ∉ ':' :: List.replicate count 'x' := by
    intro c hc hmem
    rcases List.mem_cons.mp hmem with rfl | hmem
    · revert hc
      decide
    · rw [List.eq_of_mem_replicate hmem] at hc
      revert hc
      decide
  have hlines : sseLines (':' :: List.replicate count 'x') = [':' :: List.replicate count 'x'] :=
    splitChars_of_not_mem (hmem '\n' (.inl rfl))
  constructor
  · rw [parseSse_utf8 (by omega), hlines]
    have hraw := withoutReturn_of_not_mem (hmem '\r' (.inr rfl))
    have hsize : maxSseLineBytes <
        (withoutReturn (String.ofList (':' :: List.replicate count 'x'))).utf8ByteSize := by
      rw [hraw, ← length_utf8, @String.toList_ofList (':' :: List.replicate count 'x'), hlength]
      omega
    cases hrun : checkFold (SseState.line false) {}
      ([':' :: List.replicate count 'x'].map String.ofList) with
    | error broken => exact finish_error_ne_none (lines_error hrun)
    | ok final =>
        rw [List.map_cons, checkFold_cons, bind_eq_ok] at hrun
        obtain ⟨next, hnext, -⟩ := hrun
        exact absurd (line_eq_ok.mp hnext).1 (Nat.not_le.mpr hsize)
  · rw [withoutComments, hlines, List.filter_cons_of_neg (by simp [isComment]), List.filter_nil]
    decide

/-- None of the three holds up to the limits of the single texts. -/
theorem parseSse_not_compositional :
    (¬∀ (includeComments : Bool) (text next : List Char), EndsBlank text →
      (utf8 text).length ≤ maxSseBodyBytes → (utf8 next).length ≤ maxSseBodyBytes →
      (parseSse (utf8 text) includeComments).error = none →
      (parseSse (utf8 next) includeComments).error = none →
      (parseSse (utf8 (text ++ next)) includeComments).error = none) ∧
    (¬∀ (includeComments : Bool) (text : List Char), '\r' ∉ text →
      parseSse (utf8 (toCrlf text)) includeComments = parseSse (utf8 text) includeComments) ∧
    (¬∀ text : List Char,
      parseSse (utf8 (withoutComments text)) false = parseSse (utf8 text) false) := by
  have hfeed : (utf8 ['\n']).length = 1 := by decide
  obtain ⟨half, hhalf, hmore⟩ : ∃ half, half ≤ maxSseBodyBytes ∧ maxSseBodyBytes < 2 * half :=
    ⟨maxSseBodyBytes / 2 + 1, by decide, by decide⟩
  have hparsed := parseSse_feeds hhalf true
  have hsize := length_utf8_replicate half hfeed
  refine ⟨?_, ?_, ?_⟩
  · intro h
    have hjoined := h true _ _ (endsBlank_feeds half) (by omega) (by omega)
      (congrArg SseParseResult.error hparsed) (congrArg SseParseResult.error hparsed)
    apply parseSse_oversized _ true hjoined
    rw [length_utf8_append, hsize]
    omega
  · intro h
    have hcrlf := h true (List.replicate half '\n') (by
      intro hmem
      exact absurd (List.eq_of_mem_replicate hmem) (by decide))
    apply toCrlf_feeds_oversized hmore true
    rw [hcrlf, hparsed]
  · intro h
    obtain ⟨herror, hparsed⟩ := longComment (Nat.le_refl maxSseLineBytes) (by decide)
    apply herror
    rw [← h, hparsed]

end EggReplay.Core.SseComposition
