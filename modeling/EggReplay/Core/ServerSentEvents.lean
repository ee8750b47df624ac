import EggReplay.Core.StreamTimeline

/-!
Server-Sent Events as a derived view of a body: the bounded line parser and the
comparison of two event sequences under a list of ignored fields.
-/

namespace EggReplay.Core.ServerSentEvents

open EggReplay.Library.Checks
open EggReplay.Library.Text
open EggReplay.Core.StreamTimeline

def maxSseLineBytes : Nat := 64 * 1024
def maxSseEvents : Nat := 100000
def maxSseBodyBytes : Nat := 16 * 1024 * 1024

structure SseEvent where
  data : String
  event : Option String
  id : Option String
  retry : Option Nat
  comments : List String
  deriving DecidableEq, Repr

structure SseParseResult where
  events : List SseEvent
  error : Option String
  deriving DecidableEq, Repr

/-- The parser's locals: the result so far and the fields of the event being read. -/
structure SseState where
  events : List SseEvent := []
  error : Option String := none
  data : List String := []
  event : Option String := none
  id : Option String := none
  retry : Option Nat := none
  comments : List String := []
  deriving DecidableEq, Repr

def SseState.pending (state : SseState) : Bool :=
  !state.data.isEmpty || state.event.isSome || state.id.isSome || state.retry.isSome ||
    !state.comments.isEmpty

/-- The event being read, without the line feed that its last data line left. -/
def SseState.current (state : SseState) : SseEvent where
  data := String.join state.data.dropLast
  event := state.event
  id := state.id
  retry := state.retry
  comments := state.comments

def SseState.dispatch (state : SseState) : SseState :=
  { events := state.events ++ [state.current], error := state.error }

def SseState.invalidValue (state : SseState) : SseState :=
  { state with error := some "invalid SSE field value" }

/-- `str::parse::<u64>` on a text of decimal digits. -/
def parseDigits (digits : String) : Option Nat :=
  let value := digits.toList.foldl (fun total c => total * 10 + (c.toNat - '0'.toNat)) 0
  if value ≤ u64Max then some value else none

def SseState.field (state : SseState) (name value : String) : SseState :=
  if name = "data" then { state with data := state.data ++ [value, "\n"] }
  else if name = "event" then { state with event := some value }
  else if name = "id" then
    if containsChar value '\x00' then state.invalidValue
    else { state with id := some value }
  else if name = "retry" then
    if value ≠ "" ∧ value.toList.all Char.isDigit = true then
      match parseDigits value with
      | some retry => { state with retry := some retry }
      | none => state.invalidValue
    else state.invalidValue
  else state

/-- One line; an error is the state in which the loop breaks off. -/
def SseState.line (includeComments : Bool) (state : SseState) (raw : String) :
    Except SseState SseState :=
  let line := (stripTail raw "\r").getD raw
  if maxSseLineBytes < line.utf8ByteSize then
    .error { state with error := some "SSE line exceeds configured byte limit" }
  else if line = "" then
    if state.pending then
      if maxSseEvents ≤ state.events.length then
        .error { state with error := some "SSE event count exceeds configured limit" }
      else .ok state.dispatch
    else .ok state
  else
    match stripLead line ":" with
    | some comment =>
        if includeComments then
          .ok { state with
            comments := state.comments ++ [(stripLead comment " ").getD comment] }
        else .ok state
    | none =>
        let (field, value) := (splitOnce line ':').getD (line, "")
        .ok (state.field field ((stripLead value " ").getD value))

/-- What remains to be done once the lines are read or the loop has broken off. -/
def SseState.finish (state : SseState) : SseParseResult :=
  if state.error = none ∧ state.pending = true then
    if maxSseEvents ≤ state.events.length then
      { events := state.events, error := some "SSE event count exceeds configured limit" }
    else { events := state.events ++ [state.current], error := none }
  else { events := state.events, error := state.error }

def parseSse (body : Bytes) (includeComments : Bool) : SseParseResult :=
  if maxSseBodyBytes < body.length then
    { events := [], error := some "SSE body exceeds configured byte limit" }
  else
    match decodeUtf8 body with
    | none => { events := [], error := some "SSE body is not valid UTF-8" }
    | some text =>
        let lines := (splitChars '\n' text).map String.ofList
        match checkFold (SseState.line includeComments) {} lines with
        | .error state => state.finish
        | .ok state => state.finish

def sameUnlessIgnored (ignored : List String) (left right : SseEvent) : Bool :=
  (ignored.contains "data" || left.data == right.data) &&
    (ignored.contains "event" || left.event == right.event) &&
    (ignored.contains "id" || left.id == right.id) &&
    (ignored.contains "retry" || left.retry == right.retry) &&
    (ignored.contains "comments" || left.comments == right.comments)

def compareSse (expected actual : List SseEvent) (ignored : List String) : Bool :=
  expected.length == actual.length &&
    (expected.zip actual).all fun pair => sameUnlessIgnored ignored pair.1 pair.2

theorem SseState.finish_error {state : SseState} {message : String}
    (h : state.error = some message) : state.finish.error = some message := by
  rw [SseState.finish, h, if_neg]
  rintro ⟨habsurd, -⟩
  exact absurd habsurd (by simp)

@[simp] theorem sameUnlessIgnored_self (ignored : List String) (event : SseEvent) :
    sameUnlessIgnored ignored event event = true := by
  simp [sameUnlessIgnored]

theorem compareSse_self (events : List SseEvent) (ignored : List String) :
    compareSse events events ignored = true := by
  rw [compareSse, beq_self_eq_true, Bool.true_and, List.all_eq_true]
  rintro ⟨left, right⟩ hpair
  have heq : left = right := by
    rw [List.mem_iff_getElem] at hpair
    obtain ⟨i, hi, heq⟩ := hpair
    rw [List.getElem_zip, Prod.mk.injEq] at heq
    exact heq.1.symm.trans heq.2
  subst heq
  exact sameUnlessIgnored_self ignored left

example : parseSse (utf8 ": hi\nid: 7\ndata: a\ndata: b\n\n".toList) true =
    { events := [⟨"a\nb", none, some "7", none, ["hi"]⟩], error := none } := by
  decide

end EggReplay.Core.ServerSentEvents
