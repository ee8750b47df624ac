import EggReplay.Core.ScenarioSecrecy
import EggReplay.Http.GatewayTransparency
import EggReplay.Http.RecordMarkers
import EggReplay.Library.TwoRuns

/-!
Two transactions that differ in the values of redacted fields only, and what a recorder makes of
them: which values it keeps outside the redacted flow, and which of its decisions depend on them.
-/

namespace EggReplay.Http.ConcealedFields

open EggReplay.Library.Checks
open EggReplay.Library.Text
open EggReplay.Library.TwoRuns
open EggReplay.Core.FlowRecord
open EggReplay.Core.StreamTimeline
open EggReplay.Core.Redaction
open EggReplay.Core.ScenarioSecrecy
open EggReplay.Store.Fixture
open EggReplay.Store.BlobContents
open EggReplay.Http.Transaction
open EggReplay.Http.StreamEventCapture
open EggReplay.Http.Recorder
open EggReplay.Http.Captures
open EggReplay.Http.GatewayAnswers

variable {N : Type}

/-! ### Transactions that differ in redacted values -/

def SameValue (names : Finset String) (left right : HeaderField) : Prop :=
  left.name = right.name ∧ (toAsciiLowercase left.name ∈ names ∨ left.value = right.value)

abbrev SameFields (names : Finset String) : HeaderMap → HeaderMap → Prop :=
  List.Forall₂ (SameValue names)

inductive SameContent (names : Finset String) : Frame → Frame → Prop
  | data (bytes : Bytes) : SameContent names (.data bytes) (.data bytes)
  | trailers {left right : HeaderMap} (h : SameFields names left right) :
      SameContent names (.trailers left) (.trailers right)

structure SameFrame (names : Finset String) (left right : TimedFrame) : Prop where
  deltaNs : left.deltaNs = right.deltaNs
  content : SameContent names left.content right.content

structure SameReply (names : Finset String) (left right : Reply) : Prop where
  status : left.status = right.status
  http2 : left.http2 = right.http2
  headers : SameFields names left.headers right.headers
  frames : List.Forall₂ (SameFrame names) left.frames right.frames
  ending : left.ending = right.ending

inductive SameResult (names : Finset String) : Except FlowError Reply → Except FlowError Reply → Prop
  | error (failure : FlowError) : SameResult names (.error failure) (.error failure)
  | ok {left right : Reply} (h : SameReply names left right) :
      SameResult names (.ok left) (.ok right)

/-- The pairs that the query of a URI is read as. -/
def queryOf (codec : BodyCodec N) (uri : Uri) : List QueryPair :=
  (uri.query.map (parseQuery codec)).getD []

/-- Bodies, ids and times are the same, and so is everything else but the values of headers,
trailers and query pairs under redacted names. -/
structure SameExchange (codec : BodyCodec N) (config : RedactionConfig) (left right : Exchange) :
    Prop where
  method : left.method = right.method
  scheme : left.uri.scheme = right.uri.scheme
  authority : left.uri.authority = right.uri.authority
  path : left.uri.path = right.uri.path
  query : List.Forall₂ (SamePair config) (queryOf codec left.uri) (queryOf codec right.uri)
  headers : SameFields config.headers left.headers right.headers
  polled : List.Forall₂ (SameFrame config.headers) left.polled right.polled
  requestEnd : left.requestEnd = right.requestEnd
  result : SameResult config.headers left.result right.result
  uuid : left.uuid = right.uuid
  startedAtMs : left.startedAtMs = right.startedAtMs
  completedAtMs : left.completedAtMs = right.completedAtMs
  startOffsetNs : left.startOffsetNs = right.startOffsetNs
  endOffsetNs : left.endOffsetNs = right.endOffsetNs
  physicalRoute : left.physicalRoute = right.physicalRoute

/-! ### Entries -/

/-- Recorded entries under the lowercase names. -/
def SameEntry (names : Finset String) (left right : HeaderEntry) : Prop :=
  left.name = right.name ∧ (toAsciiLowercase left.name ∈ names ∨ left.value = right.value)

abbrev SameEntries (names : Finset String) : List HeaderEntry → List HeaderEntry → Prop :=
  List.Forall₂ (SameEntry names)

variable {names : Finset String}

theorem SameValue.entry {left right : HeaderField} (h : SameValue names left right) :
    SameEntry names (headerEntry left) (headerEntry right) := by
  obtain ⟨hname, hvalue⟩ := h
  constructor
  · rw [headerEntry, headerEntry, hname]
  · rcases hvalue with hredacted | hvalue
    · left
      rwa [headerEntry, toAsciiLowercase_idem]
    · right
      rw [headerEntry, headerEntry, hvalue]

theorem sameEntries {left right : HeaderMap} (h : SameFields names left right) :
    SameEntries names (headerEntries left).1 (headerEntries right).1 := by
  apply List.forall₂_map_left_iff.mpr
  apply List.forall₂_map_right_iff.mpr
  exact h.imp fun _ _ hvalue => hvalue.entry

/-- No field has a redacted name. -/
def Unnamed (names : Finset String) (fields : HeaderMap) : Prop :=
  ∀ field ∈ fields, toAsciiLowercase field.name ∉ names

theorem SameFields.eq_of_unnamed {left right : HeaderMap} (h : SameFields names left right)
    (hunnamed : Unnamed names left) : left = right := by
  induction h with
  | nil => rfl
  | @cons a b left right hfirst _ ih =>
      have hvalue := hfirst.2.resolve_left (hunnamed a List.mem_cons_self)
      have hrest := ih fun field hfield => hunnamed field (List.mem_cons_of_mem _ hfield)
      obtain ⟨name, value⟩ := a
      obtain ⟨name', value'⟩ := b
      obtain rfl : name = name' := hfirst.1
      obtain rfl : value = value' := hvalue
      rw [hrest]

/-! ### Redacted entries -/

theorem redactHeader_same {left right : HeaderEntry} (h : SameEntry names left right) :
    redactHeader names left = redactHeader names right := by
  obtain ⟨name, value⟩ := left
  obtain ⟨name', value'⟩ := right
  obtain ⟨rfl, hvalue⟩ := h
  unfold redactHeader
  split
  · rfl
  · rename_i hpublic
    obtain rfl : value = value' := hvalue.resolve_left hpublic
    rfl

theorem map_redactHeader_same {left right : List HeaderEntry} (h : SameEntries names left right) :
    left.map (redactHeader names) = right.map (redactHeader names) := by
  induction h with
  | nil => rfl
  | cons hfirst _ ih => rw [List.map_cons, List.map_cons, redactHeader_same hfirst, ih]

/-- Only the names of the headers are in their markers. -/
theorem headerMarkers_names (lead profile : String) (headers : List HeaderEntry) :
    headerMarkers names lead profile headers =
      ((headers.map (·.name)).filter fun name => toAsciiLowercase name ∈ names).map
        fun name => { field := lead ++ "." ++ name, profile := profile } := by
  rw [headerMarkers, List.filter_map, List.map_map]
  rfl

theorem headerMarkers_same {left right : List HeaderEntry} (h : SameEntries names left right)
    (lead profile : String) :
    headerMarkers names lead profile left = headerMarkers names lead profile right := by
  have hnames : left.map (·.name) = right.map (·.name) := by
    induction h with
    | nil => rfl
    | cons hfirst _ ih => rw [List.map_cons, List.map_cons, hfirst.1, ih]
  rw [headerMarkers_names, headerMarkers_names, hnames]

theorem redactPairs_same {config : RedactionConfig} {left right : List QueryPair}
    (h : List.Forall₂ (SamePair config) left right) :
    left.map (redactPair config.queryKeys) = right.map (redactPair config.queryKeys) := by
  induction h with
  | nil => rfl
  | @cons a b left right hfirst _ ih =>
      obtain ⟨key, value⟩ := a
      obtain ⟨key', value'⟩ := b
      obtain ⟨hkey, hvalue⟩ := hfirst
      obtain rfl : key = key' := hkey
      rw [List.map_cons, List.map_cons, ih, redactPair, redactPair]
      split
      · rfl
      · rename_i hpublic
        obtain rfl : value = value' := hvalue.resolve_left hpublic
        rfl

theorem queryMarkers_same {config : RedactionConfig} {left right : List QueryPair}
    (h : List.Forall₂ (SamePair config) left right) (profile : String) :
    queryMarkers config.queryKeys profile left = queryMarkers config.queryKeys profile right := by
  rw [queryMarkers, queryMarkers]
  induction h with
  | nil => rfl
  | @cons a b left right hfirst _ ih =>
      rw [List.filter_cons, List.filter_cons, ← hfirst.1]
      split
      · rw [List.map_cons, List.map_cons, ih, hfirst.1]
      · exact ih

/-! ### Events -/

/-- Events that differ in the redacted values of trailers at most. -/
inductive SameEvent (names : Finset String) : StreamEvent → StreamEvent → Prop
  | same (event : StreamEvent) : SameEvent names event event
  | trailers (deltaNs : Nat) {left right : List HeaderEntry} (h : SameEntries names left right) :
      SameEvent names ⟨deltaNs, .trailers left⟩ ⟨deltaNs, .trailers right⟩

abbrev SameEvents (names : Finset String) : List StreamEvent → List StreamEvent → Prop :=
  List.Forall₂ (SameEvent names)

theorem sameEvents_refl (events : List StreamEvent) : SameEvents names events events := by
  induction events with
  | nil => exact .nil
  | cons event rest ih => exact .cons (.same event) ih

theorem SameEvent.isEmptyData {left right : StreamEvent} (h : SameEvent names left right) :
    isEmptyData left = isEmptyData right := by
  cases h with
  | same event => rfl
  | trailers deltaNs h => rfl

theorem sameEvents_concat {left right : List StreamEvent} {last last' : StreamEvent}
    (h : SameEvents names left right) (hlast : SameEvent names last last') :
    SameEvents names (left ++ [last]) (right ++ [last']) :=
  List.rel_append h (.cons hlast .nil)

theorem coalesce_none_of_trailers (events : List StreamEvent) (deltaNs : Nat)
    (fields : List HeaderEntry) : coalesce events ⟨deltaNs, .trailers fields⟩ = none := by
  unfold coalesce
  split
  · rename_i hdata
    cases hdata
  · rfl

theorem coalesce_same {left right : List StreamEvent} (h : SameEvents names left right)
    (event : StreamEvent) :
    (coalesce left event = none ∧ coalesce right event = none) ∨
      ∃ next next', coalesce left event = some next ∧ coalesce right event = some next' ∧
        SameEvents names next next' := by
  rcases List.eq_nil_or_concat right with rfl | ⟨before', last', rfl⟩
  · cases h
    exact .inl ⟨rfl, rfl⟩
  · rw [List.concat_eq_append] at h ⊢
    have hbefore := List.forall₂_take_append left before' [last'] h
    have hlast := List.forall₂_drop_append left before' [last'] h
    rw [← List.take_append_drop before'.length left]
    generalize List.take before'.length left = before at hbefore ⊢
    generalize List.drop before'.length left = rest at hlast ⊢
    cases hlast with
    | @cons last _ _ _ hsame hnil =>
        cases hnil
        unfold coalesce
        rw [List.getLast?_concat, List.getLast?_concat, List.dropLast_concat,
          List.dropLast_concat]
        cases hsame with
        | same =>
            obtain ⟨lastDelta, lastKind⟩ := last'
            obtain ⟨deltaNs, kind⟩ := event
            dsimp only
            cases kind with
            | data offset length =>
                cases lastKind with
                | data lastOffset lastLength =>
                    dsimp only
                    by_cases hjoin : saturatingAdd lastOffset lastLength = offset
                    · rw [if_pos hjoin, if_pos hjoin]
                      exact .inr ⟨_, _, rfl, rfl, sameEvents_concat hbefore (.same _)⟩
                    · rw [if_neg hjoin, if_neg hjoin]
                      exact .inl ⟨rfl, rfl⟩
                | trailers fields => exact .inl ⟨rfl, rfl⟩
                | finish => exact .inl ⟨rfl, rfl⟩
                | error offset category phase => exact .inl ⟨rfl, rfl⟩
            | trailers fields => exact .inl ⟨rfl, rfl⟩
            | finish => exact .inl ⟨rfl, rfl⟩
            | error offset category phase => exact .inl ⟨rfl, rfl⟩
        | trailers deltaNs hfields =>
            left
            cases event.event with
            | data offset length => exact ⟨rfl, rfl⟩
            | trailers fields => exact ⟨rfl, rfl⟩
            | finish => exact ⟨rfl, rfl⟩
            | error offset category phase => exact ⟨rfl, rfl⟩

/-- A push takes events of the same shape alike. -/
theorem pushStreamEventInner_same {left right : List StreamEvent} {event event' : StreamEvent}
    (h : SameEvents names left right) (hevent : SameEvent names event event') :
    Alike (SameEvents names) (pushStreamEventInner left event)
      (pushStreamEventInner right event') := by
  unfold pushStreamEventInner
  rw [← hevent.isEmptyData, ← h.length_eq]
  split
  · exact .ok h
  · split
    · exact .ok (sameEvents_concat h hevent)
    · cases hevent with
      | same event =>
          rcases coalesce_same h event with ⟨hleft, hright⟩ | ⟨next, next', hleft, hright, hnext⟩
          · rw [hleft, hright]
            exact .error _
          · rw [hleft, hright]
            exact .ok hnext
      | trailers deltaNs hfields =>
          rw [coalesce_none_of_trailers, coalesce_none_of_trailers]
          exact .error _

/-! ### The tee of the request body -/

structure SameTaken (names : Finset String) (left right : Taken) : Prop where
  content : left.content = right.content
  trailers : SameEntries names left.trailers right.trailers
  events : SameEvents names left.events right.events
  offset : left.offset = right.offset
  given : left.given = right.given

theorem sameTaken_start : SameTaken names .start .start := ⟨rfl, .nil, .nil, rfl, rfl⟩

theorem SameTaken.frame {maxBlobBytes : Nat} {left right : Taken} {frame frame' : TimedFrame}
    (h : SameTaken names left right) (hframe : SameFrame names frame frame') :
    SameTaken names (left.frame maxBlobBytes pushStreamEventInner frame)
      (right.frame maxBlobBytes pushStreamEventInner frame') := by
  obtain ⟨content, trailers, events, offset, given⟩ := left
  obtain ⟨content', trailers', events', offset', given'⟩ := right
  obtain ⟨rfl, htrailers, hevents, rfl, rfl⟩ := h
  obtain ⟨deltaNs, kind⟩ := frame
  obtain ⟨deltaNs', kind'⟩ := frame'
  obtain ⟨rfl, hkind⟩ := hframe
  unfold Taken.frame
  by_cases hgiven : given = false
  · rw [if_pos hgiven, if_pos hgiven]
    exact ⟨rfl, htrailers, hevents, rfl, rfl⟩
  · rw [if_neg hgiven, if_neg hgiven]
    cases hkind with
    | data bytes =>
        dsimp only
        cases grow maxBlobBytes content bytes with
        | error e => exact ⟨rfl, htrailers, hevents, rfl, rfl⟩
        | ok longer =>
            dsimp only
            have hpush := pushStreamEventInner_same hevents
              (.same ⟨deltaNs, .data offset bytes.length⟩)
            generalize pushStreamEventInner events _ = pushed at hpush ⊢
            generalize pushStreamEventInner events' _ = pushed' at hpush ⊢
            cases hpush with
            | error e => exact ⟨rfl, htrailers, hevents, rfl, rfl⟩
            | ok hnext => exact ⟨rfl, htrailers, hnext, rfl, rfl⟩
    | trailers hfields =>
        dsimp only
        have hentries := sameEntries hfields
        have hboth := List.rel_append htrailers hentries
        have hpush := pushStreamEventInner_same hevents (.trailers deltaNs hentries)
        generalize pushStreamEventInner events _ = pushed at hpush ⊢
        generalize pushStreamEventInner events' _ = pushed' at hpush ⊢
        cases hpush with
        | error e => exact ⟨rfl, hboth, hevents, rfl, rfl⟩
        | ok hnext => exact ⟨rfl, hboth, hnext, rfl, rfl⟩

theorem SameTaken.finish {left right : Taken} (h : SameTaken names left right)
    (ending : Option TimedEnd) :
    SameTaken names (left.finish pushStreamEventInner ending)
      (right.finish pushStreamEventInner ending) := by
  obtain ⟨content, trailers, events, offset, given⟩ := left
  obtain ⟨content', trailers', events', offset', given'⟩ := right
  obtain ⟨rfl, htrailers, hevents, rfl, rfl⟩ := h
  cases ending with
  | none => exact ⟨rfl, htrailers, hevents, rfl, rfl⟩
  | some ending =>
      unfold Taken.finish
      dsimp only
      by_cases hgiven : given = false
      · rw [if_pos hgiven, if_pos hgiven]
        exact ⟨rfl, htrailers, hevents, rfl, rfl⟩
      · rw [if_neg hgiven, if_neg hgiven]
        refine ⟨rfl, htrailers, ?_, rfl, rfl⟩
        have hpush := pushStreamEventInner_same hevents (.same (requestEndEvent offset ending))
        dsimp only
        generalize pushStreamEventInner events _ = pushed at hpush ⊢
        generalize pushStreamEventInner events' _ = pushed' at hpush ⊢
        cases hpush with
        | error e => exact hevents
        | ok hnext => exact hnext

theorem takenBody_same {maxBlobBytes : Nat} {left right : Exchange}
    (hpolled : List.Forall₂ (SameFrame names) left.polled right.polled)
    (hend : left.requestEnd = right.requestEnd) :
    SameTaken names (takenBody maxBlobBytes pushStreamEventInner left)
      (takenBody maxBlobBytes pushStreamEventInner right) := by
  rw [takenBody, takenBody, hend]
  exact (foldl_related (fun _ _ _ _ h hframe => h.frame hframe) sameTaken_start hpolled).finish _

/-! ### The response -/

structure SameReceived (names : Finset String) (left right : Received) : Prop where
  content : left.content = right.content
  trailers : SameEntries names left.trailers right.trailers
  events : SameEvents names left.events right.events
  offset : left.offset = right.offset

theorem SameReceived.frame {maxBlobBytes : Nat} {left right : Received}
    {frame frame' : TimedFrame} (h : SameReceived names left right)
    (hframe : SameFrame names frame frame') :
    Alike (SameReceived names) (left.frame maxBlobBytes frame)
      (right.frame maxBlobBytes frame') := by
  obtain ⟨content, trailers, events, offset⟩ := left
  obtain ⟨content', trailers', events', offset'⟩ := right
  obtain ⟨rfl, htrailers, hevents, rfl⟩ := h
  obtain ⟨deltaNs, kind⟩ := frame
  obtain ⟨deltaNs', kind'⟩ := frame'
  obtain ⟨rfl, hkind⟩ := hframe
  unfold Received.frame
  cases hkind with
  | data bytes =>
      refine (alike_refl (fun _ => rfl) _).bind ?_
      rintro longer _ rfl
      refine ((pushStreamEventInner_same hevents (.same _)).mapError _).bind ?_
      intro next next' hnext
      exact .ok ⟨rfl, htrailers, hnext, rfl⟩
  | trailers hfields =>
      have hentries := sameEntries hfields
      refine ((pushStreamEventInner_same hevents (.trailers deltaNs hentries)).mapError _).bind ?_
      intro next next' hnext
      exact .ok ⟨rfl, hentries, hnext, rfl⟩

theorem receivedBody_same {maxBlobBytes : Nat} {left right : Reply}
    (h : SameReply names left right) :
    Alike (SameReceived names) (receivedBody maxBlobBytes left)
      (receivedBody maxBlobBytes right) := by
  unfold receivedBody
  have hstep : ∀ (s t : Received) (a b : TimedFrame), SameReceived names s t →
      SameFrame names a b → Alike (SameReceived names) (s.frame maxBlobBytes a)
        (t.frame maxBlobBytes b) := fun _ _ _ _ hreceived hframe => hreceived.frame hframe
  refine (Alike.checkFold hstep ⟨rfl, .nil, .nil, rfl⟩ h.frames).bind ?_
  intro received received' hreceived
  rw [h.ending, ← hreceived.offset]
  refine ((pushStreamEventInner_same hreceived.events (.same _)).mapError _).bind ?_
  intro events events' hevents
  exact .ok ⟨hreceived.content, hreceived.trailers, hevents, rfl⟩

/-! ### Trailers among the events -/

def trailersOf (events : List StreamEvent) : List (List HeaderEntry) :=
  events.filterMap fun event =>
    match event.event with
    | .trailers fields => some fields
    | .data _ _ | .finish | .error _ _ _ => none

theorem trailersOf_append (left right : List StreamEvent) :
    trailersOf (left ++ right) = trailersOf left ++ trailersOf right := List.filterMap_append

theorem trailersOf_concat (events : List StreamEvent) (deltaNs : Nat) (fields : List HeaderEntry) :
    trailersOf (events ++ [⟨deltaNs, .trailers fields⟩]) = trailersOf events ++ [fields] := by
  rw [trailersOf_append]
  rfl

theorem trailersOf_of_isEmptyData {event : StreamEvent} (h : isEmptyData event = true) :
    trailersOf [event] = [] := by
  rcases event with ⟨deltaNs, ⟨offset, length⟩ | fields | _ | ⟨offset, category, phase⟩⟩
  · rfl
  · cases h
  · rfl
  · rfl

theorem trailersOf_coalesce {events next : List StreamEvent} {event : StreamEvent}
    (h : coalesce events event = some next) :
    trailersOf next = trailersOf events ++ trailersOf [event] := by
  unfold coalesce at h
  split at h
  · rename_i last offset length hlast hdata
    split at h
    · rename_i lastOffset lastLength hlastData
      split at h
      · obtain rfl := Option.some.inj h
        obtain ⟨before, rfl⟩ := List.getLast?_eq_some_iff.mp hlast
        obtain ⟨lastDelta, lastKind⟩ := last
        obtain ⟨deltaNs, kind⟩ := event
        dsimp only at hlastData hdata
        rw [List.dropLast_concat, trailersOf_append, trailersOf_append, hlastData, hdata]
        exact (List.append_nil _).symm
      · cases h
    · cases h
  · cases h

theorem trailersOf_push {events next : List StreamEvent} {event : StreamEvent}
    (h : pushStreamEventInner events event = .ok next) :
    trailersOf next = trailersOf events ++ trailersOf [event] := by
  rw [pushStreamEventInner] at h
  split at h
  · rename_i hempty
    obtain rfl := Except.ok.inj h
    rw [trailersOf_of_isEmptyData hempty, List.append_nil]
  · split at h
    · obtain rfl := Except.ok.inj h
      exact trailersOf_append events [event]
    · exact trailersOf_coalesce (orFail_eq_ok.mp h)

/-- Trailers are pushed while there is room for one more event, and rejected from then on. -/
theorem pushStreamEventInner_trailers (events : List StreamEvent) (deltaNs : Nat)
    (fields : List HeaderEntry) :
    pushStreamEventInner events ⟨deltaNs, .trailers fields⟩ =
      if events.length < maxEventsPerDirection then
        .ok (events ++ [⟨deltaNs, .trailers fields⟩])
      else .error "stream event count exceeds configured limit" := by
  have hdata : ¬isEmptyData ⟨deltaNs, .trailers fields⟩ = true := Bool.false_ne_true
  rw [pushStreamEventInner, if_neg hdata, coalesce_none_of_trailers]
  rfl

/-- The trailers that the tee of a request body pushes for a frame. -/
def pushedTrailers (taken : Taken) (frame : TimedFrame) : List HeaderMap :=
  match frame.content with
  | .data _ => []
  | .trailers fields =>
      if taken.given = true ∧ taken.events.length < maxEventsPerDirection then [fields] else []

def takenTrailers (maxBlobBytes : Nat) : Taken → List TimedFrame → List HeaderMap
  | _, [] => []
  | taken, frame :: rest =>
      pushedTrailers taken frame ++
        takenTrailers maxBlobBytes (taken.frame maxBlobBytes pushStreamEventInner frame) rest

theorem trailersOf_takenFrame (maxBlobBytes : Nat) (taken : Taken) (frame : TimedFrame) :
    trailersOf (taken.frame maxBlobBytes pushStreamEventInner frame).events =
      trailersOf taken.events ++
        (pushedTrailers taken frame).map fun fields => (headerEntries fields).1 := by
  obtain ⟨deltaNs, bytes | fields⟩ := frame
  · rw [pushedTrailers, List.map_nil, List.append_nil, Taken.frame]
    split
    · rfl
    · dsimp only
      split
      · rfl
      · split
        · rfl
        · rename_i hpush
          exact (trailersOf_push hpush).trans (List.append_nil _)
  · rw [pushedTrailers, Taken.frame]
    dsimp only
    rw [pushStreamEventInner_trailers]
    cases hgiven : taken.given with
    | false =>
        rw [if_pos rfl, if_neg (fun h => Bool.false_ne_true h.1)]
        exact (List.append_nil _).symm
    | true =>
        rw [if_neg Bool.true_eq_false.mp]
        by_cases hroom : taken.events.length < maxEventsPerDirection
        · rw [if_pos hroom, if_pos ⟨rfl, hroom⟩]
          exact trailersOf_concat _ _ _
        · rw [if_neg hroom, if_neg fun h => hroom h.2]
          exact (List.append_nil _).symm

theorem trailersOf_takenFrames (maxBlobBytes : Nat) (taken : Taken) (frames : List TimedFrame) :
    trailersOf (frames.foldl (Taken.frame maxBlobBytes pushStreamEventInner) taken).events =
      trailersOf taken.events ++
        (takenTrailers maxBlobBytes taken frames).map fun fields => (headerEntries fields).1 := by
  induction frames generalizing taken with
  | nil => exact (List.append_nil _).symm
  | cons frame rest ih =>
      rw [List.foldl_cons, ih, trailersOf_takenFrame, takenTrailers, List.map_append,
        List.append_assoc]

theorem trailersOf_takenFinish (taken : Taken) (ending : Option TimedEnd) :
    trailersOf (taken.finish pushStreamEventInner ending).events = trailersOf taken.events := by
  cases ending with
  | none => rfl
  | some ending =>
      rw [Taken.finish]
      split
      · rfl
      · dsimp only
        split
        · rename_i hpush
          rw [trailersOf_push hpush]
          obtain ⟨deltaNs, _ | failure⟩ := ending
          · exact List.append_nil _
          · exact List.append_nil _
        · rfl

/-- The trailers in the timeline of a request body. -/
theorem trailersOf_takenBody (maxBlobBytes : Nat) (exchange : Exchange) :
    trailersOf (takenBody maxBlobBytes pushStreamEventInner exchange).events =
      (takenTrailers maxBlobBytes .start exchange.polled).map
        fun fields => (headerEntries fields).1 := by
  rw [takenBody, trailersOf_takenFinish, trailersOf_takenFrames]
  rfl

/-- The trailers that come with a reply. -/
def sentTrailers (frame : TimedFrame) : List HeaderMap :=
  match frame.content with
  | .data _ => []
  | .trailers fields => [fields]

theorem trailersOf_receivedFrame {maxBlobBytes : Nat} {received next : Received}
    {frame : TimedFrame} (h : received.frame maxBlobBytes frame = .ok next) :
    trailersOf next.events = trailersOf received.events ++
      (sentTrailers frame).map fun fields => (headerEntries fields).1 := by
  obtain ⟨deltaNs, bytes | fields⟩ := frame
  · simp only [Received.frame, pushStreamEvent, bind_eq_ok, mapError_eq_ok, pure_eq_ok] at h
    obtain ⟨content, -, events, hpush, rfl⟩ := h
    exact trailersOf_push hpush
  · simp only [Received.frame, pushStreamEvent, bind_eq_ok, mapError_eq_ok, pure_eq_ok] at h
    obtain ⟨events, hpush, rfl⟩ := h
    exact trailersOf_push hpush

theorem trailersOf_receivedFrames {maxBlobBytes : Nat} {received last : Received}
    {frames : List TimedFrame}
    (h : checkFold (Received.frame maxBlobBytes) received frames = .ok last) :
    trailersOf last.events = trailersOf received.events ++
      (frames.flatMap sentTrailers).map fun fields => (headerEntries fields).1 := by
  induction frames generalizing received with
  | nil =>
      obtain rfl := Except.ok.inj h
      exact (List.append_nil _).symm
  | cons frame rest ih =>
      rw [checkFold_cons, bind_eq_ok] at h
      obtain ⟨next, hnext, hrest⟩ := h
      rw [ih hrest, trailersOf_receivedFrame hnext, List.flatMap_cons, List.map_append,
        List.append_assoc]

/-- The trailers in the timeline of a response body. -/
theorem trailersOf_receivedBody {maxBlobBytes : Nat} {reply : Reply} {received : Received}
    (h : receivedBody maxBlobBytes reply = .ok received) :
    trailersOf received.events =
      (reply.frames.flatMap sentTrailers).map fun fields => (headerEntries fields).1 := by
  simp only [receivedBody, pushStreamEvent, bind_eq_ok, mapError_eq_ok, pure_eq_ok] at h
  obtain ⟨final, hframes, events, hpush, rfl⟩ := h
  rw [trailersOf_push hpush, trailersOf_receivedFrames hframes]
  obtain ⟨deltaNs, _ | failure⟩ := reply.ending
  · exact List.append_nil _
  · exact List.append_nil _

theorem trailersOf_errorAt (offset : Nat) (events : List StreamEvent) :
    trailersOf (events.map (errorAt offset)) = trailersOf events := by
  rw [trailersOf, trailersOf, List.filterMap_map]
  apply List.filterMap_congr
  rintro ⟨deltaNs, ⟨start, length⟩ | fields | _ | ⟨start, category, phase⟩⟩ _
  · rfl
  · rfl
  · rfl
  · rfl

theorem trailersOf_withoutData (events : List StreamEvent) :
    trailersOf (events.filter fun event => !isData event) = trailersOf events := by
  rw [trailersOf, trailersOf, List.filterMap_filter]
  apply List.filterMap_congr
  rintro ⟨deltaNs, ⟨start, length⟩ | fields | _ | ⟨start, category, phase⟩⟩ _
  · rfl
  · rfl
  · rfl
  · rfl

/-- The reconciliation with the stored body leaves the trailers as they are. -/
theorem trailersOf_reconcile (events : List StreamEvent) (outcome : FlowOutcome) :
    trailersOf (reconcileStreamEventBodyLength events outcome) = trailersOf events := by
  cases outcome with
  | error failure => rfl
  | response response =>
      rw [reconcileStreamEventBodyLength]
      dsimp only
      split
      · rfl
      · rw [trailersOf_errorAt]
        split
        · rw [trailersOf_append, ← List.singleton_append, trailersOf_append, ← List.append_assoc]
          show trailersOf _ ++ [] ++ trailersOf _ = _
          rw [List.append_nil, ← trailersOf_append, List.take_append_drop,
            trailersOf_withoutData]
        · exact trailersOf_withoutData events

/-- Events without redacted trailers are the same. -/
theorem SameEvents.eq {left right : List StreamEvent} (h : SameEvents names left right)
    (hpublic : ∀ fields ∈ trailersOf left, ∀ entry ∈ fields,
      toAsciiLowercase entry.name ∉ names) : left = right := by
  induction h with
  | nil => rfl
  | @cons event event' left right hfirst _ ih =>
      have hrest := ih fun fields hfields => hpublic fields (by
        rw [← List.singleton_append, trailersOf_append]
        exact List.mem_append_right _ hfields)
      rw [hrest]
      cases hfirst with
      | same event => rfl
      | @trailers deltaNs fields fields' hfields =>
          have hunnamed := hpublic fields List.mem_cons_self
          have hsame : fields = fields' := by
            clear hrest ih hpublic
            induction hfields with
            | nil => rfl
            | @cons a b fields fields' hab _ ih =>
                have hvalue := hab.2.resolve_left (hunnamed a List.mem_cons_self)
                have hmore := ih fun entry hentry =>
                  hunnamed entry (List.mem_cons_of_mem _ hentry)
                obtain ⟨name, value⟩ := a
                obtain ⟨name', value'⟩ := b
                obtain rfl : name = name' := hab.1
                obtain rfl : value = value' := hvalue
                rw [hmore]
          rw [hsame]

/-! ### Headers that are read -/

/-- No field of the name is redacted. -/
def Kept (names : Finset String) (name : String) (fields : HeaderMap) : Prop :=
  ∀ field ∈ fields, toAsciiLowercase field.name = name → name ∉ names

theorem contentType_same {left right : HeaderMap} (h : SameFields names left right)
    (hkept : Kept names "content-type" left) : contentType left = contentType right := by
  have hfind : left.find? (fun field => eqIgnoreAsciiCase field.name "content-type") =
      right.find? fun field => eqIgnoreAsciiCase field.name "content-type" := by
    induction h with
    | nil => rfl
    | @cons a b left right hab _ ih =>
        rw [List.find?_cons, List.find?_cons, ← hab.1]
        split
        · rename_i hname
          rw [eqIgnoreAsciiCase, decide_eq_true_eq] at hname
          have hlower : toAsciiLowercase a.name = "content-type" := hname.trans (by decide)
          have hvalue := hab.2.resolve_left (by
            rw [hlower]
            exact hkept a List.mem_cons_self hlower)
          obtain ⟨name, value⟩ := a
          obtain ⟨name', value'⟩ := b
          obtain rfl : name = name' := hab.1
          obtain rfl : value = value' := hvalue
          rfl
        · exact ih fun field hfield => hkept field (List.mem_cons_of_mem _ hfield)
  rw [contentType, contentType, hfind]

theorem reconcileHeader_same {left right : HeaderEntry} (h : SameEntry names left right)
    (hkept : toAsciiLowercase left.name = "etag" → "etag" ∉ names) :
    reconcileHeader left = reconcileHeader right := by
  obtain ⟨name, value⟩ := left
  obtain ⟨name', value'⟩ := right
  obtain ⟨rfl, hvalue⟩ := h
  by_cases hetag : toAsciiLowercase name = "etag"
  · obtain rfl : value = value' := hvalue.resolve_left (by
      rw [hetag]
      exact hkept hetag)
    rfl
  · unfold reconcileHeader
    simp only [hetag, if_false]

/-- Headers whose ETags are not redacted are reconciled alike. -/
theorem reconciled_same {left right : List HeaderEntry} (h : SameEntries names left right)
    (hkept : ∀ entry ∈ left, toAsciiLowercase entry.name = "etag" → "etag" ∉ names)
    (newLen : Nat) (profile : String) :
    SameEntries names (reconcileHeadersAfterBodyRedaction left newLen profile).headers
        (reconcileHeadersAfterBodyRedaction right newLen profile).headers ∧
      (reconcileHeadersAfterBodyRedaction left newLen profile).markers =
        (reconcileHeadersAfterBodyRedaction right newLen profile).markers := by
  constructor
  · rw [reconcileHeadersAfterBodyRedaction, reconcileHeadersAfterBodyRedaction]
    apply List.rel_append
    · induction h with
      | nil => exact .nil
      | @cons a b left right hab _ ih =>
          have hverdict := reconcileHeader_same hab (hkept a List.mem_cons_self)
          have hrest := ih fun entry hentry => hkept entry (List.mem_cons_of_mem _ hentry)
          rw [List.filter_cons, List.filter_cons, ← hverdict]
          split
          · exact .cons hab hrest
          · exact hrest
    · exact .cons ⟨rfl, .inr rfl⟩ .nil
  · rw [reconcileHeadersAfterBodyRedaction, reconcileHeadersAfterBodyRedaction]
    induction h with
    | nil => rfl
    | @cons a b left right hab _ ih =>
        have hverdict := reconcileHeader_same hab (hkept a List.mem_cons_self)
        have hrest := ih fun entry hentry => hkept entry (List.mem_cons_of_mem _ hentry)
        dsimp only at hrest ⊢
        rw [List.filterMap_cons, List.filterMap_cons, hrest, ← hverdict]

/-- Whether a value had to be escaped is the same where no header is redacted, or where one
that is not has such a value. -/
def Annotated (names : Finset String) (fields : HeaderMap) : Prop :=
  Unnamed names fields ∨
    ∃ field ∈ fields, toAsciiLowercase field.name ∉ names ∧ toStr field.value = none

theorem SameFields.exists_kept {left right : HeaderMap} (h : SameFields names left right)
    {field : HeaderField} (hfield : field ∈ left) (hpublic : toAsciiLowercase field.name ∉ names) :
    field ∈ right := by
  induction h with
  | nil => cases hfield
  | @cons a b left right hab _ ih =>
      rcases List.mem_cons.mp hfield with rfl | hfield
      · have hvalue := hab.2.resolve_left hpublic
        obtain ⟨name, value⟩ := field
        obtain ⟨name', value'⟩ := b
        obtain rfl : name = name' := hab.1
        obtain rfl : value = value' := hvalue
        exact List.mem_cons_self
      · exact List.mem_cons_of_mem _ (ih hfield)

theorem lossy_same {left right : HeaderMap} (h : SameFields names left right)
    (hannotated : Annotated names left) : (headerEntries left).2 = (headerEntries right).2 := by
  rcases hannotated with hunnamed | ⟨field, hfield, hpublic, hlossy⟩
  · rw [h.eq_of_unnamed hunnamed]
  · have hlossy : (toStr field.value).isNone = true := Option.isNone_iff_eq_none.mpr hlossy
    have hleft : (headerEntries left).2 = true := List.any_eq_true.mpr ⟨field, hfield, hlossy⟩
    have hright : (headerEntries right).2 = true :=
      List.any_eq_true.mpr ⟨field, h.exists_kept hfield hpublic, hlossy⟩
    rw [hleft, hright]

/-! ### The redacted flow -/

/-- Outcomes that are redacted alike. -/
inductive SameOutcome (names : Finset String) : FlowOutcome → FlowOutcome → Prop
  | error (failure : FlowError) : SameOutcome names (.error failure) (.error failure)
  | response (status : Nat) (body : BodyRef) {headers headers' trailers trailers' : List HeaderEntry}
      (hheaders : SameEntries names headers headers')
      (htrailers : SameEntries names trailers trailers') :
      SameOutcome names (.response ⟨status, headers, body, trailers⟩)
        (.response ⟨status, headers', body, trailers'⟩)

theorem SameOutcome.redacted {left right : FlowOutcome} (h : SameOutcome names left right) :
    redactOutcome names left = redactOutcome names right := by
  cases h with
  | error failure => rfl
  | response status body hheaders htrailers =>
      simp only [redactOutcome, redactResponse, map_redactHeader_same hheaders,
        map_redactHeader_same htrailers]

theorem SameOutcome.markers {left right : FlowOutcome} (h : SameOutcome names left right)
    (profile : String) :
    outcomeMarkers names profile left = outcomeMarkers names profile right := by
  cases h with
  | error failure => rfl
  | response status body hheaders htrailers =>
      rw [outcomeMarkers, outcomeMarkers]
      dsimp only
      rw [headerMarkers_same hheaders, headerMarkers_same htrailers]

theorem SameOutcome.reconciled {left right : FlowOutcome} (h : SameOutcome names left right)
    (events : List StreamEvent) :
    reconcileStreamEventBodyLength events left = reconcileStreamEventBodyLength events right := by
  cases h with
  | error failure => rfl
  | response status body hheaders htrailers => rfl

/-! ### Two captures -/

/-- The trailers of a reply are public, and so are the headers that its transform reads. -/
structure ConcealsReply (config : RedactionConfig) (reply : Reply) : Prop where
  trailers : ∀ fields ∈ reply.frames.flatMap sentTrailers, Unnamed config.headers fields
  type : config.wantsBodyRedaction = true → replyBody reply ≠ [] →
    Kept config.headers "content-type" reply.headers
  etag : needsTransform config (contentType reply.headers) = true → replyBody reply ≠ [] →
    Kept config.headers "etag" reply.headers

/-- No redacted value is in a timeline, and none decides what is recorded. -/
structure Conceals (config : RedactionConfig) (maxBlobBytes : Nat) (exchange : Exchange) :
    Prop where
  trailers : ∀ fields ∈ takenTrailers maxBlobBytes .start exchange.polled,
    Unnamed config.headers fields
  annotated : Annotated config.headers exchange.headers
  type : config.wantsBodyRedaction = true →
    (takenBody maxBlobBytes pushStreamEventInner exchange).content ≠ [] →
    Kept config.headers "content-type" exchange.headers
  reply : ∀ reply, exchange.result = .ok reply → ConcealsReply config reply

section

variable {storage : Codec} {codec : BodyCodec N} {settings : Settings} {maxBlobBytes : Nat}

/-- The media type is read for a body that may be redacted. -/
theorem filedStaged_same {isResponse : Bool} {refusal : String} {left right : Option String}
    {content : Bytes}
    (h : settings.redaction.wantsBodyRedaction = true → content ≠ [] → left = right) :
    filedStaged storage codec settings maxBlobBytes isResponse refusal left content =
      filedStaged storage codec settings maxBlobBytes isResponse refusal right content := by
  rw [filedStaged, filedStaged]
  split
  · rfl
  · rename_i hcontent
    split
    · rfl
    · rename_i hwants
      rw [h ((Bool.not_eq_false _).mp hwants) hcontent]

theorem headerEntries_public {fields : HeaderMap} (h : Unnamed names fields)
    {entry : HeaderEntry} (hentry : entry ∈ (headerEntries fields).1) :
    toAsciiLowercase entry.name ∉ names := by
  obtain ⟨field, hfield, rfl⟩ := List.mem_map.mp hentry
  rw [headerEntry, toAsciiLowercase_idem]
  exact h field hfield

theorem SameEvents.eq_of_unnamed {left right : List StreamEvent} {blocks : List HeaderMap}
    (h : SameEvents names left right)
    (hblocks : trailersOf left = blocks.map fun fields => (headerEntries fields).1)
    (hunnamed : ∀ fields ∈ blocks, Unnamed names fields) : left = right := by
  apply h.eq
  intro entries hentries entry hentry
  rw [hblocks] at hentries
  obtain ⟨fields, hfields, rfl⟩ := List.mem_map.mp hentries
  exact headerEntries_public (hunnamed fields hfields) hentry

structure SameFiled (names : Finset String) (left right : FiledOutcome) : Prop where
  content : left.content = right.content
  outcome : SameOutcome names left.observed.outcome right.observed.outcome
  transportNote : left.observed.transportNote = right.observed.transportNote
  markers : left.observed.markers = right.observed.markers
  events : left.observed.events = right.observed.events

theorem observeResponse_same {left right : Reply} {received received' : Received} {body : BodyRef}
    {markers : List RedactionMarker} (h : SameReply names left right)
    (hreceived : SameReceived names received received') (hevents : received.events = received'.events)
    (hetag : markers ≠ [] → Kept names "etag" left.headers) (content : Bytes) :
    SameFiled names ⟨content, received.observe left settings body markers⟩
      ⟨content, received'.observe right settings body markers⟩ := by
  have hheaders := sameEntries h.headers
  by_cases hmarkers : markers = []
  · refine ⟨rfl, ?_, ?_, ?_, hevents⟩
    · simp only [Received.observe, observeResponse, if_pos hmarkers, h.status]
      exact .response _ _ hheaders hreceived.trailers
    · simp only [Received.observe, observeResponse, h.http2]
    · simp only [Received.observe, observeResponse, if_pos hmarkers]
  · have hkept : ∀ entry ∈ (headerEntries left.headers).1,
        toAsciiLowercase entry.name = "etag" → "etag" ∉ names := by
      intro entry hentry hname
      obtain ⟨field, hfield, rfl⟩ := List.mem_map.mp hentry
      rw [headerEntry, toAsciiLowercase_idem] at hname
      exact hetag hmarkers field hfield hname
    have hreconciled := reconciled_same hheaders hkept (body.len.getD 0) settings.profileId
    refine ⟨rfl, ?_, ?_, ?_, hevents⟩
    · simp only [Received.observe, observeResponse, if_neg hmarkers, h.status]
      exact .response _ _ hreconciled.1 hreceived.trailers
    · simp only [Received.observe, observeResponse, h.http2]
    · simp only [Received.observe, observeResponse, if_neg hmarkers, hreconciled.2]

theorem filedOutcome_same {left right : Exchange}
    (h : SameResult settings.redaction.headers left.result right.result)
    (hreply : ∀ reply, left.result = .ok reply → ConcealsReply settings.redaction reply) :
    Alike (SameFiled settings.redaction.headers)
      (filedOutcome storage codec settings maxBlobBytes left)
      (filedOutcome storage codec settings maxBlobBytes right) := by
  rw [filedOutcome, filedOutcome]
  generalize left.result = answer at h hreply ⊢
  generalize right.result = answer' at h ⊢
  cases h with
  | error failure => exact .ok ⟨rfl, .error failure, rfl, rfl, rfl⟩
  | @ok left right h =>
      have hconceals := hreply left rfl
      refine (receivedBody_same h).bind_of_ok ?_
      intro received received' hleft hright hreceived
      have hcontent := (GatewayTransparency.receivedBody_eq_ok hleft).1
      have hevents := hreceived.events.eq_of_unnamed (trailersOf_receivedBody hleft)
        hconceals.trailers
      have hstored : filedResponse storage codec settings maxBlobBytes (contentType left.headers)
            received.content =
          filedResponse storage codec settings maxBlobBytes (contentType right.headers)
            received'.content := by
        rw [← hreceived.content]
        apply filedStaged_same
        intro hwants hsome
        rw [hcontent] at hsome
        exact contentType_same h.headers (hconceals.type hwants hsome)
      rw [← hstored]
      refine (alike_refl (fun _ => rfl) _).bind_of_ok ?_
      rintro stored _ hfiled - rfl
      apply Alike.ok
      apply observeResponse_same h hreceived hevents
      intro hmarkers
      have htransform := RecordMarkers.transformBody_eq_ok (filedStaged_eq_ok hfiled).1
      rw [hcontent] at htransform
      obtain ⟨hsome, hneeds⟩ := (GatewayTransparency.transform_markers htransform).2 hmarkers
      exact hconceals.etag hneeds hsome

structure SameHead (config : RedactionConfig) (left right : RecordedRequest) : Prop where
  method : left.request.method = right.request.method
  scheme : left.request.scheme = right.request.scheme
  authority : left.request.authority = right.request.authority
  path : left.request.path = right.request.path
  query : List.Forall₂ (SamePair config) left.request.query right.request.query
  headers : SameEntries config.headers left.request.headers right.request.headers
  lossy : left.lossyHeaderValues = right.lossyHeaderValues

variable {left right : Exchange}

theorem requestHead_same (h : SameExchange codec settings.redaction left right)
    (hannotated : Annotated settings.redaction.headers left.headers) :
    Alike (SameHead settings.redaction)
      (requestHead codec left.method left.uri left.headers)
      (requestHead codec right.method right.uri right.headers) := by
  rw [requestHead, requestHead, ← h.scheme, ← h.authority]
  refine (alike_refl (fun _ => rfl) _).bind ?_
  rintro scheme _ rfl
  refine (alike_refl (fun _ => rfl) _).bind ?_
  rintro authority _ rfl
  exact .ok ⟨h.method, rfl, rfl, h.path, h.query, sameEntries h.headers,
    lossy_same h.headers hannotated⟩

theorem capturedFlow_same {converted converted' : RecordedRequest} {taken taken' : Taken}
    {stored : Filed} {answer answer' : FiledOutcome}
    (h : SameExchange codec settings.redaction left right)
    (hhead : SameHead settings.redaction converted converted')
    (htaken : SameTaken settings.redaction.headers taken taken')
    (hanswer : SameFiled settings.redaction.headers answer answer') :
    capturedFlow settings left converted.request taken stored answer.observed =
      capturedFlow settings right converted'.request taken' stored answer'.observed := by
  simp only [capturedFlow, observedFlow, redactFlow, h.startedAtMs, h.completedAtMs, h.uuid,
    h.physicalRoute, hanswer.transportNote, hhead.method, hhead.scheme, hhead.authority,
    hhead.path, hanswer.outcome.redacted, hanswer.outcome.markers,
    map_redactHeader_same hhead.headers, map_redactHeader_same htaken.trailers,
    redactPairs_same hhead.query, headerMarkers_same hhead.headers,
    headerMarkers_same htaken.trailers, queryMarkers_same hhead.query]

/-- What is captured of a transaction that conceals its redacted values does not depend on
them. -/
theorem captured_same (h : SameExchange codec settings.redaction left right)
    (hconceals : Conceals settings.redaction maxBlobBytes left) :
    captured storage pushStreamEventInner codec settings maxBlobBytes left =
      captured storage pushStreamEventInner codec settings maxBlobBytes right := by
  apply Alike.eq
  rw [captured, captured]
  refine (requestHead_same h hconceals.annotated).bind ?_
  intro converted converted' hhead
  have htaken : SameTaken settings.redaction.headers
      (takenBody maxBlobBytes pushStreamEventInner left)
      (takenBody maxBlobBytes pushStreamEventInner right) := takenBody_same h.polled h.requestEnd
  have hevents := htaken.events.eq_of_unnamed (trailersOf_takenBody maxBlobBytes left)
    hconceals.trailers
  have hstored : filedRequest storage codec settings maxBlobBytes (contentType left.headers)
        (takenBody maxBlobBytes pushStreamEventInner left).content =
      filedRequest storage codec settings maxBlobBytes (contentType right.headers)
        (takenBody maxBlobBytes pushStreamEventInner right).content := by
    rw [← htaken.content]
    apply filedStaged_same
    intro hwants hsome
    exact contentType_same h.headers (hconceals.type hwants hsome)
  rw [capturedTaken, capturedTaken, ← hstored]
  refine (alike_refl (fun _ => rfl) _).bind ?_
  rintro stored _ rfl
  refine (filedOutcome_same h.result hconceals.reply).bind ?_
  intro answer answer' hanswer
  apply Alike.ok
  rw [capturedFlow_same h hhead htaken hanswer, hanswer.content, hanswer.markers, hhead.lossy,
    hevents, hanswer.events, hanswer.outcome.reconciled]

end

end EggReplay.Http.ConcealedFields
