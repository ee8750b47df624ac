import EggReplay.Http.Atomicity
import EggReplay.Http.ConcealedFields

/-!
Whether what is published of a transaction depends on the values of redacted fields: it does
not exactly where those values are in no timeline and decide nothing.
-/

namespace EggReplay.Http.FieldSecrecy

open EggReplay.Library.Checks
open EggReplay.Library.Text
open EggReplay.Library.TwoRuns
open EggReplay.Core.FlowRecord
open EggReplay.Core.StreamTimeline
open EggReplay.Core.Redaction
open EggReplay.Core.Matching
open EggReplay.Core.BodyWildcards
open EggReplay.Core.FieldWildcards
open EggReplay.Core.ScenarioSecrecy
open EggReplay.Store.Fixture
open EggReplay.Store.Recording
open EggReplay.Store.BlobContents
open EggReplay.Http.Transaction
open EggReplay.Http.StreamEventCapture
open EggReplay.Http.Recorder
open EggReplay.Http.Captures
open EggReplay.Http.RecordMarkers
open EggReplay.Http.Atomicity
open EggReplay.Http.GatewayAnswers
open EggReplay.Http.ConcealedFields

variable {N : Type}

/-! ### Publication -/

/-- The flow and the timeline that a call on the session publishes, where it succeeds. -/
def published (storage : Codec) (codec : BodyCodec N) (settings : Settings)
    (inner : RecordingInner) (exchange : Exchange) : Option (Flow × FlowStreamEvents) :=
  match recordRequestWithSession storage codec settings exchange inner with
  | (.ok flow, next) => next.streamEvents.flows.getLast?.map fun events => (flow, events)
  | (.error _, _) => none

/-- The session takes the flow, and its timeline after it. -/
def CanPublish (inner : RecordingInner) (record : Flow × FlowStreamEvents) : Prop :=
  ∃ flowed, inner.appendFlow record.1 = .ok flowed ∧
    ∃ next, flowed.appendStreamEvents record.2 = .ok next

theorem appendStreamEvents_logged_iff (inner : RecordingInner) (flow : Flow)
    (events : FlowStreamEvents) :
    (∃ next, (logged inner flow).appendStreamEvents events = .ok next) ↔
      inner.shutdown = false ∧
        (StreamEvents.mk streamEventsSchemaVersion [events]).validate = .ok () ∧
        Room inner events := by
  have hroom : Room (logged inner flow) events ↔ Room inner events :=
    @room_congr (logged inner flow) inner rfl rfl rfl rfl events
  simp only [appendStreamEvents_eq_ok, hroom]
  constructor
  · rintro ⟨next, hrunning, hvalid, hfits, -⟩
    exact ⟨hrunning, hvalid, hfits⟩
  · rintro ⟨hrunning, hvalid, hfits⟩
    exact ⟨_, hrunning, hvalid, hfits, rfl⟩

theorem canPublish_iff (inner : RecordingInner) (record : Flow × FlowStreamEvents) :
    CanPublish inner record ↔
      (∃ flowed, inner.appendFlow record.1 = .ok flowed) ∧ inner.shutdown = false ∧
        (StreamEvents.mk streamEventsSchemaVersion [record.2]).validate = .ok () ∧
        Room inner record.2 := by
  rw [← appendStreamEvents_logged_iff inner record.1]
  constructor
  · rintro ⟨flowed, hflow, hevents⟩
    refine ⟨⟨flowed, hflow⟩, ?_⟩
    rwa [(appendFlow_eq_ok.mp hflow).2.2.2.2.2.2]
  · rintro ⟨⟨flowed, hflow⟩, hevents⟩
    refine ⟨flowed, hflow, ?_⟩
    rwa [← (appendFlow_eq_ok.mp hflow).2.2.2.2.2.2]

/-- Bodies that are in the store already make no difference. -/
theorem canPublish_same {inner other : RecordingInner} (h : SameSession inner other)
    (record : Flow × FlowStreamEvents) : CanPublish inner record ↔ CanPublish other record := by
  rw [canPublish_iff, canPublish_iff, h.appendFlow, h.shutdown,
    room_congr h.streamEventIds h.streamEvents h.streamEventRecords h.streamEventObjectBytes]

section

variable {storage : Codec} {codec : BodyCodec N} {settings : Settings} {inner : RecordingInner}
  {exchange : Exchange}

/-- What is published is what was captured. -/
theorem published_eq_some {record : Flow × FlowStreamEvents} :
    published storage codec settings inner exchange = some record ↔
      inner.shutdown = false ∧ ∃ done,
        captured storage pushStreamEventInner codec settings inner.limits.maxBlobBytes exchange =
          .ok done ∧
        record = (finishSessionFlow done.capture settings.profileId,
          sessionEvents exchange done.capture) ∧ CanPublish inner record := by
  by_cases hrunning : inner.shutdown = false
  · rw [published]
    rcases recordRequestWithSession_run storage codec settings exchange hrunning with
      ⟨error, failed, hcaptured, hrun, -⟩ | ⟨done, captureState, hcaptured, hrun, hview, -⟩
    · rw [hrun]
      refine iff_of_false (Option.some_ne_none _).symm ?_
      rintro ⟨-, done, hdone, -⟩
      cases hcaptured.symm.trans hdone
    · have hsame := sameSession_of_records hview
      have hpublish := canPublish_same hsame (finishSessionFlow done.capture settings.profileId,
        sessionEvents exchange done.capture)
      rw [hrun]
      constructor
      · intro h
        split at h
        · rename_i flow next hresult
          obtain ⟨rfl, flowed, hflow, hevents⟩ := publishRecord_eq_ok hresult
          rw [sessionStore_appendFlow_eq_ok] at hflow
          rw [sessionStore_appendStreamEvents_eq_ok] at hevents
          have hlast : next.streamEvents.flows.getLast? =
              some (sessionEvents exchange done.capture) := by
            rw [← (appendStreamEvents_eq_ok.mp hevents).2.2.2]
            exact List.getLast?_concat
          rw [hlast] at h
          obtain rfl := Option.some.inj h
          exact ⟨hrunning, done, hcaptured, rfl, hpublish.mp ⟨flowed, hflow, next, hevents⟩⟩
        · cases h
      · rintro ⟨-, done', hdone, rfl, hcan⟩
        obtain rfl := Except.ok.inj (hcaptured.symm.trans hdone)
        obtain ⟨flowed, hflow, next, hevents⟩ := hpublish.mpr hcan
        rw [publishRecord_of_ok (sessionStore_appendFlow_eq_ok.mpr hflow)
          (sessionStore_appendStreamEvents_eq_ok.mpr hevents)]
        dsimp only
        rw [← (appendStreamEvents_eq_ok.mp hevents).2.2.2]
        show Option.map _ (List.getLast? (_ ++ [_])) = _
        rw [List.getLast?_concat]
        rfl
  · obtain ⟨error, hrejected⟩ := recordRequestWithSession_of_shutdown hrunning
    rw [published, hrejected]
    exact iff_of_false (Option.some_ne_none _).symm fun h => hrunning h.1

/-- A call succeeds exactly where it publishes. -/
theorem published_isSome_iff :
    (published storage codec settings inner exchange).isSome = true ↔
      ∃ flow next, recordRequestWithSession storage codec settings exchange inner =
        (.ok flow, next) := by
  constructor
  · intro h
    rw [published] at h
    split at h
    · rename_i flow next hrun
      exact ⟨flow, next, hrun⟩
    · cases h
  · rintro ⟨flow, next, hrun⟩
    obtain ⟨done, captureState, flowed, -, -, -, -, -, hevents⟩ :=
      recordRequestWithSession_eq_ok hrun
    rw [published, hrun]
    dsimp only
    rw [← (appendStreamEvents_eq_ok.mp hevents).2.2.2]
    show (Option.map _ (List.getLast? (_ ++ [_]))).isSome = true
    rw [List.getLast?_concat]
    rfl

/-- Equal captures are published alike. -/
theorem published_same {left right : Exchange} (hstart : left.startOffsetNs = right.startOffsetNs)
    (h : captured storage pushStreamEventInner codec settings inner.limits.maxBlobBytes left =
      captured storage pushStreamEventInner codec settings inner.limits.maxBlobBytes right) :
    published storage codec settings inner left = published storage codec settings inner right := by
  apply Option.ext
  intro record
  rw [published_eq_some, published_eq_some, h]
  simp only [sessionEvents, hstart]

end

/-! ### Replacing the redacted values -/

def replaceValue (names : Finset String) (value : Bytes) (field : HeaderField) : HeaderField :=
  if toAsciiLowercase field.name ∈ names then { field with value := value } else field

def replaceFields (names : Finset String) (value : Bytes) (fields : HeaderMap) : HeaderMap :=
  fields.map (replaceValue names value)

def replaceContent (names : Finset String) (value : Bytes) : Frame → Frame
  | .data bytes => .data bytes
  | .trailers fields => .trailers (replaceFields names value fields)

def replaceFrame (names : Finset String) (value : Bytes) (frame : TimedFrame) : TimedFrame :=
  { frame with content := replaceContent names value frame.content }

def replaceReply (names : Finset String) (value : Bytes) (reply : Reply) : Reply :=
  { reply with
    headers := replaceFields names value reply.headers
    frames := reply.frames.map (replaceFrame names value) }

/-- One value in place of every redacted header and trailer. -/
def replaced (names : Finset String) (value : Bytes) (exchange : Exchange) : Exchange :=
  { exchange with
    headers := replaceFields names value exchange.headers
    polled := exchange.polled.map (replaceFrame names value)
    result := exchange.result.map (replaceReply names value) }

section

variable (names : Finset String) (value : Bytes)

@[simp] theorem replaceValue_name (field : HeaderField) :
    (replaceValue names value field).name = field.name := by
  rw [replaceValue]
  split
  · rfl
  · rfl

theorem sameFields_replace (fields : HeaderMap) :
    SameFields names fields (replaceFields names value fields) := by
  rw [replaceFields]
  apply List.forall₂_map_right_iff.mpr
  apply List.forall₂_same.mpr
  intro field _
  refine ⟨(replaceValue_name names value field).symm, ?_⟩
  by_cases hname : toAsciiLowercase field.name ∈ names
  · exact .inl hname
  · right
    rw [replaceValue, if_neg hname]

example : replaceFields {"cookie"} [] [⟨"Cookie", [97]⟩, ⟨"accept", [97]⟩] =
    [⟨"Cookie", []⟩, ⟨"accept", [97]⟩] := by decide

theorem sameFrames_replace (frames : List TimedFrame) :
    List.Forall₂ (SameFrame names) frames (frames.map (replaceFrame names value)) := by
  apply List.forall₂_map_right_iff.mpr
  apply List.forall₂_same.mpr
  rintro ⟨deltaNs, bytes | fields⟩ _
  · exact ⟨rfl, .data bytes⟩
  · exact ⟨rfl, .trailers (sameFields_replace names value fields)⟩

theorem sameReply_replace (reply : Reply) : SameReply names reply (replaceReply names value reply) :=
  ⟨rfl, rfl, sameFields_replace names value reply.headers,
    sameFrames_replace names value reply.frames, rfl⟩

end

theorem sameExchange_replaced (codec : BodyCodec N) (config : RedactionConfig) (value : Bytes)
    (exchange : Exchange) :
    SameExchange codec config exchange (replaced config.headers value exchange) where
  method := rfl
  scheme := rfl
  authority := rfl
  path := rfl
  query := List.forall₂_same.mpr fun _ _ => ⟨rfl, .inr rfl⟩
  headers := sameFields_replace config.headers value exchange.headers
  polled := sameFrames_replace config.headers value exchange.polled
  requestEnd := rfl
  result := by
    show SameResult config.headers exchange.result (exchange.result.map _)
    cases exchange.result with
    | error failure => exact .error failure
    | ok reply => exact .ok (sameReply_replace config.headers value reply)
  uuid := rfl
  startedAtMs := rfl
  completedAtMs := rfl
  startOffsetNs := rfl
  endOffsetNs := rfl
  physicalRoute := rfl

/-! ### What depends on the values -/

/-- What is published is the same whatever the redacted values are. -/
def Independent (storage : Codec) (codec : BodyCodec N) (settings : Settings)
    (inner : RecordingInner) (exchange : Exchange) : Prop :=
  ∀ other, SameExchange codec settings.redaction exchange other →
    published storage codec settings inner other = published storage codec settings inner exchange

/-- A record of the transaction with the value in place of the redacted ones. -/
structure RecordOf (storage : Codec) (codec : BodyCodec N) (settings : Settings)
    (maxBlobBytes : Nat) (exchange : Exchange) (record : Flow × FlowStreamEvents)
    (done : Captured) (converted : RecordedRequest) (stored : Filed) (answer : FiledOutcome) :
    Prop where
  parts : CapturedFrom storage pushStreamEventInner codec settings maxBlobBytes exchange done
    converted stored answer
  flow : record.1 = finishSessionFlow done.capture settings.profileId
  request : record.2.request = done.capture.requestEvents
  response : record.2.response = done.capture.responseEvents

section

variable {storage : Codec} {codec : BodyCodec N} {settings : Settings} {inner : RecordingInner}
  {exchange : Exchange} {record : Flow × FlowStreamEvents}

theorem Independent.recordOf (h : Independent storage codec settings inner exchange)
    (hrecord : published storage codec settings inner exchange = some record) (value : Bytes) :
    ∃ done converted stored answer, RecordOf storage codec settings inner.limits.maxBlobBytes
      (replaced settings.redaction.headers value exchange) record done converted stored answer := by
  have hreplaced := h _ (sameExchange_replaced codec settings.redaction value exchange)
  rw [hrecord, published_eq_some] at hreplaced
  obtain ⟨-, done, hdone, rfl, -⟩ := hreplaced
  obtain ⟨converted, stored, answer, parts⟩ := captured_eq_ok hdone
  exact ⟨done, converted, stored, answer, parts, rfl, rfl, rfl⟩

/-! ### Trailers in the timelines -/

theorem takenTrailers_replaced {names : Finset String} {maxBlobBytes : Nat} {taken taken' : Taken}
    (h : SameTaken names taken taken') (value : Bytes) (frames : List TimedFrame) :
    takenTrailers maxBlobBytes taken' (frames.map (replaceFrame names value)) =
      (takenTrailers maxBlobBytes taken frames).map (replaceFields names value) := by
  induction frames generalizing taken taken' with
  | nil => rfl
  | cons frame rest ih =>
      have hframe := (List.forall₂_cons.mp (sameFrames_replace names value [frame])).1
      rw [List.map_cons, takenTrailers, takenTrailers, List.map_append, ih (h.frame hframe)]
      congr 1
      obtain ⟨deltaNs, bytes | fields⟩ := frame
      · rfl
      · simp only [pushedTrailers, replaceFrame, replaceContent]
        rw [← h.given, ← h.events.length_eq]
        split
        · rfl
        · rfl

theorem sentTrailers_replaced (names : Finset String) (value : Bytes) (frames : List TimedFrame) :
    (frames.map (replaceFrame names value)).flatMap sentTrailers =
      (frames.flatMap sentTrailers).map (replaceFields names value) := by
  induction frames with
  | nil => rfl
  | cons frame rest ih =>
      rw [List.map_cons, List.flatMap_cons, List.flatMap_cons, List.map_append, ih]
      congr 1
      obtain ⟨deltaNs, bytes | fields⟩ := frame
      · rfl
      · rfl

/-- Trailers that are written alike for two values have no redacted field. -/
theorem unnamed_of_entries {names : Finset String} {left right : Bytes}
    {blocks : List HeaderMap} (hvalues : headerEntry ⟨"", left⟩ ≠ headerEntry ⟨"", right⟩)
    (h : (blocks.map (replaceFields names left)).map (fun fields => (headerEntries fields).1) =
      (blocks.map (replaceFields names right)).map fun fields => (headerEntries fields).1) :
    ∀ fields ∈ blocks, Unnamed names fields := by
  intro fields hfields field hfield hname
  rw [List.map_map, List.map_map] at h
  have hentries := List.map_inj_left.mp h fields hfields
  simp only [Function.comp_apply, headerEntries, replaceFields, List.map_map] at hentries
  have hentry := List.map_inj_left.mp hentries field hfield
  simp only [Function.comp_apply, replaceValue, if_pos hname, headerEntry,
    HeaderEntry.mk.injEq] at hentry
  apply hvalues
  simp only [headerEntry, hentry.2]

theorem letters_differ : headerEntry ⟨"", [65]⟩ ≠ headerEntry ⟨"", [66]⟩ := by
  decide

/-- The timeline of the request shows the redacted values of its trailers. -/
theorem Independent.requestTrailers (h : Independent storage codec settings inner exchange)
    (hrecord : published storage codec settings inner exchange = some record) :
    ∀ fields ∈ takenTrailers inner.limits.maxBlobBytes .start exchange.polled,
      Unnamed settings.redaction.headers fields := by
  have htrailers : ∀ value, trailersOf record.2.request =
      ((takenTrailers inner.limits.maxBlobBytes .start exchange.polled).map
        (replaceFields settings.redaction.headers value)).map
          fun fields => (headerEntries fields).1 := by
    intro value
    obtain ⟨done, converted, stored, answer, hparts⟩ := h.recordOf hrecord value
    rw [hparts.request, hparts.parts.requestEvents, trailersOf_takenBody]
    exact congrArg _ (takenTrailers_replaced sameTaken_start value exchange.polled)
  exact unnamed_of_entries letters_differ ((htrailers [65]).symm.trans (htrailers [66]))

/-- So does the timeline of the response. -/
theorem Independent.replyTrailers (h : Independent storage codec settings inner exchange)
    (hrecord : published storage codec settings inner exchange = some record) {reply : Reply}
    (hresult : exchange.result = .ok reply) :
    ∀ fields ∈ reply.frames.flatMap sentTrailers, Unnamed settings.redaction.headers fields := by
  have htrailers : ∀ value, trailersOf record.2.response =
      ((reply.frames.flatMap sentTrailers).map
        (replaceFields settings.redaction.headers value)).map
          fun fields => (headerEntries fields).1 := by
    intro value
    obtain ⟨done, converted, stored, answer, hparts⟩ := h.recordOf hrecord value
    have houtcome := hparts.parts.outcome
    have hreplaced : (replaced settings.redaction.headers value exchange).result =
        .ok (replaceReply settings.redaction.headers value reply) := by
      show exchange.result.map _ = _
      rw [hresult]
      rfl
    rw [filedOutcome, hreplaced] at houtcome
    simp only [bind_eq_ok, pure_eq_ok] at houtcome
    obtain ⟨received, hreceived, filing, -, rfl⟩ := houtcome
    rw [hparts.response, hparts.parts.responseEvents, trailersOf_reconcile]
    exact (trailersOf_receivedBody hreceived).trans
      (congrArg _ (sentTrailers_replaced settings.redaction.headers value reply.frames))
  exact unnamed_of_entries letters_differ ((htrailers [65]).symm.trans (htrailers [66]))

/-! ### The note on escaped values -/

def escapedNote : String × String := ("conversion", "opaque-header-values-escaped")

theorem escapedNote_not_mem_transport {maxBlobBytes : Nat} {answer : FiledOutcome}
    (h : filedOutcome storage codec settings maxBlobBytes exchange = .ok answer) :
    escapedNote ∉ answer.observed.transportNote.toList := by
  rw [filedOutcome] at h
  rcases hresult : exchange.result with failure | reply
  · rw [hresult] at h
    cases h
    exact List.not_mem_nil
  · rw [hresult] at h
    simp only [bind_eq_ok, pure_eq_ok] at h
    obtain ⟨received, -, filing, -, rfl⟩ := h
    simp only [Received.observe, observeResponse, negotiatedVersionAnnotation]
    split
    · decide
    · decide

theorem escapedNote_not_mem_reconciled (headers : List HeaderEntry) (newLen : Nat)
    (profile : String) :
    escapedNote ∉ (reconcileHeadersAfterBodyRedaction headers newLen profile).annotations := by
  intro hnote
  obtain ⟨header, -, hheader⟩ := List.mem_filterMap.mp hnote
  split at hheader
  · have hdiffer : ("redaction", "weak-etag-preserved-after-redaction") ≠ escapedNote := by decide
    exact hdiffer (Option.some.inj hheader)
  · cases hheader

/-- A flow is annotated exactly where a header value of the request had to be escaped. -/
theorem escapedNote_mem_iff {maxBlobBytes : Nat} {done : Captured} {converted : RecordedRequest}
    {stored : Filed} {answer : FiledOutcome}
    (parts : CapturedFrom storage pushStreamEventInner codec settings maxBlobBytes exchange done
      converted stored answer) :
    escapedNote ∈ (finishSessionFlow done.capture settings.profileId).annotations ↔
      (headerEntries exchange.headers).2 = true := by
  obtain ⟨scheme, authority, -, -, rfl⟩ := requestHead_eq_ok parts.head
  rw [← show done.capture.lossyHeaderValues = (headerEntries exchange.headers).2 from parts.lossy]
  have hflow : escapedNote ∉ done.capture.flow.annotations := by
    rw [parts.flow]
    exact escapedNote_not_mem_transport parts.outcome
  have hreconciled : escapedNote ∉ (reconcileRequest
      { done.capture.flow with redactions := recordMarkers done.capture }
      settings.profileId).annotations := by
    rw [reconcileRequest, List.mem_append]
    rintro (hnote | hnote)
    · exact hflow hnote
    · exact escapedNote_not_mem_reconciled _ _ _ hnote
  rw [finishSessionFlow, noteLossyHeaders]
  cases done.capture.lossyHeaderValues with
  | true =>
      rw [if_pos rfl]
      exact iff_of_true (List.mem_append_right _ List.mem_cons_self) rfl
  | false =>
      rw [if_neg Bool.false_ne_true]
      refine iff_of_false ?_ Bool.false_ne_true
      split
      · exact hreconciled
      · exact hflow

theorem visible_letter : (toStr [65]).isNone = false := by
  decide

theorem escaped_octet : (toStr [200]).isNone = true := by
  decide

/-- The note is on the flow for some values and not for others, unless a public value brings
it. -/
theorem Independent.annotated (h : Independent storage codec settings inner exchange)
    (hrecord : published storage codec settings inner exchange = some record) :
    Annotated settings.redaction.headers exchange.headers := by
  have hnote : ∀ value, escapedNote ∈ record.1.annotations ↔
      (headerEntries (replaceFields settings.redaction.headers value exchange.headers)).2 =
        true := by
    intro value
    obtain ⟨done, converted, stored, answer, hparts⟩ := h.recordOf hrecord value
    rw [hparts.flow]
    exact escapedNote_mem_iff hparts.parts
  have hagree := (hnote [65]).symm.trans (hnote [200])
  by_contra hannotated
  rw [Annotated, not_or, Unnamed] at hannotated
  push Not at hannotated
  obtain ⟨⟨field, hfield, hname⟩, hpublic⟩ := hannotated
  have hescaped : (headerEntries (replaceFields settings.redaction.headers [200]
      exchange.headers)).2 = true := by
    refine List.any_eq_true.mpr ⟨_, List.mem_map_of_mem hfield, ?_⟩
    rw [replaceValue, if_pos hname]
    exact escaped_octet
  obtain ⟨other, hother, hlossy⟩ := List.any_eq_true.mp (hagree.mpr hescaped)
  obtain ⟨original, horiginal, rfl⟩ := List.mem_map.mp hother
  by_cases horiginalName : toAsciiLowercase original.name ∈ settings.redaction.headers
  · rw [replaceValue, if_pos horiginalName] at hlossy
    exact Bool.false_ne_true (visible_letter.symm.trans hlossy)
  · rw [replaceValue, if_neg horiginalName] at hlossy
    exact hpublic original horiginal horiginalName (Option.isNone_iff_eq_none.mp hlossy)

/-! ### The media type -/

def formType : Bytes := utf8 "application/x-www-form-urlencoded".toList

def textType : Bytes := utf8 "text/plain".toList

/-- The media type that a value of the header is read as. -/
def mediaType (value : Bytes) : Option String :=
  (toStr value).map fun value => toAsciiLowercase (trim ((split value ';').headD value))

theorem formType_isForm : isFormContentType (mediaType formType) = true := by
  decide

theorem formType_isJson : isJsonContentType (mediaType formType) = false := by
  decide

theorem textType_isForm : isFormContentType (mediaType textType) = false := by
  decide

theorem textType_isJson : isJsonContentType (mediaType textType) = false := by
  decide

theorem contentType_replaced {names : Finset String} (value : Bytes) {fields : HeaderMap}
    {field : HeaderField} (hfield : field ∈ fields)
    (hname : toAsciiLowercase field.name = "content-type") (hredacted : "content-type" ∈ names) :
    contentType (replaceFields names value fields) = mediaType value := by
  have hlower : toAsciiLowercase "content-type" = "content-type" := by decide
  rw [contentType, replaceFields, List.find?_map]
  rcases hfind : fields.find? ((fun field => eqIgnoreAsciiCase field.name "content-type") ∘
    replaceValue names value) with _ | found
  · have hnone := List.find?_eq_none.mp hfind field hfield
    rw [Function.comp_apply, replaceValue_name, eqIgnoreAsciiCase, decide_eq_true_eq, hlower]
      at hnone
    exact absurd hname hnone
  · have hfound := List.find?_some hfind
    rw [Function.comp_apply, replaceValue_name, eqIgnoreAsciiCase, decide_eq_true_eq, hlower]
      at hfound
    have hmember : toAsciiLowercase found.name ∈ names := by rwa [hfound]
    rw [hfind, Option.map_some, replaceValue, if_pos hmember]
    rfl

/-- A body that is read as a form leaves markers, and one that is read as text none. -/
theorem mediaType_shows {isResponse : Bool} {refusal : String} {maxBlobBytes : Nat}
    {content : Bytes} {form text : Filed} (hwants : settings.redaction.wantsBodyRedaction = true)
    (hcontent : content ≠ [])
    (hform : filedStaged storage codec settings maxBlobBytes isResponse refusal
      (mediaType formType) content = .ok form)
    (htext : filedStaged storage codec settings maxBlobBytes isResponse refusal
      (mediaType textType) content = .ok text) :
    markedFields ((if isResponse = true then "response." else "request.") ++ "body.form:")
        form.markers ≠
      markedFields ((if isResponse = true then "response." else "request.") ++ "body.form:")
        text.markers := by
  have hneeds : needsTransform settings.redaction (mediaType textType) = false := by
    rw [needsTransform, textType_isForm, textType_isJson, Bool.and_false, Bool.and_false]
    rfl
  have hpaths : settings.redaction.jsonPaths = ∅ := by
    by_contra hpaths
    rw [filedStaged, if_neg hcontent, if_neg (by rw [hwants]; decide),
      if_pos hneeds, if_pos hpaths] at htext
    cases htext
  have hkeys : settings.redaction.queryKeys ≠ ∅ := by
    intro hkeys
    rw [RedactionConfig.wantsBodyRedaction, hpaths, hkeys] at hwants
    exact Bool.false_ne_true hwants
  have hplain : text.markers = [] := by
    have htransform := transformBody_eq_ok (filedStaged_eq_ok htext).1
    generalize text.markers = markers at htransform ⊢
    cases htransform with
    | kept _ => rfl
    | json _ _ htype _ => exact absurd (textType_isJson.symm.trans htype) Bool.false_ne_true
    | form _ _ htype _ => exact absurd (textType_isForm.symm.trans htype) Bool.false_ne_true
  have hmarked : form.markers =
      formMarkers settings.redaction.queryKeys settings.profileId isResponse := by
    have htransform := transformBody_eq_ok (filedStaged_eq_ok hform).1
    generalize form.markers = markers at htransform ⊢
    cases htransform with
    | kept hkept =>
        rcases hkept with hempty | hkept
        · exact absurd hempty hcontent
        · rw [needsTransform_iff.mpr (.inr ⟨hkeys, formType_isForm⟩)] at hkept
          exact absurd hkept.symm Bool.false_ne_true
    | json _ _ htype _ => exact absurd (formType_isJson.symm.trans htype) Bool.false_ne_true
    | form _ _ _ _ => rfl
  rw [hplain, hmarked, markedFields_formMarkers_lead]
  exact sort_ne_nil hkeys

theorem Independent.requestFiled (h : Independent storage codec settings inner exchange)
    (hrecord : published storage codec settings inner exchange = some record) (value : Bytes) :
    ∃ stored, filedRequest storage codec settings inner.limits.maxBlobBytes
        (contentType (replaceFields settings.redaction.headers value exchange.headers))
        (takenBody inner.limits.maxBlobBytes pushStreamEventInner exchange).content = .ok stored ∧
      markedFields ("request." ++ "body.form:") stored.markers =
        markedFields ("request." ++ "body.form:") record.1.redactions := by
  obtain ⟨done, converted, stored, answer, hparts⟩ := h.recordOf hrecord value
  have htaken : SameTaken settings.redaction.headers
      (takenBody inner.limits.maxBlobBytes pushStreamEventInner exchange)
      (takenBody inner.limits.maxBlobBytes pushStreamEventInner
        (replaced settings.redaction.headers value exchange)) :=
    takenBody_same (sameFrames_replace settings.redaction.headers value exchange.polled) rfl
  refine ⟨stored, ?_, ?_⟩
  · rw [htaken.content]
    exact hparts.parts.request
  · rw [hparts.flow, markedFields_finish (by decide)]
    exact (recordMarkers_bodyForm hparts.parts).symm

/-- The type of a body that may be redacted decides what is recorded of it. -/
theorem Independent.requestType (h : Independent storage codec settings inner exchange)
    (hrecord : published storage codec settings inner exchange = some record)
    (hwants : settings.redaction.wantsBodyRedaction = true)
    (hcontent :
      (takenBody inner.limits.maxBlobBytes pushStreamEventInner exchange).content ≠ []) :
    Kept settings.redaction.headers "content-type" exchange.headers := by
  intro field hfield hname hredacted
  obtain ⟨form, hform, hformMarkers⟩ := h.requestFiled hrecord formType
  obtain ⟨text, htext, htextMarkers⟩ := h.requestFiled hrecord textType
  rw [contentType_replaced formType hfield hname hredacted] at hform
  rw [contentType_replaced textType hfield hname hredacted] at htext
  exact mediaType_shows hwants hcontent hform htext (hformMarkers.trans htextMarkers.symm)

theorem replaced_result (value : Bytes) {reply : Reply} (hresult : exchange.result = .ok reply) :
    (replaced settings.redaction.headers value exchange).result =
      .ok (replaceReply settings.redaction.headers value reply) := by
  show exchange.result.map _ = _
  rw [hresult]
  rfl

theorem replyBody_replaced (names : Finset String) (value : Bytes) (reply : Reply) :
    replyBody (replaceReply names value reply) = replyBody reply := by
  rw [replyBody, replyBody, replaceReply, List.flatMap_map]
  congr 1
  funext frame
  obtain ⟨deltaNs, bytes | fields⟩ := frame
  · rfl
  · rfl

theorem Independent.responseFiled (h : Independent storage codec settings inner exchange)
    (hrecord : published storage codec settings inner exchange = some record) {reply : Reply}
    (hresult : exchange.result = .ok reply) (value : Bytes) :
    ∃ stored, filedResponse storage codec settings inner.limits.maxBlobBytes
        (contentType (replaceFields settings.redaction.headers value reply.headers))
        (replyBody reply) = .ok stored ∧
      markedFields ("response." ++ "body.form:") stored.markers =
        markedFields ("response." ++ "body.form:") record.1.redactions := by
  obtain ⟨done, converted, stored, answer, hparts⟩ := h.recordOf hrecord value
  have hmarkers := recordMarkers_responseForm hparts.parts
  have houtcome := hparts.parts.outcome
  rw [filedOutcome, replaced_result value hresult] at houtcome
  simp only [bind_eq_ok, pure_eq_ok] at houtcome
  obtain ⟨received, hreceived, filing, hfiling, rfl⟩ := houtcome
  rw [(GatewayTransparency.receivedBody_eq_ok hreceived).1, replyBody_replaced] at hfiling
  refine ⟨filing, hfiling, ?_⟩
  rw [hparts.flow, markedFields_finish (by decide), hmarkers]
  simp only [Received.observe, observeResponse]
  split
  · rename_i hnone
    rw [hnone]
  · rw [markedFields_append, markedFields_reconciled_eq_nil (by decide), List.append_nil]

theorem Independent.replyType (h : Independent storage codec settings inner exchange)
    (hrecord : published storage codec settings inner exchange = some record) {reply : Reply}
    (hresult : exchange.result = .ok reply)
    (hwants : settings.redaction.wantsBodyRedaction = true) (hcontent : replyBody reply ≠ []) :
    Kept settings.redaction.headers "content-type" reply.headers := by
  intro field hfield hname hredacted
  obtain ⟨form, hform, hformMarkers⟩ := h.responseFiled hrecord hresult formType
  obtain ⟨text, htext, htextMarkers⟩ := h.responseFiled hrecord hresult textType
  rw [contentType_replaced formType hfield hname hredacted] at hform
  rw [contentType_replaced textType hfield hname hredacted] at htext
  exact mediaType_shows hwants hcontent hform htext (hformMarkers.trans htextMarkers.symm)

/-! ### ETags of redacted responses -/

def weakTag : Bytes := utf8 "W/x".toList

def strongTag : Bytes := utf8 "x".toList

theorem reconcileHeader_etag {header : HeaderEntry} (hname : toAsciiLowercase header.name = "etag") :
    reconcileHeader header =
      if startsWith (trimStart header.value) "W/" = true then .warn else .dropMarked "etag" := by
  unfold reconcileHeader
  rw [hname]
  rfl

theorem weakTag_isWeak (name : String) :
    startsWith (trimStart (headerEntry ⟨name, weakTag⟩).value) "W/" = true := by
  have hweak : startsWith (trimStart (headerEntry ⟨"", weakTag⟩).value) "W/" = true := by
    decide
  exact hweak

theorem strongTag_isStrong (name : String) :
    startsWith (trimStart (headerEntry ⟨name, strongTag⟩).value) "W/" ≠ true := by
  have hstrong : startsWith (trimStart (headerEntry ⟨"", strongTag⟩).value) "W/" ≠ true := by
    decide
  exact hstrong

/-- The headers of a response whose body is transformed, with one value for the redacted ones. -/
def reconciledReply (settings : Settings) (value : Bytes) (reply : Reply) (length : Nat) :
    List HeaderEntry :=
  (reconcileHeadersAfterBodyRedaction
    ((replaceFields settings.redaction.headers value reply.headers).map headerEntry) length
    settings.profileId).headers.map (redactHeader settings.redaction.headers)

theorem Independent.replyReconciled (h : Independent storage codec settings inner exchange)
    (hrecord : published storage codec settings inner exchange = some record) {reply : Reply}
    (hresult : exchange.result = .ok reply)
    (hneeds : needsTransform settings.redaction (contentType reply.headers) = true)
    (hcontent : replyBody reply ≠ [])
    (hkept : Kept settings.redaction.headers "content-type" reply.headers) (value : Bytes) :
    ∃ response length, record.1.outcome = .response response ∧
      response.headers = reconciledReply settings value reply length := by
  obtain ⟨done, converted, stored, answer, hparts⟩ := h.recordOf hrecord value
  obtain ⟨markers, response, houtcome, hreply⟩ :=
    GatewayTransparency.filedOutcome_reply (replaced_result value hresult) hparts.parts.outcome
  have htype : contentType reply.headers =
      contentType (replaceReply settings.redaction.headers value reply).headers :=
    contentType_same (sameFields_replace settings.redaction.headers value reply.headers) hkept
  have hmarkers : markers ≠ [] := by
    have htransform := transformBody_eq_ok hreply.transform
    rw [← htype, replyBody_replaced] at htransform
    intro hnone
    exact ((GatewayTransparency.transform_markers htransform).1 hnone).2 ⟨hcontent, hneeds⟩
  refine ⟨redactResponse settings.redaction.headers response, answer.content.length, ?_, ?_⟩
  · rw [hparts.flow, finishSessionFlow_outcome, hparts.parts.flow]
    show redactOutcome settings.redaction.headers answer.observed.outcome = _
    rw [houtcome]
    rfl
  · rw [hreply.headers, if_neg hmarkers]
    rfl

theorem name_mem_redacted {names : Finset String} {headers : List HeaderEntry} {name : String} :
    (∃ header ∈ headers.map (redactHeader names), toAsciiLowercase header.name = name) ↔
      ∃ header ∈ headers, toAsciiLowercase header.name = name := by
  constructor
  · rintro ⟨_, hheader, hname⟩
    obtain ⟨original, horiginal, rfl⟩ := List.mem_map.mp hheader
    rw [GatewayTransparency.name_redactHeader] at hname
    exact ⟨original, horiginal, hname⟩
  · rintro ⟨header, hheader, hname⟩
    refine ⟨_, List.mem_map_of_mem hheader, ?_⟩
    rwa [GatewayTransparency.name_redactHeader]

theorem weakTag_kept {reply : Reply} {field : HeaderField} (hfield : field ∈ reply.headers)
    (hname : toAsciiLowercase field.name = "etag")
    (hredacted : "etag" ∈ settings.redaction.headers) (length : Nat) :
    ∃ header ∈ reconciledReply settings weakTag reply length,
      toAsciiLowercase header.name = "etag" := by
  apply name_mem_redacted.mpr
  have hmember : toAsciiLowercase field.name ∈ settings.redaction.headers := by rwa [hname]
  have hlower : toAsciiLowercase (headerEntry ⟨field.name, weakTag⟩).name = "etag" := by
    rwa [headerEntry, toAsciiLowercase_idem]
  refine ⟨headerEntry ⟨field.name, weakTag⟩, ?_, hlower⟩
  apply List.mem_append_left
  apply List.mem_filter.mpr
  constructor
  · refine List.mem_map.mpr ⟨⟨field.name, weakTag⟩, List.mem_map.mpr ⟨field, hfield, ?_⟩, rfl⟩
    rw [replaceValue, if_pos hmember]
  · rw [decide_eq_true_eq, reconcileHeader_etag hlower, if_pos (weakTag_isWeak field.name)]
    exact .inr rfl

theorem strongTag_dropped (reply : Reply) (hredacted : "etag" ∈ settings.redaction.headers)
    (length : Nat) :
    ¬∃ header ∈ reconciledReply settings strongTag reply length,
      toAsciiLowercase header.name = "etag" := by
  intro hexists
  obtain ⟨header, hheader, hname⟩ := name_mem_redacted.mp hexists
  rcases List.mem_append.mp hheader with hheader | hheader
  · obtain ⟨hentry, hverdict⟩ := List.mem_filter.mp hheader
    obtain ⟨field, hfield, rfl⟩ := List.mem_map.mp hentry
    obtain ⟨original, -, rfl⟩ := List.mem_map.mp hfield
    rw [decide_eq_true_eq, reconcileHeader_etag hname] at hverdict
    rw [headerEntry, toAsciiLowercase_idem, replaceValue_name] at hname
    have hmember : toAsciiLowercase original.name ∈ settings.redaction.headers := by rwa [hname]
    rw [replaceValue, if_pos hmember, if_neg (strongTag_isStrong original.name)] at hverdict
    rcases hverdict with hkeep | hwarn
    · cases hkeep
    · cases hwarn
  · obtain rfl := List.mem_singleton.mp hheader
    have hlength : toAsciiLowercase "content-length" ≠ "etag" := by decide
    exact hlength hname

/-- A weak ETag outlives the transform of the body, and a strong one does not. -/
theorem Independent.replyEtag (h : Independent storage codec settings inner exchange)
    (hrecord : published storage codec settings inner exchange = some record) {reply : Reply}
    (hresult : exchange.result = .ok reply)
    (hneeds : needsTransform settings.redaction (contentType reply.headers) = true)
    (hcontent : replyBody reply ≠ []) : Kept settings.redaction.headers "etag" reply.headers := by
  have hwants : settings.redaction.wantsBodyRedaction = true := by
    by_contra hplain
    rw [needsTransform_of_wants ((Bool.not_eq_true _).mp hplain)] at hneeds
    exact Bool.false_ne_true hneeds
  have hkept := h.replyType hrecord hresult hwants hcontent
  intro field hfield hname hredacted
  obtain ⟨weak, weakLength, hweak, hweakHeaders⟩ :=
    h.replyReconciled hrecord hresult hneeds hcontent hkept weakTag
  obtain ⟨strong, strongLength, hstrong, hstrongHeaders⟩ :=
    h.replyReconciled hrecord hresult hneeds hcontent hkept strongTag
  obtain rfl := FlowOutcome.response.inj (hweak.symm.trans hstrong)
  apply strongTag_dropped reply hredacted strongLength
  rw [← hstrongHeaders, hweakHeaders]
  exact weakTag_kept hfield hname hredacted weakLength

/-! ### When a record conceals redacted values -/

theorem Independent.conceals (h : Independent storage codec settings inner exchange)
    (hrecord : published storage codec settings inner exchange = some record) :
    Conceals settings.redaction inner.limits.maxBlobBytes exchange where
  trailers := h.requestTrailers hrecord
  annotated := h.annotated hrecord
  type := h.requestType hrecord
  reply _ hresult :=
    { trailers := h.replyTrailers hrecord hresult
      type := h.replyType hrecord hresult
      etag := h.replyEtag hrecord hresult }

/-- A record does not depend on redacted values exactly where no trailers of a timeline have
one, where escaping one is not noted, and where the body redaction reads no redacted header. -/
theorem independent_iff_conceals
    (hrecord : published storage codec settings inner exchange = some record) :
    Independent storage codec settings inner exchange ↔
      Conceals settings.redaction inner.limits.maxBlobBytes exchange := by
  constructor
  · intro h
    exact h.conceals hrecord
  · intro hconceals other hother
    exact (published_same hother.startOffsetNs (captured_same hother hconceals)).symm

end

/-! ### A redacted cookie, and a redacted trailer -/

def secretSettings : Settings :=
  { formSettings with
    redaction := { headers := {"authorization", "set-cookie"}, queryKeys := {"k"}, jsonPaths := ∅ } }

/-- The form `k=v`, answered with a cookie. -/
def cookiePost : Exchange :=
  { formPost [] "k=v" with
    result := .ok
      { status := 200
        http2 := false
        headers := [⟨"set-cookie", utf8 "sid=1".toList⟩]
        frames := []
        ending := ⟨1, none⟩ } }

theorem cookiePost_independent :
    Independent formStorage formCodec secretSettings freshSession cookiePost := by
  have hsome : (published formStorage formCodec secretSettings freshSession cookiePost).isSome =
      true := by
    decide +kernel
  obtain ⟨record, hrecord⟩ := Option.isSome_iff_exists.mp hsome
  have hpublic : "content-type" ∉ secretSettings.redaction.headers ∧
      "etag" ∉ secretSettings.redaction.headers ∧
      toAsciiLowercase "content-type" ∉ secretSettings.redaction.headers := by
    decide
  have htrailers : takenTrailers freshSession.limits.maxBlobBytes .start cookiePost.polled = [] :=
    rfl
  apply (independent_iff_conceals hrecord).mpr
  constructor
  · rw [htrailers]
    exact fun fields hfields => absurd hfields List.not_mem_nil
  · left
    intro field hfield
    obtain rfl := List.mem_singleton.mp hfield
    exact hpublic.2.2
  · exact fun _ _ field _ _ => hpublic.1
  · rintro reply hreply
    cases hreply
    constructor
    · exact fun fields hfields => absurd hfields List.not_mem_nil
    · exact fun _ _ field _ _ => hpublic.1
    · exact fun _ _ field _ _ => hpublic.2.1

/-- The form `k=v`, followed by the trailer `authorization: a`. -/
def trailedPost : Exchange :=
  { formPost [] "k=v" with
    polled :=
      [⟨1, .data (utf8 "k=v".toList)⟩, ⟨1, .trailers [⟨"authorization", utf8 "a".toList⟩]⟩] }

/-- The trailer is redacted in the flow and in clear in its timeline. -/
theorem trailedPost_reveals :
    ¬∀ (storage : Codec) (codec : BodyCodec Nat) (settings : Settings) (inner : RecordingInner)
      (exchange : Exchange) (record : Flow × FlowStreamEvents),
      published storage codec settings inner exchange = some record →
        Independent storage codec settings inner exchange := by
  intro h
  have hsome : (published formStorage formCodec secretSettings freshSession trailedPost).isSome =
      true := by
    decide +kernel
  obtain ⟨record, hrecord⟩ := Option.isSome_iff_exists.mp hsome
  have hindependent := h formStorage formCodec secretSettings freshSession trailedPost record
    hrecord
  have htrailers : takenTrailers freshSession.limits.maxBlobBytes .start trailedPost.polled =
      [[⟨"authorization", utf8 "a".toList⟩]] := by
    decide
  have hunnamed := hindependent.requestTrailers hrecord
  rw [htrailers] at hunnamed
  apply hunnamed _ List.mem_cons_self _ List.mem_cons_self
  decide

end EggReplay.Http.FieldSecrecy
