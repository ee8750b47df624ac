import EggReplay.Http.FieldSecrecy
import EggReplay.Http.SelectedBodies

/-!
Whether what is published of a transaction depends on the selected values of its bodies.
-/

namespace EggReplay.Http.BodySecrecy

open EggReplay.Library.Checks
open EggReplay.Library.Text
open EggReplay.Library.TwoRuns
open EggReplay.Core.FlowRecord
open EggReplay.Core.StreamTimeline
open EggReplay.Core.Redaction
open EggReplay.Store.Fixture
open EggReplay.Store.Recording
open EggReplay.Store.BlobContents
open EggReplay.Http.Transaction
open EggReplay.Http.StreamEventCapture
open EggReplay.Http.Recorder
open EggReplay.Http.Captures
open EggReplay.Http.RecordMarkers
open EggReplay.Http.Atomicity
open EggReplay.Http.GatewayAnswers
open EggReplay.Http.ConcealedFields
open EggReplay.Http.FieldSecrecy
open EggReplay.Http.RecorderAgreement
open EggReplay.Http.SelectedBodies

variable {N : Type}

/-! ### Transactions that differ in selected values -/

/-- The headers, frames and trailers of one side: the same at other times, or with bodies that
differ in selected values, in frames of any size, and with headers that differ in stale ones. -/
inductive SameSide (codec : BodyCodec N) (settings : Settings) (maxBlobBytes : Nat)
    (headers headers' : HeaderMap) (frames frames' : List TimedFrame) : Prop
  | same (hheaders : headers = headers')
      (hframes : frames.map TimedFrame.content = frames'.map TimedFrame.content)
  | selected (hheaders : List.Forall₂ SameFieldUnlessStale headers headers')
      (htrailers : frames.flatMap sentTrailers = frames'.flatMap sentTrailers)
      (hbodies : SameSelected codec settings.redaction (contentType headers) (bodyOf frames)
        (bodyOf frames'))
      (hnonempty : bodyOf frames ≠ [] ∧ bodyOf frames' ≠ [])
      (hstructured : (bodyOf frames).length ≤ settings.maxStructuredBytes ↔
        (bodyOf frames').length ≤ settings.maxStructuredBytes)
      (hfits : Fits maxBlobBytes frames) (hfits' : Fits maxBlobBytes frames')

inductive SameAnswer (codec : BodyCodec N) (settings : Settings) (maxBlobBytes : Nat) :
    Except FlowError Reply → Except FlowError Reply → Prop
  | error (failure : FlowError) : SameAnswer codec settings maxBlobBytes (.error failure)
      (.error failure)
  | ok {left right : Reply} (hstatus : left.status = right.status)
      (hversion : left.http2 = right.http2) (hending : left.ending.failure = right.ending.failure)
      (hside : SameSide codec settings maxBlobBytes left.headers right.headers left.frames
        right.frames) : SameAnswer codec settings maxBlobBytes (.ok left) (.ok right)

/-- Two transactions under ids and at times of their own. -/
structure SameButSelected (codec : BodyCodec N) (settings : Settings) (maxBlobBytes : Nat)
    (left right : Exchange) : Prop where
  method : left.method = right.method
  uri : left.uri = right.uri
  route : left.physicalRoute = right.physicalRoute
  request : SameSide codec settings maxBlobBytes left.headers right.headers left.polled
    right.polled
  answer : SameAnswer codec settings maxBlobBytes left.result right.result

/-- Equal but for the id and the two times. -/
def SameFlow (left right : Flow) : Prop :=
  { left with
    id := right.id
    startedAtMs := right.startedAtMs
    completedAtMs := right.completedAtMs } = right

/-! ### The tee without times -/

def untimedTaken (taken : Taken) : Taken := { taken with events := taken.events.map untimed }

theorem takenFrame_untimed (maxBlobBytes : Nat) (taken : Taken) (frame : TimedFrame) :
    (untimedTaken taken).frame maxBlobBytes pushStreamEventInner (untimedFrame frame) =
      untimedTaken (taken.frame maxBlobBytes pushStreamEventInner frame) := by
  obtain ⟨content, trailers, events, offset, given⟩ := taken
  cases given with
  | false => rfl
  | true =>
      obtain ⟨deltaNs, bytes | fields⟩ := frame
      · have hpush := pushStreamEventInner_untimed events ⟨deltaNs, .data offset bytes.length⟩
        simp only [untimed] at hpush
        simp only [Taken.frame, untimedTaken, untimedFrame]
        rcases grow maxBlobBytes content bytes with error | longer
        · rfl
        · simp only [hpush]
          rcases pushStreamEventInner events ⟨deltaNs, .data offset bytes.length⟩ with error | next
          · rfl
          · rfl
      · have hpush :=
          pushStreamEventInner_untimed events ⟨deltaNs, .trailers (headerEntries fields).1⟩
        simp only [untimed] at hpush
        simp only [Taken.frame, untimedTaken, untimedFrame, hpush]
        rcases pushStreamEventInner events ⟨deltaNs, .trailers (headerEntries fields).1⟩ with
          error | next
        · rfl
        · rfl

theorem takenFrames_untimed (maxBlobBytes : Nat) (taken : Taken) (frames : List TimedFrame) :
    (frames.map untimedFrame).foldl (Taken.frame maxBlobBytes pushStreamEventInner)
        (untimedTaken taken) =
      untimedTaken (frames.foldl (Taken.frame maxBlobBytes pushStreamEventInner) taken) := by
  induction frames generalizing taken with
  | nil => rfl
  | cons frame rest ih =>
      rw [List.map_cons, List.foldl_cons, List.foldl_cons, takenFrame_untimed, ih]

theorem untimedFrames_same {left right : List TimedFrame}
    (h : left.map TimedFrame.content = right.map TimedFrame.content) :
    left.map untimedFrame = right.map untimedFrame := by
  have hframe : untimedFrame = (fun content => ⟨0, content⟩) ∘ TimedFrame.content := rfl
  rw [hframe, ← List.map_map, ← List.map_map, h]

/-- Frames with the same content are taken alike, whenever they come. -/
theorem takenBody_untimed {maxBlobBytes : Nat} {left right : Exchange}
    (h : left.polled.map TimedFrame.content = right.polled.map TimedFrame.content) :
    (takenBody maxBlobBytes pushStreamEventInner left).content =
        (takenBody maxBlobBytes pushStreamEventInner right).content ∧
      (takenBody maxBlobBytes pushStreamEventInner left).trailers =
        (takenBody maxBlobBytes pushStreamEventInner right).trailers := by
  have hframes := congrArg (List.foldl (Taken.frame maxBlobBytes pushStreamEventInner)
    (untimedTaken .start)) (untimedFrames_same h)
  rw [takenFrames_untimed, takenFrames_untimed] at hframes
  rw [takenBody, takenBody, (taken_finish_kept _ _ _).1, (taken_finish_kept _ _ _).1,
    (taken_finish_kept _ _ _).2, (taken_finish_kept _ _ _).2]
  have hcontent := congrArg Taken.content hframes
  have htrailers := congrArg Taken.trailers hframes
  exact ⟨hcontent, htrailers⟩

section

variable {storage : Codec} {codec : BodyCodec N} {settings : Settings} {maxBlobBytes : Nat}

/-! ### What is filed of the bodies -/

theorem filedStaged_selected {isResponse : Bool} {refusal : String} {contentType : Option String}
    {left right : Bytes} (h : SameSelected codec settings.redaction contentType left right)
    (hleft : left ≠ []) (hright : right ≠ [])
    (hstructured : left.length ≤ settings.maxStructuredBytes ↔
      right.length ≤ settings.maxStructuredBytes) :
    filedStaged storage codec settings maxBlobBytes isResponse refusal contentType left =
      filedStaged storage codec settings maxBlobBytes isResponse refusal contentType right := by
  have hneeds := h.needsTransform
  have hwants : ¬settings.redaction.wantsBodyRedaction = false := by
    intro hplain
    exact Bool.false_ne_true ((needsTransform_of_wants hplain).symm.trans hneeds)
  have htyped : ¬needsTransform settings.redaction contentType = false := by
    rw [hneeds]
    decide
  rw [filedStaged, filedStaged, if_neg hleft, if_neg hright, if_neg hwants, if_neg hwants,
    if_neg htyped, if_neg htyped, boundedContent, boundedContent]
  by_cases hbounded : left.length ≤ settings.maxStructuredBytes
  · rw [ensure_of_true hbounded, ensure_of_true (hstructured.mp hbounded)]
    show (transformBody _ _ _ _ _ _ >>= _) = (transformBody _ _ _ _ _ _ >>= _)
    rw [h.transformBody_same hleft hright]
  · have hbounded' : ¬right.length ≤ settings.maxStructuredBytes :=
      fun h => hbounded (hstructured.mpr h)
    rw [ensure_of_false hbounded, ensure_of_false hbounded']
    rfl

theorem markers_ne_nil {isResponse : Bool} {refusal : String} {contentType : Option String}
    {content : Bytes} {stored : Filed} (hneeds : needsTransform settings.redaction contentType = true)
    (hcontent : content ≠ [])
    (h : filedStaged storage codec settings maxBlobBytes isResponse refusal contentType content =
      .ok stored) : stored.markers ≠ [] := by
  have htransform := transformBody_eq_ok (filedStaged_eq_ok h).1
  intro hnone
  exact ((GatewayTransparency.transform_markers htransform).1 hnone).2 ⟨hcontent, hneeds⟩

/-- What is filed of the request body, and its trailers, are the same. -/
theorem filedRequest_same {left right : Exchange}
    (h : SameSide codec settings maxBlobBytes left.headers right.headers left.polled
      right.polled) :
    filedRequest storage codec settings maxBlobBytes (contentType left.headers)
        (takenBody maxBlobBytes pushStreamEventInner left).content =
      filedRequest storage codec settings maxBlobBytes (contentType right.headers)
        (takenBody maxBlobBytes pushStreamEventInner right).content ∧
    (takenBody maxBlobBytes pushStreamEventInner left).trailers =
      (takenBody maxBlobBytes pushStreamEventInner right).trailers := by
  cases h with
  | same hheaders hframes =>
      obtain ⟨hcontent, htrailers⟩ := @takenBody_untimed maxBlobBytes _ _ hframes
      rw [hheaders, hcontent]
      exact ⟨rfl, htrailers⟩
  | selected hheaders htrailers hbodies hnonempty hstructured hfits hfits' =>
      obtain ⟨hcontent, htaken⟩ := takenBody_of_fits maxBlobBytes hfits
      obtain ⟨hcontent', htaken'⟩ := takenBody_of_fits maxBlobBytes hfits'
      rw [hcontent, hcontent', htaken, htaken', trailersIn, trailersIn, htrailers,
        ← contentType_unless_stale hheaders]
      exact ⟨filedStaged_selected hbodies hnonempty.1 hnonempty.2 hstructured, rfl⟩

/-- Outcomes that are filed alike. -/
structure FiledAlike (left right : FiledOutcome) : Prop where
  content : left.content = right.content
  outcome : left.observed.outcome = right.observed.outcome
  transportNote : left.observed.transportNote = right.observed.transportNote
  markers : left.observed.markers = right.observed.markers

theorem filedReply_same {left right : Reply} (hstatus : left.status = right.status)
    (hversion : left.http2 = right.http2) (hending : left.ending.failure = right.ending.failure)
    (hheaders : left.headers = right.headers)
    (hframes : left.frames.map TimedFrame.content = right.frames.map TimedFrame.content) :
    Alike (fun received received' => received.content = received'.content ∧
        received.trailers = received'.trailers)
      (receivedBody maxBlobBytes left) (receivedBody maxBlobBytes right) := by
  have huntimed : untimedReply left = untimedReply right := by
    simp only [untimedReply, hstatus, hversion, hheaders, untimedFrames_same hframes, hending]
  have hbodies := congrArg (receivedBody maxBlobBytes) huntimed
  rw [receivedBody_untimed, receivedBody_untimed] at hbodies
  generalize receivedBody maxBlobBytes left = result at hbodies ⊢
  generalize receivedBody maxBlobBytes right = result' at hbodies ⊢
  rcases result with error | received
  · rcases result' with error' | received'
    · obtain rfl := Except.error.inj hbodies
      exact .error error
    · cases hbodies
  · rcases result' with error' | received'
    · cases hbodies
    · have hreceived := Except.ok.inj hbodies
      have hcontent := congrArg Received.content hreceived
      have htrailers := congrArg Received.trailers hreceived
      exact .ok ⟨hcontent, htrailers⟩

theorem filedOutcome_same {left right : Exchange}
    (h : SameAnswer codec settings maxBlobBytes left.result right.result) :
    Alike FiledAlike (filedOutcome storage codec settings maxBlobBytes left)
      (filedOutcome storage codec settings maxBlobBytes right) := by
  rw [filedOutcome, filedOutcome]
  generalize left.result = answer at h ⊢
  generalize right.result = answer' at h ⊢
  cases h with
  | error failure => exact .ok ⟨rfl, rfl, rfl, rfl⟩
  | @ok left right hstatus hversion hending hside =>
      cases hside with
      | same hheaders hframes =>
          refine (filedReply_same hstatus hversion hending hheaders hframes).bind ?_
          rintro received received' ⟨hcontent, htrailers⟩
          rw [hheaders, hcontent]
          refine (alike_refl (fun _ => rfl) _).bind ?_
          rintro stored _ rfl
          apply Alike.ok
          constructor
          · rfl
          · simp only [Received.observe, observeResponse, hstatus, hheaders, htrailers]
          · simp only [Received.observe, observeResponse, hversion]
          · simp only [Received.observe, observeResponse, hheaders]
      | selected hheaders htrailers hbodies hnonempty hstructured hfits hfits' =>
          obtain ⟨received, hreceived⟩ := receivedBody_of_fits maxBlobBytes hfits
          obtain ⟨received', hreceived'⟩ := receivedBody_of_fits maxBlobBytes hfits'
          obtain ⟨hcontent, hlast⟩ := GatewayTransparency.receivedBody_eq_ok hreceived
          obtain ⟨hcontent', hlast'⟩ := GatewayTransparency.receivedBody_eq_ok hreceived'
          dsimp only
          rw [hreceived, hreceived', ok_bind, ok_bind, hcontent, hcontent',
            ← contentType_unless_stale hheaders]
          have hfiled : filedResponse storage codec settings maxBlobBytes
                (contentType left.headers) (replyBody left) =
              filedResponse storage codec settings maxBlobBytes (contentType left.headers)
                (replyBody right) :=
            filedStaged_selected hbodies hnonempty.1 hnonempty.2 hstructured
          rw [← hfiled]
          refine (alike_refl (fun _ => rfl) _).bind_of_ok ?_
          rintro stored _ hstored - rfl
          have hmarkers := markers_ne_nil hbodies.needsTransform hnonempty.1 hstored
          have hreconciled := reconciled_stale (entries_same hheaders)
            (stored.body.len.getD 0) settings.profileId
          have hsent : received.trailers = received'.trailers := by
            rw [hlast, hlast', replyTrailers_same htrailers]
          apply Alike.ok
          constructor
          · rfl
          · simp only [Received.observe, observeResponse, if_neg hmarkers, hstatus, hsent,
              hreconciled]
          · simp only [Received.observe, observeResponse, hversion]
          · simp only [Received.observe, observeResponse, if_neg hmarkers, hreconciled]

end

/-! ### The last steps -/

/-- Two captures that differ in the headers of the request at most are finished alike, where the
headers are the same or are reconciled to the same. -/
theorem finish_same {left right : Capture} {profile id : String} {started : Nat}
    {completed : Option Nat} {headers : List HeaderEntry}
    (hflow : right.flow =
      { left.flow with
        id := id
        startedAtMs := started
        completedAtMs := completed
        request := { left.flow.request with headers := headers } })
    (hmarkers : left.markers = right.markers)
    (hlossy : left.lossyHeaderValues = right.lossyHeaderValues)
    (hheaders : left.flow.request.headers = headers ∨
      (recordMarkers right).any isRequestBodyMarker = true ∧
        reconcileHeadersAfterBodyRedaction left.flow.request.headers
            (left.flow.request.body.len.getD 0) profile =
          reconcileHeadersAfterBodyRedaction headers (left.flow.request.body.len.getD 0)
            profile) :
    SameFlow (finishSessionFlow left profile) (finishSessionFlow right profile) := by
  obtain ⟨flow, markers, lossy, requestEvents, responseEvents⟩ := left
  obtain ⟨flow', markers', lossy', requestEvents', responseEvents'⟩ := right
  obtain rfl : markers = markers' := hmarkers
  obtain rfl : lossy = lossy' := hlossy
  dsimp only at hflow hheaders ⊢
  subst hflow
  rw [SameFlow, finishSessionFlow, finishSessionFlow, noteLossyHeaders_eq, noteLossyHeaders_eq]
  rcases hheaders with rfl | ⟨hbody, hreconciled⟩
  · by_cases hbody : (flow.redactions ++ markers).any isRequestBodyMarker = true
    · simp only [if_pos hbody, reconcileRequest]
    · simp only [if_neg hbody]
  · simp only [recordMarkers] at hbody
    simp only [if_pos hbody, reconcileRequest, hreconciled]

/-! ### Two captures -/

/-- Captures with the same flow but for its id and times, and with the same contents. -/
structure CapturedAlike (profile : String) (left right : Captured) : Prop where
  flow : SameFlow (finishSessionFlow left.capture profile) (finishSessionFlow right.capture profile)
  requestContent : left.requestContent = right.requestContent
  responseContent : left.responseContent = right.responseContent

/-- Request heads that differ in their headers at most. -/
structure HeadsAlike (left right : RecordedRequest) : Prop where
  request : right.request = { left.request with headers := right.request.headers }
  lossy : left.lossyHeaderValues = right.lossyHeaderValues

section

variable {storage : Codec} {codec : BodyCodec N} {settings : Settings} {maxBlobBytes : Nat}
  {left right : Exchange}

theorem SameSide.fields {headers headers' : HeaderMap} {frames frames' : List TimedFrame}
    (h : SameSide codec settings maxBlobBytes headers headers' frames frames') :
    List.Forall₂ SameFieldUnlessStale headers headers' := by
  cases h with
  | same hheaders _ =>
      rw [hheaders]
      exact List.forall₂_same.mpr fun _ _ => .inl rfl
  | selected hheaders _ _ _ _ _ _ => exact hheaders

theorem requestHead_alike (h : SameButSelected codec settings maxBlobBytes left right) :
    Alike HeadsAlike (requestHead codec left.method left.uri left.headers)
      (requestHead codec right.method right.uri right.headers) := by
  rw [requestHead, requestHead, ← h.uri]
  refine (alike_refl (fun _ => rfl) _).bind ?_
  rintro scheme _ rfl
  refine (alike_refl (fun _ => rfl) _).bind ?_
  rintro authority _ rfl
  refine .ok ⟨?_, lossy_unless_stale h.request.fields⟩
  rw [h.method]

/-- The redacted flows differ in the headers of the request at most. -/
theorem capturedFlow_alike {converted converted' : RecordedRequest} {stored : Filed}
    {answer answer' : FiledOutcome} {taken taken' : Taken}
    (h : SameButSelected codec settings maxBlobBytes left right)
    (hleft : requestHead codec left.method left.uri left.headers = .ok converted)
    (hright : requestHead codec right.method right.uri right.headers = .ok converted')
    (hhead : HeadsAlike converted converted') (htrailers : taken.trailers = taken'.trailers)
    (hanswer : FiledAlike answer answer') :
    capturedFlow settings right converted'.request taken' stored answer'.observed =
      { capturedFlow settings left converted.request taken stored answer.observed with
        id := "flow-" ++ Nat.repr right.startedAtMs ++ "-" ++ right.uuid
        startedAtMs := right.startedAtMs
        completedAtMs := some right.completedAtMs
        request :=
          { (capturedFlow settings left converted.request taken stored answer.observed).request with
            headers :=
              (headerEntries right.headers).1.map (redactHeader settings.redaction.headers) } } := by
  obtain ⟨scheme, authority, -, -, rfl⟩ := requestHead_eq_ok hleft
  obtain ⟨scheme', authority', -, -, rfl⟩ := requestHead_eq_ok hright
  have hrequest := hhead.request
  simp only [HttpRequest.mk.injEq] at hrequest
  obtain ⟨hmethod, hscheme, hauthority, hpath, hquery, -⟩ := hrequest
  have hnames := names_same (entries_same h.request.fields)
  simp only [capturedFlow, observedFlow, redactFlow, hmethod, hscheme, hauthority, hpath, hquery,
    headerMarkers_names, hnames, htrailers, hanswer.outcome, hanswer.transportNote, h.route]

/-- What is captured does not depend on the selected values. -/
theorem captured_alike (h : SameButSelected codec settings maxBlobBytes left right) :
    Alike (CapturedAlike settings.profileId)
      (captured storage pushStreamEventInner codec settings maxBlobBytes left)
      (captured storage pushStreamEventInner codec settings maxBlobBytes right) := by
  obtain ⟨hstored, htrailers⟩ := @filedRequest_same _ storage _ _ _ _ _ h.request
  rw [captured, captured]
  refine (requestHead_alike h).bind_of_ok ?_
  intro converted converted' hleft hright hhead
  rw [capturedTaken, capturedTaken, ← hstored]
  refine (alike_refl (fun _ => rfl) _).bind_of_ok ?_
  rintro stored _ hfiled - rfl
  refine (filedOutcome_same h.answer).bind_of_ok ?_
  intro answer answer' _ houtcome hanswer
  apply Alike.ok
  refine ⟨?_, rfl, hanswer.content⟩
  apply finish_same (capturedFlow_alike h hleft hright hhead htrailers hanswer)
  · exact congrArg (stored.markers ++ ·) hanswer.markers
  · exact hhead.lossy
  · obtain ⟨scheme, authority, -, -, rfl⟩ := requestHead_eq_ok hleft
    cases hside : h.request with
    | same hheaders _ =>
        left
        show (headerEntries left.headers).1.map _ = _
        rw [hheaders]
    | selected hheaders _ hbodies hnonempty _ hfits _ =>
        right
        refine ⟨?_, reconciled_stale (redactedEntries_same hheaders _) _ _⟩
        have hcontent := (takenBody_of_fits maxBlobBytes hfits).1
        rw [hcontent] at hfiled
        have hmarkers := markers_ne_nil hbodies.needsTransform hnonempty.1 hfiled
        rw [← hcontent, hstored] at hfiled
        exact (recordMarkers_any_iff
          ⟨hright, hfiled, houtcome, rfl, rfl, rfl, rfl, rfl, rfl, rfl⟩).mpr hmarkers

/-! ### Two calls -/

/-- Both calls fail, or both succeed with the same flow but for its id and times, and with the
same bodies in the store. -/
inductive RecordedAlike : Except HttpError Flow × RecordingInner →
    Except HttpError Flow × RecordingInner → Prop
  | failed (error error' : HttpError) (next next' : RecordingInner) :
      RecordedAlike (.error error, next) (.error error', next')
  | recorded {flow flow' : Flow} {next next' : RecordingInner} (hflow : SameFlow flow flow')
      (hbodies : contents next.directory = contents next'.directory) :
      RecordedAlike (.ok flow, next) (.ok flow', next')

/-- The session takes what is captured: the flow under its id, and a timeline of its lengths. -/
def Admitted (storage : Codec) (codec : BodyCodec N) (settings : Settings)
    (inner : RecordingInner) (exchange : Exchange) : Prop :=
  ∀ done, captured storage pushStreamEventInner codec settings inner.limits.maxBlobBytes exchange =
    .ok done → CanPublish inner (finishSessionFlow done.capture settings.profileId,
      sessionEvents exchange done.capture)

variable {inner : RecordingInner}

theorem record_ok_iff {exchange : Exchange} :
    (∃ flow next, recordRequestWithSession storage codec settings exchange inner =
        (.ok flow, next)) ↔
      inner.shutdown = false ∧ Admitted storage codec settings inner exchange ∧
        ∃ done, captured storage pushStreamEventInner codec settings inner.limits.maxBlobBytes
          exchange = .ok done := by
  rw [← published_isSome_iff, Option.isSome_iff_exists]
  constructor
  · rintro ⟨record, hrecord⟩
    obtain ⟨hrunning, done, hdone, rfl, hcan⟩ := published_eq_some.mp hrecord
    refine ⟨hrunning, ?_, done, hdone⟩
    intro other hother
    obtain rfl := Except.ok.inj (hdone.symm.trans hother)
    exact hcan
  · rintro ⟨hrunning, hadmitted, done, hdone⟩
    exact ⟨_, published_eq_some.mpr ⟨hrunning, done, hdone, rfl, hadmitted done hdone⟩⟩

/-- Two transactions that differ in selected values of their bodies, and in headers that a
transform makes stale, are recorded alike: the same flow and the same bodies, or a failure. -/
theorem record_alike (h : SameButSelected codec settings inner.limits.maxBlobBytes left right)
    (hadmitted : Admitted storage codec settings inner left ↔
      Admitted storage codec settings inner right) :
    RecordedAlike (recordRequestWithSession storage codec settings left inner)
      (recordRequestWithSession storage codec settings right inner) := by
  have halike : Alike (CapturedAlike settings.profileId)
      (captured storage pushStreamEventInner codec settings inner.limits.maxBlobBytes left)
      (captured storage pushStreamEventInner codec settings inner.limits.maxBlobBytes right) :=
    captured_alike h
  have hcaptured : (∃ done, captured storage pushStreamEventInner codec settings
        inner.limits.maxBlobBytes left = .ok done) ↔
      ∃ done, captured storage pushStreamEventInner codec settings inner.limits.maxBlobBytes
        right = .ok done := by
    generalize captured storage pushStreamEventInner codec settings inner.limits.maxBlobBytes
      left = result at halike ⊢
    generalize captured storage pushStreamEventInner codec settings inner.limits.maxBlobBytes
      right = result' at halike ⊢
    cases halike with
    | error e => exact Iff.rfl
    | ok _ => exact iff_of_true ⟨_, rfl⟩ ⟨_, rfl⟩
  have hok : (∃ flow next, recordRequestWithSession storage codec settings left inner =
        (.ok flow, next)) ↔
      ∃ flow next, recordRequestWithSession storage codec settings right inner =
        (.ok flow, next) := by
    rw [record_ok_iff, record_ok_iff, hadmitted, hcaptured]
  rcases hleft : recordRequestWithSession storage codec settings left inner with
    ⟨error | flow, next⟩
  · rcases hright : recordRequestWithSession storage codec settings right inner with
      ⟨error' | flow', next'⟩
    · exact .failed error error' next next'
    · obtain ⟨flow, other, hcontra⟩ := hok.mpr ⟨flow', next', hright⟩
      cases hleft.symm.trans hcontra
  · obtain ⟨flow', next', hright⟩ := hok.mp ⟨flow, next, hleft⟩
    obtain ⟨done, hdone, rfl, -, hcontents⟩ := recordRequestWithSession_contents hleft
    obtain ⟨done', hdone', rfl, -, hcontents'⟩ := recordRequestWithSession_contents hright
    rw [hdone, hdone'] at halike
    cases halike with
    | ok hcaptured =>
        rw [hright]
        refine .recorded hcaptured.flow ?_
        rw [hcontents, hcontents', hcaptured.requestContent, hcaptured.responseContent]

end

/-! ### Forms with different values -/

/-- The form `k=ab` under another id and at another time. -/
def laterForm : Exchange :=
  { formPost [formLength 4] "k=ab" with uuid := "1", startedAtMs := 5, completedAtMs := 7 }

theorem formLength_stale (length : Nat) : Stale (headerEntry (formLength length)) := by
  left
  rw [headerEntry, toAsciiLowercase_idem]
  show toAsciiLowercase "content-length" ∈ staleHeaders
  decide

theorem forms_sameButSelected : SameButSelected formCodec formSettings
    freshSession.limits.maxBlobBytes (formPost [formLength 3] "k=v") laterForm where
  method := rfl
  uri := rfl
  route := rfl
  request := by
    apply SameSide.selected
    · refine .cons (.inl rfl) (.cons (.inr ⟨rfl, formLength_stale 3, formLength_stale 4, ?_⟩) .nil)
      decide
    · rfl
    · refine .form (by decide) (by decide) ?_ (by decide)
      have hleft : formCodec.parseForm (bodyOf (formPost [formLength 3] "k=v").polled) =
          [("k", "v")] := by
        decide
      have hright : formCodec.parseForm (bodyOf laterForm.polled) = [("k", "ab")] := by
        decide
      rw [hleft, hright]
      exact .cons ⟨rfl, .inl (by decide)⟩ .nil
    · decide
    · decide
    · exact ⟨by decide, by decide, by decide⟩
    · exact ⟨by decide, by decide, by decide⟩
  answer := .ok rfl rfl rfl (.same rfl rfl)

theorem forms_recorded_alike :
    RecordedAlike
      (recordRequestWithSession formStorage formCodec formSettings
        (formPost [formLength 3] "k=v") freshSession)
      (recordRequestWithSession formStorage formCodec formSettings laterForm freshSession) := by
  have hleft : (published formStorage formCodec formSettings freshSession
      (formPost [formLength 3] "k=v")).isSome = true := by
    decide +kernel
  have hright : (published formStorage formCodec formSettings freshSession laterForm).isSome =
      true := by
    decide +kernel
  rw [published_isSome_iff, record_ok_iff] at hleft hright
  exact record_alike forms_sameButSelected (iff_of_true hleft.2.1 hright.2.1)

/-- A request without a body, under a digest of its own. -/
def digestPost (digest : String) : Exchange :=
  { formPost [⟨"digest", utf8 digest.toList⟩] "" with polled := [] }

/-- A structured limit that the form `k=v` is within and the form `k=ab` is not. -/
def narrowSettings : Settings := { formSettings with maxStructuredBytes := 3 }

/-- The value of the second form is not UTF-8; it is parsed all the same. -/
def octetForm : Bytes := [107, 61, 255]

def octetCodec : BodyCodec Nat :=
  { formCodec with
    parseForm := fun body =>
      if body = octetForm then [("k", "\uFFFD")] else formCodec.parseForm body }

def octetPost : Exchange := { formPost [] "" with polled := [⟨1, .data octetForm⟩] }

/-- The value that both routines for forms read is not the text that was sent. -/
example : octetCodec.parseForm (bodyOf octetPost.polled) = [("k", "\uFFFD")] ∧
    decodeUtf8 (bodyOf octetPost.polled) = none := by decide

theorem not_recordedAlike_of_isOk {left right : Except HttpError Flow × RecordingInner}
    (h : left.1.isOk ≠ right.1.isOk) : ¬RecordedAlike left right := by
  intro halike
  cases halike with
  | failed error error' next next' => exact h rfl
  | recorded hflow hbodies => exact h rfl

theorem stale_digest {field : HeaderField} (h : field.name = "digest") :
    Stale (headerEntry field) := by
  left
  rw [headerEntry, toAsciiLowercase_idem, h]
  decide

/-- Digests of a body that is not transformed stay apart in the record, one of two forms may be
too long, and one may not be text. -/
theorem not_recorded_alike :
    (¬∀ (storage : Codec) (codec : BodyCodec Nat) (settings : Settings) (inner : RecordingInner)
      (left right : Exchange), right = { left with headers := right.headers } →
      List.Forall₂ SameFieldUnlessStale left.headers right.headers →
      RecordedAlike (recordRequestWithSession storage codec settings left inner)
        (recordRequestWithSession storage codec settings right inner)) ∧
    (¬∀ (storage : Codec) (codec : BodyCodec Nat) (settings : Settings) (inner : RecordingInner)
      (left right : Exchange), right = { left with polled := right.polled } →
      SameSelected codec settings.redaction (contentType left.headers) (bodyOf left.polled)
        (bodyOf right.polled) →
      RecordedAlike (recordRequestWithSession storage codec settings left inner)
        (recordRequestWithSession storage codec settings right inner)) ∧
    ¬∀ (storage : Codec) (codec : BodyCodec Nat) (settings : Settings) (inner : RecordingInner)
      (left right : Exchange), right = { left with polled := right.polled } →
      isFormContentType (contentType left.headers) = true → settings.redaction.queryKeys ≠ ∅ →
      List.Forall₂ (SameFormPair settings.redaction.queryKeys)
        (codec.parseForm (bodyOf left.polled)) (codec.parseForm (bodyOf right.polled)) →
      RecordedAlike (recordRequestWithSession storage codec settings left inner)
        (recordRequestWithSession storage codec settings right inner) := by
  refine ⟨?_, ?_, ?_⟩
  · intro h
    have halike := h formStorage formCodec formSettings freshSession (digestPost "a")
      (digestPost "b") rfl (.cons (.inl rfl) (.cons (.inr ⟨rfl, stale_digest rfl, stale_digest rfl,
        by decide⟩) .nil))
    have hleft : ((recordRequestWithSession formStorage formCodec formSettings (digestPost "a")
        freshSession).1.map fun flow => flow.request.headers.map (·.value)) =
        .ok ["application/x-www-form-urlencoded", "a"] := by
      decide +kernel
    have hright : ((recordRequestWithSession formStorage formCodec formSettings (digestPost "b")
        freshSession).1.map fun flow => flow.request.headers.map (·.value)) =
        .ok ["application/x-www-form-urlencoded", "b"] := by
      decide +kernel
    generalize recordRequestWithSession formStorage formCodec formSettings (digestPost "a")
      freshSession = left at halike hleft
    generalize recordRequestWithSession formStorage formCodec formSettings (digestPost "b")
      freshSession = right at halike hright
    cases halike with
    | failed error error' next next' => cases hleft
    | recorded hflow hbodies =>
        have hheaders := congrArg (fun flow : Flow => flow.request.headers.map (·.value)) hflow
        have hvalues := (Except.ok.inj hleft).symm.trans (hheaders.trans (Except.ok.inj hright))
        exact absurd hvalues (by decide)
  · intro h
    have hpairs : List.Forall₂ (SameFormPair narrowSettings.redaction.queryKeys)
        (formCodec.parseForm (bodyOf (formPost [] "k=v").polled))
        (formCodec.parseForm (bodyOf (formPost [] "k=ab").polled)) := by
      have hleft : formCodec.parseForm (bodyOf (formPost [] "k=v").polled) = [("k", "v")] := by
        decide
      have hright : formCodec.parseForm (bodyOf (formPost [] "k=ab").polled) = [("k", "ab")] := by
        decide
      rw [hleft, hright]
      exact .cons ⟨rfl, .inl (by decide)⟩ .nil
    refine not_recordedAlike_of_isOk ?_ (h formStorage formCodec narrowSettings freshSession
      (formPost [] "k=v") (formPost [] "k=ab") rfl
      (.form (by decide) (by decide) hpairs (by decide)))
    decide +kernel
  · intro h
    have hpairs : List.Forall₂ (SameFormPair formSettings.redaction.queryKeys)
        (octetCodec.parseForm (bodyOf (formPost [] "k=v").polled))
        (octetCodec.parseForm (bodyOf octetPost.polled)) := by
      have hleft : octetCodec.parseForm (bodyOf (formPost [] "k=v").polled) = [("k", "v")] := by
        decide
      have hright : octetCodec.parseForm (bodyOf octetPost.polled) = [("k", "\uFFFD")] := by
        decide
      rw [hleft, hright]
      exact .cons ⟨rfl, .inl (by decide)⟩ .nil
    refine not_recordedAlike_of_isOk ?_ (h formStorage octetCodec formSettings freshSession
      (formPost [] "k=v") octetPost rfl (by decide) (by decide) hpairs)
    decide +kernel

end EggReplay.Http.BodySecrecy
