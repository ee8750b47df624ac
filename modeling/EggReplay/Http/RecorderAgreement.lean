import EggReplay.Http.RecordMarkers

/-!
The two recorders of one transaction, each on its own clock and under its own id: when they
append the same flow.
-/

namespace EggReplay.Http.RecorderAgreement

open EggReplay.Library.Checks
open EggReplay.Library.Text
open EggReplay.Library.Stateful
open EggReplay.Core.FlowRecord
open EggReplay.Core.StreamTimeline
open EggReplay.Core.Redaction
open EggReplay.Store.Fixture
open EggReplay.Store.Staging
open EggReplay.Store.Recording
open EggReplay.Store.Writer
open EggReplay.Store.BlobContents
open EggReplay.Http.StreamEventCapture
open EggReplay.Http.Transaction
open EggReplay.Http.Recorder
open EggReplay.Http.Captures
open EggReplay.Http.RecordMarkers

variable {N : Type}

/-! ### Without times -/

def untimed (event : StreamEvent) : StreamEvent := { event with deltaNs := 0 }

def untimedFrame (frame : TimedFrame) : TimedFrame := { frame with deltaNs := 0 }

def untimedReply (reply : Reply) : Reply :=
  { reply with
    frames := reply.frames.map untimedFrame
    ending := { reply.ending with deltaNs := 0 } }

/-- Two observations of one transaction. -/
structure SameTransaction (left right : Exchange) : Prop where
  method : left.method = right.method
  uri : left.uri = right.uri
  headers : left.headers = right.headers
  polled : left.polled.map TimedFrame.content = right.polled.map TimedFrame.content
  result : left.result.map untimedReply = right.result.map untimedReply
  route : left.physicalRoute = right.physicalRoute

/-- The client takes no frame after one in whose place the tee gave it an error. -/
def Heeds (maxBlobBytes : Nat) (push : Push) : Taken → List TimedFrame → Prop
  | _, [] => True
  | taken, frame :: rest =>
      taken.given = true ∧ Heeds maxBlobBytes push (taken.frame maxBlobBytes push frame) rest

/-- Equal but for the id, the two times and the order and number of the markers. -/
structure SameRecord (left right : Flow) : Prop where
  fields : { left with
    id := right.id
    startedAtMs := right.startedAtMs
    completedAtMs := right.completedAtMs
    redactions := right.redactions } = right
  markers : ∀ marker, marker ∈ left.redactions ↔ marker ∈ right.redactions

/-! ### The events of a reply -/

@[simp] theorem isEmptyData_untimed (event : StreamEvent) :
    isEmptyData (untimed event) = isEmptyData event := rfl

theorem coalesce_untimed (events : List StreamEvent) (event : StreamEvent) :
    coalesce (events.map untimed) (untimed event) =
      (coalesce events event).map (List.map untimed) := by
  rcases event with ⟨delta, ⟨offset, length⟩ | fields | _ | ⟨offset, category, phase⟩⟩
  · rw [coalesce, coalesce, List.getLast?_map, ← List.map_dropLast]
    rcases events.getLast? with _ | ⟨lastDelta, ⟨lastOffset, lastLength⟩ | _ | _ | _⟩
    · rfl
    · by_cases hnext : saturatingAdd lastOffset lastLength = offset
      · simp [untimed, hnext]
      · simp [untimed, hnext]
    · rfl
    · rfl
    · rfl
  · cases h : events.getLast? <;> simp [coalesce, untimed, h]
  · cases h : events.getLast? <;> simp [coalesce, untimed, h]
  · cases h : events.getLast? <;> simp [coalesce, untimed, h]

theorem pushStreamEventInner_untimed (events : List StreamEvent) (event : StreamEvent) :
    pushStreamEventInner (events.map untimed) (untimed event) =
      (pushStreamEventInner events event).map (List.map untimed) := by
  rw [pushStreamEventInner, pushStreamEventInner, isEmptyData_untimed, List.length_map,
    coalesce_untimed]
  split
  · rfl
  · split
    · rw [← List.map_singleton, ← List.map_append]
      rfl
    · rcases coalesce events event with _ | next
      · rfl
      · rfl

theorem pushStreamEvent_untimed (events : List StreamEvent) (event : StreamEvent) :
    pushStreamEvent (events.map untimed) (untimed event) =
      (pushStreamEvent events event).map (List.map untimed) := by
  rw [pushStreamEvent, pushStreamEvent, pushStreamEventInner_untimed]
  rcases pushStreamEventInner events event with message | next
  · rfl
  · rfl

def untimedReceived (received : Received) : Received :=
  { received with events := received.events.map untimed }

theorem receivedFrame_untimed (maxBlobBytes : Nat) (received : Received) (frame : TimedFrame) :
    (untimedReceived received).frame maxBlobBytes (untimedFrame frame) =
      (received.frame maxBlobBytes frame).map untimedReceived := by
  rcases frame with ⟨delta, bytes | fields⟩
  · have hpush := pushStreamEvent_untimed received.events
      ⟨delta, .data received.offset bytes.length⟩
    simp only [Received.frame, untimedReceived, untimedFrame]
    rcases grow maxBlobBytes received.content bytes with error | content
    · rfl
    · simp only [untimed] at hpush
      simp only [Except.mapError, ok_bind, hpush]
      rcases pushStreamEvent received.events ⟨delta, .data received.offset bytes.length⟩ with
        error | next
      · rfl
      · rfl
  · have hpush := pushStreamEvent_untimed received.events
      ⟨delta, .trailers (headerEntries fields).1⟩
    simp only [Received.frame, untimedReceived, untimedFrame]
    simp only [untimed] at hpush
    rw [hpush]
    rcases pushStreamEvent received.events ⟨delta, .trailers (headerEntries fields).1⟩ with
      error | next
    · rfl
    · rfl

theorem responseEndEvent_untimed (offset : Nat) (ending : TimedEnd) :
    responseEndEvent offset { ending with deltaNs := 0 } =
      untimed (responseEndEvent offset ending) := rfl

theorem receivedBody_untimed (maxBlobBytes : Nat) (reply : Reply) :
    receivedBody maxBlobBytes (untimedReply reply) =
      (receivedBody maxBlobBytes reply).map untimedReceived := by
  have hframes : checkFold (Received.frame maxBlobBytes) .start (reply.frames.map untimedFrame) =
      (checkFold (Received.frame maxBlobBytes) .start reply.frames).map untimedReceived :=
    checkFold_map (receivedFrame_untimed maxBlobBytes) .start reply.frames
  rw [receivedBody, receivedBody]
  simp only [untimedReply, hframes, responseEndEvent_untimed]
  rcases checkFold (Received.frame maxBlobBytes) .start reply.frames with error | received
  · rfl
  · show (pushStreamEvent (received.events.map untimed) _ >>= _) = _
    rw [ok_bind]
    rw [show (untimedReceived received).offset = received.offset from rfl,
      pushStreamEvent_untimed]
    rcases pushStreamEvent received.events (responseEndEvent received.offset reply.ending) with
      error | next
    · rfl
    · rfl

/-- The outcome of a transaction does not depend on its times. -/
theorem filedOutcome_untimed {storage : Codec} {codec : BodyCodec N} {settings : Settings}
    {maxBlobBytes : Nat} {x y : Exchange} {left right : FiledOutcome}
    (hresult : x.result.map untimedReply = y.result.map untimedReply)
    (hleft : filedOutcome storage codec settings maxBlobBytes x = .ok left)
    (hright : filedOutcome storage codec settings maxBlobBytes y = .ok right) :
    left.content = right.content ∧ left.observed.outcome = right.observed.outcome ∧
      left.observed.transportNote = right.observed.transportNote ∧
      left.observed.markers = right.observed.markers := by
  rw [filedOutcome] at hleft hright
  rcases hx : x.result with failure | reply
  · rcases hy : y.result with failure' | reply'
    · rw [hx, hy] at hresult
      cases hresult
      rw [hx] at hleft
      rw [hy] at hright
      cases hleft
      cases hright
      exact ⟨rfl, rfl, rfl, rfl⟩
    · rw [hx, hy] at hresult
      cases hresult
  · rcases hy : y.result with failure' | reply'
    · rw [hx, hy] at hresult
      cases hresult
    · rw [hx, hy] at hresult
      have hreply : untimedReply reply = untimedReply reply' := Except.ok.inj hresult
      rw [hx] at hleft
      rw [hy] at hright
      simp only [bind_eq_ok, pure_eq_ok] at hleft hright
      obtain ⟨received, hreceived, stored, hstored, rfl⟩ := hleft
      obtain ⟨received', hreceived', stored', hstored', rfl⟩ := hright
      have hbodies := congrArg (receivedBody maxBlobBytes) hreply
      rw [receivedBody_untimed, receivedBody_untimed, hreceived, hreceived'] at hbodies
      have hsame : untimedReceived received = untimedReceived received' :=
        Except.ok.inj hbodies
      simp only [untimedReply, Reply.mk.injEq] at hreply
      obtain ⟨hstatus, hversion, hheaders, -, -⟩ := hreply
      simp only [untimedReceived, Received.mk.injEq] at hsame
      obtain ⟨hcontent, htrailers, -, -⟩ := hsame
      rw [hheaders, hcontent, hstored'] at hstored
      obtain rfl := Except.ok.inj hstored
      simp only [Received.observe, observeResponse, hheaders, hstatus, hversion, htrailers,
        and_self]

/-! ### The bytes of the request -/

/-- Two tees with the same bytes and trailers, where the one gives whenever the other does. -/
structure Follows (left right : Taken) : Prop where
  content : left.content = right.content
  trailers : left.trailers = right.trailers
  given : right.given = true → left.given = true

/-- A push that never fails gives whatever the sink takes. -/
theorem Follows.frame {maxBlobBytes : Nat} {push : Push} {left right : Taken}
    (h : Follows left right) (hright : right.given = true) {x y : TimedFrame}
    (hframe : x.content = y.content) :
    Follows (left.frame maxBlobBytes pushNothing x) (right.frame maxBlobBytes push y) := by
  rcases x with ⟨delta, content⟩
  rcases y with ⟨delta', content'⟩
  obtain rfl : content = content' := hframe
  have hleft : ¬left.given = false := by
    rw [h.given hright]
    decide
  have hopen : ¬right.given = false := by
    rw [hright]
    decide
  rw [Taken.frame, Taken.frame, if_neg hleft, if_neg hopen]
  rcases content with bytes | fields
  · dsimp only
    rw [h.content]
    rcases grow maxBlobBytes right.content bytes with error | longer
    · exact ⟨rfl, h.trailers, fun hgiven => hgiven⟩
    · dsimp only [pushNothing]
      rcases push right.events ⟨delta', .data right.offset bytes.length⟩ with error | events
      · exact ⟨rfl, h.trailers, fun _ => h.given hright⟩
      · exact ⟨rfl, h.trailers, fun _ => h.given hright⟩
  · have htrailers : left.trailers ++ (headerEntries fields).1 =
        right.trailers ++ (headerEntries fields).1 := by
      rw [h.trailers]
    dsimp only [pushNothing]
    rcases push right.events ⟨delta', .trailers (headerEntries fields).1⟩ with error | events
    · exact ⟨h.content, htrailers, fun _ => h.given hright⟩
    · exact ⟨h.content, htrailers, fun _ => h.given hright⟩

theorem Follows.frames {maxBlobBytes : Nat} {push : Push} {left right : Taken}
    (h : Follows left right) {xs ys : List TimedFrame}
    (hframes : xs.map TimedFrame.content = ys.map TimedFrame.content)
    (hheeds : Heeds maxBlobBytes push right ys) :
    Follows (xs.foldl (Taken.frame maxBlobBytes pushNothing) left)
      (ys.foldl (Taken.frame maxBlobBytes push) right) := by
  induction ys generalizing xs left right with
  | nil =>
      obtain rfl : xs = [] := by simpa using hframes
      exact h
  | cons y ys ih =>
      rcases xs with _ | ⟨x, xs⟩
      · cases hframes
      · rw [List.map_cons, List.map_cons, List.cons.injEq] at hframes
        rw [List.foldl_cons, List.foldl_cons]
        exact ih (h.frame hheeds.1 hframes.1) hframes.2 hheeds.2

theorem taken_finish_kept (push : Push) (taken : Taken) (ending : Option TimedEnd) :
    (taken.finish push ending).content = taken.content ∧
      (taken.finish push ending).trailers = taken.trailers := by
  rcases ending with _ | ending
  · exact ⟨rfl, rfl⟩
  · rw [Taken.finish]
    split
    · exact ⟨rfl, rfl⟩
    · exact ⟨rfl, rfl⟩

theorem Follows.finish {push push' : Push} {left right : Taken} (h : Follows left right)
    (ending ending' : Option TimedEnd) :
    (left.finish push ending).content = (right.finish push' ending').content ∧
      (left.finish push ending).trailers = (right.finish push' ending').trailers := by
  rw [(taken_finish_kept push left ending).1, (taken_finish_kept push left ending).2,
    (taken_finish_kept push' right ending').1, (taken_finish_kept push' right ending').2]
  exact ⟨h.content, h.trailers⟩

/-! ### Headers that reconciliation leaves as they are -/

/-- The new length stands last, and no other header is one that a transform makes stale. -/
def Settled (headers : List HeaderEntry) (newLen : Nat) : Prop :=
  ∃ kept, headers = kept ++ [{ name := "content-length", value := Nat.repr newLen }] ∧
    ∀ header ∈ kept, reconcileHeader header = .keep

section

variable {headers : List HeaderEntry} {newLen : Nat}

theorem Settled.reconcile (h : Settled headers newLen) (profile : String) :
    reconcileHeadersAfterBodyRedaction headers newLen profile =
      { headers := headers, markers := [], annotations := [] } := by
  obtain ⟨kept, rfl, hkept⟩ := h
  have hlength : reconcileHeader { name := "content-length", value := Nat.repr newLen } =
      .drop := by
    have hname : toAsciiLowercase "content-length" = "content-length" := by decide
    rw [reconcileHeader]
    exact if_pos hname
  rw [reconcileHeadersAfterBodyRedaction, Reconciled.mk.injEq]
  refine ⟨?_, ?_, ?_⟩
  · rw [List.filter_append, List.filter_eq_self.mpr fun header hheader => by
      simp [hkept header hheader]]
    simp [hlength]
  · rw [List.filterMap_eq_nil_iff]
    intro header hheader
    rcases List.mem_append.mp hheader with hmem | hmem
    · rw [hkept header hmem]
    · rw [List.mem_singleton.mp hmem, hlength]
  · rw [List.filterMap_eq_nil_iff]
    intro header hheader
    rcases List.mem_append.mp hheader with hmem | hmem
    · rw [hkept header hmem]
    · rw [List.mem_singleton.mp hmem, hlength]

theorem settled_iff (profile : String) :
    Settled headers newLen ↔
      (reconcileHeadersAfterBodyRedaction headers newLen profile).headers = headers ∧
      (reconcileHeadersAfterBodyRedaction headers newLen profile).annotations = [] := by
  constructor
  · intro h
    rw [h.reconcile profile]
    exact ⟨rfl, rfl⟩
  · rintro ⟨hheaders, hannotations⟩
    refine ⟨_, hheaders.symm, ?_⟩
    intro header hheader
    obtain ⟨hmem, hverdict⟩ := List.mem_filter.mp hheader
    rcases of_decide_eq_true hverdict with hkeep | hwarn
    · exact hkeep
    · have hnone := (List.filterMap_eq_nil_iff.mp hannotations) header hmem
      rw [hwarn] at hnone
      cases hnone

end

example : (reconcileHeadersAfterBodyRedaction [⟨"digest", "a"⟩, ⟨"content-length", "3"⟩] 16
    "default").headers = [⟨"content-length", "16"⟩] := by decide

/-! ### The last steps of the recorders -/

def lossyNotes (lossy : Bool) : List (String × String) :=
  if lossy = true then [("conversion", "opaque-header-values-escaped")] else []

theorem noteLossyHeaders_eq (lossy : Bool) (flow : Flow) :
    noteLossyHeaders lossy flow =
      { flow with annotations := flow.annotations ++ lossyNotes lossy } := by
  rcases lossy with _ | _
  · simp [noteLossyHeaders, lossyNotes]
  · rfl

theorem reconciled_settled {flow : Flow} {profile : String}
    (h : Settled flow.request.headers (flow.request.body.len.getD 0)) :
    reconcileRequest flow profile = flow := by
  rw [reconcileRequest, h.reconcile profile]
  simp only [List.append_nil]

/-- The writer's recorder never reconciles; the session's recorder does where the request's
body was redacted. -/
theorem sameRecord_finish_iff {left right : Capture} {profile id : String} {started : Nat}
    {completed : Option Nat}
    (hflow : right.flow =
      { left.flow with id := id, startedAtMs := started, completedAtMs := completed })
    (hmarkers : left.markers = right.markers)
    (hlossy : left.lossyHeaderValues = right.lossyHeaderValues) :
    SameRecord (finishWriterFlow left profile) (finishSessionFlow right profile) ↔
      ((recordMarkers right).any isRequestBodyMarker = true →
        Settled right.flow.request.headers (right.flow.request.body.len.getD 0)) := by
  rcases left with ⟨flow, markers, lossy, requestEvents, responseEvents⟩
  rcases right with ⟨flow', markers', lossy', requestEvents', responseEvents'⟩
  obtain rfl : markers = markers' := hmarkers
  obtain rfl : lossy = lossy' := hlossy
  dsimp only at hflow ⊢
  subst hflow
  rw [finishWriterFlow, finishSessionFlow, noteLossyHeaders_eq, noteLossyHeaders_eq]
  dsimp only [recordMarkers]
  rw [List.any_nil, if_neg (by decide)]
  by_cases hbody : (flow.redactions ++ markers).any isRequestBodyMarker = true
  · rw [if_pos hbody]
    constructor
    · intro hsame _
      have hheaders := congrArg (fun flow => flow.request.headers) hsame.fields
      have hnotes := congrArg (fun flow => flow.annotations) hsame.fields
      dsimp only [reconcileRequest] at hheaders hnotes
      rw [List.append_assoc, List.append_cancel_left_eq, eq_comm,
        List.append_left_eq_self] at hnotes
      rw [settled_iff profile]
      exact ⟨hheaders.symm, hnotes⟩
    · intro hsettled
      have hkept : reconcileRequest
          { flow with
            id := id
            startedAtMs := started
            completedAtMs := completed
            redactions := flow.redactions ++ markers } profile =
          { flow with
            id := id
            startedAtMs := started
            completedAtMs := completed
            redactions := flow.redactions ++ markers } :=
        reconciled_settled (hsettled hbody)
      rw [hkept]
      exact ⟨rfl, fun marker => Iff.rfl⟩
  · rw [if_neg hbody]
    exact iff_of_true ⟨rfl, fun marker => Iff.rfl⟩ fun h => absurd h hbody

/-! ### Agreement -/

section

variable {storage : Codec} {codec : BodyCodec N} {settings : Settings} {x y : Exchange}
  {maxBlobBytes : Nat} {push : Push}

/-- The bytes and the trailers that the two tees have are the same. -/
theorem takenBody_same (hsame : SameTransaction x y)
    (hheeds : Heeds maxBlobBytes push .start y.polled) :
    (takenBody maxBlobBytes pushNothing x).content = (takenBody maxBlobBytes push y).content ∧
      (takenBody maxBlobBytes pushNothing x).trailers =
        (takenBody maxBlobBytes push y).trailers := by
  have hstart : Follows .start .start := ⟨rfl, rfl, id⟩
  exact (hstart.frames hsame.polled hheeds).finish x.requestEnd y.requestEnd

/-- Up to the markers of the bodies, the two recorders have the same in hand. -/
theorem captured_same {left right : Captured} (hsame : SameTransaction x y)
    (hheeds : Heeds maxBlobBytes push .start y.polled)
    (hleft : captured storage pushNothing codec settings maxBlobBytes x = .ok left)
    (hright : captured storage push codec settings maxBlobBytes y = .ok right) :
    right.capture.flow = { left.capture.flow with
      id := right.capture.flow.id
      startedAtMs := right.capture.flow.startedAtMs
      completedAtMs := right.capture.flow.completedAtMs } ∧
    left.capture.markers = right.capture.markers ∧
    left.capture.lossyHeaderValues = right.capture.lossyHeaderValues := by
  obtain ⟨converted, stored, answer, parts⟩ := captured_eq_ok hleft
  obtain ⟨converted', stored', answer', parts'⟩ := captured_eq_ok hright
  obtain ⟨hcontent, htrailers⟩ := takenBody_same hsame hheeds
  obtain ⟨-, houtcome, hnote, hmarkers⟩ :=
    filedOutcome_untimed hsame.result parts.outcome parts'.outcome
  have hconverted : converted = converted' := by
    have hhead := parts.head
    rw [hsame.method, hsame.uri, hsame.headers, parts'.head] at hhead
    exact (Except.ok.inj hhead).symm
  have hstored : stored = stored' := by
    have hrequest := parts.request
    rw [hsame.headers, hcontent, parts'.request] at hrequest
    exact (Except.ok.inj hrequest).symm
  refine ⟨?_, ?_, ?_⟩
  · rw [parts.flow, parts'.flow, hconverted, hstored, capturedFlow, capturedFlow, observedFlow,
      observedFlow, houtcome, hnote, htrailers, hsame.route]
    rfl
  · rw [parts.markers, parts'.markers, hstored, hmarkers]
  · rw [parts.lossy, parts'.lossy, hconverted]

/-- Where the body of the request is transformed, its redacted headers are those that
reconciliation asks for. -/
def RequestSettled (codec : BodyCodec N) (settings : Settings) (headers : HeaderMap)
    (content : Bytes) : Prop :=
  ∀ clean markers, transformBody codec content (contentType headers) settings.redaction
      settings.profileId false = .ok (clean, markers) → markers ≠ [] →
    Settled ((headerEntries headers).1.map (redactHeader settings.redaction.headers))
      clean.length

/-- Two recordings of one transaction, both successful, into stores of the same blob limit:
they append the same record exactly when the request's body is not transformed or its headers
need no reconciliation. -/
theorem recorders_agree_iff {writer writer' : SessionWriter} {inner inner' : RecordingInner}
    {flow flow' : Flow} (hsame : SameTransaction x y)
    (hlimit : writer.limits.maxBlobBytes = inner.limits.maxBlobBytes)
    (hheeds : Heeds inner.limits.maxBlobBytes pushStreamEventInner .start y.polled)
    (hwriter : recordRequest storage codec settings x writer = (.ok flow, writer'))
    (hsession : recordRequestWithSession storage codec settings y inner = (.ok flow', inner')) :
    SameRecord flow flow' ↔
      RequestSettled codec settings x.headers
        (takenBody writer.limits.maxBlobBytes pushNothing x).content := by
  obtain ⟨left, hleft, rfl⟩ := recordRequest_eq_ok hwriter
  obtain ⟨right, captureState, flowed, hright, rfl, -⟩ :=
    recordRequestWithSession_eq_ok hsession
  rw [hlimit] at hleft ⊢
  obtain ⟨hflow, hmarkers, hlossy⟩ := captured_same hsame hheeds hleft hright
  rw [sameRecord_finish_iff hflow hmarkers hlossy]
  obtain ⟨converted, stored, answer, parts⟩ := captured_eq_ok hright
  obtain ⟨htransform, hreference, -⟩ := filedStaged_eq_ok parts.request
  have hheaders : right.capture.flow.request.headers =
      (headerEntries y.headers).1.map (redactHeader settings.redaction.headers) := by
    obtain ⟨scheme, authority, -, -, rfl⟩ := requestHead_eq_ok parts.head
    rw [parts.flow]
    rfl
  have hlength : right.capture.flow.request.body.len.getD 0 = stored.content.length := by
    rw [parts.flow]
    show stored.body.len.getD 0 = _
    rw [reference_len hreference]
    rfl
  rw [recordMarkers_any_iff parts, hheaders, hlength, RequestSettled,
    (takenBody_same hsame hheeds).1, hsame.headers]
  constructor
  · intro hsettled clean markers hclean hnonempty
    rw [htransform] at hclean
    cases hclean
    exact hsettled hnonempty
  · intro hsettled hnonempty
    exact hsettled _ _ htransform hnonempty

end

/-! ### Two recordings of a form -/

theorem formPost_heeds (headers : HeaderMap) (body : String) :
    Heeds freshSession.limits.maxBlobBytes pushStreamEventInner .start
      (formPost headers body).polled :=
  ⟨rfl, trivial⟩

theorem sameTransaction_refl (exchange : Exchange) : SameTransaction exchange exchange :=
  ⟨rfl, rfl, rfl, rfl, rfl, rfl⟩

/-- A form whose redacted body is as long as its body, and that ends its headers with its
length, is recorded alike. -/
theorem steady_form_recorded_alike :
    ∃ flow flow' writer' inner',
      recordRequest formStorage formCodec formSettings
        (formPost [formLength 16] "k=0123456789abcd") freshWriter = (.ok flow, writer') ∧
      recordRequestWithSession formStorage formCodec formSettings
        (formPost [formLength 16] "k=0123456789abcd") freshSession = (.ok flow', inner') ∧
      SameRecord flow flow' := by
  have hwriter : (recordRequest formStorage formCodec formSettings
      (formPost [formLength 16] "k=0123456789abcd") freshWriter).1.isOk = true := by
    decide +kernel
  have hsession : (recordRequestWithSession formStorage formCodec formSettings
      (formPost [formLength 16] "k=0123456789abcd") freshSession).1.isOk = true := by
    decide +kernel
  obtain ⟨flow, writer', hflow⟩ := Op.exists_of_isOk hwriter
  obtain ⟨flow', inner', hflow'⟩ := Op.exists_of_isOk hsession
  refine ⟨flow, flow', writer', inner', hflow, hflow', ?_⟩
  refine (recorders_agree_iff (sameTransaction_refl _) rfl (formPost_heeds _ _) hflow
    hflow').mpr ?_
  have htransform : transformBody formCodec
      (takenBody freshWriter.limits.maxBlobBytes pushNothing
        (formPost [formLength 16] "k=0123456789abcd")).content
      (contentType (formPost [formLength 16] "k=0123456789abcd").headers)
      formSettings.redaction formSettings.profileId false =
      .ok (redactedForm, [⟨"request.body.form:k", "default"⟩]) := by
    decide +kernel
  intro clean markers hclean _
  rw [htransform] at hclean
  cases hclean
  refine ⟨[⟨"content-type", "application/x-www-form-urlencoded"⟩], ?_, ?_⟩
  · decide
  · decide

/-- The form `k=v` keeps the length 3 in one record and has the length 16 in the other. -/
theorem form_recorded_differently :
    ¬∀ (storage : Codec) (codec : BodyCodec Nat) (settings : Settings) (x y : Exchange)
      (writer writer' : SessionWriter) (inner inner' : RecordingInner) (flow flow' : Flow),
      SameTransaction x y → writer.limits.maxBlobBytes = inner.limits.maxBlobBytes →
      Heeds inner.limits.maxBlobBytes pushStreamEventInner .start y.polled →
      recordRequest storage codec settings x writer = (.ok flow, writer') →
      recordRequestWithSession storage codec settings y inner = (.ok flow', inner') →
      SameRecord flow flow' := by
  intro h
  have hwriter : ((recordRequest formStorage formCodec formSettings
      (formPost [formLength 3] "k=v") freshWriter).1.map fun flow => flow.request.headers) =
      .ok [⟨"content-type", "application/x-www-form-urlencoded"⟩, ⟨"content-length", "3"⟩] := by
    decide +kernel
  have hsession : ((recordRequestWithSession formStorage formCodec formSettings
      (formPost [formLength 3] "k=v") freshSession).1.map fun flow => flow.request.headers) =
      .ok [⟨"content-type", "application/x-www-form-urlencoded"⟩, ⟨"content-length", "16"⟩] := by
    decide +kernel
  rcases hflow : recordRequest formStorage formCodec formSettings (formPost [formLength 3] "k=v")
    freshWriter with ⟨error | flow, writer'⟩
  · rw [hflow] at hwriter
    cases hwriter
  rcases hflow' : recordRequestWithSession formStorage formCodec formSettings
    (formPost [formLength 3] "k=v") freshSession with ⟨error | flow', inner'⟩
  · rw [hflow'] at hsession
    cases hsession
  rw [hflow] at hwriter
  rw [hflow'] at hsession
  have hsame := h _ _ _ _ _ _ _ _ _ _ _ (sameTransaction_refl _) rfl (formPost_heeds _ _) hflow
    hflow'
  have hheaders := congrArg (fun flow => flow.request.headers) hsame.fields
  have hkept := Except.ok.inj hwriter
  have hreconciled := Except.ok.inj hsession
  dsimp only at hheaders hkept hreconciled
  rw [hkept, hreconciled] at hheaders
  exact absurd hheaders (by decide)

end EggReplay.Http.RecorderAgreement
