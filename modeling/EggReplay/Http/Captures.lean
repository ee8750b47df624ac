import EggReplay.Http.Recorder
import EggReplay.Store.BlobContents

/-!
What a recorder makes of a transaction, whatever store it records into: a pure function of
the transaction, the settings and the store's blob limit. Both recorders refine it.
-/

namespace EggReplay.Http.Captures

open EggReplay.Library.Checks
open EggReplay.Library.Text
open EggReplay.Library.Stateful
open EggReplay.Core.FlowRecord
open EggReplay.Core.StreamTimeline
open EggReplay.Core.Redaction
open EggReplay.Store.Fixture
open EggReplay.Store.Staging
open EggReplay.Store.Recording
open EggReplay.Store.Writer
open EggReplay.Store.BlobContents
open EggReplay.Http.StreamEventCapture
open EggReplay.Http.Transaction
open EggReplay.Http.Recorder

variable {N σ ρ : Type}

/-! ### The request body -/

/-- What the tee has of the frames that it gave on. -/
structure Taken where
  content : Bytes
  trailers : List HeaderEntry
  events : List StreamEvent
  offset : Nat
  given : Bool

def Taken.start : Taken where
  content := []
  trailers := []
  events := []
  offset := 0
  given := true

def Taken.frame (maxBlobBytes : Nat) (push : Push) (taken : Taken) (frame : TimedFrame) :
    Taken :=
  if taken.given = false then taken
  else
    match frame.content with
    | .data bytes =>
        match grow maxBlobBytes taken.content bytes with
        | .error _ => { taken with given := false }
        | .ok content =>
            match push taken.events ⟨frame.deltaNs, .data taken.offset bytes.length⟩ with
            | .error _ => { taken with content := content, given := false }
            | .ok events =>
                { taken with
                  content := content
                  events := events
                  offset := saturatingAdd taken.offset bytes.length }
    | .trailers fields =>
        let entries := (headerEntries fields).1
        let taken := { taken with trailers := taken.trailers ++ entries }
        match push taken.events ⟨frame.deltaNs, .trailers entries⟩ with
        | .error _ => { taken with given := false }
        | .ok events => { taken with events := events }

def Taken.finish (push : Push) (taken : Taken) (ending : Option TimedEnd) : Taken :=
  match ending with
  | none => taken
  | some ending =>
      if taken.given = false then taken
      else
        { taken with
          events :=
            match push taken.events (requestEndEvent taken.offset ending) with
            | .ok events => events
            | .error _ => taken.events }

def takenBody (maxBlobBytes : Nat) (push : Push) (exchange : Exchange) : Taken :=
  (exchange.polled.foldl (Taken.frame maxBlobBytes push) .start).finish push exchange.requestEnd

/-! ### The end of a body -/

/-- A body with the content that is filed for it. -/
structure Filed where
  content : Bytes
  body : BodyRef
  markers : List RedactionMarker

def filed (storage : Codec) (content : Bytes) (markers : List RedactionMarker) :
    Except HttpError Filed := do
  let body ← (reference storage content).mapError .store
  pure { content, body, markers }

/-- The content after the transform, under the reference that it is filed with. -/
def filedTransformed (storage : Codec) (maxBlobBytes : Nat)
    (transformed : Bytes × List RedactionMarker) : Except HttpError Filed :=
  if transformed.1 = [] then pure { content := [], body := .empty, markers := transformed.2 }
  else do
    let content ← (grow maxBlobBytes [] transformed.1).mapError
      fun error => HttpError.body (ioMessage error)
    filed storage content transformed.2

def filedStaged (storage : Codec) (codec : BodyCodec N) (settings : Settings)
    (maxBlobBytes : Nat) (isResponse : Bool) (refusal : String) (contentType : Option String)
    (content : Bytes) : Except HttpError Filed :=
  if content = [] then filed storage content []
  else if settings.redaction.wantsBodyRedaction = false then filed storage content []
  else if needsTransform settings.redaction contentType = false then
    if settings.redaction.jsonPaths ≠ ∅ then .error (.body refusal)
    else filed storage content []
  else do
    let raw ← (boundedContent settings.maxStructuredBytes content).mapError
      fun error => HttpError.body error.display
    let transformed ← transformBody codec raw contentType settings.redaction settings.profileId
      isResponse
    filedTransformed storage maxBlobBytes transformed

def filedRequest (storage : Codec) (codec : BodyCodec N) (settings : Settings)
    (maxBlobBytes : Nat) (contentType : Option String) (content : Bytes) :
    Except HttpError Filed :=
  filedStaged storage codec settings maxBlobBytes false
    "body redaction requested but media type unsupported; failing closed" contentType content

def filedResponse (storage : Codec) (codec : BodyCodec N) (settings : Settings)
    (maxBlobBytes : Nat) (contentType : Option String) (content : Bytes) :
    Except HttpError Filed :=
  filedStaged storage codec settings maxBlobBytes true
    "response body redaction requested but media type unsupported; failing closed" contentType
    content

/-! ### The response -/

structure Received where
  content : Bytes
  trailers : List HeaderEntry
  events : List StreamEvent
  offset : Nat

def Received.start : Received where
  content := []
  trailers := []
  events := []
  offset := 0

def Received.frame (maxBlobBytes : Nat) (received : Received) (frame : TimedFrame) :
    Except HttpError Received := do
  match frame.content with
  | .data bytes => do
      let content ← (grow maxBlobBytes received.content bytes).mapError
        fun error => HttpError.body (ioMessage error)
      let events ← pushStreamEvent received.events
        ⟨frame.deltaNs, .data received.offset bytes.length⟩
      pure
        { received with
          content := content
          events := events
          offset := saturatingAdd received.offset bytes.length }
  | .trailers fields => do
      let entries := (headerEntries fields).1
      let events ← pushStreamEvent received.events ⟨frame.deltaNs, .trailers entries⟩
      pure { received with trailers := entries, events := events }

def receivedBody (maxBlobBytes : Nat) (reply : Reply) : Except HttpError Received := do
  let received ← checkFold (Received.frame maxBlobBytes) .start reply.frames
  let events ← pushStreamEvent received.events (responseEndEvent received.offset reply.ending)
  pure { received with events := events }

/-- An outcome with the content that is filed for it. -/
structure FiledOutcome where
  content : Bytes
  observed : Observed

/-- `observeResponse` of what was received. -/
def Received.observe (received : Received) (reply : Reply) (settings : Settings)
    (body : BodyRef) (markers : List RedactionMarker) : Observed :=
  observeResponse reply settings
    { sink := BodyWriter.open 0 0
      trailers := received.trailers
      events := received.events
      offset := received.offset } body markers

def filedOutcome (storage : Codec) (codec : BodyCodec N) (settings : Settings)
    (maxBlobBytes : Nat) (exchange : Exchange) : Except HttpError FiledOutcome :=
  match exchange.result with
  | .error failure =>
      pure
        { content := []
          observed :=
            { outcome := .error failure, transportNote := none, markers := [], events := [] } }
  | .ok reply => do
      let received ← receivedBody maxBlobBytes reply
      let stored ← filedResponse storage codec settings maxBlobBytes (contentType reply.headers)
        received.content
      pure
        { content := stored.content
          observed := received.observe reply settings stored.body stored.markers }

/-! ### The capture -/

/-- A capture with the contents that are filed for it. -/
structure Captured where
  requestContent : Bytes
  responseContent : Bytes
  capture : Capture

/-- The record of a request, before its markers are put to it. -/
def capturedFlow (settings : Settings) (exchange : Exchange) (head : HttpRequest)
    (taken : Taken) (stored : Filed) (observed : Observed) : Flow :=
  redactFlow
    (observedFlow exchange { head with body := stored.body, trailers := taken.trailers }
      observed.outcome observed.transportNote)
    settings.redaction settings.profileId

def capturedTaken (storage : Codec) (codec : BodyCodec N) (settings : Settings)
    (maxBlobBytes : Nat) (exchange : Exchange) (converted : RecordedRequest) (taken : Taken) :
    Except HttpError Captured := do
  let stored ← filedRequest storage codec settings maxBlobBytes (contentType exchange.headers)
    taken.content
  let outcome ← filedOutcome storage codec settings maxBlobBytes exchange
  pure
    { requestContent := stored.content
      responseContent := outcome.content
      capture :=
        { flow := capturedFlow settings exchange converted.request taken stored outcome.observed
          markers := stored.markers ++ outcome.observed.markers
          lossyHeaderValues := converted.lossyHeaderValues
          requestEvents := taken.events
          responseEvents :=
            reconcileStreamEventBodyLength outcome.observed.events outcome.observed.outcome } }

def captured (storage : Codec) (push : Push) (codec : BodyCodec N) (settings : Settings)
    (maxBlobBytes : Nat) (exchange : Exchange) : Except HttpError Captured := do
  let converted ← requestHead codec exchange.method exchange.uri exchange.headers
  capturedTaken storage codec settings maxBlobBytes exchange converted
    (takenBody maxBlobBytes push exchange)

/-! ### What a capture consists of -/

section

variable {storage : Codec} {codec : BodyCodec N} {settings : Settings} {maxBlobBytes : Nat}

theorem needsTransform_iff {config : RedactionConfig} {contentType : Option String} :
    needsTransform config contentType = true ↔
      config.jsonPaths ≠ ∅ ∧ isJsonContentType contentType = true ∨
        config.queryKeys ≠ ∅ ∧ isFormContentType contentType = true := by
  simp [needsTransform]

theorem needsTransform_of_wants {config : RedactionConfig} {contentType : Option String}
    (h : config.wantsBodyRedaction = false) : needsTransform config contentType = false := by
  simp only [RedactionConfig.wantsBodyRedaction, Bool.or_eq_false_iff,
    decide_eq_false_iff_not, not_not] at h
  simp [needsTransform, h.1, h.2]

/-- A body that no selector is for is kept, where no JSON pointer is configured. -/
theorem transformBody_untransformed {content : Bytes} {config : RedactionConfig}
    {contentType : Option String} {profile : String} {isResponse : Bool}
    (hneeds : needsTransform config contentType = false) (hpaths : config.jsonPaths = ∅) :
    transformBody codec content contentType config profile isResponse = .ok (content, []) := by
  have hform : ¬(config.queryKeys ≠ ∅ ∧ isFormContentType contentType = true) := by
    intro hform
    rw [needsTransform_iff.mpr (.inr hform)] at hneeds
    cases hneeds
  rw [transformBody]
  by_cases hempty : content = []
  · rw [if_pos hempty, hempty]
    rfl
  · rw [if_neg hempty, if_neg (fun h => h.1 hpaths), if_neg hform, if_neg (fun h => h hpaths)]
    rfl

theorem filed_eq_ok {content : Bytes} {markers : List RedactionMarker} {stored : Filed}
    (h : filed storage content markers = .ok stored) :
    stored.content = content ∧ stored.markers = markers ∧
      reference storage content = .ok stored.body := by
  simp only [filed, bind_eq_ok, mapError_eq_ok, pure_eq_ok] at h
  obtain ⟨body, hbody, rfl⟩ := h
  exact ⟨rfl, rfl, hbody⟩

/-- What is filed for a body is what the transform makes of it, under its reference. -/
theorem filedStaged_eq_ok {isResponse : Bool} {refusal : String} {contentType : Option String}
    {content : Bytes} {stored : Filed}
    (h : filedStaged storage codec settings maxBlobBytes isResponse refusal contentType content =
      .ok stored) :
    transformBody codec content contentType settings.redaction settings.profileId isResponse =
        .ok (stored.content, stored.markers) ∧
      reference storage stored.content = .ok stored.body ∧
      stored.content.length ≤ max content.length u64Max := by
  have hplain : ∀ stored : Filed, filed storage content [] = .ok stored →
      transformBody codec content contentType settings.redaction settings.profileId isResponse =
        .ok (content, []) →
      transformBody codec content contentType settings.redaction settings.profileId isResponse =
        .ok (stored.content, stored.markers) ∧
      reference storage stored.content = .ok stored.body ∧
      stored.content.length ≤ max content.length u64Max := by
    intro stored hfiled htransform
    obtain ⟨hcontent, hmarkers, hbody⟩ := filed_eq_ok hfiled
    rw [hcontent, hmarkers]
    exact ⟨htransform, hbody, le_max_left _ _⟩
  rw [filedStaged] at h
  split at h
  · rename_i hempty
    apply hplain stored h
    rw [transformBody, if_pos hempty, hempty]
    rfl
  split at h
  · rename_i hwants
    have hpaths : settings.redaction.jsonPaths = ∅ := by
      simp only [RedactionConfig.wantsBodyRedaction, Bool.or_eq_false_iff,
        decide_eq_false_iff_not, not_not] at hwants
      exact hwants.1
    exact hplain stored h (transformBody_untransformed (needsTransform_of_wants hwants) hpaths)
  split at h
  · rename_i hneeds
    split at h
    · cases h
    · rename_i hpaths
      exact hplain stored h (transformBody_untransformed hneeds (not_not.mp hpaths))
  · simp only [bind_eq_ok, mapError_eq_ok, boundedContent, pure_eq_ok] at h
    obtain ⟨raw, ⟨_, -, rfl⟩, transformed, htransform, hfiled⟩ := h
    rw [filedTransformed] at hfiled
    split at hfiled
    · rename_i hcleared
      cases hfiled
      refine ⟨?_, rfl, Nat.zero_le _⟩
      rw [htransform, ← hcleared]
    · simp only [bind_eq_ok, mapError_eq_ok] at hfiled
      obtain ⟨longer, hgrow, hfiled⟩ := hfiled
      obtain ⟨hcontent, hmarkers, hbody⟩ := filed_eq_ok hfiled
      rw [hcontent, hmarkers]
      refine ⟨?_, hbody, (grow_length_le hgrow).trans (le_max_right _ _)⟩
      rw [htransform, grow_eq_ok hgrow]
      rfl

/-- The last steps set the headers of the request, the markers and the notes, and nothing
else. -/
theorem finishSessionFlow_fields (capture : Capture) (profile : String) :
    ∃ headers redactions annotations, finishSessionFlow capture profile =
      { capture.flow with
        request := { capture.flow.request with headers := headers }
        redactions := redactions
        annotations := annotations } := by
  rw [finishSessionFlow, noteLossyHeaders]
  split
  · split
    · exact ⟨_, _, _, rfl⟩
    · exact ⟨_, _, _, rfl⟩
  · split
    · exact ⟨_, _, _, rfl⟩
    · exact ⟨_, _, _, rfl⟩

@[simp] theorem finishSessionFlow_id (capture : Capture) (profile : String) :
    (finishSessionFlow capture profile).id = capture.flow.id := by
  obtain ⟨headers, redactions, annotations, hflow⟩ := finishSessionFlow_fields capture profile
  rw [hflow]

@[simp] theorem finishSessionFlow_outcome (capture : Capture) (profile : String) :
    (finishSessionFlow capture profile).outcome = capture.flow.outcome := by
  obtain ⟨headers, redactions, annotations, hflow⟩ := finishSessionFlow_fields capture profile
  rw [hflow]

theorem requestHead_eq_ok {method : String} {uri : Uri} {headers : HeaderMap}
    {converted : RecordedRequest}
    (h : requestHead codec method uri headers = .ok converted) :
    ∃ scheme authority, uri.scheme = some scheme ∧ uri.authority = some authority ∧
      converted =
        { request :=
            { method := method
              scheme := scheme
              authority := withoutUserinfo authority
              path := uri.path
              query := (uri.query.map (parseQuery codec)).getD []
              headers := (headerEntries headers).1
              body := .absent
              trailers := [] }
          lossyHeaderValues := (headerEntries headers).2 } := by
  simp only [requestHead, bind_eq_ok, orFail_eq_ok, pure_eq_ok] at h
  obtain ⟨scheme, hscheme, authority, hauthority, rfl⟩ := h
  exact ⟨scheme, authority, hscheme, hauthority, rfl⟩

/-- The parts of a capture. -/
structure CapturedFrom (storage : Codec) (push : Push) (codec : BodyCodec N)
    (settings : Settings) (maxBlobBytes : Nat) (exchange : Exchange) (done : Captured)
    (converted : RecordedRequest) (stored : Filed) (answer : FiledOutcome) : Prop where
  head : requestHead codec exchange.method exchange.uri exchange.headers = .ok converted
  request : filedRequest storage codec settings maxBlobBytes (contentType exchange.headers)
    (takenBody maxBlobBytes push exchange).content = .ok stored
  outcome : filedOutcome storage codec settings maxBlobBytes exchange = .ok answer
  requestContent : done.requestContent = stored.content
  responseContent : done.responseContent = answer.content
  flow : done.capture.flow = capturedFlow settings exchange converted.request
    (takenBody maxBlobBytes push exchange) stored answer.observed
  markers : done.capture.markers = stored.markers ++ answer.observed.markers
  lossy : done.capture.lossyHeaderValues = converted.lossyHeaderValues
  requestEvents : done.capture.requestEvents = (takenBody maxBlobBytes push exchange).events
  responseEvents : done.capture.responseEvents =
    reconcileStreamEventBodyLength answer.observed.events answer.observed.outcome

theorem captured_eq_ok {push : Push} {exchange : Exchange} {done : Captured}
    (h : captured storage push codec settings maxBlobBytes exchange = .ok done) :
    ∃ converted stored outcome, CapturedFrom storage push codec settings maxBlobBytes exchange
      done converted stored outcome := by
  simp only [captured, capturedTaken, bind_eq_ok, pure_eq_ok] at h
  obtain ⟨converted, hhead, stored, hrequest, outcome, houtcome, rfl⟩ := h
  exact ⟨converted, stored, outcome, hhead, hrequest, houtcome, rfl, rfl, rfl, rfl, rfl, rfl, rfl⟩

end

/-! ### Stores that keep what they are given -/

/-- From a state with `base` published, a store keeps the content of the one open sink in
`Holds`, publishes it on `finish`, and forgets it on `drop`; no other operation on bodies
touches what `view` shows. -/
structure Faithful (store : BodyStore σ) (storage : Codec) (maxBlobBytes : Nat) (view : σ → ρ)
    (Ready : Contents → σ → Prop) (Holds : Contents → BodyWriter → Bytes → σ → Prop) :
    Prop where
  length : ∀ base sink content s, Holds base sink content s → sink.length = content.length
  begins : ∀ base, Refines view (Ready base) (fun sink _ s => Holds base sink [] s)
    (fun _ => True) store.beginBlob (.ok ())
  writes : ∀ base sink content buffer, Refines view (Holds base sink content) (Holds base)
    (Holds base sink content) (store.writeAll sink buffer) (grow maxBlobBytes content buffer)
  reads : ∀ base sink content maxBytes, Refines view (Holds base sink content)
    (fun bytes bytes' s => bytes = bytes' ∧ Holds base sink content s)
    (Holds base sink content) (store.readStagingBounded sink maxBytes)
    (boundedContent maxBytes content)
  finishes : ∀ base sink content, Refines view (Holds base sink content)
    (fun body body' s => body = body' ∧ Ready (base.file storage content) s) (fun _ => True)
    (store.finish sink) (reference storage content)
  drops : ∀ base sink content s, Holds base sink content s → Ready base (store.drop sink s)
  dropView : ∀ sink s, view (store.drop sink s) = view s

section

variable {store : BodyStore σ} {storage : Codec} {maxBlobBytes : Nat} {view : σ → ρ}
  {Ready : Contents → σ → Prop} {Holds : Contents → BodyWriter → Bytes → σ → Prop}

/-- The tee and the sink that it writes to have what the pure tee has. -/
structure Tees (Holds : Contents → BodyWriter → Bytes → σ → Prop) (base : Contents)
    (tee : TeeState) (taken : Taken) (s : σ) : Prop where
  holds : Holds base tee.sink taken.content s
  trailers : tee.trailers = taken.trailers
  events : tee.events = taken.events
  offset : tee.offset = taken.offset
  given : tee.given = taken.given

theorem teeFrame_refines (faithful : Faithful store storage maxBlobBytes view Ready Holds)
    (push : Push) (base : Contents) (tee : TeeState) (taken : Taken) (frame : TimedFrame) :
    Refines view (Tees Holds base tee taken) (Tees Holds base) (fun _ => True)
      (teeFrame store push tee frame) (.ok (taken.frame maxBlobBytes push frame)) := by
  rcases tee with ⟨sink, trailers, events, offset, given⟩
  rcases taken with ⟨content, trailers', events', offset', given'⟩
  apply refines_of_pre (q := trailers = trailers' ∧ events = events' ∧ offset = offset' ∧
    given = given')
  · exact fun s hs => ⟨hs.trailers, hs.events, hs.offset, hs.given⟩
  rintro ⟨rfl, rfl, rfl, rfl⟩
  rw [teeFrame, Taken.frame]
  rcases given with _ | _
  · exact refines_pure fun s hs => hs
  · rcases frame with ⟨deltaNs, bytes | fields⟩
    · let settled : Except StoreError Bytes → Taken := fun grown =>
        match grown with
        | .error _ => ⟨content, trailers, events, offset, false⟩
        | .ok longer =>
            match push events ⟨deltaNs, .data offset bytes.length⟩ with
            | .error _ => ⟨longer, trailers, events, offset, false⟩
            | .ok events => ⟨longer, trailers, events, saturatingAdd offset bytes.length, true⟩
      have hwrite := (faithful.writes base sink content bytes).weaken
        (fun s (hs : Tees Holds base ⟨sink, trailers, events, offset, true⟩
          ⟨content, trailers, events, offset, true⟩ s) => hs.holds) (fun _ _ _ h => h)
        (fun _ h => h)
      show Refines view _ _ _ _ ((Except.ok (grow maxBlobBytes content bytes) :
        Except HttpError (Except StoreError Bytes)) >>= fun grown => .ok (settled grown))
      refine Refines.bind hwrite.attempt ?_
      rintro (e | next) (e' | longer)
      · exact refines_pure fun s hs => ⟨hs.2, rfl, rfl, rfl, rfl⟩
      · exact fun s hs => hs.elim
      · exact fun s hs => hs.elim
      · dsimp only [settled]
        rcases push events ⟨deltaNs, .data offset bytes.length⟩ with e | events
        · exact refines_pure fun s hs => ⟨hs, rfl, rfl, rfl, rfl⟩
        · exact refines_pure fun s hs => ⟨hs, rfl, rfl, rfl, rfl⟩
    · dsimp only
      rcases push events ⟨deltaNs, .trailers (headerEntries fields).1⟩ with e | events
      · exact refines_pure fun s hs => ⟨hs.holds, rfl, rfl, rfl, rfl⟩
      · exact refines_pure fun s hs => ⟨hs.holds, rfl, rfl, rfl, rfl⟩

theorem TeeState.finish_tees {base : Contents} {tee : TeeState} {taken : Taken} {s : σ}
    (h : Tees Holds base tee taken s) (push : Push) (ending : Option TimedEnd) :
    Tees Holds base (tee.finish push ending) (taken.finish push ending) s := by
  rcases tee with ⟨sink, trailers, events, offset, given⟩
  rcases taken with ⟨content, trailers', events', offset', given'⟩
  obtain ⟨hholds, rfl, rfl, rfl, rfl⟩ := h
  rcases ending with _ | ending
  · exact ⟨hholds, rfl, rfl, rfl, rfl⟩
  · rw [TeeState.finish, Taken.finish]
    rcases given with _ | _
    · exact ⟨hholds, rfl, rfl, rfl, rfl⟩
    · exact ⟨hholds, rfl, rfl, rfl, rfl⟩

theorem teeWith_refines (faithful : Faithful store storage maxBlobBytes view Ready Holds)
    (push : Push) (base : Contents) (sink : BodyWriter) (exchange : Exchange) :
    Refines view (Holds base sink []) (Tees Holds base) (fun _ => True)
      (teeWith store push sink exchange) (.ok (takenBody maxBlobBytes push exchange)) := by
  have hframes : Refines view (Tees Holds base (.start sink) .start) (Tees Holds base)
      (fun _ => True) (Op.fold (teeFrame store push) (.start sink) exchange.polled)
      (checkFold (fun taken frame => .ok (Taken.frame maxBlobBytes push taken frame)) .start
        exchange.polled) :=
    Refines.fold (fun tee taken frame => teeFrame_refines faithful push base tee taken frame)
      exchange.polled
  rw [checkFold_ok] at hframes
  rw [teeWith, takenBody]
  refine Refines.weaken (P := Tees Holds base (.start sink) .start) ?_ ?_ (fun _ _ _ h => h)
    (fun _ h => h)
  · show Refines view _ _ _ _ (Except.ok _ >>= fun taken : Taken =>
      (Except.ok (taken.finish push exchange.requestEnd) : Except HttpError Taken))
    refine Refines.bind hframes ?_
    intro tee taken
    exact refines_pure fun s hs => TeeState.finish_tees hs push exchange.requestEnd
  · exact fun s hs => ⟨hs, rfl, rfl, rfl, rfl⟩

/-! ### The end of a body in a store -/

theorem publish_refines (faithful : Faithful store storage maxBlobBytes view Ready Holds)
    (base : Contents) (sink : BodyWriter) (content : Bytes) (markers : List RedactionMarker) :
    Refines view (Holds base sink content)
      (fun stored end' s => stored.1 = end'.body ∧ stored.2 = end'.markers ∧
        Ready (base.file storage end'.content) s) (fun _ => True)
      ((store.finish sink).mapError HttpError.store >>= fun body => pure (body, markers))
      (filed storage content markers) := by
  refine Refines.bind (faithful.finishes base sink content).mapError ?_
  intro body body'
  exact refines_pure fun s hs => ⟨hs.1, rfl, hs.2⟩

theorem writeBody_refines (faithful : Faithful store storage maxBlobBytes view Ready Holds)
    (base : Contents) (sink : BodyWriter) (content buffer : Bytes) :
    Refines view (Holds base sink content) (Holds base) (Holds base sink content)
      (writeBody store sink buffer)
      ((grow maxBlobBytes content buffer).mapError fun error => HttpError.body (ioMessage error)) :=
  (faithful.writes base sink content buffer).mapError

/-- A sink that is dropped leaves the store as it was before the sink. -/
theorem discard_refines {α β : Type}
    (faithful : Faithful store storage maxBlobBytes view Ready Holds) (base : Contents)
    (sink : BodyWriter) (content : Bytes) {R : α → β → σ → Prop} {F : σ → Prop}
    {next : Unit → Op HttpError σ α} {p : Except HttpError β}
    (h : ∀ u, Refines view (Ready base) R F (next u) p) :
    Refines view (Holds base sink content) R F (Op.modify (store.drop sink) >>= next) p := by
  have hdrop : Refines view (Holds base sink content) (fun _ _ s => Ready base s) F
      (Op.modify (store.drop sink) : Op HttpError σ Unit) (.ok ()) :=
    refines_modify (fun s _ => faithful.dropView sink s) (faithful.drops base sink content)
  show Refines view _ _ _ _ ((Except.ok () : Except HttpError Unit) >>= fun _ => p)
  exact Refines.bind hdrop fun u _ => h u

theorem transformed_refines (faithful : Faithful store storage maxBlobBytes view Ready Holds)
    (base : Contents) (transformed : Bytes × List RedactionMarker) :
    Refines view (Ready base)
      (fun stored end' s => stored.1 = end'.body ∧ stored.2 = end'.markers ∧
        Ready (base.file storage end'.content) s) (fun _ => True)
      (if transformed.1 = [] then pure (.empty, transformed.2)
      else do
        let fresh ← store.beginBlob.mapError .store
        let fresh ← (writeBody store fresh transformed.1).onFailure (store.drop fresh)
        let body ← (store.finish fresh).mapError .store
        pure (body, transformed.2))
      (filedTransformed storage maxBlobBytes transformed) := by
  rw [filedTransformed]
  refine Refines.ite (fun _ => ?_) fun _ => ?_
  · exact refines_pure fun s hs => ⟨rfl, rfl, hs⟩
  · show Refines view _ _ _ _ ((Except.ok () : Except HttpError Unit) >>= fun _ => _)
    refine Refines.bind (faithful.begins base).mapError ?_
    intro fresh _
    refine Refines.bind ((writeBody_refines faithful base fresh [] transformed.1).onFailure
      (fun _ _ => trivial) (faithful.dropView fresh)) ?_
    intro longer content
    exact publish_refines faithful base longer content transformed.2

theorem finishStaged_refines (faithful : Faithful store storage maxBlobBytes view Ready Holds)
    (codec : BodyCodec N) (settings : Settings) (isResponse : Bool) (refusal : String)
    (contentType : Option String) (base : Contents) (sink : BodyWriter) (content : Bytes) :
    Refines view (Holds base sink content)
      (fun stored end' s => stored.1 = end'.body ∧ stored.2 = end'.markers ∧
        Ready (base.file storage end'.content) s) (fun _ => True)
      (finishStaged store codec settings isResponse refusal contentType sink)
      (filedStaged storage codec settings maxBlobBytes isResponse refusal contentType
        content) := by
  apply refines_of_pre (faithful.length base sink content)
  intro hlength
  have hempty : sink.length = 0 ↔ content = [] := by
    rw [hlength, List.length_eq_zero_iff]
  rw [finishStaged, filedStaged]
  simp only [hempty]
  refine Refines.ite (fun _ => publish_refines faithful base sink content []) fun hcontent => ?_
  refine Refines.ite (fun _ => publish_refines faithful base sink content []) fun _ => ?_
  refine Refines.ite (fun _ => ?_) fun _ => ?_
  · refine Refines.ite (fun _ => ?_) fun _ => publish_refines faithful base sink content []
    exact discard_refines faithful base sink content fun _ => refines_fail fun _ _ => trivial
  · have hread := (faithful.reads base sink content settings.maxStructuredBytes).mapError
      (f := fun error => HttpError.body error.display)
    refine Refines.bind (hread.onFailure (fun _ _ => trivial) (faithful.dropView sink)) ?_
    intro raw raw'
    apply refines_of_pre (q := raw = raw') fun s hs => hs.1
    rintro rfl
    refine Refines.weaken (P := Holds base sink content) ?_ (fun s hs => hs.2)
      (fun _ _ _ h => h) (fun _ h => h)
    refine discard_refines faithful base sink content fun _ => ?_
    refine Refines.bind (refines_ofExcept fun _ _ => trivial) ?_
    intro transformed transformed'
    apply refines_of_pre (q := transformed = transformed') fun s hs => hs.1
    rintro rfl
    refine Refines.weaken (P := Ready base) ?_ (fun s hs => hs.2)
      (fun _ _ _ h => h) (fun _ h => h)
    exact transformed_refines faithful base transformed

/-! ### The response in a store -/

/-- The loop and the sink that it writes to have what was received. -/
structure Receives (Holds : Contents → BodyWriter → Bytes → σ → Prop) (base : Contents)
    (state : ResponseState) (received : Received) (s : σ) : Prop where
  holds : Holds base state.sink received.content s
  trailers : state.trailers = received.trailers
  events : state.events = received.events
  offset : state.offset = received.offset

theorem responseFrame_refines (faithful : Faithful store storage maxBlobBytes view Ready Holds)
    (base : Contents) (state : ResponseState) (received : Received) (frame : TimedFrame) :
    Refines view (Receives Holds base state received) (Receives Holds base) (fun _ => True)
      (responseFrame store state frame) (received.frame maxBlobBytes frame) := by
  rcases state with ⟨sink, trailers, events, offset⟩
  rcases received with ⟨content, trailers', events', offset'⟩
  apply refines_of_pre (q := trailers = trailers' ∧ events = events' ∧ offset = offset')
  · exact fun s hs => ⟨hs.trailers, hs.events, hs.offset⟩
  rintro ⟨rfl, rfl, rfl⟩
  refine Refines.weaken (P := Holds base sink content) ?_ (fun s hs => hs.holds)
    (fun _ _ _ h => h) (fun _ h => h)
  rcases frame with ⟨deltaNs, bytes | fields⟩
  · refine Refines.bind ((writeBody_refines faithful base sink content bytes).weaken
      (fun _ h => h) (fun _ _ _ h => h) fun _ _ => trivial) ?_
    intro longer longerContent
    refine Refines.bind (refines_ofExcept fun _ _ => trivial) ?_
    intro pushed pushed'
    exact refines_pure fun s hs => ⟨hs.2, rfl, hs.1, rfl⟩
  · refine Refines.bind (refines_ofExcept fun _ _ => trivial) ?_
    intro pushed pushed'
    exact refines_pure fun s hs => ⟨hs.2, rfl, hs.1, rfl⟩

theorem responseLoop_refines (faithful : Faithful store storage maxBlobBytes view Ready Holds)
    (base : Contents) (sink : BodyWriter) (reply : Reply) :
    Refines view (Holds base sink []) (Receives Holds base) (fun _ => True)
      (responseLoop store sink reply) (receivedBody maxBlobBytes reply) := by
  have hframes : Refines view (Receives Holds base (.start sink) .start) (Receives Holds base)
      (fun _ => True) (Op.fold (responseFrame store) (.start sink) reply.frames)
      (checkFold (Received.frame maxBlobBytes) .start reply.frames) :=
    Refines.fold (fun state received frame =>
      responseFrame_refines faithful base state received frame) reply.frames
  refine Refines.weaken (P := Receives Holds base (.start sink) .start) ?_ ?_
    (fun _ _ _ h => h) (fun _ h => h)
  · refine Refines.bind hframes ?_
    rintro ⟨sink, trailers, events, offset⟩ ⟨content, trailers', events', offset'⟩
    apply refines_of_pre (q := trailers = trailers' ∧ events = events' ∧ offset = offset')
    · exact fun s hs => ⟨hs.trailers, hs.events, hs.offset⟩
    rintro ⟨rfl, rfl, rfl⟩
    refine Refines.bind (refines_ofExcept fun _ _ => trivial) ?_
    intro pushed pushed'
    exact refines_pure fun s hs => ⟨hs.2.holds, rfl, hs.1, rfl⟩
  · exact fun s hs => ⟨hs, rfl, rfl, rfl⟩

theorem recordOutcome_refines (faithful : Faithful store storage maxBlobBytes view Ready Holds)
    (codec : BodyCodec N) (settings : Settings) (exchange : Exchange) (base : Contents) :
    Refines view (Ready base)
      (fun observed outcome s => observed = outcome.observed ∧
        Ready (base.file storage outcome.content) s) (fun _ => True)
      (recordOutcome store codec settings exchange)
      (filedOutcome storage codec settings maxBlobBytes exchange) := by
  rw [recordOutcome, filedOutcome]
  rcases exchange.result with failure | reply
  · exact refines_pure fun s hs => ⟨rfl, hs⟩
  · show Refines view _ _ _ _ ((Except.ok () : Except HttpError Unit) >>= fun _ => _)
    refine Refines.bind (faithful.begins base).mapError ?_
    intro sink _
    refine Refines.bind ((responseLoop_refines faithful base sink reply).onFailure
      (fun _ _ => trivial) (faithful.dropView sink)) ?_
    rintro ⟨sink, trailers, events, offset⟩ ⟨content, trailers', events', offset'⟩
    apply refines_of_pre (q := trailers = trailers' ∧ events = events' ∧ offset = offset')
    · exact fun s hs => ⟨hs.trailers, hs.events, hs.offset⟩
    rintro ⟨rfl, rfl, rfl⟩
    refine Refines.weaken (P := Holds base sink content) ?_ (fun s hs => hs.holds)
      (fun _ _ _ h => h) (fun _ h => h)
    refine Refines.bind (finishStaged_refines faithful codec settings true _ _ base sink
      content) ?_
    rintro ⟨body, markers⟩ ⟨published, body', markers'⟩
    apply refines_of_pre (q := body = body' ∧ markers = markers') fun s hs => ⟨hs.1, hs.2.1⟩
    rintro ⟨rfl, rfl⟩
    exact refines_pure fun s hs => ⟨rfl, hs.2.2⟩

/-- Over a faithful store a recorder captures what the pure capture does, and publishes its
two contents. -/
theorem captureWith_refines (faithful : Faithful store storage maxBlobBytes view Ready Holds)
    (push : Push) (codec : BodyCodec N) (settings : Settings) (exchange : Exchange)
    (base : Contents) :
    Refines view (Ready base)
      (fun capture done s => capture = done.capture ∧
        Ready ((base.file storage done.requestContent).file storage done.responseContent) s)
      (fun _ => True) (captureWith store (teeWith store push) codec settings exchange)
      (captured storage push codec settings maxBlobBytes exchange) := by
  rw [captureWith, captured]
  refine Refines.bind (refines_ofExcept fun _ _ => trivial) ?_
  intro converted converted'
  apply refines_of_pre (q := converted = converted') fun s hs => hs.1
  rintro rfl
  refine Refines.weaken (P := Ready base) ?_ (fun s hs => hs.2) (fun _ _ _ h => h)
    (fun _ h => h)
  show Refines view _ _ _ _ ((Except.ok () : Except HttpError Unit) >>= fun _ => _)
  refine Refines.bind (faithful.begins base).mapError ?_
  intro sink _
  show Refines view _ _ _ _ ((Except.ok (takenBody maxBlobBytes push exchange) :
    Except HttpError Taken) >>=
      capturedTaken storage codec settings maxBlobBytes exchange converted)
  refine Refines.bind (teeWith_refines faithful push base sink exchange) ?_
  rintro ⟨sink, trailers, events, offset, given⟩ ⟨content, trailers', events', offset', given'⟩
  apply refines_of_pre (q := trailers = trailers' ∧ events = events') fun s hs =>
    ⟨hs.trailers, hs.events⟩
  rintro ⟨rfl, rfl⟩
  refine Refines.weaken (P := Holds base sink content) ?_ (fun s hs => hs.holds)
    (fun _ _ _ h => h) (fun _ h => h)
  refine Refines.bind (finishStaged_refines faithful codec settings false _ _ base sink
    content) ?_
  rintro ⟨body, markers⟩ ⟨published, body', markers'⟩
  apply refines_of_pre (q := body = body' ∧ markers = markers') fun s hs => ⟨hs.1, hs.2.1⟩
  rintro ⟨rfl, rfl⟩
  refine Refines.weaken (P := Ready (base.file storage published)) ?_ (fun s hs => hs.2.2)
    (fun _ _ _ h => h) (fun _ h => h)
  refine Refines.bind (recordOutcome_refines faithful codec settings exchange _) ?_
  intro observed outcome
  apply refines_of_pre (q := observed = outcome.observed) fun s hs => hs.1
  rintro rfl
  exact refines_pure fun s hs => ⟨rfl, hs.2⟩

end

/-! ### The session and the writer -/

/-- A session without what belongs to bodies: the blobs, their names and the sinks. -/
def records (inner : RecordingInner) : RecordingInner :=
  { inner with
    directory := { inner.directory with blobs := [] }
    nextSuffix := 0
    activeBlobs := 0 }

/-- A running session with the published contents `base`. -/
structure Running (maxBlobBytes : Nat) (base : Contents) (inner : RecordingInner) : Prop where
  shutdown : inner.shutdown = false
  limit : inner.limits.maxBlobBytes = maxBlobBytes
  contents : contents inner.directory = base

structure RunningSink (maxBlobBytes : Nat) (base : Contents) (sink : BodyWriter)
    (content : Bytes) (inner : RecordingInner) : Prop where
  running : Running maxBlobBytes base inner
  stages : Stages maxBlobBytes sink content inner.directory

theorem sessionStore_faithful (storage : Codec) (maxBlobBytes : Nat) :
    Faithful (sessionStore storage) storage maxBlobBytes records (Running maxBlobBytes)
      (RunningSink maxBlobBytes) where
  length base sink content inner h := h.stages.length
  begins base := by
    apply refines_ofStep_ok
    intro inner h
    have hbegin : inner.beginBlob =
        .ok (RecordingInner.reserveBlob { inner with toStaged := inner.createStagingFile.1 },
          BodyWriter.open inner.nextSuffix inner.limits.maxBlobBytes) := by
      rw [RecordingInner.beginBlob, RecordingInner.checkRunning, ensure_of_true h.shutdown]
      rfl
    refine ⟨_, _, hbegin, rfl, ⟨h.shutdown, h.limit, ?_⟩, ?_⟩
    · exact (contents_createBlob inner.directory inner.nextSuffix).trans h.contents
    · rw [h.limit]
      exact stages_open inner.nextSuffix
  writes base sink content buffer := by
    rcases hgrow : grow maxBlobBytes content buffer with error | longer
    · apply refines_ofStep_error
      intro inner h
      refine ⟨?_, h⟩
      rw [RecordingInner.writeBody, h.stages.write_error hgrow]
      rfl
    · apply refines_ofStep_ok
      intro inner h
      obtain ⟨next, hwrite, hnext⟩ := h.stages.write_ok hgrow
      have hstep : inner.writeBody sink buffer =
          .ok ({ inner with
            directory := inner.directory.extendBlob (.staging sink.suffix) buffer }, next) := by
        rw [RecordingInner.writeBody, hwrite]
        rfl
      refine ⟨_, _, hstep, rfl, ⟨h.running.shutdown, h.running.limit, ?_⟩, hnext⟩
      exact (contents_extendBlob inner.directory sink.suffix buffer).trans h.running.contents
  reads base sink content maxBytes :=
    refines_of_result (fun inner h => ⟨h.stages.readStagingBounded maxBytes, rfl⟩)
      (fun _ _ h _ => h) fun _ _ h _ => h
  finishes base sink content := by
    refine refines_of_result (fun inner h => ⟨h.stages.reference storage, ?_⟩) ?_
      fun _ _ _ _ => trivial
    · show records (inner.finishBody storage sink).1 = records inner
      rw [RecordingInner.finishBody, RecordingInner.releaseBlob, records, records]
      simp only [publish_files]
    · intro inner body h _
      refine ⟨h.running.shutdown, h.running.limit, ?_⟩
      rw [← h.running.contents]
      exact h.stages.contents_publish storage
  drops base sink content inner h :=
    ⟨h.running.shutdown, h.running.limit, (contents_drop sink _).trans h.running.contents⟩
  dropView sink inner := rfl

/-- A writer without what belongs to bodies. -/
def writerRecords (writer : SessionWriter) : SessionWriter :=
  { writer with
    directory := { writer.directory with blobs := [] }
    nextSuffix := 0 }

/-- A writer with the published contents `base`. -/
structure Writing (maxBlobBytes : Nat) (base : Contents) (writer : SessionWriter) : Prop where
  limit : writer.limits.maxBlobBytes = maxBlobBytes
  contents : contents writer.directory = base

structure WritingSink (maxBlobBytes : Nat) (base : Contents) (sink : BodyWriter)
    (content : Bytes) (writer : SessionWriter) : Prop where
  writing : Writing maxBlobBytes base writer
  stages : Stages maxBlobBytes sink content writer.directory

theorem writerStore_faithful (storage : Codec) (maxBlobBytes : Nat) :
    Faithful (writerStore storage) storage maxBlobBytes writerRecords (Writing maxBlobBytes)
      (WritingSink maxBlobBytes) where
  length base sink content writer h := h.stages.length
  begins base := by
    intro writer h
    refine ⟨rfl, ⟨h.limit, ?_⟩, ?_⟩
    · exact (contents_createBlob writer.directory writer.nextSuffix).trans h.contents
    · show Stages maxBlobBytes (BodyWriter.open writer.nextSuffix writer.limits.maxBlobBytes) []
        (writer.directory.createBlob (.staging writer.nextSuffix))
      rw [h.limit]
      exact stages_open writer.nextSuffix
  writes base sink content buffer := by
    rcases hgrow : grow maxBlobBytes content buffer with error | longer
    · apply refines_ofStep_error
      intro writer h
      refine ⟨?_, h⟩
      rw [h.stages.write_error hgrow]
      rfl
    · apply refines_ofStep_ok
      intro writer h
      obtain ⟨next, hwrite, hnext⟩ := h.stages.write_ok hgrow
      have hstep : ((sink.write writer.directory buffer).map fun written =>
          (SessionWriter.withDirectory writer written.1, written.2)) =
          .ok (SessionWriter.withDirectory writer
            (writer.directory.extendBlob (.staging sink.suffix) buffer), next) := by
        rw [hwrite]
        rfl
      refine ⟨_, _, hstep, rfl, ⟨h.writing.limit, ?_⟩, hnext⟩
      exact (contents_extendBlob writer.directory sink.suffix buffer).trans h.writing.contents
  reads base sink content maxBytes :=
    refines_of_result (fun writer h => ⟨h.stages.readStagingBounded maxBytes, rfl⟩)
      (fun _ _ h _ => h) fun _ _ h _ => h
  finishes base sink content := by
    refine refines_of_result (fun writer h => ⟨h.stages.reference storage, ?_⟩) ?_
      fun _ _ _ _ => trivial
    · show writerRecords (SessionWriter.withDirectory writer
        (sink.publish storage writer.directory)) = writerRecords writer
      rw [SessionWriter.withDirectory, writerRecords, writerRecords]
      simp only [publish_files]
    · intro writer body h _
      refine ⟨h.writing.limit, ?_⟩
      rw [← h.writing.contents]
      exact h.stages.contents_publish storage
  drops base sink content writer h :=
    ⟨h.writing.limit, (contents_drop sink _).trans h.writing.contents⟩
  dropView sink writer := rfl

/-! ### The two recorders -/

section

variable {storage : Codec} {codec : BodyCodec N} {settings : Settings} {exchange : Exchange}
  {maxBlobBytes : Nat} {base : Contents}

theorem publishRecord_of_flow_error {store : BodyStore σ} {flow : Flow}
    {events : FlowStreamEvents} {s next : σ} {error : StoreError}
    (h : store.appendFlow flow s = (.error error, next)) :
    publishRecord store flow events s = (.error (.store error), next) := by
  apply Op.bind_of_error
  rw [Op.mapError, h]
  rfl

theorem publishRecord_of_events_error {store : BodyStore σ} {flow : Flow}
    {events : FlowStreamEvents} {s flowed next : σ} {error : StoreError}
    (hflow : store.appendFlow flow s = (.ok (), flowed))
    (h : store.appendStreamEvents events flowed = (.error error, next)) :
    publishRecord store flow events s = (.error (.store error), next) := by
  have hfirst : ((store.appendFlow flow).mapError HttpError.store) s = (.ok (), flowed) := by
    rw [Op.mapError, hflow]
    rfl
  rw [publishRecord, Op.bind_of_ok hfirst]
  apply Op.bind_of_error
  rw [Op.mapError, h]
  rfl

theorem publishRecord_of_ok {store : BodyStore σ} {flow : Flow} {events : FlowStreamEvents}
    {s flowed next : σ} (hflow : store.appendFlow flow s = (.ok (), flowed))
    (h : store.appendStreamEvents events flowed = (.ok (), next)) :
    publishRecord store flow events s = (.ok flow, next) := by
  have hfirst : ((store.appendFlow flow).mapError HttpError.store) s = (.ok (), flowed) := by
    rw [Op.mapError, hflow]
    rfl
  have hsecond : ((store.appendStreamEvents events).mapError HttpError.store) flowed =
      (.ok (), next) := by
    rw [Op.mapError, h]
    rfl
  rw [publishRecord, Op.bind_of_ok hfirst, Op.bind_of_ok hsecond]
  rfl

/-- A published record is the flow that was to be published. -/
theorem publishRecord_eq_ok {store : BodyStore σ} {flow result : Flow}
    {events : FlowStreamEvents} {s next : σ}
    (h : publishRecord store flow events s = (.ok result, next)) :
    result = flow ∧ ∃ flowed, store.appendFlow flow s = (.ok (), flowed) ∧
      store.appendStreamEvents events flowed = (.ok (), next) := by
  rcases hflow : store.appendFlow flow s with ⟨error | ⟨⟩, flowed⟩
  · rw [publishRecord_of_flow_error hflow] at h
    cases h
  · rcases hevents : store.appendStreamEvents events flowed with ⟨error | ⟨⟩, last⟩
    · rw [publishRecord_of_events_error hflow hevents] at h
      cases h
    · rw [publishRecord_of_ok hflow hevents] at h
      cases h
      exact ⟨rfl, flowed, rfl, hevents⟩

/-- The recorder over a faithful store fails as the pure capture does, or publishes what it
captures. -/
theorem captureWith_run {store : BodyStore σ} {view : σ → ρ} {Ready : Contents → σ → Prop}
    {Holds : Contents → BodyWriter → Bytes → σ → Prop}
    (faithful : Faithful store storage maxBlobBytes view Ready Holds) (push : Push)
    (codec : BodyCodec N) {s : σ} (h : Ready base s) (publish : Capture → Op HttpError σ Flow) :
    (∃ error next, captured storage push codec settings maxBlobBytes exchange =
        .error error ∧
      (captureWith store (teeWith store push) codec settings exchange >>= publish) s =
        (.error error, next) ∧
      view next = view s) ∨
    ∃ done next, captured storage push codec settings maxBlobBytes exchange = .ok done ∧
      (captureWith store (teeWith store push) codec settings exchange >>= publish) s =
        publish done.capture next ∧
      view next = view s ∧
      Ready ((base.file storage done.requestContent).file storage done.responseContent)
        next := by
  have hrefines := captureWith_refines faithful push codec settings exchange base
  rcases hcapture : captureWith store (teeWith store push) codec settings exchange s with
    ⟨error | capture, next⟩
  · obtain ⟨hview, hpure, -⟩ := hrefines.error h hcapture
    left
    exact ⟨error, next, hpure, Op.bind_of_error hcapture, hview⟩
  · obtain ⟨hview, done, hpure, rfl, hready⟩ := hrefines.ok h hcapture
    right
    exact ⟨done, next, hpure, Op.bind_of_ok hcapture, hview, hready⟩

theorem running_self {inner : RecordingInner} (h : inner.shutdown = false) :
    Running inner.limits.maxBlobBytes (contents inner.directory) inner :=
  ⟨h, rfl, rfl⟩

theorem writing_self (writer : SessionWriter) :
    Writing writer.limits.maxBlobBytes (contents writer.directory) writer :=
  ⟨rfl, rfl⟩

/-- A session that is shutting down records nothing. -/
theorem recordRequestWithSession_of_shutdown {inner : RecordingInner}
    (h : inner.shutdown ≠ false) :
    ∃ error, recordRequestWithSession storage codec settings exchange inner =
      (.error error, inner) := by
  have hbegin : ((sessionStore storage).beginBlob.mapError HttpError.store) inner =
      (.error (.store (.invalid "session is shutting down")), inner) := by
    have hrejected : inner.beginBlob = .error (.invalid "session is shutting down") := by
      rw [RecordingInner.beginBlob, RecordingInner.checkRunning, ensure_of_false h]
      rfl
    show ((Op.ofStep (fun inner : RecordingInner => inner.beginBlob)).mapError
      HttpError.store) inner = _
    rw [Op.mapError, Op.ofStep, hrejected]
    rfl
  have hcapture : ∃ error, captureWith (sessionStore storage)
      (teeBodyWithSession (sessionStore storage)) codec settings exchange inner =
      (.error error, inner) := by
    rw [captureWith]
    rcases hhead : requestHead codec exchange.method exchange.uri exchange.headers with e | head
    · exact ⟨e, Op.bind_of_error rfl⟩
    · exact ⟨_, (Op.bind_of_ok rfl).trans (Op.bind_of_error hbegin)⟩
  obtain ⟨error, hcapture⟩ := hcapture
  exact ⟨error, Op.bind_of_error hcapture⟩

theorem recordRequestWithSession_shutdown {inner next : RecordingInner} {flow : Flow}
    (h : recordRequestWithSession storage codec settings exchange inner = (.ok flow, next)) :
    inner.shutdown = false := by
  by_contra hshutdown
  obtain ⟨error, hrejected⟩ := recordRequestWithSession_of_shutdown hshutdown
  cases hrejected.symm.trans h

theorem sessionStore_appendFlow_eq_ok {inner next : RecordingInner} {flow : Flow} :
    (sessionStore storage).appendFlow flow inner = (.ok (), next) ↔
      inner.appendFlow flow = .ok next := by
  show Op.ofStep (fun inner : RecordingInner => (inner.appendFlow flow).map fun next =>
    (next, ())) inner = _ ↔ _
  rw [Op.ofStep_eq_ok]
  rcases inner.appendFlow flow with e | result
  · simp [Except.map]
  · simp [Except.map]

theorem sessionStore_appendFlow_of_error {inner : RecordingInner} {flow : Flow}
    {error : StoreError} (h : inner.appendFlow flow = .error error) :
    (sessionStore storage).appendFlow flow inner = (.error error, inner) := by
  show Op.ofStep (fun inner : RecordingInner => (inner.appendFlow flow).map fun next =>
    (next, ())) inner = _
  rw [Op.ofStep, h]
  rfl

theorem sessionStore_appendStreamEvents_of_error {inner : RecordingInner}
    {events : FlowStreamEvents} {error : StoreError}
    (h : inner.appendStreamEvents events = .error error) :
    (sessionStore storage).appendStreamEvents events inner = (.error error, inner) := by
  show Op.ofStep (fun inner : RecordingInner => (inner.appendStreamEvents events).map fun next =>
    (next, ())) inner = _
  rw [Op.ofStep, h]
  rfl

theorem sessionStore_appendStreamEvents_eq_ok {inner next : RecordingInner}
    {events : FlowStreamEvents} :
    (sessionStore storage).appendStreamEvents events inner = (.ok (), next) ↔
      inner.appendStreamEvents events = .ok next := by
  show Op.ofStep (fun inner : RecordingInner => (inner.appendStreamEvents events).map fun next =>
    (next, ())) inner = _ ↔ _
  rw [Op.ofStep_eq_ok]
  rcases inner.appendStreamEvents events with e | result
  · simp [Except.map]
  · simp [Except.map]

/-- A call on a running session fails as the pure capture does, or publishes what it
captures. -/
theorem recordRequestWithSession_run (storage : Codec) (codec : BodyCodec N)
    (settings : Settings) (exchange : Exchange) {inner : RecordingInner}
    (h : inner.shutdown = false) :
    (∃ error next,
      captured storage pushStreamEventInner codec settings inner.limits.maxBlobBytes exchange =
        .error error ∧
      recordRequestWithSession storage codec settings exchange inner = (.error error, next) ∧
      records next = records inner) ∨
    ∃ done captureState,
      captured storage pushStreamEventInner codec settings inner.limits.maxBlobBytes exchange =
        .ok done ∧
      recordRequestWithSession storage codec settings exchange inner =
        publishRecord (sessionStore storage) (finishSessionFlow done.capture settings.profileId)
          (sessionEvents exchange done.capture) captureState ∧
      records captureState = records inner ∧
      Running inner.limits.maxBlobBytes
        (((contents inner.directory).file storage done.requestContent).file storage
          done.responseContent) captureState :=
  captureWith_run (sessionStore_faithful storage _) pushStreamEventInner codec (running_self h)
    fun capture => publishRecord (sessionStore storage)
      (finishSessionFlow capture settings.profileId) (sessionEvents exchange capture)

/-- What a successful call of the session's recorder has captured and appended. -/
theorem recordRequestWithSession_eq_ok {inner next : RecordingInner} {flow : Flow}
    (h : recordRequestWithSession storage codec settings exchange inner = (.ok flow, next)) :
    ∃ done captureState flowed,
      captured storage pushStreamEventInner codec settings inner.limits.maxBlobBytes exchange =
        .ok done ∧
      flow = finishSessionFlow done.capture settings.profileId ∧
      records captureState = records inner ∧
      Running inner.limits.maxBlobBytes
        (((contents inner.directory).file storage done.requestContent).file storage
          done.responseContent) captureState ∧
      captureState.appendFlow flow = .ok flowed ∧
      flowed.appendStreamEvents (sessionEvents exchange done.capture) = .ok next := by
  rcases recordRequestWithSession_run storage codec settings exchange
    (recordRequestWithSession_shutdown h) with
    ⟨error, failed, -, hrun, -⟩ | ⟨done, captureState, hdone, hrun, hview, hrunning⟩
  · cases hrun.symm.trans h
  · obtain ⟨rfl, flowed, hflow, hevents⟩ := publishRecord_eq_ok (hrun.symm.trans h)
    rw [sessionStore_appendFlow_eq_ok] at hflow
    rw [sessionStore_appendStreamEvents_eq_ok] at hevents
    exact ⟨done, captureState, flowed, hdone, rfl, hview, hrunning, hflow, hevents⟩

/-- The push of the tee that keeps no events. -/
def pushNothing : Push := fun _ _ => .ok []

theorem recordRequest_eq_ok {writer next : SessionWriter} {flow : Flow}
    (h : recordRequest storage codec settings exchange writer = (.ok flow, next)) :
    ∃ done, captured storage pushNothing codec settings writer.limits.maxBlobBytes exchange =
        .ok done ∧
      flow = finishWriterFlow done.capture settings.profileId := by
  rcases captureWith_run (writerStore_faithful storage _) pushNothing codec (writing_self writer) fun capture =>
      publishRecord (writerStore storage) (finishWriterFlow capture settings.profileId)
        { flowId := (finishWriterFlow capture settings.profileId).id
          startOffsetNs := exchange.endOffsetNs
          request := []
          response := capture.responseEvents } with
    ⟨error, failed, -, hrun, -⟩ | ⟨done, captureState, hdone, hrun, hview, hwriting⟩
  · cases hrun.symm.trans h
  · exact ⟨done, hdone, (publishRecord_eq_ok (hrun.symm.trans h)).1⟩

end

/-! ### A form post -/

/-- What redaction makes of a form of one pair with the key `k`. -/
def redactedForm : Bytes := utf8 "k=%3Credacted%3E".toList

/-- The form routines on such forms, and the digest of the redacted one. -/
def formCodec : BodyCodec Nat where
  fromSlice _ := .error "expected value"
  toVec _ := []
  parseForm body :=
    if body = [] then []
    else if body = redactedForm then [("k", redacted)]
    else [("k", String.ofList ((decodeUtf8 (body.drop 2)).getD []))]
  serializeForm pairs := if pairs = [("k", redacted)] then redactedForm else []
  sha256 body :=
    if body = redactedForm then
      "c9e406f8faa5a6c1f43fb7c53ee76dc78ef1cfdc74cba7689a0f32fe33221acd"
    else ""

def formStorage : Codec where
  sha256Hex := formCodec.sha256
  decodeFlow _ := .error "unknown flow"
  encodeManifest _ := []
  decodeManifest _ := .error "unknown manifest"
  decodeStreamEvents _ := .error "unknown stream events"
  decodeTranscript _ := .error "unknown transcript"
  decodeRules _ := .error "unknown rules"

def formSettings : Settings where
  redaction := { headers := ∅, queryKeys := {"k"}, jsonPaths := ∅ }
  profileId := "default"
  maxStructuredBytes := 1024

def formLength (length : Nat) : HeaderField where
  name := "content-length"
  value := utf8 (Nat.repr length).toList

/-- A form of `body`, answered with an empty body, from one clock. -/
def formPost (headers : HeaderMap) (body : String) : Exchange where
  method := "POST"
  uri :=
    { scheme := some "http", authority := some "example.test", path := "/", query := none }
  headers :=
    { name := "content-type", value := utf8 "application/x-www-form-urlencoded".toList } :: headers
  polled := [⟨1, .data (utf8 body.toList)⟩]
  requestEnd := some ⟨2, none⟩
  result := .ok { status := 200, http2 := false, headers := [], frames := [], ending := ⟨1, none⟩ }
  uuid := "0"
  startedAtMs := 1
  completedAtMs := 2
  startOffsetNs := 0
  endOffsetNs := 3
  physicalRoute := none

def freshMetadata : SessionMetadata where
  schemaVersion := 1
  toolVersion := "0.1.0"
  sessionId := "session-0"
  captureMode := "forward"
  source := none
  target := none
  matcherProfile := "default"
  redactionProfile := "default"

def freshSession : RecordingInner :=
  { toStaged := Staged.empty, metadata := freshMetadata, limits := StoreLimits.default }

def freshWriter : SessionWriter :=
  { toStaged := Staged.empty, metadata := freshMetadata, limits := StoreLimits.default }

end EggReplay.Http.Captures
