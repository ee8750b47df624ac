import EggReplay.Cli.ReportedVerdicts
import EggReplay.Http.ConcurrentReplay
import EggReplay.Http.Rematching
import EggReplay.Store.FlowLinearization

/-!
What is recorded is what is replayed: exchanges that are recorded one after another and published,
and the same requests on a server that has loaded the session.
-/

namespace EggReplay.Http.RecordedReplay

open EggReplay.Cli.ReportedVerdicts (Session.readBlob)
open EggReplay.Library.Checks
open EggReplay.Library.Histories
open EggReplay.Library.LineLog
open EggReplay.Library.Stateful
open EggReplay.Library.Text
open EggReplay.Library.TransitionSystem
open EggReplay.Core.Consumption
open EggReplay.Core.FieldWildcards
open EggReplay.Core.FlowRecord
open EggReplay.Core.KeyedReplay (emptyDigest)
open EggReplay.Core.Matching
open EggReplay.Core.Redaction
open EggReplay.Core.StreamTimeline
open EggReplay.Store.BlobContents
open EggReplay.Store.Fixture
open EggReplay.Store.CopyPreserves
open EggReplay.Store.FlowLinearization (reads_unique)
open EggReplay.Store.OpenedSessions
open EggReplay.Store.Publication
open EggReplay.Store.Recording
open EggReplay.Store.SessionOpen
open EggReplay.Store.SessionRuns
open EggReplay.Store.StagedInvariant
open EggReplay.Store.Staging
open EggReplay.Http.AppendMiss (Asked)
open EggReplay.Http.Atomicity
open EggReplay.Http.Captures
open EggReplay.Http.ConcurrentReplay
open EggReplay.Http.FixtureLoading
open EggReplay.Http.GatewayAnswers (Unshared)
open EggReplay.Http.Recorder
open EggReplay.Http.RecordMarkers
open EggReplay.Http.Rematching
open EggReplay.Http.SealedServer
open EggReplay.Http.StreamEventCapture
open EggReplay.Http.Transaction

variable {N : Type}

/-! ### A request and its own record -/

/-- The recorded body is compared without redaction, or what redaction left of the request
compares equal to it. -/
def ReplaysItself (codec : BodyCodec N) (settings : Settings) (exchange : Exchange)
    (asked : Asked) : Prop :=
  asked.body = [] ∨ needsTransform settings.redaction (contentType exchange.headers) = false ∨
    HeadersRematch settings.redaction asked.request.headers
        (redactedContent codec settings (contentType exchange.headers) asked.body).length ∧
      BodyRematches codec settings.redaction (contentType exchange.headers) asked.body asked.body

section

variable {storage : Codec} {codec : BodyCodec N} {settings : Settings} {push : Push}
  {maxBlobBytes : Nat} {exchange : Exchange} {done : Captured} {converted : RecordedRequest}
  {stored : Filed} {answer : FiledOutcome}

/-- A body without markers is stored as it is. -/
theorem content_of_unmarked (parts : CapturedFrom storage push codec settings maxBlobBytes
      exchange done converted stored answer) (hmarkers : stored.markers = []) :
    stored.content = (takenBody maxBlobBytes push exchange).content ∧
      ((takenBody maxBlobBytes push exchange).content = [] ∨
        needsTransform settings.redaction (contentType exchange.headers) = false) := by
  have htransform := transformBody_eq_ok (filedStaged_eq_ok parts.request).1
  generalize stored.markers = markers at htransform hmarkers
  generalize stored.content = clean at htransform
  cases htransform with
  | kept hkept => exact ⟨rfl, hkept⟩
  | json _ hpaths _ _ => exact absurd hmarkers (bodyMarkers_ne_nil hpaths)
  | form _ hkeys _ _ => exact absurd hmarkers (formMarkers_ne_nil hkeys)

/-- A body with markers was there and was to be transformed. -/
theorem not_plain_of_marked (parts : CapturedFrom storage push codec settings maxBlobBytes
      exchange done converted stored answer) (hmarkers : stored.markers ≠ []) :
    ¬((takenBody maxBlobBytes push exchange).content = [] ∨
      needsTransform settings.redaction (contentType exchange.headers) = false) := by
  have htransform := transformBody_eq_ok (filedStaged_eq_ok parts.request).1
  generalize stored.markers = markers at htransform hmarkers
  generalize stored.content = clean at htransform
  cases htransform with
  | kept _ => exact absurd rfl hmarkers
  | json hcontent hpaths htype _ =>
      rw [not_or]
      exact ⟨hcontent, by simp [needsTransform, htype, hpaths]⟩
  | form hcontent hkeys htype _ =>
      rw [not_or]
      exact ⟨hcontent, by simp [needsTransform, htype, hkeys]⟩

theorem request_of_unmarked (parts : CapturedFrom storage push codec settings maxBlobBytes
      exchange done converted stored answer) (hmarkers : stored.markers = []) :
    (finishSessionFlow done.capture settings.profileId).request =
      (redactFlow (unredacted exchange converted.request
        (takenBody maxBlobBytes push exchange) stored answer.observed) settings.redaction
        settings.profileId).request := by
  have hnone : ¬(recordMarkers done.capture).any isRequestBodyMarker = true := by
    rw [recordMarkers_any_iff parts, not_not]
    exact hmarkers
  rw [recordMarkers] at hnone
  rw [finishSessionFlow, noteLossyHeaders]
  dsimp only
  rw [if_neg hnone, parts.flow]
  split
  · rfl
  · rfl

/-- Fields that were redacted are not compared, so that the head agrees with its record. -/
theorem dimensions_of_unmarked (parts : CapturedFrom storage push codec settings maxBlobBytes
      exchange done converted stored answer) (hmarkers : stored.markers = [])
    {actual : HttpRequest} (hhead : HasHead converted.request actual) (limit : Nat) :
    (Matcher.strict limit).dimensions actual
      (.fromFlow (finishSessionFlow done.capture settings.profileId)) = [] := by
  rw [dimensions_eq_nil_iff rfl]
  show AgreesApartFrom
    (redactedRequestHeaders (finishSessionFlow done.capture settings.profileId).redactions)
    (redactedRequestQuery (finishSessionFlow done.capture settings.profileId).redactions) actual
    (finishSessionFlow done.capture settings.profileId).request
  rw [redactedRequestHeaders_recorded parts, redactedRequestQuery_recorded parts,
    request_of_unmarked parts hmarkers]
  refine (agreesApartFrom_redactFlow ?_ ?_).mpr ?_
  · exact Finset.Subset.refl _
  · exact Finset.Subset.refl _
  · rw [hhead]
    exact ⟨rfl, rfl, rfl, rfl, fun _ _ => rfl, rfl⟩

variable [DecidableEq N]

theorem bodyMatchesLazy_index {matcher : Matcher} {loader : Loader}
    (hloader : ∀ index candidate, loader index candidate = loader 0 candidate) (body : Bytes)
    (index : Nat) (candidate : MatchCandidate) :
    matcher.bodyMatchesLazy codec body true index candidate loader =
      matcher.bodyMatchesLazy codec body true 0 candidate loader := by
  simp only [Matcher.bodyMatchesLazy, Matcher.bodyMatchesRedacted, Matcher.bodyMatchesPlain,
    expectedBytes, hloader index]

theorem bodyMatches_of_unmarked (parts : CapturedFrom storage push codec settings maxBlobBytes
      exchange done converted stored answer) (hmarkers : stored.markers = [])
    (hdigest : codec.sha256 stored.content = storage.sha256Hex stored.content)
    (hlower : toAsciiLowercase (storage.sha256Hex stored.content) =
      storage.sha256Hex stored.content) (loader : Loader) (limit : Nat) :
    (Matcher.strict limit).bodyMatchesLazy codec stored.content true 0
      (.fromFlow (finishSessionFlow done.capture settings.profileId)) loader = true := by
  have hpaths := redactedBodyJsonPaths_recorded parts
  have hkeys := redactedBodyFormKeys_recorded parts
  rw [hmarkers] at hpaths hkeys
  have hreference := (filedStaged_eq_ok parts.request).2.1
  have hbody : (finishSessionFlow done.capture settings.profileId).request.body =
      stored.body := by
    rw [request_of_unmarked parts hmarkers]
    rfl
  generalize finishSessionFlow done.capture settings.profileId = flow at hpaths hkeys hbody
  have hplain : ¬(redactedBodyJsonPaths (MatchCandidate.fromFlow flow).flow.redactions false ≠ ∅ ∨
      redactedBodyFormKeys (MatchCandidate.fromFlow flow).flow.redactions ≠ ∅) := by
    rintro (h | h)
    · exact h hpaths
    · exact h hkeys
  rw [Matcher.bodyMatchesLazy, if_neg hplain, Matcher.bodyMatchesPlain, MatchCandidate.fromFlow,
    hbody]
  rw [reference] at hreference
  split at hreference
  · rename_i hempty
    obtain hnone := pure_eq_ok.mp hreference
    rw [← hnone, hempty]
    rfl
  · simp only [bind_eq_ok, mapError_eq_ok, pure_eq_ok] at hreference
    obtain ⟨blob, hblob, hsame⟩ := hreference
    simp only [BlobRef.new, bind_unit_eq_ok, ensure_eq_ok, pure_eq_ok] at hblob
    obtain ⟨-, rfl⟩ := hblob
    rw [← hsame]
    show (decide _ && decide _) = true
    rw [hdigest, hlower]
    simp

/-- A request that comes again as it was recorded is answered by its record exactly where it
replays itself. -/
theorem matchesAt_recorded_iff (parts : CapturedFrom storage push codec settings maxBlobBytes
      exchange done converted stored answer) {asked : Asked}
    (hrecorded : (takenBody maxBlobBytes push exchange).content = asked.body)
    (hhead : HasHead converted.request asked.request)
    (hprints : PrintsRedacted codec settings.redaction asked.body)
    (hdigest : codec.sha256 asked.body = storage.sha256Hex asked.body)
    (hlower : toAsciiLowercase (storage.sha256Hex stored.content) =
      storage.sha256Hex stored.content) {loader : Loader}
    (hloader : ∀ index candidate, loader index candidate = loader 0 candidate)
    (hloaded : expectedBytes loader 0
      (.fromFlow (finishSessionFlow done.capture settings.profileId)) = some stored.content)
    (limit index : Nat) :
    matchesAt codec (Matcher.strict limit) ⟨asked.request, asked.body, loader⟩ index
        (.fromFlow (finishSessionFlow done.capture settings.profileId)) = true ↔
      ReplaysItself codec settings exchange asked := by
  rw [matchesAt, Bool.and_eq_true, decide_eq_true_eq, bodyMatchesLazy_index hloader]
  dsimp only
  by_cases hmarkers : stored.markers = []
  · obtain ⟨hcontent, hplain⟩ := content_of_unmarked parts hmarkers
    rw [hrecorded] at hcontent hplain
    have hmatches := @bodyMatches_of_unmarked N storage codec settings push maxBlobBytes exchange
      done converted stored answer _ parts hmarkers (by rwa [hcontent]) hlower loader limit
    rw [hcontent] at hmatches
    apply iff_of_true
    · exact ⟨dimensions_of_unmarked parts hmarkers hhead limit, hmatches⟩
    · exact hplain.imp_right .inl
  · have hstored : redactedContent codec settings (contentType exchange.headers) asked.body =
        stored.content := by
      rw [redactedContent, ← hrecorded, (filedStaged_eq_ok parts.request).1]
    have hheaders : converted.request.headers = asked.request.headers := by rw [hhead]
    have hnot := not_plain_of_marked parts hmarkers
    rw [← hrecorded] at hprints
    rw [dimensions_recorded_iff parts hmarkers hhead,
      bodyMatches_recorded_iff parts hmarkers hprints hloaded, ReplaysItself, hstored, hheaders,
      ← or_assoc, or_iff_right (hrecorded ▸ hnot), hrecorded]

end

/-! ### Exchanges one after another -/

def recordAll (storage : Codec) (codec : BodyCodec N) (settings : Settings) :
    List Exchange → Op HttpError RecordingInner (List Flow)
  | [] => pure []
  | exchange :: rest => do
      let flow ← recordRequestWithSession storage codec settings exchange
      let flows ← recordAll storage codec settings rest
      pure (flow :: flows)

/-- The flow is what the recorder makes of the exchange. -/
def Records (storage : Codec) (codec : BodyCodec N) (settings : Settings) (maxBlobBytes : Nat)
    (exchange : Exchange) (flow : Flow) : Prop :=
  ∃ done converted stored answer,
    CapturedFrom storage pushStreamEventInner codec settings maxBlobBytes exchange done converted
      stored answer ∧
    flow = finishSessionFlow done.capture settings.profileId

section

variable {storage : Codec} {codec : BodyCodec N} {settings : Settings} {exchange : Exchange}
  {exchanges : List Exchange} {inner next final : RecordingInner} {flow : Flow}
  {flows earlier : List Flow} {limits : StoreLimits} {session : Session}

theorem recordAll_cons :
    recordAll storage codec settings (exchange :: exchanges) inner = (.ok flows, final) ↔
      ∃ flow next later,
        recordRequestWithSession storage codec settings exchange inner = (.ok flow, next) ∧
        recordAll storage codec settings exchanges next = (.ok later, final) ∧
        flows = flow :: later := by
  rw [recordAll, Op.bind_eq_ok]
  simp only [Op.bind_eq_ok]
  constructor
  · rintro ⟨flow, next, hflow, later, last, hlater, hdone⟩
    obtain ⟨hflows, rfl⟩ := Prod.mk.inj hdone
    exact ⟨flow, next, later, hflow, hlater, (Except.ok.inj hflows).symm⟩
  · rintro ⟨flow, next, later, hflow, hlater, rfl⟩
    exact ⟨flow, next, hflow, later, final, hlater, rfl⟩

/-- What does not depend on the blobs and the sinks. -/
theorem records_congr {α : Type} {left right : RecordingInner} (f : RecordingInner → α)
    (hf : ∀ inner, f (Captures.records inner) = f inner)
    (h : Captures.records left = Captures.records right) : f left = f right := by
  rw [← hf left, h, hf]

theorem captured_sound {captureState : RecordingInner}
    (hview : Captures.records captureState = Captures.records inner)
    (h : RecordingSound limits { inner, flows }) :
    RecordingSound limits { inner := captureState, flows } := by
  refine ⟨h.sound.congr ?_ ?_ ?_ ?_ ?_, ?_, ?_⟩
  · exact records_congr (fun inner => inner.directory.files flowLog) (fun _ => rfl) hview
  · intro extension _
    exact records_congr (fun inner => inner.directory.files extension.path) (fun _ => rfl) hview
  · exact records_congr (fun inner => inner.flowCount) (fun _ => rfl) hview
  · exact records_congr (fun inner => inner.totalBytes) (fun _ => rfl) hview
  · exact records_congr (fun inner => inner.extensions) (fun _ => rfl) hview
  · exact (records_congr RecordingInner.limits (fun _ => rfl) hview).trans h.limits_eq
  · have hmetadata := records_congr RecordingInner.metadata (fun _ => rfl) hview
    have hschema := h.schema
    dsimp only at hschema ⊢
    rwa [hmetadata]

/-- A recorded exchange is one flow more in the log. -/
theorem recorded_sound (hrun : recordRequestWithSession storage codec settings exchange inner =
      (.ok flow, next)) (h : RecordingSound limits { inner, flows }) :
    RecordingSound limits { inner := next, flows := flows ++ [flow] } ∧
      Records storage codec settings limits.maxBlobBytes exchange flow := by
  obtain ⟨done, captureState, flowed, hdone, rfl, hview, -, hflow, hevents⟩ :=
    recordRequestWithSession_eq_ok hrun
  obtain ⟨converted, stored, answer, parts⟩ := captured_eq_ok hdone
  have hlimits : inner.limits = limits := h.limits_eq
  rw [hlimits] at parts
  refine ⟨?_, done, converted, stored, answer, parts, rfl⟩
  have hcaptured := captured_sound hview h
  have hlogged : RecordingSound limits
      { inner := flowed
        flows := flows ++ [finishSessionFlow done.capture settings.profileId] } := by
    obtain ⟨happendable, rfl⟩ := recording_appendFlow_appendable hflow
    have hstate : captureState.limits = limits := hcaptured.limits_eq
    rw [hstate] at happendable
    exact hcaptured.staged (.flow _ happendable) rfl rfl
  obtain ⟨-, -, -, rfl⟩ := appendStreamEvents_eq_ok.mp hevents
  exact hlogged.staged (.registries _ _ _ _ _) rfl rfl

theorem recordAll_sound (hrun : recordAll storage codec settings exchanges inner =
      (.ok flows, final)) (h : RecordingSound limits { inner, flows := earlier }) :
    RecordingSound limits { inner := final, flows := earlier ++ flows } ∧
      List.Forall₂ (Records storage codec settings limits.maxBlobBytes) exchanges flows := by
  induction exchanges generalizing inner flows earlier with
  | nil =>
      obtain ⟨hflows, rfl⟩ := Prod.mk.inj hrun
      obtain rfl := Except.ok.inj hflows
      rw [List.append_nil]
      exact ⟨h, .nil⟩
  | cons exchange rest ih =>
      obtain ⟨flow, next, later, hflow, hlater, rfl⟩ := recordAll_cons.mp hrun
      obtain ⟨hnext, hrecords⟩ := recorded_sound hflow h
      obtain ⟨hfinal, hothers⟩ := ih hlater hnext
      rw [List.append_assoc, List.singleton_append] at hfinal
      exact ⟨hfinal, .cons hrecords hothers⟩

/-! ### The published session -/

/-- A session that was published reads as the flows that were recorded. -/
theorem published_opened (h : RecordingSound limits { inner := final, flows })
    (hdecodes : DecodesFlows storage flows)
    (hfinish : (final.finish storage).result = .ok session) :
    ∃ root, Session.open storage root limits = .ok session ∧ Opened storage session flows := by
  have hlimits : final.limits = limits := h.limits_eq
  rw [RecordingInner.finish] at hfinish
  rcases hstage : final.stage storage with error | ⟨root, manifest⟩
  · rw [hstage] at hfinish
    cases hfinish
  · rw [hstage, hlimits] at hfinish
    replace hfinish : Session.open storage root limits = .ok session := hfinish
    have hcomplete := recording_stage_completes h hstage
    obtain ⟨middle, last, hstream, htranscript, -, hwrite, -⟩ := hcomplete.stages
    have hlast : Sound limits flows last := htranscript.sound (hstream.sound h.sound)
    have hwritten := writeManifest_eq_ok hwrite h.sound.count
    have hlog : root.files flowLog = some (written newline (flows.map Flow.encode)) := by
      rw [hwritten.other flowLog (by decide), hlast.log]
    obtain ⟨rfl, -, -, -, read, hopened⟩ := open_eq_ok hfinish
    obtain ⟨bytes, hbytes, hreads⟩ := hopened.log
    rw [hlog, Option.some.injEq] at hbytes
    rw [← hbytes, records_log] at hreads
    obtain rfl := reads_unique hreads (reads_lines hdecodes)
    exact ⟨session.root, hfinish, hopened⟩

theorem request_body {done : Captured} {converted : RecordedRequest} {stored : Filed}
    {answer : FiledOutcome} {maxBlobBytes : Nat}
    (parts : CapturedFrom storage pushStreamEventInner codec settings maxBlobBytes exchange done
      converted stored answer) :
    (finishSessionFlow done.capture settings.profileId).request.body = stored.body := by
  by_cases hmarkers : stored.markers = []
  · rw [request_of_unmarked parts hmarkers]
    rfl
  · rw [finishSessionFlow_request parts hmarkers]
    rfl

theorem readBlob_published (hopened : Opened storage session flows) (hflow : flow ∈ flows)
    {blob : BlobRef} (hbody : flow.request.body = .blob blob) :
    ∃ bytes, Session.readBlob storage session blob = .ok bytes ∧
      storage.sha256Hex bytes = blob.sha256 := by
  have hfiles := checkAll_eq_ok.mp (hopened.bodies flow hflow) (.blob blob) (by
    rw [bodyRefs, hbody]
    exact List.mem_cons_self)
  rw [validateBodyFile] at hfiles
  have hverified := hfiles
  simp only [verifyBlobFile, bind_eq_ok, orFail_eq_ok, ensure_eq_ok] at hverified
  obtain ⟨_, -, _, -, bytes, hbytes, -, hdigest⟩ := hverified
  refine ⟨bytes, ?_, hdigest⟩
  rw [Session.readBlob, hfiles, hbytes]
  rfl

/-- The server loads for a candidate what was stored for the request. -/
theorem expectedBytes_published (hopened : Opened storage session flows) (hflow : flow ∈ flows)
    {content : Bytes} (hreference : reference storage content = .ok flow.request.body)
    (hlower : toAsciiLowercase (storage.sha256Hex content) = storage.sha256Hex content)
    (hunshared : Unshared storage.sha256Hex (storage.sha256Hex content))
    {server : Server N}
    (hread : ∀ blob, server.readBlob blob = (Session.readBlob storage session blob).toOption) :
    expectedBytes server.loader 0 (.fromFlow flow) = some content := by
  rw [reference] at hreference
  split at hreference
  · rename_i hempty
    rw [expectedBytes, MatchCandidate.fromFlow, ← pure_eq_ok.mp hreference, hempty]
    rfl
  · simp only [bind_eq_ok, mapError_eq_ok, pure_eq_ok] at hreference
    obtain ⟨blob, hblob, hbody⟩ := hreference
    simp only [BlobRef.new, bind_unit_eq_ok, ensure_eq_ok, pure_eq_ok] at hblob
    obtain ⟨-, rfl⟩ := hblob
    obtain ⟨bytes, hbytes, hdigest⟩ := readBlob_published hopened hflow hbody.symm
    have hsame : bytes = content := hunshared _ _ (hdigest.trans hlower) rfl
    have hloaded : expectedBytes server.loader 0 (.fromFlow flow) = server.readBlob
        { sha256 := toAsciiLowercase (storage.sha256Hex content), length := content.length } := by
      simp only [expectedBytes, MatchCandidate.fromFlow, ← hbody, CandidateBody.fromBodyRef,
        Server.loader]
    rw [hloaded, hread, hbytes, hsame]
    rfl

/-! ### The requests again -/

/-- The request has the head that was recorded and the body that the client took. -/
structure Repeats (codec : BodyCodec N) (maxBlobBytes : Nat) (exchange : Exchange)
    (asked : Asked) : Prop where
  head : ∀ converted, requestHead codec exchange.method exchange.uri exchange.headers =
    .ok converted → HasHead converted.request asked.request
  body : (takenBody maxBlobBytes pushStreamEventInner exchange).content = asked.body

/-- What the routines promise for a body: redacted values are read back from their text, the
digests of the store and of the matcher are one, and no other content has that digest. -/
structure Dependable (storage : Codec) (codec : BodyCodec N) (settings : Settings)
    (exchange : Exchange) (body : Bytes) : Prop where
  prints : PrintsRedacted codec settings.redaction body
  digest : codec.sha256 body = storage.sha256Hex body
  lower : ∀ clean, redactedContent codec settings (contentType exchange.headers) body = clean →
    toAsciiLowercase (storage.sha256Hex clean) = storage.sha256Hex clean
  unshared : ∀ clean, redactedContent codec settings (contentType exchange.headers) body = clean →
    Unshared storage.sha256Hex (storage.sha256Hex clean)

variable [DecidableEq N] {server : Server N} {asked : Asked} {index : Nat}

theorem matches_own_iff (hopened : Opened storage session flows)
    (hat : flows[index]? = some flow)
    (hrecords : Records storage server.codec settings limits.maxBlobBytes exchange flow)
    (hrepeats : Repeats server.codec limits.maxBlobBytes exchange asked)
    (hdependable : Dependable storage server.codec settings exchange asked.body)
    (hread : ∀ blob, server.readBlob blob = (Session.readBlob storage session blob).toOption)
    (limit : Nat) :
    Matches server.codec (Matcher.strict limit) (flows.map MatchCandidate.fromFlow)
        (server.arrival asked) index ↔
      ReplaysItself server.codec settings exchange asked := by
  obtain ⟨done, converted, stored, answer, parts, rfl⟩ := hrecords
  have hstored : redactedContent server.codec settings (contentType exchange.headers)
      asked.body = stored.content := by
    rw [redactedContent, ← hrepeats.body, (filedStaged_eq_ok parts.request).1]
  have hreference := (filedStaged_eq_ok parts.request).2.1
  rw [← request_body parts] at hreference
  have hloaded := expectedBytes_published hopened (List.mem_of_getElem? hat) hreference
    (hdependable.lower _ hstored) (hdependable.unshared _ hstored) hread
  rw [← matchesAt_recorded_iff parts hrepeats.body (hrepeats.head _ parts.head)
    hdependable.prints hdependable.digest (hdependable.lower _ hstored) (fun _ _ => rfl) hloaded
    limit index, Matches, List.getElem?_map, hat]
  simp only [Option.map_some, Option.some.injEq, exists_eq_left']
  rfl

end

/-! ### Answers in order -/

section

variable [DecidableEq N] {codec : BodyCodec N} {matcher : Matcher}
  {candidates : List MatchCandidate} {arrivals : List Arrival}

theorem servedIndices_range (size : Nat) :
    servedIndices ((List.range size).map MatchResult.matched) = List.range size := by
  rw [servedIndices, List.filterMap_map]
  exact List.filterMap_some

/-- Requests are answered in the order of the candidates exactly where each matches its own. -/
theorem served_in_order_iff :
    (serve codec matcher candidates .once .new arrivals).1 =
        (List.range arrivals.length).map MatchResult.matched ↔
      ∀ index arrival, arrivals[index]? = some arrival →
        Matches codec matcher candidates arrival index := by
  constructor
  · intro hserved index arrival hat
    have hindex := (List.getElem?_eq_some_iff.mp hat).1
    have hanswer : (serve codec matcher candidates .once .new arrivals).1[index]? = _ :=
      serve_getElem? .new hat
    rw [hserved, List.getElem?_map, List.getElem?_range hindex, Option.map_some,
      Option.some.injEq] at hanswer
    exact ((selectArrival_answer candidates .once _ arrival).matched_iff index |>.mp
      hanswer.symm).1
  · intro hmatches
    induction arrivals using List.reverseRecOn with
    | nil => rfl
    | append_singleton before arrival ih =>
        have hbefore := ih fun index other hat =>
          hmatches index other (by
            rw [List.getElem?_append_left (List.getElem?_eq_some_iff.mp hat).1]
            exact hat)
        have honce := (@selectArrival_answer N _ codec matcher candidates .once
          (serve codec matcher candidates .once MatcherSession.new before).2 arrival).once
          (serve_remembers (by decide) before)
        rw [hbefore] at honce
        have hhere : (selectArrival codec matcher candidates .once
            (serve codec matcher candidates .once MatcherSession.new before).2 arrival).1 =
              .matched before.length := by
          apply (honce.matched before.length).mpr
          rw [servedIndices_range]
          refine ⟨hmatches before.length arrival (by simp), by simp, ?_⟩
          intro other hother _
          exact List.mem_range.mpr hother
        rw [serve_concat, hbefore, hhere, List.length_append, List.length_singleton,
          List.range_succ, List.map_append, List.map_singleton]

end

/-! ### One request after another -/

/-- Each request has its answer before the next one arrives. -/
def inTurn : Nat → List Incoming → List Action
  | _, [] => []
  | index, incoming :: rest =>
      .arrive incoming :: .advance index :: .advance index :: .advance index ::
        inTurn (index + 1) rest

/-- A server without a scenario whose marks are as many as its candidates. -/
structure Plain (state : ReplayState) : Prop where
  scenario : state.scenario = none
  inAppend : state.candidateInAppend.length = state.candidates.length

section

variable [DecidableEq N] {server : Server N} {world : World} {incoming : Incoming}
  {asked : Asked}

/-- The world with the request in the phase, as the last one. -/
def joined (world : World) (incoming : Incoming) (phase : Phase) : World :=
  { world with threads := world.threads ++ [⟨incoming, phase⟩] }

theorem getElem?_with (world : World) (incoming : Incoming) (phase : Phase) :
    (joined world incoming phase).threads[world.threads.length]? = some ⟨incoming, phase⟩ := by
  simp [joined]

theorem put_with (world : World) (state : ReplayState) (incoming : Incoming)
    (phase next : Phase) :
    World.put { joined world incoming phase with state } world.threads.length ⟨incoming, phase⟩
      next = joined { world with state } incoming next := by
  simp [World.put, joined]

theorem step_with {phase : Phase} :
    step server (joined world incoming phase) (.advance world.threads.length) =
      advance server (joined world incoming phase) world.threads.length ⟨incoming, phase⟩ := by
  rw [step, getElem?_with]
  rfl

theorem event_with {phase : Phase} :
    event server (joined world incoming phase) (.advance world.threads.length) =
      (sectionOf server world.state phase).map fun entered => (world.threads.length, entered) := by
  rw [event, getElem?_with]
  rfl

theorem advance_received (hreceive : server.receive incoming = .ok asked) :
    step server (joined world incoming .arrived) (.advance world.threads.length) =
      some (joined world incoming (.received asked)) := by
  rw [step_with, SealedServer.advance]
  dsimp only
  rw [hreceive]
  exact congrArg some (put_with world world.state incoming _ _)

theorem advance_unscripted (hplain : Plain world.state) :
    step server (joined world incoming (.received asked)) (.advance world.threads.length) =
      some (joined world incoming (.unscripted asked)) := by
  have hnone : (joined world incoming (.received asked)).state.scenario = none := hplain.scenario
  rw [step_with, SealedServer.advance]
  dsimp only
  rw [hnone]
  exact congrArg some (put_with world world.state incoming _ _)

theorem advance_answered {answer : Answer}
    (hanswer : server.conclude world.state incoming (server.select world.state asked).1 =
      some answer) :
    step server (joined world incoming (.unscripted asked)) (.advance world.threads.length) =
      some (joined { world with state := { world.state with
        session := (server.select world.state asked).2 } } incoming (.answered answer)) := by
  have hsame : server.conclude (joined world incoming (.unscripted asked)).state incoming
      (server.select (joined world incoming (.unscripted asked)).state asked).1 = some answer :=
    hanswer
  rw [step_with, SealedServer.advance]
  dsimp only
  rw [hsame]
  exact congrArg some (put_with world _ incoming _ _)

/-- A run of requests in turn: each is answered, and each has one section in its turn. -/
theorem inTurn_run {incomings : List Incoming} {received : List Asked}
    (hreceived : List.Forall₂ (fun incoming asked => server.receive incoming = .ok asked)
      incomings received) (hplain : Plain world.state) :
    ∃ last, run (step server) world (inTurn world.threads.length incomings) = some last ∧
      last.threads.map Thread.incoming = world.threads.map Thread.incoming ++ incomings ∧
      ((∀ thread ∈ world.threads, ∃ answer, thread.phase = .answered answer) →
        ∀ thread ∈ last.threads, ∃ answer, thread.phase = .answered answer) ∧
      (emitted (step server) (event server) world
        (inTurn world.threads.length incomings)).map Prod.fst =
          List.range' world.threads.length incomings.length := by
  induction hreceived generalizing world with
  | nil => exact ⟨world, rfl, (List.append_nil _).symm, fun h => h, rfl⟩
  | @cons incoming asked incomings received hreceive _ ih =>
      obtain ⟨answer, hanswer⟩ := @conclude_isSome N _ server world.state hplain.inAppend incoming
        asked
      have hfirst := @advance_received N _ server world incoming asked hreceive
      have hsecond := @advance_unscripted N _ server world incoming asked hplain
      have hthird := @advance_answered N _ server world incoming asked answer hanswer
      generalize hnext : joined { world with state := { world.state with
        session := (server.select world.state asked).2 } } incoming (.answered answer) = next
          at hthird
      have hstate : Plain next.state := by
        rw [← hnext]
        exact ⟨hplain.scenario, hplain.inAppend⟩
      have hlength : next.threads.length = world.threads.length + 1 := by
        rw [← hnext]
        simp [joined]
      obtain ⟨last, hrun, hincoming, hanswered, hindices⟩ := ih hstate
      rw [hlength] at hrun hindices
      refine ⟨last, ?_, ?_, ?_, ?_⟩
      · rw [inTurn, run_cons_eq_some]
        refine ⟨joined world incoming .arrived, rfl, ?_⟩
        rw [run_cons_eq_some]
        refine ⟨_, hfirst, ?_⟩
        rw [run_cons_eq_some]
        refine ⟨_, hsecond, ?_⟩
        rw [run_cons_eq_some]
        exact ⟨_, hthird, hrun⟩
      · rw [hincoming, ← hnext]
        simp [joined]
      · intro hbefore
        apply hanswered
        intro thread hthread
        rw [← hnext] at hthread
        rcases List.mem_append.mp hthread with hold | hnew
        · exact hbefore thread hold
        · rw [List.mem_singleton.mp hnew]
          exact ⟨answer, rfl⟩
      · have harrive : step server world (.arrive incoming) =
            some (joined world incoming .arrived) := rfl
        have hnone : sectionOf server world.state (.received asked) = none := by
          rw [sectionOf, hplain.scenario]
          rfl
        rw [inTurn, emitted, harrive]
        dsimp only
        rw [emitted, hfirst, event_with]
        dsimp only
        rw [emitted, hsecond, event_with, hnone]
        dsimp only
        rw [emitted, hthird, event_with]
        dsimp only
        rw [List.length_cons, List.range'_succ, ← hindices]
        rfl

end

/-! ### The answers of a run in turn -/

section

variable {α β : Type} {related : α → β → Prop} {left : List α} {right : List β}

theorem exists_of_getElem? (h : List.Forall₂ related left right) {index : Nat} {item : β}
    (hat : right[index]? = some item) :
    ∃ other, left[index]? = some other ∧ related other item := by
  induction h generalizing index with
  | nil => cases hat
  | @cons first second _ _ hhead _ ih =>
      cases index with
      | zero =>
          obtain rfl := Option.some.inj hat
          exact ⟨first, rfl, hhead⟩
      | succ index => exact ih hat

theorem forall₂_of_getElem? (hlength : left.length = right.length)
    (h : ∀ (index : Nat) (first : α) (second : β), left[index]? = some first →
      right[index]? = some second → related first second) :
    List.Forall₂ related left right := by
  apply List.forall₂_iff_get.mpr
  refine ⟨hlength, fun index hleft hright => ?_⟩
  apply h index
  · exact List.getElem?_eq_getElem hleft
  · exact List.getElem?_eq_getElem hright

end

section

variable {server : Server N} {history : List (Nat × Section)} {received : List Asked}

theorem received_of_incomings {threads : List Thread} {incomings : List Incoming}
    (hthreads : threads.map Thread.incoming = incomings)
    (h : List.Forall₂ (fun incoming asked => server.receive incoming = .ok asked)
      incomings received) : Received server threads received := by
  rw [← hthreads, List.forall₂_map_left_iff] at h
  exact h

/-- Requests that come in turn have their selections at their own places. -/
theorem getElem?_selected (heach : EachSelected received history)
    (hindices : history.map Prod.fst = List.range received.length) {index : Nat} {asked : Asked}
    {result : MatchResult} (hat : received[index]? = some asked)
    (hsections : sectionsOf index history = [.selected asked result]) :
    (selected history)[index]? = some (asked, result) := by
  have hindex := (List.getElem?_eq_some_iff.mp hat).1
  have hselected := congrArg (fun entries => entries[index]?) heach.selected_eq
  rw [hindices] at hselected
  simp only [List.getElem?_map, List.getElem?_range hindex, Option.map_some, resultOf,
    hsections] at hselected
  obtain ⟨entry, hentry, hsame⟩ := Option.map_eq_some_iff.mp hselected
  rw [hentry, hsame]
  rfl

theorem asked_in_turn (heach : EachSelected received history)
    (hindices : history.map Prod.fst = List.range received.length) :
    (selected history).map Prod.fst = received := by
  apply List.ext_getElem?
  intro index
  rcases hat : received[index]? with _ | asked
  · rw [List.getElem?_eq_none_iff] at hat ⊢
    rwa [heach.asked_perm.length_eq]
  · obtain ⟨result, hsections⟩ := heach.2 index asked hat
    rw [List.getElem?_map, getElem?_selected heach hindices hat hsections]
    rfl

end

/-! ### Recorded, published, loaded and asked again -/

section

variable {storage : Codec} {server : Server N} {settings : Settings}
  {limits : StoreLimits} {inner final : RecordingInner} {exchanges : List Exchange}
  {flows : List Flow} {session : Session} {state : ReplayState} {incomings : List Incoming}
  {received : List Asked}

/-- A recording that was published, and the server that loaded it. -/
structure Reloaded (storage : Codec) (server : Server N) (settings : Settings)
    (limits : StoreLimits) (exchanges : List Exchange) (flows : List Flow) (session : Session)
    (limit : Nat) (state : ReplayState) : Prop where
  opened : Opened storage session flows
  records : List.Forall₂ (Records storage server.codec settings limits.maxBlobBytes) exchanges
    flows
  read : ∀ blob, server.readBlob blob = (Session.readBlob storage session blob).toOption
  candidates : state.candidates = flows.map MatchCandidate.fromFlow
  fresh : state.session = .new
  matcher : state.matcher = Matcher.strict limit
  scenario : state.scenario = none
  inAppend : state.candidateInAppend = List.replicate state.candidates.length false

theorem reloaded {metadata : SessionMetadata}
    (hcreate : RecordingInner.create false metadata limits = .ok inner)
    (hrecord : recordAll storage server.codec settings exchanges inner = (.ok flows, final))
    (hfinish : (final.finish storage).result = .ok session)
    (hdecodes : DecodesFlows storage flows) {limit : Nat} {timing : StreamTimingMode}
    (hload : loadInner storage server.websocketFeature session (Matcher.strict limit) none timing =
      .ok state)
    (hread : ∀ blob, server.readBlob blob = (Session.readBlob storage session blob).toOption) :
    Reloaded storage server settings limits exchanges flows session limit state := by
  simp only [RecordingInner.create, bind_unit_eq_ok, ensure_eq_ok, pure_eq_ok] at hcreate
  obtain ⟨-, hschema, rfl⟩ := hcreate
  have hcreated : RecordingSound limits
      { inner := { toStaged := Staged.empty, metadata, limits }, flows := [] } :=
    ⟨sound_empty limits, rfl, hschema⟩
  obtain ⟨hsound, hrecords⟩ := recordAll_sound hrecord hcreated
  rw [List.nil_append] at hsound
  obtain ⟨root, hopen, hopened⟩ := published_opened hsound hdecodes hfinish
  obtain ⟨hsession, hmatcher, hscenario, hinAppend⟩ := loaded_state hopen hload
  refine ⟨hopened, hrecords, hread, ?_, hsession, hmatcher, hscenario, hinAppend⟩
  simp only [loadInner, bind_eq_ok, pure_eq_ok] at hload
  obtain ⟨_, -, candidates, hcandidates, _, -, _, -, _, -, _, -, rfl⟩ := hload
  rw [loadCandidates_opened hopened] at hcandidates
  exact (Except.ok.inj hcandidates).symm

theorem Reloaded.plain {limit : Nat}
    (h : Reloaded storage server settings limits exchanges flows session limit state) :
    Plain state where
  scenario := h.scenario
  inAppend := by rw [h.inAppend, List.length_replicate]

variable [DecidableEq N]

/-- All requests match their own candidates exactly where all replay themselves. -/
theorem Reloaded.in_order_iff {limit : Nat}
    (h : Reloaded storage server settings limits exchanges flows session limit state)
    (hrepeats : List.Forall₂ (Repeats server.codec limits.maxBlobBytes) exchanges received)
    (hdependable : List.Forall₂ (fun exchange (asked : Asked) =>
      Dependable storage server.codec settings exchange asked.body) exchanges received) :
    (serve server.codec (Matcher.strict limit) state.candidates .once .new
        (received.map server.arrival)).1 = (List.range received.length).map MatchResult.matched ↔
      List.Forall₂ (ReplaysItself server.codec settings) exchanges received := by
  have hown : ∀ (index : Nat) (exchange : Exchange) (asked : Asked),
      exchanges[index]? = some exchange → received[index]? = some asked →
      (Matches server.codec (Matcher.strict limit) (flows.map MatchCandidate.fromFlow)
          (server.arrival asked) index ↔
        ReplaysItself server.codec settings exchange asked) := by
    intro index exchange asked hexchange hat
    obtain ⟨other, hother, hrepeat⟩ := exists_of_getElem? hrepeats hat
    obtain rfl := Option.some.inj (hexchange.symm.trans hother)
    obtain ⟨other, hother, hdepend⟩ := exists_of_getElem? hdependable hat
    obtain rfl := Option.some.inj (hexchange.symm.trans hother)
    obtain ⟨flow, hflow, hrecord⟩ := exists_of_getElem? h.records.flip hexchange
    exact matches_own_iff h.opened hflow hrecord hrepeat hdepend h.read limit
  rw [h.candidates, ← List.length_map server.arrival, served_in_order_iff]
  constructor
  · intro hmatches
    apply forall₂_of_getElem? hrepeats.length_eq
    intro index exchange asked hexchange hat
    apply (hown index exchange asked hexchange hat).mp
    apply hmatches
    rw [List.getElem?_map, hat, Option.map_some]
  · intro hreplays index arrival harrival
    rw [List.getElem?_map] at harrival
    obtain ⟨asked, hat, rfl⟩ := Option.map_eq_some_iff.mp harrival
    obtain ⟨exchange, hexchange, hreplay⟩ := exists_of_getElem? hreplays hat
    exact (hown index exchange asked hexchange hat).mpr hreplay

/-- Exchanges are recorded one after another, published and loaded, and their requests come
again in turn. All are answered; they are answered from their own records in order exactly where
each request replays itself, and then with what was recorded for it. -/
theorem recorded_session_replays {metadata : SessionMetadata}
    (hcreate : RecordingInner.create false metadata limits = .ok inner)
    (hrecord : recordAll storage server.codec settings exchanges inner = (.ok flows, final))
    (hfinish : (final.finish storage).result = .ok session)
    (hdecodes : DecodesFlows storage flows) {limit : Nat} {timing : StreamTimingMode}
    (hload : loadInner storage server.websocketFeature session (Matcher.strict limit) none timing =
      .ok state)
    (hread : ∀ blob, server.readBlob blob = (Session.readBlob storage session blob).toOption)
    (hreceived : List.Forall₂ (fun incoming asked => server.receive incoming = .ok asked)
      incomings received)
    (hrepeats : List.Forall₂ (Repeats server.codec limits.maxBlobBytes) exchanges received)
    (hdependable : List.Forall₂ (fun exchange (asked : Asked) =>
      Dependable storage server.codec settings exchange asked.body) exchanges received) :
    ∃ last, run (step server) (started state) (inTurn 0 incomings) = some last ∧
      last.threads.map Thread.incoming = incomings ∧
      (∀ thread ∈ last.threads, ∃ answer, thread.phase = .answered answer) ∧
      ((selected (sections server state (inTurn 0 incomings))).map Prod.snd =
          (List.range received.length).map MatchResult.matched ↔
        List.Forall₂ (ReplaysItself server.codec settings) exchanges received) ∧
      (List.Forall₂ (ReplaysItself server.codec settings) exchanges received →
        List.Forall₂ (fun thread flow =>
          thread.phase = .answered (server.reply state thread.incoming false flow))
          last.threads flows) := by
  have hreloaded := reloaded hcreate hrecord hfinish hdecodes hload hread
  obtain ⟨last, hrun, hincomings, hanswered, hindices⟩ :=
    @inTurn_run N _ server (started state) incomings received hreceived hreloaded.plain
  replace hrun : run (step server) (started state) (inTurn 0 incomings) = some last := hrun
  replace hincomings : last.threads.map Thread.incoming = incomings := hincomings
  replace hindices : (sections server state (inTurn 0 incomings)).map Prod.fst =
      List.range received.length := by
    rw [List.range_eq_range', ← hreceived.length_eq]
    exact hindices
  replace hanswered := hanswered (fun thread hthread => absurd hthread List.not_mem_nil)
  have hkept := kept_run hrun
  have hasked := received_of_incomings hincomings hreceived
  have heach := eachSelected hkept hreloaded.scenario hanswered hasked
  generalize sections server state (inTurn 0 incomings) = history at hindices hkept heach
  have hserved : (serve server.codec (Matcher.strict limit) state.candidates .once .new
      (received.map server.arrival)).1 = (selected history).map Prod.snd := by
    have hselections := hkept.sequential.selections
    rw [hreloaded.fresh, hreloaded.matcher] at hselections
    rw [← asked_in_turn heach hindices, List.map_map]
    exact congrArg Prod.fst hselections
  have hiff := hreloaded.in_order_iff hrepeats hdependable
  rw [hserved] at hiff
  refine ⟨last, hrun, hincomings, hanswered, hiff, ?_⟩
  intro hreplays
  apply forall₂_of_getElem?
  · rw [← hreloaded.records.length_eq, hrepeats.length_eq, hasked.length_eq]
  intro index thread flow hthread hflow
  obtain ⟨exchange, hexchange, -⟩ := exists_of_getElem? hreloaded.records hflow
  obtain ⟨asked, hat, -⟩ := exists_of_getElem? hrepeats.flip hexchange
  obtain ⟨answer, hanswer⟩ := hanswered thread (List.mem_of_getElem? hthread)
  have hcourse := hkept.courses index thread hthread
  rw [hanswer] at hcourse
  obtain ⟨result, hsections, hconclude⟩ :=
    Course.selected_once hcourse hreloaded.scenario (hasked.at hthread hat)
  have hresult : result = .matched index := by
    have hselected := congrArg (fun results => results[index]?) (hiff.mpr hreplays)
    have hindex := (List.getElem?_eq_some_iff.mp hat).1
    simp only [List.getElem?_map, getElem?_selected heach hindices hat hsections,
      List.getElem?_range hindex, Option.map_some, Option.some.injEq] at hselected
    exact hselected
  rw [hresult] at hconclude
  rw [hanswer, conclude_matched hreloaded.candidates _ hreloaded.inAppend hconclude]
  rw [List.getElem?_map, hflow, Option.map_some]

end

/-! ### A request without a body -/

/-- A request without a body, answered without one. -/
def quietExchange : Exchange :=
  { formPost [] "" with headers := [], polled := [], requestEnd := none }

/-- The routines, with a digest of nothing. -/
def quietCodec : BodyCodec Nat :=
  { formCodec with sha256 := fun bytes => if bytes = [] then emptyDigest else "" }

def quietStorage : Codec := { formStorage with sha256Hex := quietCodec.sha256 }

def quietFlow : Flow :=
  match (recordRequestWithSession quietStorage quietCodec formSettings quietExchange
    freshSession).1 with
  | .ok flow => flow
  | .error _ => sampleFlow

def quietInner : RecordingInner :=
  (recordRequestWithSession quietStorage quietCodec formSettings quietExchange freshSession).2

/-- The storage routines on what the recording writes. -/
def quietStore : Codec :=
  { quietStorage with
    decodeFlow := fun _ => .ok quietFlow
    decodeManifest := fun _ => .ok
      { metadata := { freshMetadata with schemaVersion := 2 }
        complete := true
        flowCount := 1
        blobCount := 0
        extensions :=
          [{ name := "stream-events", schemaVersion := 1, path := "stream-events.json"
             requiredForReplay := true }] }
    decodeStreamEvents := fun _ => .ok quietInner.streamEvents }

def quietPublished : Except StoreError Session := (quietInner.finish quietStore).result

def quietServer (session : Session) : Server Nat :=
  { byteServer with
    codec := quietCodec
    readBlob := fun blob => (Session.readBlob quietStore session blob).toOption }

def quietIncoming : Incoming where
  head :=
    { version := .http11, method := "POST", scheme := "http", authority := some "example.test"
      path := "/", query := none, headers := [] }
  body := .ok ([], [])
  tunnel := none

def quietAsked : Asked where
  request := requestFromEggserve byteServer.packages quietIncoming.head [] []
  body := []

theorem quiet_decodes (bytes : Bytes) : quietStore.decodeFlow bytes = .ok quietFlow := rfl

theorem quiet_recorded :
    recordAll quietStore quietCodec formSettings [quietExchange] freshSession =
      (.ok [quietFlow], quietInner) := by
  have hok : (recordRequestWithSession quietStore quietCodec formSettings quietExchange
      freshSession).1.isOk = true := by
    decide +kernel
  obtain ⟨flow, next, hrun⟩ := Op.exists_of_isOk hok
  have hsame : recordRequestWithSession quietStorage quietCodec formSettings quietExchange
      freshSession = (.ok flow, next) := hrun
  have hflow : quietFlow = flow := by
    unfold quietFlow
    rw [hsame]
  rw [recordAll_cons, hflow]
  refine ⟨flow, next, [], hrun, ?_, rfl⟩
  rw [quietInner, hsame]
  rfl

theorem quiet_published :
    ∃ session state, (quietInner.finish quietStore).result = .ok session ∧
      loadInner quietStore true session (Matcher.strict 0) none .immediate = .ok state := by
  have hloads : (quietPublished.toOption.any fun session =>
      (loadInner quietStore true session (Matcher.strict 0) none .immediate).isOk) = true := by
    decide +kernel
  obtain ⟨session, hsession, hloaded⟩ := (Option.any_eq_true _ _).mp hloads
  rcases hstate : loadInner quietStore true session (Matcher.strict 0) none .immediate
    with error | state
  · rw [hstate] at hloaded
    cases hloaded
  · refine ⟨session, state, ?_, hstate⟩
    rcases hpublished : quietPublished with error | other
    · rw [hpublished] at hsession
      cases hsession
    · rw [hpublished] at hsession
      exact hpublished.trans (congrArg Except.ok (Option.some.inj hsession))

theorem quiet_unchanged : redactedContent quietCodec formSettings
    (contentType quietExchange.headers) quietAsked.body = [] := by
  decide

theorem quiet_dependable :
    Dependable quietStore quietCodec formSettings quietExchange quietAsked.body where
  prints := by
    refine ⟨?_, by decide, ?_, ?_⟩
    · rintro value ⟨⟩
    · exact fun h => absurd rfl h
    · exact fun h => absurd rfl h
  digest := rfl
  lower := by
    rintro clean rfl
    rw [quiet_unchanged]
    decide
  unshared := by
    rintro clean rfl
    rw [quiet_unchanged]
    have hdigest : ∀ bytes, quietStore.sha256Hex bytes = quietStore.sha256Hex [] →
        bytes = [] := by
      intro bytes hbytes
      by_contra hother
      have hempty : quietStore.sha256Hex bytes = "" := if_neg hother
      rw [hempty] at hbytes
      revert hbytes
      decide
    exact fun left right hleft hright => (hdigest left hleft).trans (hdigest right hright).symm

theorem quiet_repeats :
    Repeats quietCodec StoreLimits.default.maxBlobBytes quietExchange quietAsked where
  head converted hhead := by
    have hhost : withoutUserinfo "example.test" = "example.test" := by decide
    replace hhead : Except.ok _ = Except.ok converted := hhead
    rw [hhost] at hhead
    obtain rfl := Except.ok.inj hhead
    rfl
  body := by decide

/-- The request is answered from its record. -/
theorem quiet_recorded_replays :
    ∃ session state last, (quietInner.finish quietStore).result = .ok session ∧
      run (step (quietServer session)) (started state) (inTurn 0 [quietIncoming]) = some last ∧
      List.Forall₂ (fun thread flow =>
        thread.phase = .answered ((quietServer session).reply state thread.incoming false flow))
        last.threads [quietFlow] := by
  obtain ⟨session, state, hsession, hstate⟩ := quiet_published
  have hcreate : RecordingInner.create false freshMetadata StoreLimits.default =
      .ok freshSession := rfl
  have hdecodes : DecodesFlows quietStore [quietFlow] := by
    intro flow hflow
    rw [List.mem_singleton.mp hflow]
    exact quiet_decodes _
  have hreceived : (quietServer session).receive quietIncoming = .ok quietAsked := rfl
  obtain ⟨last, hrun, -, -, -, hanswers⟩ := @recorded_session_replays Nat quietStore
    (quietServer session) formSettings _ _ _ _ _ session state _ _ _ _ hcreate quiet_recorded
    hsession hdecodes _ _ hstate (fun _ => rfl) (.cons hreceived .nil) (.cons quiet_repeats .nil)
    (.cons quiet_dependable .nil)
  exact ⟨session, state, last, hsession, hrun, hanswers (.cons (.inl rfl) .nil)⟩

end EggReplay.Http.RecordedReplay
