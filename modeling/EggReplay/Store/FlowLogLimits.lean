import EggReplay.Store.SessionRuns

/-!
The limits of the flow log as the writers and the readers count them. A writer
bounds the encoded flow; a reader bounds the line, which has one byte more.
-/

namespace EggReplay.Store.FlowLogLimits

open EggReplay.Library.Checks
open EggReplay.Library.Text
open EggReplay.Library.LineLog
open EggReplay.Core.FlowRecord
open EggReplay.Core.StreamTimeline
open EggReplay.Store.Fixture
open EggReplay.Store.SessionOpen
open EggReplay.Store.Staging
open EggReplay.Store.StagedInvariant
open EggReplay.Store.Publication
open EggReplay.Store.Writer
open EggReplay.Store.Recording
open EggReplay.Store.SessionRuns

/-- A staged session without flows or extensions, whose bodies are already there. -/
def Staged.withBlobs (blobs : List (BlobName × Bytes)) : Staged :=
  { Staged.empty with directory := { Staged.empty.directory with blobs } }

/-- The flows of a list that the two sides are compared on. -/
structure PlainFlows (codec : Codec) (limits : StoreLimits) (root : Directory)
    (flows : List Flow) : Prop where
  ids : (flowIds flows).Nodup
  blobs : ∀ flow ∈ flows, validateBodyFiles codec root flow limits = .ok ()
  upgrades : ∀ flow ∈ flows, websocket101 flow = false
  decodes : DecodesFlows codec flows

/-- `finish` succeeds, the manifest counts the flows, and the iterator over the
published log yields them in order without an error. -/
def ReadsAll (codec : Codec) (flows : List Flow) (publication : Publication) : Prop :=
  ∃ session iter, publication.result = .ok session ∧
    session.manifest.flowCount = flows.length ∧ session.iterFlows = .ok iter ∧
    iter.items codec = flows.map .ok

/-! ### Appending all flows -/

theorem sound_withBlobs (limits : StoreLimits) (blobs : List (BlobName × Bytes)) :
    Sound limits [] (Staged.withBlobs blobs) :=
  (sound_empty limits).congr rfl (fun _ _ => rfl) rfl rfl rfl

/-- What appending flows one after the other leaves alone. -/
structure Appended (limits : StoreLimits) (flows : List Flow) (start staged : Staged) :
    Prop where
  sound : Sound limits flows staged
  lines : ∀ flow ∈ flows, flow.encode.length ≤ limits.maxLineBytes
  blobs : staged.directory.blobs = start.directory.blobs
  extensions : staged.extensions = start.extensions
  streamEvents : staged.streamEvents = start.streamEvents
  websocket : staged.websocket = start.websocket
  manifest : staged.directory.files manifestFile = start.directory.files manifestFile

theorem Appended.append {limits : StoreLimits} {flows : List Flow} {start staged : Staged}
    {flow : Flow} (h : Appended limits flows start staged)
    (happend : Appendable limits staged flow) :
    Appended limits (flows ++ [flow]) start
      (staged.writeFlow flow (staged.totalBytes + flowBodyBytes flow)) where
  sound := h.sound.appendFlow happend
  lines := by
    intro other hother
    rcases List.mem_append.mp hother with hold | hnew
    · exact h.lines other hold
    · rw [List.mem_singleton.mp hnew]
      exact happend.line
  blobs := h.blobs
  extensions := h.extensions
  streamEvents := h.streamEvents
  websocket := h.websocket
  manifest := (extendFile_other (by decide)).trans h.manifest

theorem writer_appendAll {writer final : SessionWriter} {start : Staged}
    {before flows : List Flow}
    (h : checkFold SessionWriter.appendFlow writer flows = .ok final)
    (happended : Appended writer.limits before start writer.toStaged) :
    Appended writer.limits (before ++ flows) start final.toStaged ∧
      final.limits = writer.limits ∧ final.metadata = writer.metadata := by
  induction flows generalizing writer before with
  | nil =>
      obtain rfl := Except.ok.inj h
      simpa using happended
  | cons flow rest ih =>
      rw [checkFold_cons, bind_eq_ok] at h
      obtain ⟨next, hnext, hrest⟩ := h
      obtain ⟨happend, rfl⟩ := appendFlow_appendable hnext
      have hfinal := ih hrest (happended.append happend)
      simpa using hfinal

theorem recording_appendAll {inner final : RecordingInner} {start : Staged}
    {before flows : List Flow}
    (h : checkFold RecordingInner.appendFlow inner flows = .ok final)
    (happended : Appended inner.limits before start inner.toStaged) :
    Appended inner.limits (before ++ flows) start final.toStaged ∧
      final = { inner with toStaged := final.toStaged } := by
  induction flows generalizing inner before with
  | nil =>
      obtain rfl := Except.ok.inj h
      simpa using happended
  | cons flow rest ih =>
      rw [checkFold_cons, bind_eq_ok] at h
      obtain ⟨next, hnext, hrest⟩ := h
      obtain ⟨happend, rfl⟩ := recording_appendFlow_appendable hnext
      obtain ⟨hfinal, hsame⟩ := ih hrest (happended.append happend)
      exact ⟨by simpa using hfinal, hsame⟩

/-! ### The fixture check on plain flows -/

theorem scan_plain {codec : Codec} {maxLineBytes : Nat} {flows : List Flow}
    (hdecodes : DecodesFlows codec flows)
    (hupgrades : ∀ flow ∈ flows, websocket101 flow = false)
    (hlines : ∀ flow ∈ flows, flow.encode.length + 1 ≤ maxLineBytes) :
    checkFold (scanFlowLine codec maxLineBytes) [] (lines flows) = .ok [] := by
  induction flows with
  | nil => rfl
  | cons flow rest ih =>
      have hsize : (flow.encode ++ [newline]).length ≤ maxLineBytes := by
        simpa using hlines flow (by simp)
      have hstep : scanFlowLine codec maxLineBytes [] (flow.encode ++ [newline]) = .ok [] := by
        simp only [scanFlowLine, ensure_of_true hsize, ok_bind, hdecodes flow (by simp)]
        show (pure _ : Except StoreError _) = _
        rw [hupgrades flow (by simp)]
        rfl
      have hrest := ih (fun f hf => hdecodes f (by simp [hf]))
        (fun f hf => hupgrades f (by simp [hf])) fun f hf => hlines f (by simp [hf])
      rw [lines, List.map_cons, checkFold_cons, hstep, ok_bind]
      exact hrest

/-- Without upgrades and extensions the fixture check is the line bound. -/
theorem fixture_plain_iff {codec : Codec} {limits : StoreLimits} {staged : Staged}
    {flows : List Flow} (hsound : Sound limits flows staged)
    (hdecodes : DecodesFlows codec flows)
    (hupgrades : ∀ flow ∈ flows, websocket101 flow = false)
    (hextensions : staged.extensions = []) :
    validateWebsocketFixture codec staged.directory staged.extensions limits.maxLineBytes
        limits.maxBlobBytes = .ok () ↔
      ∀ flow ∈ flows, flow.encode.length + 1 ≤ limits.maxLineBytes := by
  constructor
  · exact fun h => fixture_lines_bound hsound.log h
  · intro hlines
    rw [validateWebsocketFixture, readFile_eq_ok.mpr hsound.log, ok_bind, records_log,
      scan_plain hdecodes hupgrades hlines, ok_bind, hextensions]
    rfl

theorem open_fields {codec : Codec} {root : Directory} {limits : StoreLimits}
    {session : Session} (h : Session.open codec root limits = .ok session) :
    session.root = root ∧ session.limits = limits ∧
      ∃ bytes, root.files manifestFile = some bytes ∧
        codec.decodeManifest bytes = .ok session.manifest := by
  unfold Session.open at h
  simp only [bind_eq_ok, readFile_eq_ok, mapError_eq_ok, pure_eq_ok] at h
  obtain ⟨bytes, hbytes, manifest, hmanifest, -, -, -, -, -, -, -, -, -, -, -, -, -, -, -, -,
    -, -, -, -, rfl⟩ := h
  exact ⟨rfl, rfl, bytes, hbytes, hmanifest⟩

/-- Publication reads everything back exactly when no line has the very length
that the writer's bound still admits. -/
theorem publish_reads_iff {codec : Codec} {limits : StoreLimits} {flows : List Flow}
    {blobs : List (BlobName × Bytes)} {staged : Staged}
    {staging : Except StoreError (Directory × Manifest)}
    (happended : Appended limits flows (Staged.withBlobs blobs) staged)
    (hplain : PlainFlows codec limits (Staged.withBlobs blobs).directory flows)
    (hstaging : (∃ root manifest, staging = .ok (root, manifest)) ↔
      validateWebsocketFixture codec staged.directory staged.extensions limits.maxLineBytes
        limits.maxBlobBytes = .ok ())
    (hcomplete : ∀ root manifest, staging = .ok (root, manifest) →
      Completes codec limits staged root manifest)
    (hmanifests : DecodesManifest codec staging) :
    ReadsAll codec flows (publish codec limits staging) ↔
      ∀ flow ∈ flows, flow.encode.length ≠ limits.maxLineBytes := by
  have hextensions : staged.extensions = [] := happended.extensions
  have hfixture := fixture_plain_iff happended.sound hplain.decodes hplain.upgrades hextensions
  have hbound : (∀ flow ∈ flows, flow.encode.length + 1 ≤ limits.maxLineBytes) ↔
      ∀ flow ∈ flows, flow.encode.length ≠ limits.maxLineBytes := by
    refine forall₂_congr fun flow hflow => ?_
    have hline := happended.lines flow hflow
    omega
  rw [← hbound, ← hfixture, ← hstaging]
  constructor
  · rintro ⟨session, iter, hresult, -⟩
    rcases hcase : staging with error | ⟨root, manifest⟩
    · rw [hcase] at hresult
      simp [publish] at hresult
    · exact ⟨root, manifest, rfl⟩
  · rintro ⟨root, manifest, hcase⟩
    have hcompleted := hcomplete root manifest hcase
    have hmanifest := hmanifests root manifest hcase
    have hempty : staged.streamEvents.flows = [] := by
      rw [happended.streamEvents]
      rfl
    have hpublishable : Publishable codec limits flows staged := by
      refine ⟨hplain.ids, ?_, ?_, ?_⟩
      · intro flow hflow
        rw [validateBodyFiles_congr codec fun _ => blob?_congr happended.blobs _]
        exact hplain.blobs flow hflow
      · simp [hextensions]
      · simp [publishedTimelines, hempty, hextensions, findExtension]
    obtain ⟨session, hsession⟩ := (open_iff_publishable happended.sound hcompleted
      hplain.decodes hmanifest (absurd hempty)).mpr hpublishable
    obtain ⟨hroot, hlimits, bytes, hbytes, hdecoded⟩ := open_fields hsession
    obtain ⟨middle, final, hstream, htranscript, hfixtureFinal, hwrite, -⟩ := hcompleted.stages
    have hmanifestWritten := writeManifest_eq_ok hwrite happended.sound.count
    have hfinal : Sound limits flows final :=
      htranscript.sound (hstream.sound happended.sound)
    have hsame : session.manifest = manifest := by
      rw [hmanifestWritten.file] at hbytes
      rw [← Option.some.inj hbytes, hmanifest] at hdecoded
      exact (Except.ok.inj hdecoded).symm
    have hlog : root.files flowLog = some (written newline (flows.map Flow.encode)) := by
      rw [hmanifestWritten.other flowLog (by decide), hfinal.log]
    refine ⟨session, ⟨written newline (flows.map Flow.encode), limits, 0⟩, ?_, ?_, ?_, ?_⟩
    · rw [hcase, publish]
      exact hsession
    · rw [hsame, hmanifestWritten.flowCount]
    · rw [Session.iterFlows, hroot, readFile_eq_ok.mpr hlog, hlimits]
      rfl
    · exact published_items hfinal hplain.decodes hfixtureFinal

/-! ### Both writers -/

/-- With no registry to write, the stage of a session writer is the fixture check. -/
theorem writer_stage_plain {codec : Codec} {writer : SessionWriter}
    (hstream : writer.streamEvents.flows = []) (hwebsocket : writer.websocket.conversations = [])
    (habsent : writer.directory.files manifestFile = none) :
    (∃ root manifest, writer.stage codec = .ok (root, manifest)) ↔
      validateWebsocketFixture codec writer.directory writer.extensions
        writer.limits.maxLineBytes writer.limits.maxBlobBytes = .ok () := by
  have hname : manifestFile ≠ "blobs" := by decide
  simp [SessionWriter.stage, SessionWriter.writeStreamEventsExtension, hstream,
    SessionWriter.writeWebsocketExtension, hwebsocket, Staged.writeManifest, habsent, hname]

theorem recording_stage_plain {codec : Codec} {inner : RecordingInner}
    (hactive : inner.activeBlobs = 0) (hopen : inner.flowsOpen = true)
    (hstream : inner.streamEvents.flows = []) (hwebsocket : inner.websocket.conversations = [])
    (habsent : inner.directory.files manifestFile = none) :
    (∃ root manifest, inner.stage codec = .ok (root, manifest)) ↔
      validateWebsocketFixture codec inner.directory inner.extensions
        inner.limits.maxLineBytes inner.limits.maxBlobBytes = .ok () := by
  have hname : manifestFile ≠ "blobs" := by decide
  simp [RecordingInner.stage, RecordingInner.requestShutdown, hactive, RecordingInner.takeFlows,
    hopen, RecordingInner.writeStreamEventsExtension, hstream,
    RecordingInner.writeWebsocketExtension, hwebsocket, RecordingInner.checkFixture,
    Staged.writeManifest, habsent, hname]

theorem appended_withBlobs (limits : StoreLimits) (blobs : List (BlobName × Bytes)) :
    Appended limits [] (Staged.withBlobs blobs) (Staged.withBlobs blobs) :=
  ⟨sound_withBlobs limits blobs, by simp, rfl, rfl, rfl, rfl, rfl⟩

/-- The flows that a writer accepted read back in full exactly when none of them
encodes to the very length of the line limit, for either writer. -/
theorem accepted_flows_read_back_iff (codec : Codec) (limits : StoreLimits)
    (metadata : SessionMetadata) (hschema : supportedSchema metadata.schemaVersion)
    (blobs : List (BlobName × Bytes)) (flows : List Flow)
    (hplain : PlainFlows codec limits (Staged.withBlobs blobs).directory flows) :
    (∀ final, checkFold SessionWriter.appendFlow
        { toStaged := Staged.withBlobs blobs, metadata, limits } flows = .ok final →
      DecodesManifest codec (final.stage codec) →
      (ReadsAll codec flows (final.finish codec) ↔
        ∀ flow ∈ flows, flow.encode.length ≠ limits.maxLineBytes)) ∧
    ∀ final, checkFold RecordingInner.appendFlow
        { toStaged := Staged.withBlobs blobs, metadata, limits } flows = .ok final →
      DecodesManifest codec (final.stage codec) →
      (ReadsAll codec flows (final.finish codec) ↔
        ∀ flow ∈ flows, flow.encode.length ≠ limits.maxLineBytes) := by
  refine ⟨?_, ?_⟩
  · intro final happend hmanifests
    obtain ⟨happended, hlimits, hmetadata⟩ :=
      writer_appendAll happend (appended_withBlobs limits blobs)
    simp only at hlimits hmetadata
    rw [List.nil_append] at happended
    have hsound : WriterSound limits { writer := final, flows } := by
      refine ⟨happended.sound, hlimits, ?_, ?_⟩
      · rw [hmetadata]
        exact hschema
      · exact fun hne => absurd happended.extensions hne
    have hstage := @writer_stage_plain codec final
      (by rw [happended.streamEvents]; rfl) (by rw [happended.websocket]; rfl)
      (by rw [happended.manifest]; rfl)
    rw [hlimits] at hstage
    rw [SessionWriter.finish, hlimits]
    exact publish_reads_iff happended hplain hstage
      (fun root manifest h => writer_stage_completes hsound h) hmanifests
  · intro final happend hmanifests
    obtain ⟨happended, hfinal⟩ := recording_appendAll happend (appended_withBlobs limits blobs)
    rw [List.nil_append] at happended
    have hlimits : final.limits = limits := by rw [hfinal]
    have hsound : RecordingSound limits { inner := final, flows } := by
      refine ⟨happended.sound, hlimits, ?_⟩
      rw [hfinal]
      exact hschema
    have hstage := @recording_stage_plain codec final (by rw [hfinal]) (by rw [hfinal])
      (by rw [happended.streamEvents]; rfl) (by rw [happended.websocket]; rfl)
      (by rw [happended.manifest]; rfl)
    rw [hlimits] at hstage
    rw [RecordingInner.finish, hlimits]
    exact publish_reads_iff happended hplain hstage
      (fun root manifest h => recording_stage_completes hsound h) hmanifests

/-! ### One flow -/

theorem sample_plain (limits : StoreLimits) :
    PlainFlows (sampleCodec 1) limits (Staged.withBlobs []).directory [sampleFlow] where
  ids := by decide
  blobs := by
    rintro flow hflow
    rw [List.mem_singleton.mp hflow]
    rfl
  upgrades := by decide
  decodes := by
    rintro flow hflow
    rw [List.mem_singleton.mp hflow]
    simp [sampleCodec]

def plainWriter (limits : StoreLimits) : SessionWriter :=
  { toStaged := Staged.withBlobs [], metadata := sampleMetadata, limits }

def plainSession (limits : StoreLimits) : RecordingInner :=
  { toStaged := Staged.withBlobs [], metadata := sampleMetadata, limits }

/-- The writer after the sample flow, where it was accepted. -/
def sampledWriter (limits : StoreLimits) : SessionWriter :=
  settle (checkFold SessionWriter.appendFlow (plainWriter limits) [sampleFlow])
    (plainWriter limits) id

def sampledSession (limits : StoreLimits) : RecordingInner :=
  settle (checkFold RecordingInner.appendFlow (plainSession limits) [sampleFlow])
    (plainSession limits) id

theorem decodesManifest_sample {staging : Except StoreError (Directory × Manifest)}
    (h : stagesSample 1 staging = true) : DecodesManifest (sampleCodec 1) staging :=
  (@sample_readsBack 1 [] Staged.empty staging (by simp) rfl h).manifest

/-- The sample flow is far from the default line limit and reads back. -/
theorem sample_reads_back :
    ReadsAll (sampleCodec 1) [sampleFlow]
        ((sampledWriter StoreLimits.default).finish (sampleCodec 1)) ∧
      ReadsAll (sampleCodec 1) [sampleFlow]
        ((sampledSession StoreLimits.default).finish (sampleCodec 1)) := by
  have hlength : ∀ flow ∈ [sampleFlow],
      flow.encode.length ≠ StoreLimits.default.maxLineBytes := by decide +kernel
  have hboth := accepted_flows_read_back_iff (sampleCodec 1) StoreLimits.default sampleMetadata
    (by decide) [] [sampleFlow] (sample_plain _)
  refine ⟨(hboth.1 (sampledWriter StoreLimits.default) ?_ ?_).mpr hlength,
    (hboth.2 (sampledSession StoreLimits.default) ?_ ?_).mpr hlength⟩
  · exact eq_ok_settle (by decide +kernel)
  · exact decodesManifest_sample (by decide +kernel)
  · exact eq_ok_settle (by decide +kernel)
  · exact decodesManifest_sample (by decide +kernel)

/-- A line limit of exactly the encoded length of the sample flow. -/
def tightLimits : StoreLimits :=
  { StoreLimits.default with maxLineBytes := sampleFlow.encode.length }

def fails (publication : Publication) : Bool :=
  match publication.result with
  | .error _ => true
  | .ok _ => false

theorem not_readsAll_of_fails {codec : Codec} {flows : List Flow} {publication : Publication}
    (h : fails publication = true) : ¬ReadsAll codec flows publication := by
  rintro ⟨session, iter, hresult, -⟩
  simp [fails, hresult] at h

/-- Both writers accept the sample flow under the tight limit and lose the session. -/
theorem tight_limit_loses_session :
    PlainFlows (sampleCodec 1) tightLimits (Staged.withBlobs []).directory [sampleFlow] ∧
    checkFold SessionWriter.appendFlow (plainWriter tightLimits) [sampleFlow] =
      .ok (sampledWriter tightLimits) ∧
    ¬ReadsAll (sampleCodec 1) [sampleFlow]
      ((sampledWriter tightLimits).finish (sampleCodec 1)) ∧
    checkFold RecordingInner.appendFlow (plainSession tightLimits) [sampleFlow] =
      .ok (sampledSession tightLimits) ∧
    ¬ReadsAll (sampleCodec 1) [sampleFlow]
      ((sampledSession tightLimits).finish (sampleCodec 1)) := by
  refine ⟨sample_plain _, eq_ok_settle ?_, not_readsAll_of_fails ?_, eq_ok_settle ?_,
    not_readsAll_of_fails ?_⟩
  all_goals decide +kernel

end EggReplay.Store.FlowLogLimits
