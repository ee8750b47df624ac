import EggReplay.Store.BlobContents
import EggReplay.Store.Publication
import EggReplay.Store.Writer
import EggReplay.Store.Recording

/-!
Whole runs of the two writers, from creation through any operations to `finish`.
A rejected operation leaves the session as it was; each accepted one is a step of
the staged session, so that its invariant holds when `finish` is called.
-/

namespace EggReplay.Store.SessionRuns

open EggReplay.Library.Checks
open EggReplay.Library.Text
open EggReplay.Library.LineLog
open EggReplay.Core.FlowRecord
open EggReplay.Core.StreamTimeline
open EggReplay.Core.WebSockets
open EggReplay.Store.Fixture
open EggReplay.Store.SessionOpen
open EggReplay.Store.Staging
open EggReplay.Store.BlobContents (publish_files)
open EggReplay.Store.StagedInvariant
open EggReplay.Store.Publication
open EggReplay.Store.Writer
open EggReplay.Store.Recording

/-- The operations of a writer; a body is named by its staging suffix. -/
inductive Operation where
  | beginBlob
  | writeBody (suffix : Nat) (buffer : Bytes)
  | finishBody (suffix : Nat)
  | dropBody (suffix : Nat)
  | appendFlow (flow : Flow)
  | appendStreamEvents (events : FlowStreamEvents)
  | appendWebsocketConversation (conversation : WebSocketConversation)
  | writeExtension (extension : ExtensionDescriptor) (bytes : Bytes)

def findBody (bodies : List BodyWriter) (suffix : Nat) : Option BodyWriter :=
  bodies.find? fun body => body.suffix = suffix

def closeBody (bodies : List BodyWriter) (suffix : Nat) : List BodyWriter :=
  bodies.filter fun body => body.suffix ≠ suffix

def replaceBody (bodies : List BodyWriter) (next : BodyWriter) : List BodyWriter :=
  bodies.map fun body => if body.suffix = next.suffix then next else body

/-! ### Runs of a session writer -/

/-- A session writer, its open bodies, and the flows it has accepted. -/
structure WriterRun where
  writer : SessionWriter
  bodies : List BodyWriter := []
  flows : List Flow := []

def WriterRun.step (codec : Codec) (run : WriterRun) : Operation → WriterRun
  | .beginBlob =>
      let begun := run.writer.beginBlob
      { run with writer := begun.1, bodies := begun.2 :: run.bodies }
  | .writeBody suffix buffer =>
      match findBody run.bodies suffix with
      | none => run
      | some body =>
          settle (body.write run.writer.directory buffer) run fun written =>
            { run with
              writer := { run.writer with directory := written.1 },
              bodies := replaceBody run.bodies written.2 }
  | .finishBody suffix =>
      match findBody run.bodies suffix with
      | none => run
      | some body =>
          { run with
            writer :=
              { run.writer with directory := body.publish codec run.writer.directory },
            bodies := closeBody run.bodies suffix }
  | .dropBody suffix =>
      match findBody run.bodies suffix with
      | none => run
      | some body =>
          { run with
            writer := { run.writer with directory := body.drop run.writer.directory },
            bodies := closeBody run.bodies suffix }
  | .appendFlow flow =>
      settle (run.writer.appendFlow flow) run fun writer =>
        { run with writer, flows := run.flows ++ [flow] }
  | .appendStreamEvents events =>
      settle (run.writer.appendStreamEvents events) run fun writer => { run with writer }
  | .appendWebsocketConversation conversation =>
      settle (run.writer.appendWebsocketConversation conversation) run fun writer =>
        { run with writer }
  | .writeExtension extension bytes =>
      settle (run.writer.writeExtension extension bytes) run fun writer => { run with writer }

def WriterRun.run (codec : Codec) (start : SessionWriter) (operations : List Operation) :
    WriterRun :=
  operations.foldl (WriterRun.step codec) { writer := start }

theorem write_files {root next : Directory} {body after : BodyWriter} {buffer : Bytes}
    (h : body.write root buffer = .ok (next, after)) : next.files = root.files := by
  simp [BodyWriter.write] at h
  rw [← h.2.2.1]
  rfl

theorem reserveStreamEvents_step {limits : StoreLimits} {staged next : Staged}
    {flows : List Flow} {events : FlowStreamEvents}
    (h : staged.reserveStreamEvents events = .ok next) :
    Step limits staged flows next flows ∧ next.extensions = staged.extensions := by
  simp [Staged.reserveStreamEvents] at h
  rw [← h.2.2]
  exact ⟨Step.registries _ _ _ _ staged.websocket, rfl⟩

theorem appendFlow_appendable {writer next : SessionWriter} {flow : Flow}
    (h : writer.appendFlow flow = .ok next) :
    Appendable writer.limits writer.toStaged flow ∧
      next = { writer with
        toStaged := writer.writeFlow flow (writer.totalBytes + flowBodyBytes flow) } := by
  simp [SessionWriter.appendFlow] at h
  obtain ⟨hroom, hvalid, hrefs, hline, htotal, hbound, rfl⟩ := h
  exact ⟨⟨hroom, hvalid, hrefs, hline, htotal, hbound⟩, rfl⟩

/-- The invariant of a session writer's run. -/
structure WriterSound (limits : StoreLimits) (run : WriterRun) : Prop where
  sound : Sound limits run.flows run.writer.toStaged
  limits_eq : run.writer.limits = limits
  schema : supportedSchema run.writer.metadata.schemaVersion
  version : run.writer.extensions ≠ [] →
    run.writer.metadata.schemaVersion = sessionSchemaVersion

/-- A step that leaves the descriptor list and the metadata alone. -/
theorem WriterSound.staged {limits : StoreLimits} {run next : WriterRun}
    (h : WriterSound limits run)
    (hstep : Step limits run.writer.toStaged run.flows next.writer.toStaged next.flows)
    (hextensions : next.writer.extensions = run.writer.extensions)
    (hmetadata : next.writer.metadata = run.writer.metadata)
    (hlimits : next.writer.limits = run.writer.limits) : WriterSound limits next where
  sound := h.sound.step hstep
  limits_eq := hlimits.trans h.limits_eq
  schema := by
    rw [hmetadata]
    exact h.schema
  version := by
    rw [hmetadata, hextensions]
    exact h.version

theorem WriterSound.step {limits : StoreLimits} {codec : Codec} {run : WriterRun}
    (h : WriterSound limits run) (operation : Operation) :
    WriterSound limits (run.step codec operation) := by
  rcases operation with _ | ⟨suffix, buffer⟩ | suffix | suffix | flow | events | conversation |
    ⟨extension, bytes⟩
  · exact h.staged (Step.body _ _ rfl) rfl rfl rfl
  · simp only [WriterRun.step]
    rcases findBody run.bodies suffix with _ | body
    · exact h
    · refine settle_induction h fun written hwritten => ?_
      exact h.staged (Step.body written.1 _ (write_files hwritten)) rfl rfl rfl
  · simp only [WriterRun.step]
    rcases findBody run.bodies suffix with _ | body
    · exact h
    · exact h.staged (Step.body _ _ (publish_files codec _ body)) rfl rfl rfl
  · simp only [WriterRun.step]
    rcases findBody run.bodies suffix with _ | body
    · exact h
    · exact h.staged (Step.body _ _ rfl) rfl rfl rfl
  · refine settle_induction h fun writer hwriter => ?_
    obtain ⟨happend, rfl⟩ := appendFlow_appendable hwriter
    rw [h.limits_eq] at happend
    exact h.staged (Step.flow flow happend) rfl rfl rfl
  · refine settle_induction h fun writer hwriter => ?_
    simp [SessionWriter.appendStreamEvents] at hwriter
    obtain ⟨-, -, staged, hstaged, rfl⟩ := hwriter
    obtain ⟨hstep, hextensions⟩ := reserveStreamEvents_step hstaged
    exact h.staged hstep hextensions rfl rfl
  · refine settle_induction h fun writer hwriter => ?_
    simp [SessionWriter.appendWebsocketConversation] at hwriter
    obtain ⟨websocket, -, rfl⟩ := hwriter
    exact h.staged (Step.registries _ _ _ _ websocket) rfl rfl rfl
  · refine settle_induction h fun writer hwriter => ?_
    simp [SessionWriter.writeExtension] at hwriter
    obtain ⟨staged, hstaged, rfl⟩ := hwriter
    exact ⟨h.sound.step (Step.extension extension bytes hstaged), h.limits_eq,
      (by decide : supportedSchema sessionSchemaVersion), fun _ => rfl⟩

theorem writer_run_sound {limits : StoreLimits} {codec : Codec} {metadata : SessionMetadata}
    {start : SessionWriter} (hcreate : SessionWriter.create false metadata limits = .ok start)
    (operations : List Operation) :
    WriterSound limits (WriterRun.run codec start operations) := by
  have hstart : WriterSound limits { writer := start } := by
    simp [SessionWriter.create] at hcreate
    obtain ⟨hschema, rfl⟩ := hcreate
    exact ⟨sound_empty limits, rfl, hschema, by simp [Staged.empty]⟩
  have hrun : ∀ (items : List Operation) (run : WriterRun), WriterSound limits run →
      WriterSound limits (items.foldl (WriterRun.step codec) run) := by
    intro items
    induction items with
    | nil => exact fun _ h => h
    | cons operation rest ih => exact fun run h => ih _ (h.step operation)
  exact hrun operations _ hstart

/-- A session writer's `finish` that reaches the rename completes its staging. -/
theorem writer_stage_completes {limits : StoreLimits} {codec : Codec} {run : WriterRun}
    {root : Directory} {manifest : Manifest} (h : WriterSound limits run)
    (hstage : run.writer.stage codec = .ok (root, manifest)) :
    Completes codec limits run.writer.toStaged root manifest := by
  unfold SessionWriter.stage at hstage
  simp only [bind_eq_ok] at hstage
  obtain ⟨middle, hmiddle, final, hfinal, _, hfixture, hwrite⟩ := hstage
  have hmiddleStep : AddsStreamEvents run.writer.toStaged middle.toStaged ∧
      middle.limits = run.writer.limits ∧ middle.flowCount = run.writer.flowCount ∧
      supportedSchema middle.metadata.schemaVersion ∧
      (middle.extensions ≠ [] → middle.metadata.schemaVersion = sessionSchemaVersion) := by
    unfold SessionWriter.writeStreamEventsExtension at hmiddle
    split at hmiddle
    · rename_i hempty
      obtain rfl : run.writer = middle := by simpa using hmiddle
      exact ⟨.inl ⟨hempty, rfl⟩, rfl, rfl, h.schema, h.version⟩
    · rename_i hne
      simp [SessionWriter.writeExtension] at hmiddle
      obtain ⟨hvalid, staged, hstaged, rfl⟩ := hmiddle
      have hr := writeExtension_eq_ok hstaged
      refine ⟨.inr ⟨hne, hvalid, hr⟩, rfl, ?_,
        (by decide : supportedSchema sessionSchemaVersion), fun _ => rfl⟩
      show staged.flowCount = run.writer.flowCount
      rw [hr.next_eq]
  obtain ⟨hstream, hlimits, hcount, hschema, hversion⟩ := hmiddleStep
  have hfinalStep : AddsTranscript middle.toStaged final.toStaged ∧
      final.limits = middle.limits ∧ final.flowCount = middle.flowCount ∧
      supportedSchema final.metadata.schemaVersion ∧
      (final.extensions ≠ [] → final.metadata.schemaVersion = sessionSchemaVersion) := by
    unfold SessionWriter.writeWebsocketExtension at hfinal
    split at hfinal
    · obtain rfl : middle = final := by simpa using hfinal
      exact ⟨.inl rfl, rfl, rfl, hschema, hversion⟩
    · simp [SessionWriter.writeExtension] at hfinal
      obtain ⟨transcript, -, staged, hstaged, rfl⟩ := hfinal
      have hr := writeExtension_eq_ok hstaged
      refine ⟨.inr ⟨_, hr⟩, rfl, ?_, (by decide : supportedSchema sessionSchemaVersion),
        fun _ => rfl⟩
      show staged.flowCount = middle.flowCount
      rw [hr.next_eq]
  obtain ⟨htranscript, hfinalLimits, hfinalCount, hfinalSchema, hfinalVersion⟩ := hfinalStep
  have hmetadata : manifest.metadata = final.metadata := by
    simp [Staged.writeManifest] at hwrite
    rw [← hwrite.2.2]
  rw [hfinalLimits, hlimits, h.limits_eq] at hfixture
  refine ⟨⟨middle.toStaged, final.toStaged, hstream, htranscript, hfixture, ?_, ?_⟩, ?_⟩
  · rw [hmetadata, ← hcount, ← hfinalCount]
    exact hwrite
  · rw [hmetadata]
    exact hfinalVersion
  · rw [hmetadata]
    exact hfinalSchema

/-! ### Runs of a recording session -/

/-- A recording session, its open body sinks, and the flows it has accepted. -/
structure RecordingRun where
  inner : RecordingInner
  bodies : List BodyWriter := []
  flows : List Flow := []

def RecordingRun.step (codec : Codec) (run : RecordingRun) : Operation → RecordingRun
  | .beginBlob =>
      settle run.inner.beginBlob run fun begun =>
        { run with inner := begun.1, bodies := begun.2 :: run.bodies }
  | .writeBody suffix buffer =>
      match findBody run.bodies suffix with
      | none => run
      | some body =>
          settle (run.inner.writeBody body buffer) run fun written =>
            { run with inner := written.1, bodies := replaceBody run.bodies written.2 }
  | .finishBody suffix =>
      match findBody run.bodies suffix with
      | none => run
      | some body =>
          { run with
            inner := (run.inner.finishBody codec body).1,
            bodies := closeBody run.bodies suffix }
  | .dropBody suffix =>
      match findBody run.bodies suffix with
      | none => run
      | some body =>
          { run with
            inner := run.inner.dropBody body, bodies := closeBody run.bodies suffix }
  | .appendFlow flow =>
      settle (run.inner.appendFlow flow) run fun inner =>
        { run with inner, flows := run.flows ++ [flow] }
  | .appendStreamEvents events =>
      settle (run.inner.appendStreamEvents events) run fun inner => { run with inner }
  | .appendWebsocketConversation conversation =>
      settle (run.inner.appendWebsocketConversation conversation) run fun inner =>
        { run with inner }
  | .writeExtension extension bytes =>
      settle (run.inner.writeExtension extension bytes) run fun inner => { run with inner }

def RecordingRun.run (codec : Codec) (start : RecordingInner) (operations : List Operation) :
    RecordingRun :=
  operations.foldl (RecordingRun.step codec) { inner := start }

theorem recording_appendFlow_appendable {inner next : RecordingInner} {flow : Flow}
    (h : inner.appendFlow flow = .ok next) :
    Appendable inner.limits inner.toStaged flow ∧
      next = { inner with
        toStaged := inner.writeFlow flow (inner.totalBytes + flowBodyBytes flow) } := by
  simp [RecordingInner.appendFlow, checkFlow, RecordingInner.appendFlowLocked] at h
  obtain ⟨-, hvalid, hrefs, hline, -, hroom, htotal, hbound, rfl⟩ := h
  exact ⟨⟨hroom, hvalid, hrefs, hline, htotal, hbound⟩, rfl⟩

/-- The invariant of a recording session's run. -/
structure RecordingSound (limits : StoreLimits) (run : RecordingRun) : Prop where
  sound : Sound limits run.flows run.inner.toStaged
  limits_eq : run.inner.limits = limits
  schema : supportedSchema run.inner.metadata.schemaVersion

theorem RecordingSound.staged {limits : StoreLimits} {run next : RecordingRun}
    (h : RecordingSound limits run)
    (hstep : Step limits run.inner.toStaged run.flows next.inner.toStaged next.flows)
    (hmetadata : next.inner.metadata = run.inner.metadata)
    (hlimits : next.inner.limits = run.inner.limits) : RecordingSound limits next where
  sound := h.sound.step hstep
  limits_eq := hlimits.trans h.limits_eq
  schema := by
    rw [hmetadata]
    exact h.schema

theorem RecordingSound.step {limits : StoreLimits} {codec : Codec} {run : RecordingRun}
    (h : RecordingSound limits run) (operation : Operation) :
    RecordingSound limits (run.step codec operation) := by
  rcases operation with _ | ⟨suffix, buffer⟩ | suffix | suffix | flow | events | conversation |
    ⟨extension, bytes⟩
  · refine settle_induction h fun begun hbegun => ?_
    simp [RecordingInner.beginBlob] at hbegun
    rw [← hbegun.2]
    exact h.staged (Step.body _ _ rfl) rfl rfl
  · simp only [RecordingRun.step]
    rcases findBody run.bodies suffix with _ | body
    · exact h
    · refine settle_induction h fun written hwritten => ?_
      simp only [RecordingInner.writeBody, bind_eq_ok, pure_eq_ok] at hwritten
      obtain ⟨⟨root, after⟩, hwrite, rfl⟩ := hwritten
      exact h.staged (Step.body root _ (write_files hwrite)) rfl rfl
  · simp only [RecordingRun.step]
    rcases findBody run.bodies suffix with _ | body
    · exact h
    · exact h.staged (Step.body _ _ (publish_files codec _ body)) rfl rfl
  · simp only [RecordingRun.step]
    rcases findBody run.bodies suffix with _ | body
    · exact h
    · exact h.staged (Step.body _ _ rfl) rfl rfl
  · refine settle_induction h fun inner hinner => ?_
    obtain ⟨happend, rfl⟩ := recording_appendFlow_appendable hinner
    rw [h.limits_eq] at happend
    exact h.staged (Step.flow flow happend) rfl rfl
  · refine settle_induction h fun inner hinner => ?_
    simp [RecordingInner.appendStreamEvents] at hinner
    obtain ⟨-, -, -, -, staged, hstaged, rfl⟩ := hinner
    exact h.staged (reserveStreamEvents_step hstaged).1 rfl rfl
  · refine settle_induction h fun inner hinner => ?_
    simp [RecordingInner.appendWebsocketConversation] at hinner
    obtain ⟨-, websocket, -, rfl⟩ := hinner
    exact h.staged (Step.registries _ _ _ _ websocket) rfl rfl
  · refine settle_induction h fun inner hinner => ?_
    simp [RecordingInner.writeExtension] at hinner
    obtain ⟨-, staged, hstaged, rfl⟩ := hinner
    exact h.staged (Step.extension extension bytes hstaged) rfl rfl

theorem recording_run_sound {limits : StoreLimits} {codec : Codec}
    {metadata : SessionMetadata} {start : RecordingInner}
    (hcreate : RecordingInner.create false metadata limits = .ok start)
    (operations : List Operation) :
    RecordingSound limits (RecordingRun.run codec start operations) := by
  have hstart : RecordingSound limits { inner := start } := by
    simp [RecordingInner.create] at hcreate
    obtain ⟨hschema, rfl⟩ := hcreate
    exact ⟨sound_empty limits, rfl, hschema⟩
  have hrun : ∀ (items : List Operation) (run : RecordingRun), RecordingSound limits run →
      RecordingSound limits (items.foldl (RecordingRun.step codec) run) := by
    intro items
    induction items with
    | nil => exact fun _ h => h
    | cons operation rest ih => exact fun run h => ih _ (h.step operation)
  exact hrun operations _ hstart

/-- A recording session's `finish` that reaches the rename completes its staging. -/
theorem recording_stage_completes {limits : StoreLimits} {codec : Codec} {run : RecordingRun}
    {root : Directory} {manifest : Manifest} (h : RecordingSound limits run)
    (hstage : run.inner.stage codec = .ok (root, manifest)) :
    Completes codec limits run.inner.toStaged root manifest := by
  unfold RecordingInner.stage at hstage
  simp only [bind_eq_ok, ensure_eq_ok] at hstage
  obtain ⟨_, -, taken, htaken, middle, hmiddle, final, hfinal, _, hfixture, hwrite⟩ := hstage
  have htakenStep : taken.toStaged = run.inner.toStaged ∧ taken.limits = run.inner.limits ∧
      taken.metadata = run.inner.metadata := by
    simp [RecordingInner.takeFlows, RecordingInner.requestShutdown] at htaken
    rw [← htaken.2]
    exact ⟨rfl, rfl, rfl⟩
  obtain ⟨htakenStaged, htakenLimits, htakenMetadata⟩ := htakenStep
  have hmiddleStep : AddsStreamEvents taken.toStaged middle.toStaged ∧
      middle.limits = taken.limits ∧ middle.metadata = taken.metadata := by
    unfold RecordingInner.writeStreamEventsExtension at hmiddle
    split at hmiddle
    · rename_i hempty
      obtain rfl : taken = middle := by simpa using hmiddle
      exact ⟨.inl ⟨hempty, rfl⟩, rfl, rfl⟩
    · rename_i hne
      simp at hmiddle
      obtain ⟨hvalid, -, staged, hstaged, rfl⟩ := hmiddle
      exact ⟨.inr ⟨hne, hvalid, writeExtension_eq_ok hstaged⟩, rfl, rfl⟩
  obtain ⟨hstream, hlimits, hmiddleMetadata⟩ := hmiddleStep
  have hfinalStep : AddsTranscript middle.toStaged final.toStaged ∧
      final.limits = middle.limits ∧ final.metadata = middle.metadata := by
    unfold RecordingInner.writeWebsocketExtension at hfinal
    split at hfinal
    · obtain rfl : middle = final := by simpa using hfinal
      exact ⟨.inl rfl, rfl, rfl⟩
    · simp at hfinal
      obtain ⟨transcript, -, staged, hstaged, rfl⟩ := hfinal
      exact ⟨.inr ⟨_, writeExtension_eq_ok hstaged⟩, rfl, rfl⟩
  obtain ⟨htranscript, hfinalLimits, hfinalMetadata⟩ := hfinalStep
  have hmetadata : manifest.metadata = final.finalMetadata := by
    simp [Staged.writeManifest] at hwrite
    rw [← hwrite.2.2]
  have hfinalSchema : supportedSchema final.finalMetadata.schemaVersion := by
    unfold RecordingInner.finalMetadata
    split
    · rw [hfinalMetadata, hmiddleMetadata, htakenMetadata]
      exact h.schema
    · exact (by decide : supportedSchema sessionSchemaVersion)
  rw [RecordingInner.checkFixture, hfinalLimits, hlimits, htakenLimits, h.limits_eq] at hfixture
  rw [htakenStaged] at hstream hwrite
  refine ⟨⟨middle.toStaged, final.toStaged, hstream, htranscript, hfixture, ?_, ?_⟩, ?_⟩
  · rw [hmetadata]
    exact hwrite
  · rintro hne
    rw [hmetadata, RecordingInner.finalMetadata, if_neg hne]
  · rw [hmetadata]
    exact hfinalSchema

/-! ### All or nothing -/

/-- `finish` either leaves no destination behind, or returns the session that
opening the destination gives. -/
def AllOrNothing (codec : Codec) (limits : StoreLimits) (publication : Publication) : Prop :=
  (∀ error, publication.result = .error error → publication.destination = none) ∧
    ∀ session, publication.result = .ok session → ∃ root,
      publication.destination = some root ∧ Session.open codec root limits = .ok session

/-- The decoder reads the manifest, if any, that was written before the rename. -/
def DecodesManifest (codec : Codec)
    (staging : Except StoreError (Directory × Manifest)) : Prop :=
  ∀ root manifest, staging = .ok (root, manifest) →
    codec.decodeManifest (codec.encodeManifest manifest ++ [newline]) = .ok manifest

/-- The decoders read what this `finish` writes. -/
structure ReadsBack (codec : Codec) (flows : List Flow) (staged : Staged)
    (staging : Except StoreError (Directory × Manifest)) : Prop where
  flows : DecodesFlows codec flows
  streamEvents : staged.streamEvents.flows ≠ [] →
    codec.decodeStreamEvents staged.streamEvents.encode = .ok staged.streamEvents
  manifest : DecodesManifest codec staging

theorem publish_all_or_nothing {codec : Codec} {limits : StoreLimits} {flows : List Flow}
    {staged : Staged} {staging : Except StoreError (Directory × Manifest)}
    (hsound : Sound limits flows staged)
    (hcomplete : ∀ root manifest, staging = .ok (root, manifest) →
      Completes codec limits staged root manifest)
    (hreads : ReadsBack codec flows staged staging) :
    AllOrNothing codec limits (publish codec limits staging) ↔
      (∃ error, staging = .error error) ∨ Publishable codec limits flows staged := by
  rcases hstaging : staging with error | ⟨root, manifest⟩
  · simp [AllOrNothing, publish]
  · have hopen := open_iff_publishable hsound (hcomplete root manifest hstaging) hreads.flows
      (hreads.manifest root manifest hstaging) hreads.streamEvents
    have hall : AllOrNothing codec limits (publish codec limits (.ok (root, manifest))) ↔
        ∃ session, Session.open codec root limits = .ok session := by
      simp only [AllOrNothing, publish]
      constructor
      · rintro ⟨herror, -⟩
        rcases hresult : Session.open codec root limits with error | session
        · simpa using herror error hresult
        · exact ⟨session, rfl⟩
      · rintro ⟨session, hsession⟩
        refine ⟨fun error herror => ?_, fun other hother => ⟨root, rfl, hother⟩⟩
        rw [hsession] at herror
        simp at herror
    rw [hall, hopen]
    simp

/-- Publication is all-or-nothing exactly when `finish` stops before the rename or
the session is publishable, for either writer. -/
theorem finish_all_or_nothing_iff (codec : Codec) (limits : StoreLimits)
    (metadata : SessionMetadata) (operations : List Operation) :
    (∀ start, SessionWriter.create false metadata limits = .ok start →
      let run := WriterRun.run codec start operations
      ReadsBack codec run.flows run.writer.toStaged (run.writer.stage codec) →
      (AllOrNothing codec limits (run.writer.finish codec) ↔
        (∃ error, run.writer.stage codec = .error error) ∨
          Publishable codec limits run.flows run.writer.toStaged)) ∧
    ∀ start, RecordingInner.create false metadata limits = .ok start →
      let run := RecordingRun.run codec start operations
      ReadsBack codec run.flows run.inner.toStaged (run.inner.stage codec) →
      (AllOrNothing codec limits (run.inner.finish codec) ↔
        (∃ error, run.inner.stage codec = .error error) ∨
          Publishable codec limits run.flows run.inner.toStaged) := by
  refine ⟨?_, ?_⟩
  · intro start hcreate run hreads
    have hsound : WriterSound limits run := writer_run_sound hcreate operations
    have hpublish := publish_all_or_nothing hsound.sound
      (fun root manifest h => writer_stage_completes hsound h) hreads
    rw [SessionWriter.finish, hsound.limits_eq]
    exact hpublish
  · intro start hcreate run hreads
    have hsound : RecordingSound limits run := recording_run_sound hcreate operations
    have hpublish := publish_all_or_nothing hsound.sound
      (fun root manifest h => recording_stage_completes hsound h) hreads
    rw [RecordingInner.finish, hsound.limits_eq]
    exact hpublish

/-! ### Two runs -/

def sampleMetadata : SessionMetadata where
  schemaVersion := 1
  toolVersion := "0.1.0"
  sessionId := "session-0"
  captureMode := "forward"
  source := none
  target := none
  matcherProfile := "default"
  redactionProfile := "default"

/-- A request for `/` that was answered with an empty body. -/
def sampleFlow : Flow where
  schemaVersion := 1
  id := "one"
  startedAtMs := 1
  completedAtMs := some 2
  request :=
    { method := "GET", scheme := "http", authority := "example.test", path := "/", query := [],
      headers := [], body := .absent, trailers := [] }
  outcome := .response { status := 200, headers := [], body := .empty, trailers := [] }
  physicalRoute := none
  provenance := { mode := "test", observer := "test" }
  annotations := []
  redactions := []

def sampleManifest (flowCount : Nat) : Manifest where
  metadata := sampleMetadata
  complete := true
  flowCount := flowCount
  blobCount := 0
  extensions := []

def sampleManifestText (flowCount : Nat) : Bytes :=
  utf8 ("\x7b\n  \"schema_version\": 1,\n  \"tool_version\": \"0.1.0\",\n".toList ++
    "  \"session_id\": \"session-0\",\n  \"capture_mode\": \"forward\",\n".toList ++
    "  \"source\": null,\n  \"target\": null,\n".toList ++
    "  \"matcher_profile\": \"default\",\n".toList ++
    "  \"redaction_profile\": \"default\",\n  \"complete\": true,\n".toList ++
    "  \"flow_count\": ".toList ++ (Nat.repr flowCount).toList ++
    ",\n  \"blob_count\": 0\n\x7d".toList)

/-- Decoders for the sample flow and the manifest of a session that holds it
`flowCount` times. -/
def sampleCodec (flowCount : Nat) : Codec where
  sha256Hex _ := ""
  decodeFlow bytes :=
    if bytes = sampleFlow.encode ++ [newline] then .ok sampleFlow else .error "unknown flow"
  encodeManifest _ := sampleManifestText flowCount
  decodeManifest bytes :=
    if bytes = sampleManifestText flowCount ++ [newline] then .ok (sampleManifest flowCount)
    else .error "unknown manifest"
  decodeStreamEvents _ := .error "unknown stream events"
  decodeTranscript _ := .error "unknown transcript"
  decodeRules _ := .error "unknown rules"

def sampleWriter : SessionWriter :=
  { toStaged := Staged.empty, metadata := sampleMetadata, limits := StoreLimits.default }

def sampleSession : RecordingInner :=
  { toStaged := Staged.empty, metadata := sampleMetadata, limits := StoreLimits.default }

/-- A staged manifest is the sample manifest. -/
def stagesSample (flowCount : Nat) (staging : Except StoreError (Directory × Manifest)) : Bool :=
  match staging with
  | .ok (_, manifest) => decide (manifest = sampleManifest flowCount)
  | .error _ => false

theorem sample_readsBack {flowCount : Nat} {flows : List Flow} {staged : Staged}
    {staging : Except StoreError (Directory × Manifest)}
    (hflows : ∀ flow ∈ flows, flow = sampleFlow)
    (hstreams : staged.streamEvents.flows = [])
    (hstages : stagesSample flowCount staging = true) :
    ReadsBack (sampleCodec flowCount) flows staged staging where
  flows := by
    intro flow hflow
    rw [hflows flow hflow]
    simp [sampleCodec]
  streamEvents h := absurd hstreams h
  manifest := by
    rintro root manifest rfl
    have hmanifest : manifest = sampleManifest flowCount := by
      simpa [stagesSample] using hstages
    rw [hmanifest]
    simp [sampleCodec]

/-- The equivalence at a session of one flow, for both writers. -/
theorem sample_finish_all_or_nothing :
    (AllOrNothing (sampleCodec 1) StoreLimits.default
        ((WriterRun.run (sampleCodec 1) sampleWriter [.appendFlow sampleFlow]).writer.finish
          (sampleCodec 1)) ↔
      (∃ error, (WriterRun.run (sampleCodec 1) sampleWriter
          [.appendFlow sampleFlow]).writer.stage (sampleCodec 1) = .error error) ∨
        Publishable (sampleCodec 1) StoreLimits.default
          (WriterRun.run (sampleCodec 1) sampleWriter [.appendFlow sampleFlow]).flows
          (WriterRun.run (sampleCodec 1) sampleWriter
            [.appendFlow sampleFlow]).writer.toStaged) ∧
    (AllOrNothing (sampleCodec 1) StoreLimits.default
        ((RecordingRun.run (sampleCodec 1) sampleSession [.appendFlow sampleFlow]).inner.finish
          (sampleCodec 1)) ↔
      (∃ error, (RecordingRun.run (sampleCodec 1) sampleSession
          [.appendFlow sampleFlow]).inner.stage (sampleCodec 1) = .error error) ∨
        Publishable (sampleCodec 1) StoreLimits.default
          (RecordingRun.run (sampleCodec 1) sampleSession [.appendFlow sampleFlow]).flows
          (RecordingRun.run (sampleCodec 1) sampleSession
            [.appendFlow sampleFlow]).inner.toStaged) := by
  refine ⟨(finish_all_or_nothing_iff (sampleCodec 1) StoreLimits.default sampleMetadata
    [.appendFlow sampleFlow]).1 sampleWriter rfl (sample_readsBack ?_ ?_ ?_),
    (finish_all_or_nothing_iff (sampleCodec 1) StoreLimits.default sampleMetadata
    [.appendFlow sampleFlow]).2 sampleSession rfl (sample_readsBack ?_ ?_ ?_)⟩
  all_goals decide +kernel

/-- `finish` failed although the destination exists. -/
def leavesDestination (publication : Publication) : Bool :=
  match publication.result with
  | .error _ => publication.destination.isSome
  | .ok _ => false

theorem not_allOrNothing_of_leavesDestination {codec : Codec} {limits : StoreLimits}
    {publication : Publication} (h : leavesDestination publication = true) :
    ¬AllOrNothing codec limits publication := by
  rintro ⟨herror, -⟩
  unfold leavesDestination at h
  split at h
  · rename_i error hresult
    rw [herror error hresult] at h
    simp at h
  · simp at h

def duplicateRun : WriterRun :=
  WriterRun.run (sampleCodec 2) sampleWriter [.appendFlow sampleFlow, .appendFlow sampleFlow]

/-- Two accepted flows with one id are renamed into place and then rejected. -/
theorem duplicate_ids_leave_destination :
    ReadsBack (sampleCodec 2) duplicateRun.flows duplicateRun.writer.toStaged
        (duplicateRun.writer.stage (sampleCodec 2)) ∧
      ¬AllOrNothing (sampleCodec 2) StoreLimits.default
        (duplicateRun.writer.finish (sampleCodec 2)) := by
  refine ⟨sample_readsBack ?_ ?_ ?_, not_allOrNothing_of_leavesDestination ?_⟩
  all_goals decide +kernel

end EggReplay.Store.SessionRuns
