import EggReplay.Store.FlowLogLimits
import EggReplay.Store.OpenedSessions

/-!
A writer that is given blobs, then flows, then extensions, as the draft of what it has been
given so far, and the session that it publishes for a draft.
-/

namespace EggReplay.Store.Assembly

open EggReplay.Library.Checks
open EggReplay.Library.Text
open EggReplay.Library.LineLog
open EggReplay.Core.FlowRecord
open EggReplay.Core.StreamTimeline
open EggReplay.Store.Fixture
open EggReplay.Store.SessionOpen
open EggReplay.Store.Staging
open EggReplay.Store.Writer
open EggReplay.Store.StagedInvariant
open EggReplay.Store.Publication
open EggReplay.Store.SessionRuns
open EggReplay.Store.Copies
open EggReplay.Store.OpenedSessions

structure Draft where
  flows : List Flow := []
  entries : Gathered := []
  blobs : List (BlobName × Bytes) := []

/-- Every extension raises the schema of the session to the current one. -/
def Draft.finalMetadata (draft : Draft) (metadata : SessionMetadata) : SessionMetadata :=
  if draft.entries = [] then metadata
  else { metadata with schemaVersion := sessionSchemaVersion }

/-- The manifest of the draft, with the blobs of the directory counted. -/
def Draft.manifest (draft : Draft) (metadata : SessionMetadata) : Manifest where
  metadata := draft.finalMetadata metadata
  complete := true
  flowCount := draft.flows.length
  blobCount := (draft.blobs.filter fun entry => entry.1 ≠ .gitkeep).length
  extensions := draft.entries.map Prod.fst

/-- The writer has staged the draft and nothing else. -/
structure Assembled (limits : StoreLimits) (metadata : SessionMetadata) (draft : Draft)
    (writer : SessionWriter) : Prop where
  sound : Sound limits draft.flows writer.toStaged
  limits_eq : writer.limits = limits
  blobs : writer.directory.blobs = draft.blobs
  extensions : writer.extensions = draft.entries.map Prod.fst
  payloads : ∀ entry ∈ draft.entries, writer.directory.files entry.1.path = some entry.2
  files : ∀ name, name ≠ flowLog → (∀ entry ∈ draft.entries, name ≠ entry.1.path) →
    writer.directory.files name = none
  metadata_eq : writer.metadata = draft.finalMetadata metadata
  streamEvents : writer.streamEvents.flows = []
  websocket : writer.websocket.conversations = []

/-- What a session that was published for the draft consists of. -/
structure Published (codec : Codec) (limits : StoreLimits) (metadata : SessionMetadata)
    (draft : Draft) (session : Session) : Prop where
  limits_eq : session.limits = limits
  items : Session.flowItems codec session = .ok (draft.flows.map .ok)
  blobs : session.root.blobs = draft.blobs
  payloads : ∀ entry ∈ draft.entries, session.root.files entry.1.path = some entry.2
  manifest_eq : session.manifest = draft.manifest metadata

section

variable {codec : Codec} {limits : StoreLimits} {metadata : SessionMetadata} {draft : Draft}
  {writer next : SessionWriter}

theorem create_assembled (h : SessionWriter.create false metadata limits = .ok writer) :
    Assembled limits metadata {} writer := by
  simp [SessionWriter.create] at h
  obtain ⟨-, rfl⟩ := h
  refine ⟨sound_empty limits, rfl, rfl, rfl, by simp, ?_, rfl, rfl, rfl⟩
  intro name hname _
  simp [Staged.empty, hname]

theorem create_eq_ok (hschema : supportedSchema metadata.schemaVersion) :
    ∃ writer, SessionWriter.create false metadata limits = .ok writer := by
  simp [SessionWriter.create, hschema]

/-- New blobs in the directory leave everything else as it was. -/
theorem Assembled.setBlobs (h : Assembled limits metadata draft writer)
    (blobs : List (BlobName × Bytes)) (nextSuffix : Nat) :
    Assembled limits metadata { draft with blobs }
      { writer with directory := { writer.directory with blobs }, nextSuffix } where
  sound := h.sound.step (Step.body { writer.directory with blobs } nextSuffix rfl)
  limits_eq := h.limits_eq
  blobs := rfl
  extensions := h.extensions
  payloads := h.payloads
  files := h.files
  metadata_eq := h.metadata_eq
  streamEvents := h.streamEvents
  websocket := h.websocket

/-! ### Flows -/

theorem Assembled.appendFlow (h : Assembled limits metadata draft writer) {flow : Flow}
    (hnext : writer.appendFlow flow = .ok next) :
    Assembled limits metadata { draft with flows := draft.flows ++ [flow] } next := by
  obtain ⟨happend, rfl⟩ := appendFlow_appendable hnext
  rw [h.limits_eq] at happend
  refine ⟨h.sound.appendFlow happend, h.limits_eq, h.blobs, h.extensions, ?_, ?_,
    h.metadata_eq, h.streamEvents, h.websocket⟩
  · intro entry hentry
    have hnotLog : entry.1.path ≠ flowLog := by
      refine (h.sound.extension entry.1 ?_).notLog
      rw [h.extensions]
      exact List.mem_map_of_mem hentry
    exact (extendFile_other hnotLog).trans (h.payloads entry hentry)
  · intro name hname hpaths
    exact (extendFile_other hname).trans (h.files name hname hpaths)

theorem Assembled.copyFlows (h : Assembled limits metadata draft writer) {flows : List Flow}
    (hcopy : checkFold copyFlow writer (flows.map .ok) = .ok next) :
    Assembled limits metadata { draft with flows := draft.flows ++ flows } next := by
  induction flows generalizing draft writer with
  | nil =>
      obtain rfl : writer = next := by simpa using hcopy
      simpa using h
  | cons flow rest ih =>
      rw [List.map_cons, checkFold_cons, bind_eq_ok] at hcopy
      obtain ⟨after, hafter, hrest⟩ := hcopy
      have hfinal := ih (h.appendFlow hafter) hrest
      simpa using hfinal

/-- The bounds that the writer puts on a flow by itself. -/
structure FlowFits (limits : StoreLimits) (flow : Flow) : Prop where
  valid : flow.validate = .ok ()
  refs : validateBodyRefs flow limits.maxBlobBytes = .ok ()
  line : flow.encode.length ≤ limits.maxLineBytes

/-- Flows that fit one by one and together are all appended. -/
theorem Assembled.copyFlows_ok (h : Assembled limits metadata draft writer)
    {flows : List Flow} (hfits : ∀ flow ∈ flows, FlowFits limits flow)
    (hcount : (draft.flows ++ flows).length ≤ limits.maxFlows)
    (htotal : ((draft.flows ++ flows).map flowBodyBytes).sum ≤ u64Max)
    (hbound : ((draft.flows ++ flows).map flowBodyBytes).sum ≤ limits.maxTotalBytes) :
    ∃ next, checkFold copyFlow writer (flows.map .ok) = .ok next := by
  induction flows generalizing draft writer with
  | nil => exact ⟨writer, rfl⟩
  | cons flow rest ih =>
      have hfirst := hfits flow (by simp)
      have hroom : writer.flowCount < writer.limits.maxFlows := by
        rw [h.sound.count, h.limits_eq]
        rw [List.length_append, List.length_cons] at hcount
        omega
      have hsum : ((draft.flows ++ flow :: rest).map flowBodyBytes).sum =
          writer.totalBytes + flowBodyBytes flow + (rest.map flowBodyBytes).sum := by
        rw [h.sound.total]
        simp [Nat.add_assoc]
      rw [hsum] at htotal hbound
      have hmax : writer.totalBytes + flowBodyBytes flow ≤ u64Max := by omega
      have hlimit : writer.totalBytes + flowBodyBytes flow ≤ writer.limits.maxTotalBytes := by
        rw [h.limits_eq]
        omega
      have happend : ∃ after, writer.appendFlow flow = .ok after := by
        have hrefs := hfirst.refs
        have hline := hfirst.line
        rw [← h.limits_eq] at hrefs hline
        simp [SessionWriter.appendFlow, hroom, hfirst.valid, hrefs, hline, hmax, hlimit]
      obtain ⟨after, hafter⟩ := happend
      have hnext := h.appendFlow hafter
      obtain ⟨final, hfinal⟩ := ih hnext (fun other hother => hfits other (by simp [hother]))
        (by simpa using hcount) (by simpa [← hsum] using htotal) (by simpa [← hsum] using hbound)
      refine ⟨final, ?_⟩
      rw [List.map_cons, checkFold_cons]
      show (writer.appendFlow flow >>= _) = _
      rw [hafter, ok_bind, hfinal]

/-! ### Extensions -/

theorem Assembled.writeGathered (h : Assembled limits metadata draft writer)
    {entry : ExtensionDescriptor × Bytes} (hnext : Copies.writeGathered writer entry = .ok next) :
    Assembled limits metadata { draft with entries := draft.entries ++ [entry] } next := by
  simp only [Copies.writeGathered, SessionWriter.writeExtension, bind_eq_ok, pure_eq_ok] at hnext
  obtain ⟨staged, hstaged, rfl⟩ := hnext
  have hr := writeExtension_eq_ok hstaged
  refine ⟨h.sound.register hr, h.limits_eq, hr.blobs_eq.trans h.blobs, ?_, ?_, ?_, ?_, ?_, ?_⟩
  · rw [hr.extensions_eq, h.extensions]
    simp
  · intro other hother
    rcases List.mem_append.mp hother with hold | hnew
    · have hmem : other.1 ∈ writer.extensions := by
        rw [h.extensions]
        exact List.mem_map_of_mem hold
      exact (hr.file_other (hr.fresh other.1 hmem).2).trans (h.payloads other hold)
    · rw [List.mem_singleton.mp hnew]
      exact hr.file
  · intro name hname hpaths
    refine (hr.file_other (hpaths entry (by simp))).trans (h.files name hname ?_)
    exact fun other hother => hpaths other (by simp [hother])
  · rw [h.metadata_eq]
    simp only [Draft.finalMetadata, List.append_eq_nil_iff, List.cons_ne_nil, and_false, if_false]
    split
    · rfl
    · rfl
  · rw [hr.next_eq]
    exact h.streamEvents
  · rw [hr.next_eq]
    exact h.websocket

theorem Assembled.writeAll (h : Assembled limits metadata draft writer) {entries : Gathered}
    (hwrite : checkFold Copies.writeGathered writer entries = .ok next) :
    Assembled limits metadata { draft with entries := draft.entries ++ entries } next := by
  induction entries generalizing draft writer with
  | nil =>
      obtain rfl : writer = next := by simpa using hwrite
      simpa using h
  | cons entry rest ih =>
      rw [checkFold_cons, bind_eq_ok] at hwrite
      obtain ⟨after, hafter, hrest⟩ := hwrite
      have hfinal := ih (h.writeGathered hafter) hrest
      simpa using hfinal

/-- What the writer asks of an extension by itself. -/
structure EntryFits (entry : ExtensionDescriptor × Bytes) : Prop where
  name : validateExtensionName entry.1.name = .ok ()
  path : validateExtensionPath entry.1.path = .ok ()
  version : entry.1.schemaVersion ≠ 0
  size : entry.2.length ≤ maxExtensionBytes
  notLog : entry.1.path ≠ flowLog
  notBlobs : entry.1.path ≠ "blobs"

theorem Assembled.registered (h : Assembled limits metadata draft writer) :
    registeredBytes writer.directory writer.extensions =
      (draft.entries.map fun entry => entry.2.length).sum := by
  rw [h.extensions, registeredBytes, List.map_map]
  congr 1
  apply List.map_congr_left
  intro entry hentry
  show ((writer.directory.files entry.1.path).map List.length).getD 0 = _
  rw [h.payloads entry hentry]
  rfl

/-- Extensions that fit one by one and together are all written. -/
theorem Assembled.writeAll_ok (h : Assembled limits metadata draft writer) {entries : Gathered}
    (hfits : ∀ entry ∈ entries, EntryFits entry)
    (hcount : (draft.entries ++ entries).length ≤ maxExtensions)
    (hnames : ((draft.entries ++ entries).map fun entry => entry.1.name).Nodup)
    (hpaths : ((draft.entries ++ entries).map fun entry => entry.1.path).Nodup)
    (htotal : ((draft.entries ++ entries).map fun entry => entry.2.length).sum ≤
      maxTotalExtensionBytes) :
    ∃ next, checkFold Copies.writeGathered writer entries = .ok next := by
  induction entries generalizing draft writer with
  | nil => exact ⟨writer, rfl⟩
  | cons entry rest ih =>
      have hentry := hfits entry (by simp)
      have hroom : writer.extensions.length < maxExtensions := by
        rw [h.extensions, List.length_map]
        rw [List.length_append, List.length_cons] at hcount
        omega
      have hfresh : ∀ other ∈ writer.extensions,
          other.name ≠ entry.1.name ∧ other.path ≠ entry.1.path := by
        intro other hother
        rw [h.extensions] at hother
        obtain ⟨old, hold, rfl⟩ := List.mem_map.mp hother
        rw [List.map_append, List.nodup_append] at hnames hpaths
        exact ⟨hnames.2.2 _ (List.mem_map_of_mem hold) _ (by simp),
          hpaths.2.2 _ (List.mem_map_of_mem hold) _ (by simp)⟩
      have hsum : saturatingAdd (registeredBytes writer.directory writer.extensions)
          entry.2.length ≤ maxTotalExtensionBytes := by
        rw [h.registered]
        rw [List.map_append, List.sum_append, List.map_cons, List.sum_cons] at htotal
        unfold saturatingAdd
        omega
      have habsent : writer.directory.files entry.1.path = none := by
        apply h.files _ hentry.notLog
        intro old hold heq
        have hmem : old.1 ∈ writer.extensions := by
          rw [h.extensions]
          exact List.mem_map_of_mem hold
        exact (hfresh old.1 hmem).2 heq.symm
      obtain ⟨after, hafter⟩ : ∃ after, Copies.writeGathered writer entry = .ok after := by
        simp [Copies.writeGathered, SessionWriter.writeExtension, Staged.writeExtension,
          writeExtensionFile, Directory.createFile, hentry.name, hentry.path, hentry.version,
          hroom, hentry.size, ensure_of_true hfresh, hsum, habsent, hentry.notBlobs]
      obtain ⟨final, hfinal⟩ := ih (h.writeGathered hafter)
        (fun other hother => hfits other (by simp [hother])) (by simpa using hcount)
        (by simpa using hnames) (by simpa using hpaths) (by simpa using htotal)
      refine ⟨final, ?_⟩
      rw [checkFold_cons, hafter, ok_bind, hfinal]

/-! ### Publication -/

/-- Without registries of its own the writer's stage is the fixture check and the manifest. -/
theorem Assembled.stage_eq (h : Assembled limits metadata draft writer) :
    writer.stage codec =
      (validateWebsocketFixture codec writer.directory writer.extensions limits.maxLineBytes
        limits.maxBlobBytes >>= fun _ =>
          writer.toStaged.writeManifest codec writer.metadata writer.flowCount) := by
  rw [SessionWriter.stage, SessionWriter.writeStreamEventsExtension, if_pos h.streamEvents]
  show (writer.writeWebsocketExtension >>= _) = _
  rw [SessionWriter.writeWebsocketExtension, if_pos h.websocket, ← h.limits_eq]
  rfl

/-- What a successful stage has checked and written. -/
theorem Assembled.stage_eq_ok (h : Assembled limits metadata draft writer) {root : Directory}
    {manifest : Manifest} (hstage : writer.stage codec = .ok (root, manifest)) :
    validateWebsocketFixture codec writer.directory writer.extensions limits.maxLineBytes
        limits.maxBlobBytes = .ok () ∧
      ManifestWritten codec draft.flows writer.toStaged root manifest ∧
      manifest = draft.manifest metadata := by
  rw [h.stage_eq] at hstage
  simp only [bind_unit_eq_ok] at hstage
  obtain ⟨hfixture, hwrite⟩ := hstage
  refine ⟨hfixture, writeManifest_eq_ok hwrite h.sound.count, ?_⟩
  simp only [Staged.writeManifest, bind_eq_ok, pure_eq_ok] at hwrite
  obtain ⟨_, -, heq⟩ := hwrite
  rw [← (Prod.mk.inj heq).2]
  simp only [Draft.manifest, countBlobs, h.metadata_eq, h.sound.count, h.blobs, h.extensions]

theorem Assembled.stage_ok (h : Assembled limits metadata draft writer)
    (hfixture : validateWebsocketFixture codec writer.directory writer.extensions
      limits.maxLineBytes limits.maxBlobBytes = .ok ())
    (hpaths : ∀ entry ∈ draft.entries, entry.1.path ≠ manifestFile) :
    ∃ root manifest, writer.stage codec = .ok (root, manifest) := by
  have habsent : writer.directory.files manifestFile = none :=
    h.files _ (by decide) fun entry hentry => (hpaths entry hentry).symm
  have hname : manifestFile ≠ "blobs" := by decide
  rw [h.stage_eq, hfixture, ok_bind, Staged.writeManifest, Directory.createFile,
    ensure_of_true ⟨habsent, hname⟩]
  exact ⟨_, _, rfl⟩

/-- A session that `finish` returns is the published draft, at the destination. -/
theorem Assembled.published (h : Assembled limits metadata draft writer)
    (hflows : DecodesFlows codec draft.flows) (hmanifest : DecodesManifest codec (writer.stage codec))
    {session : Session} (hfinish : (writer.finish codec).result = .ok session) :
    Published codec limits metadata draft session ∧
      (writer.finish codec).destination = some session.root ∧
      Session.open codec session.root limits = .ok session := by
  rcases hstage : writer.stage codec with error | ⟨root, manifest⟩
  · rw [SessionWriter.finish, hstage, publish] at hfinish
    cases hfinish
  · rw [SessionWriter.finish, hstage] at hfinish ⊢
    have hopen : Session.open codec root writer.limits = .ok session := hfinish
    obtain ⟨hroot, hlimits, ⟨bytes, hbytes, hdecoded⟩, -⟩ := open_eq_ok hopen
    have hread := hmanifest root manifest hstage
    obtain ⟨hfixture, hwritten, rfl⟩ := h.stage_eq_ok hstage
    have hsame : session.manifest = draft.manifest metadata := by
      rw [hwritten.file] at hbytes
      rw [← Option.some.inj hbytes, hread] at hdecoded
      exact (Except.ok.inj hdecoded).symm
    have hlog : root.files flowLog = some (written newline (draft.flows.map Flow.encode)) := by
      rw [hwritten.other flowLog (by decide), h.sound.log]
    refine ⟨⟨hlimits.trans h.limits_eq, ?_, ?_, ?_, hsame⟩, by rw [hroot]; rfl,
      by rw [hroot, ← h.limits_eq, hopen]⟩
    · rw [Session.flowItems, Session.iterFlows, hroot, readFile_eq_ok.mpr hlog, hlimits,
        h.limits_eq]
      exact congrArg Except.ok (published_items h.sound hflows hfixture)
    · rw [hroot, hwritten.blobs, h.blobs]
    · intro entry hentry
      have hmem : entry.1 ∈ writer.extensions := by
        rw [h.extensions]
        exact List.mem_map_of_mem hentry
      rw [hroot, hwritten.extension_file h.sound hmem, h.payloads entry hentry]

/-- What publication still asks of a draft that was staged. -/
structure Completable (codec : Codec) (limits : StoreLimits) (metadata : SessionMetadata)
    (draft : Draft) (root : Directory) : Prop where
  schema : supportedSchema (draft.finalMetadata metadata).schemaVersion
  paths : ∀ entry ∈ draft.entries, entry.1.path ≠ manifestFile
  fixture : validateWebsocketFixture codec root (draft.entries.map Prod.fst)
    limits.maxLineBytes limits.maxBlobBytes = .ok ()
  contents : ∀ entry ∈ draft.entries, checkExtensionContent codec entry.1 entry.2 = .ok ()
  ids : (flowIds draft.flows).Nodup
  bodies : ∀ flow ∈ draft.flows, validateBodyFiles codec root flow limits = .ok ()
  timelines : checkTimelines codec root (draft.entries.map Prod.fst)
    (draft.flows.map lengthEntry).reverse = .ok ()

theorem content_readable {root : Directory} {entry : ExtensionDescriptor × Bytes}
    (hfile : root.files entry.1.path = some entry.2)
    (h : checkExtensionContent codec entry.1 entry.2 = .ok ()) :
    ExtensionReadable codec root entry.1 := by
  refine (checkExtensionContent_eq_ok hfile ?_).mp h
  intro hname
  simp only [checkExtensionContent, bind_unit_eq_ok, checkWhen_eq_ok] at h
  exact h.2.2.2 hname

theorem checkTimelines_congr {left right : Directory} {extensions : List ExtensionDescriptor}
    (h : ∀ extension ∈ extensions, left.files extension.path = right.files extension.path)
    (lengths : List (String × Nat)) :
    checkTimelines codec left extensions lengths =
      checkTimelines codec right extensions lengths := by
  unfold checkTimelines
  rcases hfind : findExtension extensions "stream-events" with _ | extension
  · rfl
  · simp only [Directory.readFile, h extension (findExtension_mem hfind).1]

theorem Assembled.finish_ok (h : Assembled limits metadata draft writer)
    (hflows : DecodesFlows codec draft.flows) (hmanifest : DecodesManifest codec (writer.stage codec))
    (hcomplete : Completable codec limits metadata draft writer.directory) :
    ∃ session, (writer.finish codec).result = .ok session := by
  have hfixture := hcomplete.fixture
  rw [← h.extensions] at hfixture
  obtain ⟨root, manifest, hstage⟩ := h.stage_ok hfixture hcomplete.paths
  have hread := hmanifest root manifest hstage
  obtain ⟨-, hwritten, rfl⟩ := h.stage_eq_ok hstage
  rw [SessionWriter.finish, hstage, h.limits_eq]
  refine (open_iff hwritten h.sound hflows hread hcomplete.schema ?_ hfixture).mpr
    ⟨?_, hcomplete.ids, hcomplete.bodies, ?_⟩
  · intro hne
    have hentries : draft.entries ≠ [] := by
      rintro hempty
      rw [h.extensions, hempty] at hne
      exact hne rfl
    rw [Draft.manifest, Draft.finalMetadata, if_neg hentries]
  · rw [h.extensions]
    intro extension hextension
    obtain ⟨entry, hentry, rfl⟩ := List.mem_map.mp hextension
    exact content_readable (h.payloads entry hentry) (hcomplete.contents entry hentry)
  · rw [checkTimelines_congr (fun extension hmem => hwritten.extension_file h.sound hmem),
      h.extensions]
    exact hcomplete.timelines

end

end EggReplay.Store.Assembly
