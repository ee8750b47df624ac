import EggReplay.Store.CopiedBlobs

/-!
Copying an opened session. The copy goes through the checks of a writer and of a reader
again; what the source's own opening has checked settles them, apart from the conditions that
the blob loop, the extension files and the line limit put on a copy.
-/

namespace EggReplay.Store.CopyPreserves

open EggReplay.Library.Checks
open EggReplay.Library.Text
open EggReplay.Library.LineLog
open EggReplay.Core.FlowRecord
open EggReplay.Core.StreamTimeline
open EggReplay.Store.Fixture
open EggReplay.Store.SessionOpen
open EggReplay.Store.Staging
open EggReplay.Store.Writer
open EggReplay.Store.Publication
open EggReplay.Store.SessionRuns
open EggReplay.Store.Copies
open EggReplay.Store.OpenedSessions
open EggReplay.Store.Assembly
open EggReplay.Store.CopiedBlobs

/-- The flow records that the session's log reads as. -/
def Session.flows (codec : Codec) (session : Session) : List Flow :=
  match Session.flowItems codec session with
  | .ok items => items.filterMap Except.toOption
  | .error _ => []

def Manifest.migrate (manifest : Manifest) (version : Nat) : Manifest :=
  { manifest with metadata := { manifest.metadata with schemaVersion := version } }

/-- The manifest decoder reads what is written for the session under either schema. -/
def ManifestReadsBack (codec : Codec) (manifest : Manifest) : Prop :=
  ∀ version, supportedSchema version →
    codec.decodeManifest (codec.encodeManifest (Manifest.migrate manifest version) ++ [newline]) =
      .ok (Manifest.migrate manifest version)

/-- What opening a session does not ask of it, and copying does. -/
structure Copyable (codec : Codec) (session : Session) (entries : List BlobEntry) : Prop where
  blobs : ∀ entry ∈ entries, CopiedEntry codec session.limits.maxBlobBytes entry
  paths : ∀ extension ∈ session.manifest.extensions,
    extension.path ≠ flowLog ∧ extension.path ≠ manifestFile
  lines : ∀ flow ∈ Session.flows codec session,
    flow.encode.length + 1 ≤ session.limits.maxLineBytes

/-- The copy holds what the source holds, under the target schema. -/
structure Preserves (codec : Codec) (targetSchema : Nat) (source copy : Session) : Prop where
  items : Session.flowItems codec copy = Session.flowItems codec source
  blobs : copy.root.blobs.Perm (source.root.blobs.filter fun entry => entry.1 ≠ .gitkeep)
  payloads : ∀ name, Session.readExtension copy name = Session.readExtension source name
  manifest : copy.manifest = Manifest.migrate source.manifest targetSchema

/-- The extensions of a session with their files. -/
def Session.payloads (session : Session) : Gathered :=
  session.manifest.extensions.map fun extension =>
    (extension, (session.root.files extension.path).getD [])

/-! ### Reading an opened session -/

section

variable {codec : Codec} {session : Session} {flows : List Flow}

theorem Opened.flows_eq (h : Opened codec session flows) : Session.flows codec session = flows := by
  rw [Session.flows, h.items]
  show (flows.map Except.ok).filterMap Except.toOption = flows
  rw [List.filterMap_map]
  exact List.filterMap_some

theorem Opened.payload_file (h : Opened codec session flows) {extension : ExtensionDescriptor}
    (hmem : extension ∈ session.manifest.extensions) : ∃ bytes,
      session.root.files extension.path = some bytes ∧ bytes.length ≤ maxExtensionBytes ∧
        checkExtensionContent codec extension bytes = .ok () :=
  (h.extensions.each extension hmem).file

theorem Opened.payloads_file (h : Opened codec session flows)
    {entry : ExtensionDescriptor × Bytes} (hentry : entry ∈ Session.payloads session) :
    entry.1 ∈ session.manifest.extensions ∧
      session.root.files entry.1.path = some entry.2 := by
  obtain ⟨extension, hmem, rfl⟩ := List.mem_map.mp hentry
  obtain ⟨bytes, hbytes, -⟩ := Opened.payload_file h hmem
  refine ⟨hmem, ?_⟩
  show session.root.files extension.path = some ((session.root.files extension.path).getD [])
  rw [hbytes]
  rfl

theorem find_of_nodup {extensions : List ExtensionDescriptor}
    (h : (extensions.map ExtensionDescriptor.name).Nodup) {extension : ExtensionDescriptor}
    (hmem : extension ∈ extensions) :
    findExtension extensions extension.name = some extension := by
  obtain ⟨before, after, rfl⟩ := List.append_of_mem hmem
  rw [List.map_append, List.map_cons, List.nodup_append] at h
  rw [findExtension, List.find?_append, List.find?_eq_none.mpr, Option.none_or,
    List.find?_cons_of_pos (by simp)]
  intro other hother
  simpa using h.2.2 other.name (List.mem_map_of_mem hother) extension.name (by simp)

/-- An extension of an opened session reads as its file. -/
theorem Opened.readExtension (h : Opened codec session flows) {extension : ExtensionDescriptor}
    (hmem : extension ∈ session.manifest.extensions) :
    Session.readExtension session extension.name =
      .ok (some ((session.root.files extension.path).getD [])) := by
  obtain ⟨bytes, hbytes, hsize, -⟩ := Opened.payload_file h hmem
  rw [Session.readExtension, find_of_nodup h.extensions.names hmem]
  show (session.root.readFile extension.path >>= _) = _
  rw [readFile_eq_ok.mpr hbytes, ok_bind, ensure_of_true hsize, ok_bind, hbytes]
  rfl

/-- Reading and writing the extensions in turn writes the gathered files. -/
theorem copyExtensions_eq (h : Opened codec session flows) (writer : SessionWriter) :
    checkFold (copyExtension session) writer session.manifest.extensions =
      checkFold writeGathered writer (Session.payloads session) := by
  have hall : ∀ extensions : List ExtensionDescriptor,
      (∀ extension ∈ extensions, extension ∈ session.manifest.extensions) →
      ∀ writer, checkFold (copyExtension session) writer extensions =
        checkFold writeGathered writer (extensions.map fun extension =>
          (extension, (session.root.files extension.path).getD [])) := by
    intro extensions
    induction extensions with
    | nil => exact fun _ _ => rfl
    | cons extension rest ih =>
        intro hmem writer
        have hstep : copyExtension session writer extension =
            writeGathered writer (extension, (session.root.files extension.path).getD []) := by
          rw [copyExtension, Opened.readExtension h (hmem extension (by simp))]
          rfl
        rw [List.map_cons, checkFold_cons, checkFold_cons, hstep]
        congr 1
        funext next
        exact ih (fun other hother => hmem other (by simp [hother])) next
  exact hall _ (fun _ hmem => hmem) writer

end

/-! ### The fixture check of a copy -/

/-- The initiating flow ids that the fixture check collects. -/
def addUpgrade (ids : List String) (flow : Flow) : List String :=
  if websocket101 flow then ids.insert flow.id else ids

theorem scan_reads {codec : Codec} {maxLineBytes : Nat} {log : List Bytes} {flows : List Flow}
    (hreads : Reads codec log flows) (ids final : List String) :
    checkFold (scanFlowLine codec maxLineBytes) ids log = .ok final ↔
      (∀ line ∈ log, line.length ≤ maxLineBytes) ∧ flows.foldl addUpgrade ids = final := by
  induction hreads generalizing ids with
  | nil => simp
  | @cons line flow rest others hline _ ih =>
      rw [checkFold_cons, bind_eq_ok, List.forall_mem_cons, List.foldl_cons]
      simp only [scanFlowLine, bind_eq_ok, ensure_eq_ok, mapError_eq_ok, pure_eq_ok, hline,
        Except.ok.injEq]
      constructor
      · rintro ⟨_, ⟨_, hsize, _, rfl, rfl⟩, hrest⟩
        obtain ⟨hsizes, hfinal⟩ := (ih _).mp hrest
        exact ⟨⟨hsize, hsizes⟩, hfinal⟩
      · rintro ⟨⟨hsize, hsizes⟩, hfinal⟩
        exact ⟨_, ⟨(), hsize, flow, rfl, rfl⟩, (ih _).mpr ⟨hsizes, hfinal⟩⟩

theorem reads_lines {codec : Codec} {flows : List Flow} (h : DecodesFlows codec flows) :
    Reads codec (lines flows) flows := by
  induction flows with
  | nil => exact .nil
  | cons flow rest ih =>
      exact .cons (h flow (by simp)) (ih fun other hother => h other (by simp [hother]))

/-- What the fixture check accepts of the source, it accepts of a directory with the same
extension files and blobs whose log holds the same flows. -/
theorem fixture_transfer {codec : Codec} {source root : Directory}
    {extensions : List ExtensionDescriptor} {maxLineBytes maxBlobBytes : Nat} {flows : List Flow}
    {log : Bytes} (hsource : source.files flowLog = some log)
    (hreads : Reads codec (records newline log) flows)
    (hlog : root.files flowLog = some (written newline (flows.map Flow.encode)))
    (hdecodes : DecodesFlows codec flows)
    (hlines : ∀ flow ∈ flows, flow.encode.length + 1 ≤ maxLineBytes)
    (hfiles : ∀ extension ∈ extensions, root.files extension.path = source.files extension.path)
    (hblobs : ∀ digest, root.blob? (.content digest) = source.blob? (.content digest))
    (h : validateWebsocketFixture codec source extensions maxLineBytes maxBlobBytes = .ok ()) :
    validateWebsocketFixture codec root extensions maxLineBytes maxBlobBytes = .ok () := by
  rw [validateWebsocketFixture, readFile_eq_ok.mpr hsource, ok_bind, bind_eq_ok] at h
  obtain ⟨ids, hscan, hrest⟩ := h
  obtain ⟨-, hids⟩ := (scan_reads hreads [] ids).mp hscan
  have hcopied : checkFold (scanFlowLine codec maxLineBytes) [] (lines flows) = .ok ids := by
    refine (scan_reads (reads_lines hdecodes) [] ids).mpr ⟨?_, hids⟩
    intro line hline
    obtain ⟨flow, hflow, rfl⟩ := List.mem_map.mp hline
    simpa using hlines flow hflow
  rw [validateWebsocketFixture, readFile_eq_ok.mpr hlog, ok_bind, records_log, hcopied, ok_bind]
  rcases hfind : findExtension extensions "websocket-messages" with _ | extension
  · rw [hfind] at hrest
    exact hrest
  · rw [hfind] at hrest
    have hfile := hfiles extension (findExtension_mem hfind).1
    exact (checkTranscript_congr codec maxBlobBytes ids hfile hblobs).trans hrest

/-! ### The blobs of a copy -/

/-- Files of distinct names are filed one by one, the marker apart. -/
theorem foldl_fileEntry {codec : Codec} {maxBlobBytes : Nat} {entries : List BlobEntry}
    {blobs : Blobs} (hentries : ∀ entry ∈ entries, CopiedEntry codec maxBlobBytes entry)
    (hnames : ((entries.filterMap BlobEntry.file?).map Prod.fst).Nodup)
    (hfresh : ∀ file ∈ entries.filterMap BlobEntry.file?, blobs.lookup file.1 = none) :
    entries.foldl fileEntry blobs =
      ((entries.filterMap BlobEntry.file?).filter fun file => file.1 ≠ .gitkeep).reverse ++
        blobs := by
  induction entries generalizing blobs with
  | nil => rfl
  | cons entry rest ih =>
      have hrest : ∀ file ∈ rest, CopiedEntry codec maxBlobBytes file :=
        fun file hfile => hentries file (by simp [hfile])
      have hentry : CopiedEntry codec maxBlobBytes entry := hentries entry (by simp)
      rcases entry with ⟨⟨suffix⟩ | ⟨digest⟩ | _, bytes⟩ | _
      · exact hentry.elim
      · rw [filterMap_file] at hnames hfresh ⊢
        rw [List.map_cons, List.nodup_cons] at hnames
        have hnew : blobs.lookup (.content digest) = none := hfresh (.content digest, bytes) List.mem_cons_self
        have hstep : fileEntry blobs (.file (.content digest) bytes) =
            (.content digest, bytes) :: blobs := by
          rw [fileEntry, fileBlob, hnew]
          rfl
        rw [List.foldl_cons, hstep, ih hrest hnames.2, List.filter_cons_of_pos (by simp),
          List.reverse_cons, List.append_assoc]
        · rfl
        · intro file hfile
          have hne : file.1 ≠ .content digest := by
            intro heq
            exact hnames.1 (List.mem_map.mpr ⟨file, hfile, heq⟩)
          rw [List.lookup_cons, beq_eq_false_iff_ne.mpr hne]
          exact hfresh file (List.mem_cons_of_mem _ hfile)
      · rw [filterMap_file] at hnames hfresh ⊢
        rw [List.map_cons, List.nodup_cons] at hnames
        rw [List.foldl_cons, List.filter_cons_of_neg (by simp)]
        exact ih hrest hnames.2 fun file hfile => hfresh file (List.mem_cons_of_mem _ hfile)
      · exact hentry.elim

theorem copied_blobs {codec : Codec} {maxBlobBytes : Nat} {root : Directory}
    {entries : List BlobEntry} (hlists : Lists root entries)
    (hentries : ∀ entry ∈ entries, CopiedEntry codec maxBlobBytes entry) :
    (entries.foldl fileEntry []).Perm (root.blobs.filter fun entry => entry.1 ≠ .gitkeep) := by
  have hnames := (hlists.files.map Prod.fst).nodup_iff.mpr hlists.names
  rw [foldl_fileEntry hentries hnames fun _ _ => rfl, List.append_nil]
  exact (List.reverse_perm _).trans (hlists.files.filter _)

/-- Under every digest the copy has what the source has. -/
theorem copied_contents {root : Directory} {entries : List BlobEntry}
    (hlists : Lists root entries) (digest : String) :
    (entries.foldl fileEntry []).lookup (.content digest) = root.blob? (.content digest) := by
  rw [lookup_fileEntries, List.lookup_nil, Option.none_or]
  exact lookup_perm hlists.files hlists.names _

/-! ### One copy -/

section

variable {codec : Codec} {pieces : Bytes → List Bytes} {session : Session}
  {entries : List BlobEntry} {targetSchema : Nat} {flows : List Flow}

theorem validateBodyRefs_of_files {root : Directory} {flow : Flow} {limits : StoreLimits}
    (h : validateBodyFiles codec root flow limits = .ok ()) :
    validateBodyRefs flow limits.maxBlobBytes = .ok () := by
  rw [validateBodyFiles, checkAll_eq_ok] at h
  rw [validateBodyRefs, checkAll_eq_ok]
  intro body hbody
  have hfile := h body hbody
  rcases body with _ | _ | blob
  · rfl
  · rfl
  · simp only [validateBodyFile, verifyBlobFile, bind_unit_eq_ok, ensure_eq_ok] at hfile
    simp [validateBodyRef, hfile.1, hfile.2.1]

def migratedMetadata (session : Session) (targetSchema : Nat) : SessionMetadata :=
  { session.manifest.metadata with schemaVersion := targetSchema }

/-- What the copy of a session is to stage. -/
def copyDraft (session : Session) (flows : List Flow) (entries : List BlobEntry) : Draft where
  flows := flows
  entries := Session.payloads session
  blobs := entries.foldl fileEntry []

/-- The extension guard leaves the target schema as it is. -/
theorem copyDraft_metadata
    (hextensions : session.manifest.extensions ≠ [] → targetSchema = sessionSchemaVersion) :
    (copyDraft session flows entries).finalMetadata (migratedMetadata session targetSchema) =
      migratedMetadata session targetSchema := by
  rw [Draft.finalMetadata]
  split
  · rfl
  · rename_i hne
    have hsome : session.manifest.extensions ≠ [] := by
      rintro hempty
      exact hne (by simp [copyDraft, Session.payloads, hempty])
    rw [migratedMetadata, hextensions hsome]

theorem copyDraft_manifest (h : Opened codec session flows)
    (hblobs : (entries.foldl fileEntry []).Perm
      (session.root.blobs.filter fun entry => entry.1 ≠ .gitkeep))
    (hextensions : session.manifest.extensions ≠ [] → targetSchema = sessionSchemaVersion) :
    (copyDraft session flows entries).manifest (migratedMetadata session targetSchema) =
      Manifest.migrate session.manifest targetSchema := by
  have hcount : ((entries.foldl fileEntry []).filter fun entry => entry.1 ≠ .gitkeep).length =
      session.manifest.blobCount := by
    rw [(hblobs.filter _).length_eq, List.filter_filter, h.blobCount, countBlobs]
    simp
  have hnames : (Session.payloads session).map Prod.fst = session.manifest.extensions := by
    rw [Session.payloads, List.map_map]
    exact List.map_id _
  rw [Draft.manifest, copyDraft_metadata hextensions, Manifest.migrate]
  simp only [copyDraft, hcount, hnames, migratedMetadata, ← h.flowCount, ← h.complete]

/-- Everything before `finish` succeeds and stages the session's contents. -/
theorem stageCopy_assembled (hpieces : ∀ bytes, (pieces bytes).flatten = bytes)
    (hlower : LowercaseHex codec) (hword : session.limits.maxBlobBytes ≤ u64Max)
    (h : Opened codec session flows) (hlists : Lists session.root entries)
    (hcopyable : Copyable codec session entries) (htarget : supportedSchema targetSchema)
    (hextensions : session.manifest.extensions ≠ [] → targetSchema = sessionSchemaVersion) :
    ∃ writer, Session.stageCopy codec pieces entries session none targetSchema = .ok writer ∧
      Assembled session.limits (migratedMetadata session targetSchema)
        (copyDraft session flows entries) writer := by
  have hguard : targetSchema = 1 → session.manifest.extensions = [] := by
    intro hone
    by_contra hne
    exact absurd (hone.symm.trans (hextensions hne)) (by decide)
  have hlisted : ∀ entry ∈ entries, Listed session.root entry :=
    fun entry hentry => Listed.of_lists hlists hentry
  obtain ⟨created, hcreated⟩ := @create_eq_ok session.limits
    (migratedMetadata session targetSchema) htarget
  have hstart := create_assembled hcreated
  have hnone : Filed ({} : Draft).blobs := fun _ hmem => absurd hmem List.not_mem_nil
  obtain ⟨filled, hfilled⟩ :=
    copyBlobs_ok hpieces hlower hlisted hcopyable.blobs hstart hnone hword
  obtain ⟨-, -, hblobs⟩ := copyBlobs_eq_ok hpieces hlower hlisted hstart hnone hfilled
  have hlines := hcopyable.lines
  rw [Opened.flows_eq h] at hlines
  have hfits : ∀ flow ∈ flows, FlowFits session.limits flow := fun flow hflow =>
    ⟨h.valid flow hflow, validateBodyRefs_of_files (h.bodies flow hflow),
      (Nat.le_succ _).trans (hlines flow hflow)⟩
  obtain ⟨logged, hlogged⟩ :=
    hblobs.copyFlows_ok hfits (by simpa using h.countBound) (by simpa using h.total)
      (by simpa using h.totalBound)
  have hflows := hblobs.copyFlows hlogged
  have hentries : ∀ entry ∈ Session.payloads session, EntryFits entry := by
    intro entry hentry
    obtain ⟨hmem, hfile⟩ := Opened.payloads_file h hentry
    obtain ⟨hname, hpath, hversion, bytes, hbytes, hsize, -⟩ := h.extensions.each _ hmem
    rw [hfile] at hbytes
    refine ⟨hname, hpath, hversion, Option.some.inj hbytes ▸ hsize,
      (hcopyable.paths _ hmem).1, ?_⟩
    rintro heq
    rw [heq, hlists.directory] at hfile
    cases hfile
  have hregistered : ((Session.payloads session).map fun entry => entry.2.length).sum =
      registeredBytes session.root session.manifest.extensions := by
    rw [Session.payloads, List.map_map, registeredBytes]
    congr 1
    apply List.map_congr_left
    intro extension hmem
    obtain ⟨bytes, hbytes, -⟩ := Opened.payload_file h hmem
    simp [hbytes]
  obtain ⟨writer, hwriter⟩ := hflows.writeAll_ok hentries
    (by simpa [Session.payloads] using h.extensionCount)
    (by simpa [Session.payloads, Function.comp_def] using h.extensions.names)
    (by simpa [Session.payloads, Function.comp_def] using h.extensions.paths)
    (by
      rw [List.nil_append, hregistered]
      exact h.extensions.total)
  refine ⟨writer, ?_, by simpa [copyDraft] using hflows.writeAll hwriter⟩
  rw [Session.stageCopy, ensure_of_true htarget, ok_bind, ensure_of_true hguard, ok_bind]
  show (SessionWriter.create false (migratedMetadata session targetSchema) session.limits >>= _) = _
  rw [hcreated, ok_bind, hfilled, ok_bind, h.items, ok_bind, hlogged, ok_bind,
    copyExtensions_eq h, hwriter]

/-- What the source's opening has checked holds of the staged copy. -/
theorem copyDraft_completable (h : Opened codec session flows)
    (hlists : Lists session.root entries) (hcopyable : Copyable codec session entries)
    (hdecodes : DecodesFlows codec flows) (htarget : supportedSchema targetSchema)
    (hextensions : session.manifest.extensions ≠ [] → targetSchema = sessionSchemaVersion)
    {writer : SessionWriter}
    (hassembled : Assembled session.limits (migratedMetadata session targetSchema)
      (copyDraft session flows entries) writer) :
    Completable codec session.limits (migratedMetadata session targetSchema)
      (copyDraft session flows entries) writer.directory := by
  have hnames : (copyDraft session flows entries).entries.map Prod.fst =
      session.manifest.extensions := by
    show (Session.payloads session).map Prod.fst = _
    rw [Session.payloads, List.map_map]
    exact List.map_id _
  have hfiles : ∀ extension ∈ session.manifest.extensions,
      writer.directory.files extension.path = session.root.files extension.path := by
    intro extension hmem
    obtain ⟨bytes, hbytes, -⟩ := Opened.payload_file h hmem
    have hentry : (extension, bytes) ∈ Session.payloads session := by
      refine List.mem_map.mpr ⟨extension, hmem, ?_⟩
      rw [hbytes]
      rfl
    exact (hassembled.payloads _ hentry).trans hbytes.symm
  have hblobs : ∀ digest, writer.directory.blob? (.content digest) =
      session.root.blob? (.content digest) := by
    intro digest
    rw [Directory.blob?, hassembled.blobs]
    exact copied_contents hlists digest
  have hlines := hcopyable.lines
  rw [Opened.flows_eq h] at hlines
  obtain ⟨log, hlog, hreads⟩ := h.log
  refine ⟨?_, ?_, ?_, ?_, h.ids, ?_, ?_⟩
  · rw [copyDraft_metadata hextensions]
    exact htarget
  · intro entry hentry
    exact (hcopyable.paths _ (Opened.payloads_file h hentry).1).2
  · rw [hnames]
    exact fixture_transfer hlog hreads hassembled.sound.log hdecodes hlines hfiles hblobs h.fixture
  · intro entry hentry
    obtain ⟨hmem, hfile⟩ := Opened.payloads_file h hentry
    obtain ⟨bytes, hbytes, -, hcontent⟩ := Opened.payload_file h hmem
    rw [hfile] at hbytes
    rw [Option.some.inj hbytes, hcontent]
  · intro flow hflow
    rw [validateBodyFiles_congr codec hblobs]
    exact h.bodies flow hflow
  · rw [hnames, checkTimelines_congr hfiles]
    exact h.timelines

/-- A copyable session is copied, and the copy opens and holds what the source holds. -/
theorem copyTo_ok (hpieces : ∀ bytes, (pieces bytes).flatten = bytes)
    (hlower : LowercaseHex codec) (hword : session.limits.maxBlobBytes ≤ u64Max)
    (h : Opened codec session flows) (hlists : Lists session.root entries)
    (hcopyable : Copyable codec session entries) (hdecodes : DecodesFlows codec flows)
    (hmanifest : ManifestReadsBack codec session.manifest)
    (htarget : supportedSchema targetSchema)
    (hextensions : session.manifest.extensions ≠ [] → targetSchema = sessionSchemaVersion) :
    ∃ copy, (Session.copyTo codec pieces entries session none targetSchema).result = .ok copy ∧
      (Session.copyTo codec pieces entries session none targetSchema).destination =
        some copy.root ∧
      Session.open codec copy.root session.limits = .ok copy ∧
      Preserves codec targetSchema session copy := by
  obtain ⟨writer, hstage, hassembled⟩ :=
    stageCopy_assembled hpieces hlower hword h hlists hcopyable htarget hextensions
  have hperm := copied_blobs hlists hcopyable.blobs
  have hsame := copyDraft_manifest h hperm hextensions
  have hreads : DecodesManifest codec (writer.stage codec) := by
    intro root manifest hstaged
    obtain ⟨-, -, rfl⟩ := hassembled.stage_eq_ok hstaged
    rw [hsame]
    exact hmanifest targetSchema htarget
  obtain ⟨copy, hfinish⟩ := hassembled.finish_ok hdecodes hreads
    (copyDraft_completable h hlists hcopyable hdecodes htarget hextensions hassembled)
  obtain ⟨hpublished, hdestination, hopen⟩ := hassembled.published hdecodes hreads hfinish
  have hcopy : Session.copyTo codec pieces entries session none targetSchema =
      writer.finish codec := by
    rw [Session.copyTo, hstage]
    rfl
  refine ⟨copy, by rw [hcopy, hfinish], by rw [hcopy, hdestination], hopen, ?_, ?_, ?_, ?_⟩
  · rw [hpublished.items, h.items]
    rfl
  · rw [hpublished.blobs]
    exact hperm
  · intro name
    rw [Session.readExtension, Session.readExtension, hpublished.manifest_eq, hsame]
    have hextensions : (Manifest.migrate session.manifest targetSchema).extensions =
        session.manifest.extensions := rfl
    rw [hextensions]
    rcases hfind : findExtension session.manifest.extensions name with _ | extension
    · rfl
    · have hmem := (findExtension_mem hfind).1
      obtain ⟨bytes, hbytes, -⟩ := Opened.payload_file h hmem
      have hentry : (extension, bytes) ∈ Session.payloads session := by
        refine List.mem_map.mpr ⟨extension, hmem, ?_⟩
        rw [hbytes]
        rfl
      have hfile : copy.root.files extension.path = session.root.files extension.path :=
        (hpublished.payloads _ hentry).trans hbytes.symm
      simp only [Directory.readFile, hfile]
  · rw [hpublished.manifest_eq, hsame]

end

/-! ### When a copy succeeds -/

section

variable {codec : Codec} {pieces : Bytes → List Bytes} {session : Session}
  {entries : List BlobEntry} {targetSchema : Nat} {flows : List Flow}

/-- A copy that succeeds met none of the conditions that stop it. -/
theorem copyable_of_ok (hpieces : ∀ bytes, (pieces bytes).flatten = bytes)
    (hlower : LowercaseHex codec) (h : Opened codec session flows)
    (hlists : Lists session.root entries) {copy : Session}
    (hcopy : (Session.copyTo codec pieces entries session none targetSchema).result = .ok copy) :
    Copyable codec session entries := by
  rw [Session.copyTo] at hcopy
  rcases hstage : Session.stageCopy codec pieces entries session none targetSchema with
    error | writer
  · rw [hstage] at hcopy
    cases hcopy
  · rw [hstage] at hcopy
    have hfinish : (writer.finish codec).result = .ok copy := hcopy
    simp only [Session.stageCopy, bind_eq_ok, ensure_eq_ok] at hstage
    obtain ⟨_, -, _, -, created, hcreated, filled, hfilled, items, hitems, logged, hlogged,
      hwriter⟩ := hstage
    obtain rfl : flows.map .ok = items := Except.ok.inj (h.items.symm.trans hitems)
    have hlisted : ∀ entry ∈ entries, Listed session.root entry :=
      fun entry hentry => Listed.of_lists hlists hentry
    have hnone : Filed ({} : Draft).blobs := fun _ hmem => absurd hmem List.not_mem_nil
    obtain ⟨hentries, -, hblobs⟩ := copyBlobs_eq_ok hpieces hlower hlisted
      (create_assembled hcreated) hnone hfilled
    rw [copyExtensions_eq h] at hwriter
    have hassembled := (hblobs.copyFlows hlogged).writeAll hwriter
    rcases hstaged : writer.stage codec with error | ⟨root, manifest⟩
    · rw [SessionWriter.finish, hstaged] at hfinish
      cases hfinish
    · obtain ⟨hfixture, hwritten, -⟩ := hassembled.stage_eq_ok hstaged
      refine ⟨hentries, ?_, ?_⟩
      · intro extension hmem
        have hentry : (extension, (session.root.files extension.path).getD []) ∈
            [] ++ Session.payloads session := List.mem_map_of_mem hmem
        have hfile := hassembled.payloads _ hentry
        refine ⟨?_, ?_⟩
        · refine (hassembled.sound.extension extension ?_).notLog
          rw [hassembled.extensions]
          exact List.mem_map_of_mem hentry
        · intro heq
          have habsent := hwritten.absent
          rw [← heq, hfile] at habsent
          cases habsent
      · rw [Opened.flows_eq h]
        intro flow hflow
        exact fixture_lines_bound hassembled.sound.log hfixture flow (by simpa using hflow)

/-- A copy succeeds exactly on a copyable session. -/
theorem copyTo_ok_iff (hpieces : ∀ bytes, (pieces bytes).flatten = bytes)
    (hlower : LowercaseHex codec) (hword : session.limits.maxBlobBytes ≤ u64Max)
    (h : Opened codec session flows) (hlists : Lists session.root entries)
    (hdecodes : DecodesFlows codec flows) (hmanifest : ManifestReadsBack codec session.manifest)
    (htarget : supportedSchema targetSchema)
    (hextensions : session.manifest.extensions ≠ [] → targetSchema = sessionSchemaVersion) :
    (∃ copy, (Session.copyTo codec pieces entries session none targetSchema).result = .ok copy) ↔
      Copyable codec session entries := by
  constructor
  · rintro ⟨copy, hcopy⟩
    exact copyable_of_ok hpieces hlower h hlists hcopy
  · intro hcopyable
    obtain ⟨copy, hcopy, -⟩ := copyTo_ok hpieces hlower hword h hlists hcopyable hdecodes
      hmanifest htarget hextensions
    exact ⟨copy, hcopy⟩

/-- A copy that still has only its own files is copyable again. -/
theorem Preserves.copyable {copy : Session} (hlists : Lists session.root entries)
    (hcopyable : Copyable codec session entries) (hlimits : copy.limits = session.limits)
    (hpreserves : Preserves codec targetSchema session copy) {again : List BlobEntry}
    (hagain : Lists copy.root again) (hregular : BlobEntry.other ∉ again) :
    Copyable codec copy again := by
  refine ⟨?_, ?_, ?_⟩
  · intro entry hentry
    rcases entry with ⟨name, bytes⟩ | _
    · have hmem : (name, bytes) ∈ copy.root.blobs :=
        hagain.files.mem_iff.mp (List.mem_filterMap.mpr ⟨_, hentry, rfl⟩)
      obtain ⟨hsource, hmarker⟩ := List.mem_filter.mp (hpreserves.blobs.mem_iff.mp hmem)
      obtain ⟨source, hlisted, hfile⟩ := List.mem_filterMap.mp (hlists.files.mem_iff.mpr hsource)
      rcases source with ⟨other, content⟩ | _
      · obtain ⟨rfl, rfl⟩ := Prod.mk.inj (Option.some.inj hfile)
        rw [hlimits]
        exact hcopyable.blobs _ hlisted
      · cases hfile
    · exact absurd hentry hregular
  · rw [hpreserves.manifest]
    exact hcopyable.paths
  · have hflows : Session.flows codec copy = Session.flows codec session := by
      rw [Session.flows, Session.flows, hpreserves.items]
    rw [hflows, hlimits]
    exact hcopyable.lines

/-- A copyable session is copied with everything that it holds, under either schema that its
extensions allow, and so is its copy. -/
theorem copyTo_preserves {root : Directory} {limits : StoreLimits}
    (hpieces : ∀ bytes, (pieces bytes).flatten = bytes) (hlower : LowercaseHex codec)
    (hword : limits.maxBlobBytes ≤ u64Max)
    (hopen : Session.open codec root limits = .ok session) (hlists : Lists root entries)
    (hcopyable : Copyable codec session entries)
    (hdecodes : DecodesFlows codec (Session.flows codec session))
    (hmanifest : ManifestReadsBack codec session.manifest)
    (htarget : supportedSchema targetSchema)
    (hextensions : session.manifest.extensions ≠ [] → targetSchema = sessionSchemaVersion) :
    ∃ copy, (Session.copyTo codec pieces entries session none targetSchema).result = .ok copy ∧
      (Session.copyTo codec pieces entries session none targetSchema).destination =
        some copy.root ∧
      Session.open codec copy.root limits = .ok copy ∧
      Preserves codec targetSchema session copy ∧
      ∀ again nextSchema, Lists copy.root again → BlobEntry.other ∉ again →
        supportedSchema nextSchema →
        (copy.manifest.extensions ≠ [] → nextSchema = sessionSchemaVersion) →
        ∃ second, (Session.copyTo codec pieces again copy none nextSchema).result = .ok second ∧
          Preserves codec nextSchema copy second := by
  obtain ⟨rfl, rfl, -, -, flows, hopened⟩ := open_eq_ok hopen
  rw [Opened.flows_eq hopened] at hdecodes
  obtain ⟨copy, hcopy, hdestination, hcopyOpen, hpreserves⟩ := copyTo_ok hpieces hlower hword
    hopened hlists hcopyable hdecodes hmanifest htarget hextensions
  refine ⟨copy, hcopy, hdestination, hcopyOpen, hpreserves, ?_⟩
  intro again nextSchema hagain hregular hnext hnextExtensions
  obtain ⟨-, hlimits, -, -, copyFlows, hcopyOpened⟩ := open_eq_ok hcopyOpen
  have hflows : copyFlows = flows := by
    rw [← Opened.flows_eq hcopyOpened, ← Opened.flows_eq hopened, Session.flows, Session.flows,
      hpreserves.items]
  have hmigrated : ManifestReadsBack codec copy.manifest := by
    rw [hpreserves.manifest]
    exact hmanifest
  obtain ⟨second, hsecond, -, -, hsame⟩ := copyTo_ok hpieces hlower (hlimits ▸ hword)
    hcopyOpened hagain (hpreserves.copyable hlists hcopyable hlimits hagain hregular)
    (hflows ▸ hdecodes) hmigrated hnext hnextExtensions
  exact ⟨second, hsecond, hsame⟩

end

/-! ### Two sessions -/

def fixtureManifest (version : Nat) : Manifest :=
  { Manifest.migrate (sampleManifest 1) version with blobCount := 1 }

def fixtureManifestText (version : Nat) : Bytes :=
  utf8 ("\x7b\n  \"schema_version\": ".toList ++ (Nat.repr version).toList ++
    ",\n  \"tool_version\": \"0.1.0\",\n".toList ++
    "  \"session_id\": \"session-0\",\n  \"capture_mode\": \"forward\",\n".toList ++
    "  \"source\": null,\n  \"target\": null,\n".toList ++
    "  \"matcher_profile\": \"default\",\n".toList ++
    "  \"redaction_profile\": \"default\",\n  \"complete\": true,\n".toList ++
    "  \"flow_count\": 1,\n  \"blob_count\": 1\n\x7d".toList)

def letterDigest : String := "ca978112ca1bbdcafac231b39a23dc4da786eff8147c4e72b9807785afee48bb"

/-- Decoders for the sample flow and the manifest of a session of one flow and one blob. -/
def fixtureCodec : Codec :=
  { sampleCodec 1 with
    sha256Hex := fun bytes => if bytes = [97] then letterDigest else "",
    encodeManifest := fun manifest => fixtureManifestText manifest.metadata.schemaVersion,
    decodeManifest := fun bytes =>
      if bytes = fixtureManifestText 1 ++ [newline] then .ok (fixtureManifest 1)
      else if bytes = fixtureManifestText 2 ++ [newline] then .ok (fixtureManifest 2)
      else .error "unknown manifest" }

/-- A directory of one flow and one blob of the given name. -/
def fixtureRoot (digest : String) : Directory where
  files := fun name =>
    if name = flowLog then some (sampleFlow.encode ++ [newline])
    else if name = manifestFile then some (fixtureManifestText 1 ++ [newline])
    else none
  blobs := [(.content digest, [97])]

def fixtureSession (digest : String) : Session where
  root := fixtureRoot digest
  manifest := fixtureManifest 1
  limits := StoreLimits.default

def fixtureEntries (digest : String) : List BlobEntry := [.file (.content digest) [97]]

theorem fixture_opens {digest : String}
    (h : (Session.open fixtureCodec (fixtureRoot digest) StoreLimits.default).isOk = true) :
    Session.open fixtureCodec (fixtureRoot digest) StoreLimits.default =
      .ok (fixtureSession digest) := by
  rcases hopen : Session.open fixtureCodec (fixtureRoot digest) StoreLimits.default with
    error | session
  · rw [hopen] at h
    cases h
  · obtain ⟨hroot, hlimits, ⟨bytes, hbytes, hmanifest⟩, -⟩ := open_eq_ok hopen
    have htext : bytes = fixtureManifestText 1 ++ [newline] := by
      have hfile : (fixtureRoot digest).files manifestFile =
          some (fixtureManifestText 1 ++ [newline]) := by
        simp [fixtureRoot, manifestFile, flowLog]
      exact Option.some.inj (hbytes.symm.trans hfile)
    have hsame : session.manifest = fixtureManifest 1 := by
      rw [htext] at hmanifest
      simpa [fixtureCodec] using hmanifest.symm
    rcases session with ⟨root, manifest, limits⟩
    rw [fixtureSession, ← hsame, ← hroot, ← hlimits]

theorem fixture_lists {digest : String} (h : digest ≠ ".gitkeep") :
    Lists (fixtureRoot digest) (fixtureEntries digest) where
  files := List.Perm.refl _
  names := by simp [fixtureRoot]
  marker := by simpa [fixtureRoot] using h
  directory := by simp [fixtureRoot, manifestFile, flowLog]

theorem fixture_readsBack (digest : String) :
    ManifestReadsBack fixtureCodec (fixtureSession digest).manifest := by
  rintro version ⟨hlow, hhigh⟩
  have hversion : version = 1 ∨ version = 2 := by
    have hfirst : 1 ≤ version := hlow
    have hlast : version ≤ 2 := hhigh
    omega
  rcases hversion with rfl | rfl
  · simp [fixtureCodec, Manifest.migrate, fixtureSession, fixtureManifest, sampleManifest,
      sampleMetadata]
  · have hne : fixtureManifestText 2 ++ [newline] ≠ fixtureManifestText 1 ++ [newline] := by
      decide
    simp [fixtureCodec, Manifest.migrate, fixtureSession, fixtureManifest, sampleManifest,
      sampleMetadata]
    decide

theorem fixture_decodes : DecodesFlows fixtureCodec [sampleFlow] := by
  intro flow hflow
  rw [List.mem_singleton.mp hflow]
  simp [fixtureCodec, sampleCodec]

theorem fixture_lowercase : LowercaseHex fixtureCodec := by
  intro bytes
  show toAsciiLowercase (if bytes = [97] then letterDigest else "") =
    if bytes = [97] then letterDigest else ""
  split
  · decide
  · decide

/-- A session of schema 1 with one flow and the blob of one letter, copied to schema 2. -/
theorem letter_copyTo_preserves : ∃ copy,
    (Session.copyTo fixtureCodec (fun bytes => [bytes]) (fixtureEntries letterDigest)
      (fixtureSession letterDigest) none 2).result = .ok copy ∧
    Preserves fixtureCodec 2 (fixtureSession letterDigest) copy := by
  have hopen := @fixture_opens letterDigest (by decide +kernel)
  have hflows : Session.flows fixtureCodec (fixtureSession letterDigest) = [sampleFlow] := by
    decide +kernel
  have hcopyable : Copyable fixtureCodec (fixtureSession letterDigest)
      (fixtureEntries letterDigest) := by
    refine ⟨?_, fun _ hmem => absurd hmem List.not_mem_nil, ?_⟩
    · intro entry hentry
      rw [List.mem_singleton.mp hentry]
      exact ⟨by decide, by decide, by decide, by decide⟩
    · rw [hflows]
      decide +kernel
  have hdecodes : DecodesFlows fixtureCodec
      (Session.flows fixtureCodec (fixtureSession letterDigest)) := by
    rw [hflows]
    exact fixture_decodes
  obtain ⟨copy, hcopy, -, -, hpreserves, -⟩ := @copyTo_preserves fixtureCodec
    (fun bytes => [bytes]) (fixtureSession letterDigest) (fixtureEntries letterDigest) 2
    (fixtureRoot letterDigest) StoreLimits.default (by simp) fixture_lowercase (by decide) hopen
    (fixture_lists (by decide)) hcopyable hdecodes (fixture_readsBack letterDigest) (by decide)
    (fun h => absurd rfl h)
  exact ⟨copy, hcopy, hpreserves⟩

/-- A file that is not named by a digest does not keep a session from opening, but stops its
copy. -/
theorem orphan_stops_copy :
    Session.open fixtureCodec (fixtureRoot "junk") StoreLimits.default =
        .ok (fixtureSession "junk") ∧
      Lists (fixtureRoot "junk") (fixtureEntries "junk") ∧
      DecodesFlows fixtureCodec (Session.flows fixtureCodec (fixtureSession "junk")) ∧
      ManifestReadsBack fixtureCodec (fixtureSession "junk").manifest ∧
      (fixtureSession "junk").manifest.metadata.schemaVersion ≤ 2 ∧
      (Session.copyTo fixtureCodec (fun bytes => [bytes]) (fixtureEntries "junk")
        (fixtureSession "junk") none 2).result = .error (.invalid "invalid blob digest") := by
  refine ⟨fixture_opens (by decide +kernel), fixture_lists (by decide), ?_,
    fixture_readsBack "junk", by decide, ?_⟩
  · have hflows : Session.flows fixtureCodec (fixtureSession "junk") = [sampleFlow] := by
      decide +kernel
    rw [hflows]
    exact fixture_decodes
  · rfl

end EggReplay.Store.CopyPreserves
