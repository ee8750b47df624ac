import EggReplay.Cli.TimelineRuns
import EggReplay.Http.RecordingProcess
import EggReplay.Http.TiledTimelines
import EggReplay.Store.CopyPreserves

/-!
Whether the timeline scheduler takes what a recording process has published.
-/

namespace EggReplay.Cli.ScheduledRecordings

open EggReplay.Core.FlowRecord
open EggReplay.Core.Redaction (BodyCodec)
open EggReplay.Core.StreamTimeline
open EggReplay.Core.TimelineOrder
open EggReplay.Store.CopyPreserves
open EggReplay.Store.Fixture
open EggReplay.Store.OpenedSessions
open EggReplay.Store.Publication
open EggReplay.Store.Recording
open EggReplay.Store.SessionOpen
open EggReplay.Store.SessionRuns
open EggReplay.Store.StagedInvariant
open EggReplay.Store.Staging
open EggReplay.Store.Copies
open EggReplay.Http.Atomicity
open EggReplay.Http.Captures
open EggReplay.Http.RecordingProcess
open EggReplay.Http.StreamEventCapture
open EggReplay.Http.TiledTimelines
open EggReplay.Http.Transaction
open EggReplay.Cli.ReportedVerdicts
open EggReplay.Library.Checks
open EggReplay.Library.LineLog
open EggReplay.Library.Text
open EggReplay.Library.TransitionSystem

/-! ### The plan of a fixture -/

/-- The timelines of a fixture; one without the extension has none. -/
def fixtureStreams (codec : Codec) (session : Session) : Except Failure (List FlowStreamEvents) :=
  match findExtension session.manifest.extensions "stream-events" with
  | none => .ok []
  | some _ => readStreams codec session
      ("configuration", "timeline scheduler requires a stream-events extension") ""

def flowOffsets (flows : List Flow) (events : List FlowStreamEvents) : Except Failure (List Nat) :=
  flows.mapM fun flow =>
    orFail ((streamOf events flow.id).map FlowStreamEvents.startOffsetNs)
      ("fixture", "timeline offset is missing for flow " ++ flow.id)

/-- The order in which the timeline scheduler would start the flows of a fixture. -/
def timelinePlan (codec : Codec) (session : Session) (maxConcurrency : Nat) :
    Except Failure (List Nat) := do
  let flows ← collectFlows codec session
  let events ← fixtureStreams codec session
  let offsets ← flowOffsets flows events
  (timelineOrderOffsets offsets maxConcurrency).mapError fun error => ("configuration", error)

/-- The timeline scheduler takes the fixture, for every number of comparisons at a time. -/
def Schedulable (codec : Codec) (session : Session) : Prop :=
  ∀ maxConcurrency, 1 ≤ maxConcurrency → maxConcurrency ≤ 1024 →
    ∃ order, timelinePlan codec session maxConcurrency = .ok order

section

variable {codec : Codec} {session : Session} {flows : List Flow} {events : List FlowStreamEvents}

theorem collectFlows_of_items (h : Session.flowItems codec session = .ok (flows.map .ok)) :
    collectFlows codec session = .ok flows := by
  have hid : ∀ flows : List Flow, (flows.map Except.ok).mapM id = (.ok flows : Except StoreError _) := by
    intro flows
    induction flows with
    | nil => rfl
    | cons flow rest ih =>
        rw [List.map_cons, List.mapM_cons, ih]
        rfl
  rw [collectFlows, h]
  show ((flows.map Except.ok).mapM id).mapError fixtureFailure = _
  rw [hid]
  rfl

theorem readStreams_of_found {extension : ExtensionDescriptor} {bytes : Bytes}
    {timelines : StreamEvents} (missing : Failure) (label : String)
    (hopened : Opened codec session flows)
    (hfind : findExtension session.manifest.extensions "stream-events" = some extension)
    (hfile : session.root.files extension.path = some bytes)
    (hdecode : codec.decodeStreamEvents bytes = .ok timelines) :
    readStreams codec session missing label = .ok timelines.flows := by
  obtain ⟨hmem, hname⟩ := findExtension_mem hfind
  have hread : Session.readExtension session "stream-events" = .ok (some bytes) := by
    rw [← hname, Opened.readExtension hopened hmem, hfile]
    rfl
  obtain ⟨stored, hstored, -, hcontent⟩ := (hopened.extensions.each extension hmem).file
  obtain rfl := Option.some.inj (hfile.symm.trans hstored)
  simp only [checkExtensionContent, bind_eq_ok, ensure_eq_ok, checkWhen_eq_ok] at hcontent
  obtain ⟨_, -, _, -, _, hstream, -⟩ := hcontent
  have hchecked := hstream hname
  simp only [checkStreamEvents, bind_eq_ok, ensure_eq_ok, mapError_eq_ok] at hchecked
  obtain ⟨_, -, decoded, hdecoded, hvalid⟩ := hchecked
  obtain rfl := Except.ok.inj (hdecode.symm.trans hdecoded)
  rw [readStreams, hread]
  show ((codec.decodeStreamEvents bytes).mapError _ >>= _) = _
  rw [hdecode]
  show (timelines.validate.mapError _ >>= _) = _
  rw [hvalid]
  rfl

theorem fixtureStreams_of_found (hopened : Opened codec session flows)
    (hfound : TimelinesFound codec session.root session.manifest.extensions events) :
    fixtureStreams codec session = .ok events := by
  rcases hfound with ⟨hnone, rfl⟩ | ⟨extension, bytes, timelines, hsome, hfile, hdecode, rfl⟩
  · rw [fixtureStreams, hnone]
  · rw [fixtureStreams, hsome]
    exact readStreams_of_found _ _ hopened hsome hfile hdecode

/-- A flow has a timeline that starts within the scheduler's bound. -/
def Placed (events : List FlowStreamEvents) (flow : Flow) : Prop :=
  ∃ entry, streamOf events flow.id = some entry ∧ entry.startOffsetNs ≤ maxStreamTotalDelayNs

theorem offsets_ok_iff :
    (∃ offsets, flowOffsets flows events = .ok offsets ∧
        ∀ offset ∈ offsets, offset ≤ maxStreamTotalDelayNs) ↔
      ∀ flow ∈ flows, Placed events flow := by
  simp only [flowOffsets, mapM_eq_ok, orFail_eq_ok, Option.map_eq_some_iff]
  induction flows with
  | nil =>
      refine iff_of_true ⟨[], .nil, ?_⟩ ?_
      · exact fun _ h => absurd h List.not_mem_nil
      · exact fun _ h => absurd h List.not_mem_nil
  | cons flow rest ih =>
      rw [List.forall_mem_cons, ← ih]
      constructor
      · rintro ⟨offsets, hoffsets, hbound⟩
        cases hoffsets with
        | cons hhead htail =>
            obtain ⟨hfirst, hrest⟩ := List.forall_mem_cons.mp hbound
            obtain ⟨entry, hentry, rfl⟩ := hhead
            exact ⟨⟨entry, hentry, hfirst⟩, _, htail, hrest⟩
      · rintro ⟨⟨entry, hentry, hfirst⟩, offsets, htail, hrest⟩
        exact ⟨entry.startOffsetNs :: offsets, .cons ⟨entry, hentry, rfl⟩ htail,
          List.forall_mem_cons.mpr ⟨hfirst, hrest⟩⟩

/-- The scheduler takes an opened fixture where each flow has a timeline that starts in time. -/
theorem schedulable_iff (hopened : Opened codec session flows)
    (hfound : TimelinesFound codec session.root session.manifest.extensions events) :
    Schedulable codec session ↔ ∀ flow ∈ flows, Placed events flow := by
  have hplan : ∀ maxConcurrency order, timelinePlan codec session maxConcurrency = .ok order ↔
      ∃ offsets, flowOffsets flows events = .ok offsets ∧
        timelineOrderOffsets offsets maxConcurrency = .ok order := by
    intro maxConcurrency order
    rw [timelinePlan, collectFlows_of_items hopened.items, ok_bind,
      fixtureStreams_of_found hopened hfound, ok_bind, bind_eq_ok]
    simp only [mapError_eq_ok]
  rw [← offsets_ok_iff]
  constructor
  · intro h
    obtain ⟨order, horder⟩ := h 1 (Nat.le_refl 1) (by decide)
    obtain ⟨offsets, hoffsets, hordered⟩ := (hplan 1 order).mp horder
    exact ⟨offsets, hoffsets, (timelineOrderOffsets_eq_ok.mp hordered).2.1⟩
  · rintro ⟨offsets, hoffsets, hbound⟩ maxConcurrency hpositive hlimit
    exact ⟨_, (hplan maxConcurrency _).mpr ⟨offsets, hoffsets,
      timelineOrderOffsets_eq_ok.mpr ⟨⟨hpositive, hlimit⟩, hbound, rfl⟩⟩⟩

end

/-! ### What the process publishes -/

section

variable {N : Type} {storage : Codec} {codec : BodyCodec N} {settings : Settings}
  {limits : StoreLimits} {process : Process} {session : Session}

/-- What `finish` publishes opens with the recorded flows and timelines. -/
theorem published_opens (hkept : Kept limits process)
    (hreads : ReadsBack storage process.run.flows process.run.inner.toStaged
      (process.run.inner.stage storage))
    (hresult : (process.run.inner.finish storage).result = .ok session) :
    Opened storage session process.run.flows ∧
      TimelinesFound storage session.root session.manifest.extensions process.entries := by
  rcases hstage : process.run.inner.stage storage with error | ⟨root, manifest⟩
  · rw [RecordingInner.finish, hstage] at hresult
    cases hresult
  rw [RecordingInner.finish, hstage, hkept.sound.limits_eq] at hresult
  have hcompletes := recording_stage_completes hkept.sound hstage
  obtain ⟨middle, final, hstream, htranscript, hfixture, hwrite, -⟩ := hcompletes.stages
  have hfinal : Sound limits process.run.flows final :=
    htranscript.sound (hstream.sound hkept.sound.sound)
  have hwritten := writeManifest_eq_ok hwrite hkept.sound.sound.count
  obtain ⟨hroot, hlimits, ⟨bytes, hbytes, hdecode⟩, -, flows, hopened⟩ := open_eq_ok hresult
  have hmanifest : session.manifest = manifest := by
    obtain rfl := Option.some.inj (hbytes.symm.trans hwritten.file)
    exact Except.ok.inj (hdecode.symm.trans (hreads.manifest root manifest hstage))
  have hitems : Session.flowItems storage session = .ok (process.run.flows.map .ok) := by
    have hlog : session.root.files flowLog =
        some (written newline (process.run.flows.map Flow.encode)) := by
      rw [hroot, hwritten.other flowLog (by decide), hfinal.log]
    rw [Session.flowItems, Session.iterFlows, readFile_eq_ok.mpr hlog, hlimits]
    exact congrArg Except.ok (published_items hfinal hreads.flows hfixture)
  have hflows : flows = process.run.flows := by
    have hsame := Except.ok.inj (hopened.items.symm.trans hitems)
    exact List.map_injective_iff.mpr (fun _ _ => Except.ok.inj) hsame
  have hextensions : process.run.inner.toStaged.extensions = [] := hkept.extensions
  have htimelines : publishedTimelines storage process.run.inner.toStaged = process.entries := by
    unfold publishedTimelines
    rw [hextensions]
    split
    · rfl
    · rename_i hempty
      exact (not_not.mp hempty).symm
  have hfound := completes_timelines hkept.sound.sound hreads.streamEvents
    (by rw [hextensions]; exact fun _ h => absurd h List.not_mem_nil) hstream htranscript
  rw [htimelines] at hfound
  refine ⟨hflows ▸ hopened, ?_⟩
  rw [hmanifest, hwritten.extensions, hroot]
  exact timelinesFound_root hwritten hfinal hfound

theorem find_of_countP_le_one {α : Type} {p : α → Bool} {items : List α} {item : α}
    (hcount : items.countP p ≤ 1) (hmem : item ∈ items) (hitem : p item = true) :
    items.find? p = some item := by
  induction items with
  | nil => cases hmem
  | cons head rest ih =>
      cases hhead : p head with
      | true =>
          rw [List.find?_cons_of_pos hhead]
          rw [List.countP_cons_of_pos hhead] at hcount
          have hrest : rest.countP p = 0 := by omega
          rcases List.mem_cons.mp hmem with rfl | htail
          · rfl
          · exact absurd hitem (List.countP_eq_zero.mp hrest item htail)
      | false =>
          rw [List.find?_cons_of_neg (by rw [hhead]; exact Bool.false_ne_true)]
          rw [List.countP_cons_of_neg (by rw [hhead]; exact Bool.false_ne_true)] at hcount
          rcases List.mem_cons.mp hmem with rfl | htail
          · rw [hitem] at hhead
            cases hhead
          · exact ih hcount htail

theorem streamOf_eq_none_iff {events : List FlowStreamEvents} {id : String} :
    streamOf events id = none ↔ events.countP (fun entry => entry.flowId == id) = 0 := by
  rw [streamOf, List.find?_eq_none, List.countP_eq_zero]

theorem flowsOf_le_one (hids : (flowIds process.run.flows).Nodup) (id : String) :
    flowsOf process id ≤ 1 := by
  have hcount : (flowIds process.run.flows).count id = flowsOf process id := by
    rw [flowIds, List.count, List.countP_map]
    rfl
  rw [← hcount]
  exact List.nodup_iff_count_le_one.mp hids id

/-- A session that is spoiled cannot be scheduled. -/
theorem not_placed_of_spoiled (hids : (flowIds process.run.flows).Nodup)
    (hagrees : ∀ entry ∈ process.entries, TimelineAgrees process.run.flows entry)
    (hsurplus : ∀ id, Surplus 0 id process) (h : Spoiled process) :
    ∃ flow ∈ process.run.flows, ¬Placed process.entries flow := by
  cases h with
  | missed id hmissed =>
      have hle := flowsOf_le_one hids id
      unfold Surplus at hmissed
      have hsome : 0 < flowsOf process id := by omega
      have hnone : entriesOf process id = 0 := by omega
      obtain ⟨flow, hflow, hid⟩ := List.countP_pos_iff.mp hsome
      refine ⟨flow, hflow, ?_⟩
      rintro ⟨entry, hentry, -⟩
      rw [beq_iff_eq.mp hid, streamOf_eq_none_iff.mpr hnone] at hentry
      cases hentry
  | late entry hmem hlate =>
      obtain ⟨flow, hflow, hid, -⟩ := hagrees entry hmem
      refine ⟨flow, hflow, ?_⟩
      rintro ⟨other, hother, htimely⟩
      have hle := flowsOf_le_one hids entry.flowId
      have hzero := hsurplus entry.flowId
      unfold Surplus at hzero
      have hone : entriesOf process entry.flowId ≤ 1 := by omega
      rw [hid] at hother
      have hfind : streamOf process.entries entry.flowId = some entry :=
        find_of_countP_le_one hone hmem (beq_self_eq_true _)
      obtain rfl := Option.some.inj (hother.symm.trans hfind)
      exact Nat.not_lt.mpr htimely hlate

theorem surplus_started {metadata : SessionMetadata} {start : RecordingInner}
    (hcreate : RecordingInner.create false metadata limits = .ok start)
    (exchanges : List Exchange) (id : String) : Surplus 0 id (started start exchanges) := by
  simp only [RecordingInner.create, bind_unit_eq_ok, ensure_eq_ok, pure_eq_ok] at hcreate
  obtain ⟨-, -, rfl⟩ := hcreate
  have hpending : pendingOf (started
      { toStaged := Staged.empty, metadata, limits } exchanges) id = 0 := by
    rw [pendingOf, started, List.countP_map, List.countP_eq_zero]
    exact fun _ _ => Bool.false_ne_true
  unfold Surplus
  rw [hpending]
  exact Nat.le_refl 0

theorem covered_started {metadata : SessionMetadata} {start : RecordingInner}
    (hcreate : RecordingInner.create false metadata limits = .ok start)
    (exchanges : List Exchange) : Covered (started start exchanges) := by
  simp only [RecordingInner.create, bind_unit_eq_ok, ensure_eq_ok, pure_eq_ok] at hcreate
  obtain ⟨-, -, rfl⟩ := hcreate
  exact ⟨fun _ h => absurd h List.not_mem_nil, fun _ h => absurd h List.not_mem_nil⟩

/-- A covered session in which no transaction stands between its appends has placed flows. -/
theorem placed_of_covered (h : Covered process)
    (hnone : ∀ events, .registering events ∉ process.transactions) :
    ∀ flow ∈ process.run.flows, Placed process.entries flow := by
  intro flow hflow
  rcases h.flows flow hflow with ⟨entry, hmem, hid⟩ | ⟨events, hmem, -⟩
  · rcases hfind : streamOf process.entries flow.id with _ | other
    · have hall := List.find?_eq_none.mp hfind entry hmem
      rw [hid] at hall
      exact absurd (beq_self_eq_true flow.id) hall
    · exact ⟨other, hfind, h.timely other (List.mem_of_find?_eq_some hfind)⟩
  · exact absurd hmem (hnone events)

/-- A transaction between its appends leaves its flow without a timeline. -/
theorem spoiled_of_registering {events : FlowStreamEvents} (hsurplus : ∀ id, Surplus 0 id process)
    (hids : (flowIds process.run.flows).Nodup)
    (hmem : .registering events ∈ process.transactions) :
    ∃ flow ∈ process.run.flows, ¬Placed process.entries flow := by
  have hpending : 0 < pendingOf process events.flowId :=
    List.countP_pos_iff.mpr ⟨_, hmem, (beq_self_eq_true events.flowId)⟩
  have hle := flowsOf_le_one hids events.flowId
  have hzero := hsurplus events.flowId
  unfold Surplus at hzero
  have hsome : 0 < flowsOf process events.flowId := by omega
  have hnone : entriesOf process events.flowId = 0 := by omega
  obtain ⟨flow, hflow, hid⟩ := List.countP_pos_iff.mp hsome
  refine ⟨flow, hflow, ?_⟩
  rintro ⟨entry, hentry, -⟩
  rw [beq_iff_eq.mp hid, streamOf_eq_none_iff.mpr hnone] at hentry
  cases hentry

/-- What a process has recorded and published can be scheduled exactly when every timeline it
registered starts within the scheduler's bound and was taken, and none was still to be
registered. -/
theorem recordings_schedulable_iff (storage : Codec) (codec : BodyCodec N) (settings : Settings)
    (limits : StoreLimits) (metadata : SessionMetadata) (start : RecordingInner)
    (exchanges : List Exchange) (turns : List Turn) (final : Process) (session : Session)
    (hcreate : RecordingInner.create false metadata limits = .ok start)
    (hclocks : ∀ exchange ∈ exchanges, OneClock exchange)
    (hrun : run (step storage codec settings) (started start exchanges) turns = some final)
    (hreads : ReadsBack storage final.run.flows final.run.inner.toStaged
      (final.run.inner.stage storage))
    (hresult : (final.run.inner.finish storage).result = .ok session) :
    Schedulable storage session ↔
      Throughout (step storage codec settings) Admits (started start exchanges) turns ∧
        ∀ events, .registering events ∉ final.transactions := by
  obtain ⟨hkept, hsurplus, hcovered, hspoiled⟩ :=
    process_run (kept_started hcreate hclocks) (surplus_started hcreate exchanges) hrun
  obtain ⟨hopened, hfound⟩ := published_opens hkept hreads hresult
  have hagrees : ∀ entry ∈ final.entries, TimelineAgrees final.run.flows entry :=
    (checkTimelines_of_lengths hopened.ids hfound).mp hopened.timelines
  rw [schedulable_iff hopened hfound]
  constructor
  · intro hplaced
    constructor
    · by_contra hnot
      obtain ⟨flow, hflow, hmissing⟩ :=
        not_placed_of_spoiled hopened.ids hagrees hsurplus (hspoiled (.inr hnot))
      exact hmissing (hplaced flow hflow)
    · intro events hmem
      obtain ⟨flow, hflow, hmissing⟩ := spoiled_of_registering hsurplus hopened.ids hmem
      exact hmissing (hplaced flow hflow)
  · rintro ⟨hall, hnone⟩
    exact placed_of_covered (hcovered (covered_started hcreate exchanges) hall) hnone

end

/-! ### One flow, in time and too late -/

/-- A request without a body, and an answer without one. -/
def plainGet (startOffsetNs : Nat) : Exchange where
  method := "GET"
  uri :=
    { scheme := some "http", authority := some "example.test", path := "/", query := none }
  headers := []
  polled := []
  requestEnd := some ⟨1, none⟩
  result := .ok { status := 200, http2 := false, headers := [], frames := [], ending := ⟨1, none⟩ }
  uuid := "0"
  startedAtMs := 1
  completedAtMs := 2
  startOffsetNs := startOffsetNs
  endOffsetNs := startOffsetNs + 2
  physicalRoute := none

def plainFlow : Flow where
  schemaVersion := 1
  id := "flow-1-0"
  startedAtMs := 1
  completedAtMs := some 2
  request :=
    { method := "GET", scheme := "http", authority := "example.test", path := "/", query := [],
      headers := [], body := .empty, trailers := [] }
  outcome := .response { status := 200, headers := [], body := .empty, trailers := [] }
  physicalRoute := none
  provenance := { mode := "eggfetch-native", observer := "eggreplay-http" }
  annotations := []
  redactions := []

def plainTimelines (startOffsetNs : Nat) : StreamEvents where
  schemaVersion := streamEventsSchemaVersion
  flows := [
    { flowId := "flow-1-0", startOffsetNs, request := [⟨1, .finish⟩], response := [⟨1, .finish⟩] }]

def plainManifest : Manifest where
  metadata := { freshMetadata with schemaVersion := sessionSchemaVersion }
  complete := true
  flowCount := 1
  blobCount := 0
  extensions := [streamEventsExtension]

def plainManifestText : Bytes :=
  utf8 ("\x7b\n  \"schema_version\": 2,\n  \"tool_version\": \"0.1.0\",\n".toList ++
    "  \"session_id\": \"session-0\",\n  \"capture_mode\": \"forward\",\n".toList ++
    "  \"source\": null,\n  \"target\": null,\n".toList ++
    "  \"matcher_profile\": \"default\",\n".toList ++
    "  \"redaction_profile\": \"default\",\n  \"complete\": true,\n".toList ++
    "  \"flow_count\": 1,\n  \"blob_count\": 0,\n  \"extensions\": [\n".toList ++
    "    \x7b\n      \"name\": \"stream-events\",\n      \"schema_version\": 1,\n".toList ++
    "      \"path\": \"stream-events.json\",\n".toList ++
    "      \"required_for_replay\": true\n    \x7d\n  ]\n\x7d".toList)

/-- Decoders for that flow, its timeline and the manifest of a session that holds them. -/
def plainStorage (startOffsetNs : Nat) : Codec where
  sha256Hex := formCodec.sha256
  decodeFlow bytes :=
    if bytes = plainFlow.encode ++ [newline] then .ok plainFlow else .error "unknown flow"
  encodeManifest _ := plainManifestText
  decodeManifest bytes :=
    if bytes = plainManifestText ++ [newline] then .ok plainManifest
    else .error "unknown manifest"
  decodeStreamEvents bytes :=
    if bytes = (plainTimelines startOffsetNs).encode then .ok (plainTimelines startOffsetNs)
    else .error "unknown stream events"
  decodeTranscript _ := .error "unknown transcript"
  decodeRules _ := .error "unknown rules"

/-- The flow is captured, appended and registered. -/
def plainTurns : List Turn := [.advance 0, .advance 0, .advance 0]

/-- What the three turns leave, and that `finish` publishes it. -/
def publishesPlain (startOffsetNs : Nat) (final : Process) : Bool :=
  decide (final.run.flows = [plainFlow]) &&
    decide (final.run.inner.streamEvents = plainTimelines startOffsetNs) &&
      settle (final.run.inner.stage (plainStorage startOffsetNs)) false
          (fun staged => decide (staged.2 = plainManifest)) &&
        final.transactions.all fun transaction =>
          match transaction with
          | .ended => true
          | .capturing _ | .appending _ _ | .registering _ => false

def published (startOffsetNs : Nat) (final : Process) : Except StoreError Session :=
  (final.run.inner.finish (plainStorage startOffsetNs)).result

/-- All delays of both bodies are within the limit for one event. -/
def Prompt (exchange : Exchange) : Prop :=
  (∀ frame ∈ exchange.polled, frame.deltaNs ≤ maxStreamDelayNs) ∧
    (∀ ending ∈ exchange.requestEnd, ending.deltaNs ≤ maxStreamDelayNs) ∧
      ∀ reply, exchange.result = .ok reply →
        (∀ frame ∈ reply.frames, frame.deltaNs ≤ maxStreamDelayNs) ∧
          reply.ending.deltaNs ≤ maxStreamDelayNs

theorem plainGet_clock (startOffsetNs : Nat) : ∀ exchange ∈ [plainGet startOffsetNs],
    OneClock exchange := by
  intro exchange hmem
  obtain rfl := List.mem_singleton.mp hmem
  refine ⟨List.pairwise_singleton _ _, ?_⟩
  rintro reply hreply
  cases hreply
  exact List.pairwise_singleton _ _

theorem plainGet_prompt (startOffsetNs : Nat) : Prompt (plainGet startOffsetNs) := by
  refine ⟨fun _ h => absurd h List.not_mem_nil, ?_, ?_⟩
  · rintro ending hending
    obtain rfl := Option.some.inj hending
    decide
  · rintro reply hreply
    cases hreply
    exact ⟨fun _ h => absurd h List.not_mem_nil, by decide⟩

theorem publishesPlain_readsBack {startOffsetNs : Nat} {final : Process}
    (h : publishesPlain startOffsetNs final = true) :
    ReadsBack (plainStorage startOffsetNs) final.run.flows final.run.inner.toStaged
        (final.run.inner.stage (plainStorage startOffsetNs)) ∧
      ∀ events, .registering events ∉ final.transactions := by
  simp only [publishesPlain, Bool.and_eq_true, decide_eq_true_eq] at h
  obtain ⟨⟨⟨hflows, hevents⟩, hstaged⟩, hended⟩ := h
  refine ⟨⟨?_, ?_, ?_⟩, ?_⟩
  · intro flow hflow
    rw [hflows] at hflow
    obtain rfl := List.mem_singleton.mp hflow
    simp only [plainStorage, ↓reduceIte]
  · rintro -
    show (plainStorage startOffsetNs).decodeStreamEvents final.run.inner.streamEvents.encode =
      .ok final.run.inner.streamEvents
    rw [hevents]
    simp only [plainStorage, ↓reduceIte]
  · intro root manifest hstage
    rw [hstage] at hstaged
    obtain rfl := of_decide_eq_true hstaged
    simp only [plainStorage, ↓reduceIte]
  · intro events hmem
    cases List.all_eq_true.mp hended _ hmem

/-- A run of the three turns, published, whose session has that property. -/
theorem exists_plain_run {startOffsetNs : Nat} {p : Session → Bool}
    (h : ((run (step (plainStorage startOffsetNs) formCodec formSettings)
      (started freshSession [plainGet startOffsetNs]) plainTurns).any fun final =>
        publishesPlain startOffsetNs final &&
          settle (published startOffsetNs final) false p) = true) :
    ∃ final session, run (step (plainStorage startOffsetNs) formCodec formSettings)
        (started freshSession [plainGet startOffsetNs]) plainTurns = some final ∧
      publishesPlain startOffsetNs final = true ∧
      (final.run.inner.finish (plainStorage startOffsetNs)).result = .ok session ∧
      p session = true := by
  obtain ⟨final, hrun, hfinal⟩ := (Option.any_eq_true _ _).mp h
  obtain ⟨hpublishes, hsession⟩ := Bool.and_eq_true_iff.mp hfinal
  rcases hresult : published startOffsetNs final with error | session
  · rw [hresult] at hsession
    cases hsession
  · rw [hresult] at hsession
    exact ⟨final, session, hrun, hpublishes, hresult, hsession⟩

/-- The process has run for five minutes when the exchange starts. -/
theorem late_recording_unschedulable :
    ¬ ∀ (N : Type) (storage : Codec) (codec : BodyCodec N) (settings : Settings)
      (limits : StoreLimits) (metadata : SessionMetadata) (start : RecordingInner)
      (exchanges : List Exchange) (turns : List Turn) (final : Process) (session : Session),
      RecordingInner.create false metadata limits = .ok start →
      (∀ exchange ∈ exchanges, OneClock exchange ∧ Prompt exchange) →
      exchanges.Pairwise (fun left right => left.startOffsetNs ≤ right.startOffsetNs) →
      run (step storage codec settings) (started start exchanges) turns = some final →
      (∀ events, .registering events ∉ final.transactions) →
      ReadsBack storage final.run.flows final.run.inner.toStaged
        (final.run.inner.stage storage) →
      (final.run.inner.finish storage).result = .ok session →
      Schedulable storage session := by
  intro h
  obtain ⟨final, session, hrun, hpublishes, hresult, hplan⟩ :=
    @exists_plain_run 300000000001
      (fun session => !(timelinePlan (plainStorage 300000000001) session 1).isOk)
      (by decide +kernel)
  obtain ⟨hreads, hended⟩ := publishesPlain_readsBack hpublishes
  have hschedulable := h Nat (plainStorage 300000000001) formCodec formSettings
    StoreLimits.default freshMetadata freshSession [plainGet 300000000001] plainTurns final session
    rfl (fun exchange hmem => ⟨plainGet_clock 300000000001 exchange hmem,
      List.mem_singleton.mp hmem ▸ plainGet_prompt 300000000001⟩)
    (List.pairwise_singleton _ _) hrun hended hreads hresult
  obtain ⟨order, horder⟩ := hschedulable 1 (Nat.le_refl 1) (by decide)
  rw [horder] at hplan
  cases hplan

/-- An exchange at the start of the process is recorded so that it can be scheduled. -/
theorem timely_recording_schedulable :
    ∃ final session,
      run (step (plainStorage 0) formCodec formSettings) (started freshSession [plainGet 0])
          plainTurns = some final ∧
        (final.run.inner.finish (plainStorage 0)).result = .ok session ∧
        (Schedulable (plainStorage 0) session ↔
          Throughout (step (plainStorage 0) formCodec formSettings) Admits
              (started freshSession [plainGet 0]) plainTurns ∧
            ∀ events, .registering events ∉ final.transactions) := by
  obtain ⟨final, session, hrun, hpublishes, hresult, -⟩ :=
    @exists_plain_run 0 (fun _ => true) (by decide +kernel)
  obtain ⟨hreads, -⟩ := publishesPlain_readsBack hpublishes
  exact ⟨final, session, hrun, hresult, recordings_schedulable_iff (plainStorage 0) formCodec
    formSettings StoreLimits.default freshMetadata freshSession [plainGet 0] plainTurns final
    session rfl (plainGet_clock 0) hrun hreads hresult⟩

end EggReplay.Cli.ScheduledRecordings
