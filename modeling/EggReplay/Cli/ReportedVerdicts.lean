import EggReplay.Cli.FixtureWebSockets
import EggReplay.Cli.JunitReports
import EggReplay.Core.ReportVerdicts
import EggReplay.Store.Merges

/-!
The commands whose reports are projected: `diff` on two fixtures, and `test`, which compares a
fixture with what a candidate answers. A command may end before it prints a document.
-/

namespace EggReplay.Cli.ReportedVerdicts

open EggReplay.Core
open EggReplay.Library.Checks
open EggReplay.Library.Text
open EggReplay.Library.Xml
open EggReplay.Core.FlowRecord
open EggReplay.Core.StreamTimeline
open EggReplay.Core.WebSockets
open EggReplay.Core.Redaction
open EggReplay.Core.Reports
open EggReplay.Store.Fixture
open EggReplay.Store.SessionOpen
open EggReplay.Store.Copies
open EggReplay.Store.SessionRuns
open EggReplay.Store.Merges
open EggReplay.Http.WebSocketMatching
open EggReplay.Cli.FixtureWebSockets
open EggReplay.Cli.JunitReports

/-! ### What the commands read -/

/-- The class of a failure and its message. -/
abbrev Failure := String × String

def fixtureFailure (error : StoreError) : Failure := ("fixture", error.display)

/-- The JUnit document that a command has printed, and how it ended. -/
structure CommandRun where
  document : Option String
  result : Except Failure Unit

def CommandRun.Failed (run : CommandRun) : Prop := ∃ failure, run.result = .error failure

def Session.readBlob (codec : Codec) (session : Session) (blob : BlobRef) :
    Except StoreError Bytes := do
  verifyBlobFile codec session.root blob session.limits.maxBlobBytes
  orFail (session.root.blob? (.content blob.sha256)) (.io "No such file or directory")

def body (codec : Codec) (session : Session) : BodyRef → Except StoreError Bytes
  | .absent | .empty => .ok []
  | .blob blob => Session.readBlob codec session blob

def collectFlows (codec : Codec) (session : Session) : Except Failure (List Flow) := do
  let items ← (Session.flowItems codec session).mapError fixtureFailure
  (items.mapM id).mapError fixtureFailure

/-- The timelines of a fixture, which have to be there. -/
def readStreams (codec : Codec) (session : Session) (missing : Failure) (label : String) :
    Except Failure (List FlowStreamEvents) := do
  let stored ← (Session.readExtension session "stream-events").mapError fixtureFailure
  let bytes ← orFail stored missing
  let decoded ← (codec.decodeStreamEvents bytes).mapError fun error =>
    ("fixture", "invalid " ++ label ++ "stream-events extension: " ++ error)
  decoded.validate.mapError fun error => ("fixture", error)
  pure decoded.flows

/-- The timelines of a fixture, where a comparison of timelines is requested. -/
def requestedStreams (codec : Codec) (policy : ComparisonPolicy) (session : Session)
    (side label : String) : Except Failure (Option (List FlowStreamEvents)) :=
  if policy.isStreamEnabled = true then do
    let flows ← readStreams codec session ("fixture", "stream comparison requested but " ++
      side ++ " fixture has no stream-events extension") label
    pure (some flows)
  else pure none

def fixtureWebsockets (codec : Codec) (session : Session) :
    Except Failure (List WebSocketConversation) := do
  let stored ← (Session.readExtension session "websocket-messages").mapError fixtureFailure
  match stored with
  | none => pure []
  | some bytes => do
      let transcript ← (codec.decodeTranscript bytes).mapError fun error =>
        ("fixture", "invalid websocket-messages extension: " ++ error)
      (transcript.validate WebSocketLimits.default).mapError fun error => ("fixture", error)
      pure transcript.conversations

/-- A map by flow ids keeps the last conversation of a flow. -/
def conversationOf (conversations : List WebSocketConversation) (flowId : String) :
    Option WebSocketConversation :=
  conversations.reverse.find? fun conversation => conversation.flowId == flowId

def streamOf (streams : List FlowStreamEvents) (flowId : String) : Option FlowStreamEvents :=
  streams.find? fun flow => flow.flowId == flowId

/-- What `diff` holds of one fixture. -/
structure Loaded where
  session : Session
  flows : List Flow
  websockets : List WebSocketConversation
  streams : Option (List FlowStreamEvents)

/-- Both fixtures, each part of the one before the same part of the other. -/
def loadBoth (codec : Codec) (policy : ComparisonPolicy) (baseline candidate : Directory) :
    Except Failure (Loaded × Loaded) := do
  let left ← (Session.open codec baseline StoreLimits.default).mapError fixtureFailure
  let right ← (Session.open codec candidate StoreLimits.default).mapError fixtureFailure
  let leftFlows ← collectFlows codec left
  let rightFlows ← collectFlows codec right
  let leftWebsockets ← fixtureWebsockets codec left
  let rightWebsockets ← fixtureWebsockets codec right
  let leftStreams ← requestedStreams codec policy left "baseline" "baseline "
  let rightStreams ← requestedStreams codec policy right "candidate" "candidate "
  pure (⟨left, leftFlows, leftWebsockets, leftStreams⟩,
    ⟨right, rightFlows, rightWebsockets, rightStreams⟩)

/-! ### The comparison of two flows -/

section

variable {N : Type} (codec : Codec) (json : BodyCodec N) (quoted : String → String)
  (policy : ComparisonPolicy) (timing : Option TimingAssertion) (baseline candidate : Loaded)

def responseBody (loaded : Loaded) : FlowOutcome → Bytes
  | .response response => settle (body codec loaded.session response.body) [] id
  | .error _ => []

def flowReport (left right : Flow) : RegressionReport :=
  compareFlowsWithTimingAndPolicy codec.sha256Hex left right
    (responseBody codec baseline left.outcome) (responseBody codec candidate right.outcome)
    .sequential timing policy

def responseOnly (flowId : String) (events : FlowStreamEvents) : FlowStreamEvents where
  flowId := flowId
  startOffsetNs := 0
  request := []
  response := events.response

def streamFailure (what : String) : Failure :=
  ("fixture", "stream comparison requested but " ++ what)

def streamFindings (left right : Flow) : Except Failure (List DiffFinding) := do
  let baselineMap ← orFail baseline.streams
    (streamFailure "baseline stream metadata is missing")
  let candidateMap ← orFail candidate.streams
    (streamFailure "candidate stream metadata is missing")
  let leftEvents ← orFail (streamOf baselineMap left.id)
    (streamFailure ("baseline metadata is missing for flow " ++ left.id))
  let rightEvents ← orFail (streamOf candidateMap right.id)
    (streamFailure ("candidate metadata is missing for flow " ++ right.id))
  pure (compareStreamEvents (responseOnly left.id leftEvents)
    (responseOnly left.id rightEvents) policy.cadenceToleranceNs)

def switches : FlowOutcome → Bool
  | .response response => response.status == 101
  | .error _ => false

def readOf (loaded : Loaded) : ReadBlob := fun blob =>
  settle (Session.readBlob codec loaded.session blob) none some

def websocketFindings (left right : Flow) : Except Failure (List DiffFinding) :=
  match conversationOf baseline.websockets left.id, conversationOf candidate.websockets right.id with
  | some leftWs, some rightWs =>
      .ok (compareFixtureWebsockets json quoted (readOf codec baseline) (readOf codec candidate)
        leftWs rightWs policy.websocketCadenceToleranceNs)
  | _, _ => .error ("fixture", "WebSocket 101 flow has missing conversation metadata")

/-- More findings, sorted in. -/
def RegressionReport.extend (report : RegressionReport) (more : List DiffFinding) :
    RegressionReport :=
  { report with findings := (report.findings ++ more).mergeSort DiffFinding.before }

def compareStreams (left right : Flow) (report : RegressionReport) :
    Except Failure RegressionReport :=
  if policy.isStreamEnabled = true then do
    let more ← streamFindings policy baseline candidate left right
    pure (RegressionReport.extend report more)
  else pure report

def compareWebsockets (left right : Flow) (report : RegressionReport) :
    Except Failure RegressionReport :=
  if switches left.outcome = true ∨ switches right.outcome = true then do
    let more ← websocketFindings codec json quoted policy baseline candidate left right
    pure (RegressionReport.extend report more)
  else pure report

/-- The body of the loop of `diff`. -/
def comparePair (pair : Flow × Flow) : Except Failure RegressionReport := do
  let report := flowReport codec policy timing baseline candidate pair.1 pair.2
  let report ← compareStreams policy baseline candidate pair.1 pair.2 report
  compareWebsockets codec json quoted policy baseline candidate pair.1 pair.2 report

end

/-! ### The commands -/

def diff {N : Type} (codec : Codec) (json : BodyCodec N) (quoted : String → String)
    (policy : ComparisonPolicy) (timing : Option TimingAssertion)
    (baseline candidate : Directory) : CommandRun :=
  let compared := do
    let (left, right) ← loadBoth codec policy baseline candidate
    let reports ← (left.flows.zip right.flows).mapM
      (comparePair codec json quoted policy timing left right)
    pure (left.flows, right.flows, reports)
  match compared with
  | .error failure => { document := none, result := .error failure }
  | .ok (left, right, reports) =>
      let success := left.length == right.length && reports.all RegressionReport.isSuccess
      { document := some (junitForReports "diff" (left.map FlowRecord.Flow.id) reports)
        result := if success = true then .ok () else .error ("diff", "fixtures differ") }

inductive SchedulerChoice where
  | sequential | timeline
  deriving DecidableEq, Repr

structure SchedulerOptions where
  choice : SchedulerChoice
  maxConcurrency : Nat
  deriving DecidableEq, Repr

/-- A comparison with a candidate: what the target and the route come to, what the candidate
makes of each flow, and the order in which the tasks of a timeline end. -/
structure CandidateWorld where
  target : Except String String
  client : Except Failure Unit
  compareCandidateFlow : ReportScheduler → Option (List FlowStreamEvents) → Flow →
    Except String RegressionReport
  joined : List Nat

def runtimeFailure (message : String) : Failure := ("runtime", message)

def sequentialReports (world : CandidateWorld) (streams : Option (List FlowStreamEvents))
    (flows : List Flow) : Except Failure (List (Option RegressionReport)) :=
  flows.mapM fun flow =>
    (world.compareCandidateFlow .sequential streams flow).mapError runtimeFailure >>= fun report =>
      pure (some report)

/-- One task that has ended. -/
def joinTask (world : CandidateWorld) (streams : Option (List FlowStreamEvents))
    (flows : List Flow) (reports : List (Option RegressionReport)) (index : Nat) :
    Except Failure (List (Option RegressionReport)) :=
  match flows[index]? with
  | none => .ok reports
  | some flow =>
      (world.compareCandidateFlow .timeline streams flow).mapError runtimeFailure >>= fun report =>
        pure (reports.set index (some report))

def timelineReports (codec : Codec) (world : CandidateWorld) (maxConcurrency : Nat)
    (session : Session) (streams : Option (List FlowStreamEvents)) (flows : List Flow) :
    Except Failure (List (Option RegressionReport)) := do
  ensure (maxConcurrency ≠ 0 ∧ maxConcurrency ≤ 1024)
    ("configuration", "--max-concurrency must be within 1..=1024")
  let events ← readStreams codec session
    ("configuration", "timeline scheduler requires a stream-events extension") ""
  let offsets ← flows.mapM fun flow =>
    orFail ((streamOf events flow.id).map FlowStreamEvents.startOffsetNs)
      ("fixture", "timeline offset is missing for flow " ++ flow.id)
  ensure (∀ offset ∈ offsets, offset ≤ maxStreamTotalDelayNs)
    ("configuration", "timeline start offset exceeds configured limit")
  checkFold (joinTask world streams flows) (List.replicate flows.length none) world.joined

def scheduledReports (codec : Codec) (world : CandidateWorld) (scheduler : SchedulerOptions)
    (session : Session) (streams : Option (List FlowStreamEvents)) (flows : List Flow) :
    Except Failure (List (Option RegressionReport)) :=
  match scheduler.choice with
  | .sequential => sequentialReports world streams flows
  | .timeline => timelineReports codec world scheduler.maxConcurrency session streams flows

/-- The flows and their reports, once nothing has ended the command before. -/
def regressionReports (codec : Codec) (world : CandidateWorld) (scheduler : SchedulerOptions)
    (policy : ComparisonPolicy) (session : Session) :
    Except Failure (List Flow × List RegressionReport) := do
  let flows ← collectFlows codec session
  let streams ← requestedStreams codec policy session "baseline" ""
  let reports ← scheduledReports codec world scheduler session streams flows
  let reports ← orFail (reports.mapM id) (runtimeFailure "scheduler omitted a flow result")
  pure (flows, reports)

/-- What is printed where a command fails before it has read the flows. -/
def failedEarly (command : String) (failure : Failure) : CommandRun where
  document := some (junitForReports command [] [])
  result := .error failure

/-- The end of a command that has compared all flows: `replay` only reports differences. -/
def concluded (command : String) (enforce : Bool) (flows : List Flow)
    (reports : List RegressionReport) : CommandRun where
  document := some (junitForReports command (flows.map FlowRecord.Flow.id) reports)
  result :=
    if enforce = true ∧ reports.flatMap RegressionReport.findings ≠ [] then
      .error ("regression", "candidate differs from baseline")
    else .ok ()

/-- The client, once the session and the target are there. -/
def prepared (codec : Codec) (world : CandidateWorld) (baseline : Directory) :
    Except Failure Session := do
  let session ← (Session.open codec baseline StoreLimits.default).mapError fixtureFailure
  let _ ← world.target.mapError fun error => ("configuration", error)
  world.client
  pure session

def regression (codec : Codec) (world : CandidateWorld) (command : String) (enforce : Bool)
    (scheduler : SchedulerOptions) (policy : ComparisonPolicy) (baseline : Directory) :
    CommandRun :=
  match prepared codec world baseline with
  | .error failure => failedEarly command failure
  | .ok session =>
      match regressionReports codec world scheduler policy session with
      | .error failure => { document := none, result := .error failure }
      | .ok (flows, reports) => concluded command enforce flows reports

def test (codec : Codec) (world : CandidateWorld) (scheduler : SchedulerOptions)
    (policy : ComparisonPolicy) (baseline : Directory) : CommandRun :=
  regression codec world "test" true scheduler policy baseline

/-! ### The findings of a pair -/

theorem all_intercalate (parts : List Word) :
    ("; ".toList.intercalate parts).all isChar = parts.all fun part => part.all isChar := by
  have hseparator : "; ".toList.all isChar = true := by decide
  induction parts with
  | nil => rfl
  | cons part rest ih =>
      cases rest with
      | nil => simp
      | cons next more =>
          rw [List.intercalate_cons_cons, List.all_append, List.all_append, ih, hseparator,
            Bool.and_true]
          rfl

/-- What a report says is printable as far as each of its findings is. -/
theorem printable_details {report : RegressionReport} :
    Printable (plainDetails report) ↔
      ∀ finding ∈ report.findings, Printable (plainFinding finding) := by
  rw [Printable, plainDetails, all_intercalate, List.all_map, List.all_eq_true]
  rfl

theorem mem_extend {report : RegressionReport} {more : List DiffFinding} {finding : DiffFinding} :
    finding ∈ (RegressionReport.extend report more).findings ↔
      finding ∈ report.findings ∨ finding ∈ more := by
  rw [RegressionReport.extend, (List.mergeSort_perm _ _).mem_iff, List.mem_append]

section

variable {N : Type} {codec : Codec} {json : BodyCodec N} {quoted : String → String}
  {policy : ComparisonPolicy} {timing : Option TimingAssertion} {baseline candidate : Loaded}

/-- What two flows of the fixtures differ in: as flows, in their timelines where these are
compared, and in their conversations where one of them switches protocols. -/
inductive Difference (codec : Codec) (json : BodyCodec N) (quoted : String → String)
    (policy : ComparisonPolicy) (timing : Option TimingAssertion) (baseline candidate : Loaded)
    (pair : Flow × Flow) (finding : DiffFinding) : Prop
  | flow (h : finding ∈
      (flowReport codec policy timing baseline candidate pair.1 pair.2).findings)
  | stream (more : List DiffFinding) (henabled : policy.isStreamEnabled = true)
      (hmore : streamFindings policy baseline candidate pair.1 pair.2 = .ok more)
      (h : finding ∈ more)
  | websocket (more : List DiffFinding)
      (hswitches : switches pair.1.outcome = true ∨ switches pair.2.outcome = true)
      (hmore : websocketFindings codec json quoted policy baseline candidate pair.1 pair.2 =
        .ok more)
      (h : finding ∈ more)

theorem mem_compareStreams {left right : Flow} {report next : RegressionReport}
    (h : compareStreams policy baseline candidate left right report = .ok next)
    (finding : DiffFinding) :
    finding ∈ next.findings ↔ finding ∈ report.findings ∨
      policy.isStreamEnabled = true ∧ ∃ more,
        streamFindings policy baseline candidate left right = .ok more ∧ finding ∈ more := by
  unfold compareStreams at h
  split at h
  · rename_i henabled
    rw [bind_eq_ok] at h
    obtain ⟨more, hmore, h⟩ := h
    rw [pure_eq_ok] at h
    rw [← h, mem_extend, hmore]
    simp [henabled]
  · rename_i hdisabled
    rw [pure_eq_ok] at h
    rw [← h]
    simp [hdisabled]

theorem mem_compareWebsockets {left right : Flow} {report next : RegressionReport}
    (h : compareWebsockets codec json quoted policy baseline candidate left right report = .ok next)
    (finding : DiffFinding) :
    finding ∈ next.findings ↔ finding ∈ report.findings ∨
      (switches left.outcome = true ∨ switches right.outcome = true) ∧ ∃ more,
        websocketFindings codec json quoted policy baseline candidate left right = .ok more ∧
          finding ∈ more := by
  unfold compareWebsockets at h
  split at h
  · rename_i hswitches
    rw [bind_eq_ok] at h
    obtain ⟨more, hmore, h⟩ := h
    rw [pure_eq_ok] at h
    rw [← h, mem_extend, hmore]
    simp [hswitches]
  · rename_i hstays
    rw [pure_eq_ok] at h
    rw [← h]
    simp [hstays]

theorem mem_comparePair {pair : Flow × Flow} {report : RegressionReport}
    (h : comparePair codec json quoted policy timing baseline candidate pair = .ok report)
    {finding : DiffFinding} :
    finding ∈ report.findings ↔
      Difference codec json quoted policy timing baseline candidate pair finding := by
  rw [comparePair, bind_eq_ok] at h
  obtain ⟨first, hfirst, hsecond⟩ := h
  have hstreams := mem_compareStreams hfirst finding
  have hboth := mem_compareWebsockets hsecond finding
  rw [hboth, hstreams]
  constructor
  · rintro ((hflow | ⟨henabled, more, hmore, hmem⟩) | ⟨hswitches, more, hmore, hmem⟩)
    · exact .flow hflow
    · exact .stream more henabled hmore hmem
    · exact .websocket more hswitches hmore hmem
  · rintro (hflow | ⟨more, henabled, hmore, hmem⟩ | ⟨more, hswitches, hmore, hmem⟩)
    · exact .inl (.inl hflow)
    · exact .inl (.inr ⟨henabled, more, hmore, hmem⟩)
    · exact .inr ⟨hswitches, more, hmore, hmem⟩

theorem not_isSuccess_iff {report : RegressionReport} :
    report.isSuccess = false ↔ ∃ finding, finding ∈ report.findings := by
  rw [RegressionReport.isSuccess, List.isEmpty_eq_false_iff]
  constructor
  · exact List.exists_mem_of_ne_nil report.findings
  · rintro ⟨finding, hfinding⟩
    exact List.ne_nil_of_mem hfinding

/-- A report that says nothing needs no text. -/
theorem printableTexts_iff {flowIds : List String} {reports : List RegressionReport} :
    PrintableTexts flowIds reports ↔
      (∀ id ∈ flowIds, Printable id.toList) ∧
        ∀ report ∈ reports, ∀ finding ∈ report.findings, Printable (plainFinding finding) := by
  constructor
  · rintro ⟨hids, hdetails⟩
    refine ⟨hids, fun report hreport finding hfinding => ?_⟩
    have hfailing := not_isSuccess_iff.mpr ⟨finding, hfinding⟩
    exact printable_details.mp (hdetails report hreport hfailing) finding hfinding
  · rintro ⟨hids, hfindings⟩
    exact ⟨hids, fun report hreport _ => printable_details.mpr (hfindings report hreport)⟩

/-! ### The document of `diff` -/

/-- The document of `diff` says what it should: its texts consist of characters of XML, and where
the fixtures have different numbers of flows, two compared flows differ as well. -/
structure DiffProjects (codec : Codec) (json : BodyCodec N) (quoted : String → String)
    (policy : ComparisonPolicy) (timing : Option TimingAssertion) (baseline candidate : Loaded) :
    Prop where
  ids : ∀ flow ∈ baseline.flows, Printable flow.id.toList
  texts : ∀ pair ∈ baseline.flows.zip candidate.flows, ∀ finding,
    Difference codec json quoted policy timing baseline candidate pair finding →
      Printable (plainFinding finding)
  verdict : baseline.flows.length = candidate.flows.length ∨
    ∃ pair ∈ baseline.flows.zip candidate.flows, ∃ finding,
      Difference codec json quoted policy timing baseline candidate pair finding

theorem diff_document {codec : Codec} {baseline candidate : Directory} {document : String}
    (h : (diff codec json quoted policy timing baseline candidate).document = some document) :
    ∃ left right reports, loadBoth codec policy baseline candidate = .ok (left, right) ∧
      List.Forall₂ (fun pair report =>
        comparePair codec json quoted policy timing left right pair = .ok report)
        (left.flows.zip right.flows) reports ∧
      document = junitForReports "diff" (left.flows.map FlowRecord.Flow.id) reports ∧
      ((diff codec json quoted policy timing baseline candidate).Failed ↔
        ¬(left.flows.length = right.flows.length ∧
          ∀ report ∈ reports, report.isSuccess = true)) := by
  cases hload : loadBoth codec policy baseline candidate with
  | error failure =>
      simp only [diff, hload, error_bind] at h
      cases h
  | ok loaded =>
      obtain ⟨left, right⟩ := loaded
      cases hreports : (left.flows.zip right.flows).mapM
        (comparePair codec json quoted policy timing left right) with
      | error failure =>
          simp only [diff, hload, ok_bind, hreports, error_bind] at h
          cases h
      | ok reports =>
          have hrun : diff codec json quoted policy timing baseline candidate =
              { document :=
                  some (junitForReports "diff" (left.flows.map FlowRecord.Flow.id) reports)
                result := if (left.flows.length == right.flows.length &&
                    reports.all RegressionReport.isSuccess) = true then .ok ()
                  else .error ("diff", "fixtures differ") } := by
            simp only [diff, hload, ok_bind, hreports]
            rfl
          rw [hrun] at h ⊢
          refine ⟨left, right, reports, rfl, mapM_eq_ok.mp hreports, (Option.some.inj h).symm, ?_⟩
          rw [CommandRun.Failed]
          split_ifs with hsuccess
          · rw [Bool.and_eq_true, beq_iff_eq, List.all_eq_true] at hsuccess
            refine iff_of_false ?_ (not_not_intro hsuccess)
            rintro ⟨failure, hfailure⟩
            cases hfailure
          · rw [Bool.and_eq_true, beq_iff_eq, List.all_eq_true] at hsuccess
            exact iff_of_true ⟨_, rfl⟩ hsuccess

/-- The command fails where a report does, or where the fixtures have different numbers of
flows. -/
theorem diff_projects_iff {codec : Codec} {baseline candidate : Directory} {document : String}
    (h : (diff codec json quoted policy timing baseline candidate).document = some document) :
    ∃ left right, loadBoth codec policy baseline candidate = .ok (left, right) ∧
      (Projects document (diff codec json quoted policy timing baseline candidate).Failed ↔
        DiffProjects codec json quoted policy timing left right) := by
  obtain ⟨left, right, reports, hload, hreports, rfl, hfailed⟩ := diff_document h
  refine ⟨left, right, hload, ?_⟩
  have hlength : reports.length ≤ (left.flows.map FlowRecord.Flow.id).length := by
    rw [← hreports.length_eq, List.length_map, List.length_zip]
    exact Nat.min_le_left _ _
  have hfailing : (∃ report ∈ reports, report.isSuccess = false) ↔
      ∃ pair ∈ left.flows.zip right.flows, ∃ finding,
        Difference codec json quoted policy timing left right pair finding := by
    constructor
    · rintro ⟨report, hreport, hunsuccessful⟩
      obtain ⟨pair, hpair, hcompared⟩ := exists_of_mem_right hreports hreport
      obtain ⟨finding, hfinding⟩ := not_isSuccess_iff.mp hunsuccessful
      exact ⟨pair, hpair, finding, (mem_comparePair hcompared).mp hfinding⟩
    · rintro ⟨pair, hpair, finding, hdifference⟩
      obtain ⟨report, hreport, hcompared⟩ := exists_of_mem_left hreports hpair
      exact ⟨report, hreport, not_isSuccess_iff.mpr
        ⟨finding, (mem_comparePair hcompared).mpr hdifference⟩⟩
  have hcommand : Printable "diff".toList := by
    rw [Printable]
    decide
  have hverdict : ((∃ report ∈ reports, report.isSuccess = false) ↔
        ¬(left.flows.length = right.flows.length ∧ ∀ report ∈ reports, report.isSuccess = true)) ↔
      left.flows.length = right.flows.length ∨ ∃ report ∈ reports, report.isSuccess = false := by
    have hall : (∃ report ∈ reports, report.isSuccess = false) ↔
        ¬∀ report ∈ reports, report.isSuccess = true := by
      simp
    rw [hall]
    tauto
  rw [projects_iff hcommand hlength, hfailed, hverdict, hfailing, printableTexts_iff,
    List.forall_mem_map]
  constructor
  · rintro ⟨⟨hids, htexts⟩, hcounts⟩
    refine ⟨hids, fun pair hpair finding hdifference => ?_, hcounts⟩
    obtain ⟨report, hreport, hcompared⟩ := exists_of_mem_left hreports hpair
    exact htexts report hreport finding ((mem_comparePair hcompared).mpr hdifference)
  · rintro ⟨hids, htexts, hcounts⟩
    refine ⟨⟨hids, fun report hreport finding hfinding => ?_⟩, hcounts⟩
    obtain ⟨pair, hpair, hcompared⟩ := exists_of_mem_right hreports hreport
    exact htexts pair hpair finding ((mem_comparePair hcompared).mp hfinding)

end

/-! ### The document of `test` -/

def SchedulerChoice.report : SchedulerChoice → ReportScheduler
  | .sequential => .sequential
  | .timeline => .timeline

example : (fixtureFailure (.integrity "a")).2 = "blob integrity failure for a" := by
  decide

/-- The reports so far are those of their flows. -/
def Observed (observe : Flow → Except String RegressionReport) (flows : List Flow)
    (reports : List (Option RegressionReport)) : Prop :=
  List.Forall₂ (fun flow report => ∀ made ∈ report, observe flow = .ok made) flows reports

theorem observed_none (observe : Flow → Except String RegressionReport) (flows : List Flow) :
    Observed observe flows (List.replicate flows.length none) := by
  induction flows with
  | nil => exact .nil
  | cons flow rest ih => exact .cons (by simp) ih

theorem Observed.set {observe : Flow → Except String RegressionReport} {flows : List Flow}
    {reports : List (Option RegressionReport)} (h : Observed observe flows reports) {index : Nat}
    {flow : Flow} (hflow : flows[index]? = some flow) {made : RegressionReport}
    (hmade : observe flow = .ok made) : Observed observe flows (reports.set index (some made)) := by
  induction h generalizing index with
  | nil => cases hflow
  | cons hfirst hrest ih =>
      cases index with
      | zero =>
          rw [List.getElem?_cons_zero, Option.some.injEq] at hflow
          subst hflow
          exact .cons (by simpa using hmade) hrest
      | succ index => exact .cons hfirst (ih hflow)

theorem mapError_runtime {observed : Except String RegressionReport} {made : RegressionReport} :
    observed.mapError runtimeFailure = .ok made ↔ observed = .ok made := mapError_eq_ok

/-- A task that ends adds the report of its flow. -/
theorem observed_joinTask {world : CandidateWorld} {streams : Option (List FlowStreamEvents)}
    {flows : List Flow} {reports next : List (Option RegressionReport)} {index : Nat}
    (h : Observed (world.compareCandidateFlow .timeline streams) flows reports)
    (hjoin : joinTask world streams flows reports index = .ok next) :
    Observed (world.compareCandidateFlow .timeline streams) flows next := by
  unfold joinTask at hjoin
  cases hflow : flows[index]? with
  | none =>
      rw [hflow] at hjoin
      rwa [← Except.ok.inj hjoin]
  | some flow =>
      simp only [hflow, bind_eq_ok, mapError_eq_ok, pure_eq_ok] at hjoin
      obtain ⟨made, hmade, rfl⟩ := hjoin
      exact h.set hflow hmade

theorem observed_sequential {world : CandidateWorld} {streams : Option (List FlowStreamEvents)}
    {flows : List Flow} {reports : List (Option RegressionReport)}
    (h : sequentialReports world streams flows = .ok reports) :
    Observed (world.compareCandidateFlow .sequential streams) flows reports := by
  refine (mapM_eq_ok.mp h).imp ?_
  intro flow report hreport
  simp only [bind_eq_ok, mapError_eq_ok, pure_eq_ok] at hreport
  obtain ⟨made, hmade, rfl⟩ := hreport
  rintro _ ⟨⟩
  exact hmade

theorem observed_timeline {codec : Codec} {world : CandidateWorld} {maxConcurrency : Nat}
    {session : Session} {streams : Option (List FlowStreamEvents)} {flows : List Flow}
    {reports : List (Option RegressionReport)}
    (h : timelineReports codec world maxConcurrency session streams flows = .ok reports) :
    Observed (world.compareCandidateFlow .timeline streams) flows reports := by
  simp only [timelineReports, bind_eq_ok] at h
  obtain ⟨_, -, _, -, _, -, _, -, hjoined⟩ := h
  exact checkFold_invariant (Observed (world.compareCandidateFlow .timeline streams) flows)
    (fun _ _ _ h hjoin => observed_joinTask h hjoin) (observed_none _ flows) hjoined

/-- Every flow has its report once the reports are complete. -/
theorem Observed.complete {observe : Flow → Except String RegressionReport} {flows : List Flow}
    {reports : List (Option RegressionReport)} (h : Observed observe flows reports)
    {made : List RegressionReport} (hmade : reports.mapM id = some made) :
    List.Forall₂ (fun flow report => observe flow = .ok report) flows made := by
  induction h generalizing made with
  | nil =>
      cases hmade
      exact .nil
  | cons hfirst _ ih =>
      simp only [List.mapM_cons, id_eq, Option.bind_eq_bind, Option.bind_eq_some_iff,
        Option.pure_def, Option.some.injEq] at hmade
      obtain ⟨report, hreport, rest, hrest, rfl⟩ := hmade
      exact .cons (hfirst report hreport) (ih hrest)

/-- What `test` reads of its fixture before it compares. -/
def testFlows (codec : Codec) (policy : ComparisonPolicy) (session : Session) :
    Except Failure (List Flow × Option (List FlowStreamEvents)) := do
  let flows ← collectFlows codec session
  let streams ← requestedStreams codec policy session "baseline" ""
  pure (flows, streams)

theorem regressionReports_eq_ok {codec : Codec} {world : CandidateWorld}
    {scheduler : SchedulerOptions} {policy : ComparisonPolicy} {session : Session}
    {flows : List Flow} {reports : List RegressionReport}
    (h : regressionReports codec world scheduler policy session = .ok (flows, reports)) :
    ∃ streams, testFlows codec policy session = .ok (flows, streams) ∧
      List.Forall₂ (fun flow report =>
        world.compareCandidateFlow scheduler.choice.report streams flow = .ok report)
        flows reports := by
  simp only [regressionReports, bind_eq_ok, orFail_eq_ok, pure_eq_ok, Prod.mk.injEq] at h
  obtain ⟨flows, hflows, streams, hstreams, partials, hpartials, made, hmade, rfl, rfl⟩ := h
  refine ⟨streams, ?_, ?_⟩
  · simp only [testFlows, hflows, hstreams, ok_bind]
    rfl
  · unfold scheduledReports at hpartials
    cases hchoice : scheduler.choice with
    | sequential =>
        rw [hchoice] at hpartials
        exact (observed_sequential hpartials).complete hmade
    | timeline =>
        rw [hchoice] at hpartials
        exact (observed_timeline hpartials).complete hmade

/-- The document of `test` says what it should: the command has got as far as comparing, and the
texts consist of characters of XML. -/
def TestProjects (codec : Codec) (world : CandidateWorld) (scheduler : SchedulerOptions)
    (policy : ComparisonPolicy) (baseline : Directory) : Prop :=
  ∃ session flows streams, prepared codec world baseline = .ok session ∧
    testFlows codec policy session = .ok (flows, streams) ∧
    (∀ flow ∈ flows, Printable flow.id.toList) ∧
    ∀ flow ∈ flows, ∀ report,
      world.compareCandidateFlow scheduler.choice.report streams flow = .ok report →
        ∀ finding ∈ report.findings, Printable (plainFinding finding)

theorem printable_test : Printable "test".toList := by
  rw [Printable]
  decide

theorem concluded_failed {command : String} {flows : List Flow}
    {reports : List RegressionReport} :
    (concluded command true flows reports).Failed ↔
      ∃ report ∈ reports, report.isSuccess = false := by
  have hfindings : reports.flatMap RegressionReport.findings ≠ [] ↔
      ∃ report ∈ reports, report.isSuccess = false := by
    rw [ne_eq, List.flatMap_eq_nil_iff]
    simp [RegressionReport.isSuccess]
  rw [← hfindings, CommandRun.Failed, concluded]
  dsimp only
  split_ifs with hdiffer
  · exact iff_of_true ⟨_, rfl⟩ hdiffer.2
  · refine iff_of_false ?_ fun hne => hdiffer ⟨rfl, hne⟩
    rintro ⟨failure, hfailure⟩
    cases hfailure

theorem test_projects_iff {codec : Codec} {world : CandidateWorld} {scheduler : SchedulerOptions}
    {policy : ComparisonPolicy} {baseline : Directory} {document : String}
    (h : (test codec world scheduler policy baseline).document = some document) :
    Projects document (test codec world scheduler policy baseline).Failed ↔
      TestProjects codec world scheduler policy baseline := by
  cases hprepared : prepared codec world baseline with
  | error failure =>
      have hrun : test codec world scheduler policy baseline = failedEarly "test" failure := by
        simp only [test, regression, hprepared]
      rw [hrun] at h ⊢
      obtain rfl := Option.some.inj h
      rw [projects_iff printable_test (Nat.le_refl _)]
      constructor
      · rintro ⟨-, hfailing⟩
        obtain ⟨report, hreport, -⟩ := hfailing.mpr ⟨failure, rfl⟩
        exact absurd hreport List.not_mem_nil
      · rintro ⟨session, flows, streams, habsurd, -⟩
        rw [hprepared] at habsurd
        cases habsurd
  | ok session =>
      cases hreports : regressionReports codec world scheduler policy session with
      | error failure =>
          simp only [test, regression, hprepared, hreports] at h
          cases h
      | ok compared =>
          obtain ⟨flows, reports⟩ := compared
          obtain ⟨streams, hflows, hmade⟩ := regressionReports_eq_ok hreports
          have hrun : test codec world scheduler policy baseline =
              concluded "test" true flows reports := by
            simp only [test, regression, hprepared, hreports]
          rw [hrun] at h ⊢
          obtain rfl := Option.some.inj h
          have hlength : reports.length ≤ (flows.map FlowRecord.Flow.id).length := by
            rw [← hmade.length_eq, List.length_map]
          rw [projects_iff printable_test hlength, iff_true_intro concluded_failed.symm, and_true,
            printableTexts_iff, List.forall_mem_map]
          constructor
          · rintro ⟨hids, htexts⟩
            refine ⟨session, flows, streams, hprepared, hflows, hids, ?_⟩
            intro flow hflow report hobserved finding hfinding
            obtain ⟨made, hmem, hsame⟩ := exists_of_mem_left hmade hflow
            rw [hobserved, Except.ok.injEq] at hsame
            subst hsame
            exact htexts report hmem finding hfinding
          · rintro ⟨other, others, otherStreams, hother, hothers, hids, htexts⟩
            rw [hprepared, Except.ok.injEq] at hother
            subst hother
            rw [hflows, Except.ok.injEq, Prod.mk.injEq] at hothers
            obtain ⟨rfl, rfl⟩ := hothers
            refine ⟨hids, fun report hreport finding hfinding => ?_⟩
            obtain ⟨flow, hflow, hobserved⟩ := exists_of_mem_right hmade hreport
            exact htexts flow hflow report hobserved finding hfinding

/-! ### Both commands -/

/-- The documents of both commands are right exactly where these conditions are met. -/
theorem reports_project_iff {N : Type} (codec : Codec) (json : BodyCodec N)
    (quoted : String → String) (policy : ComparisonPolicy) (timing : Option TimingAssertion)
    (world : CandidateWorld) (scheduler : SchedulerOptions) (baseline candidate : Directory) :
    (∀ document, (diff codec json quoted policy timing baseline candidate).document =
        some document →
      ∃ left right, loadBoth codec policy baseline candidate = .ok (left, right) ∧
        (Projects document (diff codec json quoted policy timing baseline candidate).Failed ↔
          DiffProjects codec json quoted policy timing left right)) ∧
      ∀ document, (test codec world scheduler policy baseline).document = some document →
        (Projects document (test codec world scheduler policy baseline).Failed ↔
          TestProjects codec world scheduler policy baseline) := by
  constructor
  · intro document hdocument
    exact diff_projects_iff hdocument
  · intro document hdocument
    exact test_projects_iff hdocument

def plainQuoted (text : String) : String := "\"" ++ text ++ "\""

/-- The codec of the plain fixtures, with the digest of an empty body. -/
def emptyCodec : Codec := { notedCodec with sha256Hex := ReportVerdicts.sampleSha256 }

def plainDiff (baseline candidate : Directory) : CommandRun :=
  diff emptyCodec BodyWildcards.sampleCodec plainQuoted ComparisonPolicy.default none baseline
    candidate

/-- A candidate that answers every flow as its baseline. -/
def sameCandidate : CandidateWorld where
  target := .ok "http://example.test/"
  client := .ok ()
  compareCandidateFlow := fun scheduler _ flow =>
    .ok (compareFlowsWithTimingAndPolicy emptyCodec.sha256Hex flow flow [] [] scheduler none
      ComparisonPolicy.default)
  joined := [0]

def plainTest : CommandRun :=
  test emptyCodec sameCandidate ⟨.sequential, 1⟩ ComparisonPolicy.default plainRoot

def plainLoaded : Loaded where
  session := plainBase
  flows := [sampleFlow]
  websockets := []
  streams := none

theorem plainRoot_loads :
    loadBoth emptyCodec ComparisonPolicy.default plainRoot plainRoot =
      .ok (plainLoaded, plainLoaded) := by
  have hopen : Session.open emptyCodec plainRoot StoreLimits.default = .ok plainBase :=
    open_of_opensAs (by decide +kernel)
  have hflows : collectFlows emptyCodec plainBase = .ok [sampleFlow] := by decide +kernel
  simp only [loadBoth, hopen, hflows, Except.mapError, ok_bind]
  rfl

theorem sampleFlow_agrees {finding : DiffFinding} :
    ¬Difference emptyCodec BodyWildcards.sampleCodec plainQuoted ComparisonPolicy.default none
      plainLoaded plainLoaded (sampleFlow, sampleFlow) finding := by
  have hreport : (flowReport emptyCodec ComparisonPolicy.default none plainLoaded plainLoaded
      sampleFlow sampleFlow).findings = [] := by
    decide +kernel
  rintro (h | ⟨more, henabled, -⟩ | ⟨more, hswitches, -⟩)
  · rw [hreport] at h
    exact List.not_mem_nil h
  · cases henabled
  · rcases hswitches with hswitches | hswitches
    · cases hswitches
    · cases hswitches

theorem same_fixture_projected :
    ∃ diffed tested, (plainDiff plainRoot plainRoot).document = some diffed ∧
      Projects diffed (plainDiff plainRoot plainRoot).Failed ∧
      plainTest.document = some tested ∧ Projects tested plainTest.Failed := by
  obtain ⟨hdiff, htest⟩ := reports_project_iff emptyCodec BodyWildcards.sampleCodec plainQuoted
    ComparisonPolicy.default none sameCandidate ⟨.sequential, 1⟩ plainRoot plainRoot
  obtain ⟨diffed, hdiffed⟩ : ∃ diffed, (plainDiff plainRoot plainRoot).document = some diffed :=
    Option.isSome_iff_exists.mp (by decide +kernel)
  obtain ⟨tested, htested⟩ : ∃ tested, plainTest.document = some tested :=
    Option.isSome_iff_exists.mp (by decide +kernel)
  have hid : Printable sampleFlow.id.toList := by
    rw [Printable]
    decide
  refine ⟨diffed, tested, hdiffed, ?_, htested, ?_⟩
  · obtain ⟨left, right, hload, hprojects⟩ := hdiff diffed hdiffed
    rw [plainRoot_loads, Except.ok.injEq, Prod.mk.injEq] at hload
    obtain ⟨rfl, rfl⟩ := hload
    refine hprojects.mpr ⟨List.forall_mem_singleton.mpr hid, ?_, .inl rfl⟩
    intro pair hpair finding hdifference
    obtain rfl := List.mem_singleton.mp hpair
    exact absurd hdifference sampleFlow_agrees
  · refine (htest tested htested).mpr ⟨plainBase, [sampleFlow], none, ?_, ?_,
      List.forall_mem_singleton.mpr hid, ?_⟩
    · have hopen : Session.open emptyCodec plainRoot StoreLimits.default = .ok plainBase :=
        open_of_opensAs (by decide +kernel)
      simp only [prepared, hopen, Except.mapError, ok_bind]
      rfl
    · have hflows : collectFlows emptyCodec plainBase = .ok [sampleFlow] := by decide +kernel
      simp only [testFlows, hflows, ok_bind]
      rfl
    · intro flow hflow report hreport finding hfinding
      obtain rfl := List.mem_singleton.mp hflow
      have hnone : (compareFlowsWithTimingAndPolicy emptyCodec.sha256Hex sampleFlow sampleFlow []
          [] .sequential none ComparisonPolicy.default).findings = [] := by
        decide +kernel
      have hempty : report.findings = [] :=
        (congrArg RegressionReport.findings (Except.ok.inj hreport)).symm.trans hnone
      rw [hempty] at hfinding
      exact absurd hfinding List.not_mem_nil

/-- One flow against none: nothing is compared, so that no failure is reported. -/
theorem unequal_counts_not_projected :
    ∃ document, (plainDiff plainRoot notedRoot).document = some document ∧
      ¬Projects document (plainDiff plainRoot notedRoot).Failed := by
  have hdocument : (plainDiff plainRoot notedRoot).document =
      some (junitForReports "diff" [sampleFlow.id] []) := by
    decide +kernel
  refine ⟨_, hdocument, fun hprojects => ?_⟩
  have hfailed : (plainDiff plainRoot notedRoot).Failed := by
    refine ⟨("diff", "fixtures differ"), ?_⟩
    decide +kernel
  have hcommand : Printable "diff".toList := by
    rw [Printable]
    decide
  obtain ⟨-, hfailing⟩ := (projects_iff hcommand (Nat.zero_le _)).mp hprojects
  obtain ⟨report, hreport, -⟩ := hfailing.mpr hfailed
  exact absurd hreport List.not_mem_nil

end EggReplay.Cli.ReportedVerdicts
