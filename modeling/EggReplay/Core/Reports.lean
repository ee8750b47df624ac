import EggReplay.Core.FieldWildcards
import EggReplay.Core.ServerSentEvents

/-!
Regression reports: the comparison of a baseline flow with a candidate observation,
its findings and its suppressions, and the comparison of two response timelines.
-/

namespace EggReplay.Core.Reports

open EggReplay.Library.Checks
open EggReplay.Library.Text
open EggReplay.Core.FlowRecord
open EggReplay.Core.StreamTimeline
open EggReplay.Core.ServerSentEvents
open EggReplay.Core.Matching
open EggReplay.Core.FieldWildcards

def reportSchemaVersion : Nat := 3

inductive ReportScheduler where
  | sequential | recordedStartOrder | timeline
  deriving DecidableEq, Repr

inductive DiffKind where
  | status | header | trailer | body | outcome | timing | sse | streamEvent | webSocket
  deriving DecidableEq, Repr

/-- The variant names that `{:?}` prints. -/
def DiffKind.debug : DiffKind → String
  | .status => "Status"
  | .header => "Header"
  | .trailer => "Trailer"
  | .body => "Body"
  | .outcome => "Outcome"
  | .timing => "Timing"
  | .sse => "Sse"
  | .streamEvent => "StreamEvent"
  | .webSocket => "WebSocket"

structure DiffFinding where
  kind : DiffKind
  field : String
  baseline : String
  candidate : String
  deriving DecidableEq, Repr

inductive SuppressionReason where
  | volatileHeader
  deriving DecidableEq, Repr

structure SuppressedHeader where
  field : String
  reason : SuppressionReason
  deriving DecidableEq, Repr

structure TimingAssertion where
  maxElapsedMs : Nat
  deriving DecidableEq, Repr

def defaultVolatileHeaders : List String := ["date"]

structure ComparisonPolicy where
  compareStreamEvents : Bool
  cadenceToleranceNs : Option Nat
  compareSse : Bool
  sseIgnored : List String
  websocketCadenceToleranceNs : Option Nat
  volatileHeaders : List String
  deriving DecidableEq, Repr

def ComparisonPolicy.default : ComparisonPolicy where
  compareStreamEvents := false
  cadenceToleranceNs := none
  compareSse := false
  sseIgnored := []
  websocketCadenceToleranceNs := none
  volatileHeaders := defaultVolatileHeaders

def ComparisonPolicy.isStreamEnabled (policy : ComparisonPolicy) : Bool :=
  policy.compareStreamEvents || policy.cadenceToleranceNs.isSome

def ComparisonPolicy.isSseEnabled (policy : ComparisonPolicy) : Bool :=
  policy.compareSse || !policy.sseIgnored.isEmpty

def ComparisonPolicy.isVolatile (policy : ComparisonPolicy) (name : String) : Bool :=
  policy.volatileHeaders.any fun header => eqIgnoreAsciiCase header name

structure RegressionReport where
  schemaVersion : Nat
  scheduler : ReportScheduler
  baselineFlowIds : List String
  findings : List DiffFinding
  suppressed : List SuppressedHeader
  deriving DecidableEq, Repr

def RegressionReport.isSuccess (report : RegressionReport) : Bool :=
  report.findings.isEmpty

/-- The two vectors that a comparison fills. -/
structure Comparison where
  findings : List DiffFinding := []
  suppressed : List SuppressedHeader := []
  deriving DecidableEq, Repr

def Comparison.push (found : Comparison) (finding : DiffFinding) : Comparison :=
  { found with findings := found.findings ++ [finding] }

def Comparison.suppress (found : Comparison) (suppressed : SuppressedHeader) : Comparison :=
  { found with suppressed := found.suppressed ++ [suppressed] }

/-! ### Headers -/

def headerMap (headers : List HeaderEntry) : HeaderGroups :=
  headers.foldl
    (fun groups header => pushGrouped (toAsciiLowercase header.name) header.value groups) []

/-- The names of either side, each once and in order. -/
def headerNames (left right : HeaderGroups) : List String :=
  (left.map (·.1) ++ right.map (·.1)).dedup.insertionSort (· ≤ ·)

def presence (values : List String) : String :=
  if values.isEmpty then "<absent>" else "<present>"

def compareHeader (policy : ComparisonPolicy) (kind : DiffKind) (lead : String)
    (left right : HeaderGroups) (found : Comparison) (name : String) : Comparison :=
  let a := valuesAt name left
  let b := valuesAt name right
  if policy.isVolatile name && !a.isEmpty && !b.isEmpty then
    found.suppress { field := lead ++ "." ++ name, reason := .volatileHeader }
  else if a ≠ b then
    found.push
      { kind := kind, field := lead ++ "." ++ name,
        baseline := presence a, candidate := presence b }
  else found

def compareHeaders (policy : ComparisonPolicy) (kind : DiffKind) (lead : String)
    (baseline candidate : List HeaderEntry) (found : Comparison) : Comparison :=
  let left := headerMap baseline
  let right := headerMap candidate
  (headerNames left right).foldl (compareHeader policy kind lead left right) found

/-! ### Flows -/

def isSse (headers : List HeaderEntry) : Bool :=
  headers.any fun header =>
    eqIgnoreAsciiCase header.name "content-type" &&
      eqIgnoreAsciiCase (trim ((split header.value ';').headD "")) "text/event-stream"

def outcomeName : FlowOutcome → String
  | .response _ => "response"
  | .error _ => "error"

def bodySummary (sha256 : Bytes → String) (body : Bytes) : String :=
  "sha256:" ++ sha256 body ++ " length:" ++ Nat.repr body.length

def compareStatus (expected actual : HttpResponse) (found : Comparison) : Comparison :=
  if expected.status ≠ actual.status then
    found.push
      { kind := .status, field := "response.status",
        baseline := Nat.repr expected.status, candidate := Nat.repr actual.status }
  else found

def compareBodies (sha256 : Bytes → String) (baseline candidate : Bytes)
    (found : Comparison) : Comparison :=
  if sha256 baseline ≠ sha256 candidate ∨ baseline.length ≠ candidate.length then
    found.push
      { kind := .body, field := "response.body",
        baseline := bodySummary sha256 baseline, candidate := bodySummary sha256 candidate }
  else found

def sseFinding (policy : ComparisonPolicy) (baseline candidate : Bytes) :
    Option (String × String) :=
  let baselineSse := parseSse baseline true
  let candidateSse := parseSse candidate true
  match baselineSse.error, candidateSse.error with
  | some _, _ => some ("baseline SSE is malformed", "candidate SSE inspected")
  | none, some _ => some ("baseline SSE parsed", "candidate SSE is malformed")
  | none, none =>
      if compareSse baselineSse.events candidateSse.events policy.sseIgnored then none
      else some ("SSE event sequence", "SSE event sequence")

def compareSseBodies (policy : ComparisonPolicy) (expected actual : HttpResponse)
    (baseline candidate : Bytes) (found : Comparison) : Comparison :=
  if policy.isSseEnabled && isSse expected.headers && isSse actual.headers then
    match sseFinding policy baseline candidate with
    | some (left, right) =>
        found.push
          { kind := .sse, field := "response.sse", baseline := left, candidate := right }
    | none => found
  else found

def compareOutcomes (sha256 : Bytes → String) (policy : ComparisonPolicy)
    (baselineBody candidateBody : Bytes) : FlowOutcome → FlowOutcome → Comparison
  | .response expected, .response actual =>
      let found := compareStatus expected actual {}
      let found := compareHeaders policy .header "response.headers"
        expected.headers actual.headers found
      let found := compareHeaders policy .trailer "response.trailers"
        expected.trailers actual.trailers found
      let found := compareBodies sha256 baselineBody candidateBody found
      compareSseBodies policy expected actual baselineBody candidateBody found
  | .error expected, .error actual =>
      if expected.category ≠ actual.category ∨ expected.phase ≠ actual.phase then
        Comparison.push {}
          { kind := .outcome, field := "outcome.error",
            baseline := expected.category.debug ++ "/" ++ expected.phase.debug,
            candidate := actual.category.debug ++ "/" ++ actual.phase.debug }
      else {}
  | expected, actual =>
      Comparison.push {}
        { kind := .outcome, field := "outcome.kind",
          baseline := outcomeName expected, candidate := outcomeName actual }

def compareTiming (timing : Option TimingAssertion) (candidate : Flow)
    (found : Comparison) : Comparison :=
  match timing, candidate.completedAtMs with
  | some assertion, some finish =>
      let elapsed := finish - candidate.startedAtMs
      if assertion.maxElapsedMs < elapsed then
        found.push
          { kind := .timing, field := "timing.elapsed_ms",
            baseline := Nat.repr assertion.maxElapsedMs, candidate := Nat.repr elapsed }
      else found
  | _, _ => found

def DiffFinding.before (left right : DiffFinding) : Bool :=
  decide (left.kind.debug < right.kind.debug ∨
    left.kind.debug = right.kind.debug ∧ left.field ≤ right.field)

def compareFlowsWithTimingAndPolicy (sha256 : Bytes → String) (baseline candidate : Flow)
    (baselineBody candidateBody : Bytes) (scheduler : ReportScheduler)
    (timing : Option TimingAssertion) (policy : ComparisonPolicy) : RegressionReport :=
  let found := compareTiming timing candidate
    (compareOutcomes sha256 policy baselineBody candidateBody baseline.outcome
      candidate.outcome)
  { schemaVersion := reportSchemaVersion
    scheduler := scheduler
    baselineFlowIds := [baseline.id]
    findings := found.findings.mergeSort DiffFinding.before
    suppressed := found.suppressed.mergeSort fun left right =>
      decide (left.field ≤ right.field) }

def compareFlowsWithTiming (sha256 : Bytes → String) (baseline candidate : Flow)
    (baselineBody candidateBody : Bytes) (scheduler : ReportScheduler)
    (timing : Option TimingAssertion) : RegressionReport :=
  compareFlowsWithTimingAndPolicy sha256 baseline candidate baselineBody candidateBody
    scheduler timing ComparisonPolicy.default

def compareFlows (sha256 : Bytes → String) (baseline candidate : Flow)
    (baselineBody candidateBody : Bytes) (scheduler : ReportScheduler) : RegressionReport :=
  compareFlowsWithTiming sha256 baseline candidate baselineBody candidateBody scheduler none

/-! ### Response timelines -/

def sameStreamEvent : StreamEventKind → StreamEventKind → Bool
  | .data leftOffset leftLength, .data rightOffset rightLength =>
      leftOffset == rightOffset && leftLength == rightLength
  | .trailers left, .trailers right =>
      left.length == right.length &&
        (left.zip right).all fun pair => eqIgnoreAsciiCase pair.1.name pair.2.name
  | .finish, .finish => true
  | .error leftOffset leftCategory leftPhase, .error rightOffset rightCategory rightPhase =>
      leftOffset == rightOffset && leftCategory == rightCategory && leftPhase == rightPhase
  | _, _ => false

/-- The gaps of the paired events from `index` on, whose predecessors lay at the
given offsets. -/
def cadenceFindings (tolerance : Nat) :
    Nat → Nat → Nat → List StreamEvent → List StreamEvent → List DiffFinding
  | index, lastLeft, lastRight, a :: left, b :: right =>
      let baselineGap := a.deltaNs - lastLeft
      let candidateGap := b.deltaNs - lastRight
      let rest := cadenceFindings tolerance (index + 1) a.deltaNs b.deltaNs left right
      if tolerance < (baselineGap - candidateGap) + (candidateGap - baselineGap) then
        { kind := .timing
          field := "stream.response.cadence[" ++ Nat.repr index ++ "]"
          baseline := Nat.repr baselineGap
          candidate := Nat.repr candidateGap } :: rest
      else rest
  | _, _, _, _, _ => []

def compareStreamEvents (baseline candidate : FlowStreamEvents)
    (cadenceToleranceNs : Option Nat) : List DiffFinding :=
  let left := baseline.response
  let right := candidate.response
  let shape : List DiffFinding :=
    if left.length ≠ right.length ∨
        (left.zip right).any (fun pair => !sameStreamEvent pair.1.event pair.2.event) = true then
      [{ kind := .streamEvent, field := "stream.response.events",
         baseline := Nat.repr left.length ++ " ordered events",
         candidate := Nat.repr right.length ++ " ordered events" }]
    else []
  let cadence := match cadenceToleranceNs with
    | some tolerance => cadenceFindings tolerance 0 0 0 left right
    | none => []
  (shape ++ cadence).mergeSort fun left right => decide (left.field ≤ right.field)

end EggReplay.Core.Reports
