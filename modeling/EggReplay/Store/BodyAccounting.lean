import EggReplay.Store.OpenedSessions
import EggReplay.Store.SessionRuns

/-!
The body-byte accounting of `Session::open` in both kinds of build: one that checks its
arithmetic and panics on overflow, and one that wraps. `flow_body_bytes` adds the two lengths
of a flow before anything has been said about them.
-/

namespace EggReplay.Store.BodyAccounting

open EggReplay.Library.Checks
open EggReplay.Library.Text
open EggReplay.Library.LineLog
open EggReplay.Core.FlowRecord
open EggReplay.Core.StreamTimeline
open EggReplay.Store.Fixture
open EggReplay.Store.SessionOpen
open EggReplay.Store.OpenedSessions
open EggReplay.Store.SessionRuns

/-- How integer arithmetic is compiled. -/
inductive Build where
  | checked
  | unchecked
  deriving DecidableEq, Repr

/-- How `open` can end without a session. -/
inductive Stop where
  | panicked
  | failed (error : StoreError)
  deriving DecidableEq, Repr

/-- `+` on `u64`. -/
def addU64 (build : Build) (a b : Nat) : Except Stop Nat :=
  if a + b ≤ u64Max then pure (a + b)
  else match build with
    | .checked => .error .panicked
    | .unchecked => pure ((a + b) % 2 ^ 64)

def flowBodyBytesIn (build : Build) (flow : Flow) : Except Stop Nat :=
  addU64 build (flow.request.body.len.getD 0) flow.outcome.responseLength

def openFlowIn (build : Build) (codec : Codec) (root : Directory) (limits : StoreLimits)
    (totals : FlowTotals) (item : Except StoreError Flow) : Except Stop FlowTotals := do
  let flow ← item.mapError .failed
  ensure (totals.responseLengths.lookup flow.id = none)
    (.failed (.invalid "duplicate flow id"))
  let bytes ← flowBodyBytesIn build flow
  let total := totals.total + bytes
  ensure (total ≤ u64Max) (.failed (.invalid "total body length overflow"))
  ensure (total ≤ limits.maxTotalBytes)
    (.failed (.invalid "total body length exceeds configured limit"))
  (validateBodyFiles codec root flow limits).mapError .failed
  pure
    { responseLengths := (flow.id, flow.outcome.responseLength) :: totals.responseLengths,
      count := totals.count + 1, total }

/-- Everything `open` does before its loop: the session, and the items that the loop takes. -/
def Session.beforeLoop (codec : Codec) (root : Directory) (limits : StoreLimits) :
    Except StoreError (Session × List (Except StoreError Flow)) := do
  let bytes ← root.readFile manifestFile
  let manifest ← (codec.decodeManifest bytes).mapError .json
  ensure (supportedSchema manifest.metadata.schemaVersion)
    (.unsupportedSchema manifest.metadata.schemaVersion)
  ensure (manifest.complete = true) (.invalid "fixture manifest is incomplete")
  ensure ((manifest.extensions.any fun extension => extension.name == "websocket-messages") =
      true → manifest.metadata.schemaVersion = sessionSchemaVersion)
    (.invalid "WebSocket conversations require current session schema 2")
  let session : Session := { root, manifest, limits }
  validateExtensions codec root manifest.extensions
  let iter ← session.iterFlows
  pure (session, iter.items codec)

/-- Everything `open` does after its loop. -/
def Session.afterLoop (codec : Codec) (session : Session) (totals : FlowTotals) :
    Except StoreError Session := do
  ensure (totals.count = session.manifest.flowCount) (.invalid "manifest flow count mismatch")
  validateWebsocketFixture codec session.root session.manifest.extensions
    session.limits.maxLineBytes session.limits.maxBlobBytes
  checkTimelines codec session.root session.manifest.extensions totals.responseLengths
  ensure (countBlobs session.root = session.manifest.blobCount)
    (.invalid "manifest blob count mismatch")
  pure session

def Session.openIn (build : Build) (codec : Codec) (root : Directory) (limits : StoreLimits) :
    Except Stop Session := do
  let before ← (Session.beforeLoop codec root limits).mapError .failed
  let totals ← checkFold (openFlowIn build codec root limits) {} before.2
  (Session.afterLoop codec before.1 totals).mapError .failed

/-! ### What the accounting promises -/

/-- The two body lengths of a flow, added exactly. -/
def exactBodyBytes (flow : Flow) : Nat :=
  flow.request.body.len.getD 0 + flow.outcome.responseLength

/-- The loop takes the flow up and adds its lengths. -/
def Reaches (codec : Codec) (root : Directory) (limits : StoreLimits) (flow : Flow) : Prop :=
  ∃ session before after totals,
    Session.beforeLoop codec root limits = .ok (session, before ++ .ok flow :: after) ∧
      checkFold (openFlow codec root limits) {} before = .ok totals ∧
      totals.responseLengths.lookup flow.id = none

def panicked {α : Type} : Except Stop α → Bool
  | .error .panicked => true
  | _ => false

/-- No step of the accounting overflows, and an opened session is within its limit. -/
structure NeverOverflows (codec : Codec) (root : Directory) (limits : StoreLimits) : Prop where
  checked : panicked (Session.openIn .checked codec root limits) = false
  unchecked : ∀ flow, Reaches codec root limits flow →
    flowBodyBytesIn .unchecked flow = .ok (exactBodyBytes flow)
  bounded : ∀ build session, Session.openIn build codec root limits = .ok session →
    ∃ iter, ∃ flows : List Flow, session.iterFlows = .ok iter ∧ iter.items codec = flows.map .ok ∧
      (flows.map exactBodyBytes).sum ≤ limits.maxTotalBytes

/-! ### The loop -/

section

variable {codec : Codec} {root : Directory} {limits : StoreLimits} {build : Build} {flow : Flow}

theorem addU64_of_le {a b : Nat} (h : a + b ≤ u64Max) : addU64 build a b = .ok (a + b) := if_pos h

theorem flowBodyBytes_eq_exact (h : exactBodyBytes flow ≤ u64Max) :
    flowBodyBytes flow = exactBodyBytes flow :=
  Nat.mod_eq_of_lt (Nat.lt_succ_of_le h)

theorem flowBodyBytesIn_fits (h : exactBodyBytes flow ≤ u64Max) :
    flowBodyBytesIn build flow = .ok (flowBodyBytes flow) := by
  rw [flowBodyBytes_eq_exact h]
  exact addU64_of_le h

/-- The unchecked build computes what the wrapping sum is. -/
theorem flowBodyBytesIn_unchecked (flow : Flow) :
    flowBodyBytesIn .unchecked flow = .ok (flowBodyBytes flow) := by
  by_cases h : exactBodyBytes flow ≤ u64Max
  · exact flowBodyBytesIn_fits h
  · exact if_neg h

/-- The loop's step where the lengths of the flow can be added. -/
theorem openFlowIn_eq {totals : FlowTotals} {item : Except StoreError Flow}
    (h : ∀ flow, item = .ok flow → totals.responseLengths.lookup flow.id = none →
      flowBodyBytesIn build flow = .ok (flowBodyBytes flow)) :
    openFlowIn build codec root limits totals item =
      (openFlow codec root limits totals item).mapError .failed := by
  rcases item with error | flow
  · rfl
  · simp only [openFlowIn, openFlow, mapError_bind, mapError_ensure]
    show ensure _ _ >>= _ = ensure _ _ >>= _
    by_cases hnew : totals.responseLengths.lookup flow.id = none
    · rw [ensure_of_true hnew, ok_bind, ok_bind, h flow rfl hnew]
      rfl
    · rw [ensure_of_false hnew]
      rfl

theorem openFlowIn_overflow {totals : FlowTotals}
    (hnew : totals.responseLengths.lookup flow.id = none) (h : ¬exactBodyBytes flow ≤ u64Max) :
    openFlowIn .checked codec root limits totals (.ok flow) = .error .panicked := by
  have hadd : flowBodyBytesIn .checked flow = .error .panicked := if_neg h
  simp only [openFlowIn]
  show ensure _ _ >>= _ = _
  rw [ensure_of_true hnew, ok_bind, hadd]
  rfl

/-- The loop over these items takes the flow up, from the given totals on. -/
def ReachesFrom (codec : Codec) (root : Directory) (limits : StoreLimits) (totals : FlowTotals)
    (items : List (Except StoreError Flow)) (flow : Flow) : Prop :=
  ∃ before after next, items = before ++ .ok flow :: after ∧
    checkFold (openFlow codec root limits) totals before = .ok next ∧
    next.responseLengths.lookup flow.id = none

theorem reachesFrom_cons {totals : FlowTotals} {item : Except StoreError Flow}
    {rest : List (Except StoreError Flow)} :
    ReachesFrom codec root limits totals (item :: rest) flow ↔
      (item = .ok flow ∧ totals.responseLengths.lookup flow.id = none) ∨
        ∃ next, openFlow codec root limits totals item = .ok next ∧
          ReachesFrom codec root limits next rest flow := by
  constructor
  · rintro ⟨_ | ⟨first, before⟩, after, next, hitems, hfold, hnew⟩
    · obtain ⟨rfl, rfl⟩ := List.cons.inj hitems
      cases hfold
      exact .inl ⟨rfl, hnew⟩
    · obtain ⟨rfl, rfl⟩ := List.cons.inj hitems
      obtain ⟨middle, hmiddle, hrest⟩ := bind_eq_ok.mp hfold
      exact .inr ⟨middle, hmiddle, before, after, next, rfl, hrest, hnew⟩
  · rintro (⟨rfl, hnew⟩ | ⟨middle, hmiddle, before, after, next, rfl, hrest, hnew⟩)
    · exact ⟨[], rest, totals, rfl, rfl, hnew⟩
    · refine ⟨item :: before, after, next, rfl, ?_, hnew⟩
      rw [checkFold_cons, hmiddle]
      exact hrest

/-- Where the lengths of every flow that is reached can be added, both builds agree with the
wrapping loop. -/
theorem checkFold_openFlowIn {totals : FlowTotals} {items : List (Except StoreError Flow)}
    (h : ∀ flow, ReachesFrom codec root limits totals items flow →
      flowBodyBytesIn build flow = .ok (flowBodyBytes flow)) :
    checkFold (openFlowIn build codec root limits) totals items =
      (checkFold (openFlow codec root limits) totals items).mapError .failed := by
  induction items generalizing totals with
  | nil => rfl
  | cons item rest ih =>
      have hstep := @openFlowIn_eq codec root limits build totals item fun flow hitem hnew =>
        h flow (reachesFrom_cons.mpr (.inl ⟨hitem, hnew⟩))
      rw [checkFold_cons, checkFold_cons, hstep, mapError_bind]
      rcases hnext : openFlow codec root limits totals item with error | next
      · rfl
      · exact ih fun flow hflow => h flow (reachesFrom_cons.mpr (.inr ⟨next, hnext, hflow⟩))

/-- The checked build panics as soon as a flow is reached whose lengths cannot be added. -/
theorem checkFold_panics {totals : FlowTotals} {items : List (Except StoreError Flow)}
    (hreach : ReachesFrom codec root limits totals items flow)
    (h : ¬exactBodyBytes flow ≤ u64Max) :
    checkFold (openFlowIn .checked codec root limits) totals items = .error .panicked := by
  induction items generalizing totals with
  | nil =>
      obtain ⟨before, after, -, hitems, -⟩ := hreach
      exact absurd hitems.symm (List.append_ne_nil_of_right_ne_nil _ (List.cons_ne_nil _ _))
  | cons item rest ih =>
      rw [checkFold_cons]
      by_cases hfirst : ∃ first, item = .ok first ∧
          totals.responseLengths.lookup first.id = none ∧ ¬exactBodyBytes first ≤ u64Max
      · obtain ⟨first, rfl, hnew, hwide⟩ := hfirst
        rw [openFlowIn_overflow hnew hwide]
        rfl
      · have hstep := @openFlowIn_eq codec root limits .checked totals item
          fun first hitem hnew => flowBodyBytesIn_fits
            (not_not.mp fun hwide => hfirst ⟨first, hitem, hnew, hwide⟩)
        rcases reachesFrom_cons.mp hreach with ⟨rfl, hnew⟩ | ⟨next, hnext, hrest⟩
        · exact absurd ⟨flow, rfl, hnew, h⟩ hfirst
        · rw [hstep, hnext]
          exact ih hrest

/-! ### Opening -/

theorem open_eq : Session.open codec root limits =
    Session.beforeLoop codec root limits >>= fun before =>
      checkFold (openFlow codec root limits) {} before.2 >>= fun totals =>
        Session.afterLoop codec before.1 totals := by
  unfold Session.open Session.beforeLoop
  simp only [bind_assoc, pure_bind]
  rfl

theorem openIn_eq (h : ∀ flow, Reaches codec root limits flow →
    flowBodyBytesIn build flow = .ok (flowBodyBytes flow)) :
    Session.openIn build codec root limits =
      (Session.open codec root limits).mapError .failed := by
  rw [Session.openIn, open_eq, mapError_bind]
  rcases hbefore : Session.beforeLoop codec root limits with error | ⟨session, items⟩
  · rfl
  · show checkFold (openFlowIn build codec root limits) {} items >>= _ =
      Except.mapError _ (_ >>= _)
    rw [mapError_bind, checkFold_openFlowIn]
    rintro flow ⟨before, after, totals, rfl, hfold, hnew⟩
    exact h flow ⟨session, before, after, totals, hbefore, hfold, hnew⟩

theorem openIn_panics (hreach : Reaches codec root limits flow)
    (h : ¬exactBodyBytes flow ≤ u64Max) :
    Session.openIn .checked codec root limits = .error .panicked := by
  obtain ⟨session, before, after, totals, hbefore, hfold, hnew⟩ := hreach
  rw [Session.openIn, hbefore]
  show checkFold (openFlowIn .checked codec root limits) {} (before ++ .ok flow :: after) >>= _ = _
  rw [checkFold_panics ⟨before, after, totals, rfl, hfold, hnew⟩ h]
  rfl

/-- Every flow of an opened session was taken up by the loop. -/
theorem reaches_of_opened {session : Session} {flows : List Flow} {totals : FlowTotals}
    (hbefore : Session.beforeLoop codec root limits = .ok (session, flows.map .ok))
    (hfold : checkFold (openFlow codec root limits) {} (flows.map .ok) = .ok totals)
    (hflow : flow ∈ flows) : Reaches codec root limits flow := by
  obtain ⟨before, after, rfl⟩ := List.append_of_mem hflow
  rw [List.map_append, List.map_cons] at hbefore hfold
  rw [checkFold_append, bind_eq_ok] at hfold
  obtain ⟨middle, hmiddle, hrest⟩ := hfold
  obtain ⟨next, hnext, -⟩ := bind_eq_ok.mp hrest
  simp only [openFlow, ok_bind, ↓bind_unit_eq_ok, ensure_eq_ok] at hnext
  exact ⟨session, _, _, middle, hbefore, hmiddle, hnext.1⟩

theorem opened_within_limit {session : Session}
    (hfits : ∀ flow, Reaches codec root limits flow → exactBodyBytes flow ≤ u64Max)
    (hopen : Session.open codec root limits = .ok session) :
    ∃ iter, ∃ flows : List Flow, session.iterFlows = .ok iter ∧
      iter.items codec = flows.map .ok ∧
      (flows.map exactBodyBytes).sum ≤ limits.maxTotalBytes := by
  rw [open_eq, bind_eq_ok] at hopen
  obtain ⟨⟨before, items⟩, hbefore, hrest⟩ := hopen
  obtain ⟨totals, hfold, hafter⟩ := bind_eq_ok.mp hrest
  simp only [Session.afterLoop, bind_eq_ok, pure_eq_ok] at hafter
  obtain ⟨_, -, _, -, _, -, _, -, rfl⟩ := hafter
  obtain ⟨flows, rfl, -, hsum⟩ := openFlows_reads hfold (Nat.zero_le _) (Nat.zero_le _)
  have hexact : flows.map flowBodyBytes = flows.map exactBodyBytes :=
    List.map_congr_left fun flow hflow =>
      flowBodyBytes_eq_exact (hfits flow (reaches_of_opened hbefore hfold hflow))
  rw [hexact, Nat.zero_add] at hsum
  simp only [Session.beforeLoop, bind_eq_ok, pure_eq_ok, Prod.mk.injEq] at hbefore
  obtain ⟨_, -, manifest, -, _, -, _, -, _, -, _, -, iter, hiter, rfl, hitems⟩ := hbefore
  exact ⟨iter, flows, hiter, hitems, hsum⟩

end

/-- The accounting overflows exactly on the flows that the loop reaches and whose two lengths
do not fit 64 bits together. -/
theorem neverOverflows_iff (codec : Codec) (root : Directory) (limits : StoreLimits) :
    NeverOverflows codec root limits ↔
      ∀ flow, Reaches codec root limits flow → exactBodyBytes flow ≤ u64Max := by
  constructor
  · intro h flow hreach
    by_contra hwide
    have hchecked := h.checked
    rw [openIn_panics hreach hwide] at hchecked
    cases hchecked
  · intro hfits
    have hopen (build : Build) : Session.openIn build codec root limits =
        (Session.open codec root limits).mapError .failed :=
      openIn_eq fun flow hreach => flowBodyBytesIn_fits (hfits flow hreach)
    refine ⟨?_, fun flow hreach => ?_, fun build session hsession => ?_⟩
    · rw [hopen]
      rcases Session.open codec root limits with error | session
      · rfl
      · rfl
    · rw [flowBodyBytesIn_fits (hfits flow hreach), flowBodyBytes_eq_exact (hfits flow hreach)]
    · rw [hopen, mapError_eq_ok] at hsession
      exact opened_within_limit hfits hsession

/-- The digest of the one-byte body `a`. -/
def letterDigest : String := "ca978112ca1bbdcafac231b39a23dc4da786eff8147c4e72b9807785afee48bb"

/-- A flow whose request body is said to be one byte short of 2^64 bytes, and whose response
body one byte. -/
def wideFlow : Flow :=
  { sampleFlow with
    request := { sampleFlow.request with body := .blob ⟨letterDigest, u64Max⟩ }
    outcome := .response
      { status := 200, headers := [], body := .blob ⟨letterDigest, 1⟩, trailers := [] } }

def wideCodec : Codec :=
  { sampleCodec 1 with
    decodeFlow := fun bytes =>
      if bytes = wideFlow.encode ++ [newline] then .ok wideFlow else .error "unknown flow" }

def wideRoot : Directory where
  files := fun name =>
    if name = flowLog then some (wideFlow.encode ++ [newline])
    else if name = manifestFile then some (sampleManifestText 1 ++ [newline])
    else none
  blobs := [(.content letterDigest, utf8 "a".toList)]

/-- The checked build panics on a log of one flow. -/
theorem wideFlow_overflows : ¬ ∀ codec root limits, NeverOverflows codec root limits := by
  intro h
  have hpanics : panicked (Session.openIn .checked wideCodec wideRoot .default) = true := by
    decide +kernel
  rw [(h wideCodec wideRoot .default).checked] at hpanics
  cases hpanics

end EggReplay.Store.BodyAccounting
