import EggReplay.Store.SessionRuns

/-!
`RecordingSession::finish` as the steps it takes: the loads and stores of the shared counters, the
sections under a lock, the files it writes and the rename. Taken without a step of another clone
in between they are `finish`.
-/

namespace EggReplay.Store.FinishSteps

open EggReplay.Library.Checks
open EggReplay.Library.Text
open EggReplay.Store.Fixture
open EggReplay.Store.SessionOpen
open EggReplay.Store.Staging
open EggReplay.Store.Recording

/-- What the clones share: the session, the finalizers that have completed, and what had been
staged at the moment of the rename. -/
structure Shared where
  inner : RecordingInner
  done : List Nat := []
  destination : Option (Directory × Manifest) := none

inductive FinishPoint where
  | called
  | stored
  | counted
  | driving (pending : List Nat)
  | flowsTaken
  | flowsCounted (flowCount : Nat)
  | streamEventsWritten (flowCount : Nat)
  | websocketWritten (flowCount : Nat)
  | fixtureChecked (flowCount : Nat)
  | blobsCounted (manifest : Manifest)
  | manifestWritten (manifest : Manifest)
  | renamed
  | returned (result : Except StoreError Session)

def takeFinalizers (inner : RecordingInner) : RecordingInner :=
  { inner with websocketFinalizers := [] }

/-- The manifest, with the blobs as they are now. -/
def manifestOf (inner : RecordingInner) (flowCount : Nat) : Manifest where
  metadata := inner.finalMetadata
  complete := true
  flowCount := flowCount
  blobCount := countBlobs inner.directory
  extensions := inner.extensions

def writeManifestFile (codec : Codec) (inner : RecordingInner) (manifest : Manifest) :
    Except StoreError RecordingInner := do
  let root ← inner.directory.createFile manifestFile (codec.encodeManifest manifest ++ [newline])
  pure { inner with directory := root }

/-- Where a step leads to, and where its failure. -/
def Shared.proceed (shared : Shared) (result : Except StoreError RecordingInner)
    (next : FinishPoint) : Shared × FinishPoint :=
  match result with
  | .ok inner => ({ shared with inner }, next)
  | .error error => (shared, .returned (.error error))

/-- The next step of `finish`. It waits for a finalizer that has not completed, and for the
WebSocket registry while that is held. -/
def finishStep (codec : Codec) (held : Bool) (shared : Shared) :
    FinishPoint → Option (Shared × FinishPoint)
  | .called => some ({ shared with inner := shared.inner.requestShutdown }, .stored)
  | .stored =>
      some (shared.proceed
        (ensure (shared.inner.activeBlobs = 0)
          (.invalid "cannot finalize with active transactions") >>= fun _ => pure shared.inner)
        .counted)
  | .counted =>
      some ({ shared with inner := takeFinalizers shared.inner },
        .driving shared.inner.websocketFinalizers)
  | .driving [] => some (shared.proceed shared.inner.takeFlows .flowsTaken)
  | .driving (finalizer :: rest) =>
      if finalizer ∈ shared.done then some (shared, .driving rest) else none
  | .flowsTaken => some (shared, .flowsCounted shared.inner.flowCount)
  | .flowsCounted flowCount =>
      some (shared.proceed shared.inner.writeStreamEventsExtension (.streamEventsWritten flowCount))
  | .streamEventsWritten flowCount =>
      if held = true then none
      else some (shared.proceed shared.inner.writeWebsocketExtension (.websocketWritten flowCount))
  | .websocketWritten flowCount =>
      some (shared.proceed (shared.inner.checkFixture codec >>= fun _ => pure shared.inner)
        (.fixtureChecked flowCount))
  | .fixtureChecked flowCount => some (shared, .blobsCounted (manifestOf shared.inner flowCount))
  | .blobsCounted manifest =>
      some (shared.proceed (writeManifestFile codec shared.inner manifest)
        (.manifestWritten manifest))
  | .manifestWritten manifest =>
      some ({ shared with destination := some (shared.inner.directory, manifest) }, .renamed)
  | .renamed =>
      some (shared, .returned (Session.open codec shared.inner.directory shared.inner.limits))
  | .returned _ => none

/-- `finish` has driven the finalizers. -/
def FinishPoint.drained : FinishPoint → Bool
  | .called | .stored | .counted | .driving _ => false
  | .flowsTaken | .flowsCounted _ | .streamEventsWritten _ | .websocketWritten _
  | .fixtureChecked _ | .blobsCounted _ | .manifestWritten _ | .renamed | .returned _ => true

/-- The finalizers that are still to be driven. -/
def FinishPoint.pending (registered : List Nat) : FinishPoint → List Nat
  | .called | .stored | .counted => registered
  | .driving pending => pending
  | .flowsTaken | .flowsCounted _ | .streamEventsWritten _ | .websocketWritten _
  | .fixtureChecked _ | .blobsCounted _ | .manifestWritten _ | .renamed | .returned _ => []

/-- The steps that are left at most. -/
def FinishPoint.left (registered : Nat) : FinishPoint → Nat
  | .called => 12 + registered
  | .stored => 11 + registered
  | .counted => 10 + registered
  | .driving pending => 9 + pending.length
  | .flowsTaken => 8
  | .flowsCounted _ => 7
  | .streamEventsWritten _ => 6
  | .websocketWritten _ => 5
  | .fixtureChecked _ => 4
  | .blobsCounted _ => 3
  | .manifestWritten _ => 2
  | .renamed => 1
  | .returned _ => 0

theorem pending_of_drained {point : FinishPoint} {registered : List Nat}
    (h : point.drained = true) : point.pending registered = [] := by
  cases point with
  | called => cases h
  | stored => cases h
  | counted => cases h
  | driving _ => cases h
  | flowsTaken => rfl
  | flowsCounted _ => rfl
  | streamEventsWritten _ => rfl
  | websocketWritten _ => rfl
  | fixtureChecked _ => rfl
  | blobsCounted _ => rfl
  | manifestWritten _ => rfl
  | renamed => rfl
  | returned _ => rfl

/-! ### What `finish` has still to do -/

def afterCount (codec : Codec) (manifest : Manifest) (inner : RecordingInner) :
    Except StoreError (Directory × Manifest) := do
  let written ← writeManifestFile codec inner manifest
  pure (written.directory, manifest)

def afterFixture (codec : Codec) (flowCount : Nat) (inner : RecordingInner) :
    Except StoreError (Directory × Manifest) :=
  afterCount codec (manifestOf inner flowCount) inner

def afterWebsocket (codec : Codec) (flowCount : Nat) (inner : RecordingInner) :
    Except StoreError (Directory × Manifest) := do
  inner.checkFixture codec
  afterFixture codec flowCount inner

def afterStreamEvents (codec : Codec) (flowCount : Nat) (inner : RecordingInner) :
    Except StoreError (Directory × Manifest) := do
  let inner ← inner.writeWebsocketExtension
  afterWebsocket codec flowCount inner

def afterFlows (codec : Codec) (flowCount : Nat) (inner : RecordingInner) :
    Except StoreError (Directory × Manifest) := do
  let inner ← inner.writeStreamEventsExtension
  afterStreamEvents codec flowCount inner

section

variable {codec : Codec} {held : Bool} {shared : Shared} {inner now : RecordingInner}
  {point : FinishPoint} {next : Shared × FinishPoint}

theorem afterFixture_eq (flowCount : Nat) : afterFixture codec flowCount inner =
    inner.toStaged.writeManifest codec inner.finalMetadata flowCount := by
  show afterCount codec (manifestOf inner flowCount) inner =
    (inner.directory.createFile manifestFile
        (codec.encodeManifest (manifestOf inner flowCount) ++ [newline]) >>= fun root =>
      pure (root, manifestOf inner flowCount))
  rw [afterCount, writeManifestFile]
  rcases inner.directory.createFile manifestFile _ with error | root
  · rfl
  · rfl

theorem stage_eq (inner : RecordingInner) :
    inner.stage codec = (do
      ensure (inner.activeBlobs = 0) (.invalid "cannot finalize with active transactions")
      let taken ← (takeFinalizers inner.requestShutdown).takeFlows
      afterFlows codec taken.flowCount taken) := by
  unfold afterFlows afterStreamEvents afterWebsocket
  simp only [afterFixture_eq]
  rfl

theorem takeFlows_eq_ok {taken : RecordingInner} :
    inner.takeFlows = .ok taken ↔
      inner.flowsOpen = true ∧ { inner with flowsOpen := false } = taken := by
  simp only [RecordingInner.takeFlows, ↓bind_unit_eq_ok, ensure_eq_ok, pure_eq_ok]

theorem writeStreamEventsExtension_limits {written : RecordingInner}
    (h : inner.writeStreamEventsExtension = .ok written) : written.limits = inner.limits := by
  unfold RecordingInner.writeStreamEventsExtension at h
  split at h
  · obtain rfl := Except.ok.inj h
    rfl
  · simp only [↓bind_unit_eq_ok, bind_eq_ok, pure_eq_ok] at h
    obtain ⟨-, -, staged, -, rfl⟩ := h
    rfl

theorem writeWebsocketExtension_limits {written : RecordingInner}
    (h : inner.writeWebsocketExtension = .ok written) : written.limits = inner.limits := by
  unfold RecordingInner.writeWebsocketExtension at h
  split at h
  · obtain rfl := Except.ok.inj h
    rfl
  · simp only [bind_eq_ok, pure_eq_ok] at h
    obtain ⟨transcript, -, staged, -, rfl⟩ := h
    rfl

/-! ### `finish` alone -/

/-- What is shared at each point of a `finish` that was called on `now`. -/
def Shape (codec : Codec) (now : RecordingInner) (shared : Shared) (point : FinishPoint) : Prop :=
  match point with
  | .called => shared.inner = now ∧ shared.destination = none
  | .stored => shared.inner = now.requestShutdown ∧ shared.destination = none
  | .counted =>
      shared.inner = now.requestShutdown ∧ shared.destination = none ∧ now.activeBlobs = 0
  | .driving _ =>
      shared.inner = takeFinalizers now.requestShutdown ∧ shared.destination = none ∧
        now.activeBlobs = 0
  | .flowsTaken =>
      shared.inner.limits = now.limits ∧ shared.destination = none ∧
        now.stage codec = afterFlows codec shared.inner.flowCount shared.inner
  | .flowsCounted flowCount =>
      shared.inner.limits = now.limits ∧ shared.destination = none ∧
        now.stage codec = afterFlows codec flowCount shared.inner
  | .streamEventsWritten flowCount =>
      shared.inner.limits = now.limits ∧ shared.destination = none ∧
        now.stage codec = afterStreamEvents codec flowCount shared.inner
  | .websocketWritten flowCount =>
      shared.inner.limits = now.limits ∧ shared.destination = none ∧
        now.stage codec = afterWebsocket codec flowCount shared.inner
  | .fixtureChecked flowCount =>
      shared.inner.limits = now.limits ∧ shared.destination = none ∧
        now.stage codec = afterFixture codec flowCount shared.inner
  | .blobsCounted manifest =>
      shared.inner.limits = now.limits ∧ shared.destination = none ∧
        now.stage codec = afterCount codec manifest shared.inner
  | .manifestWritten manifest =>
      shared.inner.limits = now.limits ∧ shared.destination = none ∧
        now.stage codec = .ok (shared.inner.directory, manifest)
  | .renamed =>
      shared.inner.limits = now.limits ∧ ∃ manifest,
        shared.destination = some (shared.inner.directory, manifest) ∧
          now.stage codec = .ok (shared.inner.directory, manifest)
  | .returned result =>
      ({ result, destination := shared.destination.map Prod.fst } : Publication) =
        now.finish codec

theorem shape_proceed {result : Except StoreError RecordingInner} {point : FinishPoint}
    (hdestination : shared.destination = none)
    (herror : ∀ error, result = .error error → now.stage codec = .error error)
    (hok : ∀ inner, result = .ok inner → Shape codec now { shared with inner } point) :
    Shape codec now (shared.proceed result point).1 (shared.proceed result point).2 := by
  cases result with
  | error error =>
      show ({ result := .error error, destination := shared.destination.map Prod.fst } :
        Publication) = now.finish codec
      rw [RecordingInner.finish, herror error rfl, hdestination]
      rfl
  | ok inner => exact hok inner rfl

/-- Each step keeps the shape. -/
theorem shape_finishStep (h : Shape codec now shared point)
    (hstep : finishStep codec held shared point = some next) : Shape codec now next.1 next.2 := by
  cases point with
  | called =>
      obtain rfl := Option.some.inj hstep
      exact ⟨congrArg RecordingInner.requestShutdown h.1, h.2⟩
  | stored =>
      obtain rfl := Option.some.inj hstep
      obtain ⟨hinner, hdestination⟩ := h
      have hactive : shared.inner.activeBlobs = now.activeBlobs := by
        rw [hinner]
        rfl
      apply shape_proceed hdestination
      · intro error herror
        rw [hactive] at herror
        rw [stage_eq]
        by_cases hzero : now.activeBlobs = 0
        · rw [ensure_of_true hzero] at herror
          cases herror
        · rw [ensure_of_false hzero] at herror ⊢
          exact congrArg Except.error (Except.error.inj herror)
      · intro inner hok
        simp only [↓bind_unit_eq_ok, ensure_eq_ok, pure_eq_ok] at hok
        obtain ⟨hzero, rfl⟩ := hok
        exact ⟨hinner, hdestination, hactive ▸ hzero⟩
  | counted =>
      obtain rfl := Option.some.inj hstep
      exact ⟨congrArg takeFinalizers h.1, h.2⟩
  | driving pending =>
      obtain ⟨hinner, hdestination, hactive⟩ := h
      have hstage : now.stage codec = _ := stage_eq now
      rw [ensure_of_true hactive, ok_bind, ← hinner] at hstage
      cases pending with
      | nil =>
          obtain rfl := Option.some.inj hstep
          apply shape_proceed hdestination
          · intro error herror
            rw [hstage, herror]
            rfl
          · intro taken htaken
            rw [htaken, ok_bind] at hstage
            obtain ⟨-, rfl⟩ := takeFlows_eq_ok.mp htaken
            have hlimits : shared.inner.limits = now.limits := by
              rw [hinner]
              rfl
            exact ⟨hlimits, hdestination, hstage⟩
      | cons finalizer rest =>
          simp only [finishStep, Option.ite_none_right_eq_some, Option.some.injEq] at hstep
          obtain ⟨-, rfl⟩ := hstep
          exact ⟨hinner, hdestination, hactive⟩
  | flowsTaken =>
      obtain rfl := Option.some.inj hstep
      exact h
  | flowsCounted flowCount =>
      obtain rfl := Option.some.inj hstep
      obtain ⟨hlimits, hdestination, hstage⟩ := h
      apply shape_proceed hdestination
      · intro error herror
        rw [hstage, afterFlows, herror]
        rfl
      · intro written hwritten
        rw [afterFlows, hwritten] at hstage
        exact ⟨(writeStreamEventsExtension_limits hwritten).trans hlimits, hdestination, hstage⟩
  | streamEventsWritten flowCount =>
      simp only [finishStep, Option.ite_none_left_eq_some, Option.some.injEq] at hstep
      obtain ⟨-, rfl⟩ := hstep
      obtain ⟨hlimits, hdestination, hstage⟩ := h
      apply shape_proceed hdestination
      · intro error herror
        rw [hstage, afterStreamEvents, herror]
        rfl
      · intro written hwritten
        rw [afterStreamEvents, hwritten] at hstage
        exact ⟨(writeWebsocketExtension_limits hwritten).trans hlimits, hdestination, hstage⟩
  | websocketWritten flowCount =>
      obtain rfl := Option.some.inj hstep
      obtain ⟨hlimits, hdestination, hstage⟩ := h
      rw [afterWebsocket] at hstage
      rcases hchecked : shared.inner.checkFixture codec with error | ⟨⟩
      · apply shape_proceed hdestination
        · rintro error' ⟨⟩
          rw [hchecked] at hstage
          exact hstage
        · rintro inner ⟨⟩
      · rw [hchecked] at hstage
        exact ⟨hlimits, hdestination, hstage⟩
  | fixtureChecked flowCount =>
      obtain rfl := Option.some.inj hstep
      exact h
  | blobsCounted manifest =>
      obtain rfl := Option.some.inj hstep
      obtain ⟨hlimits, hdestination, hstage⟩ := h
      apply shape_proceed hdestination
      · intro error herror
        rw [hstage, afterCount, herror]
        rfl
      · intro written hwritten
        rw [afterCount, hwritten] at hstage
        refine ⟨?_, hdestination, hstage⟩
        simp only [writeManifestFile, bind_eq_ok, pure_eq_ok] at hwritten
        obtain ⟨root, -, rfl⟩ := hwritten
        exact hlimits
  | manifestWritten manifest =>
      obtain rfl := Option.some.inj hstep
      obtain ⟨hlimits, -, hstage⟩ := h
      exact ⟨hlimits, manifest, rfl, hstage⟩
  | renamed =>
      obtain rfl := Option.some.inj hstep
      obtain ⟨hlimits, manifest, hdestination, hstage⟩ := h
      show ({ result := _, destination := shared.destination.map Prod.fst } : Publication) =
        now.finish codec
      rw [RecordingInner.finish, hstage, hdestination, hlimits]
      rfl
  | returned result => cases hstep

/-! ### What a step changes -/

theorem proceed_done (result : Except StoreError RecordingInner) :
    (shared.proceed result point).1.done = shared.done := by
  cases result <;> rfl

theorem pending_proceed {registered : List Nat} (result : Except StoreError RecordingInner)
    (h : point.pending registered = []) :
    (shared.proceed result point).2.pending registered = [] := by
  cases result with
  | error error => rfl
  | ok inner => exact h

/-- A step completes no finalizer. -/
theorem finishStep_done (hstep : finishStep codec held shared point = some next) :
    next.1.done = shared.done ∧ ∀ inner, next ≠ (inner, .called) := by
  have hproceed : ∀ (result : Except StoreError RecordingInner) (following : FinishPoint),
      following ≠ .called → ∀ inner, shared.proceed result following ≠ (inner, .called) := by
    intro result following hne inner heq
    cases result with
    | error error => cases heq
    | ok written => exact hne (congrArg Prod.snd heq)
  have hmoved : ∀ (result : Except StoreError RecordingInner) (following : FinishPoint),
      following ≠ .called → some (shared.proceed result following) = some next →
      next.1.done = shared.done ∧ ∀ inner, next ≠ (inner, .called) := by
    rintro result following hne heq
    obtain rfl := Option.some.inj heq
    exact ⟨proceed_done result, hproceed result following hne⟩
  cases point with
  | driving pending =>
      cases pending with
      | nil => exact hmoved _ _ (by rintro ⟨⟩) hstep
      | cons finalizer rest =>
          simp only [finishStep, Option.ite_none_right_eq_some, Option.some.injEq] at hstep
          obtain ⟨-, rfl⟩ := hstep
          exact ⟨rfl, by rintro inner ⟨⟩⟩
  | streamEventsWritten flowCount =>
      simp only [finishStep, Option.ite_none_left_eq_some] at hstep
      exact hmoved _ _ (by rintro ⟨⟩) hstep.2
  | stored => exact hmoved _ _ (by rintro ⟨⟩) hstep
  | flowsCounted flowCount => exact hmoved _ _ (by rintro ⟨⟩) hstep
  | websocketWritten flowCount => exact hmoved _ _ (by rintro ⟨⟩) hstep
  | blobsCounted manifest => exact hmoved _ _ (by rintro ⟨⟩) hstep
  | returned result => cases hstep
  | called | counted | flowsTaken | fixtureChecked _ | manifestWritten _ | renamed =>
      obtain rfl := Option.some.inj hstep
      exact ⟨rfl, by rintro inner ⟨⟩⟩

/-- A finalizer leaves the pending ones when it has completed, and none joins them. -/
theorem pending_finishStep {registered : List Nat}
    (hidle : point = .stored → shared.inner.activeBlobs = 0)
    (hregistered : point = .counted → shared.inner.websocketFinalizers = registered)
    (hstep : finishStep codec held shared point = some next) :
    (∀ other ∈ next.2.pending registered, other ∈ point.pending registered) ∧
      ∀ other ∈ point.pending registered,
        other ∈ next.2.pending registered ∨ other ∈ shared.done := by
  have hdrained : ∀ (result : Except StoreError RecordingInner) (following : FinishPoint),
      following.pending registered = [] → point.pending registered = [] →
      some (shared.proceed result following) = some next →
      (∀ other ∈ next.2.pending registered, other ∈ point.pending registered) ∧
        ∀ other ∈ point.pending registered,
          other ∈ next.2.pending registered ∨ other ∈ shared.done := by
    intro result following hfollowing hpoint heq
    obtain rfl := Option.some.inj heq
    rw [pending_proceed result hfollowing, hpoint]
    exact ⟨fun _ h => h, fun _ h => absurd h List.not_mem_nil⟩
  cases point with
  | called =>
      obtain rfl := Option.some.inj hstep
      exact ⟨fun _ h => h, fun _ h => .inl h⟩
  | stored =>
      obtain rfl := Option.some.inj hstep
      rw [ensure_of_true (hidle rfl)]
      exact ⟨fun _ h => h, fun _ h => .inl h⟩
  | counted =>
      obtain rfl := Option.some.inj hstep
      rw [hregistered rfl]
      exact ⟨fun _ h => h, fun _ h => .inl h⟩
  | driving pending =>
      cases pending with
      | nil => exact hdrained _ _ rfl rfl hstep
      | cons finalizer rest =>
          simp only [finishStep, Option.ite_none_right_eq_some, Option.some.injEq] at hstep
          obtain ⟨hdone, rfl⟩ := hstep
          refine ⟨fun _ h => List.mem_cons_of_mem _ h, fun other h => ?_⟩
          rcases List.mem_cons.mp h with rfl | hrest
          · exact .inr hdone
          · exact .inl hrest
  | flowsCounted flowCount => exact hdrained _ _ rfl rfl hstep
  | streamEventsWritten flowCount =>
      simp only [finishStep, Option.ite_none_left_eq_some] at hstep
      exact hdrained _ _ rfl rfl hstep.2
  | websocketWritten flowCount => exact hdrained _ _ rfl rfl hstep
  | blobsCounted manifest => exact hdrained _ _ rfl rfl hstep
  | returned result => cases hstep
  | flowsTaken | fixtureChecked _ | manifestWritten _ | renamed =>
      obtain rfl := Option.some.inj hstep
      exact ⟨fun _ h => h, fun _ h => .inl h⟩

/-- Each step leaves fewer. -/
theorem left_finishStep (hstep : finishStep codec held shared point = some next) :
    next.2.left next.1.inner.websocketFinalizers.length + 1 ≤
      point.left shared.inner.websocketFinalizers.length := by
  have hproceed : ∀ (result : Except StoreError RecordingInner) (following : FinishPoint)
      (bound : Nat), (∀ registered, following.left registered ≤ bound) →
      (shared.proceed result following).2.left
        (shared.proceed result following).1.inner.websocketFinalizers.length ≤ bound := by
    intro result following bound h
    cases result with
    | error error => exact Nat.zero_le _
    | ok inner => exact h _
  cases point with
  | called =>
      obtain rfl := Option.some.inj hstep
      simp only [FinishPoint.left, RecordingInner.requestShutdown]
      omega
  | stored =>
      obtain rfl := Option.some.inj hstep
      by_cases hzero : shared.inner.activeBlobs = 0
      · rw [ensure_of_true hzero]
        simp only [ok_bind, Shared.proceed, pure, Except.pure, FinishPoint.left]
        omega
      · rw [ensure_of_false hzero, error_bind]
        simp only [Shared.proceed, FinishPoint.left]
        omega
  | counted =>
      obtain rfl := Option.some.inj hstep
      simp only [FinishPoint.left]
      omega
  | driving pending =>
      cases pending with
      | nil =>
          obtain rfl := Option.some.inj hstep
          exact Nat.succ_le_succ (hproceed _ _ 8 fun _ => Nat.le_refl _)
      | cons finalizer rest =>
          simp only [finishStep, Option.ite_none_right_eq_some, Option.some.injEq] at hstep
          obtain ⟨-, rfl⟩ := hstep
          simp only [FinishPoint.left, List.length_cons]
          omega
  | flowsTaken =>
      obtain rfl := Option.some.inj hstep
      exact Nat.le_refl _
  | flowsCounted flowCount =>
      obtain rfl := Option.some.inj hstep
      exact Nat.succ_le_succ (hproceed _ _ 6 fun _ => Nat.le_refl _)
  | streamEventsWritten flowCount =>
      simp only [finishStep, Option.ite_none_left_eq_some, Option.some.injEq] at hstep
      obtain ⟨-, rfl⟩ := hstep
      exact Nat.succ_le_succ (hproceed _ _ 5 fun _ => Nat.le_refl _)
  | websocketWritten flowCount =>
      obtain rfl := Option.some.inj hstep
      exact Nat.succ_le_succ (hproceed _ _ 4 fun _ => Nat.le_refl _)
  | fixtureChecked flowCount =>
      obtain rfl := Option.some.inj hstep
      exact Nat.le_refl _
  | blobsCounted manifest =>
      obtain rfl := Option.some.inj hstep
      exact Nat.succ_le_succ (hproceed _ _ 2 fun _ => Nat.le_refl _)
  | manifestWritten manifest =>
      obtain rfl := Option.some.inj hstep
      exact Nat.le_refl _
  | renamed =>
      obtain rfl := Option.some.inj hstep
      exact Nat.le_refl _
  | returned result => cases hstep

/-- `finish` waits at a finalizer or for the registry, or has returned. -/
theorem finishStep_eq_none (h : finishStep codec held shared point = none) :
    (∃ finalizer rest, point = .driving (finalizer :: rest) ∧ finalizer ∉ shared.done) ∨
      (held = true ∧ ∃ flowCount, point = .streamEventsWritten flowCount) ∨
      ∃ result, point = .returned result := by
  cases point with
  | driving pending =>
      cases pending with
      | nil => cases h
      | cons finalizer rest =>
          simp only [finishStep, ite_eq_right_iff] at h
          refine .inl ⟨finalizer, rest, rfl, fun hdone => ?_⟩
          cases h hdone
  | streamEventsWritten flowCount =>
      cases held with
      | true => exact .inr (.inl ⟨rfl, flowCount, rfl⟩)
      | false => cases h
  | returned result => exact .inr (.inr ⟨result, rfl⟩)
  | called | stored | counted | flowsTaken | flowsCounted _ | websocketWritten _
  | fixtureChecked _ | blobsCounted _ | manifestWritten _ | renamed => cases h

end

end EggReplay.Store.FinishSteps
