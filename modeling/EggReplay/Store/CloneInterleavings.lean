import EggReplay.Library.Phases
import EggReplay.Library.TransitionSystem
import EggReplay.Store.FinishSteps

/-!
Any number of clones of a recording session, each of their operations as the steps that others
can come between: the load of the shutdown flag, the creation of a staging file and its count, the
rename of a finished body, the section under the flow-log lock, and the steps of `finish`.
-/

namespace EggReplay.Store.CloneInterleavings

open EggReplay.Core.FlowRecord
open EggReplay.Store.Fixture
open EggReplay.Store.SessionOpen
open EggReplay.Store.Publication
open EggReplay.Store.SessionRuns
open EggReplay.Store.StagedInvariant
open EggReplay.Store.Staging
open EggReplay.Store.Recording
open EggReplay.Store.FinishSteps
open EggReplay.Library.Checks
open EggReplay.Library.LineLog
open EggReplay.Library.Phases
open EggReplay.Library.Text
open EggReplay.Library.TransitionSystem

/-! ### The steps of the operations -/

inductive Call where
  | beginBlob
  | appendFlow (flow : Flow)
  | shutdown
  | finish

/-- Where an operation of some clone stands, or the body writer that `begin_blob` has returned. -/
inductive Thread where
  | beginning
  | admitted
  | created (suffix : Nat)
  | writing (writer : BodyWriter)
  | publishing (writer : BodyWriter)
  | replacing (writer : BodyWriter)
  | moving (writer : BodyWriter)
  | dropping (writer : BodyWriter)
  | releasing
  | appending (flow : Flow)
  | appendChecked (flow : Flow)
  | stopping
  | finishing (point : FinishPoint)
  | ended

def Call.start : Call → Thread
  | .beginBlob => .beginning
  | .appendFlow flow => .appending flow
  | .shutdown => .stopping
  | .finish => .finishing .called

/-- An operation on a path of the staging directory, which fails once that has been renamed. -/
def Shared.onPath (shared : Shared) (change : Directory → Directory) : Shared :=
  match shared.destination with
  | some _ => shared
  | none =>
      { shared with
        inner := { shared.inner with directory := change shared.inner.directory } }

/-- `rename` takes the place of a file that is there. -/
def renameOver (root : Directory) (name target : BlobName) : Directory :=
  (root.removeBlob target).renameBlob name target

def BodyWriter.target (codec : Codec) (writer : BodyWriter) : BlobName :=
  .content (codec.sha256Hex writer.hashed)

/-- The next step of an operation; what becomes of an open writer is for its owner to say. -/
def advanceThread (codec : Codec) (shared : Shared) : Thread → Option (Shared × Thread)
  | .beginning =>
      match shared.inner.checkRunning with
      | .ok _ => some (shared, .admitted)
      | .error _ => some (shared, .ended)
  | .admitted =>
      match shared.destination with
      | some _ => some (shared, .ended)
      | none =>
          let created := shared.inner.toStaged.createStagingFile
          some ({ shared with inner := { shared.inner with toStaged := created.1 } },
            .created created.2)
  | .created suffix =>
      some ({ shared with inner := shared.inner.reserveBlob },
        .writing (BodyWriter.open suffix shared.inner.limits.maxBlobBytes))
  | .writing _ => none
  | .publishing writer =>
      if writer.length = 0 then
        some (Shared.onPath shared fun root => writer.drop root, .releasing)
      else if shared.destination.isNone = true ∧
          (shared.inner.directory.blob? (BodyWriter.target codec writer)).isSome = true then
        some (shared, .replacing writer)
      else some (shared, .moving writer)
  | .replacing writer | .dropping writer =>
      some (Shared.onPath shared fun root => writer.drop root, .releasing)
  | .moving writer =>
      some (Shared.onPath shared fun root =>
        renameOver root (.staging writer.suffix) (BodyWriter.target codec writer), .releasing)
  | .releasing => some ({ shared with inner := shared.inner.releaseBlob }, .ended)
  | .appending flow =>
      match shared.inner.checkRunning >>= fun _ => checkFlow shared.inner.limits flow with
      | .ok _ => some (shared, .appendChecked flow)
      | .error _ => some (shared, .ended)
  | .appendChecked flow =>
      match shared.inner.appendFlowLocked flow with
      | .ok inner => some ({ shared with inner }, .ended)
      | .error _ => some (shared, .ended)
  | .stopping => some ({ shared with inner := shared.inner.requestShutdown }, .ended)
  | .finishing point =>
      (finishStep codec false shared point).map fun next => (next.1, .finishing next.2)
  | .ended => none

/-- What an owner does with its open writer: a write, `finish` or drop. -/
inductive Use where
  | write (buffer : Bytes)
  | finish
  | drop

/-- A write goes to the open file, wherever its directory has been renamed to. -/
def useWriter (shared : Shared) (writer : BodyWriter) : Use → Shared × Thread
  | .write buffer =>
      match writer.write shared.inner.directory buffer with
      | .ok written =>
          ({ shared with inner := { shared.inner with directory := written.1 } },
            .writing written.2)
      | .error _ => (shared, .writing writer)
  | .finish => (shared, .publishing writer)
  | .drop => (shared, .dropping writer)

structure World extends Shared where
  threads : List Thread := []

inductive Action where
  | call (call : Call)
  | advance (index : Nat)
  | use (index : Nat) (use : Use)

def World.put (world : World) (index : Nat) (next : Shared × Thread) : World :=
  { toShared := next.1, threads := world.threads.set index next.2 }

def step (codec : Codec) (world : World) : Action → Option World
  | .call call => some { world with threads := world.threads ++ [call.start] }
  | .advance index => do
      let thread ← world.threads[index]?
      let next ← advanceThread codec world.toShared thread
      pure (world.put index next)
  | .use index use =>
      match world.threads[index]? with
      | some (.writing writer) => some (world.put index (useWriter world.toShared writer use))
      | _ => none

/-- A session that has been created, before any call. -/
def opened (inner : RecordingInner) : World := { inner }

/-! ### Each operation alone -/

/-- A thread that takes its next steps with no other in between. -/
def alone (codec : Codec) : Nat → Shared × Thread → Option (Shared × Thread)
  | 0, place => some place
  | steps + 1, place => advanceThread codec place.1 place.2 >>= alone codec steps

section

variable {codec : Codec} {shared : Shared} {inner : RecordingInner} {writer : BodyWriter}
  {flow : Flow}

theorem onPath_renamed {change : Directory → Directory}
    (h : shared.destination.isSome = true) : Shared.onPath shared change = shared := by
  obtain ⟨published, hpublished⟩ := Option.isSome_iff_exists.mp h
  rw [Shared.onPath, hpublished]

theorem onPath_staged {change : Directory → Directory} (h : shared.destination = none) :
    Shared.onPath shared change =
      { shared with
        inner := { shared.inner with directory := change shared.inner.directory } } := by
  rw [Shared.onPath, h]

theorem beginBlob_alone (hstaged : shared.destination = none)
    (h : shared.inner.beginBlob = .ok (inner, writer)) :
    alone codec 3 (shared, .beginning) = some ({ shared with inner }, .writing writer) := by
  simp only [RecordingInner.beginBlob, ↓bind_unit_eq_ok, pure_eq_ok, Prod.mk.injEq] at h
  obtain ⟨hrunning, rfl, rfl⟩ := h
  simp only [alone, advanceThread, hrunning, hstaged, Option.bind_eq_bind, Option.bind_some]

theorem appendFlow_alone (h : shared.inner.appendFlow flow = .ok inner) :
    alone codec 2 (shared, .appending flow) = some ({ shared with inner }, .ended) := by
  simp only [RecordingInner.appendFlow, ↓bind_unit_eq_ok] at h
  obtain ⟨hrunning, hflow, happended⟩ := h
  simp only [alone, advanceThread, hrunning, hflow, ok_bind, happended, Option.bind_eq_bind,
    Option.bind_some]

theorem dropBody_alone (hstaged : shared.destination = none) :
    alone codec 2 (shared, .dropping writer) =
      some ({ shared with inner := shared.inner.dropBody writer }, .ended) := by
  simp only [alone, advanceThread, onPath_staged hstaged, Option.bind_eq_bind, Option.bind_some]
  rfl

/-- With no file there, `rename` only gives the file its name. -/
theorem renameOver_absent {root : Directory} {name target : BlobName}
    (h : root.blob? target = none) : renameOver root name target = root.renameBlob name target := by
  have habsent : root.removeBlob target = root := by
    rw [Directory.removeBlob, List.filter_eq_self.mpr]
    intro entry hentry
    apply decide_eq_true
    rintro rfl
    have hlookup := List.lookup_eq_none_iff.mp h entry hentry
    rw [bne_self_eq_false] at hlookup
    cases hlookup
  rw [renameOver, habsent]

theorem finishBody_alone (hstaged : shared.destination = none) :
    ∃ steps, alone codec steps (shared, .publishing writer) =
      some ({ shared with inner := (shared.inner.finishBody codec writer).1 }, .ended) := by
  have hisNone : shared.destination.isNone = true := Option.isNone_iff_eq_none.mpr hstaged
  rw [RecordingInner.finishBody, BodyWriter.publish]
  by_cases hempty : writer.length = 0
  · refine ⟨2, ?_⟩
    simp only [alone, advanceThread, if_pos hempty, onPath_staged hstaged, Option.bind_eq_bind,
      Option.bind_some]
    rfl
  · rw [if_neg hempty]
    by_cases hthere : (shared.inner.directory.blob? (BodyWriter.target codec writer)).isSome = true
    · refine ⟨3, ?_⟩
      rw [BodyWriter.target] at hthere
      simp only [alone, advanceThread, BodyWriter.target, if_neg hempty, hisNone, hthere,
        onPath_staged hstaged, Option.bind_eq_bind, Option.bind_some, and_self, if_true]
      rfl
    · refine ⟨3, ?_⟩
      have habsent := Option.not_isSome_iff_eq_none.mp hthere
      rw [BodyWriter.target] at habsent
      simp only [alone, advanceThread, BodyWriter.target, if_neg hempty, habsent,
        Option.isSome_none, Bool.false_eq_true, and_false, if_false, onPath_staged hstaged,
        renameOver_absent habsent, Option.bind_eq_bind, Option.bind_some]

end

/-! ### What the rename is to find -/

def isContent : BlobName → Bool
  | .content _ => true
  | .staging _ | .gitkeep => false

/-- No staging file is left, and both counts of the manifest are what the directory holds. -/
structure CleanRename (root : Directory) (manifest : Manifest) : Prop where
  staging : ∀ entry ∈ root.blobs, ∀ suffix, entry.1 ≠ .staging suffix
  blobCount : manifest.blobCount = root.blobs.countP fun entry => isContent entry.1
  flowCount : ∃ log, root.files flowLog = some log ∧
    manifest.flowCount = (records newline log).length

/-! ### What the threads have in hand -/

/-- The staging file that a thread has created and not yet removed or renamed. -/
def Thread.suffix? : Thread → Option Nat
  | .created suffix => some suffix
  | .writing writer | .publishing writer | .replacing writer | .moving writer
  | .dropping writer => some writer.suffix
  | .beginning | .admitted | .releasing | .appending _ | .appendChecked _ | .stopping
  | .finishing _ | .ended => none

/-- The counter of active bodies counts the thread. -/
def Thread.active : Thread → Bool
  | .writing _ | .publishing _ | .replacing _ | .moving _ | .dropping _ | .releasing => true
  | .beginning | .admitted | .created _ | .appending _ | .appendChecked _ | .stopping
  | .finishing _ | .ended => false

/-- The thread has a staging file or is counted. -/
def Thread.holds : Thread → Bool
  | .created _ => true
  | thread => thread.active

/-- `finish` has found no active bodies and has still to rename. -/
def Thread.finalizes : Thread → Bool
  | .finishing point =>
      match point with
      | .counted | .driving _ | .flowsTaken | .flowsCounted _ | .streamEventsWritten _
      | .websocketWritten _ | .fixtureChecked _ | .blobsCounted _ | .manifestWritten _ => true
      | .called | .stored | .renamed | .returned _ => false
  | _ => false

/-- `finish` has taken the flow log and has still to rename. -/
def Thread.takes : Thread → Bool
  | .finishing point =>
      match point with
      | .flowsTaken | .flowsCounted _ | .streamEventsWritten _ | .websocketWritten _
      | .fixtureChecked _ | .blobsCounted _ | .manifestWritten _ => true
      | .called | .stored | .counted | .driving _ | .renamed | .returned _ => false
  | _ => false

/-- What `finish` has read agrees with what is there. -/
def Thread.Agrees (inner : RecordingInner) : Thread → Prop
  | .finishing point =>
      match point with
      | .flowsCounted flowCount | .streamEventsWritten flowCount | .websocketWritten flowCount
      | .fixtureChecked flowCount => flowCount = inner.flowCount
      | .blobsCounted manifest | .manifestWritten manifest =>
          manifest.flowCount = inner.flowCount ∧ manifest.blobCount = countBlobs inner.directory
      | .called | .stored | .counted | .driving _ | .flowsTaken | .renamed | .returned _ => True
  | _ => True

/-- A `finish` that has renamed, or succeeded. -/
def Thread.landed : Thread → Bool
  | .finishing point =>
      match point with
      | .renamed | .returned (.ok _) => true
      | _ => false
  | _ => false

/-- The thread is about to create its staging file. -/
def Thread.creates : Thread → Bool
  | .admitted => true
  | _ => false

/-- The thread has created its staging file and is not yet counted. -/
def Thread.uncounted : Thread → Bool
  | .created _ => true
  | _ => false

/-- `finish` is about to load the count of active bodies. -/
def Thread.loads : Thread → Bool
  | .finishing .stored => true
  | _ => false

/-- No staging file is created while some `finish` has found no active bodies and has still to
rename, and a `finish` that finds none finds none created but not yet counted. -/
def Orderly (world : World) : Action → Prop
  | .advance index => ∀ thread ∈ world.threads[index]?,
      (thread.creates = true → world.destination = none →
        ∀ other ∈ world.threads, other.finalizes = false) ∧
      (thread.loads = true → world.inner.activeBlobs = 0 →
        ∀ other ∈ world.threads, other.uncounted = false)
  | .call _ | .use _ _ => True

instance decidableOrderly (world : World) : ∀ action, Decidable (Orderly world action)
  | .advance index => inferInstanceAs (Decidable (∀ thread ∈ world.threads[index]?,
      (thread.creates = true → world.destination = none →
        ∀ other ∈ world.threads, other.finalizes = false) ∧
      (thread.loads = true → world.inner.activeBlobs = 0 →
        ∀ other ∈ world.threads, other.uncounted = false)))
  | .call _ | .use _ _ => .isTrue trivial

/-- The log holds the lines of so many flows as are counted. -/
def Logged (inner : RecordingInner) : Prop :=
  ∃ flows : List Flow, inner.flowCount = flows.length ∧
    inner.directory.files flowLog = some (written newline (flows.map Flow.encode))

structure Kept (world : World) : Prop where
  logged : Logged world.inner
  owned : world.destination = none → ∀ entry ∈ world.inner.directory.blobs, ∀ suffix,
    entry.1 = .staging suffix → ∃ thread ∈ world.threads, thread.suffix? = some suffix
  plain : ∀ entry ∈ world.inner.directory.blobs, entry.1 ≠ .gitkeep
  counted : world.inner.activeBlobs = world.threads.countP Thread.active
  single : world.threads.countP Thread.takes + world.inner.flowsOpen.toNat +
    world.destination.isSome.toNat ≤ 1
  alone : (∃ thread ∈ world.threads, thread.finalizes = true) →
    ∀ thread ∈ world.threads, thread.holds = false
  agrees : ∀ thread ∈ world.threads, thread.Agrees world.inner
  landed : (∃ thread ∈ world.threads, thread.landed = true) → world.destination.isSome = true
  clean : ∀ root manifest, world.destination = some (root, manifest) → CleanRename root manifest

theorem kept_opened {metadata : SessionMetadata} {limits : StoreLimits} {inner : RecordingInner}
    (hcreate : RecordingInner.create false metadata limits = .ok inner) : Kept (opened inner) := by
  simp only [RecordingInner.create, bind_unit_eq_ok, ensure_eq_ok, pure_eq_ok] at hcreate
  obtain ⟨-, -, rfl⟩ := hcreate
  refine ⟨⟨[], rfl, ?_⟩, ?_, ?_, rfl, Nat.le_refl 1, ?_, ?_, ?_, ?_⟩
  · exact Function.update_self flowLog (some []) fun _ => none
  · exact fun _ entry hentry => absurd hentry List.not_mem_nil
  · exact fun entry hentry => absurd hentry List.not_mem_nil
  · exact fun _ thread hthread => absurd hthread List.not_mem_nil
  · exact fun thread hthread => absurd hthread List.not_mem_nil
  · rintro ⟨thread, hthread, -⟩
    exact absurd hthread List.not_mem_nil
  · rintro root manifest ⟨⟩

section

variable {codec : Codec} {world next : World} {index : Nat} {old new : Thread} {shared : Shared}

theorem finalizes_of_takes {thread : Thread} (h : thread.takes = true) :
    thread.finalizes = true := by
  cases thread with
  | finishing point => cases point <;> first | rfl | cases h
  | _ => cases h

theorem holds_of_active {thread : Thread} (h : thread.active = true) : thread.holds = true := by
  cases thread with
  | created suffix => rfl
  | _ => exact h

theorem holds_of_suffix {thread : Thread} {suffix : Nat} (h : thread.suffix? = some suffix) :
    thread.holds = true := by
  cases thread <;> first | rfl | cases h

/-- A thread's step, and what it has to do for the invariant to hold after it. -/
structure Moves (world : World) (old new : Thread) (shared : Shared) : Prop where
  logged : Logged shared.inner
  owned : shared.destination = none → world.destination = none →
    ∀ entry ∈ shared.inner.directory.blobs, ∀ suffix, entry.1 = .staging suffix →
      new.suffix? = some suffix ∨ old.suffix? ≠ some suffix ∧
        ∃ before ∈ world.inner.directory.blobs, before.1 = .staging suffix
  plain : ∀ entry ∈ shared.inner.directory.blobs, entry.1 ≠ .gitkeep
  counted : shared.inner.activeBlobs + old.active.toNat =
    world.inner.activeBlobs + new.active.toNat
  single : new.takes.toNat + shared.inner.flowsOpen.toNat + shared.destination.isSome.toNat ≤
    old.takes.toNat + world.inner.flowsOpen.toNat + world.destination.isSome.toNat
  stays : world.destination.isSome = true → shared.destination.isSome = true
  holds : new.holds = true → old.holds = true ∨
    ∀ thread ∈ world.threads, thread.finalizes = false
  finalizes : new.finalizes = true → old.finalizes = true ∨
    ∀ thread ∈ world.threads, thread.holds = false
  frozen : (∃ thread ∈ world.threads, thread.takes = true) →
    shared.inner.flowCount = world.inner.flowCount ∧
      countBlobs shared.inner.directory = countBlobs world.inner.directory
  agrees : new.Agrees shared.inner
  landed : new.landed = true → shared.destination.isSome = true
  clean : ∀ root manifest, shared.destination = some (root, manifest) → CleanRename root manifest

theorem not_holds_of_finalizes {thread : Thread} (h : thread.finalizes = true) :
    ¬thread.holds = true := by
  cases thread with
  | finishing point => exact Bool.false_ne_true
  | _ => cases h

theorem agrees_congr {thread : Thread} {left right : RecordingInner}
    (hflows : right.flowCount = left.flowCount)
    (hblobs : countBlobs right.directory = countBlobs left.directory)
    (h : thread.Agrees left) : thread.Agrees right := by
  unfold Thread.Agrees at h ⊢
  rw [hflows, hblobs]
  exact h

theorem agrees_of_not_takes {thread : Thread} {inner : RecordingInner}
    (h : thread.takes = false) : thread.Agrees inner := by
  cases thread with
  | finishing point =>
      cases point with
      | called | stored | counted | driving _ | flowsTaken | renamed | returned _ => trivial
      | flowsCounted _ | streamEventsWritten _ | websocketWritten _ | fixtureChecked _
      | blobsCounted _ | manifestWritten _ => cases h
  | _ => trivial

theorem Kept.put (h : Kept world) (hat : world.threads[index]? = some old)
    (hmoves : Moves world old new shared) : Kept (world.put index (shared, new)) := by
  have hmem : ∀ thread ∈ (world.put index (shared, new)).threads,
      thread ∈ world.threads ∨ thread = new := fun thread => List.mem_or_eq_of_mem_set
  have hold : old ∈ world.threads := List.mem_of_getElem? hat
  have hnew : new ∈ (world.put index (shared, new)).threads :=
    List.mem_of_getElem? (getElem?_set_same hat)
  -- a thread other than the one that moved is still there
  have hother : ∀ thread ∈ world.threads, thread ≠ old →
      thread ∈ (world.put index (shared, new)).threads := by
    intro thread hthread hne
    obtain ⟨place, hplace⟩ := List.getElem?_of_mem hthread
    have hplaces : place ≠ index := by
      rintro rfl
      exact hne (Option.some.inj (hplace.symm.trans hat))
    apply List.mem_of_getElem?
    rw [World.put, List.getElem?_set_ne hplaces.symm]
    exact hplace
  have hactive : (world.threads.set index new).countP Thread.active + old.active.toNat =
      world.threads.countP Thread.active + new.active.toNat := countP_set Thread.active hat
  have htakes : (world.threads.set index new).countP Thread.takes + old.takes.toNat =
      world.threads.countP Thread.takes + new.takes.toNat := countP_set Thread.takes hat
  have hcounted := hmoves.counted
  have hsingle := hmoves.single
  have hsingle' := h.single
  have hcounted' := h.counted
  refine ⟨hmoves.logged, ?_, hmoves.plain, ?_, ?_, ?_, ?_, ?_, hmoves.clean⟩
  · intro hdestination entry hentry suffix hsuffix
    have hbefore : world.destination = none := by
      cases hworld : world.destination with
      | none => rfl
      | some published =>
          have hstays := hmoves.stays (by rw [hworld]; rfl)
          have hnone : shared.destination = none := hdestination
          rw [hnone] at hstays
          cases hstays
    rcases hmoves.owned hdestination hbefore entry hentry suffix hsuffix with
      howner | ⟨hne, before, hmember, hname⟩
    · exact ⟨new, hnew, howner⟩
    · obtain ⟨thread, hthread, howner⟩ := h.owned hbefore before hmember suffix hname
      exact ⟨thread, hother thread hthread (fun heq => hne (heq ▸ howner)), howner⟩
  · show shared.inner.activeBlobs = (world.threads.set index new).countP Thread.active
    omega
  · show (world.threads.set index new).countP Thread.takes + shared.inner.flowsOpen.toNat +
      shared.destination.isSome.toNat ≤ 1
    omega
  · rintro ⟨finalizing, hfinalizing, hfinalizes⟩
    have halone : ∀ thread ∈ world.threads, thread.holds = false := by
      rcases hmem finalizing hfinalizing with hthread | rfl
      · exact h.alone ⟨finalizing, hthread, hfinalizes⟩
      · rcases hmoves.finalizes hfinalizes with holdFinalizes | hnone
        · exact h.alone ⟨old, hold, holdFinalizes⟩
        · exact hnone
    intro thread hthread
    rcases hmem thread hthread with hthread | rfl
    · exact halone thread hthread
    · cases hholds : thread.holds with
      | false => rfl
      | true =>
          rcases hmoves.holds hholds with holdHolds | hnone
          · rw [halone old hold] at holdHolds
            cases holdHolds
          · rcases hmem finalizing hfinalizing with hmember | rfl
            · rw [hnone finalizing hmember] at hfinalizes
              cases hfinalizes
            · exact absurd hholds (not_holds_of_finalizes hfinalizes)
  · intro thread hthread
    rcases hmem thread hthread with hthread | rfl
    · cases htaken : thread.takes with
      | true =>
          obtain ⟨hflows, hblobs⟩ := hmoves.frozen ⟨thread, hthread, htaken⟩
          exact agrees_congr hflows hblobs (h.agrees thread hthread)
      | false => exact agrees_of_not_takes htaken
    · exact hmoves.agrees
  · rintro ⟨thread, hthread, hlanded⟩
    rcases hmem thread hthread with hthread | rfl
    · exact hmoves.stays (h.landed ⟨thread, hthread, hlanded⟩)
    · exact hmoves.landed hlanded

/-! ### What each step does -/

/-- The blobs, the flow log and both counters are as they were. -/
structure SameStore (before after : RecordingInner) : Prop where
  blobs : after.directory.blobs = before.directory.blobs
  log : after.directory.files flowLog = before.directory.files flowLog
  flowCount : after.flowCount = before.flowCount
  activeBlobs : after.activeBlobs = before.activeBlobs

theorem SameStore.refl (inner : RecordingInner) : SameStore inner inner := ⟨rfl, rfl, rfl, rfl⟩

theorem SameStore.logged {before after : RecordingInner} (h : SameStore before after)
    (hlogged : Logged before) : Logged after := by
  obtain ⟨flows, hcount, hlog⟩ := hlogged
  exact ⟨flows, h.flowCount.trans hcount, h.log.trans hlog⟩

theorem SameStore.countBlobs {before after : RecordingInner} (h : SameStore before after) :
    countBlobs after.directory = countBlobs before.directory := by
  rw [Fixture.countBlobs, Fixture.countBlobs, h.blobs]

/-- A step that leaves the store as it is. -/
theorem moves_same (h : Kept world) {inner : RecordingInner} (hsame : SameStore world.inner inner)
    (hsuffix : new.suffix? = old.suffix?) (hactive : new.active = old.active)
    (hsingle : new.takes.toNat + inner.flowsOpen.toNat ≤
      old.takes.toNat + world.inner.flowsOpen.toNat)
    (hholds : new.holds = true → old.holds = true)
    (hfinalizes : new.finalizes = true → old.finalizes = true ∨
      ∀ thread ∈ world.threads, thread.holds = false)
    (hagrees : new.Agrees inner)
    (hlanded : new.landed = true → world.destination.isSome = true) :
    Moves world old new { world.toShared with inner } where
  logged := hsame.logged h.logged
  owned := by
    intro _ _ entry hentry suffix hname
    dsimp only at hentry
    rw [hsame.blobs] at hentry
    rw [hsuffix]
    exact (em (old.suffix? = some suffix)).imp_right fun hne => ⟨hne, entry, hentry, hname⟩
  plain := by
    dsimp only
    rw [hsame.blobs]
    exact h.plain
  counted := by
    dsimp only
    rw [hsame.activeBlobs, hactive]
  single := Nat.add_le_add_right hsingle _
  stays := id
  holds hnew := .inl (hholds hnew)
  finalizes := hfinalizes
  frozen _ := ⟨hsame.flowCount, hsame.countBlobs⟩
  agrees := hagrees
  landed := hlanded
  clean := h.clean

/-- Where a file is in hand, no `finish` has taken the log. -/
theorem Kept.not_takes (h : Kept world) (hat : world.threads[index]? = some old)
    (hholds : old.holds = true) : ¬∃ thread ∈ world.threads, thread.takes = true := by
  rintro ⟨thread, hthread, htakes⟩
  have hnone := h.alone ⟨thread, hthread, finalizes_of_takes htakes⟩ old (List.mem_of_getElem? hat)
  rw [hholds] at hnone
  cases hnone

/-- A step on the blobs by a thread that has a staging file in hand. -/
theorem moves_blobs (h : Kept world) (hat : world.threads[index]? = some old)
    (hold : old.holds = true) {blobs : List (BlobName × Bytes)}
    (howned : world.destination = none → ∀ entry ∈ blobs, ∀ suffix, entry.1 = .staging suffix →
      new.suffix? = some suffix ∨ old.suffix? ≠ some suffix ∧
        ∃ before ∈ world.inner.directory.blobs, before.1 = .staging suffix)
    (hplain : ∀ entry ∈ blobs, entry.1 ≠ .gitkeep)
    (hactive : new.active = old.active) (hnew : new.finalizes = false)
    (hlanded : new.landed = false) :
    Moves world old new { world.toShared with
      inner := { world.inner with directory := { world.inner.directory with blobs } } } where
  logged := h.logged
  owned _ hbefore := howned hbefore
  plain := hplain
  counted := by
    dsimp only
    rw [hactive]
  single := by
    have htakes : new.takes = false := by
      cases htakes : new.takes with
      | false => rfl
      | true => rw [finalizes_of_takes htakes] at hnew; cases hnew
    dsimp only
    rw [htakes]
    simp only [Bool.toNat_false]
    omega
  stays := id
  holds _ := .inl hold
  finalizes hfinalizes := by
    rw [hnew] at hfinalizes
    cases hfinalizes
  frozen htakes := absurd htakes (h.not_takes hat hold)
  agrees := by
    apply agrees_of_not_takes
    cases htakes : new.takes with
    | false => rfl
    | true => rw [finalizes_of_takes htakes] at hnew; cases hnew
  landed hnew := by
    rw [hlanded] at hnew
    cases hnew
  clean := h.clean

/-- An operation on the path of a thread's own staging file, after which only the count is left. -/
theorem kept_onPath (h : Kept world) (hat : world.threads[index]? = some old)
    (hactive : old.active = true) {blobs : List (BlobName × Bytes)}
    {change : Directory → Directory}
    (hchange : change world.inner.directory = { world.inner.directory with blobs })
    (hblobs : ∀ entry ∈ blobs, entry.1 ≠ .gitkeep ∧ ∀ suffix, entry.1 = .staging suffix →
      old.suffix? ≠ some suffix ∧ ∃ before ∈ world.inner.directory.blobs,
        before.1 = .staging suffix) :
    Kept (world.put index (Shared.onPath world.toShared change, .releasing)) := by
  apply h.put hat
  have hold : old.holds = true := holds_of_active hactive
  cases hdestination : world.destination with
  | none =>
      have hpath : Shared.onPath world.toShared change = { world.toShared with
          inner := { world.inner with directory := { world.inner.directory with blobs } } } := by
        rw [onPath_staged hdestination, hchange]
      rw [hpath]
      exact moves_blobs h hat hold
        (fun _ entry hentry suffix hname => .inr ((hblobs entry hentry).2 suffix hname))
        (fun entry hentry => (hblobs entry hentry).1) hactive.symm rfl rfl
  | some published =>
      have hsome : world.destination.isSome = true := by
        rw [hdestination]
        rfl
      have hpath : Shared.onPath world.toShared change = { world.toShared with
          inner := { world.inner with
            directory := { world.inner.directory with blobs := world.inner.directory.blobs } } } :=
        onPath_renamed hsome
      rw [hpath]
      apply moves_blobs h hat hold
      · intro hnone
        rw [hdestination] at hnone
        cases hnone
      · exact h.plain
      · exact hactive.symm
      · rfl
      · rfl

theorem drop_blobs (root : Directory) (writer : BodyWriter) :
    writer.drop root = { root with
      blobs := root.blobs.filter fun entry => entry.1 ≠ .staging writer.suffix } := rfl

theorem kept_drop (h : Kept world) (hat : world.threads[index]? = some old) {writer : BodyWriter}
    (hactive : old.active = true) (hsuffix : old.suffix? = some writer.suffix) :
    Kept (world.put index (Shared.onPath world.toShared fun root => writer.drop root,
      .releasing)) := by
  apply kept_onPath h hat hactive (drop_blobs world.inner.directory writer)
  intro entry hentry
  obtain ⟨hmem, hne⟩ := List.mem_filter.mp hentry
  rw [decide_eq_true_eq] at hne
  refine ⟨h.plain entry hmem, fun suffix hname => ⟨?_, entry, hmem, hname⟩⟩
  rw [hsuffix]
  rintro heq
  exact hne (hname.trans (congrArg BlobName.staging (Option.some.inj heq).symm))

theorem kept_rename (h : Kept world) {writer : BodyWriter}
    (hat : world.threads[index]? = some (.moving writer)) :
    Kept (world.put index (Shared.onPath world.toShared fun root =>
      renameOver root (.staging writer.suffix) (BodyWriter.target codec writer), .releasing)) := by
  refine kept_onPath h hat rfl rfl ?_
  intro entry hentry
  obtain ⟨source, hsource, rfl⟩ := List.mem_map.mp hentry
  obtain ⟨hmem, -⟩ := List.mem_filter.mp hsource
  split
  · refine ⟨(by rintro ⟨⟩), ?_⟩
    rintro suffix ⟨⟩
  · rename_i hne
    refine ⟨h.plain source hmem, fun suffix hname => ⟨?_, source, hmem, hname⟩⟩
    rintro heq
    exact hne (hname.trans (congrArg BlobName.staging (Option.some.inj heq).symm))

theorem kept_use (h : Kept world) {writer : BodyWriter}
    (hat : world.threads[index]? = some (.writing writer)) (use : Use) :
    Kept (world.put index (useWriter world.toShared writer use)) := by
  have hidle : ∀ thread : Thread, thread.suffix? = some writer.suffix → thread.active = true →
      thread.finalizes = false → thread.takes = false → thread.landed = false →
      Kept (world.put index (world.toShared, thread)) := by
    intro thread hsuffix hactive hfinalizes htakes hlanded
    apply h.put hat
    apply moves_same h (SameStore.refl world.inner) hsuffix hactive
    · rw [htakes]
      exact Nat.le_refl _
    · exact fun _ => rfl
    · intro hnew
      rw [hfinalizes] at hnew
      cases hnew
    · exact agrees_of_not_takes htakes
    · intro hnew
      rw [hlanded] at hnew
      cases hnew
  cases use with
  | finish => exact hidle (.publishing writer) rfl rfl rfl rfl rfl
  | drop => exact hidle (.dropping writer) rfl rfl rfl rfl rfl
  | write buffer =>
      rw [useWriter]
      cases hwrite : writer.write world.inner.directory buffer with
      | error error => exact hidle (.writing writer) rfl rfl rfl rfl rfl
      | ok written =>
          simp only [BodyWriter.write, ↓bind_unit_eq_ok, ensure_eq_ok, pure_eq_ok] at hwrite
          obtain ⟨-, -, rfl⟩ := hwrite
          apply h.put hat
          apply moves_blobs h hat rfl
          · intro _ entry hentry suffix hname
            obtain ⟨source, hsource, rfl⟩ := List.mem_map.mp hentry
            have hsame : source.1 = .staging suffix := by
              split at hname
              · exact hname
              · exact hname
            exact (em (writer.suffix = suffix)).imp (congrArg some) fun hne =>
              ⟨fun heq => hne (Option.some.inj heq), source, hsource, hsame⟩
          · intro entry hentry
            obtain ⟨source, hsource, rfl⟩ := List.mem_map.mp hentry
            split
            · exact h.plain source hsource
            · exact h.plain source hsource
          · rfl
          · rfl
          · rfl

/-! ### The steps of `finish` -/

theorem writeExtension_same {staged written : Staged} {extension : ExtensionDescriptor}
    {bytes log : Bytes} (hlog : staged.directory.files flowLog = some log)
    (h : staged.writeExtension extension bytes = .ok written) :
    written.directory.blobs = staged.directory.blobs ∧
      written.directory.files flowLog = staged.directory.files flowLog ∧
      written.flowCount = staged.flowCount := by
  have hregisters := writeExtension_eq_ok h
  have hpath : flowLog ≠ extension.path := by
    rintro heq
    rw [heq, hregisters.absent] at hlog
    cases hlog
  refine ⟨hregisters.blobs_eq, ?_, ?_⟩
  · rw [hregisters.next_eq]
    exact Function.update_of_ne hpath _ _
  · rw [hregisters.next_eq]

theorem streamEvents_same {inner written : RecordingInner} (hlogged : Logged inner)
    (h : inner.writeStreamEventsExtension = .ok written) :
    SameStore inner written ∧ written.flowsOpen = inner.flowsOpen := by
  obtain ⟨flows, -, hlog⟩ := hlogged
  unfold RecordingInner.writeStreamEventsExtension at h
  split at h
  · obtain rfl := Except.ok.inj h
    exact ⟨SameStore.refl _, rfl⟩
  · simp only [↓bind_unit_eq_ok, bind_eq_ok, pure_eq_ok] at h
    obtain ⟨-, -, staged, hstaged, rfl⟩ := h
    obtain ⟨hblobs, hfile, hcount⟩ := writeExtension_same hlog hstaged
    exact ⟨⟨hblobs, hfile, hcount, rfl⟩, rfl⟩

theorem websocket_same {inner written : RecordingInner} (hlogged : Logged inner)
    (h : inner.writeWebsocketExtension = .ok written) :
    SameStore inner written ∧ written.flowsOpen = inner.flowsOpen := by
  obtain ⟨flows, -, hlog⟩ := hlogged
  unfold RecordingInner.writeWebsocketExtension at h
  split at h
  · obtain rfl := Except.ok.inj h
    exact ⟨SameStore.refl _, rfl⟩
  · simp only [bind_eq_ok, pure_eq_ok] at h
    obtain ⟨transcript, -, staged, hstaged, rfl⟩ := h
    obtain ⟨hblobs, hfile, hcount⟩ := writeExtension_same hlog hstaged
    exact ⟨⟨hblobs, hfile, hcount, rfl⟩, rfl⟩

theorem manifest_same {inner written : RecordingInner} {manifest : Manifest}
    (h : writeManifestFile codec inner manifest = .ok written) :
    SameStore inner written ∧ written.flowsOpen = inner.flowsOpen := by
  simp only [writeManifestFile, Directory.createFile, ↓bind_unit_eq_ok, bind_eq_ok, ensure_eq_ok,
    pure_eq_ok] at h
  obtain ⟨root, ⟨-, rfl⟩, rfl⟩ := h
  have hfile : flowLog ≠ manifestFile := by decide
  have hlog : Function.update inner.directory.files manifestFile
      (some (codec.encodeManifest manifest ++ [newline])) flowLog =
        inner.directory.files flowLog := Function.update_of_ne hfile _ _
  exact ⟨⟨rfl, hlog, rfl, rfl⟩, rfl⟩

/-- A step of `finish` that leaves the store as it is. -/
theorem kept_finishing (inner : RecordingInner) (following : FinishPoint) (h : Kept world)
    {point : FinishPoint}
    (hat : world.threads[index]? = some (.finishing point))
    (hsame : SameStore world.inner inner)
    (hsingle : (Thread.finishing following).takes.toNat + inner.flowsOpen.toNat ≤
      (Thread.finishing point).takes.toNat + world.inner.flowsOpen.toNat)
    (hfinalizes : (Thread.finishing following).finalizes = true →
      (Thread.finishing point).finalizes = true ∨
        ∀ thread ∈ world.threads, thread.holds = false)
    (hagrees : (Thread.finishing following).Agrees inner)
    (hlanded : (Thread.finishing following).landed = true → world.destination.isSome = true) :
    Kept (world.put index ({ world.toShared with inner }, .finishing following)) :=
  h.put hat (moves_same h hsame rfl rfl hsingle (fun hnew => hnew) hfinalizes hagrees hlanded)

/-- A step of `finish` that goes on or fails. -/
theorem kept_proceed (h : Kept world) {point following : FinishPoint}
    {result : Except StoreError RecordingInner}
    (hat : world.threads[index]? = some (.finishing point))
    (hok : ∀ inner, result = .ok inner →
      Kept (world.put index ({ world.toShared with inner }, .finishing following))) :
    Kept (world.put index ((world.toShared.proceed result following).1,
      .finishing (world.toShared.proceed result following).2)) := by
  cases result with
  | ok inner => exact hok inner rfl
  | error error =>
      apply kept_finishing world.inner (.returned (.error error)) h hat (SameStore.refl world.inner)
      · exact Nat.add_le_add_right (Nat.zero_le _) _
      · rintro ⟨⟩
      · trivial
      · rintro ⟨⟩

/-- At its rename `finish` finds no staging file, and the counts it has read. -/
theorem Kept.cleanRename (h : Kept world) {manifest : Manifest}
    (hat : world.threads[index]? = some (.finishing (.manifestWritten manifest))) :
    CleanRename world.inner.directory manifest := by
  have hmem := List.mem_of_getElem? hat
  have hdestination : world.destination = none := by
    have htakes : 0 < world.threads.countP Thread.takes :=
      List.countP_pos_iff.mpr ⟨_, hmem, rfl⟩
    have hsingle := h.single
    cases hpublished : world.destination with
    | none => rfl
    | some published =>
        rw [hpublished] at hsingle
        simp only [Option.isSome_some, Bool.toNat_true] at hsingle
        omega
  have halone := h.alone ⟨_, hmem, rfl⟩
  have hstaging : ∀ entry ∈ world.inner.directory.blobs, ∀ suffix, entry.1 ≠ .staging suffix := by
    intro entry hentry suffix hname
    obtain ⟨thread, hthread, hsuffix⟩ := h.owned hdestination entry hentry suffix hname
    have hholds := holds_of_suffix hsuffix
    rw [halone thread hthread] at hholds
    cases hholds
  obtain ⟨hflows, hblobs⟩ := h.agrees _ hmem
  refine ⟨hstaging, ?_, ?_⟩
  · rw [hblobs, countBlobs, ← List.countP_eq_length_filter]
    apply List.countP_congr
    intro entry hentry
    have hplain := h.plain entry hentry
    have hstaged := hstaging entry hentry
    cases hname : entry.1 with
    | content digest => exact iff_of_true (decide_eq_true (by rintro ⟨⟩)) rfl
    | staging suffix => exact absurd hname (hstaged suffix)
    | gitkeep => exact absurd hname hplain
  · obtain ⟨flows, hcount, hlog⟩ := h.logged
    refine ⟨_, hlog, ?_⟩
    rw [hflows, hcount, records_log, lines, List.length_map]

theorem moves_renamed (h : Kept world) {manifest : Manifest}
    (hat : world.threads[index]? = some (.finishing (.manifestWritten manifest))) :
    Moves world (.finishing (.manifestWritten manifest)) (.finishing .renamed)
      { world.toShared with destination := some (world.inner.directory, manifest) } where
  logged := h.logged
  owned := by rintro ⟨⟩
  plain := h.plain
  counted := rfl
  single := by
    show 0 + world.inner.flowsOpen.toNat + 1 ≤
      1 + world.inner.flowsOpen.toNat + world.destination.isSome.toNat
    omega
  stays _ := rfl
  holds := by rintro ⟨⟩
  finalizes := by rintro ⟨⟩
  frozen _ := ⟨rfl, rfl⟩
  agrees := trivial
  landed _ := rfl
  clean := by
    rintro root renamed ⟨⟩
    exact h.cleanRename hat

theorem takes_toNat_le {point following : FinishPoint} {inner : RecordingInner}
    (htakes : (Thread.finishing following).takes = (Thread.finishing point).takes)
    (hopen : inner.flowsOpen = world.inner.flowsOpen) :
    (Thread.finishing following).takes.toNat + inner.flowsOpen.toNat ≤
      (Thread.finishing point).takes.toNat + world.inner.flowsOpen.toNat := by
  rw [htakes, hopen]

theorem kept_finishStep (h : Kept world) {point : FinishPoint} {following : Shared × FinishPoint}
    (hat : world.threads[index]? = some (.finishing point))
    (horderly : Orderly world (.advance index))
    (hstep : finishStep codec false world.toShared point = some following) :
    Kept (world.put index (following.1, .finishing following.2)) := by
  have hmem := List.mem_of_getElem? hat
  have hlandedOld := fun hlanded => h.landed ⟨_, hmem, hlanded⟩
  cases point with
  | called =>
      obtain rfl := Option.some.inj hstep
      apply kept_finishing world.inner.requestShutdown .stored h hat ⟨rfl, rfl, rfl, rfl⟩
        (takes_toNat_le rfl rfl)
      · rintro ⟨⟩
      · trivial
      · rintro ⟨⟩
  | stored =>
      obtain rfl := Option.some.inj hstep
      apply kept_proceed h hat
      intro inner hinner
      simp only [↓bind_unit_eq_ok, ensure_eq_ok, pure_eq_ok] at hinner
      obtain ⟨hzero, rfl⟩ := hinner
      apply kept_finishing world.inner .counted h hat (SameStore.refl _) (takes_toNat_le rfl rfl)
      · -- nothing is counted, and nothing is created that is still to be counted
        intro _
        refine .inr fun thread hthread => ?_
        obtain ⟨-, hloads⟩ := horderly _ hat
        have hnone : world.threads.countP Thread.active = 0 := h.counted.symm.trans hzero
        have hinactive : ¬thread.active = true := List.countP_eq_zero.mp hnone thread hthread
        cases thread with
        | created suffix => cases hloads rfl hzero _ hthread
        | _ => exact Bool.eq_false_iff.mpr hinactive
      · trivial
      · rintro ⟨⟩
  | counted =>
      obtain rfl := Option.some.inj hstep
      apply kept_finishing (takeFinalizers world.inner) (.driving world.inner.websocketFinalizers)
        h hat ⟨rfl, rfl, rfl, rfl⟩ (takes_toNat_le rfl rfl)
      · exact fun _ => .inl rfl
      · trivial
      · rintro ⟨⟩
  | driving pending =>
      cases pending with
      | nil =>
          obtain rfl := Option.some.inj hstep
          apply kept_proceed h hat
          intro inner hinner
          obtain ⟨hopen, rfl⟩ := takeFlows_eq_ok.mp hinner
          apply kept_finishing { world.inner with flowsOpen := false } .flowsTaken
            h hat ⟨rfl, rfl, rfl, rfl⟩
          · rw [hopen]
            exact Nat.le_refl 1
          · exact fun _ => .inl rfl
          · trivial
          · rintro ⟨⟩
      | cons finalizer rest =>
          simp only [finishStep, Option.ite_none_right_eq_some, Option.some.injEq] at hstep
          obtain ⟨-, rfl⟩ := hstep
          apply kept_finishing world.inner (.driving rest) h hat (SameStore.refl _)
            (takes_toNat_le rfl rfl)
          · exact fun _ => .inl rfl
          · trivial
          · rintro ⟨⟩
  | flowsTaken =>
      obtain rfl := Option.some.inj hstep
      apply kept_finishing world.inner (.flowsCounted world.inner.flowCount)
        h hat (SameStore.refl _) (takes_toNat_le rfl rfl)
      · exact fun _ => .inl rfl
      · rfl
      · rintro ⟨⟩
  | flowsCounted flowCount =>
      obtain rfl := Option.some.inj hstep
      have hagrees := h.agrees _ hmem
      apply kept_proceed h hat
      intro inner hinner
      obtain ⟨hsame, hopen⟩ := streamEvents_same h.logged hinner
      apply kept_finishing inner (.streamEventsWritten flowCount) h hat hsame
        (takes_toNat_le rfl hopen)
      · exact fun _ => .inl rfl
      · exact Eq.trans hagrees hsame.flowCount.symm
      · rintro ⟨⟩
  | streamEventsWritten flowCount =>
      simp only [finishStep, Option.ite_none_left_eq_some, Option.some.injEq] at hstep
      obtain ⟨-, rfl⟩ := hstep
      have hagrees := h.agrees _ hmem
      apply kept_proceed h hat
      intro inner hinner
      obtain ⟨hsame, hopen⟩ := websocket_same h.logged hinner
      apply kept_finishing inner (.websocketWritten flowCount) h hat hsame
        (takes_toNat_le rfl hopen)
      · exact fun _ => .inl rfl
      · exact Eq.trans hagrees hsame.flowCount.symm
      · rintro ⟨⟩
  | websocketWritten flowCount =>
      obtain rfl := Option.some.inj hstep
      have hagrees := h.agrees _ hmem
      apply kept_proceed h hat
      intro inner hinner
      simp only [bind_eq_ok, pure_eq_ok] at hinner
      obtain ⟨_, -, rfl⟩ := hinner
      apply kept_finishing world.inner (.fixtureChecked flowCount) h hat (SameStore.refl _)
        (takes_toNat_le rfl rfl)
      · exact fun _ => .inl rfl
      · exact hagrees
      · rintro ⟨⟩
  | fixtureChecked flowCount =>
      obtain rfl := Option.some.inj hstep
      apply kept_finishing world.inner (.blobsCounted (manifestOf world.inner flowCount))
        h hat (SameStore.refl _) (takes_toNat_le rfl rfl)
      · exact fun _ => .inl rfl
      · exact ⟨h.agrees _ hmem, rfl⟩
      · rintro ⟨⟩
  | blobsCounted manifest =>
      obtain rfl := Option.some.inj hstep
      obtain ⟨hflows, hblobs⟩ := h.agrees _ hmem
      apply kept_proceed h hat
      intro inner hinner
      obtain ⟨hsame, hopen⟩ := manifest_same hinner
      apply kept_finishing inner (.manifestWritten manifest) h hat hsame (takes_toNat_le rfl hopen)
      · exact fun _ => .inl rfl
      · exact ⟨hflows.trans hsame.flowCount.symm, hblobs.trans hsame.countBlobs.symm⟩
      · rintro ⟨⟩
  | manifestWritten manifest =>
      obtain rfl := Option.some.inj hstep
      apply h.put hat
      exact moves_renamed h hat
  | renamed =>
      obtain rfl := Option.some.inj hstep
      apply kept_finishing world.inner
        (.returned (Session.open codec world.inner.directory world.inner.limits)) h hat
        (SameStore.refl _) (takes_toNat_le rfl rfl)
      · rintro ⟨⟩
      · trivial
      · exact fun _ => hlandedOld rfl
  | returned result => cases hstep

/-! ### The steps of the other operations -/

/-- A staging file is created while no `finish` is between its count and its rename. -/
theorem moves_created (h : Kept world)
    (hnone : ∀ thread ∈ world.threads, thread.finalizes = false) :
    Moves world .admitted (.created world.inner.nextSuffix)
      { world.toShared with
        inner := { world.inner with toStaged := world.inner.toStaged.createStagingFile.1 } } where
  logged := h.logged
  owned := by
    intro _ _ entry hentry suffix hname
    rcases List.mem_cons.mp hentry with rfl | hmem
    · injection hname with hsuffix
      exact .inl (congrArg some hsuffix)
    · exact .inr ⟨(by rintro ⟨⟩), entry, hmem, hname⟩
  plain := by
    intro entry hentry
    rcases List.mem_cons.mp hentry with rfl | hmem
    · rintro ⟨⟩
    · exact h.plain entry hmem
  counted := rfl
  single := Nat.le_refl _
  stays := id
  holds _ := .inr hnone
  finalizes := by rintro ⟨⟩
  frozen := by
    rintro ⟨thread, hthread, htakes⟩
    have hfinalizes := finalizes_of_takes htakes
    rw [hnone thread hthread] at hfinalizes
    cases hfinalizes
  agrees := trivial
  landed := by rintro ⟨⟩
  clean := h.clean

theorem moves_reserved (h : Kept world) (suffix : Nat) :
    Moves world (.created suffix)
      (.writing (BodyWriter.open suffix world.inner.limits.maxBlobBytes))
      { world.toShared with inner := world.inner.reserveBlob } where
  logged := h.logged
  owned _ _ entry hentry other hname :=
    (em (some suffix = some other)).imp_right fun hne => ⟨hne, entry, hentry, hname⟩
  plain := h.plain
  counted := rfl
  single := Nat.le_refl _
  stays := id
  holds _ := .inl rfl
  finalizes := by rintro ⟨⟩
  frozen _ := ⟨rfl, rfl⟩
  agrees := trivial
  landed := by rintro ⟨⟩
  clean := h.clean

theorem moves_released (h : Kept world) (hat : world.threads[index]? = some .releasing) :
    Moves world .releasing .ended
      { world.toShared with inner := world.inner.releaseBlob } where
  logged := h.logged
  owned _ _ entry hentry _ hname := .inr ⟨(by rintro ⟨⟩), entry, hentry, hname⟩
  plain := h.plain
  counted := by
    have hpositive : 0 < world.threads.countP Thread.active :=
      List.countP_pos_iff.mpr ⟨_, List.mem_of_getElem? hat, rfl⟩
    have hcounted := h.counted
    show world.inner.activeBlobs - 1 + 1 = world.inner.activeBlobs + 0
    omega
  single := Nat.le_refl _
  stays := id
  holds := by rintro ⟨⟩
  finalizes := by rintro ⟨⟩
  frozen _ := ⟨rfl, rfl⟩
  agrees := trivial
  landed := by rintro ⟨⟩
  clean := h.clean

theorem Logged.writeFlow {inner : RecordingInner} (h : Logged inner) (flow : Flow)
    (nextTotal : Nat) :
    Logged { inner with toStaged := inner.toStaged.writeFlow flow nextTotal } := by
  obtain ⟨flows, hcount, hlog⟩ := h
  refine ⟨flows ++ [flow], ?_, ?_⟩
  · rw [List.length_append, ← hcount]
    rfl
  · show (inner.directory.extendFile flowLog (flow.encode ++ [newline])).files flowLog = _
    rw [List.map_append, written_append, List.map_singleton, written_singleton,
      Directory.extendFile]
    dsimp only
    rw [Function.update_self, hlog]
    rfl

/-- A flow is appended only while no `finish` has taken the log. -/
theorem moves_appended (h : Kept world) {flow : Flow} {inner : RecordingInner}
    (happended : world.inner.appendFlowLocked flow = .ok inner) :
    Moves world (.appendChecked flow) .ended { world.toShared with inner } := by
  simp only [RecordingInner.appendFlowLocked, ↓bind_unit_eq_ok, ensure_eq_ok, pure_eq_ok]
    at happended
  obtain ⟨hopen, -, -, -, rfl⟩ := happended
  refine ⟨h.logged.writeFlow flow _, ?_, h.plain, rfl, Nat.le_refl _, id, ?_, ?_, ?_, trivial, ?_,
    h.clean⟩
  · exact fun _ _ entry hentry _ hname => .inr ⟨(by rintro ⟨⟩), entry, hentry, hname⟩
  · rintro ⟨⟩
  · rintro ⟨⟩
  · rintro ⟨thread, hthread, htakes⟩
    have hpositive : 0 < world.threads.countP Thread.takes :=
      List.countP_pos_iff.mpr ⟨thread, hthread, htakes⟩
    have hsingle := h.single
    rw [hopen, Bool.toNat_true] at hsingle
    omega
  · rintro ⟨⟩

/-- A step by which a thread only goes on to its next one. -/
theorem kept_idle (h : Kept world) (hat : world.threads[index]? = some old)
    (hsuffix : new.suffix? = old.suffix?) (hactive : new.active = old.active)
    (hholds : new.holds = old.holds) (hfinalizes : new.finalizes = false)
    (hlanded : new.landed = false) : Kept (world.put index (world.toShared, new)) := by
  have htakes : new.takes = false := by
    cases htaken : new.takes with
    | false => rfl
    | true =>
        rw [finalizes_of_takes htaken] at hfinalizes
        cases hfinalizes
  apply h.put hat
  apply moves_same h (SameStore.refl world.inner) hsuffix hactive
  · rw [htakes]
    exact Nat.add_le_add_right (Nat.zero_le _) _
  · rw [hholds]
    exact id
  · rw [hfinalizes]
    rintro ⟨⟩
  · exact agrees_of_not_takes htakes
  · rw [hlanded]
    rintro ⟨⟩

theorem kept_advance (h : Kept world) {following : Shared × Thread}
    (hat : world.threads[index]? = some old) (horderly : Orderly world (.advance index))
    (hstep : advanceThread codec world.toShared old = some following) :
    Kept (world.put index following) := by
  cases old with
  | beginning =>
      rw [advanceThread] at hstep
      split at hstep
      · obtain rfl := Option.some.inj hstep
        exact kept_idle h hat rfl rfl rfl rfl rfl
      · obtain rfl := Option.some.inj hstep
        exact kept_idle h hat rfl rfl rfl rfl rfl
  | admitted =>
      rw [advanceThread] at hstep
      split at hstep
      · obtain rfl := Option.some.inj hstep
        exact kept_idle h hat rfl rfl rfl rfl rfl
      · rename_i hdestination
        obtain rfl := Option.some.inj hstep
        obtain ⟨hcreates, -⟩ := horderly _ hat
        exact h.put hat (moves_created h (hcreates rfl hdestination))
  | created suffix =>
      obtain rfl := Option.some.inj hstep
      exact h.put hat (moves_reserved h suffix)
  | writing writer => cases hstep
  | publishing writer =>
      rw [advanceThread] at hstep
      split at hstep
      · obtain rfl := Option.some.inj hstep
        exact kept_drop h hat rfl rfl
      · split at hstep
        · obtain rfl := Option.some.inj hstep
          exact kept_idle h hat rfl rfl rfl rfl rfl
        · obtain rfl := Option.some.inj hstep
          exact kept_idle h hat rfl rfl rfl rfl rfl
  | replacing writer =>
      obtain rfl := Option.some.inj hstep
      exact kept_drop h hat rfl rfl
  | moving writer =>
      obtain rfl := Option.some.inj hstep
      exact kept_rename h hat
  | dropping writer =>
      obtain rfl := Option.some.inj hstep
      exact kept_drop h hat rfl rfl
  | releasing =>
      obtain rfl := Option.some.inj hstep
      exact h.put hat (moves_released h hat)
  | appending flow =>
      rw [advanceThread] at hstep
      split at hstep
      · obtain rfl := Option.some.inj hstep
        exact kept_idle h hat rfl rfl rfl rfl rfl
      · obtain rfl := Option.some.inj hstep
        exact kept_idle h hat rfl rfl rfl rfl rfl
  | appendChecked flow =>
      rw [advanceThread] at hstep
      split at hstep
      · rename_i inner happended
        obtain rfl := Option.some.inj hstep
        exact h.put hat (moves_appended h happended)
      · obtain rfl := Option.some.inj hstep
        exact kept_idle h hat rfl rfl rfl rfl rfl
  | stopping =>
      obtain rfl := Option.some.inj hstep
      have hsame : SameStore world.inner world.inner.requestShutdown := ⟨rfl, rfl, rfl, rfl⟩
      have hsuffix : Thread.ended.suffix? = Thread.stopping.suffix? := rfl
      have hactive : Thread.ended.active = Thread.stopping.active := rfl
      apply h.put hat
      apply moves_same h hsame hsuffix hactive (Nat.le_refl _)
      · rintro ⟨⟩
      · rintro ⟨⟩
      · trivial
      · rintro ⟨⟩
  | finishing point =>
      obtain ⟨next, hnext, rfl⟩ := Option.map_eq_some_iff.mp hstep
      exact kept_finishStep h hat horderly hnext
  | ended => cases hstep

/-- A call that has taken no step changes nothing. -/
theorem kept_call (h : Kept world) (call : Call) :
    Kept { world with threads := world.threads ++ [call.start] } := by
  have hmem : ∀ thread ∈ world.threads ++ [call.start],
      thread ∈ world.threads ∨ thread = call.start := fun thread hthread =>
    (List.mem_append.mp hthread).imp_right List.mem_singleton.mp
  have hactive : call.start.active = false := by cases call <;> rfl
  have htakes : call.start.takes = false := by cases call <;> rfl
  have hholds : call.start.holds = false := by cases call <;> rfl
  have hfinalizes : call.start.finalizes = false := by cases call <;> rfl
  have hlanded : call.start.landed = false := by cases call <;> rfl
  refine ⟨h.logged, ?_, h.plain, ?_, ?_, ?_, ?_, ?_, h.clean⟩
  · intro hdestination entry hentry suffix hname
    obtain ⟨thread, hthread, howner⟩ := h.owned hdestination entry hentry suffix hname
    exact ⟨thread, List.mem_append_left _ hthread, howner⟩
  · show world.inner.activeBlobs = (world.threads ++ [call.start]).countP Thread.active
    rw [List.countP_append, List.countP_singleton, hactive]
    exact h.counted
  · show (world.threads ++ [call.start]).countP Thread.takes + world.inner.flowsOpen.toNat +
      world.destination.isSome.toNat ≤ 1
    rw [List.countP_append, List.countP_singleton, htakes]
    exact h.single
  · rintro ⟨finalizing, hfinalizing, hfinalized⟩ thread hthread
    rcases hmem finalizing hfinalizing with hmember | rfl
    · rcases hmem thread hthread with hthread | rfl
      · exact h.alone ⟨finalizing, hmember, hfinalized⟩ thread hthread
      · exact hholds
    · rw [hfinalizes] at hfinalized
      cases hfinalized
  · intro thread hthread
    rcases hmem thread hthread with hthread | rfl
    · exact h.agrees thread hthread
    · exact agrees_of_not_takes htakes
  · rintro ⟨thread, hthread, hland⟩
    rcases hmem thread hthread with hthread | rfl
    · exact h.landed ⟨thread, hthread, hland⟩
    · rw [hlanded] at hland
      cases hland

theorem kept_step (h : Kept world) {action : Action} (horderly : Orderly world action)
    (hstep : step codec world action = some next) : Kept next := by
  cases action with
  | call call =>
      obtain rfl := Option.some.inj hstep
      exact kept_call h call
  | advance index =>
      simp only [step, Option.bind_eq_bind, Option.bind_eq_some_iff, Option.pure_def,
        Option.some.injEq] at hstep
      obtain ⟨thread, hat, following, hfollowing, rfl⟩ := hstep
      exact kept_advance h hat horderly hfollowing
  | use index use =>
      rw [step] at hstep
      split at hstep
      · rename_i writer hat
        obtain rfl := Option.some.inj hstep
        exact kept_use h hat use
      · cases hstep

theorem kept_run {inner : RecordingInner} {metadata : SessionMetadata} {limits : StoreLimits}
    {actions : List Action} {final : World}
    (hcreate : RecordingInner.create false metadata limits = .ok inner)
    (hrun : run (step codec) (opened inner) actions = some final)
    (horderly : Throughout (step codec) Orderly (opened inner) actions) : Kept final :=
  run_invariant (fun _ _ _ h hallowed hstep => kept_step h hallowed hstep) hrun horderly
    (kept_opened hcreate)

end

/-- In an orderly run a `finish` that succeeds has renamed a directory without staging files, and
both counts of the manifest are of what is in it. -/
theorem finish_clean {codec : Codec} {metadata : SessionMetadata} {limits : StoreLimits}
    {inner : RecordingInner} {actions : List Action} {final : World} {session : Session}
    (hcreate : RecordingInner.create false metadata limits = .ok inner)
    (hrun : run (step codec) (opened inner) actions = some final)
    (horderly : Throughout (step codec) Orderly (opened inner) actions)
    (hfinish : .finishing (.returned (.ok session)) ∈ final.threads) :
    ∃ root manifest, final.destination = some (root, manifest) ∧ CleanRename root manifest := by
  have hkept := kept_run hcreate hrun horderly
  have hrenamed : final.destination.isSome = true := hkept.landed ⟨_, hfinish, rfl⟩
  obtain ⟨⟨root, manifest⟩, hdestination⟩ := Option.isSome_iff_exists.mp hrenamed
  exact ⟨root, manifest, hdestination, hkept.clean root manifest hdestination⟩

/-- The thread is a `finish` that has returned a session. -/
def Thread.succeeds : Thread → Bool
  | .finishing (.returned (.ok _)) => true
  | _ => false

theorem session_of_succeeds {threads : List Thread} (h : threads.any Thread.succeeds = true) :
    ∃ session, .finishing (.returned (.ok session)) ∈ threads := by
  obtain ⟨thread, hthread, hsucceeds⟩ := List.any_eq_true.mp h
  unfold Thread.succeeds at hsucceeds
  split at hsucceeds
  · exact ⟨_, hthread⟩
  · cases hsucceeds

/-- One clone begins a body and drops it, another appends the flow, and then a third finishes. -/
def drainedActions : List Action :=
  [.call .beginBlob, .advance 0, .call (.appendFlow sampleFlow), .advance 0, .advance 1,
    .advance 0, .use 0 .drop, .advance 1, .advance 0, .advance 0, .call .finish] ++
    List.replicate 12 (.advance 2)

theorem drained_finish_clean :
    ∃ final session root manifest,
      run (step (sampleCodec 1)) (opened sampleSession) drainedActions = some final ∧
      .finishing (.returned (.ok session)) ∈ final.threads ∧
      final.destination = some (root, manifest) ∧ CleanRename root manifest := by
  have hruns : (run (step (sampleCodec 1)) (opened sampleSession) drainedActions).any
      (fun final => final.threads.any Thread.succeeds) = true := by
    decide +kernel
  obtain ⟨final, hrun, hsucceeds⟩ := (Option.any_eq_true _ _).mp hruns
  obtain ⟨session, hfinish⟩ := session_of_succeeds hsucceeds
  have horderly : Throughout (step (sampleCodec 1)) Orderly (opened sampleSession)
      drainedActions := by
    decide +kernel
  have hcreate : RecordingInner.create false sampleMetadata StoreLimits.default =
      .ok sampleSession := rfl
  obtain ⟨root, manifest, hrenamed, hclean⟩ := finish_clean hcreate hrun horderly hfinish
  exact ⟨final, session, root, manifest, hrun, hfinish, hrenamed, hclean⟩

/-- One clone creates its staging file, `finish` loads the count, and only then is the file
counted. -/
def lateCountActions : List Action :=
  [.call .beginBlob, .advance 0, .call .finish, .advance 1, .advance 0, .advance 1, .advance 0] ++
    List.replicate 10 (.advance 1)

def lateCountManifest : Manifest := { sampleManifest 0 with blobCount := 1 }

def lateCountText : Bytes :=
  (sampleManifestText 0).take ((sampleManifestText 0).length - 3) ++ utf8 "1\n\x7d".toList

def lateCountCodec : Codec :=
  { sampleCodec 0 with
    encodeManifest := fun _ => lateCountText
    decodeManifest := fun bytes =>
      if bytes = lateCountText ++ [newline] then .ok lateCountManifest
      else .error "unknown manifest" }

/-- The staging file is renamed with the directory, and the manifest counts it. -/
def World.publishesStaging (world : World) : Bool :=
  world.threads.any Thread.succeeds && world.destination.any fun renamed =>
    renamed.1.blobs.any (fun entry => entry.1 = .staging 0) && decide (renamed.2.blobCount = 1)

theorem finish_publishes_staging :
    ∃ final session root manifest,
      run (step lateCountCodec) (opened sampleSession) lateCountActions = some final ∧
      .finishing (.returned (.ok session)) ∈ final.threads ∧
      final.destination = some (root, manifest) ∧
      (∃ entry ∈ root.blobs, entry.1 = .staging 0) ∧ ¬CleanRename root manifest := by
  have hruns : (run (step lateCountCodec) (opened sampleSession) lateCountActions).any
      World.publishesStaging = true := by
    decide +kernel
  obtain ⟨final, hrun, hpublishes⟩ := (Option.any_eq_true _ _).mp hruns
  obtain ⟨hsucceeds, hrenamed⟩ := (Bool.and_eq_true_iff).mp hpublishes
  obtain ⟨session, hfinish⟩ := session_of_succeeds hsucceeds
  obtain ⟨⟨root, manifest⟩, hdestination, hstaged⟩ := (Option.any_eq_true _ _).mp hrenamed
  obtain ⟨hblobs, -⟩ := (Bool.and_eq_true_iff).mp hstaged
  obtain ⟨entry, hentry, hname⟩ := List.any_eq_true.mp hblobs
  have hstaging : entry.1 = .staging 0 := of_decide_eq_true hname
  exact ⟨final, session, root, manifest, hrun, hfinish, hdestination, ⟨entry, hentry, hstaging⟩,
    fun hclean => hclean.staging entry hentry 0 hstaging⟩

end EggReplay.Store.CloneInterleavings
