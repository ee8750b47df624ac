import EggReplay.Cli.FixtureReplacement
import EggReplay.Library.TransitionSystem

/-!
Replacements of one fixture one after another, each of which may fail or stop at any call, with
recoveries between them, and what a recovery leaves at the target.
-/

namespace EggReplay.Cli.CrashConsistency

open EggReplay.Library.Text
open EggReplay.Library.Directories
open EggReplay.Library.TransitionSystem
open EggReplay.Cli.FixtureReplacement

variable {σ : Type}

inductive Event (σ : Type) where
  | replace (replacement : Replacement σ)
  | recover (fates : RecoveryFates)

/-- The directory, the session that the target stood for last, and of the most recent
replacement the session before it, the session that it publishes, and its nonce. -/
structure History (σ : Type) where
  directory : Directory σ
  held : Option σ
  old : Option σ
  new : Option σ
  nonce : Nat

def start (opens : σ → Bool) (target : FixturePath) (directory : Directory σ) : History σ where
  directory := directory
  held := recovered opens target.name directory
  old := recovered opens target.name directory
  new := recovered opens target.name directory
  nonce := 0

/-- Nonces do not decrease from one replacement to the next. -/
def step (opens : σ → Bool) (target : FixturePath) (history : History σ) :
    Event σ → Option (History σ)
  | .replace replacement =>
      if history.nonce ≤ replacement.nonce then
        let directory := (replacement.apply target history.directory).1
        some
          { directory := directory
            held := (directory.lookup target.name).or history.held
            old := history.held
            new := some replacement.session
            nonce := replacement.nonce }
      else none
  | .recover fates =>
      let directory := (recoverFixtureTransactionally opens fates target history.directory).1
      some
        { history with
          directory := directory
          held := (directory.lookup target.name).or history.held }

/-- What a recovery owes after the most recent replacement. -/
def Consistent (opens : σ → Bool) (target : FixturePath) (history : History σ) : Prop :=
  ((recoverFixtureTransactionally opens unhindered target history.directory).1.lookup
        target.name = history.old ∨
      (recoverFixtureTransactionally opens unhindered target history.directory).1.lookup
        target.name = history.new) ∧
    ∀ fates, target.name ∈ history.directory →
      (recoverFixtureTransactionally opens fates target history.directory).1 = history.directory

/-- Where a replacement moves the old session away and stops, this session opens and no backup
that opens has a greater name. -/
def BackupFoundFirst (opens : σ → Bool) (target : FixturePath) (history : History σ) :
    Event σ → Prop
  | .recover _ => True
  | .replace replacement =>
      Strands replacement.fates →
        ∀ session, history.directory.lookup target.name = some session →
          (replacement.backup target).name ∉ history.directory →
            opens session = true ∧
              ∀ entry ∈ validBackups opens target.name history.directory,
                entry ≤ (replacement.backup target).name

variable {opens : σ → Bool} {target : FixturePath} {history next : History σ} {event : Event σ}
  {replacement : Replacement σ} {directory : Directory σ}

/-- What a recovery would restore is the session that the target stood for last, and that is
one of the two sessions of the most recent replacement. -/
structure Settled (opens : σ → Bool) (target : FixturePath) (history : History σ) : Prop where
  recovers : recovered opens target.name history.directory = history.held
  latest : history.held = history.old ∨ history.held = history.new

theorem settled_start (opens : σ → Bool) (target : FixturePath) (directory : Directory σ) :
    Settled opens target (start opens target directory) where
  recovers := rfl
  latest := .inl rfl

theorem recovered_or {held : Option σ} (h : recovered opens target.name directory = held) :
    recovered opens target.name directory = (directory.lookup target.name).or held := by
  cases hlookup : directory.lookup target.name with
  | none => exact h
  | some session => exact recovered_of_lookup hlookup

theorem mem_validBackups_stage {entry : String} :
    entry ∈ validBackups opens target.name (replacement.stage target directory) ↔
      entry ∈ validBackups opens target.name directory := by
  rw [validBackups_congr]
  intro entry hentry
  exact lookup_stage_of_ne (ne_staged_of_isBackup hentry)

/-- A stranded session is the one that a recovery finds. -/
theorem recovered_of_stranded {after : Directory σ} {backup : String} {old : σ}
    (hname : isBackup target.name backup = true) (hmissing : after.lookup target.name = none)
    (hbackup : after.lookup backup = some old) (hopens : opens old = true)
    (hothers : ∀ entry, entry ≠ target.name → entry ≠ backup →
      after.lookup entry = directory.lookup entry)
    (hgreatest : ∀ entry ∈ validBackups opens target.name directory, entry ≤ backup) :
    recovered opens target.name after = some old := by
  rw [← hbackup]
  apply recovered_of_isGreatest hmissing
  refine ⟨⟨hname, entryOpens_iff.mpr ⟨old, hbackup, hopens⟩⟩, ?_⟩
  rintro entry ⟨hentry, hvalid⟩
  rcases eq_or_ne entry backup with rfl | hne
  · exact le_refl entry
  · apply hgreatest entry
    refine ⟨hentry, ?_⟩
    rw [entryOpens, ← hothers entry (ne_target_of_isBackup hentry) hne]
    exact hvalid

/-- What one replacement leaves to be recovered: the session before it or its own. -/
theorem recovered_apply (hfound : BackupFoundFirst opens target history (.replace replacement))
    (h : recovered opens target.name history.directory = history.held) :
    recovered opens target.name (replacement.apply target history.directory).1 = history.held ∨
      (replacement.apply target history.directory).1.lookup target.name =
        some replacement.session := by
  cases replacement_cases replacement target history.directory with
  | kept hkept =>
      left
      rw [← h]
      apply recovered_congr
      · rw [hkept,
          lookup_stage_of_ne (staged_ne_target replacement target).symm]
      · intro entry hentry
        rw [hkept,
          lookup_stage_of_ne (ne_staged_of_isBackup hentry)]
  | published hpublished _ => exact .inr hpublished
  | stranded old hstrands hold hfree hmissing hbackup hothers _ =>
      left
      rw [lookup_stage_of_ne (staged_ne_target replacement target).symm] at hold
      rw [lookup_stage_of_ne (staged_ne_backup replacement target).symm,
        AList.lookup_eq_none] at hfree
      obtain ⟨hopens, hgreatest⟩ := hfound hstrands old hold hfree
      rw [← h, recovered_of_lookup hold]
      apply recovered_of_stranded (isBackup_siblingName target.name _ _) hmissing hbackup hopens
        hothers
      intro entry hentry
      exact hgreatest entry (mem_validBackups_stage.mp hentry)

theorem settled_step (h : Settled opens target history)
    (hfound : BackupFoundFirst opens target history event)
    (hstep : step opens target history event = some next) : Settled opens target next := by
  cases event with
  | replace replacement =>
      rw [step, Option.ite_none_right_eq_some, Option.some.injEq] at hstep
      obtain ⟨-, rfl⟩ := hstep
      rcases recovered_apply hfound h.recovers with hheld | hpublished
      · refine ⟨recovered_or hheld, .inl ?_⟩
        rw [← recovered_or hheld, hheld]
      · refine ⟨?_, .inr ?_⟩
        · rw [recovered_of_lookup hpublished, hpublished]
          rfl
        · dsimp only
          rw [hpublished]
          rfl
  | recover fates =>
      rw [step, Option.some.injEq] at hstep
      subst hstep
      have hrecovers : recovered opens target.name
          (recoverFixtureTransactionally opens fates target history.directory).1 =
            history.held := by
        rcases recoverFixtureTransactionally_cases opens fates target history.directory with
          hkept | ⟨session, hsession, hlookup⟩
        · rw [hkept, h.recovers]
        · rw [recovered_of_lookup hlookup, ← hsession, h.recovers]
      refine ⟨recovered_or hrecovers, ?_⟩
      dsimp only
      rw [← recovered_or hrecovers, hrecovers]
      exact h.latest

/-- Over every history of replacements that fail or stop at any call, a recovery leaves the old
or the new session of the most recent one. -/
theorem crash_consistent {events : List (Event σ)} {final : History σ}
    (hrun : run (step opens target) (start opens target directory) events = some final)
    (hfound : Throughout (step opens target) (BackupFoundFirst opens target)
      (start opens target directory) events) :
    Consistent opens target final := by
  have hsettled : Settled opens target final :=
    run_invariant (fun _ _ _ => settled_step) hrun hfound (settled_start opens target directory)
  refine ⟨?_, ?_⟩
  · rw [lookup_recoverFixtureTransactionally, hsettled.recovers]
    exact hsettled.latest
  · intro fates hpresent
    rw [recoverFixtureTransactionally_of_mem hpresent]

def exampleTarget : FixturePath where
  lead := "fixtures/"
  name := "a.eggr"

def exampleDirectory : Directory String := (∅ : Directory String).insert "a.eggr" "A"

/-- The removal of the backup leaves it, or succeeds. -/
def replaceByB (removal : Removal String) : Event String :=
  .replace
    { label := .rerecord
      pid := 9
      stagedNonce := 99
      nonce := 100
      session := "B"
      fates := { stash := .succeeds, publish := .succeeds, restore := .succeeds, removal } }

/-- The process stops after the old session was moved away. -/
def stopBeforeC : Event String :=
  .replace
    { label := .rerecord
      pid := 10
      stagedNonce := 199
      nonce := 200
      session := "C"
      fates :=
        { stash := .succeeds, publish := .crashes, restore := .succeeds, removal := .succeeds } }

/-- A process id of two digits sorts before one digit, so that an older backup is restored. -/
theorem older_backup_restored :
    ¬ ∀ (opens : String → Bool) (target : FixturePath) (directory : Directory String)
      (events : List (Event String)) (final : History String),
      run (step opens target) (start opens target directory) events = some final →
        Consistent opens target final := by
  intro h
  have hrun : (run (step (fun _ => true) exampleTarget)
      (start (fun _ => true) exampleTarget exampleDirectory)
      [replaceByB (.fails "Permission denied (os error 13)" (some "A")), stopBeforeC]).any
        (fun final =>
          decide ((recoverFixtureTransactionally (fun _ => true) unhindered exampleTarget
            final.directory).1.lookup exampleTarget.name = some "A" ∧
              final.old = some "B" ∧ final.new = some "C")) = true := by decide
  obtain ⟨final, hfinal, hrestored⟩ := (Option.any_eq_true _ _).mp hrun
  obtain ⟨hlookup, hold, hnew⟩ := of_decide_eq_true hrestored
  rcases (h _ _ _ _ final hfinal).1 with heq | heq
  · rw [hlookup, hold] at heq
    exact absurd heq (by decide)
  · rw [hlookup, hnew] at heq
    exact absurd heq (by decide)

theorem only_backup_restored :
    ∃ final, run (step (fun _ => true) exampleTarget)
        (start (fun _ => true) exampleTarget exampleDirectory)
        [replaceByB .succeeds, stopBeforeC] = some final ∧
      Consistent (fun _ => true) exampleTarget final := by
  have hfirst : (step (fun _ => true) exampleTarget
      (start (fun _ => true) exampleTarget exampleDirectory) (replaceByB .succeeds)).any
        (fun next => decide (lastBackup (fun _ => true) exampleTarget.name next.directory = none ∧
          (step (fun _ => true) exampleTarget next stopBeforeC).isSome = true)) = true := by
    decide
  obtain ⟨next, hnext, hnone⟩ := (Option.any_eq_true _ _).mp hfirst
  obtain ⟨hlast, hsecond⟩ := of_decide_eq_true hnone
  obtain ⟨final, hfinal⟩ := Option.isSome_iff_exists.mp hsecond
  have hrun : run (step (fun _ => true) exampleTarget)
      (start (fun _ => true) exampleTarget exampleDirectory)
      [replaceByB .succeeds, stopBeforeC] = some final :=
    run_cons_eq_some.mpr ⟨next, hnext, run_cons_eq_some.mpr ⟨final, hfinal, rfl⟩⟩
  refine ⟨final, hrun, crash_consistent hrun ?_⟩
  rw [throughout_cons hnext, throughout_cons hfinal]
  refine ⟨?_, ?_, trivial⟩
  · rintro ⟨-, hpublish, -⟩
    exact absurd rfl hpublish
  · intro _ _ _ _
    refine ⟨rfl, ?_⟩
    rw [lastBackup_eq_none.mp hlast]
    exact fun _ hentry => absurd hentry (Set.notMem_empty _)

end EggReplay.Cli.CrashConsistency
