import EggReplay.Library.Directories
import EggReplay.Library.Text

/-!
The replacement of a fixture by a staged session, and the recovery from one that did not come
to its end.
-/

namespace EggReplay.Cli.FixtureReplacement

open EggReplay.Library.Text
open EggReplay.Library.Directories

variable {σ : Type}

/-- A path: the text before its file name, which an error prints, and the file name. -/
structure FixturePath where
  lead : String
  name : String
  deriving DecidableEq

def FixturePath.display (path : FixturePath) : String := path.lead ++ path.name

def siblingName (name label : String) (pid nonce : Nat) : String :=
  "." ++ name ++ "." ++ label ++ "-" ++ Nat.repr pid ++ "-" ++ Nat.repr nonce

def siblingTransactionPath (fixture : FixturePath) (label : String) (pid nonce : Nat) :
    FixturePath :=
  { fixture with name := siblingName fixture.name label pid nonce }

/-- What becomes of each call of a replacement. -/
structure Fates (σ : Type) where
  stash : Fate
  publish : Fate
  restore : Fate
  removal : Removal σ

def replaceFixtureTransactionally (fates : Fates σ) (pid nonce : Nat) (staged : String)
    (target : FixturePath) (directory : Directory σ) : Directory σ × Ending :=
  if target.name ∉ directory then rename fates.publish staged target.name directory
  else
    let backup := siblingTransactionPath target "backup" pid nonce
    match rename fates.stash target.name backup.name directory with
    | (stashed, .crashed) => (stashed, .crashed)
    | (stashed, .failed error) => (stashed, .failed ("cannot stage old fixture: " ++ error))
    | (stashed, .done) =>
        match rename fates.publish staged target.name stashed with
        | (published, .crashed) => (published, .crashed)
        | (published, .failed error) =>
            match rename fates.restore backup.name target.name published with
            | (restored, .crashed) => (restored, .crashed)
            | (restored, .done) =>
                (restored,
                  .failed ("cannot publish new fixture; old fixture restored: " ++ error))
            | (restored, .failed restoreError) =>
                (restored,
                  .failed ("cannot publish new fixture (" ++ error ++
                    "); restore old fixture at " ++ backup.display ++ " failed (" ++
                    restoreError ++ ")"))
        | (published, .done) =>
            match removeDirAll fates.removal backup.name published with
            | (removed, .failed error) =>
                (removed,
                  .failed ("new fixture published but old backup could not be removed: " ++
                    error))
            | ended => ended

def backupLead (name : String) : String := "." ++ name ++ ".backup-"

def isBackup (name entry : String) : Bool := startsWith entry (backupLead name)

/-- `Session::open` of an entry succeeds. -/
def entryOpens (opens : σ → Bool) (directory : Directory σ) (entry : String) : Bool :=
  (directory.lookup entry).any opens

/-- The backup that the loop over the sorted entries restores. -/
def lastBackup (opens : σ → Bool) (name : String) (directory : Directory σ) : Option String :=
  findLast (entryOpens opens directory) (directory.keys.filter (isBackup name))

/-- What becomes of the calls of a recovery: the error of `read_dir`, if any, and the rename. -/
structure RecoveryFates where
  listing : Option String
  restore : Fate

def recoverFixtureTransactionally (opens : σ → Bool) (fates : RecoveryFates)
    (target : FixturePath) (directory : Directory σ) : Directory σ × Ending :=
  if target.name ∈ directory then (directory, .done)
  else
    match fates.listing with
    | some error => (directory, .failed error)
    | none =>
        match lastBackup opens target.name directory with
        | none => (directory, .done)
        | some backup =>
            match rename fates.restore backup target.name directory with
            | (restored, .failed error) =>
                (restored, .failed ("cannot restore last valid fixture backup: " ++ error))
            | ended => ended

/-! ### Names -/

theorem siblingName_eq (name label : String) (pid nonce : Nat) :
    siblingName name label pid nonce =
      "." ++ name ++ "." ++ (label ++ "-" ++ Nat.repr pid ++ "-" ++ Nat.repr nonce) := by
  simp only [siblingName, String.append_assoc]

theorem isBackup_siblingName (name : String) (pid nonce : Nat) :
    isBackup name (siblingName name "backup" pid nonce) = true := by
  have h : siblingName name "backup" pid nonce =
      backupLead name ++ (Nat.repr pid ++ "-" ++ Nat.repr nonce) := by
    simp only [siblingName, backupLead, String.append_assoc]
    rfl
  rw [isBackup, h]
  exact startsWith_append _ _

theorem not_isBackup_self (name : String) : isBackup name name = false := by
  have hlonger : ¬ (backupLead name).toList <+: name.toList := by
    intro h
    have hlength := h.length_le
    have hdot : ".".toList.length = 1 := by decide
    simp only [backupLead, String.toList_append, List.length_append, hdot] at hlength
    omega
  rw [isBackup, Bool.eq_false_iff]
  intro h
  exact hlonger (startsWith_iff.mp h)

/-! ### Recovery -/

variable {opens : σ → Bool} {name : String} {directory : Directory σ}

/-- The backups that can be restored. -/
def validBackups (opens : σ → Bool) (name : String) (directory : Directory σ) : Set String :=
  {entry | isBackup name entry = true ∧ entryOpens opens directory entry = true}

theorem entryOpens_iff {entry : String} :
    entryOpens opens directory entry = true ↔
      ∃ session, directory.lookup entry = some session ∧ opens session = true := by
  rw [entryOpens, Option.any_eq_true]

theorem mem_keys_filter_iff (opens : σ → Bool) (name : String) (directory : Directory σ) :
    {entry | entry ∈ directory.keys.filter (isBackup name) ∧
      entryOpens opens directory entry = true} = validBackups opens name directory := by
  ext entry
  simp only [validBackups, Set.mem_ofPred_eq, List.mem_filter]
  constructor
  · rintro ⟨⟨-, hname⟩, hopens⟩
    exact ⟨hname, hopens⟩
  · rintro ⟨hname, hopens⟩
    obtain ⟨session, hsession, -⟩ := entryOpens_iff.mp hopens
    exact ⟨⟨AList.lookup_isSome.mp (Option.isSome_iff_exists.mpr ⟨session, hsession⟩), hname⟩,
      hopens⟩

theorem lastBackup_eq_some {backup : String} :
    lastBackup opens name directory = some backup ↔
      IsGreatest (validBackups opens name directory) backup := by
  rw [lastBackup, findLast_eq_some, mem_keys_filter_iff]

theorem lastBackup_eq_none :
    lastBackup opens name directory = none ↔ validBackups opens name directory = ∅ := by
  rw [lastBackup, findLast_eq_none, ← mem_keys_filter_iff, Set.eq_empty_iff_forall_notMem]
  simp only [Set.mem_ofPred_eq, not_and, Bool.not_eq_true]

theorem validBackups_congr {other : Directory σ}
    (h : ∀ entry, isBackup name entry = true → directory.lookup entry = other.lookup entry) :
    validBackups opens name directory = validBackups opens name other := by
  ext entry
  apply and_congr_right
  intro hname
  rw [entryOpens, entryOpens, h entry hname]

theorem lastBackup_congr {other : Directory σ}
    (h : validBackups opens name directory = validBackups opens name other) :
    lastBackup opens name directory = lastBackup opens name other := by
  ext backup
  rw [lastBackup_eq_some, lastBackup_eq_some, h]

/-- The session that a recovery leaves at the target when no call fails. -/
def recovered (opens : σ → Bool) (name : String) (directory : Directory σ) : Option σ :=
  (directory.lookup name).or ((lastBackup opens name directory).bind directory.lookup)

theorem recovered_of_lookup {session : σ} (h : directory.lookup name = some session) :
    recovered opens name directory = some session := by
  rw [recovered, h]
  rfl

theorem recovered_of_isGreatest {backup : String} (hmissing : directory.lookup name = none)
    (h : IsGreatest (validBackups opens name directory) backup) :
    recovered opens name directory = directory.lookup backup := by
  rw [recovered, hmissing, lastBackup_eq_some.mpr h]
  rfl

/-- What is recovered depends on the target and the backups alone. -/
theorem recovered_congr {other : Directory σ} (htarget : directory.lookup name = other.lookup name)
    (h : ∀ entry, isBackup name entry = true → directory.lookup entry = other.lookup entry) :
    recovered opens name directory = recovered opens name other := by
  rw [recovered, recovered, htarget, lastBackup_congr (validBackups_congr h)]
  apply congrArg
  apply Option.bind_congr
  intro backup hbackup
  exact h backup (lastBackup_eq_some.mp hbackup).1.1

/-- A recovery changes nothing or brings the recovered session to the target. -/
theorem recoverFixtureTransactionally_cases (opens : σ → Bool) (fates : RecoveryFates)
    (target : FixturePath) (directory : Directory σ) :
    (recoverFixtureTransactionally opens fates target directory).1 = directory ∨
      ∃ session, recovered opens target.name directory = some session ∧
        (recoverFixtureTransactionally opens fates target directory).1.lookup target.name =
          some session := by
  rw [recoverFixtureTransactionally]
  split
  · exact .inl rfl
  · rename_i hmissing
    have htarget := AList.lookup_eq_none.mpr hmissing
    cases fates.listing with
    | some error => exact .inl rfl
    | none =>
        cases hlast : lastBackup opens target.name directory with
        | none => exact .inl rfl
        | some backup =>
            dsimp only
            rcases rename_cases fates.restore backup target.name directory with
              ⟨session, -, hsession, -, hrename⟩ | ⟨hkept, -⟩
            · right
              refine ⟨session, ?_, ?_⟩
              · rw [recovered_of_isGreatest htarget (lastBackup_eq_some.mp hlast), hsession]
              · rw [hrename]
                exact lookup_move_destination
            · left
              rcases hrename : rename fates.restore backup target.name directory with
                ⟨restored, ending⟩
              rw [hrename] at hkept
              cases ending with
              | done => exact hkept
              | failed error => exact hkept
              | crashed => exact hkept

theorem recoverFixtureTransactionally_of_mem {fates : RecoveryFates} {target : FixturePath}
    (h : target.name ∈ directory) :
    recoverFixtureTransactionally opens fates target directory = (directory, .done) := by
  rw [recoverFixtureTransactionally, if_pos h]

/-- A recovery that every call of the file system lets through. -/
def unhindered : RecoveryFates where
  listing := none
  restore := .succeeds

theorem lookup_recoverFixtureTransactionally (opens : σ → Bool) (target : FixturePath)
    (directory : Directory σ) :
    (recoverFixtureTransactionally opens unhindered target directory).1.lookup target.name =
      recovered opens target.name directory := by
  rw [recoverFixtureTransactionally]
  split
  · rename_i hpresent
    obtain ⟨session, hsession⟩ := Option.isSome_iff_exists.mp (AList.lookup_isSome.mpr hpresent)
    rw [recovered_of_lookup hsession]
    exact hsession
  · rename_i hmissing
    have htarget := AList.lookup_eq_none.mpr hmissing
    dsimp only [unhindered]
    cases hlast : lastBackup opens target.name directory with
    | none =>
        dsimp only
        rw [recovered, htarget, hlast]
        rfl
    | some backup =>
        have hgreatest := lastBackup_eq_some.mp hlast
        obtain ⟨session, hsession, -⟩ := entryOpens_iff.mp hgreatest.1.2
        dsimp only
        rw [rename_of_moves hsession htarget, recovered_of_isGreatest htarget hgreatest, hsession]
        exact lookup_move_destination

/-! ### Replacement -/

/-- The calls move the old session away and neither publish the new one nor restore the old. -/
def Strands (fates : Fates σ) : Prop :=
  fates.stash = .succeeds ∧ fates.publish ≠ .succeeds ∧
    (fates.publish = .crashes ∨ fates.restore ≠ .succeeds)

/-- All that a replacement can do to a directory. -/
inductive Replaced (fates : Fates σ) (staged target backup : String) (session : σ)
    (before after : Directory σ) (ending : Ending) : Prop where
  | kept (h : ∀ entry, after.lookup entry = before.lookup entry)
  | published (h : after.lookup target = some session) (hstaged : after.lookup staged = none)
  | stranded (old : σ) (hstrands : Strands fates) (hold : before.lookup target = some old)
      (hfree : before.lookup backup = none) (hmissing : after.lookup target = none)
      (hbackup : after.lookup backup = some old)
      (hothers : ∀ entry, entry ≠ target → entry ≠ backup →
        after.lookup entry = before.lookup entry)
      (hending : ending = .crashed ∨
        (∃ error, fates.publish = .fails error) ∧ ∃ error, fates.restore = .fails error)

section

variable {fates : Fates σ} {pid nonce : Nat} {staged : String} {target : FixturePath}
  {session : σ}

theorem siblingName_ne (name label : String) (pid nonce : Nat) :
    siblingName name label pid nonce ≠ name := by
  intro h
  have hlength := congrArg (fun text => text.toList.length) h
  have hdot : ".".toList.length = 1 := by decide
  simp only [siblingName, String.toList_append, List.length_append, hdot] at hlength
  omega

theorem replaceFixtureTransactionally_cases (hstaged : directory.lookup staged = some session)
    (htarget : staged ≠ target.name)
    (hbackup : staged ≠ (siblingTransactionPath target "backup" pid nonce).name) :
    Replaced fates staged target.name (siblingTransactionPath target "backup" pid nonce).name
      session directory
      (replaceFixtureTransactionally fates pid nonce staged target directory).1
      (replaceFixtureTransactionally fates pid nonce staged target directory).2 := by
  have hapart : (siblingTransactionPath target "backup" pid nonce).name ≠ target.name :=
    siblingName_ne target.name "backup" pid nonce
  rw [replaceFixtureTransactionally]
  generalize siblingTransactionPath target "backup" pid nonce = backup at hbackup hapart ⊢
  split
  · -- there is no fixture yet
    rcases rename_cases fates.publish staged target.name directory with
      ⟨entry, -, hentry, -, hrename⟩ | ⟨hkept, -⟩
    · apply Replaced.published
      · rw [hrename, lookup_move_destination, ← hentry, hstaged]
      · rw [hrename, lookup_move_source htarget]
    · exact .kept fun entry => by rw [hkept]
  · dsimp only
    rcases rename_cases fates.stash target.name backup.name directory with
      ⟨old, hstash, hold, hfree, hrename⟩ | ⟨hkept, hending⟩
    · rw [hrename]
      dsimp only
      have hmissing := @lookup_move_source _ _ _ old directory hapart.symm
      have hmoved : (move target.name backup.name old directory).lookup staged = some session := by
        rw [lookup_move_of_ne htarget hbackup, hstaged]
      generalize hstashed : move target.name backup.name old directory = stashed at hmissing hmoved
      have hbackupOld : stashed.lookup backup.name = some old := by
        rw [← hstashed, lookup_move_destination]
      have hothers : ∀ entry, entry ≠ target.name → entry ≠ backup.name →
          stashed.lookup entry = directory.lookup entry := by
        intro entry hentry hentryBackup
        rw [← hstashed, lookup_move_of_ne hentry hentryBackup]
      cases hpublish : fates.publish with
      | succeeds =>
          rw [rename_of_moves hmoved hmissing]
          dsimp only
          have hlookup : (removeDirAll fates.removal backup.name
              (move staged target.name session stashed)).1.lookup target.name = some session := by
            rw [lookup_removeDirAll_of_ne hapart.symm, lookup_move_destination]
          have hgone : (removeDirAll fates.removal backup.name
              (move staged target.name session stashed)).1.lookup staged = none := by
            rw [lookup_removeDirAll_of_ne hbackup, lookup_move_source htarget]
          rcases hremove : removeDirAll fates.removal backup.name
            (move staged target.name session stashed) with ⟨removed, ending⟩
          rw [hremove] at hlookup hgone
          cases ending with
          | done => exact .published hlookup hgone
          | failed error => exact .published hlookup hgone
          | crashed => exact .published hlookup hgone
      | fails error =>
          rw [rename]
          dsimp only
          rcases rename_cases fates.restore backup.name target.name stashed with
            ⟨entry, -, hentry, -, hrename⟩ | ⟨hkept, hending⟩
          · -- the old session is back at the target
            rw [hrename]
            obtain rfl : entry = old := Option.some.inj (hentry.symm.trans hbackupOld)
            apply Replaced.kept
            intro name
            dsimp only
            rcases eq_or_ne name target.name with rfl | hname
            · rw [lookup_move_destination, hold]
            · rcases eq_or_ne name backup.name with rfl | hnameBackup
              · rw [lookup_move_source hapart, hfree]
              · rw [lookup_move_of_ne hnameBackup hname, hothers name hname hnameBackup]
          · rcases hrename : rename fates.restore backup.name target.name stashed with
              ⟨restored, ending⟩
            rw [hrename] at hkept hending
            obtain rfl : restored = stashed := hkept
            have hrestore : fates.restore ≠ .succeeds := by
              intro hsucceeds
              rw [hsucceeds, rename_of_moves hbackupOld hmissing, Prod.mk.injEq] at hrename
              exact hending hrename.2.symm
            have hstrands : Strands fates := ⟨hstash, by rw [hpublish]; rintro ⟨⟩, .inr hrestore⟩
            cases ending with
            | done => exact absurd rfl hending
            | crashed =>
                exact .stranded old hstrands hold hfree hmissing hbackupOld hothers (.inl rfl)
            | failed restoreError =>
                refine .stranded old hstrands hold hfree hmissing hbackupOld hothers
                  (.inr ⟨⟨error, hpublish⟩, ?_⟩)
                cases hfate : fates.restore with
                | succeeds => exact absurd hfate hrestore
                | fails error => exact ⟨error, rfl⟩
                | crashes =>
                    rw [hfate, rename, Prod.mk.injEq] at hrename
                    exact absurd hrename.2 (by rintro ⟨⟩)
      | crashes =>
          exact .stranded old ⟨hstash, by rw [hpublish]; rintro ⟨⟩, .inl hpublish⟩ hold hfree hmissing
            hbackupOld hothers (.inl rfl)
    · rcases hrename : rename fates.stash target.name backup.name directory with ⟨stashed, ending⟩
      rw [hrename] at hkept hending
      obtain rfl : stashed = directory := hkept
      cases ending with
      | done => exact absurd rfl hending
      | failed error => exact .kept fun _ => rfl
      | crashed => exact .kept fun _ => rfl

end

/-! ### Staged sessions -/

/-- The labels under which a session is staged. -/
inductive StagingLabel where
  | misses
  | combined
  | rerecord
  | migrate
  deriving DecidableEq

def StagingLabel.text : StagingLabel → String
  | .misses => "misses"
  | .combined => "combined"
  | .rerecord => "rerecord"
  | .migrate => "migrate"

/-- A replacement: the session staged beside the fixture, and what becomes of the calls. -/
structure Replacement (σ : Type) where
  label : StagingLabel
  pid : Nat
  stagedNonce : Nat
  nonce : Nat
  session : σ
  fates : Fates σ

def Replacement.staged (replacement : Replacement σ) (target : FixturePath) : FixturePath :=
  siblingTransactionPath target replacement.label.text replacement.pid replacement.stagedNonce

def Replacement.backup (replacement : Replacement σ) (target : FixturePath) : FixturePath :=
  siblingTransactionPath target "backup" replacement.pid replacement.nonce

def Replacement.stage (replacement : Replacement σ) (target : FixturePath)
    (directory : Directory σ) : Directory σ :=
  directory.insert (replacement.staged target).name replacement.session

def Replacement.apply (replacement : Replacement σ) (target : FixturePath)
    (directory : Directory σ) : Directory σ × Ending :=
  replaceFixtureTransactionally replacement.fates replacement.pid replacement.nonce
    (replacement.staged target).name target (replacement.stage target directory)


variable {replacement : Replacement σ} {target : FixturePath}

/-- The labels do not begin with the letter of "backup". -/
theorem StagingLabel.text_eq_cons (label : StagingLabel) :
    ∃ first tail, label.text.toList = first :: tail ∧ first ≠ 'b' := by
  cases label with
  | misses => exact ⟨'m', "isses".toList, by decide, by decide⟩
  | combined => exact ⟨'c', "ombined".toList, by decide, by decide⟩
  | rerecord => exact ⟨'r', "erecord".toList, by decide, by decide⟩
  | migrate => exact ⟨'m', "igrate".toList, by decide, by decide⟩

/-- No session is staged under the name of a backup. -/
theorem not_isBackup_staged (replacement : Replacement σ) (target : FixturePath) :
    isBackup target.name (replacement.staged target).name = false := by
  rw [isBackup, Bool.eq_false_iff]
  intro h
  have hlead : backupLead target.name = "." ++ target.name ++ "." ++ "backup-" := by
    rw [backupLead, String.append_assoc, String.append_assoc, String.append_assoc]
    rfl
  have hname : (replacement.staged target).name = "." ++ target.name ++ "." ++
      (replacement.label.text ++ "-" ++ Nat.repr replacement.pid ++ "-" ++
        Nat.repr replacement.stagedNonce) := siblingName_eq _ _ _ _
  rw [startsWith_iff, hname, hlead, String.toList_append,
    @String.toList_append ("." ++ target.name ++ ".") (_ ++ _), List.prefix_append_right_inj] at h
  obtain ⟨rest, hrest⟩ := h
  obtain ⟨first, tail, htext, hfirst⟩ := StagingLabel.text_eq_cons replacement.label
  have hbackup : "backup-".toList = 'b' :: "ackup-".toList := by decide
  simp only [String.toList_append, htext, hbackup, List.append_assoc, List.cons_append,
    List.cons.injEq] at hrest
  exact hfirst hrest.1.symm

theorem staged_ne_target (replacement : Replacement σ) (target : FixturePath) :
    (replacement.staged target).name ≠ target.name :=
  siblingName_ne target.name _ _ _

theorem staged_ne_backup (replacement : Replacement σ) (target : FixturePath) :
    (replacement.staged target).name ≠ (replacement.backup target).name := by
  intro h
  have hstaged := not_isBackup_staged replacement target
  rw [h] at hstaged
  exact absurd (hstaged.symm.trans (isBackup_siblingName target.name _ _)) (by decide)

theorem lookup_stage_of_ne {entry : String} (h : entry ≠ (replacement.staged target).name) :
    (replacement.stage target directory).lookup entry = directory.lookup entry :=
  AList.lookup_insert_ne h

/-- The staged session is no part of what a recovery looks at. -/
theorem ne_staged_of_isBackup {entry : String} (h : isBackup target.name entry = true) :
    entry ≠ (replacement.staged target).name := by
  rintro rfl
  rw [not_isBackup_staged] at h
  exact absurd h (by decide)

theorem ne_target_of_isBackup {entry : String} (h : isBackup target.name entry = true) :
    entry ≠ target.name := by
  rintro rfl
  rw [not_isBackup_self] at h
  exact absurd h (by decide)

theorem replacement_cases (replacement : Replacement σ) (target : FixturePath)
    (directory : Directory σ) :
    Replaced replacement.fates (replacement.staged target).name target.name
      (replacement.backup target).name replacement.session (replacement.stage target directory)
      (replacement.apply target directory).1 (replacement.apply target directory).2 :=
  replaceFixtureTransactionally_cases (AList.lookup_insert _)
    (staged_ne_target replacement target) (staged_ne_backup replacement target)

end EggReplay.Cli.FixtureReplacement
