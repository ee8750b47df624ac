import Mathlib.Data.List.AList
import Mathlib.Data.List.Sort
import Mathlib.Data.String.Basic
import Mathlib.Order.Bounds.Basic

/-!
One directory of a file system: its entries by name, calls on it that take effect, fail or are
never made because the process stopped, and the greatest name of a kind.
-/

namespace EggReplay.Library.Directories

variable {σ : Type}

abbrev Directory (σ : Type) := AList fun _ : String => σ

/-- What becomes of a call that is atomic. -/
inductive Fate where
  | succeeds
  | fails (error : String)
  | crashes
  deriving DecidableEq

/-- How a sequence of calls ended. -/
inductive Ending where
  | done
  | failed (error : String)
  | crashed
  deriving DecidableEq

def missingEntry : String := "No such file or directory (os error 2)"

def occupiedEntry : String := "Directory not empty (os error 39)"

def move (source destination : String) (entry : σ) (directory : Directory σ) : Directory σ :=
  (directory.erase source).insert destination entry

/-- Entries are directories that are not empty, so an entry is never replaced. -/
def rename (fate : Fate) (source destination : String) (directory : Directory σ) :
    Directory σ × Ending :=
  match fate with
  | .crashes => (directory, .crashed)
  | .fails error => (directory, .failed error)
  | .succeeds =>
      match directory.lookup source with
      | none => (directory, .failed missingEntry)
      | some entry =>
          if destination ∈ directory then (directory, .failed occupiedEntry)
          else (move source destination entry directory, .done)

/-- What becomes of the removal of a tree, which is not atomic: one that does not come to its
end may leave a part of the tree. -/
inductive Removal (σ : Type) where
  | succeeds
  | fails (error : String) (remains : Option σ)
  | crashes (remains : Option σ)

def leave (name : String) (remains : Option σ) (directory : Directory σ) : Directory σ :=
  match remains with
  | none => directory.erase name
  | some entry => directory.insert name entry

def removeDirAll (removal : Removal σ) (name : String) (directory : Directory σ) :
    Directory σ × Ending :=
  match removal with
  | .succeeds => (directory.erase name, .done)
  | .fails error remains => (leave name remains directory, .failed error)
  | .crashes remains => (leave name remains directory, .crashed)

variable {fate : Fate} {source destination name other : String} {entry : σ}
  {directory : Directory σ}

/-- All that a rename can do. -/
theorem rename_cases (fate : Fate) (source destination : String) (directory : Directory σ) :
    (∃ entry, fate = .succeeds ∧ directory.lookup source = some entry ∧
      directory.lookup destination = none ∧
      rename fate source destination directory =
        (move source destination entry directory, .done)) ∨
    (rename fate source destination directory).1 = directory ∧
      (rename fate source destination directory).2 ≠ .done := by
  cases fate with
  | crashes => exact .inr ⟨rfl, (by rintro ⟨⟩)⟩
  | fails error => exact .inr ⟨rfl, (by rintro ⟨⟩)⟩
  | succeeds =>
      cases hsource : directory.lookup source with
      | none =>
          right
          rw [rename, hsource]
          exact ⟨rfl, (by rintro ⟨⟩)⟩
      | some entry =>
          rw [rename, hsource]
          dsimp only
          split
          · exact .inr ⟨rfl, (by rintro ⟨⟩)⟩
          · rename_i hdestination
            exact .inl ⟨entry, rfl, rfl, AList.lookup_eq_none.mpr hdestination, rfl⟩

theorem rename_of_moves (hsource : directory.lookup source = some entry)
    (hdestination : directory.lookup destination = none) :
    rename .succeeds source destination directory =
      (move source destination entry directory, .done) := by
  rw [rename, hsource]
  exact if_neg (AList.lookup_eq_none.mp hdestination)

@[simp] theorem lookup_move_destination :
    (move source destination entry directory).lookup destination = some entry :=
  AList.lookup_insert _

theorem lookup_move_source (h : source ≠ destination) :
    (move source destination entry directory).lookup source = none := by
  rw [move, AList.lookup_insert_ne h, AList.lookup_erase]

theorem lookup_move_of_ne (hsource : name ≠ source) (hdestination : name ≠ destination) :
    (move source destination entry directory).lookup name = directory.lookup name := by
  rw [move, AList.lookup_insert_ne hdestination, AList.lookup_erase_ne hsource]

theorem lookup_leave_of_ne {remains : Option σ} (h : name ≠ other) :
    (leave other remains directory).lookup name = directory.lookup name := by
  cases remains with
  | none => exact AList.lookup_erase_ne h
  | some entry => exact AList.lookup_insert_ne h

/-- The removal of a tree leaves every other entry as it is. -/
theorem lookup_removeDirAll_of_ne {removal : Removal σ} (h : name ≠ other) :
    (removeDirAll removal other directory).1.lookup name = directory.lookup name := by
  cases removal with
  | succeeds => exact AList.lookup_erase_ne h
  | fails error remains => exact lookup_leave_of_ne h
  | crashes remains => exact lookup_leave_of_ne h

section Greatest

variable {α : Type} [LinearOrder α] {p : α → Bool} {names : List α} {greatest : α}

/-- The names in order, looked through from the last one. -/
def findLast (p : α → Bool) (names : List α) : Option α :=
  (names.insertionSort (· ≤ ·)).reverse.find? p

theorem findLast_eq_none : findLast p names = none ↔ ∀ name ∈ names, p name = false := by
  simp only [findLast, List.find?_eq_none, List.mem_reverse, List.mem_insertionSort,
    Bool.not_eq_true]

/-- What is found from the end of a sorted list is the greatest of its kind. -/
theorem isGreatest_of_findLast (h : findLast p names = some greatest) :
    IsGreatest {name | name ∈ names ∧ p name = true} greatest := by
  obtain ⟨hp, after, before, hsplit, hafter⟩ := List.find?_eq_some_iff_append.mp h
  have hsorted : (names.insertionSort (· ≤ ·)).reverse.Pairwise (fun a b => b ≤ a) :=
    List.pairwise_reverse.mpr (List.pairwise_insertionSort (· ≤ ·) names)
  have hmem : ∀ name, name ∈ names ↔ name ∈ after ++ greatest :: before := by
    intro name
    rw [← hsplit, List.mem_reverse, List.mem_insertionSort]
  refine ⟨⟨?_, hp⟩, ?_⟩
  · rw [hmem]
    exact List.mem_append_right _ List.mem_cons_self
  · rintro name ⟨hname, hkind⟩
    rw [hsplit, List.pairwise_append, List.pairwise_cons] at hsorted
    rcases List.mem_append.mp ((hmem name).mp hname) with hname | hname
    · have hrejected := hafter name hname
      rw [hkind] at hrejected
      exact absurd hrejected (by decide)
    · rcases List.mem_cons.mp hname with rfl | hname
      · exact le_refl name
      · exact hsorted.2.1.1 name hname

theorem findLast_eq_some :
    findLast p names = some greatest ↔ IsGreatest {name | name ∈ names ∧ p name = true} greatest := by
  constructor
  · exact isGreatest_of_findLast
  · intro h
    cases hfound : findLast p names with
    | none =>
        have hrejected := findLast_eq_none.mp hfound greatest h.1.1
        rw [h.1.2] at hrejected
        exact absurd hrejected (by decide)
    | some found =>
        rw [(isGreatest_of_findLast hfound).unique h]

end Greatest

end EggReplay.Library.Directories
