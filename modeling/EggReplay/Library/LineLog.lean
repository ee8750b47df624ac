import Mathlib

/-!
Logs of delimited records. `readUntil` takes one record, its delimiter included,
as a buffered reader does; `records` is what repeated calls return. A log that
was written as delimited entries reads back as those entries.
-/

namespace EggReplay.Library.LineLog

variable {α : Type} [DecidableEq α] (delimiter : α)

/-- One record with its delimiter, or the rest of the input, and what follows. -/
def readUntil : List α → List α × List α
  | [] => ([], [])
  | a :: rest =>
      if a = delimiter then ([a], rest)
      else (a :: (readUntil rest).1, (readUntil rest).2)

theorem readUntil_length (input : List α) :
    (readUntil delimiter input).2.length ≤ input.length := by
  induction input with
  | nil => simp [readUntil]
  | cons a rest ih =>
      rw [readUntil]
      split
      · simp
      · exact ih.trans (by simp)

theorem readUntil_length_lt {input : List α} (h : input ≠ []) :
    (readUntil delimiter input).2.length < input.length := by
  rcases input with _ | ⟨a, rest⟩
  · exact absurd rfl h
  · have hrest := readUntil_length delimiter rest
    rw [readUntil]
    split
    · simp
    · simp only [List.length_cons]
      omega

/-- The records of an input, in order; each is nonempty. -/
def records : List α → List (List α)
  | [] => []
  | a :: rest =>
      if a = delimiter then [a] :: records rest
      else match records rest with
        | [] => [[a]]
        | line :: lines => (a :: line) :: lines

/-- `records` unfolds into one read and the records of what follows. -/
theorem records_eq_readUntil {input : List α} (h : input ≠ []) :
    records delimiter input =
      (readUntil delimiter input).1 :: records delimiter (readUntil delimiter input).2 := by
  induction input with
  | nil => exact absurd rfl h
  | cons a rest ih =>
      rw [records, readUntil]
      split
      · rfl
      · rcases rest with _ | ⟨b, rest⟩
        · simp [records, readUntil]
        · rw [ih (by simp)]

theorem records_cons_append {line rest : List α} (h : delimiter ∉ line) :
    records delimiter (line ++ delimiter :: rest) =
      (line ++ [delimiter]) :: records delimiter rest := by
  induction line with
  | nil => simp [records]
  | cons a line ih =>
      simp only [List.mem_cons, not_or] at h
      rw [List.cons_append, records, if_neg (Ne.symm h.1), ih h.2]
      rfl

/-- The log that holds the given entries, each followed by the delimiter. -/
def written (entries : List (List α)) : List α :=
  entries.flatMap fun entry => entry ++ [delimiter]

omit [DecidableEq α] in
theorem written_append (left right : List (List α)) :
    written delimiter (left ++ right) = written delimiter left ++ written delimiter right := by
  simp [written]

omit [DecidableEq α] in
theorem written_singleton (entry : List α) :
    written delimiter [entry] = entry ++ [delimiter] := by
  simp [written]

theorem records_written {entries : List (List α)} (h : ∀ entry ∈ entries, delimiter ∉ entry) :
    records delimiter (written delimiter entries) =
      entries.map fun entry => entry ++ [delimiter] := by
  induction entries with
  | nil => rfl
  | cons entry rest ih =>
      have hentry := h entry (by simp)
      have hrest := ih fun e he => h e (by simp [he])
      rw [written, List.flatMap_cons, List.append_assoc, List.singleton_append,
        records_cons_append delimiter hentry, List.map_cons, ← hrest]
      rfl

end EggReplay.Library.LineLog
