import EggReplay.Core.Matching
import EggReplay.Library.JsonPlaces

/-!
The places of a value followed through the matcher's removals. The matcher removes
what the markers name, pointer after pointer; an array item that goes moves those
after it, and what the removals leave of a value is what is left at its places.
-/

namespace EggReplay.Core.RemovalPlaces

open EggReplay.Library.Checks
open EggReplay.Library.Text
open EggReplay.Library.JsonText
open EggReplay.Library.JsonPointer
open EggReplay.Library.JsonPlaces
open EggReplay.Core.Matching

variable {N : Type}

/-! ### Places through removals -/

/-- Where a step goes once the child at a token is removed beside it. -/
def stepAfter (token : String) : Step → Option Step
  | .member key => if key = token then none else some (.member key)
  | .item j =>
      match parseUsize token with
      | none => some (.item j)
      | some i => if j = i then none else some (.item (if i < j then j - 1 else j))

def placeAfter : List String → String → Place → Option Place
  | _, _, [] => some []
  | [], token, step :: rest => (stepAfter token step).map fun next => next :: rest
  | name :: path, token, step :: rest =>
      if names name step = true then (placeAfter path token rest).map fun next => step :: next
      else some (step :: rest)

/-- The container that the matcher removes a pointer's last token from, and that token
as it is written. -/
def removalOf (pointer : String) : Option (List String × String) :=
  if pointer = "" then none
  else match rsplitOnce pointer '/' with
    | none => none
    | some (parent, token) => (tokens parent).map fun path => (path, token)

/-- Where a place goes when the matcher removes a pointer; nowhere where it is in what
is removed. -/
def placeAfterRemoval (pointer : String) (place : Place) : Option Place :=
  match removalOf pointer with
  | none => some place
  | some (path, token) => placeAfter path token place

def track : List String → Place → Option Place
  | [], place => some place
  | pointer :: rest, place => (placeAfterRemoval pointer place).bind (track rest)

/-- The places that are removed by the pointers in turn. -/
def removed (pointers : List String) (place : Place) : Bool :=
  (track pointers place).isNone

/-- The places that are gone from the original value when some are gone from the
value after a removal. -/
def pullBack (after : Place → Option Place) (gone : Place → Bool) (place : Place) : Bool :=
  match after place with
  | none => true
  | some next => gone next

theorem pullBack_some (gone : Place → Bool) : pullBack some gone = gone := rfl

theorem removed_cons (pointer : String) (rest : List String) :
    removed (pointer :: rest) = pullBack (placeAfterRemoval pointer) (removed rest) := by
  funext place
  rw [removed, track, pullBack]
  rcases placeAfterRemoval pointer place with _ | next <;> rfl

theorem placeAfter_root (path : List String) (token : String) :
    placeAfter path token [] = some [] := by
  cases path <;> rfl

theorem pullBack_placeAfter_root (path : List String) (token : String)
    (gone : Place → Bool) : pullBack (placeAfter path token) gone [] = gone [] := by
  rw [pullBack, placeAfter_root]

theorem pullBack_below {name : String} {step : Step} (h : names name step = true)
    (path : List String) (token : String) (gone : Place → Bool) :
    below step (pullBack (placeAfter (name :: path) token) gone) =
      pullBack (placeAfter path token) (below step gone) := by
  funext place
  rw [below_apply, pullBack, placeAfter, if_pos h, pullBack]
  rcases placeAfter path token place with _ | next <;> rfl

theorem pullBack_beside {name : String} {step : Step} (h : names name step = false)
    (path : List String) (token : String) (gone : Place → Bool) (place : Place) :
    pullBack (placeAfter (name :: path) token) gone (step :: place) = gone (step :: place) := by
  rw [pullBack, placeAfter, if_neg (by simp [h])]

theorem pruneMembers_filter (token : String) (gone : Place → Bool)
    (members : List (String × Json N)) :
    pruneMembers gone (members.filter fun member => member.1 ≠ token) =
      pruneMembers (pullBack (placeAfter [] token) gone) members := by
  induction members with
  | nil => rfl
  | cons member rest ih =>
      obtain ⟨key, x⟩ := member
      by_cases hkey : key = token
      · have hgone : pullBack (placeAfter [] token) gone [.member key] = true := by
          simp [pullBack, placeAfter, stepAfter, hkey]
        rw [List.filter_cons_of_neg (by simp [hkey]), ih, pruneMembers, if_pos hgone]
      · have hbeside : ∀ place, pullBack (placeAfter [] token) gone (.member key :: place) =
            gone (.member key :: place) := by
          intro place
          simp [pullBack, placeAfter, stepAfter, hkey]
        have hbelow : below (.member key) (pullBack (placeAfter [] token) gone) =
            below (.member key) gone := by
          funext place
          exact hbeside place
        rw [List.filter_cons_of_pos (by simp [hkey]), pruneMembers, pruneMembers, ih,
          hbeside [], hbelow]

theorem pruneItems_eraseIdx {token : String} {i : Nat} (hindex : parseUsize token = some i)
    (gone : Place → Bool) (n k : Nat) (hi : i = n + k) (items : List (Json N)) :
    pruneItems gone n (items.eraseIdx k) =
      pruneItems (pullBack (placeAfter [] token) gone) n items := by
  have hback : ∀ j place, pullBack (placeAfter [] token) gone (.item j :: place) =
      if j = i then true else gone (.item (if i < j then j - 1 else j) :: place) := by
    intro j place
    simp only [pullBack, placeAfter, stepAfter, hindex]
    split
    · rename_i h
      split <;> simp_all
    · rename_i h
      split <;> simp_all
  induction items generalizing n k with
  | nil => simp [pruneItems]
  | cons x rest ih =>
      rcases k with _ | k
      · obtain rfl : i = n := hi
        rw [List.eraseIdx_zero, List.tail_cons, pruneItems, if_pos (by rw [hback]; simp)]
        apply pruneItems_shift
        intro k place
        rw [hback, if_neg (by omega), if_pos (by omega)]
        congr 3
        omega
      · have hbeside : ∀ place, pullBack (placeAfter [] token) gone (.item n :: place) =
            gone (.item n :: place) := by
          intro place
          rw [hback, if_neg (by omega), if_neg (by omega)]
        have hbelow : below (.item n) (pullBack (placeAfter [] token) gone) =
            below (.item n) gone := by
          funext place
          exact hbeside place
        rw [List.eraseIdx_cons_succ, pruneItems, pruneItems, hbeside [], hbelow,
          ih (n + 1) k (by omega)]

theorem disregard_removeChild (path : List String) (token : String) (gone : Place → Bool)
    (value : Json N) :
    disregard gone (modifyAt path (removeChild token) value) =
      disregard (pullBack (placeAfter path token) gone) value := by
  have hroot := pullBack_placeAfter_root path token gone
  rcases hgone : gone [] with _ | _
  swap
  · rw [disregard_root hgone, disregard_root (hroot.trans hgone)]
  rw [disregard_of_not_root hgone, disregard_of_not_root (hroot.trans hgone)]
  induction path generalizing gone value with
  | nil =>
      rcases value with _ | _ | _ | _ | items | members
      · rfl
      · rfl
      · rfl
      · rfl
      · rw [modifyAt, removeChild, prune]
        rcases hindex : parseUsize token with _ | i
        · rw [prune]
          congr 1
          apply pruneItems_shift
          intro k place
          simp [pullBack, placeAfter, stepAfter, hindex]
        · rw [prune, pruneItems_eraseIdx hindex gone 0 i (by simp)]
      · rw [modifyAt, removeChild, prune, prune, pruneMembers_filter]
  | cons name path ih =>
      have hbelow : ∀ step, names name step = true → gone [step] = false → ∀ x : Json N,
          prune (below step gone) (modifyAt path (removeChild token) x) =
            prune (below step (pullBack (placeAfter (name :: path) token) gone)) x := by
        intro step hstep hhere x
        rw [pullBack_below hstep]
        exact ih (below step gone) x (pullBack_placeAfter_root _ _ _) hhere
      have hsame : ∀ step, names name step = true →
          gone [step] = pullBack (placeAfter (name :: path) token) gone [step] := by
        intro step hstep
        have h := congrFun (pullBack_below hstep path token gone) []
        rw [pullBack_placeAfter_root] at h
        exact h.symm
      rcases value with _ | _ | _ | _ | items | members
      · rfl
      · rfl
      · rfl
      · rfl
      · rw [modifyAt_array, prune, prune]
        congr 1
        rcases hindex : parseIndex name with _ | i
        · apply pruneItems_shift
          intro k place
          rw [pullBack_beside (by simp [names, hindex])]
        · have hstep : names name (.item i) = true := by simp [names, hindex]
          refine pruneItems_modify ?_ ?_ 0 i (Nat.zero_add i).symm items
          · intro x
            exact ⟨hsame _ hstep, fun hhere => hbelow _ hstep hhere x⟩
          · intro j place hj
            rw [pullBack_beside]
            simp only [names, hindex, Option.some.injEq, decide_eq_false_iff_not]
            exact Ne.symm hj
      · rw [modifyAt, prune, prune]
        congr 1
        induction members with
        | nil => rfl
        | cons member rest ihm =>
            obtain ⟨key, x⟩ := member
            rw [List.map_cons]
            by_cases hkey : key = name
            · have hstep : names name (.member key) = true := by simp [names, hkey]
              rw [if_pos hkey, pruneMembers, pruneMembers, ihm, ← hsame _ hstep]
              split
              · rfl
              · rename_i hhere
                rw [hbelow _ hstep (by simpa using hhere) x]
            · have hstep : names name (.member key) = false := by simp [names, hkey]
              have hbeside := pullBack_beside hstep path token gone
              have hkeep : below (.member key) (pullBack (placeAfter (name :: path) token) gone) =
                  below (.member key) gone := by
                funext place
                exact hbeside place
              rw [if_neg hkey, pruneMembers, pruneMembers, ihm, hbeside [], hkeep]

theorem removeJsonPointer_eq (value : Json N) (pointer : String) :
    removeJsonPointer value pointer =
      match removalOf pointer with
      | none => value
      | some (path, token) => modifyAt path (removeChild token) value := by
  unfold removeJsonPointer removalOf
  split
  · rfl
  · rcases rsplitOnce pointer '/' with _ | ⟨parent, token⟩
    · rfl
    · dsimp only
      rcases tokens parent with _ | path <;> rfl

theorem disregard_removeJsonPointer (pointer : String) (gone : Place → Bool)
    (value : Json N) :
    disregard gone (removeJsonPointer value pointer) =
      disregard (pullBack (placeAfterRemoval pointer) gone) value := by
  rw [removeJsonPointer_eq]
  rcases hremoval : removalOf pointer with _ | ⟨path, token⟩
  · have hafter : placeAfterRemoval pointer = some := by
      funext place
      rw [placeAfterRemoval, hremoval]
    rw [hafter, pullBack_some]
  · have hafter : placeAfterRemoval pointer = placeAfter path token := by
      funext place
      rw [placeAfterRemoval, hremoval]
    rw [hafter]
    exact disregard_removeChild path token gone value

/-- What the removals in turn leave of a value. -/
theorem foldl_removeJsonPointer (pointers : List String) (value : Json N) :
    pointers.foldl removeJsonPointer value = disregard (removed pointers) value := by
  induction pointers generalizing value with
  | nil =>
      rw [disregard_of_not_root rfl]
      exact (prune_nothing value).symm
  | cons pointer rest ih =>
      rw [List.foldl_cons, ih, disregard_removeJsonPointer, removed_cons]

theorem removePointers_eq (pointers : Finset String) (value : Json N) :
    removePointers pointers value = disregard (removed (pointers.sort (· ≤ ·))) value :=
  foldl_removeJsonPointer _ _

end EggReplay.Core.RemovalPlaces
