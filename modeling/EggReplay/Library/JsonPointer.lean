import EggReplay.Library.JsonText

/-!
JSON pointers: how their tokens are read, the update of the value at a pointer,
and replacing the values at several pointers in turn.
-/

namespace EggReplay.Library.JsonPointer

open EggReplay.Library.Text
open EggReplay.Library.JsonText

variable {N : Type}

/-! ### Tokens -/

/-- The name that a pointer token stands for: `~1` is a slash, `~0` a tilde. -/
def unescape (raw : String) : String :=
  String.ofList (replacePair '~' '0' '~' (replacePair '~' '1' '/' raw.toList))

/-- `str::parse::<usize>`: a plus sign may lead, and so may zeros. -/
def parseUsize (s : String) : Option Nat :=
  let digits : List Char := match s.toList with
    | '+' :: rest => rest
    | all => all
  let value : Nat := digits.foldl (fun n c => 10 * n + (c.toNat - 48)) 0
  if digits ≠ [] ∧ digits.all Char.isDigit = true ∧ value < 2 ^ 64 then some value else none

/-- The array index that a token stands for: no sign and no leading zero. -/
def parseIndex (token : String) : Option Nat :=
  if startsWith token "+" = true ∨
      (startsWith token "0" = true ∧ token.utf8ByteSize ≠ 1) then none
  else parseUsize token

/-- The unescaped tokens; a nonempty pointer without a leading slash has none. -/
def tokens (pointer : String) : Option (List String) :=
  if pointer = "" then some []
  else if startsWith pointer "/" = true then some ((split pointer '/').tail.map unescape)
  else none

theorem parseUsize_of_parseIndex {token : String} {i : Nat} (h : parseIndex token = some i) :
    parseUsize token = some i := by
  unfold parseIndex at h
  split at h
  · simp at h
  · exact h

/-! ### Updating the value at a pointer -/

/-- The value with `f` applied to what the tokens locate, if they locate anything. -/
def modifyAt : List String → (Json N → Json N) → Json N → Json N
  | [], f, value => f value
  | token :: rest, f, .object members =>
      .object (members.map fun member =>
        if member.1 = token then (member.1, modifyAt rest f member.2) else member)
  | token :: rest, f, .array items =>
      match parseIndex token with
      | some i => .array (items.modify i (modifyAt rest f))
      | none => .array items
  | _ :: _, _, value => value

def resolves : List String → Json N → Bool
  | [], _ => true
  | token :: rest, .object members =>
      members.any fun member => decide (member.1 = token) && resolves rest member.2
  | token :: rest, .array items =>
      match (parseIndex token).bind fun i => items[i]? with
      | some item => resolves rest item
      | none => false
  | _ :: _, _ => false

theorem modifyAt_array (token : String) (rest : List String) (f : Json N → Json N)
    (items : List (Json N)) :
    modifyAt (token :: rest) f (.array items) =
      .array (match parseIndex token with
        | some i => items.modify i (modifyAt rest f)
        | none => items) := by
  rw [modifyAt]
  split <;> rfl

/-- The last of two updates at one place prevails. -/
theorem modifyAt_modifyAt (path : List String) (f : Json N → Json N) (c value : Json N) :
    modifyAt path (fun _ => c) (modifyAt path f value) = modifyAt path (fun _ => c) value := by
  induction path generalizing value with
  | nil => rfl
  | cons token rest ih =>
      have hcomp : modifyAt rest (fun _ => c) ∘ modifyAt rest f =
          modifyAt rest (fun _ => c) := by
        funext x
        exact ih x
      rcases value with _ | _ | _ | _ | items | members
      · rfl
      · rfl
      · rfl
      · rfl
      · rw [modifyAt_array, modifyAt_array, modifyAt_array]
        rcases parseIndex token with _ | i
        · rfl
        · simp only [List.modify_modify_eq, hcomp]
      · simp only [modifyAt, List.map_map, Json.object.injEq]
        apply List.map_congr_left
        rintro ⟨key, x⟩ -
        simp only [Function.comp_apply]
        by_cases hkey : key = token
        · simp [hkey, ih x]
        · simp [hkey]

/-- What an update at another place does is the same whatever the value at this
place was, once this place is overwritten. -/
theorem modifyAt_absorb (path other : List String) (c value : Json N) :
    modifyAt path (fun _ => c) (modifyAt other (fun _ => c)
        (modifyAt path (fun _ => c) value)) =
      modifyAt path (fun _ => c) (modifyAt other (fun _ => c) value) := by
  induction path generalizing other value with
  | nil => rfl
  | cons token rest ih =>
      rcases other with _ | ⟨next, others⟩
      · rfl
      rcases value with _ | _ | _ | _ | items | members
      · rfl
      · rfl
      · rfl
      · rfl
      · simp only [modifyAt_array]
        rcases htoken : parseIndex token with _ | i
        · rfl
        rcases hnext : parseIndex next with _ | j
        · simp only [List.modify_modify_eq, Json.array.injEq]
          congr 1
          funext x
          exact modifyAt_modifyAt rest (fun _ => c) c x
        by_cases hij : i = j
        · subst hij
          simp only [List.modify_modify_eq, Json.array.injEq]
          congr 1
          funext x
          exact ih others x
        · simp only [Json.array.injEq]
          rw [List.modify_modify_ne _ _ _ hij, List.modify_modify_eq]
          have hcomp : modifyAt rest (fun _ => c) ∘ modifyAt rest (fun _ => c) =
              modifyAt rest (fun _ : Json N => c) := by
            funext x
            exact modifyAt_modifyAt rest (fun _ => c) c x
          rw [hcomp, List.modify_modify_ne _ _ _ (Ne.symm hij)]
      · simp only [modifyAt, List.map_map, Json.object.injEq]
        apply List.map_congr_left
        rintro ⟨key, x⟩ -
        simp only [Function.comp_apply]
        by_cases hkey : key = token
        · subst hkey
          by_cases hother : key = next
          · subst hother
            simp [ih others x]
          · simp [hother, modifyAt_modifyAt rest (fun _ => c) c x]
        · by_cases hother : key = next
          · subst hother
            simp [hkey]
          · simp [hkey, hother]

theorem modifyAt_fits {path : List String} {c : Json N}
    (hc : ∀ depth, c.fits depth = true) {value : Json N} {n : Nat}
    (hvalue : value.fits n = true) : (modifyAt path (fun _ => c) value).fits n = true := by
  induction path generalizing value n with
  | nil => exact hc n
  | cons token rest ih =>
      rcases value with _ | _ | _ | _ | items | members
      · exact hvalue
      · exact hvalue
      · exact hvalue
      · exact hvalue
      · rcases n with _ | n
        · cases hvalue
        rw [fits_array] at hvalue
        rw [modifyAt_array, fits_array]
        rcases parseIndex token with _ | i
        · exact hvalue
        intro item hitem
        obtain ⟨k, hk, rfl⟩ := List.getElem_of_mem hitem
        rw [List.length_modify] at hk
        rw [List.getElem_modify]
        split
        · exact ih (hvalue _ (List.getElem_mem hk))
        · exact hvalue _ (List.getElem_mem hk)
      · rcases n with _ | n
        · cases hvalue
        rw [fits_object] at hvalue
        rw [modifyAt, fits_object]
        have hkeys : (members.map fun member =>
            if member.1 = token then (member.1, modifyAt rest (fun _ => c) member.2)
            else member).map Prod.fst = members.map Prod.fst := by
          rw [List.map_map]
          apply List.map_congr_left
          intro member _
          simp only [Function.comp_apply]
          split <;> rfl
        refine ⟨hkeys ▸ hvalue.1, ?_⟩
        intro member hmember
        obtain ⟨old, hold, rfl⟩ := List.mem_map.mp hmember
        split
        · exact ih (hvalue.2 old hold)
        · exact hvalue.2 old hold

/-! ### Overwriting several values in turn -/

/-- Overwrite the values that the paths locate, one path after the other. -/
def overwriteAll (paths : List (List String)) (c value : Json N) : Json N :=
  paths.foldl (fun current path => modifyAt path (fun _ => c) current) value

theorem overwriteAll_congr {paths : List (List String)} {path : List String}
    {c left right : Json N} (hpath : path ∈ paths)
    (h : modifyAt path (fun _ => c) left = modifyAt path (fun _ => c) right) :
    overwriteAll paths c left = overwriteAll paths c right := by
  induction paths generalizing left right with
  | nil => simp at hpath
  | cons first rest ih =>
      show overwriteAll rest c (modifyAt first (fun _ => c) left) =
        overwriteAll rest c (modifyAt first (fun _ => c) right)
      rcases List.mem_cons.mp hpath with rfl | hmem
      · rw [h]
      · apply ih hmem
        rw [← modifyAt_absorb path first c left, ← modifyAt_absorb path first c right, h]

theorem overwriteAll_fits {paths : List (List String)} {c : Json N}
    (hc : ∀ depth, c.fits depth = true) {value : Json N} {n : Nat}
    (hvalue : value.fits n = true) : (overwriteAll paths c value).fits n = true := by
  induction paths generalizing value with
  | nil => exact hvalue
  | cons path rest ih => exact ih (modifyAt_fits hc hvalue)

/-- Overwriting hides any earlier change at one of its paths. -/
theorem overwriteAll_modifyAt {paths : List (List String)} {path : List String}
    (hpath : path ∈ paths) (f : Json N → Json N) (c value : Json N) :
    overwriteAll paths c (modifyAt path f value) = overwriteAll paths c value :=
  overwriteAll_congr hpath (modifyAt_modifyAt path f c value)

end EggReplay.Library.JsonPointer
