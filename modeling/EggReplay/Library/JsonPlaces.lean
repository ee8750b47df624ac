import EggReplay.Library.JsonPointer

/-!
Places in a JSON value, and values with some of their places disregarded. A place
says at each container whether it goes on to a member or to an item; a pointer
leaves that to the value, so it locates several places.
-/

namespace EggReplay.Library.JsonPlaces

open EggReplay.Library.JsonText
open EggReplay.Library.JsonPointer

variable {N : Type}

inductive Step where
  | member (key : String)
  | item (index : Nat)
  deriving DecidableEq, Repr

abbrev Place := List Step

/-- The places below a step, as seen from there. -/
def below (step : Step) (gone : Place → Bool) : Place → Bool :=
  fun place => gone (step :: place)

/-- The places that are gone or lie inside one that is. -/
def inside (gone : Place → Bool) : Place → Bool
  | [] => gone []
  | step :: rest => gone [] || inside (below step gone) rest

theorem below_apply (step : Step) (gone : Place → Bool) (place : Place) :
    below step gone place = gone (step :: place) := rfl

theorem below_inside {gone : Place → Bool} (h : gone [] = false) (step : Step) :
    below step (inside gone) = inside (below step gone) := by
  funext place
  rw [below_apply, inside, h, Bool.false_or]

theorem inside_idem (gone : Place → Bool) (place : Place) :
    inside (inside gone) place = inside gone place := by
  induction place generalizing gone with
  | nil => rfl
  | cons step rest ih =>
      rcases hroot : gone [] with _ | _
      · have hinside : inside gone [] = false := hroot
        rw [inside, hinside, Bool.false_or, below_inside hroot, ih, inside, hroot,
          Bool.false_or]
      · have hinside : inside gone [] = true := hroot
        rw [inside, hinside, inside, hroot, Bool.true_or, Bool.true_or]

/-! ### Disregarding places -/

mutual

def prune (gone : Place → Bool) : Json N → Json N
  | .array items => .array (pruneItems gone 0 items)
  | .object members => .object (pruneMembers gone members)
  | value => value

def pruneMembers (gone : Place → Bool) : List (String × Json N) → List (String × Json N)
  | [] => []
  | (key, x) :: rest =>
      if gone [.member key] = true then pruneMembers gone rest
      else (key, prune (below (.member key) gone) x) :: pruneMembers gone rest

def pruneItems (gone : Place → Bool) (i : Nat) : List (Json N) → List (Json N)
  | [] => []
  | x :: rest =>
      if gone [.item i] = true then pruneItems gone (i + 1) rest
      else prune (below (.item i) gone) x :: pruneItems gone (i + 1) rest

end

/-- The value without the members and items that are gone; nothing is left where the
whole value is. -/
def disregard (gone : Place → Bool) (value : Json N) : Json N :=
  if gone [] = true then .null else prune gone value

theorem disregard_root {gone : Place → Bool} (h : gone [] = true) (value : Json N) :
    disregard gone value = .null := by
  rw [disregard, if_pos h]

theorem disregard_of_not_root {gone : Place → Bool} (h : gone [] = false)
    (value : Json N) : disregard gone value = prune gone value := by
  rw [disregard, if_neg (by simp [h])]

/-- Two values agree below a step as they agree once what is gone is left out. -/
theorem prune_eq_of_disregard_eq {gone other : Place → Bool} {x y : Json N}
    (hroot : gone [] = false) (hother : other [] = false)
    (h : disregard gone x = disregard other y) : prune gone x = prune other y := by
  rw [← disregard_of_not_root hroot, h, disregard_of_not_root hother]

theorem pruneMembers_congr {gone other : Place → Bool}
    (h : ∀ key place, gone (.member key :: place) = other (.member key :: place))
    (members : List (String × Json N)) :
    pruneMembers gone members = pruneMembers other members := by
  induction members with
  | nil => rfl
  | cons member rest ih =>
      obtain ⟨key, x⟩ := member
      have hbelow : below (.member key) gone = below (.member key) other := by
        funext place
        exact h key place
      rw [pruneMembers, pruneMembers, h key [], ih, hbelow]

/-- Items renumbered together with the places they are read against. -/
theorem pruneItems_shift {gone other : Place → Bool} {n m : Nat} (items : List (Json N))
    (h : ∀ k place, gone (.item (n + k) :: place) = other (.item (m + k) :: place)) :
    pruneItems gone n items = pruneItems other m items := by
  induction items generalizing n m with
  | nil => rfl
  | cons x rest ih =>
      have hbelow : below (.item n) gone = below (.item m) other := by
        funext place
        exact h 0 place
      have hrest : pruneItems gone (n + 1) rest = pruneItems other (m + 1) rest := by
        apply ih
        intro k place
        rw [Nat.add_right_comm n 1 k, Nat.add_right_comm m 1 k]
        exact h (k + 1) place
      have hhere : gone [.item n] = other [.item m] := h 0 []
      rw [pruneItems, pruneItems, hhere, hrest, hbelow]

theorem pruneItems_append (gone : Place → Bool) (i : Nat) (left right : List (Json N)) :
    pruneItems gone i (left ++ right) =
      pruneItems gone i left ++ pruneItems gone (i + left.length) right := by
  induction left generalizing i with
  | nil => simp [pruneItems]
  | cons x rest ih =>
      rw [List.cons_append, pruneItems, pruneItems, ih, List.length_cons,
        Nat.add_assoc i 1, Nat.add_comm 1]
      split <;> rfl

/-- Nothing is disregarded where nothing is gone. -/
theorem prune_nothing (value : Json N) : prune (fun _ => false) value = value := by
  induction value with
  | null => rfl
  | bool b => rfl
  | number n => rfl
  | string s => rfl
  | array items ih =>
      have hitems : ∀ i, pruneItems (fun _ => false) i items = items := by
        induction items with
        | nil => exact fun _ => rfl
        | cons x rest ihrest =>
            intro i
            have hx : prune (below (.item i) fun _ => false) x = x := ih x (by simp)
            rw [pruneItems, if_neg (by simp), hx,
              ihrest (fun item hitem => ih item (by simp [hitem]))]
      rw [prune, hitems]
  | object members ih =>
      have hmembers : pruneMembers (fun _ => false) members = members := by
        induction members with
        | nil => rfl
        | cons member rest ihrest =>
            obtain ⟨key, x⟩ := member
            have hx : prune (below (.member key) fun _ => false) x = x :=
              ih (key, x) (by simp)
            rw [pruneMembers, if_neg (by simp), hx,
              ihrest (fun other hother => ih other (by simp [hother]))]
      rw [prune, hmembers]

theorem prune_inside (value : Json N) {gone : Place → Bool} (h : gone [] = false) :
    prune (inside gone) value = prune gone value := by
  have hstep : ∀ step : Step, inside gone [step] = gone [step] := by
    intro step
    rw [inside, h, Bool.false_or]
    rfl
  induction value generalizing gone with
  | null => rfl
  | bool b => rfl
  | number n => rfl
  | string s => rfl
  | array items ih =>
      have hitems : ∀ i, pruneItems (inside gone) i items = pruneItems gone i items := by
        induction items with
        | nil => exact fun _ => rfl
        | cons x rest ihrest =>
            intro i
            rw [pruneItems, pruneItems, hstep, below_inside h,
              ihrest (fun item hitem => ih item (by simp [hitem]))]
            split
            · rfl
            · rename_i hhere
              have hbelow : below (.item i) gone [] = false := by
                simpa [below] using hhere
              rw [ih x (by simp) hbelow]
              intro step
              rw [inside, hbelow, Bool.false_or]
              rfl
      rw [prune, prune, hitems]
  | object members ih =>
      have hmembers : pruneMembers (inside gone) members = pruneMembers gone members := by
        induction members with
        | nil => rfl
        | cons member rest ihrest =>
            obtain ⟨key, x⟩ := member
            rw [pruneMembers, pruneMembers, hstep, below_inside h,
              ihrest (fun other hother => ih other (by simp [hother]))]
            split
            · rfl
            · rename_i hhere
              have hbelow : below (.member key) gone [] = false := by
                simpa [below] using hhere
              rw [ih (key, x) (by simp) hbelow]
              intro step
              rw [inside, hbelow, Bool.false_or]
              rfl
      rw [prune, prune, hmembers]

theorem disregard_inside (gone : Place → Bool) (value : Json N) :
    disregard (inside gone) value = disregard gone value := by
  rcases hroot : gone [] with _ | _
  · rw [disregard_of_not_root hroot, disregard_of_not_root (by rw [inside, hroot]),
      prune_inside value hroot]
  · rw [disregard_root hroot, disregard_root (by rw [inside, hroot])]

/-! ### Values told apart at one place only -/

/-- A value that has the given one at a place and nothing else to speak of. -/
def plant : Place → Json N → Json N
  | [], leaf => leaf
  | .member key :: rest, leaf => .object [(key, plant rest leaf)]
  | .item i :: rest, leaf => .array (List.replicate i .null ++ [plant rest leaf])

theorem disregard_plant_iff (place : Place) (gone : Place → Bool) :
    disregard gone (plant place (.bool true : Json N)) =
        disregard gone (plant place (.bool false)) ↔ inside gone place = true := by
  induction place generalizing gone with
  | nil =>
      rcases hroot : gone [] with _ | _ <;> simp [disregard, plant, prune, inside, hroot]
  | cons step rest ih =>
      rcases hroot : gone [] with _ | _
      · rw [disregard_of_not_root hroot, disregard_of_not_root hroot, inside, hroot,
          Bool.false_or, ← ih (below step gone)]
        rcases step with key | i
        · rcases hhere : gone [.member key] with _ | _
          · simp [plant, prune, pruneMembers, disregard, below_apply, hhere]
          · simp [plant, prune, pruneMembers, disregard, below_apply, hhere]
        · rcases hhere : gone [.item i] with _ | _
          · simp [plant, prune, pruneItems_append, pruneItems, disregard, below_apply, hhere]
          · simp [plant, prune, pruneItems_append, pruneItems, disregard, below_apply, hhere]
      · simp [disregard_root hroot, inside, hroot]

theorem plant_fits (place : Place) (leaf : Json N) {n : Nat} (hplace : place.length ≤ n)
    (hleaf : ∀ depth, leaf.fits depth = true) : (plant place leaf).fits n = true := by
  induction place generalizing n with
  | nil => exact hleaf n
  | cons step rest ih =>
      obtain ⟨m, rfl⟩ : ∃ m, n = m + 1 := ⟨n - 1, by rw [List.length_cons] at hplace; omega⟩
      have hrest : (plant rest leaf).fits m = true :=
        ih (by rw [List.length_cons] at hplace; omega)
      rcases step with key | i
      · rw [plant, fits_object]
        exact ⟨by simp, by simpa using hrest⟩
      · rw [plant, fits_array]
        intro item hitem
        rcases List.mem_append.mp hitem with h | h
        · rw [List.eq_of_mem_replicate h]
          cases m <;> rfl
        · rw [List.mem_singleton.mp h]
          exact hrest

/-- A value is too shallow to have the places beyond its depth. -/
theorem prune_congr (value : Json N) {n : Nat} {gone other : Place → Bool}
    (hvalue : value.fits n = true)
    (h : ∀ place, place.length ≤ n → gone place = other place) :
    prune gone value = prune other value := by
  induction value generalizing n gone other with
  | null => rfl
  | bool b => rfl
  | number m => rfl
  | string s => rfl
  | array items ih =>
      rcases n with _ | n
      · cases hvalue
      have hbelow : ∀ (step : Step) place, place.length ≤ n →
          below step gone place = below step other place := by
        intro step place hplace
        exact h (step :: place) (by rw [List.length_cons]; omega)
      have hitems : ∀ i, pruneItems gone i items = pruneItems other i items := by
        rw [fits_array] at hvalue
        induction items with
        | nil => exact fun _ => rfl
        | cons x rest step =>
            intro i
            rw [pruneItems, pruneItems, h [.item i] (by simp),
              ih x (by simp) (hvalue x (by simp)) (hbelow (.item i)),
              step (fun item hitem => ih item (by simp [hitem]))
                (fun item hitem => hvalue item (by simp [hitem]))]
      rw [prune, prune, hitems]
  | object members ih =>
      rcases n with _ | n
      · cases hvalue
      have hbelow : ∀ (step : Step) place, place.length ≤ n →
          below step gone place = below step other place := by
        intro step place hplace
        exact h (step :: place) (by rw [List.length_cons]; omega)
      have hmembers : pruneMembers gone members = pruneMembers other members := by
        replace hvalue := (fits_object.mp hvalue).2
        induction members with
        | nil => rfl
        | cons member rest step =>
            obtain ⟨key, x⟩ := member
            rw [pruneMembers, pruneMembers, h [.member key] (by simp),
              ih (key, x) (by simp) (hvalue (key, x) (by simp)) (hbelow (.member key)),
              step (fun item hitem => ih item (by simp [hitem]))
                (fun item hitem => hvalue item (by simp [hitem]))]
      rw [prune, prune, hmembers]

theorem disregard_congr {value : Json N} {n : Nat} {gone other : Place → Bool}
    (hvalue : value.fits n = true)
    (h : ∀ place, place.length ≤ n → inside gone place = inside other place) :
    disregard gone value = disregard other value := by
  rw [← disregard_inside gone, ← disregard_inside other, disregard, disregard,
    h [] (Nat.zero_le n), prune_congr value hvalue h]

/-- Two sets of places tell the same values apart exactly when they cover the same
places, up to the depth of the values. -/
theorem inside_eq_iff (n : Nat) (gone other : Place → Bool) :
    (∀ place, place.length ≤ n → inside gone place = inside other place) ↔
      ∀ x y : Json N, x.fits n = true → y.fits n = true →
        (disregard gone x = disregard gone y ↔ disregard other x = disregard other y) := by
  constructor
  · intro h x y hx hy
    rw [disregard_congr hx h, disregard_congr hy h]
  · intro h place hplace
    have hleaf : ∀ b depth, (Json.bool b : Json N).fits depth = true := by
      intro b depth
      cases depth <;> rfl
    have hplant := h (plant place (.bool true)) (plant place (.bool false))
      (plant_fits place _ hplace (hleaf true)) (plant_fits place _ hplace (hleaf false))
    rw [disregard_plant_iff, disregard_plant_iff] at hplant
    rwa [Bool.eq_iff_iff]

/-! ### The places that pointers locate -/

def names (token : String) : Step → Bool
  | .member key => decide (key = token)
  | .item i => decide (parseIndex token = some i)

def locates : List String → Place → Bool
  | [], [] => true
  | token :: path, step :: rest => names token step && locates path rest
  | _, _ => false

def locatedBy (paths : List (List String)) (place : Place) : Bool :=
  paths.any fun path => locates path place

theorem pruneItems_modify {gone other : Place → Bool} {g : Json N → Json N} {i : Nat}
    (hhere : ∀ x, gone [.item i] = other [.item i] ∧ (gone [.item i] = false →
      prune (below (.item i) gone) (g x) = prune (below (.item i) other) x))
    (hother : ∀ j place, j ≠ i → gone (.item j :: place) = other (.item j :: place))
    (n k : Nat) (hi : i = n + k) (items : List (Json N)) :
    pruneItems gone n (items.modify k g) = pruneItems other n items := by
  induction items generalizing n k with
  | nil => simp [pruneItems]
  | cons x rest ih =>
      rcases k with _ | k
      · obtain rfl : i = n := hi
        have hrest : pruneItems gone (i + 1) rest = pruneItems other (i + 1) rest := by
          apply pruneItems_shift
          intro k place
          exact hother _ place (by omega)
        rw [List.modify_zero_cons, pruneItems, pruneItems, hrest, ← (hhere x).1]
        split
        · rfl
        · rename_i hgone
          rw [(hhere x).2 (by simpa using hgone)]
      · have hbelow : below (.item n) gone = below (.item n) other := by
          funext place
          exact hother n place (by omega)
        rw [List.modify_succ_cons, pruneItems, pruneItems, hother n [] (by omega), hbelow,
          ih (n + 1) k (by omega)]

/-- An update at a pointer does not show where all that the pointer locates is gone. -/
theorem disregard_modifyAt {path : List String} {gone : Place → Bool}
    (h : ∀ place, locates path place = true → gone place = true) (f : Json N → Json N)
    (value : Json N) : disregard gone (modifyAt path f value) = disregard gone value := by
  induction path generalizing gone value with
  | nil =>
      have hroot : gone [] = true := h [] rfl
      rw [disregard_root hroot, disregard_root hroot]
  | cons token rest ih =>
      have hbelow : ∀ step, names token step = true →
          ∀ place, locates rest place = true → below step gone place = true := by
        intro step hstep place hplace
        exact h (step :: place) (by rw [locates, hstep, hplace]; rfl)
      rcases hroot : gone [] with _ | _
      · rw [disregard_of_not_root hroot, disregard_of_not_root hroot]
        rcases value with _ | _ | _ | _ | items | members
        · rfl
        · rfl
        · rfl
        · rfl
        · rw [modifyAt_array, prune, prune]
          rcases htoken : parseIndex token with _ | i
          · rfl
          · have hstep : names token (.item i) = true := by simp [names, htoken]
            congr 1
            refine pruneItems_modify ?_ (fun _ _ _ => rfl) 0 i (Nat.zero_add i).symm items
            intro x
            refine ⟨rfl, fun hhere => ?_⟩
            exact prune_eq_of_disregard_eq hhere hhere (ih (hbelow _ hstep) x)
        · rw [modifyAt, prune, prune]
          congr 1
          induction members with
          | nil => rfl
          | cons member others ihm =>
              obtain ⟨key, x⟩ := member
              rw [List.map_cons]
              by_cases hkey : key = token
              · have hstep : names token (.member key) = true := by simp [names, hkey]
                rw [if_pos hkey, pruneMembers, pruneMembers, ihm]
                split
                · rfl
                · rename_i hhere
                  rw [prune_eq_of_disregard_eq (by simpa [below] using hhere)
                    (by simpa [below] using hhere) (ih (hbelow _ hstep) x)]
              · rw [if_neg hkey, pruneMembers, pruneMembers, ihm]
      · rw [disregard_root hroot, disregard_root hroot]

theorem disregard_overwriteAll {paths located : List (List String)}
    (h : ∀ path ∈ located, path ∈ paths) (c value : Json N) :
    disregard (locatedBy paths) (overwriteAll located c value) =
      disregard (locatedBy paths) value := by
  induction located generalizing value with
  | nil => rfl
  | cons path rest ih =>
      show disregard (locatedBy paths)
        (overwriteAll rest c (modifyAt path (fun _ => c) value)) = _
      rw [ih (fun p hp => h p (by simp [hp])), disregard_modifyAt]
      intro place hplace
      exact List.any_eq_true.mpr ⟨path, h path (by simp), hplace⟩

end EggReplay.Library.JsonPlaces
