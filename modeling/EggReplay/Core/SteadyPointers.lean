import EggReplay.Core.RemovalPlaces

/-!
Pointers whose removals, made in turn, take away what the pointers locate: the last
token of each reads the same raw and unescaped, leniently and strictly, and no
removed item stands before an item that a later pointer goes through.
-/

namespace EggReplay.Core.SteadyPointers

open EggReplay.Library.Text
open EggReplay.Library.JsonText
open EggReplay.Library.JsonPointer
open EggReplay.Library.JsonPlaces
open EggReplay.Core.RemovalPlaces

/-! ### A pointer's container and last token -/

theorem startsWith_slash {s : String} :
    startsWith s "/" = true ↔ ∃ rest, s.toList = '/' :: rest := by
  rw [startsWith_iff]
  constructor
  · rintro ⟨rest, hrest⟩
    exact ⟨rest, hrest.symm⟩
  · rintro ⟨rest, hrest⟩
    exact ⟨rest, hrest.symm⟩

theorem tokens_of_removalOf {pointer : String} {path : List String} {token : String}
    (h : removalOf pointer = some (path, token)) :
    tokens pointer = some (path ++ [unescape token]) := by
  unfold removalOf at h
  split at h
  · cases h
  rename_i hempty
  rcases hsplit : rsplitOnce pointer '/' with _ | ⟨parent, last⟩
  · rw [hsplit] at h
    cases h
  rw [hsplit] at h
  obtain ⟨names, hnames, hpair⟩ := Option.map_eq_some_iff.mp h
  obtain ⟨rfl, rfl⟩ := Prod.mk.inj hpair
  obtain ⟨hchars, hlast⟩ := rsplitOnce_eq_some hsplit
  have hpieces : split pointer '/' = split parent '/' ++ [last] := by
    rw [split, split, hchars, splitChars_append, splitChars_of_not_mem hlast, List.map_append,
      List.map_singleton, String.ofList_toList]
  have hne : split parent '/' ≠ [] := by
    simp [split, splitChars_ne_nil]
  have hslash : startsWith pointer "/" = true := by
    rw [startsWith_slash, hchars]
    unfold tokens at hnames
    split at hnames
    · rename_i hparent
      exact ⟨last.toList, by rw [hparent]; rfl⟩
    · split at hnames
      · rename_i hstart
        obtain ⟨rest, hrest⟩ := startsWith_slash.mp hstart
        exact ⟨rest ++ '/' :: last.toList, by rw [hrest]; rfl⟩
      · cases hnames
  have hparent : names = (split parent '/').tail.map unescape := by
    unfold tokens at hnames
    split at hnames
    · rename_i hroot
      rw [← Option.some.inj hnames, hroot]
      rfl
    · split at hnames
      · exact (Option.some.inj hnames).symm
      · cases hnames
  rw [tokens, if_neg hempty, if_pos hslash, hpieces, List.tail_append_of_ne_nil hne,
    List.map_append, ← hparent]
  rfl

theorem tokens_of_not_removed {pointer : String} (hempty : pointer ≠ "")
    (h : removalOf pointer = none) : tokens pointer = none := by
  rw [removalOf, if_neg hempty] at h
  have hslash : ¬startsWith pointer "/" = true := by
    rw [startsWith_slash]
    rintro ⟨rest, hrest⟩
    rcases hsplit : rsplitOnce pointer '/' with _ | ⟨parent, last⟩
    · exact rsplitOnce_eq_none hsplit (by simp [hrest])
    · rw [hsplit] at h
      have hparent := Option.map_eq_none_iff.mp h
      obtain ⟨hchars, -⟩ := rsplitOnce_eq_some hsplit
      unfold tokens at hparent
      split at hparent
      · cases hparent
      · rename_i hne
        split at hparent
        · cases hparent
        · rename_i hstart
          rw [startsWith_slash] at hstart
          apply hstart
          rcases hlist : parent.toList with _ | ⟨c, chars⟩
          · exact absurd (by simpa using hlist) hne
          · rw [hrest, hlist] at hchars
            exact ⟨chars, by rw [(List.cons.inj hchars).1]⟩
  rw [tokens, if_neg hempty, if_neg hslash]

/-! ### What one removal does to places -/

theorem inside_or (gone other : Place → Bool) (place : Place) :
    inside (fun x => gone x || other x) place = (inside gone place || inside other place) := by
  induction place generalizing gone other with
  | nil => rfl
  | cons step rest ih =>
      rw [inside, inside, inside]
      have hbelow := ih (below step gone) (below step other)
      rw [show (below step fun x => gone x || other x) =
        fun x => below step gone x || below step other x from rfl, hbelow]
      cases gone [] <;> cases other [] <;> simp

theorem inside_nothing (place : Place) : inside (fun _ => false) place = false := by
  induction place with
  | nil => rfl
  | cons step rest ih =>
      rw [inside, Bool.false_or]
      exact ih

theorem inside_locatedBy (paths : List (List String)) (place : Place) :
    inside (locatedBy paths) place = paths.any fun path => inside (locates path) place := by
  induction paths with
  | nil => exact inside_nothing place
  | cons path rest ih =>
      rw [List.any_cons, ← ih, ← inside_or]
      rfl

theorem inside_locates_nil (place : Place) : inside (locates []) place = true := by
  cases place <;> rfl

theorem inside_locates_cons (token : String) (path : List String) (step : Step)
    (rest : Place) :
    inside (locates (token :: path)) (step :: rest) =
      (names token step && inside (locates path) rest) := by
  have hbelow : below step (locates (token :: path)) =
      fun place => names token step && locates path place := rfl
  rw [inside, hbelow]
  rcases names token step
  · exact inside_nothing rest
  · rfl

/-- Raw and unescaped, and parsed leniently and strictly, the token is the same. -/
def plain (token : String) : Bool :=
  decide (unescape token = token ∧ parseUsize token = parseIndex token)

theorem placeAfter_eq_none {token : String} (hplain : plain token = true)
    (path : List String) (place : Place) :
    (placeAfter path token place).isNone = inside (locates (path ++ [unescape token])) place := by
  obtain ⟨hraw, hindex⟩ := of_decide_eq_true hplain
  rw [hraw]
  induction path generalizing place with
  | nil =>
      rcases place with _ | ⟨step, rest⟩
      · rfl
      · rw [List.nil_append, inside_locates_cons, inside_locates_nil, Bool.and_true, placeAfter,
          Option.isNone_map]
        rcases step with key | j
        · by_cases hkey : key = token <;> simp [stepAfter, names, hkey]
        · rcases hparse : parseIndex token with _ | i
          · simp [stepAfter, names, hindex, hparse]
          · by_cases hj : j = i
            · simp [stepAfter, names, hindex, hparse, hj]
            · simp [stepAfter, names, hindex, hparse, hj, Ne.symm hj]
  | cons name path ih =>
      rcases place with _ | ⟨step, rest⟩
      · rfl
      · rw [List.cons_append, inside_locates_cons, placeAfter]
        rcases hname : names name step
        · rfl
        · rw [if_pos rfl, Option.isNone_map, ih rest, Bool.true_and]

def sameChild (left right : String) : Bool :=
  decide (left = right) ||
    decide (parseIndex left = parseIndex right ∧ (parseIndex left).isSome = true)

/-- Removing the child at the token moves an item that the later pointer goes through,
or removes it. -/
def shifts : List String → String → List String → Bool
  | _, _, [] => false
  | [], token, next :: _ =>
      match parseUsize token, parseIndex next with
      | some i, some j => decide (i ≤ j)
      | _, _ => false
  | name :: path, token, next :: rest => sameChild name next && shifts path token rest

theorem sameChild_of_names {left right : String} {step : Step}
    (hleft : names left step = true) (hright : names right step = true) :
    sameChild left right = true := by
  rcases step with key | i
  · have hl : key = left := of_decide_eq_true hleft
    have hr : key = right := of_decide_eq_true hright
    simp [sameChild, ← hl, ← hr]
  · have hl : parseIndex left = some i := of_decide_eq_true hleft
    have hr : parseIndex right = some i := of_decide_eq_true hright
    simp [sameChild, hl, hr]

theorem names_after {token next : String} {step moved : Step}
    (hshifts : shifts [] token (next :: []) = false)
    (h : stepAfter token step = some moved) : names next moved = names next step := by
  rcases step with key | j
  · simp only [stepAfter] at h
    split at h
    · cases h
    · rw [Option.some.inj h]
  · simp only [stepAfter] at h
    rcases hindex : parseUsize token with _ | i
    · rw [hindex] at h
      rw [Option.some.inj h]
    · rw [hindex] at h
      dsimp only at h
      split at h
      · cases h
      · rename_i hj
        obtain rfl := Option.some.inj h
        rcases hnext : parseIndex next with _ | k
        · simp [names, hnext]
        · have hk : k < i := by
            simpa [shifts, hindex, hnext] using hshifts
          split
          · have hleft : k ≠ j - 1 := by omega
            have hright : k ≠ j := by omega
            simp [names, hnext, hleft, hright]
          · rfl

theorem inside_locates_after {path later : List String} {token : String}
    {place next : Place} (hshifts : shifts path token later = false)
    (h : placeAfter path token place = some next) :
    inside (locates later) next = inside (locates later) place := by
  induction path generalizing later place next with
  | nil =>
      rcases place with _ | ⟨step, rest⟩
      · obtain rfl := Option.some.inj h
        rfl
      · simp only [placeAfter, Option.map_eq_some_iff] at h
        obtain ⟨moved, hmoved, rfl⟩ := h
        rcases later with _ | ⟨name, later⟩
        · rw [inside_locates_nil, inside_locates_nil]
        · rw [inside_locates_cons, inside_locates_cons, names_after hshifts hmoved]
  | cons name path ih =>
      rcases place with _ | ⟨step, rest⟩
      · obtain rfl := Option.some.inj h
        rfl
      · rw [placeAfter] at h
        split at h
        · rename_i hname
          obtain ⟨after, hafter, rfl⟩ := Option.map_eq_some_iff.mp h
          rcases later with _ | ⟨other, later⟩
          · rw [inside_locates_nil, inside_locates_nil]
          · rw [inside_locates_cons, inside_locates_cons]
            rcases hother : names other step
            · rfl
            · rw [shifts, sameChild_of_names hname hother, Bool.true_and] at hshifts
              rw [ih hshifts hafter]
        · rw [Option.some.inj h]

theorem inside_locatedBy_after {path : List String} {token : String}
    {laters : List (List String)} {place next : Place}
    (hshifts : ∀ later ∈ laters, shifts path token later = false)
    (h : placeAfter path token place = some next) :
    inside (locatedBy laters) next = inside (locatedBy laters) place := by
  rw [inside_locatedBy, inside_locatedBy]
  induction laters with
  | nil => rfl
  | cons later laters ih =>
      rw [List.any_cons, List.any_cons, inside_locates_after (hshifts later (by simp)) h,
        ih fun other hother => hshifts other (by simp [hother])]

/-! ### Removals in turn -/

def plainEnd (pointer : String) : Bool :=
  match removalOf pointer with
  | none => true
  | some (_, token) => plain token

def disturbs (pointer later : String) : Bool :=
  match removalOf pointer, tokens later with
  | some (path, token), some laterPath => shifts path token laterPath
  | _, _ => false

structure Steady (pointers : List String) : Prop where
  not_root : "" ∉ pointers
  plain_ends : ∀ pointer ∈ pointers, plainEnd pointer = true
  undisturbed : pointers.Pairwise fun pointer later => disturbs pointer later = false

theorem removed_eq_inside {pointers : List String} (h : Steady pointers) :
    removed pointers = inside (locatedBy (pointers.filterMap tokens)) := by
  induction pointers with
  | nil =>
      funext place
      exact (inside_nothing place).symm
  | cons pointer rest ih =>
      obtain ⟨hroot, hplain, hdisturbs⟩ := h
      obtain ⟨hfirst, hrest⟩ := List.pairwise_cons.mp hdisturbs
      have hsteady : Steady rest :=
        ⟨fun hmem => hroot (by simp [hmem]), fun p hp => hplain p (by simp [hp]), hrest⟩
      funext place
      rw [removed_cons, ih hsteady, pullBack, placeAfterRemoval]
      rcases hremoval : removalOf pointer with _ | ⟨path, token⟩
      · rw [List.filterMap_cons_none
          (tokens_of_not_removed (fun hempty => hroot (by simp [hempty])) hremoval)]
      · have htoken : plain token = true := by
          have hend := hplain pointer (by simp)
          rwa [plainEnd, hremoval] at hend
        have hlaters : ∀ later ∈ rest.filterMap tokens, shifts path token later = false := by
          intro later hlater
          obtain ⟨other, hother, htokens⟩ := List.mem_filterMap.mp hlater
          have hdisturb := hfirst other hother
          rwa [disturbs, hremoval, htokens] at hdisturb
        rw [List.filterMap_cons_some (tokens_of_removalOf hremoval), inside_locatedBy,
          List.any_cons, ← inside_locatedBy, ← placeAfter_eq_none htoken]
        dsimp only
        rcases hafter : placeAfter path token place with _ | next
        · rfl
        · exact inside_locatedBy_after hlaters hafter

end EggReplay.Core.SteadyPointers
