import Mathlib

/-!
Validators as sequences of guarded checks. A validator in the `Except` monad
succeeds exactly when each of its checks does, so a proof about a validator
reads its conditions off these lemmas and never unfolds the monad.
-/

namespace EggReplay.Library.Checks

variable {ε ε' α β σ : Type}

def ensure (condition : Prop) [Decidable condition] (message : ε) : Except ε Unit :=
  if condition then .ok () else .error message

@[simp] theorem ensure_eq_ok {condition : Prop} [Decidable condition] {message : ε}
    {u : Unit} : ensure condition message = .ok u ↔ condition := by
  unfold ensure
  split <;> simp_all

@[simp] theorem ensure_of_true {condition : Prop} [Decidable condition] {message : ε}
    (h : condition) : ensure condition message = .ok () := by
  simpa using h

theorem ensure_eq_error {condition : Prop} [Decidable condition] {message e : ε} :
    ensure condition message = .error e ↔ ¬condition ∧ message = e := by
  unfold ensure
  split <;> simp_all

theorem ensure_of_false {condition : Prop} [Decidable condition] {message : ε}
    (h : ¬condition) : ensure condition message = .error message := by
  simp [ensure, h]

@[simp] theorem bind_eq_ok {x : Except ε α} {f : α → Except ε β} {b : β} :
    (x >>= f) = .ok b ↔ ∃ a, x = .ok a ∧ f a = .ok b := by
  cases x <;> simp [bind, Except.bind]

@[simp high] theorem bind_unit_eq_ok {x : Except ε Unit} {f : Unit → Except ε β} {b : β} :
    (x >>= f) = .ok b ↔ x = .ok () ∧ f () = .ok b := by
  rcases x with e | ⟨⟩ <;> simp [bind, Except.bind]

@[simp] theorem bind_eq_error {x : Except ε α} {f : α → Except ε β} {e : ε} :
    (x >>= f) = .error e ↔ x = .error e ∨ ∃ a, x = .ok a ∧ f a = .error e := by
  cases x <;> simp [bind, Except.bind]

@[simp] theorem map_eq_ok {x : Except ε α} {f : α → β} {b : β} :
    (f <$> x) = .ok b ↔ ∃ a, x = .ok a ∧ f a = b := by
  cases x <;> simp [Functor.map, Except.map]

@[simp high] theorem map_unit_eq_ok {x : Except ε Unit} {f : Unit → β} {b : β} :
    (f <$> x) = .ok b ↔ x = .ok () ∧ f () = b := by
  rcases x with e | ⟨⟩ <;> simp [Functor.map, Except.map]

@[simp] theorem pure_eq_ok {a b : α} : (pure a : Except ε α) = .ok b ↔ a = b := by
  simp [pure, Except.pure]

@[simp] theorem pure_ne_error {a : α} {e : ε} :
    (pure a : Except ε α) = .error e ↔ False := by
  simp [pure, Except.pure]

@[simp] theorem ok_bind (a : α) (f : α → Except ε β) :
    ((.ok a : Except ε α) >>= f) = f a := rfl

@[simp] theorem error_bind (e : ε) (f : α → Except ε β) :
    ((.error e : Except ε α) >>= f) = .error e := rfl

/-- A check that is made under a condition only. -/
def checkWhen (condition : Prop) [Decidable condition] (check : Except ε Unit) :
    Except ε Unit :=
  if condition then check else .ok ()

@[simp] theorem checkWhen_eq_ok {condition : Prop} [Decidable condition]
    {check : Except ε Unit} {u : Unit} :
    checkWhen condition check = .ok u ↔ (condition → check = .ok ()) := by
  unfold checkWhen
  split <;> simp_all

theorem exists_error_iff {x : Except ε α} :
    (∃ e, x = .error e) ↔ ∀ a, x ≠ .ok a := by
  cases x <;> simp

def orFail (value : Option α) (message : ε) : Except ε α :=
  match value with
  | some a => .ok a
  | none => .error message

@[simp] theorem orFail_eq_ok {value : Option α} {message : ε} {a : α} :
    orFail value message = .ok a ↔ value = some a := by
  cases value <;> simp [orFail]

@[simp] theorem orFail_some (a : α) (message : ε) :
    orFail (some a) message = .ok a := rfl

@[simp] theorem mapError_eq_ok {f : ε → ε'} {x : Except ε α} {a : α} :
    x.mapError f = .ok a ↔ x = .ok a := by
  cases x <;> simp [Except.mapError]

theorem mapError_bind (x : Except ε α) (f : α → Except ε β) (g : ε → ε') :
    (x >>= f).mapError g = x.mapError g >>= fun a => (f a).mapError g := by
  cases x with
  | error e => rfl
  | ok a => rfl

theorem mapError_ensure {condition : Prop} [Decidable condition] (e : ε)
    (g : ε → ε') : (ensure condition e).mapError g = ensure condition (g e) := by
  by_cases h : condition
  · rw [ensure_of_true h, ensure_of_true h]
    rfl
  · rw [ensure_of_false h, ensure_of_false h]
    rfl

theorem isOk_iff {x : Except ε α} : x.isOk = true ↔ ∃ a, x = .ok a := by
  cases x with
  | error e => simp [Except.isOk, Except.toBool]
  | ok a => simp [Except.isOk, Except.toBool]

/-- The state after an operation: what it made of it, or the old one where the
operation was rejected. -/
def settle (result : Except ε α) (unchanged : σ) (accept : α → σ) : σ :=
  match result with
  | .ok a => accept a
  | .error _ => unchanged

theorem settle_induction {P : σ → Prop} {result : Except ε α} {unchanged : σ}
    {accept : α → σ} (hunchanged : P unchanged)
    (haccept : ∀ a, result = .ok a → P (accept a)) : P (settle result unchanged accept) := by
  rcases result with e | a
  · exact hunchanged
  · exact haccept a rfl

theorem eq_ok_settle {result : Except ε α} {a : α} (h : settle result false (fun _ => true) = true) :
    result = .ok (settle result a id) := by
  rcases result with e | b
  · simp [settle] at h
  · rfl

/-- Run a check on each element in order, stopping at the first failure. -/
def checkAll (check : α → Except ε Unit) : List α → Except ε Unit
  | [] => .ok ()
  | a :: rest => check a >>= fun _ => checkAll check rest

@[simp] theorem checkAll_eq_ok {check : α → Except ε Unit} {items : List α} {u : Unit} :
    checkAll check items = .ok u ↔ ∀ a ∈ items, check a = .ok () := by
  induction items with
  | nil => simp [checkAll]
  | cons a rest ih =>
      simp only [checkAll, bind_unit_eq_ok, ih, List.forall_mem_cons]

/-- Thread a state through a list of checks, stopping at the first failure. -/
def checkFold (check : σ → α → Except ε σ) : σ → List α → Except ε σ
  | state, [] => .ok state
  | state, a :: rest => check state a >>= fun next => checkFold check next rest

@[simp] theorem checkFold_nil (check : σ → α → Except ε σ) (state : σ) :
    checkFold check state [] = .ok state := rfl

@[simp] theorem checkFold_cons (check : σ → α → Except ε σ) (state : σ) (a : α)
    (rest : List α) :
    checkFold check state (a :: rest) =
      check state a >>= fun next => checkFold check next rest := rfl

theorem checkFold_ok (step : σ → α → σ) (state : σ) (items : List α) :
    checkFold (fun state a => (.ok (step state a) : Except ε σ)) state items =
      .ok (items.foldl step state) := by
  induction items generalizing state with
  | nil => rfl
  | cons a rest ih => exact ih (step state a)

/-- A fold over translated states and elements, where the check goes along with the
translation. -/
theorem checkFold_map {τ β : Type} {check : σ → α → Except ε σ} {check' : τ → β → Except ε τ}
    {f : σ → τ} {g : α → β}
    (hstep : ∀ state a, check' (f state) (g a) = (check state a).map f) (state : σ)
    (items : List α) :
    checkFold check' (f state) (items.map g) = (checkFold check state items).map f := by
  induction items generalizing state with
  | nil => rfl
  | cons a rest ih =>
      rw [List.map_cons, checkFold_cons, checkFold_cons, hstep]
      rcases check state a with e | next
      · rfl
      · exact ih next

theorem checkFold_append (check : σ → α → Except ε σ) (state : σ)
    (left right : List α) :
    checkFold check state (left ++ right) =
      checkFold check state left >>= fun next => checkFold check next right := by
  induction left generalizing state with
  | nil => rfl
  | cons a rest ih =>
      simp only [List.cons_append, checkFold_cons]
      cases check state a with
      | error e => rfl
      | ok next => exact ih next

/-- Each element of an accepted list has passed the check. -/
theorem exists_check_of_mem {check : σ → α → Except ε σ} {state final : σ} {items : List α}
    (hrun : checkFold check state items = .ok final) {a : α} (ha : a ∈ items) :
    ∃ before after, check before a = .ok after := by
  induction items generalizing state with
  | nil => exact absurd ha List.not_mem_nil
  | cons first rest ih =>
      simp only [checkFold_cons, bind_eq_ok] at hrun
      obtain ⟨next, hnext, hrest⟩ := hrun
      rcases List.mem_cons.mp ha with rfl | ha
      · exact ⟨state, next, hnext⟩
      · exact ih hrest ha

/-- The invariant rule of a checked fold: what each accepted step preserves
holds of the final state. -/
theorem checkFold_invariant {check : σ → α → Except ε σ} (P : σ → Prop)
    (hstep : ∀ state a next, P state → check state a = .ok next → P next)
    {state final : σ} {items : List α} (hstart : P state)
    (hrun : checkFold check state items = .ok final) : P final := by
  induction items generalizing state with
  | nil =>
      cases hrun
      exact hstart
  | cons a rest ih =>
      simp only [checkFold_cons, bind_eq_ok] at hrun
      obtain ⟨next, hnext, hrest⟩ := hrun
      exact ih (hstep state a next hstart hnext) hrest

/-- The simulation rule of two checked folds over the same elements: where the one is accepted,
so is the other, and the states stay related. -/
theorem checkFold_simulation {τ ε' : Type} {check : σ → α → Except ε σ}
    {check' : τ → α → Except ε' τ} (R : σ → τ → Prop)
    (hstep : ∀ state other a next, R state other → check state a = .ok next →
      ∃ later, check' other a = .ok later ∧ R next later)
    {state final : σ} {other : τ} {items : List α} (hstart : R state other)
    (hrun : checkFold check state items = .ok final) :
    ∃ later, checkFold check' other items = .ok later ∧ R final later := by
  induction items generalizing state other with
  | nil =>
      cases hrun
      exact ⟨other, rfl, hstart⟩
  | cons a rest ih =>
      rw [checkFold_cons, bind_eq_ok] at hrun
      obtain ⟨next, hnext, hrest⟩ := hrun
      obtain ⟨later, hlater, hrelated⟩ := hstep state other a next hstart hnext
      obtain ⟨last, hlast, hend⟩ := ih hrelated hrest
      refine ⟨last, ?_, hend⟩
      rw [checkFold_cons, hlater]
      exact hlast

/-! ### Every element -/

theorem mapM_eq_ok {f : α → Except ε β} {items : List α} {results : List β} :
    items.mapM f = .ok results ↔ List.Forall₂ (fun a b => f a = .ok b) items results := by
  induction items generalizing results with
  | nil =>
      rw [List.mapM_nil, pure_eq_ok, List.forall₂_nil_left_iff, eq_comm]
  | cons a rest ih =>
      simp only [List.mapM_cons, bind_eq_ok, pure_eq_ok, ih]
      constructor
      · rintro ⟨b, hb, others, hothers, rfl⟩
        exact .cons hb hothers
      · intro h
        cases h with
        | cons hb hothers => exact ⟨_, hb, _, hothers, rfl⟩

theorem exists_of_mem_right {R : α → β → Prop} {left : List α} {right : List β}
    (h : List.Forall₂ R left right) {b : β} (hb : b ∈ right) : ∃ a ∈ left, R a b := by
  induction h with
  | nil => exact absurd hb List.not_mem_nil
  | cons hfirst _ ih =>
      rcases List.mem_cons.mp hb with rfl | hb
      · exact ⟨_, List.mem_cons_self, hfirst⟩
      · obtain ⟨a, ha, hab⟩ := ih hb
        exact ⟨a, List.mem_cons_of_mem _ ha, hab⟩

theorem exists_of_mem_left {R : α → β → Prop} {left : List α} {right : List β}
    (h : List.Forall₂ R left right) {a : α} (ha : a ∈ left) : ∃ b ∈ right, R a b := by
  obtain ⟨b, hb, hab⟩ := exists_of_mem_right h.flip ha
  exact ⟨b, hb, hab⟩

end EggReplay.Library.Checks
