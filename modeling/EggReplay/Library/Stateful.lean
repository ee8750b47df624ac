import EggReplay.Library.Checks

/-!
Computations that keep their state when they fail, and their refinement by a pure
computation: the results correspond, the failures are the same, and a view of the state
stays as it is.
-/

namespace EggReplay.Library.Stateful

open EggReplay.Library.Checks

variable {ε ε' σ ρ α β γ δ ι : Type}

def Op (ε σ α : Type) : Type := σ → Except ε α × σ

instance : Monad (Op ε σ) where
  pure a := fun s => (.ok a, s)
  bind x f := fun s =>
    match x s with
    | (.ok a, next) => f a next
    | (.error e, next) => (.error e, next)

def Op.fail (e : ε) : Op ε σ α := fun s => (.error e, s)

def Op.ofExcept (x : Except ε α) : Op ε σ α := fun s => (x, s)

def Op.modify (f : σ → σ) : Op ε σ Unit := fun s => (.ok (), f s)

/-- An operation that leaves no trace where it is rejected. -/
def Op.ofStep (step : σ → Except ε (σ × α)) : Op ε σ α := fun s =>
  match step s with
  | .ok (next, a) => (.ok a, next)
  | .error e => (.error e, s)

def Op.mapError (f : ε → ε') (x : Op ε σ α) : Op ε' σ α := fun s =>
  ((x s).1.mapError f, (x s).2)

/-- What goes out of scope is put away on the way out. -/
def Op.onFailure (x : Op ε σ α) (undo : σ → σ) : Op ε σ α := fun s =>
  match x s with
  | (.ok a, next) => (.ok a, next)
  | (.error e, next) => (.error e, undo next)

/-- The result as a value, so that nothing fails. -/
def Op.attempt (x : Op ε σ α) : Op ε' σ (Except ε α) := fun s => (.ok (x s).1, (x s).2)

def Op.fold (step : α → ι → Op ε σ α) : α → List ι → Op ε σ α
  | a, [] => Pure.pure a
  | a, item :: rest => step a item >>= fun next => Op.fold step next rest

theorem Op.ofStep_eq_ok {step : σ → Except ε (σ × α)} {s next : σ} {a : α} :
    Op.ofStep step s = (.ok a, next) ↔ step s = .ok (next, a) := by
  rcases hstep : step s with e | ⟨result, b⟩
  · simp [Op.ofStep, hstep]
  · simp [Op.ofStep, hstep, and_comm]

theorem Op.ofStep_eq_error {step : σ → Except ε (σ × α)} {s next : σ} {e : ε} :
    Op.ofStep step s = (.error e, next) ↔ step s = .error e ∧ s = next := by
  rcases hstep : step s with e' | ⟨result, b⟩
  · simp [Op.ofStep, hstep]
  · simp [Op.ofStep, hstep]

theorem Op.exists_of_isOk {x : Op ε σ α} {s : σ} (h : (x s).1.isOk = true) :
    ∃ a next, x s = (.ok a, next) := by
  rcases hx : x s with ⟨e | a, next⟩
  · rw [hx] at h
    cases h
  · exact ⟨a, next, rfl⟩

theorem Op.bind_of_ok {x : Op ε σ α} {f : α → Op ε σ β} {s next : σ} {a : α}
    (h : x s = (.ok a, next)) : (x >>= f) s = f a next := by
  show (match x s with
    | (.ok a, next) => f a next
    | (.error e, next) => (.error e, next)) = _
  rw [h]

theorem Op.bind_of_error {x : Op ε σ α} {f : α → Op ε σ β} {s next : σ} {e : ε}
    (h : x s = (.error e, next)) : (x >>= f) s = (.error e, next) := by
  show (match x s with
    | (.ok a, next) => f a next
    | (.error e, next) => (.error e, next)) = _
  rw [h]

theorem Op.bind_of_eq {x y : Op ε σ α} {f : α → Op ε σ β} {s t : σ} (h : x s = y t) :
    (x >>= f) s = (y >>= f) t := by
  show (match x s with
    | (.ok a, next) => f a next
    | (.error e, next) => (.error e, next)) = _
  rw [h]
  rfl

theorem Op.onFailure_of_eq {x y : Op ε σ α} {undo : σ → σ} {s t : σ} (h : x s = y t) :
    x.onFailure undo s = y.onFailure undo t := by
  rw [Op.onFailure, Op.onFailure, h]

theorem Op.onFailure_of_error {x : Op ε σ α} {undo : σ → σ} {s next : σ} {e : ε}
    (h : x s = (.error e, next)) : x.onFailure undo s = (.error e, undo next) := by
  rw [Op.onFailure, h]

theorem Op.onFailure_eq_ok {x : Op ε σ α} {undo : σ → σ} {s next : σ} {a : α} :
    x.onFailure undo s = (.ok a, next) ↔ x s = (.ok a, next) := by
  rcases h : x s with ⟨e | b, after⟩
  · simp [Op.onFailure, h]
  · simp [Op.onFailure, h]

theorem Op.bind_eq_ok {x : Op ε σ α} {f : α → Op ε σ β} {s last : σ} {b : β} :
    (x >>= f) s = (.ok b, last) ↔ ∃ a next, x s = (.ok a, next) ∧ f a next = (.ok b, last) := by
  rcases hx : x s with ⟨e | a, next⟩
  · rw [Op.bind_of_error hx]
    simp
  · rw [Op.bind_of_ok hx]
    simp

theorem Op.bind_assoc (x : Op ε σ α) (f : α → Op ε σ β) (g : β → Op ε σ γ) :
    x >>= f >>= g = x >>= fun a => f a >>= g := by
  funext s
  rcases hx : x s with ⟨e | a, next⟩
  · rw [Op.bind_of_error (Op.bind_of_error hx), Op.bind_of_error hx]
  · rw [Op.bind_of_ok hx]
    rcases hf : f a next with ⟨e | b, last⟩
    · rw [Op.bind_of_error ((Op.bind_of_ok hx).trans hf), Op.bind_of_error hf]
    · rw [Op.bind_of_ok ((Op.bind_of_ok hx).trans hf), Op.bind_of_ok hf]

/-! ### Failures -/

/-- Whatever the state, it fails only so. -/
def FailsOnly (kind : ε → Prop) (x : Op ε σ α) : Prop :=
  ∀ s e next, x s = (.error e, next) → kind e

section

variable {kind : ε → Prop} {x : Op ε σ α}

theorem failsOnly_pure (a : α) : FailsOnly kind (Pure.pure a : Op ε σ α) := by
  rintro s e next ⟨⟩

theorem FailsOnly.bind {f : α → Op ε σ β} (hx : FailsOnly kind x)
    (hf : ∀ a, FailsOnly kind (f a)) : FailsOnly kind (x >>= f) := by
  intro s e next h
  rcases hs : x s with ⟨e' | a, after⟩
  · rw [Op.bind_of_error hs] at h
    cases h
    exact hx s e next hs
  · rw [Op.bind_of_ok hs] at h
    exact hf a after e next h

theorem failsOnly_ofStep {step : σ → Except ε (σ × α)}
    (h : ∀ s e, step s = .error e → kind e) : FailsOnly kind (Op.ofStep step) := by
  intro s e next hstep
  exact h s e (Op.ofStep_eq_error.mp hstep).1

theorem failsOnly_fold {step : α → ι → Op ε σ α} (h : ∀ a item, FailsOnly kind (step a item))
    (items : List ι) (a : α) : FailsOnly kind (Op.fold step a items) := by
  induction items generalizing a with
  | nil => exact failsOnly_pure a
  | cons item rest ih => exact (h a item).bind ih

end

/-! ### Refinement -/

/-- From a state in `P`, the computation gives what the pure one gives, up to `R` where it
succeeds and with a state in `F` where it fails, and the view of the state is kept. -/
def Refines (view : σ → ρ) (P : σ → Prop) (R : α → β → σ → Prop) (F : σ → Prop)
    (x : Op ε σ α) (p : Except ε β) : Prop :=
  ∀ s, P s → view (x s).2 = view s ∧
    match (x s).1, p with
    | .ok a, .ok b => R a b (x s).2
    | .error e, .error e' => e = e' ∧ F (x s).2
    | _, _ => False

section

variable {view : σ → ρ} {P P' : σ → Prop} {R R' : α → β → σ → Prop} {F F' : σ → Prop}
  {x : Op ε σ α} {p : Except ε β}

theorem Refines.ok (h : Refines view P R F x p) {s next : σ} {a : α} (hs : P s)
    (hx : x s = (.ok a, next)) : view next = view s ∧ ∃ b, p = .ok b ∧ R a b next := by
  have hview := (h s hs).1
  have hresult := (h s hs).2
  rw [hx] at hview hresult
  cases p with
  | error e => exact hresult.elim
  | ok b => exact ⟨hview, b, rfl, hresult⟩

theorem Refines.error (h : Refines view P R F x p) {s next : σ} {e : ε} (hs : P s)
    (hx : x s = (.error e, next)) : view next = view s ∧ p = .error e ∧ F next := by
  have hview := (h s hs).1
  have hresult := (h s hs).2
  rw [hx] at hview hresult
  cases p with
  | error e' =>
      obtain ⟨rfl, hfailed⟩ := hresult
      exact ⟨hview, rfl, hfailed⟩
  | ok b => exact hresult.elim

theorem Refines.weaken (h : Refines view P R F x p) (hP : ∀ s, P' s → P s)
    (hR : ∀ a b s, R a b s → R' a b s) (hF : ∀ s, F s → F' s) :
    Refines view P' R' F' x p := by
  intro s hs
  have hx := h s (hP s hs)
  refine ⟨hx.1, ?_⟩
  have hresult := hx.2
  rcases hfst : (x s).1 with e | a
  · rw [hfst] at hresult
    cases p with
    | error e' => exact ⟨hresult.1, hF _ hresult.2⟩
    | ok b => exact hresult
  · rw [hfst] at hresult
    cases p with
    | error e' => exact hresult
    | ok b => exact hR _ _ _ hresult

/-- What the precondition says of the values alone may be assumed. -/
theorem refines_of_pre {q : Prop} (hq : ∀ s, P s → q) (h : q → Refines view P R F x p) :
    Refines view P R F x p :=
  fun s hs => h (hq s hs) s hs

theorem Refines.ite {c : Prop} [Decidable c] {y : Op ε σ α} {q : Except ε β}
    (hx : c → Refines view P R F x p) (hy : ¬c → Refines view P R F y q) :
    Refines view P R F (if c then x else y) (if c then p else q) := by
  by_cases h : c
  · rw [if_pos h, if_pos h]
    exact hx h
  · rw [if_neg h, if_neg h]
    exact hy h

theorem refines_pure {a : α} {b : β} (h : ∀ s, P s → R a b s) :
    Refines view P R F (Pure.pure a : Op ε σ α) (Pure.pure b) :=
  fun s hs => ⟨rfl, h s hs⟩

theorem refines_fail {e : ε} (h : ∀ s, P s → F s) :
    Refines view P R F (Op.fail e : Op ε σ α) (.error e) :=
  fun s hs => ⟨rfl, rfl, h s hs⟩

theorem refines_ofExcept {q : Except ε α} (hF : ∀ s, P s → F s) :
    Refines view P (fun a b s => a = b ∧ P s) F (Op.ofExcept q) q := by
  intro s hs
  refine ⟨rfl, ?_⟩
  cases q with
  | error e => exact ⟨rfl, hF s hs⟩
  | ok a => exact ⟨rfl, hs⟩

/-- A computation whose result is the pure one. -/
theorem refines_of_result {y : Op ε σ α} {q : Except ε α} {Q : σ → Prop}
    (h : ∀ s, P s → (y s).1 = q ∧ view (y s).2 = view s)
    (hok : ∀ s a, P s → q = .ok a → Q (y s).2) (herror : ∀ s e, P s → q = .error e → F (y s).2) :
    Refines view P (fun a b s => a = b ∧ Q s) F y q := by
  intro s hs
  obtain ⟨hresult, hview⟩ := h s hs
  refine ⟨hview, ?_⟩
  rw [hresult]
  cases q with
  | error e => exact ⟨rfl, herror s e hs rfl⟩
  | ok a => exact ⟨rfl, hok s a hs rfl⟩

theorem refines_ofStep_ok {step : σ → Except ε (σ × α)} {b : β}
    (h : ∀ s, P s → ∃ next a, step s = .ok (next, a) ∧ view next = view s ∧ R a b next) :
    Refines view P R F (Op.ofStep step) (.ok b) := by
  intro s hs
  obtain ⟨next, a, hstep, hview, hrelated⟩ := h s hs
  rw [Op.ofStep, hstep]
  exact ⟨hview, hrelated⟩

theorem refines_ofStep_error {step : σ → Except ε (σ × α)} {e : ε}
    (h : ∀ s, P s → step s = .error e ∧ F s) :
    Refines view P R F (Op.ofStep step) (.error e : Except ε β) := by
  intro s hs
  obtain ⟨hstep, hfailed⟩ := h s hs
  rw [Op.ofStep, hstep]
  exact ⟨rfl, rfl, hfailed⟩

theorem refines_modify {f : σ → σ} {Q : σ → Prop} (hview : ∀ s, P s → view (f s) = view s)
    (hQ : ∀ s, P s → Q (f s)) :
    Refines view P (fun _ _ s => Q s) F (Op.modify f : Op ε σ Unit) (.ok ()) :=
  fun s hs => ⟨hview s hs, hQ s hs⟩

theorem Refines.bind {S : γ → δ → σ → Prop} {f : α → Op ε σ γ} {g : β → Except ε δ}
    (h : Refines view P R F x p) (hf : ∀ a b, Refines view (R a b) S F (f a) (g b)) :
    Refines view P S F (x >>= f) (p >>= g) := by
  intro s hs
  rcases hx : x s with ⟨e | a, next⟩
  · obtain ⟨hview, rfl, hfailed⟩ := h.error hs hx
    rw [Op.bind_of_error hx]
    exact ⟨hview, rfl, hfailed⟩
  · obtain ⟨hview, b, rfl, hrelated⟩ := h.ok hs hx
    have hnext := hf a b next hrelated
    rw [Op.bind_of_ok hx]
    exact ⟨hnext.1.trans hview, hnext.2⟩

theorem Refines.mapError {f : ε → ε'} (h : Refines view P R F x p) :
    Refines view P R F (x.mapError f) (p.mapError f) := by
  intro s hs
  have hx := h s hs
  refine ⟨hx.1, ?_⟩
  have hresult := hx.2
  rw [Op.mapError]
  rcases hfst : (x s).1 with e | a
  · rw [hfst] at hresult
    cases p with
    | error e' => exact ⟨congrArg f hresult.1, hresult.2⟩
    | ok b => exact hresult
  · rw [hfst] at hresult
    cases p with
    | error e' => exact hresult
    | ok b => exact hresult

theorem Refines.onFailure {undo : σ → σ} (h : Refines view P R F x p)
    (hundo : ∀ s, F s → F' (undo s)) (hview : ∀ s, view (undo s) = view s) :
    Refines view P R F' (x.onFailure undo) p := by
  intro s hs
  rcases hx : x s with ⟨e | a, next⟩
  · obtain ⟨hkept, rfl, hfailed⟩ := h.error hs hx
    have hrun : x.onFailure undo s = (.error e, undo next) := by
      rw [Op.onFailure, hx]
    rw [hrun]
    exact ⟨(hview next).trans hkept, rfl, hundo next hfailed⟩
  · obtain ⟨hkept, b, rfl, hrelated⟩ := h.ok hs hx
    have hrun : x.onFailure undo s = (.ok a, next) := by
      rw [Op.onFailure, hx]
    rw [hrun]
    exact ⟨hkept, hrelated⟩

/-- The results of an attempt correspond as those of the computation do. -/
theorem Refines.attempt (h : Refines view P R F x p) :
    Refines view P
      (fun a b s => match a, b with
        | .ok a, .ok b => R a b s
        | .error e, .error e' => e = e' ∧ F s
        | _, _ => False)
      F' (x.attempt : Op ε' σ (Except ε α)) (.ok p) :=
  fun s hs => h s hs

theorem Refines.fold {Q : α → β → σ → Prop} {step : α → ι → Op ε σ α}
    {check : β → ι → Except ε β}
    (hstep : ∀ a b item, Refines view (Q a b) Q F (step a item) (check b item))
    {a : α} {b : β} (items : List ι) :
    Refines view (Q a b) Q F (Op.fold step a items) (checkFold check b items) := by
  induction items generalizing a b with
  | nil => exact refines_pure fun s hs => hs
  | cons item rest ih => exact (hstep a b item).bind fun a b => ih

end

end EggReplay.Library.Stateful
