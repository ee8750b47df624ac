import EggReplay.Library.Checks

/-!
Two runs of checked computations side by side: both are rejected with the same error, or both are
accepted with results that stand in a relation.
-/

namespace EggReplay.Library.TwoRuns

open EggReplay.Library.Checks

variable {ε ε' α β γ δ σ τ : Type}

inductive Alike (R : α → β → Prop) : Except ε α → Except ε β → Prop
  | error (e : ε) : Alike R (.error e) (.error e)
  | ok {a : α} {b : β} (h : R a b) : Alike R (.ok a) (.ok b)

theorem alike_refl {R : α → α → Prop} (hrefl : ∀ a, R a a) (x : Except ε α) : Alike R x x := by
  cases x with
  | error e => exact .error e
  | ok a => exact .ok (hrefl a)

theorem Alike.eq {x y : Except ε α} (h : Alike Eq x y) : x = y := by
  cases h with
  | error e => rfl
  | ok h => rw [h]

/-- The sequence rule: what the first steps leave related, the second ones take related. -/
theorem Alike.bind {R : α → β → Prop} {S : γ → δ → Prop} {x : Except ε α} {y : Except ε β}
    {f : α → Except ε γ} {g : β → Except ε δ} (h : Alike R x y)
    (hnext : ∀ a b, R a b → Alike S (f a) (g b)) : Alike S (x >>= f) (y >>= g) := by
  cases h with
  | error e => exact .error e
  | ok h => exact hnext _ _ h

/-- The same, where the second steps also know what the first ones returned. -/
theorem Alike.bind_of_ok {R : α → β → Prop} {S : γ → δ → Prop} {x : Except ε α}
    {y : Except ε β} {f : α → Except ε γ} {g : β → Except ε δ} (h : Alike R x y)
    (hnext : ∀ a b, x = .ok a → y = .ok b → R a b → Alike S (f a) (g b)) :
    Alike S (x >>= f) (y >>= g) := by
  cases h with
  | error e => exact .error e
  | ok h => exact hnext _ _ rfl rfl h

theorem Alike.mapError {R : α → β → Prop} {x : Except ε α} {y : Except ε β} (h : Alike R x y)
    (f : ε → ε') : Alike R (x.mapError f) (y.mapError f) := by
  cases h with
  | error e => exact .error (f e)
  | ok h => exact .ok h

theorem Alike.imp {R S : α → β → Prop} {x : Except ε α} {y : Except ε β} (h : Alike R x y)
    (himp : ∀ a b, R a b → S a b) : Alike S x y := by
  cases h with
  | error e => exact .error e
  | ok h => exact .ok (himp _ _ h)

/-- The loop rule: related elements keep the states related. -/
theorem Alike.checkFold {R : σ → τ → Prop} {Q : α → β → Prop} {f : σ → α → Except ε σ}
    {g : τ → β → Except ε τ}
    (hstep : ∀ s t a b, R s t → Q a b → Alike R (f s a) (g t b)) {s : σ} {t : τ}
    (hstart : R s t) {left : List α} {right : List β} (h : List.Forall₂ Q left right) :
    Alike R (checkFold f s left) (checkFold g t right) := by
  induction h generalizing s t with
  | nil => exact .ok hstart
  | cons hfirst _ ih => exact (hstep s t _ _ hstart hfirst).bind fun _ _ hnext => ih hnext

/-- The same for a loop that cannot fail. -/
theorem foldl_related {R : σ → τ → Prop} {Q : α → β → Prop} {f : σ → α → σ} {g : τ → β → τ}
    (hstep : ∀ s t a b, R s t → Q a b → R (f s a) (g t b)) {s : σ} {t : τ}
    (hstart : R s t) {left : List α} {right : List β} (h : List.Forall₂ Q left right) :
    R (left.foldl f s) (right.foldl g t) := by
  induction h generalizing s t with
  | nil => exact hstart
  | cons hfirst _ ih => exact ih (hstep s t _ _ hstart hfirst)

end EggReplay.Library.TwoRuns
