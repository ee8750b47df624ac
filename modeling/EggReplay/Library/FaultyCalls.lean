import EggReplay.Library.Stateful

/-!
Computations made of calls each of which may fail where it stands: what such a computation
gives where none of its calls fails, and that it gives nothing where one of them does.
-/

namespace EggReplay.Library.FaultyCalls

open EggReplay.Library.Checks
open EggReplay.Library.Stateful

variable {ε σ α β : Type} {fails : Nat → Bool} {first count count' : Nat}

/-- A state, and how many calls were made on it. -/
structure Counted (σ : Type) where
  state : σ
  calls : Nat

/-- The call at a failing position does nothing; any other has its effect, and leaves the state
as it is where it is refused. -/
def call (fails : Nat → Bool) (error : ε) (effect : σ → Except ε (α × σ)) :
    Op ε (Counted σ) α := fun s =>
  if fails s.calls = true then (.error error, { s with calls := s.calls + 1 })
  else match effect s.state with
    | .error e => (.error e, { s with calls := s.calls + 1 })
    | .ok (a, next) => (.ok a, { state := next, calls := s.calls + 1 })

/-- The effect of a call that only looks at the state. -/
def looking (look : σ → Except ε α) (s : σ) : Except ε (α × σ) := (look s).map (·, s)

/-- A look at the state that is no call. -/
def peek (look : σ → Except ε α) : Op ε (Counted σ) α := fun s => (look s.state, s)

/-- None of so many calls, from the given one on, fails. -/
def Unfailing (fails : Nat → Bool) (first count : Nat) : Prop :=
  ∀ k < count, fails (first + k) = false

theorem unfailing_zero : Unfailing fails first 0 := fun k hk => absurd hk (Nat.not_lt_zero k)

theorem unfailing_one : Unfailing fails first 1 ↔ fails first = false := by
  constructor
  · intro h
    exact h 0 Nat.zero_lt_one
  · intro h k hk
    obtain rfl : k = 0 := by omega
    exact h

theorem unfailing_add :
    Unfailing fails first (count + count') ↔
      Unfailing fails first count ∧ Unfailing fails (first + count) count' := by
  constructor
  · intro h
    refine ⟨fun k hk => h k (by omega), fun k hk => ?_⟩
    rw [Nat.add_assoc]
    exact h (count + k) (by omega)
  · rintro ⟨hfirst, hrest⟩ k hk
    rcases Nat.lt_or_ge k count with hlt | hge
    · exact hfirst k hlt
    · have hposition : first + k = first + count + (k - count) := by omega
      rw [hposition]
      exact hrest (k - count) (by omega)

theorem not_unfailing_iff :
    ¬Unfailing fails first count ↔ ∃ k < count, fails (first + k) = true := by
  simp [Unfailing]

/-- The computation makes so many calls, and it succeeds exactly where none of them fails and
the pure computation does, with what that gives. -/
def Computes (fails : Nat → Bool) (count : Nat) (x : Op ε (Counted σ) α)
    (p : σ → Except ε (α × σ)) : Prop :=
  ∀ s a next, x s = (.ok a, next) ↔
    Unfailing fails s.calls count ∧ p s.state = .ok (a, next.state) ∧
      next.calls = s.calls + count

/-- The same for a computation that leaves the state as it is. -/
def Looks (fails : Nat → Bool) (count : Nat) (x : Op ε (Counted σ) α) (look : σ → Except ε α) :
    Prop :=
  Computes fails count x (looking look)

theorem looking_eq_ok {look : σ → Except ε α} {s next : σ} {a : α} :
    looking look s = .ok (a, next) ↔ look s = .ok a ∧ next = s := by
  cases h : look s with
  | error e => simp [looking, h, Except.map]
  | ok b => simp [looking, h, Except.map, eq_comm]

theorem call_of_failing {error : ε} {effect : σ → Except ε (α × σ)} {s : Counted σ}
    (h : fails s.calls = true) :
    call fails error effect s = (.error error, { s with calls := s.calls + 1 }) :=
  if_pos h

theorem call_error {error e : ε} {effect : σ → Except ε (α × σ)} {s next : Counted σ}
    (h : call fails error effect s = (.error e, next)) : next.state = s.state := by
  unfold call at h
  split at h
  · rw [← (Prod.mk.inj h).2]
  · rcases heffect : effect s.state with e' | ⟨b, after⟩
    · rw [heffect] at h
      rw [← (Prod.mk.inj h).2]
    · rw [heffect] at h
      cases h

theorem computes_call {error : ε} {effect : σ → Except ε (α × σ)} :
    Computes fails 1 (call fails error effect) effect := by
  intro s a next
  rw [unfailing_one]
  unfold call
  cases hfails : fails s.calls with
  | true => simp
  | false =>
      rcases heffect : effect s.state with e | ⟨b, after⟩
      · simp
      · obtain ⟨state, calls⟩ := next
        simp [and_assoc, eq_comm]

theorem looks_call {error : ε} {look : σ → Except ε α} :
    Looks fails 1 (call fails error (looking look)) look :=
  computes_call

theorem looks_peek {look : σ → Except ε α} : Looks fails 0 (peek look) look := by
  rintro s a ⟨state, calls⟩
  obtain ⟨before, count⟩ := s
  rw [looking_eq_ok]
  simp only [peek, Prod.mk.injEq, unfailing_zero, true_and, Nat.add_zero, Counted.mk.injEq]
  constructor
  · rintro ⟨hresult, rfl, rfl⟩
    exact ⟨⟨hresult, rfl⟩, rfl⟩
  · rintro ⟨⟨hresult, rfl⟩, rfl⟩
    exact ⟨hresult, rfl, rfl⟩

theorem looks_ofExcept {x : Except ε α} :
    Looks fails 0 (Op.ofExcept x : Op ε (Counted σ) α) fun _ => x := by
  show Looks fails 0 (peek fun _ => x) fun _ => x
  exact looks_peek

theorem looks_pure {a : α} : Looks fails 0 (pure a : Op ε (Counted σ) α) fun _ => .ok a :=
  looks_ofExcept

theorem computes_modify {f : σ → σ} :
    Computes fails 0 (Op.modify fun s => { s with state := f s.state } :
      Op ε (Counted σ) Unit) fun s => .ok ((), f s) := by
  rintro s a ⟨state, calls⟩
  simp [Op.modify, unfailing_zero, eq_comm]

theorem Computes.bind {x : Op ε (Counted σ) α} {f : α → Op ε (Counted σ) β}
    {p : σ → Except ε (α × σ)} {q : α → σ → Except ε (β × σ)}
    (hx : Computes fails count x p) (hf : ∀ a, Computes fails count' (f a) (q a)) :
    Computes fails (count + count') (x >>= f) fun s => p s >>= fun result =>
      q result.1 result.2 := by
  intro s b last
  rw [Op.bind_eq_ok, unfailing_add, Checks.bind_eq_ok]
  constructor
  · rintro ⟨a, next, hfirst, hrest⟩
    obtain ⟨hunfailing, hp, hcalls⟩ := (hx s a next).mp hfirst
    obtain ⟨hunfailing', hq, hcalls'⟩ := (hf a next b last).mp hrest
    rw [hcalls] at hunfailing'
    exact ⟨⟨hunfailing, hunfailing'⟩, ⟨(a, next.state), hp, hq⟩, by omega⟩
  · rintro ⟨⟨hunfailing, hunfailing'⟩, ⟨⟨a, state⟩, hp, hq⟩, hcalls⟩
    refine ⟨a, ⟨state, s.calls + count⟩, (hx s a _).mpr ⟨hunfailing, hp, rfl⟩, ?_⟩
    exact (hf a _ b last).mpr ⟨hunfailing', hq, by rw [hcalls, Nat.add_assoc]⟩

theorem Computes.congr {x : Op ε (Counted σ) α} {p q : σ → Except ε (α × σ)}
    (h : Computes fails count x p) (hpq : ∀ s a next, p s = .ok (a, next) ↔ q s = .ok (a, next)) :
    Computes fails count x q := by
  intro s a next
  rw [h s a next, hpq]

theorem Looks.bind {x : Op ε (Counted σ) α} {f : α → Op ε (Counted σ) β}
    {look : σ → Except ε α} {look' : α → σ → Except ε β} (hx : Looks fails count x look)
    (hf : ∀ a, Looks fails count' (f a) (look' a)) :
    Looks fails (count + count') (x >>= f) fun s => look s >>= fun a => look' a s := by
  refine Computes.congr (Computes.bind hx hf) fun s b last => ?_
  simp only [Checks.bind_eq_ok, looking_eq_ok, Prod.exists]
  constructor
  · rintro ⟨a, state, ⟨hlook, rfl⟩, hlook', rfl⟩
    exact ⟨⟨a, hlook, hlook'⟩, rfl⟩
  · rintro ⟨⟨a, hlook, hlook'⟩, rfl⟩
    exact ⟨a, last, ⟨hlook, rfl⟩, hlook', rfl⟩

theorem Looks.congr {x : Op ε (Counted σ) α} {look look' : σ → Except ε α}
    (h : Looks fails count x look) (hlook : ∀ s a, look s = .ok a ↔ look' s = .ok a) :
    Looks fails count x look' := by
  refine Computes.congr h fun s a next => ?_
  rw [looking_eq_ok, looking_eq_ok, hlook]

theorem Looks.eq_ok {x : Op ε (Counted σ) α} {look : σ → Except ε α}
    (h : Looks fails count x look) {s next : Counted σ} {a : α} :
    x s = (.ok a, next) ↔
      Unfailing fails s.calls count ∧ look s.state = .ok a ∧
        next = { s with calls := s.calls + count } := by
  rw [h s a next, looking_eq_ok, and_assoc]
  obtain ⟨state, calls⟩ := next
  simp

/-! ### What a computation keeps, whether or not it fails -/

/-- The view of the state stays as it is. -/
def Keeps {ρ : Type} (view : σ → ρ) (x : Op ε (Counted σ) α) : Prop :=
  ∀ s, view (x s).2.state = view s.state

section

variable {ρ : Type} {view : σ → ρ}

theorem keeps_call {error : ε} {effect : σ → Except ε (α × σ)}
    (h : ∀ s a next, effect s = .ok (a, next) → view next = view s) :
    Keeps view (call fails error effect) := by
  intro s
  unfold call
  split
  · rfl
  · rcases heffect : effect s.state with e | ⟨b, after⟩
    · rfl
    · exact h _ _ _ heffect

theorem keeps_call_looking {error : ε} {look : σ → Except ε α} :
    Keeps view (call fails error (looking look)) := by
  apply keeps_call
  intro s a next h
  rw [(looking_eq_ok.mp h).2]

theorem keeps_peek {look : σ → Except ε α} : Keeps view (peek look) := fun _ => rfl

theorem keeps_ofExcept {x : Except ε α} : Keeps view (Op.ofExcept x : Op ε (Counted σ) α) :=
  fun _ => rfl

theorem keeps_pure {a : α} : Keeps view (pure a : Op ε (Counted σ) α) := fun _ => rfl

theorem Keeps.bind {x : Op ε (Counted σ) α} {f : α → Op ε (Counted σ) β} (hx : Keeps view x)
    (hf : ∀ a, Keeps view (f a)) : Keeps view (x >>= f) := by
  intro s
  have hfirst := hx s
  rcases h : x s with ⟨e | a, next⟩
  · rw [Op.bind_of_error h]
    rw [h] at hfirst
    exact hfirst
  · rw [Op.bind_of_ok h]
    rw [h] at hfirst
    exact (hf a next).trans hfirst

end

end EggReplay.Library.FaultyCalls
