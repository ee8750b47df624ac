import EggReplay.Library.Strides
import EggReplay.Library.TransitionSystem
import Mathlib.Data.List.Nodup

/-!
Serial numbers of leaves: a seed made once, a counter that every call advances, and the calls of
a process in any interleaving. The serials are distinct, and positive until the counter meets
the seed.
-/

namespace EggReplay.Intercept.SerialNumbers

open EggReplay.Library.Strides
open EggReplay.Library.TransitionSystem

/-! ### The counter -/

def stride : UInt64 := 0x9E3779B97F4A7C15

def mask : UInt64 := 0x7FFFFFFFFFFFFFFF

def fallback : UInt64 := 0x9E3779B97F4A7C15

/-- The clock is the time since the epoch in nanoseconds, if it is not before it. -/
def clockWord (clock : Option Nat) : UInt64 :=
  match clock with
  | some nanos => if nanos < 2 ^ 64 then UInt64.ofNat nanos else fallback
  | none => fallback

def initialSeed (clock : Option Nat) (processId : UInt32) : UInt64 :=
  (clockWord clock * 0x9E3779B97F4A7C15 + processId.toUInt64 * 0xBF58476D1CE4E5B9) |||
    0x0100000000000001

/-- A call: it reads the seed, takes its turn at the counter, and returns. -/
inductive Call where
  | begun
  | seeded (seed : UInt64)
  | stepped (seed : UInt64) (offset : UInt64)
  | returned (serial : UInt64)
  deriving DecidableEq, Repr

structure SerialState where
  seed : Option UInt64
  counter : UInt64
  calls : List Call
  deriving DecidableEq, Repr

/-- What a call does next, and what the clock says if it asks. -/
structure Turn where
  caller : Nat
  clock : Option Nat
  deriving DecidableEq, Repr

/-- One atomic part of `next_serial`. -/
def nextSerial (processId : UInt32) (state : SerialState) (turn : Turn) : Option SerialState :=
  match state.calls[turn.caller]? with
  | some .begun =>
      let seed := state.seed.getD (initialSeed turn.clock processId)
      some { state with
        seed := some seed
        calls := state.calls.set turn.caller (.seeded seed) }
  | some (.seeded seed) =>
      some { state with
        counter := state.counter + stride
        calls := state.calls.set turn.caller (.stepped seed state.counter) }
  | some (.stepped seed offset) =>
      some { state with
        calls := state.calls.set turn.caller (.returned ((seed + offset) &&& mask)) }
  | some (.returned _) | none => none

/-- A process that will make so many calls. -/
def fresh (count : Nat) : SerialState where
  seed := none
  counter := 0
  calls := List.replicate count .begun

/-- What the clock says when the seed is made: in the first turn. -/
def firstClock (turns : List Turn) : Option Nat := turns.head?.bind Turn.clock

def Returned (state : SerialState) (serials : List UInt64) : Prop :=
  state.calls = serials.map Call.returned

/-! ### Serials by their place -/

def offsetAt (index : Nat) : UInt64 := UInt64.ofNat (index * stride.toNat)

def serialAt (seed : UInt64) (index : Nat) : UInt64 := (seed + offsetAt index) &&& mask

/-- Half a word, and the inverse of the stride in it. -/
def width : Nat := 2 ^ 63

def strideInverse : Nat := 0x71DE83E19937733D

theorem width_pos : 0 < width := Nat.two_pow_pos 63

theorem stride_inverse : stride.toNat * strideInverse ≡ 1 [MOD width] := by decide

theorem serialAt_toNat (seed : UInt64) (index : Nat) :
    (serialAt seed index).toNat = visit width stride.toNat seed.toNat index := by
  have hmask : mask.toNat = 2 ^ 63 - 1 := rfl
  rw [serialAt, UInt64.toNat_and, hmask, Nat.and_two_pow_sub_one_eq_mod, UInt64.toNat_add, offsetAt,
    UInt64.toNat_ofNat', visit, width, Nat.add_mod_mod, Nat.mod_mod_of_dvd]
  exact Nat.pow_dvd_pow 2 (by decide)

theorem offsetAt_succ (index : Nat) : offsetAt index + stride = offsetAt (index + 1) := by
  apply UInt64.toNat_inj.mp
  rw [UInt64.toNat_add, offsetAt, offsetAt, UInt64.toNat_ofNat', UInt64.toNat_ofNat',
    Nat.mod_add_mod, Nat.succ_mul]

theorem serialAt_lt (seed : UInt64) (index : Nat) : (serialAt seed index).toNat < 2 ^ 63 := by
  rw [serialAt_toNat]
  exact visit_lt width_pos _ _

theorem serialAt_inj {seed : UInt64} {first second : Nat} (hfirst : first < 2 ^ 63)
    (hsecond : second < 2 ^ 63) (h : serialAt seed first = serialAt seed second) :
    first = second := by
  have hvisit := congrArg UInt64.toNat h
  rw [serialAt_toNat, serialAt_toNat] at hvisit
  exact visit_inj stride_inverse hfirst hsecond hvisit

/-! ### Runs -/

/-- The serial that a call returns or is about to return. -/
def Call.serial : Call → Option UInt64
  | .begun | .seeded _ => none
  | .stepped seed offset => some ((seed + offset) &&& mask)
  | .returned serial => some serial

/-- The seed that a call has read. -/
def Call.seed : Call → Option UInt64
  | .begun | .returned _ => none
  | .seeded seed | .stepped seed _ => some seed

/-- So many calls have had their turn at the counter. -/
structure Counted (seed : UInt64) (state : SerialState) (taken : Nat) : Prop where
  counter : state.counter = offsetAt taken
  serials : (state.calls.filterMap Call.serial).Perm ((List.range taken).map (serialAt seed))
  seeds : ∀ call ∈ state.calls, ∀ found, call.seed = some found → found = seed

section

variable {seed : UInt64} {state next : SerialState} {taken count : Nat} {turn : Turn}
  {calls : List Call} {call after : Call}

theorem filterMap_set_same {caller : Nat} (after : Call) (hcall : calls[caller]? = some call)
    (h : after.serial = call.serial) :
    (calls.set caller after).filterMap Call.serial = calls.filterMap Call.serial := by
  induction calls generalizing caller with
  | nil => cases hcall
  | cons head rest ih =>
      cases caller with
      | zero =>
          rw [List.getElem?_cons_zero, Option.some.injEq] at hcall
          rw [List.set_cons_zero, List.filterMap_cons, List.filterMap_cons, h, hcall]
      | succ caller =>
          rw [List.getElem?_cons_succ] at hcall
          rw [List.set_cons_succ, List.filterMap_cons, List.filterMap_cons, ih hcall]

theorem filterMap_set_new {caller : Nat} {serial : UInt64} (hcall : calls[caller]? = some call)
    (hnone : call.serial = none) (h : after.serial = some serial) :
    ((calls.set caller after).filterMap Call.serial).Perm
      (serial :: calls.filterMap Call.serial) := by
  induction calls generalizing caller with
  | nil => cases hcall
  | cons head rest ih =>
      cases caller with
      | zero =>
          rw [List.getElem?_cons_zero, Option.some.injEq] at hcall
          rw [List.set_cons_zero, List.filterMap_cons_some h, List.filterMap_cons_none]
          rw [hcall]
          exact hnone
      | succ caller =>
          rw [List.getElem?_cons_succ] at hcall
          rw [List.set_cons_succ]
          cases hhead : head.serial with
          | none =>
              rw [List.filterMap_cons_none hhead, List.filterMap_cons_none hhead]
              exact ih hcall
          | some found =>
              rw [List.filterMap_cons_some hhead, List.filterMap_cons_some hhead]
              exact ((ih hcall).cons found).trans (List.Perm.swap serial found _)

theorem seeds_set (h : ∀ call ∈ calls, ∀ found, call.seed = some found → found = seed)
    (hafter : ∀ found, after.seed = some found → found = seed) (caller : Nat) :
    ∀ call ∈ calls.set caller after, ∀ found, call.seed = some found → found = seed := by
  intro call hcall
  rcases List.mem_or_eq_of_mem_set hcall with hold | rfl
  · exact h call hold
  · exact hafter

/-- The step lemma, once there is a seed. -/
theorem counted_step {processId : UInt32} (h : Counted seed state taken)
    (hseed : state.seed = some seed) (hstep : nextSerial processId state turn = some next) :
    next.seed = some seed ∧ ∃ taken, Counted seed next taken := by
  rw [nextSerial] at hstep
  split at hstep
  · rename_i hcall
    cases hstep
    rw [hseed]
    refine ⟨rfl, taken, h.counter, ?_, ?_⟩
    · dsimp only
      rw [filterMap_set_same (.seeded _) hcall rfl]
      exact h.serials
    · apply seeds_set h.seeds
      intro found hfound
      exact (Option.some.inj hfound).symm
  · rename_i found hcall
    cases hstep
    have hfound : found = seed := h.seeds _ (List.mem_of_getElem? hcall) found rfl
    refine ⟨hseed, taken + 1, ?_, ?_, ?_⟩
    · show state.counter + stride = offsetAt (taken + 1)
      rw [h.counter, offsetAt_succ]
    · -- the turn at the counter makes the next serial
      have hserial : (Call.stepped found state.counter).serial = some (serialAt seed taken) := by
        rw [Call.serial, hfound, h.counter]
        rfl
      rw [List.range_succ, List.map_append]
      exact ((filterMap_set_new hcall rfl hserial).trans (h.serials.cons _)).trans
        (List.perm_append_singleton _ _).symm
    · apply seeds_set h.seeds
      intro other hother
      rw [← Option.some.inj hother]
      exact hfound
  · rename_i found offset hcall
    cases hstep
    refine ⟨hseed, taken, h.counter, ?_, ?_⟩
    · dsimp only
      rw [filterMap_set_same (.returned ((found + offset) &&& mask)) hcall rfl]
      exact h.serials
    · apply seeds_set h.seeds
      rintro other ⟨⟩
  · cases hstep
  · cases hstep

theorem length_calls {processId : UInt32}
    (hstep : nextSerial processId state turn = some next) :
    next.calls.length = state.calls.length := by
  rw [nextSerial] at hstep
  split at hstep
  · cases hstep
    exact List.length_set
  · cases hstep
    exact List.length_set
  · cases hstep
    exact List.length_set
  · cases hstep
  · cases hstep

/-- The first turn makes the seed. -/
theorem counted_first {processId : UInt32}
    (hstep : nextSerial processId (fresh count) turn = some next) :
    next.seed = some (initialSeed turn.clock processId) ∧
      Counted (initialSeed turn.clock processId) next 0 := by
  rw [nextSerial] at hstep
  split at hstep
  · rename_i hcall
    cases hstep
    refine ⟨rfl, rfl, ?_, ?_⟩
    · dsimp only
      rw [filterMap_set_same (.seeded _) hcall rfl, List.range_zero, List.map_nil]
      have hnone : (fresh count).calls.filterMap Call.serial = [] := by
        rw [List.filterMap_eq_nil_iff]
        intro call hmem
        rw [List.eq_of_mem_replicate hmem]
        rfl
      rw [hnone]
    · apply seeds_set
      · intro call hmem found hfound
        rw [List.eq_of_mem_replicate hmem] at hfound
        cases hfound
      · intro found hfound
        exact (Option.some.inj hfound).symm
  · rename_i hcall
    cases List.eq_of_mem_replicate (List.mem_of_getElem? hcall)
  · rename_i hcall
    cases List.eq_of_mem_replicate (List.mem_of_getElem? hcall)
  · cases hstep
  · cases hstep

/-- The run lemma. -/
theorem counted_run {processId : UInt32} {final : SerialState} {turns : List Turn}
    (hrun : run (nextSerial processId) state turns = some final) (h : Counted seed state taken)
    (hseed : state.seed = some seed) : ∃ taken, Counted seed final taken := by
  induction turns generalizing state taken with
  | nil =>
      cases hrun
      exact ⟨taken, h⟩
  | cons turn rest ih =>
      obtain ⟨next, hstep, hrest⟩ := run_cons_eq_some.mp hrun
      obtain ⟨hnext, taken, hcounted⟩ := counted_step h hseed hstep
      exact ih hrest hcounted hnext

theorem length_run {processId : UInt32} {final : SerialState} {turns : List Turn}
    (hrun : run (nextSerial processId) state turns = some final) :
    final.calls.length = state.calls.length := by
  induction turns generalizing state with
  | nil =>
      cases hrun
      rfl
  | cons turn rest ih =>
      obtain ⟨next, hstep, hrest⟩ := run_cons_eq_some.mp hrun
      rw [ih hrest, length_calls hstep]

theorem filterMap_returned (serials : List UInt64) :
    (serials.map Call.returned).filterMap Call.serial = serials := by
  rw [List.filterMap_map]
  exact List.filterMap_some

/-- The serials of any interleaving are those of the places up to the number of calls. -/
theorem serials_perm {processId : UInt32} {final : SerialState} {turns : List Turn}
    {serials : List UInt64} (hrun : run (nextSerial processId) (fresh count) turns = some final)
    (h : Returned final serials) :
    serials.Perm
      ((List.range count).map (serialAt (initialSeed (firstClock turns) processId))) := by
  have hlength := length_run hrun
  rw [h, List.length_map, fresh, List.length_replicate] at hlength
  cases turns with
  | nil =>
      cases hrun
      cases serials with
      | nil =>
          rw [List.length_nil] at hlength
          rw [← hlength]
          rfl
      | cons serial rest =>
          have hmem : Call.returned serial ∈ (fresh count).calls := by
            rw [h]
            exact List.mem_cons_self
          cases List.eq_of_mem_replicate hmem
  | cons turn rest =>
      obtain ⟨next, hstep, hrest⟩ := run_cons_eq_some.mp hrun
      obtain ⟨hseed, hcounted⟩ := counted_first hstep
      obtain ⟨taken, hfinal⟩ := counted_run hrest hcounted hseed
      have hperm := hfinal.serials
      rw [h, filterMap_returned] at hperm
      have htaken := hperm.length_eq
      rw [hlength, List.length_map, List.length_range] at htaken
      rw [htaken]
      exact hperm

end

/-- Distinct serials, each positive and below half a word. -/
structure Sound (serials : List UInt64) : Prop where
  distinct : serials.Nodup
  positive : ∀ serial ∈ serials, 0 < serial.toNat
  bounded : ∀ serial ∈ serials, serial.toNat < 2 ^ 63

/-- The calls before the one for which the counter meets the seed. -/
def callsBeforeZero (seed : UInt64) : Nat := zeroAt width strideInverse seed.toNat

/-- The serials of so many calls are sound just as long as none of them finds zero. -/
theorem sound_iff {processId : UInt32} {count : Nat} {turns : List Turn} {final : SerialState}
    {serials : List UInt64} (hcount : count < 2 ^ 63)
    (hrun : run (nextSerial processId) (fresh count) turns = some final)
    (h : Returned final serials) :
    Sound serials ↔ count ≤ callsBeforeZero (initialSeed (firstClock turns) processId) := by
  have hperm := serials_perm hrun h
  generalize initialSeed (firstClock turns) processId = seed at hperm ⊢
  have hpositive := @positive_iff width stride.toNat strideInverse width_pos stride_inverse
    seed.toNat count (Nat.le_of_lt hcount)
  rw [callsBeforeZero, ← hpositive]
  constructor
  · intro hsound index hindex
    rw [← serialAt_toNat]
    apply hsound.positive
    rw [hperm.mem_iff]
    exact List.mem_map.mpr ⟨index, List.mem_range.mpr hindex, rfl⟩
  · intro hall
    refine ⟨?_, ?_, ?_⟩
    · rw [hperm.nodup_iff]
      apply List.nodup_range.map_on
      intro first hfirst second hsecond heq
      rw [List.mem_range] at hfirst hsecond
      exact serialAt_inj (by omega) (by omega) heq
    · intro serial hserial
      obtain ⟨index, hindex, rfl⟩ := List.mem_map.mp (hperm.mem_iff.mp hserial)
      rw [serialAt_toNat]
      exact hall index (List.mem_range.mp hindex)
    · intro serial hserial
      obtain ⟨index, _, rfl⟩ := List.mem_map.mp (hperm.mem_iff.mp hserial)
      exact serialAt_lt seed index

/-- Two calls, one after the other. -/
def twoCalls (clock : Option Nat) : List Turn :=
  [⟨0, clock⟩, ⟨0, none⟩, ⟨0, none⟩, ⟨1, none⟩, ⟨1, none⟩, ⟨1, none⟩]

def twoReturned (seed first second : UInt64) : SerialState where
  seed := some seed
  counter := 0x3C6EF372FE94F82A
  calls := [.returned first, .returned second]

/-- At the epoch, in the first process. -/
theorem two_calls_sound : Sound [0x3F58476D1CE4E5B9, 0x5D8FC1269C2F61CE] := by
  have hrun : run (nextSerial 1) (fresh 2) (twoCalls (some 0)) =
      some (twoReturned 0xBF58476D1CE4E5B9 0x3F58476D1CE4E5B9 0x5D8FC1269C2F61CE) := by decide
  have hreturned : Returned (twoReturned 0xBF58476D1CE4E5B9 0x3F58476D1CE4E5B9 0x5D8FC1269C2F61CE)
      [0x3F58476D1CE4E5B9, 0x5D8FC1269C2F61CE] := rfl
  exact (sound_iff (by decide) hrun hreturned).mpr (by decide)

/-- With this clock and process id the second serial is zero. -/
theorem second_serial_zero :
    ∃ serials final,
      run (nextSerial 72) (fresh 2) (twoCalls (some 1757402703361423895)) = some final ∧
        Returned final serials ∧ ¬Sound serials := by
  refine ⟨[0x61C8864680B583EB, 0], twoReturned 0x61C8864680B583EB 0x61C8864680B583EB 0,
    by decide, rfl, ?_⟩
  intro hsound
  exact absurd (hsound.positive 0 (by decide)) (by decide)

end EggReplay.Intercept.SerialNumbers
