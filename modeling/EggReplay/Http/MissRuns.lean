import EggReplay.Http.MissRematching
import EggReplay.Library.Phases

/-!
Any number of identical requests that no flow of the fixture answers, in any order of their steps:
the first of them is recorded, and the others are answered from its record.
-/

namespace EggReplay.Http.MissRuns

open EggReplay.Core.Consumption
open EggReplay.Core.FlowRecord
open EggReplay.Core.Matching
open EggReplay.Core.Redaction
open EggReplay.Http.AppendMiss
open EggReplay.Http.Atomicity
open EggReplay.Http.Captures
open EggReplay.Http.MissRematching
open EggReplay.Http.Recorder
open EggReplay.Http.StreamEventCapture
open EggReplay.Http.Transaction
open EggReplay.Intercept.Authorities
open EggReplay.Library.Checks
open EggReplay.Library.JsonText
open EggReplay.Library.Phases
open EggReplay.Library.Text
open EggReplay.Library.TransitionSystem
open EggReplay.Store.Fixture
open EggReplay.Store.Recording

variable {N : Type}

/-! ### The runs -/

/-- The request body that the fixture has for a flow. -/
def fixtureBody (server : Server N) (flow : Flow) : Option Bytes :=
  match flow.request.body with
  | .blob blob => server.readBlob blob
  | .absent | .empty => some []

/-- No flow of the fixture answers the request. -/
def Missed [DecidableEq N] (server : Server N) (asked : Asked) (fixture : List Flow) : Prop :=
  ∀ (index : Nat) (flow : Flow), fixture[index]? = some flow → ∀ loader : Loader,
    loader index (.fromFlow flow) = fixtureBody server flow →
    matchesAt server.codec server.matcher ⟨asked.request, asked.body, loader⟩ index
      (.fromFlow flow) = false

/-- The upstream answers, the transaction is recorded, and redaction leaves the request as it
is. -/
def Answers (server : Server N) (asked : Asked) (recording : RecordingInner)
    (observed : Observation) : Prop :=
  ∃ request head reply flow next,
    upstreamRequest server.client server.context asked.request = .ok request ∧
    requestHead server.codec request.method request.uri request.headers = .ok head ∧
    observed.result = .ok reply ∧
    recordRequestWithSession server.storage server.codec server.context.settings
      (request.exchange server.context observed) recording = (.ok flow, next) ∧
    LeavesRequest server.codec server.context.settings (contentType request.headers) head.request
      asked.body

/-- Each transaction is answered, and the client takes the whole body for it. -/
def Delivered (server : Server N) (asked : Asked) (world : World) : Action → Prop
  | .transact _ observed =>
      Answers server asked world.recording observed ∧
        TakesBody world.recording.limits.maxBlobBytes asked.body observed
  | .arrive | .advance _ => True

/-- One transaction and one flow, from which every request is answered. -/
structure Shared (fixture : List Flow) (start : RecordingInner) (world : World) : Prop where
  transactions : world.transactions ≤ 1
  flows : world.recording.flowCount = start.flowCount + world.transactions
  answers : ∀ thread ∈ world.threads, ∀ answer, thread.answer? = some answer →
    world.transactions = 1 ∧ ∃ flow, world.candidates = (fixture ++ [flow]).map MatchCandidate.fromFlow ∧
      answer = AppendMiss.Answer.flow flow

/-! ### What every step keeps -/

structure Kept [DecidableEq N] (server : Server N) (asked : Asked) (fixture : List Flow)
    (start : RecordingInner) (appended : List Flow) (world : World) : Prop where
  candidates : world.candidates = (fixture ++ appended).map MatchCandidate.fromFlow
  inAppend : world.candidateInAppend =
    fixture.map (fun _ => false) ++ appended.map fun _ => true
  counted : appended.length + world.threads.countP Thread.isRecorded = world.transactions
  once : world.transactions ≤ 1
  found : ∀ flow ∈ appended, Found server asked world.recording flow
  recorded : ∀ lock flow, .recorded lock flow ∈ world.threads →
    Found server asked world.recording flow
  answers : ∀ thread ∈ world.threads, ∀ answer, thread.answer? = some answer →
    ∃ flow ∈ appended, answer = AppendMiss.Answer.flow flow
  unanswered : ∀ thread ∈ world.threads, thread.isUnanswered = true → world.transactions = 0
  locks : ∀ thread ∈ world.threads, ∀ lock, thread.lock? = some lock →
    world.misses.locks = [(missKey server.storage asked, lock)]
  single : world.threads.countP Thread.holds ≤ 1
  unchanged : world.transactions = 0 → world.recording = start
  flows : world.recording.flowCount = start.flowCount + world.transactions

section

variable [DecidableEq N] {server : Server N} {asked : Asked} {fixture appended : List Flow}
  {start : RecordingInner} {world : World} {index : Nat} {old new : Thread}

theorem kept_started (server : Server N) (asked : Asked) (fixture : List Flow)
    (start : RecordingInner) : Kept server asked fixture start [] (started fixture start) where
  candidates := by
    rw [List.append_nil]
    rfl
  inAppend := (List.append_nil _).symm
  counted := rfl
  once := Nat.zero_le 1
  found _ hflow := absurd hflow List.not_mem_nil
  recorded _ _ hthread := absurd hthread List.not_mem_nil
  answers _ hthread := absurd hthread List.not_mem_nil
  unanswered _ hthread := absurd hthread List.not_mem_nil
  locks _ hthread := absurd hthread List.not_mem_nil
  single := Nat.zero_le 1
  unchanged _ := rfl
  flows := rfl

/-! ### Selection -/

/-- With any loader that reads the fixture and the recording session, a candidate answers the
request where it is a record. -/
theorem Kept.matches_iff (h : Kept server asked fixture start appended world)
    (hmissed : Missed server asked fixture) (unstored : MatchCandidate → Bytes)
    (hunstored : ∀ flow, unstored (.fromFlow flow) = []) (index : Nat) :
    Matches server.codec server.matcher world.candidates
        ⟨asked.request, asked.body, server.loader world unstored⟩ index ↔
      fixture.length ≤ index ∧ index < (fixture ++ appended).length := by
  have hstored : ∀ (index : Nat) (flow : Flow),
      server.loader world unstored index (.fromFlow flow) =
        if (world.candidateInAppend[index]?).getD false = true then
          recordedBody server.storage world.recording flow
        else fixtureBody server flow := by
    intro index flow
    have hbody : (MatchCandidate.fromFlow flow).flow.request.body = flow.request.body := rfl
    rw [Server.loader, recordedBody, fixtureBody, hbody, hunstored]
    cases flow.request.body with
    | blob blob => rfl
    | absent => exact (ite_self _).symm
    | empty => exact (ite_self _).symm
  rw [Matches, h.candidates]
  constructor
  · rintro ⟨candidate, hcandidate, hmatches⟩
    rw [List.getElem?_map] at hcandidate
    obtain ⟨flow, hflow, rfl⟩ := Option.map_eq_some_iff.mp hcandidate
    have hbound := (List.getElem?_eq_some_iff.mp hflow).1
    refine ⟨?_, hbound⟩
    by_contra hlt
    rw [not_le] at hlt
    rw [List.getElem?_append_left hlt] at hflow
    have hfalse := hmissed index flow hflow (server.loader world unstored) ?_
    · rw [hfalse] at hmatches
      cases hmatches
    · have hin : world.candidateInAppend[index]? = some false := by
        rw [h.inAppend, List.getElem?_append_left (by rwa [List.length_map]), List.getElem?_map,
          hflow]
        rfl
      rw [hstored, hin]
      rfl
  · rintro ⟨hle, hlt⟩
    obtain ⟨flow, hflow⟩ : ∃ flow, (fixture ++ appended)[index]? = some flow :=
      ⟨_, List.getElem?_eq_getElem hlt⟩
    refine ⟨.fromFlow flow, by rw [List.getElem?_map, hflow]; rfl, ?_⟩
    rw [List.getElem?_append_right hle] at hflow
    apply h.found flow (List.mem_of_getElem? hflow)
    have hin : world.candidateInAppend[index]? = some true := by
      rw [h.inAppend, List.getElem?_append_right (by rwa [List.length_map]), List.getElem?_map,
        List.length_map, hflow]
      rfl
    rw [hstored, hin]
    rfl

/-- A selection finds a record, or nothing while there is none. -/
theorem Kept.selected (h : Kept server asked fixture start appended world)
    (hmissed : Missed server asked fixture) (unstored : MatchCandidate → Bytes)
    (hunstored : ∀ flow, unstored (.fromFlow flow) = []) {result : MatchResult}
    (hresult : (server.matcher.selectWithLoader server.codec asked.request asked.body
      world.candidates .unlimited world.session (server.loader world unstored)).1 = result) :
    (∃ found flow, result = .matched found ∧ flow ∈ appended ∧
      world.candidates[found]? = some (.fromFlow flow) ∧
      world.candidateInAppend[found]? = some true) ∨
      ∃ near, result = .noMatch near ∧ appended = [] := by
  have hanswer := @selectArrival_answer N _ server.codec server.matcher
    world.candidates .unlimited world.session
    ⟨asked.request, asked.body, server.loader world unstored⟩
  rw [selectArrival] at hanswer
  have hhits := h.matches_iff hmissed unstored hunstored
  generalize server.matcher.selectWithLoader server.codec asked.request asked.body
    world.candidates .unlimited world.session (server.loader world unstored) = selected
    at hanswer hresult
  subst hresult
  cases hanswer with
  | @matched found hit _ _ =>
      left
      obtain ⟨hle, hlt⟩ := (hhits found).mp hit
      obtain ⟨flow, hflow⟩ : ∃ flow, (fixture ++ appended)[found]? = some flow :=
        ⟨_, List.getElem?_eq_getElem hlt⟩
      have happended := hflow
      rw [List.getElem?_append_right hle] at happended
      refine ⟨found, flow, rfl, List.mem_of_getElem? happended, ?_, ?_⟩
      · rw [h.candidates, List.getElem?_map, hflow]
        rfl
      · rw [h.inAppend, List.getElem?_append_right (by rwa [List.length_map]), List.getElem?_map,
          List.length_map, happended]
        rfl
  | @exhausted near found hit unavailable => cases unavailable found hit
  | @noMatch near none =>
      right
      refine ⟨near, rfl, ?_⟩
      by_contra hsome
      refine none fixture.length ((hhits _).mpr ⟨Nat.le_refl _, ?_⟩)
      rw [List.length_append]
      have hpos := List.length_pos_iff.mpr hsome
      omega

/-! ### The steps -/

theorem holds_of_recorded {thread : Thread} (h : thread.isRecorded = true) :
    thread.holds = true := by
  cases thread with
  | recorded lock flow => rfl
  | _ => cases h

theorem holds_of_unanswered {thread : Thread} (h : thread.isUnanswered = true) :
    thread.holds = true := by
  cases thread with
  | unanswered lock => rfl
  | _ => cases h

theorem isRecorded_iff {thread : Thread} :
    thread.isRecorded = true ↔ ∃ lock flow, thread = .recorded lock flow := by
  constructor
  · intro h
    cases thread with
    | recorded lock flow => exact ⟨lock, flow, rfl⟩
    | _ => cases h
  · rintro ⟨lock, flow, rfl⟩
    rfl

/-- Where one request holds its lock, none that stands elsewhere does. -/
theorem Kept.countP_eq_zero (h : Kept server asked fixture start appended world)
    (hat : world.threads[index]? = some old) (hold : old.holds = true) {kind : Thread → Bool}
    (hkind : ∀ thread, kind thread = true → thread.holds = true) (hnot : kind old = false) :
    world.threads.countP kind = 0 := by
  by_contra hsome
  have hle : (world.threads.set index .arrived).countP kind ≤
      (world.threads.set index .arrived).countP Thread.holds :=
    List.countP_mono_left fun thread _ => hkind thread
  have hkinds : (world.threads.set index .arrived).countP kind + (kind old).toNat =
      world.threads.countP kind + (kind .arrived).toNat := countP_set kind hat
  have hholds : (world.threads.set index .arrived).countP Thread.holds + old.holds.toNat =
      world.threads.countP Thread.holds + Thread.arrived.holds.toNat :=
    countP_set Thread.holds hat
  have harrived : Thread.arrived.holds.toNat = 0 := rfl
  have hsingle := h.single
  rw [hold, Bool.toNat_true] at hholds
  rw [hnot, Bool.toNat_false] at hkinds
  omega

/-- A step of a request that leaves the candidates and the recording session as they are. -/
theorem Kept.put (h : Kept server asked fixture start appended world)
    (hat : world.threads[index]? = some old) {misses : MissLocks} {session : MatcherSession}
    (hlocks : ∀ thread ∈ world.threads, ∀ lock, thread.lock? = some lock →
      misses.locks = [(missKey server.storage asked, lock)])
    (hlock : ∀ lock, new.lock? = some lock →
      misses.locks = [(missKey server.storage asked, lock)])
    (hrecorded : old.isRecorded = false) (hnew : new.isRecorded = false)
    (hanswer : ∀ answer, new.answer? = some answer →
      ∃ flow ∈ appended, answer = AppendMiss.Answer.flow flow)
    (hunanswered : new.isUnanswered = true → world.transactions = 0)
    (hholds : new.holds = true → old.holds = true ∨ world.threads.countP Thread.holds = 0) :
    Kept server asked fixture start appended
      (World.put { world with misses, session } index new) := by
  have hmem : ∀ thread ∈ world.threads.set index new, thread ∈ world.threads ∨ thread = new :=
    fun thread => List.mem_or_eq_of_mem_set
  have hcount : (world.threads.set index new).countP Thread.isRecorded +
      old.isRecorded.toNat = world.threads.countP Thread.isRecorded + new.isRecorded.toNat :=
    countP_set Thread.isRecorded hat
  have hheld : (world.threads.set index new).countP Thread.holds + old.holds.toNat =
      world.threads.countP Thread.holds + new.holds.toNat := countP_set Thread.holds hat
  rw [hrecorded, hnew] at hcount
  refine ⟨h.candidates, h.inAppend, ?_, h.once, h.found, ?_, ?_, ?_, ?_, ?_, h.unchanged, h.flows⟩
  · show appended.length + (world.threads.set index new).countP Thread.isRecorded =
      world.transactions
    rw [Nat.add_right_cancel hcount]
    exact h.counted
  · intro lock flow hthread
    rcases hmem _ hthread with hthread | rfl
    · exact h.recorded lock flow hthread
    · cases hnew
  · intro thread hthread
    rcases hmem thread hthread with hthread | rfl
    · exact h.answers thread hthread
    · exact hanswer
  · intro thread hthread
    rcases hmem thread hthread with hthread | rfl
    · exact h.unanswered thread hthread
    · exact hunanswered
  · intro thread hthread
    rcases hmem thread hthread with hthread | rfl
    · exact hlocks thread hthread
    · exact hlock
  · show (world.threads.set index new).countP Thread.holds ≤ 1
    have hsingle := h.single
    cases hkept : new.holds with
    | false =>
        rw [hkept, Bool.toNat_false] at hheld
        omega
    | true =>
        rw [hkept, Bool.toNat_true] at hheld
        rcases hholds hkept with hold | hnone
        · rw [hold, Bool.toNat_true] at hheld
          omega
        · omega

/-- A miss gets the lock that the other requests have, or a new one. -/
theorem Kept.lockFor (h : Kept server asked fixture start appended world) :
    ∃ lock misses, world.misses.lockFor world.strong (missKey server.storage asked) =
        (misses, .ok lock) ∧
      misses.locks = [(missKey server.storage asked, lock)] ∧
      ∀ thread ∈ world.threads, ∀ other, thread.lock? = some other → other = lock := by
  by_cases hsome : ∃ thread ∈ world.threads, ∃ lock, thread.lock? = some lock
  · obtain ⟨thread, hthread, lock, hlock⟩ := hsome
    have hlocks := h.locks thread hthread lock hlock
    have hstrong : world.strong lock = true :=
      List.any_eq_true.mpr ⟨thread, hthread, decide_eq_true hlock⟩
    refine ⟨lock, { world.misses with locks := [(missKey server.storage asked, lock)] }, ?_, rfl,
      ?_⟩
    · have hfilter : world.misses.locks.filter (fun entry => world.strong entry.2) =
          [(missKey server.storage asked, lock)] := by
        rw [hlocks]
        exact List.filter_cons_of_pos hstrong
      rw [MissLocks.lockFor, hfilter]
      simp only [List.lookup_cons_self]
    · intro other hother found hfound
      have hsame := (h.locks other hother found hfound).symm.trans hlocks
      exact congrArg Prod.snd (List.cons.inj hsame).1
  · have hnone : ∀ lock, ¬world.strong lock = true := by
      intro lock hstrong
      obtain ⟨thread, hthread, hlock⟩ := List.any_eq_true.mp hstrong
      exact hsome ⟨thread, hthread, lock, of_decide_eq_true hlock⟩
    have hfilter : world.misses.locks.filter (fun entry => world.strong entry.2) = [] :=
      List.filter_eq_nil_iff.mpr fun entry _ => hnone entry.2
    refine ⟨world.misses.fresh,
      { locks := [(missKey server.storage asked, world.misses.fresh)]
        fresh := world.misses.fresh + 1 }, ?_, rfl, ?_⟩
    · rw [MissLocks.lockFor, hfilter]
      rfl
    · intro thread hthread lock hlock
      exact absurd ⟨thread, hthread, lock, hlock⟩ hsome

/-- While nobody holds the lock of one request, nobody holds any. -/
theorem Kept.none_holds (h : Kept server asked fixture start appended world) {lock : Nat}
    (hat : world.threads[index]? = some (.waiting lock)) (hfree : world.isHeld lock = false) :
    world.threads.countP Thread.holds = 0 := by
  apply List.countP_eq_zero.mpr
  intro thread hthread hholds
  obtain ⟨other, hother⟩ := Option.isSome_iff_exists.mp hholds
  have hlock : thread.lock? = some other := by
    cases thread with
    | locked lock | unanswered lock | recorded lock flow | leaving lock answer => exact hother
    | arrived | missed | answered answer | waiting lock | released lock answer => cases hother
  have hsame := (h.locks thread hthread other hlock).symm.trans
    (h.locks _ (List.mem_of_getElem? hat) lock rfl)
  obtain rfl : other = lock := congrArg Prod.snd (List.cons.inj hsame).1
  exact absurd (decide_eq_true hother) (List.any_eq_false.mp hfree thread hthread)

/-- A request that has its record adds it to the candidates. -/
theorem Kept.push (h : Kept server asked fixture start appended world) {lock : Nat} {flow : Flow}
    (hat : world.threads[index]? = some (.recorded lock flow)) :
    Kept server asked fixture start (appended ++ [flow])
      (World.put { world with
        candidates := world.candidates ++ [MatchCandidate.fromFlow flow]
        candidateInAppend := world.candidateInAppend ++ [true] } index
          (.leaving lock (.flow flow))) := by
  have hmem : ∀ thread ∈ world.threads.set index (.leaving lock (.flow flow)),
      thread ∈ world.threads ∨ thread = .leaving lock (.flow flow) :=
    fun thread => List.mem_or_eq_of_mem_set
  have hcount : (world.threads.set index (.leaving lock (.flow flow))).countP Thread.isRecorded +
      1 = world.threads.countP Thread.isRecorded := countP_set Thread.isRecorded hat
  have hheld : (world.threads.set index (.leaving lock (.flow flow))).countP Thread.holds + 1 =
      world.threads.countP Thread.holds + 1 := countP_set Thread.holds hat
  have hcounted := h.counted
  refine ⟨?_, ?_, ?_, h.once, ?_, ?_, ?_, ?_, ?_, ?_, h.unchanged, h.flows⟩
  · show world.candidates ++ [MatchCandidate.fromFlow flow] = _
    rw [h.candidates, ← List.append_assoc, List.map_append, List.map_append, List.map_append,
      List.map_singleton]
  · show world.candidateInAppend ++ [true] = _
    rw [h.inAppend, List.map_append, List.append_assoc, List.map_singleton]
  · show (appended ++ [flow]).length +
      (world.threads.set index (.leaving lock (.flow flow))).countP Thread.isRecorded =
        world.transactions
    rw [List.length_append, List.length_singleton]
    omega
  · intro other hother
    rcases List.mem_append.mp hother with hearlier | hnew
    · exact h.found other hearlier
    · obtain rfl := List.mem_singleton.mp hnew
      exact h.recorded lock other (List.mem_of_getElem? hat)
  · intro other found hthread
    rcases hmem _ hthread with hthread | hsame
    · exact h.recorded other found hthread
    · cases hsame
  · intro thread hthread answer hanswer
    rcases hmem thread hthread with hthread | rfl
    · obtain ⟨found, hfound, hsame⟩ := h.answers thread hthread answer hanswer
      exact ⟨found, List.mem_append_left _ hfound, hsame⟩
    · obtain rfl := Option.some.inj hanswer
      exact ⟨flow, List.mem_append_right _ List.mem_cons_self, rfl⟩
  · intro thread hthread
    rcases hmem thread hthread with hthread | rfl
    · exact h.unanswered thread hthread
    · intro hunanswered
      cases hunanswered
  · intro thread hthread
    rcases hmem thread hthread with hthread | rfl
    · exact h.locks thread hthread
    · intro other hother
      exact h.locks _ (List.mem_of_getElem? hat) other hother
  · show (world.threads.set index (.leaving lock (.flow flow))).countP Thread.holds ≤ 1
    have hsingle := h.single
    omega

/-- A request holds its lock and has found no record. -/
theorem Kept.no_transaction (h : Kept server asked fixture start [] world)
    (hat : world.threads[index]? = some old) (hold : old.holds = true)
    (hnot : old.isRecorded = false) : world.transactions = 0 := by
  rw [← h.counted, h.countP_eq_zero hat hold (fun _ => holds_of_recorded) hnot]
  rfl

theorem Kept.advance (h : Kept server asked fixture start appended world)
    (hmissed : Missed server asked fixture) (hreads : Reads server asked.request)
    (hrefindable : Refindable server asked) (hat : world.threads[index]? = some old)
    {next : World} (hstep : advance server asked world index old = some next) :
    ∃ appended, Kept server asked fixture start appended next := by
  have hlocks := h.locks
  have hlock := h.locks _ (List.mem_of_getElem? hat)
  have hanswer := h.answers _ (List.mem_of_getElem? hat)
  have hanswered : ∀ flow ∈ appended, ∀ answer, some (Answer.flow flow) = some answer →
      ∃ flow ∈ appended, answer = .flow flow :=
    fun flow hflow answer hanswer => ⟨flow, hflow, (Option.some.inj hanswer).symm⟩
  cases old with
  | arrived =>
      rw [AppendMiss.advance] at hstep
      rcases h.selected hmissed MatchCandidate.requestBody (fun _ => rfl) rfl with
        ⟨found, flow, hresult, hflow, hcandidate, -⟩ | ⟨near, hresult, -⟩
      · rw [Server.selectFirst, hresult] at hstep
        dsimp only at hstep
        rw [hcandidate] at hstep
        obtain rfl := Option.some.inj hstep
        exact ⟨appended, h.put hat hlocks (fun _ hlock => by cases hlock) rfl rfl
          (hanswered flow hflow) (fun hkind => by cases hkind) (fun hkind => by cases hkind)⟩
      · rw [Server.selectFirst, hresult] at hstep
        obtain rfl := Option.some.inj hstep
        exact ⟨appended, h.put hat hlocks (fun _ hlock => by cases hlock) rfl rfl
          (fun _ hanswer => by cases hanswer) (fun hkind => by cases hkind)
          (fun hkind => by cases hkind)⟩
  | missed =>
      obtain ⟨lock, misses, hresult, hmisses, hsame⟩ := h.lockFor
      rw [AppendMiss.advance, hresult] at hstep
      obtain rfl := Option.some.inj hstep
      refine ⟨appended, h.put hat ?_ ?_ rfl rfl (fun _ hanswer => by cases hanswer)
        (fun hkind => by cases hkind) (fun hkind => by cases hkind)⟩
      · intro thread hthread other hother
        rw [hmisses, hsame thread hthread other hother]
      · intro other hother
        rw [hmisses, Option.some.inj hother]
  | waiting lock =>
      rw [AppendMiss.advance] at hstep
      split at hstep
      · cases hstep
      · rename_i hfree
        obtain rfl := Option.some.inj hstep
        have hnone := h.none_holds hat (Bool.eq_false_iff.mpr hfree)
        exact ⟨appended, h.put hat hlocks (fun other => hlock other) rfl rfl
          (fun _ hanswer => by cases hanswer) (fun hkind => by cases hkind) (fun _ => .inr hnone)⟩
  | locked lock =>
      rw [AppendMiss.advance] at hstep
      rcases h.selected hmissed (fun _ => []) (fun _ => rfl) rfl with
        ⟨found, flow, hresult, hflow, hcandidate, hin⟩ | ⟨near, hresult, rfl⟩
      · rw [Server.selectAgain, hresult] at hstep
        dsimp only at hstep
        rw [hcandidate, hin] at hstep
        obtain rfl := Option.some.inj hstep
        exact ⟨appended, h.put hat hlocks (fun other => hlock other) rfl rfl
          (hanswered flow hflow) (fun hkind => by cases hkind) (fun _ => .inl rfl)⟩
      · rw [Server.selectAgain, hresult] at hstep
        obtain rfl := Option.some.inj hstep
        exact ⟨[], h.put hat hlocks (fun other => hlock other) rfl rfl
          (fun _ hanswer => by cases hanswer) (fun _ => h.no_transaction hat rfl rfl)
          (fun _ => .inl rfl)⟩
  | unanswered lock =>
      obtain ⟨request, hrequest, -⟩ := upstreamRequest_rematchable hreads hrefindable
      rw [AppendMiss.advance, hrequest] at hstep
      cases hstep
  | recorded lock flow =>
      obtain rfl := Option.some.inj hstep
      exact ⟨appended ++ [flow], h.push hat⟩
  | leaving lock answer =>
      obtain rfl := Option.some.inj hstep
      exact ⟨appended, h.put hat hlocks (fun other => hlock other) rfl rfl
        (fun other => hanswer other) (fun hkind => by cases hkind)
        (fun hkind => by cases hkind)⟩
  | released lock answer =>
      obtain rfl := Option.some.inj hstep
      exact ⟨appended, h.put hat hlocks (fun _ hlock => by cases hlock) rfl rfl
        (fun other => hanswer other) (fun hkind => by cases hkind)
        (fun hkind => by cases hkind)⟩
  | answered answer => cases hstep

omit [DecidableEq N] in
theorem flowCount_of_recorded {storage : Codec} {codec : BodyCodec N} {settings : Settings}
    {exchange : Exchange} {inner next : RecordingInner} {flow : Flow}
    (h : recordRequestWithSession storage codec settings exchange inner = (.ok flow, next)) :
    next.flowCount = inner.flowCount + 1 := by
  obtain ⟨done, captureState, flowed, -, -, hrecords, -, hflow, hevents⟩ :=
    recordRequestWithSession_eq_ok h
  obtain ⟨-, -, -, -, -, -, rfl⟩ := appendFlow_eq_ok.mp hflow
  obtain ⟨-, -, -, rfl⟩ := appendStreamEvents_eq_ok.mp hevents
  have hcount : (records captureState).flowCount = (records inner).flowCount := by rw [hrecords]
  show (records captureState).flowCount + 1 = (records inner).flowCount + 1
  rw [hcount]

/-- The one transaction gives the record that all requests are answered from. -/
theorem Kept.transact (h : Kept server asked fixture start appended world)
    (hreads : Reads server asked.request) (hrefindable : Refindable server asked)
    (hroutines : BodyRoutines server asked start) {observed : Observation}
    (hanswers : Answers server asked world.recording observed)
    (htakes : TakesBody world.recording.limits.maxBlobBytes asked.body observed)
    (hat : world.threads[index]? = some old) {next : World}
    (hstep : transact server asked world index observed old = some next) :
    Kept server asked fixture start appended next := by
  cases old with
  | unanswered lock =>
      have hfirst : world.transactions = 0 := h.unanswered _ (List.mem_of_getElem? hat) rfl
      obtain ⟨request, head, reply, flow, recording, hrequest, hhead, -, hrecorded, hleaves⟩ :=
        hanswers
      obtain ⟨sent, hsent, hrematchable⟩ := upstreamRequest_rematchable hreads hrefindable
      obtain rfl := Except.ok.inj (hrequest.symm.trans hsent)
      rw [AppendMiss.transact, hrequest] at hstep
      dsimp only at hstep
      rw [hrecorded] at hstep
      obtain rfl := Option.some.inj hstep
      have hfound : Found server asked recording flow :=
        found_of_record rfl hrecorded (content_of_sent htakes) hhead hleaves
          (h.unchanged hfirst ▸ hroutines) hrematchable
      have hcount := h.counted
      rw [hfirst] at hcount
      obtain ⟨hnone, hrecords⟩ := Nat.eq_zero_of_add_eq_zero hcount
      obtain rfl : appended = [] := List.length_eq_zero_iff.mp hnone
      have hmem : ∀ thread ∈ world.threads.set index (.recorded lock flow),
          thread ∈ world.threads ∨ thread = .recorded lock flow :=
        fun thread => List.mem_or_eq_of_mem_set
      have hrecording : (world.threads.set index (.recorded lock flow)).countP Thread.isRecorded +
          0 = world.threads.countP Thread.isRecorded + 1 := countP_set Thread.isRecorded hat
      have hheld : (world.threads.set index (.recorded lock flow)).countP Thread.holds + 1 =
          world.threads.countP Thread.holds + 1 := countP_set Thread.holds hat
      have hunanswered : (world.threads.set index (.recorded lock flow)).countP
          Thread.isUnanswered + 1 = world.threads.countP Thread.isUnanswered :=
        countP_set Thread.isUnanswered hat
      have hle : world.threads.countP Thread.isUnanswered ≤ world.threads.countP Thread.holds :=
        List.countP_mono_left fun thread _ => holds_of_unanswered
      have hsingle := h.single
      refine ⟨h.candidates, h.inAppend, ?_, ?_, ?_, ?_, ?_, ?_, ?_, ?_, ?_, ?_⟩
      · show 0 + (world.threads.set index (.recorded lock flow)).countP Thread.isRecorded =
          world.transactions + 1
        omega
      · show world.transactions + 1 ≤ 1
        omega
      · intro other hother
        exact absurd hother List.not_mem_nil
      · intro other found hthread
        rcases hmem _ hthread with hthread | hsame
        · exact absurd rfl (List.countP_eq_zero.mp hrecords _ hthread)
        · cases hsame
          exact hfound
      · intro thread hthread answer hanswer
        rcases hmem thread hthread with hthread | rfl
        · exact h.answers thread hthread answer hanswer
        · cases hanswer
      · intro thread hthread hkind
        have hzero : (world.threads.set index (.recorded lock flow)).countP
            Thread.isUnanswered = 0 := by omega
        exact absurd hkind (List.countP_eq_zero.mp hzero thread hthread)
      · intro thread hthread
        rcases hmem thread hthread with hthread | rfl
        · exact h.locks thread hthread
        · intro other hother
          exact h.locks _ (List.mem_of_getElem? hat) other hother
      · show (world.threads.set index (.recorded lock flow)).countP Thread.holds ≤ 1
        omega
      · intro hzero
        cases hzero
      · show recording.flowCount = start.flowCount + (world.transactions + 1)
        rw [flowCount_of_recorded hrecorded, h.unchanged hfirst, hfirst]
  | arrived | missed | waiting lock | locked lock | recorded lock flow | leaving lock answer
  | released lock answer | answered answer => cases hstep

theorem Kept.arrive (h : Kept server asked fixture start appended world) :
    Kept server asked fixture start appended
      { world with threads := world.threads ++ [Thread.arrived] } := by
  have hmem : ∀ thread ∈ world.threads ++ [Thread.arrived], thread ∈ world.threads ∨ thread = .arrived :=
    fun thread hthread => (List.mem_append.mp hthread).imp_right List.mem_singleton.mp
  have hcount : ∀ kind : Thread → Bool, kind .arrived = false →
      (world.threads ++ [Thread.arrived]).countP kind = world.threads.countP kind := by
    intro kind hkind
    rw [List.countP_append, List.countP_singleton, hkind]
    rfl
  refine ⟨h.candidates, h.inAppend, ?_, h.once, h.found, ?_, ?_, ?_, ?_, ?_, h.unchanged, h.flows⟩
  · show appended.length + (world.threads ++ [Thread.arrived]).countP Thread.isRecorded =
      world.transactions
    rw [hcount _ rfl]
    exact h.counted
  · intro lock flow hthread
    rcases hmem _ hthread with hthread | hsame
    · exact h.recorded lock flow hthread
    · cases hsame
  · intro thread hthread answer hanswer
    rcases hmem thread hthread with hthread | rfl
    · exact h.answers thread hthread answer hanswer
    · cases hanswer
  · intro thread hthread hkind
    rcases hmem thread hthread with hthread | rfl
    · exact h.unanswered thread hthread hkind
    · cases hkind
  · intro thread hthread lock hlock
    rcases hmem thread hthread with hthread | rfl
    · exact h.locks thread hthread lock hlock
    · cases hlock
  · show (world.threads ++ [Thread.arrived]).countP Thread.holds ≤ 1
    rw [hcount _ rfl]
    exact h.single

theorem kept_step (hmissed : Missed server asked fixture) (hreads : Reads server asked.request)
    (hrefindable : Refindable server asked) (hroutines : BodyRoutines server asked start)
    {action : Action} {next : World}
    (h : ∃ appended, Kept server asked fixture start appended world)
    (hdelivered : Delivered server asked world action)
    (hstep : step server asked world action = some next) :
    ∃ appended, Kept server asked fixture start appended next := by
  obtain ⟨appended, hkept⟩ := h
  cases action with
  | arrive =>
      obtain rfl := Option.some.inj hstep
      exact ⟨appended, hkept.arrive⟩
  | advance index =>
      obtain ⟨thread, hat, hstep⟩ := Option.bind_eq_some_iff.mp hstep
      exact hkept.advance hmissed hreads hrefindable hat hstep
  | transact index observed =>
      obtain ⟨thread, hat, hstep⟩ := Option.bind_eq_some_iff.mp hstep
      obtain ⟨hanswers, htakes⟩ := hdelivered
      exact ⟨appended, hkept.transact hreads hrefindable hroutines hanswers htakes hat hstep⟩

/-- Where some request is answered, all of them are from the one record. -/
theorem Kept.shared (h : Kept server asked fixture start appended world) :
    Shared fixture start world where
  transactions := h.once
  flows := h.flows
  answers := by
    intro thread hthread answer hanswer
    obtain ⟨flow, hflow, rfl⟩ := h.answers thread hthread answer hanswer
    have hcounted := h.counted
    have honce := h.once
    have hpos := List.length_pos_of_mem hflow
    obtain ⟨only, rfl⟩ := List.length_eq_one_iff.mp (show appended.length = 1 by omega)
    obtain rfl := List.mem_singleton.mp hflow
    exact ⟨by omega, flow, h.candidates, rfl⟩

end

/-- A request of HTTP/1.1 has a `host` header. -/
def hostHeader : HeaderEntry := { name := "host", value := "example.test" }

section

variable {withHost : Bool}

end

end EggReplay.Http.MissRuns
