import EggReplay.Core.BodyWildcards

/-!
Consumption over whole runs of selections on one session: which candidate answers
each request, given the answers before it, in the once and repeat-last modes.
-/

namespace EggReplay.Core.Consumption

open EggReplay.Library.Text
open EggReplay.Core.FlowRecord
open EggReplay.Core.Redaction
open EggReplay.Core.Matching
open EggReplay.Core.BodyWildcards

/-- A request as it reaches the selection, with the loader it is selected with. -/
structure Arrival where
  request : HttpRequest
  body : Bytes
  loader : Loader

section

variable {N : Type} [DecidableEq N] (codec : BodyCodec N) (matcher : Matcher)

/-- No dimension of the candidate at the index differs from the request. -/
def matchesAt (arrival : Arrival) (index : Nat) (candidate : MatchCandidate) : Bool :=
  decide (matcher.dimensions arrival.request candidate = []) &&
    matcher.bodyMatchesLazy codec arrival.body true index candidate arrival.loader

def Matches (candidates : List MatchCandidate) (arrival : Arrival) (index : Nat) : Prop :=
  ∃ candidate, candidates[index]? = some candidate ∧
    matchesAt codec matcher arrival index candidate = true

def selectArrival (candidates : List MatchCandidate) (mode : ConsumptionMode)
    (session : MatcherSession) (arrival : Arrival) : MatchResult × MatcherSession :=
  matcher.selectWithLoader codec arrival.request arrival.body candidates mode session
    arrival.loader

/-- The answers to a sequence of requests on one session, and the session after them. -/
def serve (candidates : List MatchCandidate) (mode : ConsumptionMode) :
    MatcherSession → List Arrival → List MatchResult × MatcherSession
  | session, [] => ([], session)
  | session, arrival :: rest =>
      let selected := selectArrival codec matcher candidates mode session arrival
      let served := serve candidates mode selected.2 rest
      (selected.1 :: served.1, served.2)

end

def IsExhausted (result : MatchResult) : Prop := ∃ near, result = .exhausted near

def IsNoMatch (result : MatchResult) : Prop := ∃ near, result = .noMatch near

def servedIndex : MatchResult → Option Nat
  | .matched index => some index
  | .noMatch _ => none
  | .exhausted _ => none

section

variable {N : Type} [DecidableEq N] {codec : BodyCodec N} {matcher : Matcher}

/-! ### One selection -/

/-- What one selection comes to, the matching candidates being those of the predicate. -/
inductive Answer (hits : Nat → Prop) (mode : ConsumptionMode) (session : MatcherSession) :
    MatchResult × MatcherSession → Prop
  | matched {index : Nat} (hit : hits index)
      (available : session.isAvailable index mode = true)
      (least : ∀ earlier < index, hits earlier → session.isAvailable earlier mode = false) :
      Answer hits mode session (.matched index, session.consume index mode)
  | exhausted {near : List NearMiss} {index : Nat} (hit : hits index)
      (unavailable : ∀ index, hits index → session.isAvailable index mode = false) :
      Answer hits mode session (.exhausted near, session)
  | noMatch {near : List NearMiss} (none : ∀ index, ¬hits index) :
      Answer hits mode session (.noMatch near, session)

/-- One candidate of the selection loop, a miss recorded in a scan that has seen no more
consumed matches. -/
theorem selectFrom_cons (arrival : Arrival) (mode : ConsumptionMode)
    (session : MatcherSession) (index : Nat) (candidate : MatchCandidate)
    (rest : List MatchCandidate) (scan : Scan) :
    ∃ missed : Scan, missed.matchingConsumed = scan.matchingConsumed ∧
      matcher.selectFrom codec arrival.request arrival.body mode session arrival.loader index
          (candidate :: rest) scan =
        if matchesAt codec matcher arrival index candidate = true then
          if session.isAvailable index mode = true then
            (.matched index, session.consume index mode)
          else matcher.selectFrom codec arrival.request arrival.body mode session
            arrival.loader (index + 1) rest { scan with matchingConsumed := true }
        else matcher.selectFrom codec arrival.request arrival.body mode session
          arrival.loader (index + 1) rest missed := by
  have hmiss : ∀ dimensions,
      (scan.differs matcher index dimensions).matchingConsumed = scan.matchingConsumed := by
    intro dimensions
    unfold Scan.differs
    split <;> rfl
  refine ⟨scan.differs matcher index (matcher.dimensions arrival.request candidate ++
    if matcher.bodyMatchesLazy codec arrival.body
        (decide (matcher.dimensions arrival.request candidate = [])) index candidate
        arrival.loader = true then [] else [.body]), hmiss _, ?_⟩
  rw [Matcher.selectFrom]
  by_cases hnarrowed : matcher.dimensions arrival.request candidate = []
  · simp only [matchesAt, hnarrowed, decide_true, Bool.true_and, true_and]
  · simp only [matchesAt, hnarrowed, decide_false, Bool.false_and, Bool.false_eq_true,
      false_and, if_false]

theorem selectFrom_answer (arrival : Arrival) (mode : ConsumptionMode)
    (session : MatcherSession) {candidates before rest : List MatchCandidate} {scan : Scan}
    (hsplit : candidates = before ++ rest)
    (hbefore : ∀ index < before.length, Matches codec matcher candidates arrival index →
      session.isAvailable index mode = false)
    (hscan : scan.matchingConsumed = true ↔
      ∃ index < before.length, Matches codec matcher candidates arrival index) :
    Answer (Matches codec matcher candidates arrival) mode session
      (matcher.selectFrom codec arrival.request arrival.body mode session arrival.loader
        before.length rest scan) := by
  induction rest generalizing before scan with
  | nil =>
      rw [List.append_nil] at hsplit
      subst hsplit
      have hbound : ∀ index, Matches codec matcher candidates arrival index →
          index < candidates.length := by
        rintro index ⟨candidate, hcandidate, -⟩
        exact (List.getElem?_eq_some_iff.mp hcandidate).1
      rw [Matcher.selectFrom, Scan.result]
      split
      · rename_i hconsumed
        obtain ⟨index, -, hhit⟩ := hscan.mp hconsumed
        exact .exhausted hhit fun other hother => hbefore other (hbound other hother) hother
      · rename_i hconsumed
        refine .noMatch fun index hhit => hconsumed (hscan.mpr ⟨index, hbound index hhit, hhit⟩)
  | cons candidate rest ih =>
      have hhere : candidates[before.length]? = some candidate := by
        rw [hsplit, List.getElem?_append_right (Nat.le_refl _), Nat.sub_self]
        rfl
      have hmatches : Matches codec matcher candidates arrival before.length ↔
          matchesAt codec matcher arrival before.length candidate = true := by
        constructor
        · rintro ⟨other, hother, h⟩
          rw [hhere] at hother
          rwa [Option.some.inj hother]
        · exact fun h => ⟨candidate, hhere, h⟩
      have hnext := @ih (before ++ [candidate])
      rw [List.length_append, List.length_singleton] at hnext
      obtain ⟨missed, hmissed, hstep⟩ :=
        @selectFrom_cons N _ codec matcher arrival mode session before.length candidate rest scan
      rw [hstep]
      by_cases hhit : matchesAt codec matcher arrival before.length candidate = true
      · rw [if_pos hhit]
        by_cases havailable : session.isAvailable before.length mode = true
        · rw [if_pos havailable]
          exact .matched (hmatches.mpr hhit) havailable hbefore
        · rw [if_neg havailable]
          apply hnext (by rw [hsplit, List.append_assoc, List.singleton_append])
          · intro index hindex hother
            rcases Nat.lt_succ_iff_lt_or_eq.mp hindex with h | rfl
            · exact hbefore index h hother
            · exact Bool.eq_false_iff.mpr havailable
          · constructor
            · intro _
              exact ⟨before.length, Nat.lt_succ_self _, hmatches.mpr hhit⟩
            · exact fun _ => rfl
      · rw [if_neg hhit]
        have hother : ¬Matches codec matcher candidates arrival before.length :=
          fun h => hhit (hmatches.mp h)
        apply hnext (by rw [hsplit, List.append_assoc, List.singleton_append])
        · intro index hindex hmatch
          rcases Nat.lt_succ_iff_lt_or_eq.mp hindex with h | rfl
          · exact hbefore index h hmatch
          · exact absurd hmatch hother
        · rw [hmissed, hscan]
          constructor
          · rintro ⟨index, hindex, hmatch⟩
            exact ⟨index, Nat.lt_succ_of_lt hindex, hmatch⟩
          · rintro ⟨index, hindex, hmatch⟩
            refine ⟨index, ?_, hmatch⟩
            rcases Nat.lt_succ_iff_lt_or_eq.mp hindex with h | rfl
            · exact h
            · exact absurd hmatch hother

theorem selectArrival_answer (candidates : List MatchCandidate) (mode : ConsumptionMode)
    (session : MatcherSession) (arrival : Arrival) :
    Answer (Matches codec matcher candidates arrival) mode session
      (selectArrival codec matcher candidates mode session arrival) :=
  @selectFrom_answer N _ codec matcher arrival mode session candidates [] candidates
    { near := [], matchingConsumed := false } rfl (by simp) (by simp)

variable {hits : Nat → Prop} {mode : ConsumptionMode} {session : MatcherSession}
  {selected : MatchResult × MatcherSession}

theorem Answer.matched_iff (h : Answer hits mode session selected) (index : Nat) :
    selected.1 = .matched index ↔
      hits index ∧ session.isAvailable index mode = true ∧
        ∀ earlier < index, hits earlier → session.isAvailable earlier mode = false := by
  cases h with
  | @matched found hit available least =>
      constructor
      · intro h
        obtain rfl := MatchResult.matched.inj h
        exact ⟨hit, available, least⟩
      · rintro ⟨hhit, havailable, hleast⟩
        rcases Nat.lt_trichotomy index found with h | h | h
        · rw [least index h hhit] at havailable
          cases havailable
        · rw [h]
        · rw [hleast found h hit] at available
          cases available
  | exhausted hit unavailable =>
      constructor
      · intro h
        cases h
      · rintro ⟨hhit, havailable, -⟩
        rw [unavailable index hhit] at havailable
        cases havailable
  | noMatch none =>
      constructor
      · intro h
        cases h
      · rintro ⟨hhit, -⟩
        exact absurd hhit (none index)

theorem Answer.exhausted_iff (h : Answer hits mode session selected) :
    IsExhausted selected.1 ↔
      (∃ index, hits index) ∧ ∀ index, hits index → session.isAvailable index mode = false := by
  cases h with
  | @matched found hit available least =>
      constructor
      · rintro ⟨near, h⟩
        cases h
      · rintro ⟨-, h⟩
        rw [h found hit] at available
        cases available
  | @exhausted near index hit unavailable =>
      exact ⟨fun _ => ⟨⟨index, hit⟩, unavailable⟩, fun _ => ⟨near, rfl⟩⟩
  | noMatch none =>
      constructor
      · rintro ⟨near, h⟩
        cases h
      · rintro ⟨⟨index, hhit⟩, -⟩
        exact absurd hhit (none index)

theorem Answer.noMatch_iff (h : Answer hits mode session selected) :
    IsNoMatch selected.1 ↔ ∀ index, ¬hits index := by
  cases h with
  | @matched found hit available least =>
      constructor
      · rintro ⟨near, h⟩
        cases h
      · exact fun h => absurd hit (h found)
  | @exhausted near index hit unavailable =>
      constructor
      · rintro ⟨near, h⟩
        cases h
      · exact fun h => absurd hit (h index)
  | @noMatch near none => exact ⟨fun _ => none, fun _ => ⟨near, rfl⟩⟩

theorem Answer.session_eq (h : Answer hits mode session selected) :
    selected.2 = match servedIndex selected.1 with
      | some index => session.consume index mode
      | none => session := by
  cases h <;> rfl

theorem Answer.matched_of_servedIndex {index : Nat} (h : servedIndex selected.1 = some index) :
    selected.1 = .matched index := by
  rcases selected with ⟨_ | _ | _, _⟩
  · exact congrArg MatchResult.matched (Option.some.inj h)
  · cases h
  · cases h

/-! ### Runs -/

variable {candidates : List MatchCandidate}

theorem serve_append (session : MatcherSession) (before after : List Arrival) :
    serve codec matcher candidates mode session (before ++ after) =
      ((serve codec matcher candidates mode session before).1 ++
          (serve codec matcher candidates mode
            (serve codec matcher candidates mode session before).2 after).1,
        (serve codec matcher candidates mode
          (serve codec matcher candidates mode session before).2 after).2) := by
  induction before generalizing session with
  | nil => rfl
  | cons arrival before ih =>
      rw [List.cons_append, serve, ih, serve]
      rfl

theorem serve_concat (session : MatcherSession) (before : List Arrival) (arrival : Arrival) :
    serve codec matcher candidates mode session (before ++ [arrival]) =
      ((serve codec matcher candidates mode session before).1 ++
          [(selectArrival codec matcher candidates mode
            (serve codec matcher candidates mode session before).2 arrival).1],
        (selectArrival codec matcher candidates mode
          (serve codec matcher candidates mode session before).2 arrival).2) := by
  rw [serve_append]
  rfl

theorem serve_length (session : MatcherSession) (arrivals : List Arrival) :
    (serve codec matcher candidates mode session arrivals).1.length = arrivals.length := by
  induction arrivals generalizing session with
  | nil => rfl
  | cons arrival arrivals ih =>
      rw [serve, List.length_cons, List.length_cons, ih]

/-- The answer at an index is the selection on the session that the earlier arrivals leave. -/
theorem serve_getElem? (session : MatcherSession) {arrivals : List Arrival} {k : Nat}
    {arrival : Arrival} (h : arrivals[k]? = some arrival) :
    (serve codec matcher candidates mode session arrivals).1[k]? =
      some (selectArrival codec matcher candidates mode
        (serve codec matcher candidates mode session (arrivals.take k)).2 arrival).1 := by
  induction arrivals generalizing session k with
  | nil => cases h
  | cons first rest ih =>
      cases k with
      | zero =>
          obtain rfl := Option.some.inj h
          rfl
      | succ k =>
          rw [List.getElem?_cons_succ] at h
          rw [serve, List.getElem?_cons_succ, ih _ h]
          rfl

theorem serve_take (session : MatcherSession) (arrivals : List Arrival) (k : Nat) :
    (serve codec matcher candidates mode session (arrivals.take k)).1 =
      (serve codec matcher candidates mode session arrivals).1.take k := by
  induction arrivals generalizing session k with
  | nil => simp [serve]
  | cons first rest ih =>
      cases k with
      | zero => rfl
      | succ k =>
          rw [List.take_succ_cons, serve, ih, serve]
          rfl

def servedIndices (answers : List MatchResult) : List Nat :=
  answers.filterMap servedIndex

theorem servedIndices_concat (answers : List MatchResult) (answer : MatchResult) :
    servedIndices (answers ++ [answer]) =
      servedIndices answers ++ (servedIndex answer).toList := by
  rw [servedIndices, List.filterMap_append]
  cases answer <;> rfl

/-! ### Once -/

/-- A session that has consumed what the answers so far served. -/
structure Remembers (answers : List MatchResult) (session : MatcherSession) : Prop where
  consumed : ∀ index, index ∈ session.consumed ↔ index ∈ servedIndices answers

theorem Remembers.available (h : Remembers answers session) (index : Nat) :
    session.isAvailable index .once = false ↔ index ∈ servedIndices answers := by
  rw [MatcherSession.isAvailable, decide_eq_false_iff_not, not_not]
  exact h.consumed index

theorem Remembers.step {answers : List MatchResult} (h : Remembers answers session)
    (hmode : mode ≠ .unlimited) (hanswer : Answer hits mode session selected) :
    Remembers (answers ++ [selected.1]) selected.2 where
  consumed index := by
    rw [servedIndices_concat, List.mem_append, ← h.consumed, hanswer.session_eq]
    rcases hserved : servedIndex selected.1 with _ | served
    · simp
    · simp [MatcherSession.consume, hmode, or_comm]

theorem serve_remembers (hmode : mode ≠ .unlimited) (arrivals : List Arrival) :
    Remembers (serve codec matcher candidates mode MatcherSession.new arrivals).1
      (serve codec matcher candidates mode MatcherSession.new arrivals).2 := by
  induction arrivals using List.reverseRecOn with
  | nil => exact ⟨fun index => by simp [serve, MatcherSession.new, servedIndices]⟩
  | append_singleton before arrival ih =>
      rw [serve_concat]
      exact ih.step hmode (selectArrival_answer candidates mode _ arrival)

/-- The answer that once mode owes a request after the earlier answers. -/
structure OnceAnswer (hits : Nat → Prop) (earlier : List MatchResult)
    (answer : MatchResult) : Prop where
  matched : ∀ index, answer = .matched index ↔ hits index ∧ index ∉ servedIndices earlier ∧
    ∀ other < index, hits other → other ∈ servedIndices earlier
  exhausted : IsExhausted answer ↔
    (∃ index, hits index) ∧ ∀ index, hits index → index ∈ servedIndices earlier
  noMatch : IsNoMatch answer ↔ ∀ index, ¬hits index

theorem Answer.once {earlier : List MatchResult} (h : Answer hits .once session selected)
    (hsession : Remembers earlier session) : OnceAnswer hits earlier selected.1 where
  matched index := by
    rw [h.matched_iff index, ← hsession.available index, Bool.not_eq_false]
    simp only [hsession.available]
  exhausted := by
    rw [h.exhausted_iff]
    simp only [hsession.available]
  noMatch := h.noMatch_iff

theorem servedIndices_nodup (arrivals : List Arrival) :
    (servedIndices (serve codec matcher candidates .once MatcherSession.new arrivals).1).Nodup := by
  induction arrivals using List.reverseRecOn with
  | nil => exact List.nodup_nil
  | append_singleton before arrival ih =>
      have hanswer := (@selectArrival_answer N _ codec matcher candidates .once
        (serve codec matcher candidates .once MatcherSession.new before).2 arrival).once
        (serve_remembers (by decide) before)
      rw [serve_concat, servedIndices_concat]
      rcases hserved : servedIndex (selectArrival codec matcher candidates .once
        (serve codec matcher candidates .once MatcherSession.new before).2 arrival).1
        with _ | index
      · simpa using ih
      · have hfresh := ((hanswer.matched index).mp (Answer.matched_of_servedIndex hserved)).2.1
        rw [List.nodup_append]
        refine ⟨ih, List.nodup_singleton index, ?_⟩
        intro a ha b hb hab
        rw [Option.toList_some, List.mem_singleton] at hb
        rw [hab, hb] at ha
        exact hfresh ha

theorem selectArrival_session_eq {arrival : Arrival}
    (h : servedIndex (selectArrival codec matcher candidates mode session arrival).1 = none) :
    (selectArrival codec matcher candidates mode session arrival).2 = session := by
  rw [(selectArrival_answer candidates mode session arrival).session_eq, h]

/-- An arrival that is served nothing can be left out of the run. -/
theorem serve_without (before after : List Arrival) {arrival : Arrival}
    (h : servedIndex (selectArrival codec matcher candidates mode
      (serve codec matcher candidates mode session before).2 arrival).1 = none) :
    servedIndices (serve codec matcher candidates mode session (before ++ arrival :: after)).1 =
      servedIndices (serve codec matcher candidates mode session (before ++ after)).1 := by
  rw [serve_append, serve_append, serve, selectArrival_session_eq h]
  simp [servedIndices, h]

/-- Once mode over a whole run: every answer is the one owed, an answer that serves
nothing leaves the session as it was and can be left out, and no candidate is served
twice. -/
theorem once_serves_each (candidates : List MatchCandidate) (arrivals : List Arrival) :
    let run := serve codec matcher candidates .once MatcherSession.new
    (run arrivals).1.length = arrivals.length ∧
    (∀ k arrival, arrivals[k]? = some arrival → ∃ answer, (run arrivals).1[k]? = some answer ∧
      OnceAnswer (Matches codec matcher candidates arrival) ((run arrivals).1.take k) answer ∧
      (servedIndex answer = none →
        (run (arrivals.take (k + 1))).2 = (run (arrivals.take k)).2 ∧
        servedIndices (run (arrivals.eraseIdx k)).1 = servedIndices (run arrivals).1)) ∧
    (servedIndices (run arrivals).1).Nodup := by
  intro run
  refine ⟨serve_length _ arrivals, ?_, servedIndices_nodup arrivals⟩
  intro k arrival harrival
  refine ⟨_, serve_getElem? _ harrival, ?_, ?_⟩
  · rw [← serve_take]
    exact (selectArrival_answer candidates .once _ arrival).once
      (serve_remembers (by decide) (arrivals.take k))
  · intro hserved
    obtain ⟨hk, rfl⟩ := List.getElem?_eq_some_iff.mp harrival
    constructor
    · rw [List.take_succ_eq_append_getElem hk]
      show (serve codec matcher candidates .once _ (arrivals.take k ++ [arrivals[k]])).2 = _
      rw [serve_concat]
      exact selectArrival_session_eq hserved
    · show servedIndices (serve codec matcher candidates .once _ (arrivals.eraseIdx k)).1 =
        servedIndices (serve codec matcher candidates .once _ arrivals).1
      rw [List.eraseIdx_eq_take_drop_succ, ← serve_without _ _ hserved,
        List.getElem_cons_drop, List.take_append_drop]

/-! ### Repeat last -/

/-- A session that no match has pinned, or that its first match has pinned for good. -/
structure Pinned (answers : List MatchResult) (session : MatcherSession) : Prop where
  last : session.last = (servedIndices answers).head?
  fresh : session.last = none → session.consumed = ∅

theorem Pinned.available_fresh {answers : List MatchResult} (h : Pinned answers session)
    (hpin : (servedIndices answers).head? = none) (index : Nat) :
    session.isAvailable index .repeatLast = true := by
  have hlast := h.last.trans hpin
  simp [MatcherSession.isAvailable, hlast, h.fresh hlast]

theorem Pinned.available_pinned {answers : List MatchResult} {pin : Nat}
    (h : Pinned answers session) (hpin : (servedIndices answers).head? = some pin)
    (index : Nat) : session.isAvailable index .repeatLast = true ↔ pin = index := by
  have hlast := h.last.trans hpin
  simp [MatcherSession.isAvailable, hlast]

theorem Pinned.step {answers : List MatchResult} (h : Pinned answers session)
    (hanswer : Answer hits .repeatLast session selected) :
    Pinned (answers ++ [selected.1]) selected.2 := by
  rw [hanswer.session_eq]
  rcases hserved : servedIndex selected.1 with _ | index
  · constructor
    · rw [servedIndices_concat, hserved, Option.toList_none, List.append_nil]
      exact h.last
    · exact h.fresh
  · constructor
    · rw [servedIndices_concat, hserved, Option.toList_some]
      show some index = _
      rcases hpin : (servedIndices answers).head? with _ | pin
      · rw [List.head?_eq_none_iff.mp hpin]
        rfl
      · have havailable := ((hanswer.matched_iff index).mp
          (Answer.matched_of_servedIndex hserved)).2.1
        rw [List.head?_append_of_ne_nil _ (by rintro h; rw [h] at hpin; cases hpin), hpin,
          (h.available_pinned hpin index).mp havailable]
    · intro hlast
      cases hlast

theorem serve_pinned (arrivals : List Arrival) :
    Pinned (serve codec matcher candidates .repeatLast MatcherSession.new arrivals).1
      (serve codec matcher candidates .repeatLast MatcherSession.new arrivals).2 := by
  induction arrivals using List.reverseRecOn with
  | nil => exact ⟨rfl, fun _ => rfl⟩
  | append_singleton before arrival ih =>
      rw [serve_concat]
      exact ih.step (selectArrival_answer candidates .repeatLast _ arrival)

/-- The answer that repeat-last mode owes a request: the first candidate served stays the
only one available. -/
structure RepeatLastAnswer (hits : Nat → Prop) (earlier : List MatchResult)
    (answer : MatchResult) : Prop where
  unpinned : (servedIndices earlier).head? = none → ∀ index,
    answer = .matched index ↔ hits index ∧ ∀ other < index, ¬hits other
  pinned : ∀ pin, (servedIndices earlier).head? = some pin → ∀ index,
    answer = .matched index ↔ index = pin ∧ hits pin
  exhausted : IsExhausted answer ↔
    (∃ index, hits index) ∧ ∃ pin, (servedIndices earlier).head? = some pin ∧ ¬hits pin
  noMatch : IsNoMatch answer ↔ ∀ index, ¬hits index

theorem Answer.repeatLast {earlier : List MatchResult}
    (h : Answer hits .repeatLast session selected) (hsession : Pinned earlier session) :
    RepeatLastAnswer hits earlier selected.1 where
  unpinned hpin index := by
    rw [h.matched_iff index]
    simp [hsession.available_fresh hpin]
  pinned pin hpin index := by
    rw [h.matched_iff index, hsession.available_pinned hpin]
    constructor
    · rintro ⟨hhit, rfl, -⟩
      exact ⟨rfl, hhit⟩
    · rintro ⟨rfl, hhit⟩
      refine ⟨hhit, rfl, ?_⟩
      intro earlier hless _
      rw [← Bool.not_eq_true, hsession.available_pinned hpin]
      exact Nat.ne_of_gt hless
  exhausted := by
    rw [h.exhausted_iff]
    apply and_congr_right
    rintro ⟨index, hhit⟩
    constructor
    · intro hnone
      rcases hpin : (servedIndices earlier).head? with _ | pin
      · have havailable := hsession.available_fresh hpin index
        rw [hnone index hhit] at havailable
        cases havailable
      · refine ⟨pin, rfl, ?_⟩
        intro hpinned
        have havailable := (hsession.available_pinned hpin pin).mpr rfl
        rw [hnone pin hpinned] at havailable
        cases havailable
    · rintro ⟨pin, hpin, hmiss⟩ other hother
      rw [← Bool.not_eq_true, hsession.available_pinned hpin]
      rintro rfl
      exact hmiss hother
  noMatch := h.noMatch_iff

/-- Repeat-last mode over a whole run: until a first match every request is answered by the
first candidate that matches it, and from then on only the candidate of that match is
served. -/
theorem repeatLast_serves_pin (candidates : List MatchCandidate) (arrivals : List Arrival) :
    let run := serve codec matcher candidates .repeatLast MatcherSession.new
    (run arrivals).1.length = arrivals.length ∧
    ∀ k arrival, arrivals[k]? = some arrival → ∃ answer, (run arrivals).1[k]? = some answer ∧
      RepeatLastAnswer (Matches codec matcher candidates arrival) ((run arrivals).1.take k)
        answer := by
  intro run
  refine ⟨serve_length _ arrivals, ?_⟩
  intro k arrival harrival
  refine ⟨_, serve_getElem? _ harrival, ?_⟩
  rw [← serve_take]
  exact (selectArrival_answer candidates .repeatLast _ arrival).repeatLast
    (serve_pinned (arrivals.take k))

end

/-! ### Two requests in repeat-last mode -/

def flowAt (path : String) : Flow :=
  { plainFlow [] with request := { plainRequest with path := path } }

def arrivalAt (path : String) : Arrival where
  request := { plainRequest with path := path }
  body := []
  loader := fun _ _ => none

/-- The second request is matched by the second candidate, but the first candidate is
pinned. -/
theorem other_request_starved :
    ∃ (candidates : List MatchCandidate) (arrivals : List Arrival) (index : Nat)
        (arrival : Arrival),
      arrivals[index]? = some arrival ∧
      (∃ hit, Matches sampleCodec (Matcher.strict 0) candidates arrival hit) ∧
      ∃ answer, (serve sampleCodec (Matcher.strict 0) candidates .repeatLast
        MatcherSession.new arrivals).1[index]? = some answer ∧ IsExhausted answer :=
  ⟨[.fromFlow (flowAt "/a"), .fromFlow (flowAt "/b")], [arrivalAt "/a", arrivalAt "/b"], 1,
    arrivalAt "/b", rfl, ⟨1, _, rfl, by decide +kernel⟩, .exhausted [], by decide +kernel,
    [], rfl⟩

end EggReplay.Core.Consumption
