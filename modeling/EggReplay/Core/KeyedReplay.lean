import EggReplay.Core.FieldWildcards
import EggReplay.Library.KeyedQueues

/-!
Replay in the once mode as a stock of flows: what the matcher compares of a request is a key,
and a request is answered by the oldest flow of its key that is left.
-/

namespace EggReplay.Core.KeyedReplay

open EggReplay.Library.KeyedQueues
open EggReplay.Library.Text
open EggReplay.Core.FlowRecord
open EggReplay.Core.Redaction
open EggReplay.Core.Matching
open EggReplay.Core.BodyWildcards
open EggReplay.Core.Consumption
open EggReplay.Core.FieldWildcards

variable {N : Type}

/-! ### Keys -/

/-- What an exact matcher compares of a request. -/
structure RequestKey where
  method : String
  scheme : String
  authority : String
  path : String
  query : List QueryPair
  headers : HeaderGroups
  body : Bytes
  deriving DecidableEq, Repr

/-- The key of a request where some headers and query keys are left out. -/
def requestKey (matcher : Matcher) (names keys : Finset String) (request : HttpRequest)
    (body : Bytes) : RequestKey :=
  let normalized := matcher.normalize request
  { method := request.method
    scheme := normalized.scheme
    authority := normalized.authority
    path := normalized.path
    query := filterQuery request.query keys
    headers := normalizeHeaders request.headers (matcher.ignoredHeaders ∪ names)
    body }

def arrivalKey (matcher : Matcher) (names keys : Finset String) (arrival : Arrival) :
    RequestKey :=
  requestKey matcher names keys arrival.request arrival.body

/-- A flow of a fixture in which every request was redacted in the same fields and no request
body was redacted, with the bytes of its request body. -/
structure StockedFlow (codec : BodyCodec N) (names keys : Finset String) where
  flow : Flow
  body : Bytes
  headers : redactedRequestHeaders flow.redactions = names
  query : redactedRequestQuery flow.redactions = keys
  json : redactedBodyJsonPaths flow.redactions false = ∅
  form : redactedBodyFormKeys flow.redactions = ∅
  describes : Describes codec body flow.request.body

section

variable {codec : BodyCodec N} {names keys : Finset String} {matcher : Matcher}
  {stocked : StockedFlow codec names keys} {arrival : Arrival}

def StockedFlow.candidate (stocked : StockedFlow codec names keys) : MatchCandidate :=
  .fromFlow stocked.flow

def StockedFlow.key (matcher : Matcher) (stocked : StockedFlow codec names keys) : RequestKey :=
  requestKey matcher names keys stocked.flow.request stocked.body

theorem dimensions_stocked (actual : HttpRequest) :
    matcher.dimensions actual stocked.candidate = [] ↔
      AgreesApartFrom (matcher.ignoredHeaders ∪ names) keys actual stocked.flow.request := by
  rw [dimensions_eq_nil_iff_apart]
  show AgreesApartFrom (matcher.ignoredHeaders ∪ redactedRequestHeaders stocked.flow.redactions)
    (redactedRequestQuery stocked.flow.redactions) actual stocked.flow.request ↔ _
  rw [stocked.headers, stocked.query]

/-- Agreement is equality of what the keys hold beside the bodies. -/
theorem agreesApartFrom_iff_key (actual recorded : HttpRequest) (body : Bytes) :
    AgreesApartFrom (matcher.ignoredHeaders ∪ names) keys actual recorded ↔
      requestKey matcher names keys actual body = requestKey matcher names keys recorded body := by
  simp only [requestKey, RequestKey.mk.injEq, Matcher.normalize, filterQuery_eq,
    normalizeHeaders_eq_iff, and_true]
  constructor
  · rintro ⟨hmethod, hscheme, hauthority, hpath, hheaders, hquery⟩
    exact ⟨hmethod, hscheme, hauthority, hpath, hquery, hheaders⟩
  · rintro ⟨hmethod, hscheme, hauthority, hpath, hquery, hheaders⟩
    exact ⟨hmethod, hscheme, hauthority, hpath, hheaders, hquery⟩

variable [DecidableEq N]

theorem bodyMatchesLazy_stocked (hexact : matcher.bodyMode = .exactBytes)
    (hdigest : codec.sha256 arrival.body = codec.sha256 stocked.body →
      arrival.body = stocked.body) (narrowed : Bool) (index : Nat) :
    matcher.bodyMatchesLazy codec arrival.body narrowed index stocked.candidate arrival.loader =
        true ↔ arrival.body = stocked.body := by
  have hplain : ¬(redactedBodyJsonPaths stocked.candidate.flow.redactions false ≠ ∅ ∨
      redactedBodyFormKeys stocked.candidate.flow.redactions ≠ ∅) := by
    rintro (h | h)
    · exact h stocked.json
    · exact h stocked.form
  have hbody := stocked.describes
  rw [Matcher.bodyMatchesLazy, if_neg hplain, Matcher.bodyMatchesPlain, StockedFlow.candidate,
    MatchCandidate.fromFlow]
  rcases hreference : stocked.flow.request.body with _ | _ | reference
  · rw [hreference, Describes] at hbody
    simp only [CandidateBody.fromBodyRef, hbody, decide_eq_true_eq]
  · rw [hreference, Describes] at hbody
    simp only [CandidateBody.fromBodyRef, hbody, decide_eq_true_eq]
  · rw [hreference, Describes] at hbody
    simp only [CandidateBody.fromBodyRef, hexact, hbody.1, hbody.2, Bool.and_eq_true,
      decide_eq_true_eq]
    constructor
    · exact fun hsame => hdigest hsame.2
    · intro hsame
      rw [hsame]
      exact ⟨rfl, rfl⟩

/-- A flow answers a request exactly where their keys are the same. -/
theorem matchesAt_stocked (hexact : matcher.bodyMode = .exactBytes)
    (hdigest : codec.sha256 arrival.body = codec.sha256 stocked.body →
      arrival.body = stocked.body) (index : Nat) :
    matchesAt codec matcher arrival index stocked.candidate = true ↔
      stocked.key matcher = arrivalKey matcher names keys arrival := by
  rw [matchesAt, Bool.and_eq_true, decide_eq_true_eq, dimensions_stocked,
    bodyMatchesLazy_stocked hexact hdigest]
  constructor
  · rintro ⟨hagrees, hbody⟩
    rw [StockedFlow.key, arrivalKey, hbody]
    exact ((agreesApartFrom_iff_key _ _ _).mp hagrees).symm
  · intro hkey
    have hbody : arrival.body = stocked.body := (congrArg RequestKey.body hkey).symm
    rw [StockedFlow.key, arrivalKey, hbody] at hkey
    exact ⟨(agreesApartFrom_iff_key _ _ _).mpr hkey.symm, hbody⟩

end

/-! ### One queue for each key -/

section

variable [DecidableEq N] {codec : BodyCodec N} {names keys : Finset String} {matcher : Matcher}
  {fixture : List (StockedFlow codec names keys)} {arrivals : List Arrival} {arrival : Arrival}

/-- A digest of a body that arrives is not the one of another body in the fixture. -/
def DigestsTell (codec : BodyCodec N) (fixture : List (StockedFlow codec names keys))
    (arrival : Arrival) : Prop :=
  ∀ stocked ∈ fixture, codec.sha256 arrival.body = codec.sha256 stocked.body →
    arrival.body = stocked.body

def stockKeys (matcher : Matcher) (fixture : List (StockedFlow codec names keys)) :
    List RequestKey :=
  fixture.map (StockedFlow.key matcher)

def replayAll (matcher : Matcher) (fixture : List (StockedFlow codec names keys))
    (arrivals : List Arrival) : List MatchResult :=
  (serve codec matcher (fixture.map StockedFlow.candidate) .once MatcherSession.new arrivals).1

theorem matches_iff_place (hexact : matcher.bodyMode = .exactBytes)
    (hdigest : DigestsTell codec fixture arrival) (index : Nat) :
    Matches codec matcher (fixture.map StockedFlow.candidate) arrival index ↔
      index ∈ places (stockKeys matcher fixture) (arrivalKey matcher names keys arrival) := by
  rw [mem_places, stockKeys, List.getElem?_map, Matches]
  simp only [List.getElem?_map]
  rcases hat : fixture[index]? with _ | stocked
  · exact ⟨(by rintro ⟨_, ⟨⟩, _⟩), (by rintro ⟨⟩)⟩
  · have hmatches := matchesAt_stocked hexact (hdigest stocked (List.mem_of_getElem? hat)) index
    rw [Option.map_some, Option.map_some, Option.some.injEq, ← hmatches]
    constructor
    · rintro ⟨candidate, hsame, h⟩
      obtain rfl := Option.some.inj hsame
      exact h
    · exact fun h => ⟨_, rfl, h⟩

/-- The first of an ascending list of numbers is the least that is in it. -/
theorem head?_eq_some_iff_least {numbers : List Nat} (hascending : numbers.Pairwise (· < ·))
    (index : Nat) :
    numbers.head? = some index ↔ index ∈ numbers ∧ ∀ earlier < index, earlier ∉ numbers := by
  cases numbers with
  | nil => exact ⟨(by rintro ⟨⟩), fun h => absurd h.1 List.not_mem_nil⟩
  | cons first rest =>
      rw [List.head?_cons, Option.some.injEq]
      have hrest := (List.pairwise_cons.mp hascending).1
      constructor
      · rintro rfl
        refine ⟨List.mem_cons_self, fun earlier hless hmem => ?_⟩
        rcases List.mem_cons.mp hmem with rfl | hmem
        · exact Nat.lt_irrefl _ hless
        · exact Nat.lt_asymm hless (hrest earlier hmem)
      · rintro ⟨hmem, hleast⟩
        rcases List.mem_cons.mp hmem with rfl | hmem
        · rfl
        · exact absurd List.mem_cons_self (hleast first (hrest index hmem))

/-- What is left of the queues is what no answer has served. -/
def LeftUnserved (stock : List RequestKey) (asked : List RequestKey) (served : List Nat) : Prop :=
  ∀ key, Queues.left (places stock) asked key =
    (places stock key).filter fun place => place ∉ served

/-- The answer that once mode owes is the head of the queue that is left. -/
theorem OnceAnswer.served_eq {stock asked : List RequestKey} {earlier : List MatchResult}
    {key : RequestKey} {hits : Nat → Prop} {answer : MatchResult}
    (h : OnceAnswer hits earlier answer) (hhits : ∀ index, hits index ↔ index ∈ places stock key)
    (hleft : LeftUnserved stock asked (servedIndices earlier)) :
    servedIndex answer = (Queues.left (places stock) asked key).head? := by
  rw [hleft key]
  have hascending := (pairwise_places stock key).filter fun place =>
    decide (place ∉ servedIndices earlier)
  have hhead : ∀ index, answer = .matched index ↔
      ((places stock key).filter fun place => place ∉ servedIndices earlier).head? =
        some index := by
    intro index
    rw [h.matched index, head?_eq_some_iff_least hascending, List.mem_filter, hhits]
    simp only [List.mem_filter, decide_eq_true_eq, not_and, not_not, hhits, and_assoc]
  rcases hanswer : servedIndex answer with _ | index
  · rcases hplace : ((places stock key).filter fun place =>
        place ∉ servedIndices earlier).head? with _ | place
    · rfl
    · rw [(hhead place).mpr hplace] at hanswer
      cases hanswer
  · exact ((hhead index).mp (@Answer.matched_of_servedIndex (answer, .new) index hanswer)).symm

theorem leftUnserved_take {stock asked : List RequestKey} {served : List Nat}
    (hleft : LeftUnserved stock asked served) (key : RequestKey) :
    LeftUnserved stock (asked ++ [key])
      (served ++ ((Queues.left (places stock) asked key).head?).toList) := by
  intro other
  rw [left_concat, take_snd]
  rcases hhead : (Queues.left (places stock) asked key).head? with _ | place
  · have hnil := List.head?_eq_none_iff.mp hhead
    rw [hnil, List.tail_nil, Option.toList_none, List.append_nil, ← hnil, Function.update_eq_self]
    exact hleft other
  · obtain ⟨rest, hrest⟩ : ∃ rest, Queues.left (places stock) asked key = place :: rest :=
      ⟨_, (List.eq_cons_of_mem_head? hhead)⟩
    have hsplit : ((places stock other).filter fun index => index ∉ served ++ [place]) =
        ((places stock other).filter fun index => index ∉ served).filter fun index =>
          index ≠ place := by
      rw [List.filter_filter]
      apply List.filter_congr
      intro index _
      simp only [List.mem_append, List.mem_singleton, not_or, Bool.decide_and, ne_eq]
      exact Bool.and_comm _ _
    rw [Option.toList_some, hsplit, ← hleft other]
    have hplace : place ∈ places stock key := by
      have hmem : place ∈ Queues.left (places stock) asked key := by
        rw [hrest]
        exact List.mem_cons_self
      rw [hleft key] at hmem
      exact (List.mem_filter.mp hmem).1
    by_cases hother : other = key
    · subst hother
      have hnodup := (nodup_places stock other).filter fun index => decide (index ∉ served)
      rw [Function.update_self, hrest, List.tail_cons, List.filter_cons]
      rw [← hleft other, hrest, List.nodup_cons] at hnodup
      rw [if_neg (by simp)]
      exact (List.filter_eq_self.mpr fun index hindex => by
        apply decide_eq_true
        rintro rfl
        exact hnodup.1 hindex).symm
    · rw [Function.update_of_ne hother]
      refine (List.filter_eq_self.mpr fun index hindex => ?_).symm
      apply decide_eq_true
      rintro rfl
      rw [hleft other] at hindex
      have hsame := (mem_places.mp (List.mem_filter.mp hindex).1).symm.trans (mem_places.mp hplace)
      exact hother (Option.some.inj hsame)

/-- The answers so far are those of the queues, and what they left is left in the queues. -/
theorem replayAll_hand (hexact : matcher.bodyMode = .exactBytes)
    (hdigest : ∀ arrival ∈ arrivals, DigestsTell codec fixture arrival) :
    (replayAll matcher fixture arrivals).map servedIndex =
        Queues.hand (places (stockKeys matcher fixture))
          (arrivals.map (arrivalKey matcher names keys)) ∧
      LeftUnserved (stockKeys matcher fixture) (arrivals.map (arrivalKey matcher names keys))
        (servedIndices (replayAll matcher fixture arrivals)) := by
  induction arrivals using List.reverseRecOn with
  | nil =>
      refine ⟨rfl, fun key => ?_⟩
      simp [replayAll, serve, servedIndices, Queues.left]
  | append_singleton before arrival ih =>
      obtain ⟨hanswers, hleft⟩ := ih fun other hother => hdigest other (by simp [hother])
      have hplaces := fun index => @matches_iff_place N _ codec names keys matcher fixture arrival
        hexact (hdigest arrival (by simp)) index
      have hanswer := (@selectArrival_answer N _ codec matcher
        (fixture.map StockedFlow.candidate) .once
        (serve codec matcher (fixture.map StockedFlow.candidate) .once MatcherSession.new before).2
        arrival).once (serve_remembers (by decide) before)
      have hserved := OnceAnswer.served_eq hanswer hplaces hleft
      have hrun : replayAll matcher fixture (before ++ [arrival]) =
          replayAll matcher fixture before ++ [(selectArrival codec matcher
            (fixture.map StockedFlow.candidate) .once
            (serve codec matcher (fixture.map StockedFlow.candidate) .once MatcherSession.new
              before).2 arrival).1] := by
        rw [replayAll, serve_concat]
        rfl
      rw [hrun, List.map_append, List.map_append, List.map_singleton, List.map_singleton,
        hand_concat, hanswers, servedIndices_concat, hserved]
      exact ⟨rfl, leftUnserved_take hleft _⟩

theorem getElem?_replayAll (hexact : matcher.bodyMode = .exactBytes)
    (hdigest : ∀ arrival ∈ arrivals, DigestsTell codec fixture arrival) {turn : Nat}
    (hturn : arrivals[turn]? = some arrival) :
    ∃ answer, (replayAll matcher fixture arrivals)[turn]? = some answer ∧
      OnceAnswer (Matches codec matcher (fixture.map StockedFlow.candidate) arrival)
        ((replayAll matcher fixture arrivals).take turn) answer ∧
      servedIndex answer = (places (stockKeys matcher fixture)
        (arrivalKey matcher names keys arrival))[((arrivals.take turn).map
          (arrivalKey matcher names keys)).count (arrivalKey matcher names keys arrival)]? := by
  have hanswer : (replayAll matcher fixture arrivals)[turn]? = _ :=
    serve_getElem? MatcherSession.new hturn
  have honce := (@selectArrival_answer N _ codec matcher (fixture.map StockedFlow.candidate) .once
    (serve codec matcher (fixture.map StockedFlow.candidate) .once MatcherSession.new
      (arrivals.take turn)).2 arrival).once (serve_remembers (by decide) (arrivals.take turn))
  rw [serve_take] at honce
  refine ⟨_, hanswer, honce, ?_⟩
  have hasked : (arrivals.map (arrivalKey matcher names keys))[turn]? =
      some (arrivalKey matcher names keys arrival) := by
    rw [List.getElem?_map, hturn, Option.map_some]
  have hhand := @getElem?_hand _ _ _ (places (stockKeys matcher fixture)) _ _ hasked
  rw [← (replayAll_hand hexact hdigest).1, List.getElem?_map, hanswer, Option.map_some,
    Option.some.injEq, ← List.map_take] at hhand
  exact hhand

/-- In the once mode the answer to a request depends on nothing but its key and the number of
earlier requests with that key: the flows of a key are served in the order of the fixture, and
a request for a key that is not there is told from one that has come too often. -/
theorem once_replays_queues (hexact : matcher.bodyMode = .exactBytes)
    (hdigest : ∀ arrival ∈ arrivals, DigestsTell codec fixture arrival) :
    (replayAll matcher fixture arrivals).map servedIndex =
        Queues.hand (places (stockKeys matcher fixture))
          (arrivals.map (arrivalKey matcher names keys)) ∧
      ∀ turn arrival, arrivals[turn]? = some arrival →
        ∃ answer, (replayAll matcher fixture arrivals)[turn]? = some answer ∧
          let key := arrivalKey matcher names keys arrival
          let earlier := ((arrivals.take turn).map (arrivalKey matcher names keys)).count key
          (∀ index, answer = .matched index ↔
            (places (stockKeys matcher fixture) key)[earlier]? = some index) ∧
          (IsExhausted answer ↔ key ∈ stockKeys matcher fixture ∧
            (stockKeys matcher fixture).count key ≤ earlier) ∧
          (IsNoMatch answer ↔ key ∉ stockKeys matcher fixture) := by
  refine ⟨(replayAll_hand hexact hdigest).1, fun turn arrival hturn => ?_⟩
  obtain ⟨answer, hanswer, honce, hserved⟩ := getElem?_replayAll hexact hdigest hturn
  refine ⟨answer, hanswer, ?_⟩
  intro key earlier
  have hhits := fun index => @matches_iff_place N _ codec names keys matcher fixture arrival
    hexact (hdigest arrival (List.mem_of_getElem? hturn)) index
  have hstocked : key ∈ stockKeys matcher fixture ↔
      ∃ index, Matches codec matcher (fixture.map StockedFlow.candidate) arrival index := by
    simp only [hhits, mem_places, ← List.mem_iff_getElem?]
    rfl
  have hmatched : ∀ index, answer = .matched index ↔
      (places (stockKeys matcher fixture) key)[earlier]? = some index := by
    intro index
    rw [← hserved]
    exact ⟨fun h => h ▸ rfl, @Answer.matched_of_servedIndex (answer, .new) index⟩
  have hnone : IsNoMatch answer ↔ key ∉ stockKeys matcher fixture := by
    rw [honce.noMatch, hstocked, not_exists]
  refine ⟨hmatched, ?_, hnone⟩
  constructor
  · rintro ⟨near, rfl⟩
    have hleft := List.getElem?_eq_none_iff.mp hserved.symm
    rw [length_places] at hleft
    exact ⟨hstocked.mpr (honce.exhausted.mp ⟨near, rfl⟩).1, hleft⟩
  · rintro ⟨hkey, hcount⟩
    cases answer with
    | matched index =>
        have hplace := (List.getElem?_eq_some_iff.mp ((hmatched index).mp rfl)).1
        rw [length_places] at hplace
        exact absurd hcount (Nat.not_le_of_lt hplace)
    | noMatch near => exact absurd hkey (hnone.mp ⟨near, rfl⟩)
    | exhausted near => exact ⟨near, rfl⟩

theorem shuffled_served (hexact : matcher.bodyMode = .exactBytes)
    (hdigest : ∀ arrival ∈ arrivals, DigestsTell codec fixture arrival)
    (hshuffled : (arrivals.map (arrivalKey matcher names keys)).Perm (stockKeys matcher fixture)) :
    ((replayAll matcher fixture arrivals).map servedIndex).Perm
      ((List.range fixture.length).map some) := by
  have hperm := hand_perm hshuffled
  rw [stockKeys, List.length_map] at hperm
  rw [(replayAll_hand hexact hdigest).1]
  exact hperm

theorem shuffled_answer (hexact : matcher.bodyMode = .exactBytes)
    (hdigest : ∀ arrival ∈ arrivals, DigestsTell codec fixture arrival)
    (hshuffled : (arrivals.map (arrivalKey matcher names keys)).Perm (stockKeys matcher fixture))
    {turn : Nat} (hturn : arrivals[turn]? = some arrival) :
    ∃ (index : Nat) (stocked : StockedFlow codec names keys),
      (replayAll matcher fixture arrivals)[turn]? = some (MatchResult.matched index) ∧
      fixture[index]? = some stocked ∧
      stocked.key matcher = arrivalKey matcher names keys arrival := by
  have hasked : (arrivals.map (arrivalKey matcher names keys))[turn]? =
      some (arrivalKey matcher names keys arrival) := by
    rw [List.getElem?_map, hturn, Option.map_some]
  obtain ⟨answer, hanswer, -⟩ := getElem?_replayAll hexact hdigest hturn
  have hserved : (Queues.hand (places (stockKeys matcher fixture))
      (arrivals.map (arrivalKey matcher names keys)))[turn]? = some (servedIndex answer) := by
    rw [← (replayAll_hand hexact hdigest).1, List.getElem?_map, hanswer, Option.map_some]
  obtain ⟨index, hindex⟩ := Option.isSome_iff_exists.mp (hand_isSome hshuffled hserved)
  obtain rfl := @Answer.matched_of_servedIndex (answer, .new) index hindex
  have hkey := key_of_hand hasked hserved
  rw [stockKeys, List.getElem?_map, Option.map_eq_some_iff] at hkey
  obtain ⟨stocked, hstocked, hkey⟩ := hkey
  exact ⟨index, stocked, hanswer, hstocked, hkey⟩

/-- Requests that are the recorded ones in any order are all answered: each flow is served
once, to a request of its key, and the flows of a key in the order they were recorded. -/
theorem shuffled_replay_complete (hexact : matcher.bodyMode = .exactBytes)
    (hdigest : ∀ arrival ∈ arrivals, DigestsTell codec fixture arrival)
    (hshuffled : (arrivals.map (arrivalKey matcher names keys)).Perm (stockKeys matcher fixture)) :
    let answers := replayAll matcher fixture arrivals
    (answers.map servedIndex).Perm ((List.range fixture.length).map some) ∧
      (∀ (turn : Nat) (arrival : Arrival), arrivals[turn]? = some arrival →
        ∃ (index : Nat) (stocked : StockedFlow codec names keys),
          answers[turn]? = some (MatchResult.matched index) ∧ fixture[index]? = some stocked ∧
          stocked.key matcher = arrivalKey matcher names keys arrival) ∧
      ∀ (turn later first second : Nat) (key : RequestKey),
        (arrivals.map (arrivalKey matcher names keys))[turn]? = some key →
        (arrivals.map (arrivalKey matcher names keys))[later]? = some key →
        answers[turn]? = some (MatchResult.matched first) →
        answers[later]? = some (MatchResult.matched second) →
        (turn < later ↔ first < second) := by
  intro answers
  have hhand := (replayAll_hand hexact hdigest).1
  have hgiven : ∀ turn index : Nat, answers[turn]? = some (MatchResult.matched index) →
      (Queues.hand (places (stockKeys matcher fixture))
        (arrivals.map (arrivalKey matcher names keys)))[turn]? = some (some index) := by
    intro turn index hanswer
    rw [← hhand, List.getElem?_map]
    exact congrArg (Option.map servedIndex) hanswer
  refine ⟨?_, ?_, ?_⟩
  · exact shuffled_served hexact hdigest hshuffled
  · exact fun turn arrival hturn => shuffled_answer hexact hdigest hshuffled hturn
  · intro turn later first second key hturn hlater hfirst hsecond
    exact hand_in_order hturn hlater (hgiven turn first hfirst) (hgiven later second hsecond)

end

/-! ### Two paths, one of them twice -/

/-- The digest of an empty body. -/
def emptyDigest : String := "e3b0c44298fc1c149afbf4c8996fb92427ae41e4649b934ca495991b7852b855"

def emptyBodyCodec : BodyCodec Nat := { sampleCodec with sha256 := fun _ => emptyDigest }

def stockedAt (path : String) : StockedFlow emptyBodyCodec ∅ ∅ where
  flow := flowAt path
  body := []
  headers := rfl
  query := rfl
  json := rfl
  form := rfl
  describes := rfl

theorem digestsTell_empty {fixture : List (StockedFlow emptyBodyCodec ∅ ∅)} {path : String}
    (h : ∀ stocked ∈ fixture, stocked.body = []) :
    DigestsTell emptyBodyCodec fixture (arrivalAt path) :=
  fun stocked hmem _ => (h stocked hmem).symm

theorem twice_requested_queues :
    (replayAll (Matcher.strict 0) [stockedAt "/a", stockedAt "/b", stockedAt "/a"]
      [arrivalAt "/a", arrivalAt "/a", arrivalAt "/a"]).map servedIndex =
        Queues.hand (places (stockKeys (Matcher.strict 0)
          [stockedAt "/a", stockedAt "/b", stockedAt "/a"]))
          ([arrivalAt "/a", arrivalAt "/a", arrivalAt "/a"].map
            (arrivalKey (Matcher.strict 0) ∅ ∅)) :=
  (once_replays_queues rfl (by
    intro arrival harrival
    obtain rfl : arrival = arrivalAt "/a" := by simpa using harrival
    exact digestsTell_empty (by simp [stockedAt]))).1

theorem swapped_paths_complete :
    ((replayAll (Matcher.strict 0) [stockedAt "/a", stockedAt "/b"]
      [arrivalAt "/b", arrivalAt "/a"]).map servedIndex).Perm ((List.range 2).map some) :=
  (shuffled_replay_complete rfl (by
    intro arrival harrival
    obtain ⟨path, rfl⟩ : ∃ path, arrival = arrivalAt path := by
      rcases List.mem_pair.mp harrival with rfl | rfl
      · exact ⟨_, rfl⟩
      · exact ⟨_, rfl⟩
    exact digestsTell_empty (by simp [stockedAt])) (by exact List.Perm.swap _ _ _)).1

end EggReplay.Core.KeyedReplay
