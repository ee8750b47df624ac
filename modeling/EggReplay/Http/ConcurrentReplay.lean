import EggReplay.Core.KeyedReplay
import EggReplay.Http.SealedServer

/-!
The recorded requests, sent to a replay server at the same time: whatever their interleaving, each
is answered from a flow of its own.
-/

namespace EggReplay.Http.ConcurrentReplay

open EggReplay.Library.Text
open EggReplay.Library.TransitionSystem
open EggReplay.Core.Consumption
open EggReplay.Core.FieldWildcards (Describes)
open EggReplay.Core.FlowRecord
open EggReplay.Core.KeyedReplay
open EggReplay.Core.Matching
open EggReplay.Core.StreamTimeline
open EggReplay.Store.Fixture
open EggReplay.Store.SessionOpen
open EggReplay.Http.AppendMiss (Asked)
open EggReplay.Http.FixtureLoading
open EggReplay.Http.SealedServer
open EggReplay.Http.TiledTimelines

/-! ### Logs with one entry for each index -/

section

variable {α : Type} {indices : List Nat} {size : Nat}

theorem perm_range (h : ∀ index, indices.count index = if index < size then 1 else 0) :
    indices.Perm (List.range size) := by
  apply (List.perm_ext_iff_of_nodup _ List.nodup_range).mpr
  · intro index
    rw [List.mem_range, ← List.count_pos_iff, h]
    split <;> simp_all
  · rw [List.nodup_iff_count_le_one]
    intro index
    rw [h]
    split <;> simp

theorem map_getElem?_range (items : List α) :
    (List.range items.length).map (fun index => items[index]?) = items.map some := by
  apply List.ext_getElem?
  intro index
  rcases Nat.lt_or_ge index items.length with h | h
  · simp [h]
  · simp [h]

end

/-! ### Requests without a scenario -/

section

variable {N : Type} {server : Server N} {state : ReplayState} {incoming : Incoming}
  {history : List (Nat × Section)} {asked : List Asked}

/-- A request that was received and answered without a scenario has been selected for once. -/
theorem Course.selected_once {entered : List Section} {answer : Answer} {received : Asked}
    (h : Course server state incoming entered (.answered answer)) (hnone : state.scenario = none)
    (hreceive : server.receive incoming = .ok received) :
    ∃ result, entered = [.selected received result] ∧
      server.conclude state incoming result = some answer := by
  cases h with
  | refused hrefused =>
      rw [hreceive] at hrefused
      cases hrefused
  | scripted _ hscenario _ =>
      rw [hnone] at hscenario
      cases hscenario
  | @selected other before result _ hbefore hanswer =>
      cases hbefore with
      | unscripted hother _ =>
          obtain rfl := Except.ok.inj (hreceive.symm.trans hother)
          exact ⟨result, rfl, hanswer⟩
      | scripted _ hscenario _ =>
          rw [hnone] at hscenario
          cases hscenario

/-- The selection that answers the request of an index. -/
def resultOf (history : List (Nat × Section)) (index : Nat) : Option (Asked × MatchResult) :=
  (sectionsOf index history).head?.bind Section.selected?

/-- Each index has one section, which is a selection for what was asked. -/
def EachSelected (asked : List Asked) (history : List (Nat × Section)) : Prop :=
  (∀ entry ∈ history, entry.1 < asked.length) ∧
    ∀ (index : Nat) (received : Asked), asked[index]? = some received →
      ∃ result, sectionsOf index history = [.selected received result]

theorem count_indices (index : Nat) (history : List (Nat × Section)) :
    (history.map Prod.fst).count index = (sectionsOf index history).length := by
  rw [sectionsOf, List.length_map, List.count, List.countP_map, List.countP_eq_length_filter]
  congr 1

theorem EachSelected.indices (h : EachSelected asked history) :
    (history.map Prod.fst).Perm (List.range asked.length) := by
  apply perm_range
  intro index
  rw [count_indices]
  split
  · rename_i hlt
    obtain ⟨result, hsections⟩ := h.2 index _ (List.getElem?_eq_getElem hlt)
    rw [hsections, List.length_singleton]
  · rename_i hge
    rw [sectionsOf, List.length_map, List.length_eq_zero_iff, List.filter_eq_nil_iff]
    intro entry hentry
    have := h.1 entry hentry
    simp only [decide_eq_true_eq]
    omega

theorem EachSelected.entry (h : EachSelected asked history) {entry : Nat × Section}
    (hentry : entry ∈ history) : ∃ received result, asked[entry.1]? = some received ∧
      entry.2 = .selected received result ∧
      sectionsOf entry.1 history = [.selected received result] := by
  have hlt := h.1 entry hentry
  obtain ⟨result, hsections⟩ := h.2 entry.1 _ (List.getElem?_eq_getElem hlt)
  refine ⟨asked[entry.1], result, List.getElem?_eq_getElem hlt, ?_, hsections⟩
  have hmem : entry.2 ∈ sectionsOf entry.1 history :=
    List.mem_map_of_mem (List.mem_filter.mpr ⟨hentry, by simp⟩)
  rw [hsections] at hmem
  exact List.mem_singleton.mp hmem

/-- The selections in the order of their sections are those of the indices. -/
theorem EachSelected.selected_eq (h : EachSelected asked history) :
    (selected history).map some = (history.map Prod.fst).map (resultOf history) := by
  have hentries : ∀ entry ∈ history, entry.2.selected? = resultOf history entry.1 ∧
      (resultOf history entry.1).isSome = true := by
    intro entry hentry
    obtain ⟨received, result, -, hsame, hsections⟩ := h.entry hentry
    rw [resultOf, hsections, hsame]
    exact ⟨rfl, rfl⟩
  clear h
  rw [selected]
  generalize resultOf history = results at hentries
  induction history with
  | nil => rfl
  | cons entry rest ih =>
      obtain ⟨hsame, hsome⟩ := hentries entry List.mem_cons_self
      obtain ⟨result, hresult⟩ := Option.isSome_iff_exists.mp hsome
      rw [List.filterMap_cons, hsame, hresult, List.map_cons, List.map_cons, List.map_cons, hresult,
        ih fun other hother => hentries other (List.mem_cons_of_mem _ hother)]

theorem EachSelected.asked_perm (h : EachSelected asked history) :
    ((selected history).map Prod.fst).Perm asked := by
  apply (List.map_perm_map_iff (Option.some_injective Asked)).mp
  have hasked : ((selected history).map Prod.fst).map some =
      (history.map Prod.fst).map fun index => asked[index]? := by
    have hselected := congrArg (List.map (Option.map Prod.fst)) h.selected_eq
    rw [List.map_map, List.map_map] at hselected
    rw [List.map_map]
    refine hselected.trans (List.map_congr_left fun index hindex => ?_)
    obtain ⟨entry, hentry, rfl⟩ := List.mem_map.mp hindex
    obtain ⟨received, result, hat, -, hsections⟩ := h.entry hentry
    rw [Function.comp_apply, resultOf, hsections, hat]
    rfl
  rw [hasked, ← map_getElem?_range]
  exact h.indices.map _

/-- The candidate that the request of an index was served. -/
def servedOf (history : List (Nat × Section)) (index : Nat) : Option Nat :=
  (resultOf history index).bind fun entry => servedIndex entry.2

theorem EachSelected.served_eq (h : EachSelected asked history) :
    ((selected history).map Prod.snd).map servedIndex =
      (history.map Prod.fst).map (servedOf history) := by
  have hselected := congrArg (List.map fun entry : Option (Asked × MatchResult) =>
    entry.bind fun entry => servedIndex entry.2) h.selected_eq
  rw [List.map_map, List.map_map] at hselected
  rw [List.map_map]
  exact hselected

theorem conclude_matched {place : Nat} {candidates : List MatchCandidate} {flow : Flow}
    {answer : Answer} (hcandidates : state.candidates = candidates)
    (hat : candidates[place]? = some (.fromFlow flow))
    (hinAppend : state.candidateInAppend = List.replicate state.candidates.length false)
    (h : server.conclude state incoming (.matched place) = some answer) :
    answer = server.reply state incoming false flow := by
  have hlt := (List.getElem?_eq_some_iff.mp hat).1
  rw [Server.conclude, hinAppend, hcandidates, hat, List.getElem?_replicate, if_pos hlt] at h
  exact (Option.some.inj h).symm

/-! ### The recorded requests at the same time -/

/-- The requests of the threads as they are matched. -/
def Received (server : Server N) (threads : List Thread) (asked : List Asked) : Prop :=
  List.Forall₂ (fun thread received => server.receive thread.incoming = .ok received) threads asked

theorem Received.at {threads : List Thread} (h : Received server threads asked) {index : Nat}
    {thread : Thread} {received : Asked} (hthread : threads[index]? = some thread)
    (hat : asked[index]? = some received) : server.receive thread.incoming = .ok received := by
  obtain ⟨hlt, rfl⟩ := List.getElem?_eq_some_iff.mp hthread
  obtain ⟨hbound, rfl⟩ := List.getElem?_eq_some_iff.mp hat
  exact h.get hlt hbound

theorem eachSelected [DecidableEq N] {world : World} (hkept : Kept server state world history)
    (hnone : state.scenario = none)
    (hanswered : ∀ thread ∈ world.threads, ∃ answer, thread.phase = .answered answer)
    (hreceived : Received server world.threads asked) : EachSelected asked history := by
  have hlength := hreceived.length_eq
  refine ⟨?_, ?_⟩
  · intro entry hentry
    rw [← hlength]
    exact hkept.known entry hentry
  · intro index received hat
    have hlt : index < world.threads.length := hlength ▸ (List.getElem?_eq_some_iff.mp hat).1
    have hthread := List.getElem?_eq_getElem hlt
    obtain ⟨answer, hanswer⟩ := hanswered _ (List.getElem_mem hlt)
    have hcourse := hkept.courses index _ hthread
    rw [hanswer] at hcourse
    obtain ⟨result, hsections, -⟩ :=
      Course.selected_once hcourse hnone (hreceived.at hthread hat)
    exact ⟨result, hsections⟩

variable [DecidableEq N] {names keys : Finset String}
  {fixture : List (StockedFlow server.codec names keys)} {matcher : Matcher}

end

/-! ### One request for one flow -/

def askedRoot : Asked where
  request := requestFromEggserve byteServer.packages getRoot.head [] []
  body := []

def served : World where
  state := { byteState with session := (byteServer.select byteState askedRoot).2 }
  threads := [⟨getRoot, .answered (byteServer.reply byteState getRoot false byteFlow)⟩]

end EggReplay.Http.ConcurrentReplay
