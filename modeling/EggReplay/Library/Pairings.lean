import Mathlib.Data.List.Basic
import Mathlib.Data.List.Nodup

/-!
A log in which some entries ask under a key and some answer under one: each answer is paired
with an earlier entry that asked under its key and that no other answer has.
-/

namespace EggReplay.Library.Pairings

variable {α κ : Type}

/-- The key that the entry at an index has. -/
def keyAt (key : α → Option κ) (log : List α) (index : Nat) : Option κ :=
  log[index]?.bind key

theorem keyAt_append_of_lt {key : α → Option κ} {log : List α} {index : Nat} (entry : α)
    (h : index < log.length) : keyAt key (log ++ [entry]) index = keyAt key log index := by
  rw [keyAt, keyAt, List.getElem?_append_left h]

theorem keyAt_append_length (key : α → Option κ) (log : List α) (entry : α) :
    keyAt key (log ++ [entry]) log.length = key entry := by
  rw [keyAt, List.getElem?_concat_length, Option.bind_some]

theorem lt_of_keyAt {key : α → Option κ} {log : List α} {index : Nat} {value : κ}
    (h : keyAt key log index = some value) : index < log.length := by
  obtain ⟨entry, hentry, -⟩ := Option.bind_eq_some_iff.mp h
  exact (List.getElem?_eq_some_iff.mp hentry).1

/-- An entry of the longer log is one of the log, or the last one. -/
theorem keyAt_append_cases {key : α → Option κ} {log : List α} {entry : α} {index : Nat}
    {value : κ} (h : keyAt key (log ++ [entry]) index = some value) :
    keyAt key log index = some value ∨ index = log.length ∧ key entry = some value := by
  have hlt := lt_of_keyAt h
  rw [List.length_append, List.length_singleton] at hlt
  rcases Nat.lt_succ_iff_lt_or_eq.mp hlt with hinside | rfl
  · rw [keyAt_append_of_lt entry hinside] at h
    exact .inl h
  · rw [keyAt_append_length] at h
    exact .inr ⟨rfl, h⟩

/-- A one-to-one pairing of answers with earlier entries that asked under the same key. An
answer stays unpaired only where each such entry has been answered before it. -/
structure Pairing (asks answers : α → Option κ) (log : List α) (pairs : List (Nat × Nat)) :
    Prop where
  asked : (pairs.map Prod.fst).Nodup
  answered : (pairs.map Prod.snd).Nodup
  matched : ∀ pair ∈ pairs, pair.1 < pair.2 ∧
    ∃ key, keyAt asks log pair.1 = some key ∧ keyAt answers log pair.2 = some key
  complete : ∀ earlier later key, earlier < later → keyAt asks log earlier = some key →
    keyAt answers log later = some key →
    later ∈ pairs.map Prod.snd ∨ ∃ between, between < later ∧ (earlier, between) ∈ pairs

/-- The pairing so far, and the entries that still wait for their answers. -/
structure Paired (asks answers : α → Option κ) (log : List α) (pairs : List (Nat × Nat))
    (waiting : List (Nat × κ)) : Prop extends Pairing asks answers log pairs where
  distinct : (waiting.map Prod.fst).Nodup
  unanswered : ∀ entry ∈ waiting,
    keyAt asks log entry.1 = some entry.2 ∧ entry.1 ∉ pairs.map Prod.fst
  every : ∀ index key, keyAt asks log index = some key →
    (index, key) ∈ waiting ∨ index ∈ pairs.map Prod.fst

theorem paired_nil (asks answers : α → Option κ) : Paired asks answers [] [] [] where
  asked := List.nodup_nil
  answered := List.nodup_nil
  matched _ hpair := absurd hpair List.not_mem_nil
  complete _ _ _ _ hasked := by cases hasked
  distinct := List.nodup_nil
  unanswered _ hentry := absurd hentry List.not_mem_nil
  every _ _ hasked := by cases hasked

section

variable {asks answers : α → Option κ} {log : List α} {pairs : List (Nat × Nat)}
  {waiting : List (Nat × κ)} {entry : α} {key : κ}

/-- Both indices of a pair are in the log. -/
theorem Pairing.bounded (h : Pairing asks answers log pairs) {pair : Nat × Nat}
    (hpair : pair ∈ pairs) : pair.1 < log.length ∧ pair.2 < log.length := by
  obtain ⟨-, shared, hasked, hanswered⟩ := h.matched pair hpair
  exact ⟨lt_of_keyAt hasked, lt_of_keyAt hanswered⟩

theorem Pairing.length_notMem (h : Pairing asks answers log pairs) :
    log.length ∉ pairs.map Prod.snd := by
  intro hmem
  obtain ⟨pair, hpair, hlength⟩ := List.mem_map.mp hmem
  exact absurd (h.bounded hpair).2 (hlength ▸ Nat.lt_irrefl _)

theorem Pairing.matched_append (h : Pairing asks answers log pairs) (entry : α)
    {pair : Nat × Nat} (hpair : pair ∈ pairs) : pair.1 < pair.2 ∧
      ∃ key, keyAt asks (log ++ [entry]) pair.1 = some key ∧
        keyAt answers (log ++ [entry]) pair.2 = some key := by
  obtain ⟨hlt, shared, hasked, hanswered⟩ := h.matched pair hpair
  obtain ⟨hfirst, hsecond⟩ := h.bounded hpair
  refine ⟨hlt, shared, ?_, ?_⟩
  · rw [keyAt_append_of_lt entry hfirst]
    exact hasked
  · rw [keyAt_append_of_lt entry hsecond]
    exact hanswered

theorem Pairing.complete_append (h : Pairing asks answers log pairs) {earlier later : Nat}
    (hlt : earlier < later) (hlater : later < log.length)
    (hasked : keyAt asks (log ++ [entry]) earlier = some key)
    (hanswered : keyAt answers (log ++ [entry]) later = some key) :
    later ∈ pairs.map Prod.snd ∨ ∃ between, between < later ∧ (earlier, between) ∈ pairs := by
  rw [keyAt_append_of_lt entry (Nat.lt_trans hlt hlater)] at hasked
  rw [keyAt_append_of_lt entry hlater] at hanswered
  exact h.complete earlier later key hlt hasked hanswered

/-- An entry that is no answer pairs nothing. -/
theorem Pairing.append_of_no_answer (h : Pairing asks answers log pairs)
    (hentry : answers entry = none) : Pairing asks answers (log ++ [entry]) pairs where
  asked := h.asked
  answered := h.answered
  matched _ hpair := h.matched_append entry hpair
  complete earlier later key hlt hasked hanswered := by
    rcases keyAt_append_cases hanswered with hinside | ⟨-, hlast⟩
    · exact h.complete_append hlt (lt_of_keyAt hinside) hasked hanswered
    · rw [hentry] at hlast
      cases hlast

theorem Paired.unanswered_append (h : Paired asks answers log pairs waiting)
    {waiter : Nat × κ} (hwaiter : waiter ∈ waiting) :
    keyAt asks (log ++ [entry]) waiter.1 = some waiter.2 := by
  obtain ⟨hasked, -⟩ := h.unanswered waiter hwaiter
  rw [keyAt_append_of_lt entry (lt_of_keyAt hasked)]
  exact hasked

/-- An entry that neither asks nor answers. -/
theorem Paired.other (h : Paired asks answers log pairs waiting) (hasks : asks entry = none)
    (hanswers : answers entry = none) : Paired asks answers (log ++ [entry]) pairs waiting where
  toPairing := h.toPairing.append_of_no_answer hanswers
  distinct := h.distinct
  unanswered waiter hwaiter := ⟨h.unanswered_append hwaiter, (h.unanswered waiter hwaiter).2⟩
  every index key hasked := by
    rcases keyAt_append_cases hasked with hinside | ⟨-, hlast⟩
    · exact h.every index key hinside
    · rw [hasks] at hlast
      cases hlast

/-- An entry that asks waits from then on. -/
theorem Paired.ask (h : Paired asks answers log pairs waiting) (hasks : asks entry = some key)
    (hanswers : answers entry = none) :
    Paired asks answers (log ++ [entry]) pairs (waiting ++ [(log.length, key)]) where
  toPairing := h.toPairing.append_of_no_answer hanswers
  distinct := by
    rw [List.map_append, List.nodup_append']
    refine ⟨h.distinct, List.nodup_singleton _, ?_⟩
    intro index hmem hlast
    obtain ⟨waiter, hwaiter, rfl⟩ := List.mem_map.mp hmem
    rw [List.map_singleton, List.mem_singleton] at hlast
    exact absurd (lt_of_keyAt (h.unanswered waiter hwaiter).1) (hlast ▸ Nat.lt_irrefl _)
  unanswered waiter hwaiter := by
    rcases List.mem_append.mp hwaiter with hearlier | hlast
    · exact ⟨h.unanswered_append hearlier, (h.unanswered waiter hearlier).2⟩
    · rw [List.mem_singleton.mp hlast]
      refine ⟨(keyAt_append_length asks log entry).trans hasks, ?_⟩
      intro hmem
      obtain ⟨pair, hpair, hlength⟩ := List.mem_map.mp hmem
      exact absurd (h.bounded hpair).1 (hlength ▸ Nat.lt_irrefl _)
  every index other hasked := by
    rcases keyAt_append_cases hasked with hinside | ⟨rfl, hlast⟩
    · rcases h.every index other hinside with hwaits | hpaired
      · exact .inl (List.mem_append_left _ hwaits)
      · exact .inr hpaired
    · obtain rfl := Option.some.inj (hasks.symm.trans hlast)
      exact .inl (List.mem_append_right _ (List.mem_singleton.mpr rfl))

/-- An answer under a key that nothing waits for. -/
theorem Paired.unmatched (h : Paired asks answers log pairs waiting) (hasks : asks entry = none)
    (hanswers : answers entry = some key) (hnone : ∀ index, (index, key) ∉ waiting) :
    Paired asks answers (log ++ [entry]) pairs waiting where
  asked := h.asked
  answered := h.answered
  matched _ hpair := h.matched_append entry hpair
  complete earlier later other hlt hasked hanswered := by
    rcases keyAt_append_cases hanswered with hinside | ⟨rfl, hlast⟩
    · exact h.complete_append hlt (lt_of_keyAt hinside) hasked hanswered
    · obtain rfl := Option.some.inj (hanswers.symm.trans hlast)
      rw [keyAt_append_of_lt entry hlt] at hasked
      rcases h.every earlier key hasked with hwaits | hpaired
      · exact absurd hwaits (hnone earlier)
      · obtain ⟨pair, hpair, rfl⟩ := List.mem_map.mp hpaired
        exact .inr ⟨pair.2, (h.bounded hpair).2, hpair⟩
  distinct := h.distinct
  unanswered waiter hwaiter := ⟨h.unanswered_append hwaiter, (h.unanswered waiter hwaiter).2⟩
  every index other hasked := by
    rcases keyAt_append_cases hasked with hinside | ⟨-, hlast⟩
    · exact h.every index other hinside
    · rw [hasks] at hlast
      cases hlast

/-- An answer to an entry that waits for it. -/
theorem Paired.answer [BEq κ] [LawfulBEq κ] (h : Paired asks answers log pairs waiting)
    {index : Nat} (hasks : asks entry = none) (hanswers : answers entry = some key)
    (hwaits : (index, key) ∈ waiting) :
    Paired asks answers (log ++ [entry]) (pairs ++ [(index, log.length)])
      (waiting.erase (index, key)) where
  asked := by
    rw [List.map_append, List.nodup_append']
    refine ⟨h.asked, List.nodup_singleton _, ?_⟩
    intro other hmem hlast
    rw [List.map_singleton, List.mem_singleton] at hlast
    rw [hlast] at hmem
    exact (h.unanswered _ hwaits).2 hmem
  answered := by
    rw [List.map_append, List.nodup_append']
    refine ⟨h.answered, List.nodup_singleton _, ?_⟩
    intro other hmem hlast
    rw [List.map_singleton, List.mem_singleton] at hlast
    rw [hlast] at hmem
    exact h.length_notMem hmem
  matched pair hpair := by
    rcases List.mem_append.mp hpair with hearlier | hlast
    · exact h.matched_append entry hearlier
    · rw [List.mem_singleton.mp hlast]
      refine ⟨lt_of_keyAt (h.unanswered _ hwaits).1, key, h.unanswered_append hwaits, ?_⟩
      exact (keyAt_append_length answers log entry).trans hanswers
  complete earlier later other hlt hasked hanswered := by
    rw [List.map_append]
    rcases keyAt_append_cases hanswered with hinside | ⟨rfl, -⟩
    · rcases h.complete_append hlt (lt_of_keyAt hinside) hasked hanswered with
        hpaired | ⟨between, hbetween, hmem⟩
      · exact .inl (List.mem_append_left _ hpaired)
      · exact .inr ⟨between, hbetween, List.mem_append_left _ hmem⟩
    · exact .inl (List.mem_append_right _ (List.mem_singleton.mpr rfl))
  distinct := h.distinct.sublist ((List.erase_sublist).map Prod.fst)
  unanswered waiter hwaiter := by
    have hnodup : waiting.Nodup := h.distinct.of_map
    obtain ⟨hne, hmem⟩ := (hnodup.mem_erase_iff).mp hwaiter
    refine ⟨h.unanswered_append hmem, ?_⟩
    rw [List.map_append, List.map_singleton, List.mem_append, not_or, List.mem_singleton]
    refine ⟨(h.unanswered waiter hmem).2, ?_⟩
    intro hindex
    have hasked := (h.unanswered waiter hmem).1
    have hsame := (h.unanswered _ hwaits).1
    rw [hindex] at hasked
    exact hne (Prod.ext hindex (Option.some.inj (hasked.symm.trans hsame)))
  every other shared hasked := by
    have hnodup : waiting.Nodup := h.distinct.of_map
    rcases keyAt_append_cases hasked with hinside | ⟨-, hlast⟩
    · rw [List.map_append, List.mem_append]
      rcases h.every other shared hinside with hstill | hpaired
      · by_cases hsame : (other, shared) = (index, key)
        · rw [(Prod.mk.inj hsame).1]
          exact .inr (.inr (List.mem_singleton.mpr rfl))
        · exact .inl ((hnodup.mem_erase_iff).mpr ⟨hsame, hstill⟩)
      · exact .inr (.inl hpaired)
    · rw [hasks] at hlast
      cases hlast

end

end EggReplay.Library.Pairings
