import EggReplay.Intercept.Leaves
import EggReplay.Library.TransitionSystem

/-!
The leaf cache over whole runs. As long as no call finds its own leaf expired, the queue and
the map agree, what is returned is valid and the oldest leaf is evicted; a call that replaces
an expired leaf queues its key twice.
-/

namespace EggReplay.Intercept.LeafCacheRuns

open EggReplay.Intercept.Hosts
open EggReplay.Intercept.Leaves
open EggReplay.Library.FifoCaches
open EggReplay.Library.TransitionSystem

inductive LeafCall where
  | issue (minting : Minting) (target : NormalizedHost) (clock : Int)
  | removeExpired (clock : Int)

def LeafCall.clock : LeafCall → Int
  | .issue _ _ clock => clock
  | .removeExpired clock => clock

/-- An issuer with the keys of all leaves that it minted, the newest first. -/
structure LeafHistory where
  issuer : LeafIssuer
  minted : List String

def LeafHistory.start (issuer : LeafIssuer) : LeafHistory where
  issuer := issuer
  minted := []

def LeafHistory.after (history : LeafHistory) : LeafCall → LeafHistory
  | .issue minting target clock =>
      let issuer := (history.issuer.issue minting target clock).2
      { issuer
        minted :=
          if issuer.issuanceCount = history.issuer.issuanceCount then history.minted
          else history.issuer.keyOf target :: history.minted }
  | .removeExpired clock =>
      { history with issuer := (history.issuer.removeExpired clock).2 }

def LeafHistory.step (history : LeafHistory) (call : LeafCall) : Option LeafHistory :=
  some (history.after call)

/-! ### What is asked of each call -/

structure CacheSound (cache : FifoCache String LeafCertificate) : Prop where
  queued : cache.Queued
  bounded : cache.size ≤ maxLeafCacheEntries

/-- The leaf is not expired now, and its validity was a proper one when it was minted. -/
structure LeafSound (issuer : LeafIssuer) (clock : Int) (leaf : LeafCertificate) : Prop where
  unexpired : clock < leaf.notAfter
  windowed : Windowed issuer.ca issuer.validityHours leaf.notBefore leaf.notAfter

/-- Whatever else an issue removes from the map was minted before all that was in it. -/
def EvictsEarliest (history : LeafHistory) (key : String)
    (after : FifoCache String LeafCertificate) : Prop :=
  ∀ gone ∈ history.issuer.cache.entries, gone ∉ after.entries → gone ≠ key →
    ∀ other ∈ history.issuer.cache.entries,
      history.minted.idxOf other ≤ history.minted.idxOf gone

def Served (history : LeafHistory) : LeafCall → Prop
  | .issue minting target clock =>
      let outcome := history.issuer.issue minting target clock
      CacheSound outcome.2.cache ∧
        (∀ leaf, outcome.1 = .ok leaf → LeafSound history.issuer clock leaf) ∧
        EvictsEarliest history (history.issuer.keyOf target) outcome.2.cache
  | .removeExpired clock => CacheSound (history.issuer.removeExpired clock).2.cache

/-- The leaf that an issue would find under its key has not expired. -/
def Unexpired (history : LeafHistory) : LeafCall → Prop
  | .issue _ target clock =>
      ∀ notAfter hit,
        history.issuer.window target (truncateToSeconds clock) = .ok notAfter →
        history.issuer.cache.entries.lookup (history.issuer.keyOf target) = some hit →
        clock < hit.notAfter
  | .removeExpired _ => True

/-! ### What a call can do -/

section Parts

variable {issuer : LeafIssuer} {minting : Minting} {target : NormalizedHost}
  {clock now notAfter : Int} {leaf hit : LeafCertificate} {e : LeafError}
  {entries : AList fun _ : String => LeafCertificate}

theorem issue_of_error (h : issuer.window target (truncateToSeconds clock) = .error e) :
    issuer.issue minting target clock = (.error e, issuer) := by
  simp only [LeafIssuer.issue, h]

theorem issue_of_ok (h : issuer.window target (truncateToSeconds clock) = .ok notAfter) :
    issuer.issue minting target clock =
      issuer.issueLocked minting target (truncateToSeconds clock) notAfter := by
  simp only [LeafIssuer.issue, h]

theorem issueLocked_of_hit (h : issuer.cache.entries.lookup (issuer.keyOf target) = some hit)
    (hnow : now < hit.notAfter) :
    issuer.issueLocked minting target now notAfter = (.ok hit, issuer) := by
  simp only [LeafIssuer.issueLocked, h, if_pos hnow]

theorem issueLocked_of_expired (h : issuer.cache.entries.lookup (issuer.keyOf target) = some hit)
    (hnow : ¬now < hit.notAfter) :
    issuer.issueLocked minting target now notAfter =
      issuer.mintInto minting target now notAfter
        (issuer.cache.entries.erase (issuer.keyOf target)) := by
  simp only [LeafIssuer.issueLocked, h, if_neg hnow]

theorem issueLocked_of_miss (h : issuer.cache.entries.lookup (issuer.keyOf target) = none) :
    issuer.issueLocked minting target now notAfter =
      issuer.mintInto minting target now notAfter issuer.cache.entries := by
  simp only [LeafIssuer.issueLocked, h]

theorem mintInto_of_error (h : mint minting target now notAfter = .error e) :
    issuer.mintInto minting target now notAfter entries =
      (.error e, { issuer with cache := { issuer.cache with entries } }) := by
  simp only [LeafIssuer.mintInto, h]

theorem mintInto_of_ok (h : mint minting target now notAfter = .ok leaf) :
    issuer.mintInto minting target now notAfter entries =
      (.ok leaf,
        { issuer with
          cache := (evict maxLeafCacheEntries entries issuer.cache.order).push
            (issuer.keyOf target) leaf
          issuanceCount := (issuer.issuanceCount + 1) % 2 ^ 64 }) := by
  simp only [LeafIssuer.mintInto, h]

end Parts

/-- The outcomes of an issue that finds no expired leaf. -/
inductive Issued (issuer : LeafIssuer) (target : NormalizedHost) (clock : Int) :
    Except LeafError LeafCertificate → LeafIssuer → Prop
  | refused (e : LeafError) : Issued issuer target clock (.error e) issuer
  | hit {leaf : LeafCertificate}
      (hlookup : issuer.cache.entries.lookup (issuer.keyOf target) = some leaf)
      (hunexpired : clock < leaf.notAfter) :
      Issued issuer target clock (.ok leaf) issuer
  | minted {leaf : LeafCertificate} (hmiss : issuer.keyOf target ∉ issuer.cache.entries)
      (hsound : LeafSound issuer clock leaf) :
      Issued issuer target clock (.ok leaf)
        { issuer with
          cache := (evict maxLeafCacheEntries issuer.cache.entries issuer.cache.order).push
            (issuer.keyOf target) leaf
          issuanceCount := (issuer.issuanceCount + 1) % 2 ^ 64 }

/-- A leaf is minted from the current second on, and lasts an hour at least. -/
theorem leafSound_of_mint {issuer : LeafIssuer} {minting : Minting} {target : NormalizedHost}
    {clock notAfter : Int} {leaf : LeafCertificate}
    (hwindow : issuer.window target (truncateToSeconds clock) = .ok notAfter)
    (hmint : mint minting target (truncateToSeconds clock) notAfter = .ok leaf) :
    LeafSound issuer clock leaf := by
  obtain ⟨hbefore, hafter⟩ := mint_ok hmint
  have hwindowed := LeafIssuer.window_ok hwindow
  refine ⟨?_, ?_⟩
  · have hlong := hwindowed.lt
    have hnow := lt_truncateToSeconds clock
    omega
  · rw [hbefore, hafter]
    exact hwindowed

theorem issued {history : LeafHistory} {minting : Minting} {target : NormalizedHost} {clock : Int}
    (h : Unexpired history (.issue minting target clock)) :
    Issued history.issuer target clock (history.issuer.issue minting target clock).1
      (history.issuer.issue minting target clock).2 := by
  cases hwindow : history.issuer.window target (truncateToSeconds clock) with
  | error e =>
      rw [issue_of_error hwindow]
      exact .refused e
  | ok notAfter =>
      rw [issue_of_ok hwindow]
      cases hlookup : history.issuer.cache.entries.lookup (history.issuer.keyOf target) with
      | some hit =>
          have hfresh := h notAfter hit hwindow hlookup
          rw [issueLocked_of_hit hlookup (lt_of_le_of_lt (truncateToSeconds_le clock) hfresh)]
          exact .hit hlookup hfresh
      | none =>
          rw [issueLocked_of_miss hlookup]
          cases hmint : mint minting target (truncateToSeconds clock) notAfter with
          | error e =>
              rw [mintInto_of_error hmint]
              exact .refused e
          | ok leaf =>
              rw [mintInto_of_ok hmint]
              exact .minted (AList.lookup_eq_none.mp hlookup) (leafSound_of_mint hwindow hmint)

theorem count_succ_ne (count : Nat) : (count + 1) % 2 ^ 64 ≠ count := by
  omega

/-! ### The invariant -/

structure Kept (history : LeafHistory) : Prop where
  sound : CacheSound history.issuer.cache
  windowed : ∀ key leaf, history.issuer.cache.entries.lookup key = some leaf →
    Windowed history.issuer.ca history.issuer.validityHours leaf.notBefore leaf.notAfter
  ordered : OldestFirst history.minted history.issuer.cache.order

theorem kept_start {ca : CaAuthority} {options : LeafOptions} {issuer : LeafIssuer}
    (h : LeafIssuer.new ca options = .ok issuer) : Kept (LeafHistory.start issuer) := by
  simp only [LeafIssuer.new, Library.Checks.bind_unit_eq_ok, Library.Checks.pure_eq_ok] at h
  obtain ⟨-, rfl⟩ := h
  refine ⟨⟨queued_empty, Nat.zero_le _⟩, ?_, List.Pairwise.nil⟩
  intro key leaf hlookup
  cases hlookup

theorem kept_evicted {history : LeafHistory} (h : Kept history) :
    Evicted maxLeafCacheEntries history.issuer.cache
      (evict maxLeafCacheEntries history.issuer.cache.entries history.issuer.cache.order) :=
  h.sound.queued.evict (by decide) h.sound.bounded

theorem Evicted.miss {capacity : Nat} {cache kept : FifoCache String LeafCertificate} {key : String}
    (h : Evicted capacity cache kept) (hmiss : key ∉ cache.entries) : key ∉ kept.entries := by
  intro hkey
  obtain ⟨value, hvalue⟩ := Option.isSome_iff_exists.mp (AList.lookup_isSome.mpr hkey)
  have hlookup := h.lookup_of key value hvalue
  rw [AList.lookup_eq_none.mpr hmiss] at hlookup
  cases hlookup

theorem cacheSound_push {history : LeafHistory} {key : String} {leaf : LeafCertificate}
    (h : Kept history) (hmiss : key ∉ history.issuer.cache.entries) :
    CacheSound ((evict maxLeafCacheEntries history.issuer.cache.entries
      history.issuer.cache.order).push key leaf) := by
  have hevicted := kept_evicted h
  have hgone := Evicted.miss hevicted hmiss
  refine ⟨hevicted.queued.push hgone, ?_⟩
  rw [FifoCache.size_push hgone]
  exact hevicted.size_lt

theorem cacheSound_issued {history : LeafHistory} {target : NormalizedHost} {clock : Int}
    {result : Except LeafError LeafCertificate} {after : LeafIssuer} (h : Kept history)
    (hissued : Issued history.issuer target clock result after) : CacheSound after.cache := by
  cases hissued with
  | refused e => exact h.sound
  | hit hlookup hunexpired => exact h.sound
  | minted hmiss hsound => exact cacheSound_push h hmiss

theorem cacheSound_removeExpired {history : LeafHistory} (h : Kept history) (clock : Int) :
    CacheSound (history.issuer.removeExpired clock).2.cache := by
  refine ⟨h.sound.queued.eraseAll _, ?_⟩
  exact le_trans (length_eraseKeys_le _ _) h.sound.bounded

theorem evictsEarliest_issued {history : LeafHistory} {target : NormalizedHost} {clock : Int}
    {result : Except LeafError LeafCertificate} {after : LeafIssuer} (h : Kept history)
    (hissued : Issued history.issuer target clock result after) :
    EvictsEarliest history (history.issuer.keyOf target) after.cache := by
  intro gone hgone hleft hne other hother
  cases hissued with
  | refused e => exact absurd hgone hleft
  | hit hlookup hunexpired => exact absurd hgone hleft
  | minted hmiss hsound =>
      have hevicted : gone ∉ (evict maxLeafCacheEntries history.issuer.cache.entries
          history.issuer.cache.order).entries := by
        intro hkept
        exact hleft ((AList.mem_insert _).mpr (.inr hkept))
      have hhead := (kept_evicted h).oldest gone hgone hevicted
      obtain ⟨rest, horder⟩ := List.head?_eq_some_iff.mp hhead
      have hordered := h.ordered
      rw [horder] at hordered
      apply hordered.head
      rw [← horder, h.sound.queued.mem_iff]
      exact hother

theorem leafSound_issued {history : LeafHistory} {target : NormalizedHost} {clock : Int}
    {result : Except LeafError LeafCertificate} {after : LeafIssuer} {leaf : LeafCertificate}
    (h : Kept history) (hissued : Issued history.issuer target clock result after)
    (hleaf : result = .ok leaf) : LeafSound history.issuer clock leaf := by
  cases hissued with
  | refused e => cases hleaf
  | hit hlookup hfresh =>
      rw [Except.ok.injEq] at hleaf
      subst hleaf
      exact ⟨hfresh, h.windowed _ _ hlookup⟩
  | minted hmiss hsound =>
      rw [Except.ok.injEq] at hleaf
      exact hleaf ▸ hsound

/-- A call that finds no expired leaf is served as it should be. -/
theorem served_of_unexpired {history : LeafHistory} {call : LeafCall} (h : Kept history)
    (hunexpired : Unexpired history call) : Served history call := by
  cases call with
  | removeExpired clock => exact cacheSound_removeExpired h clock
  | issue minting target clock =>
      have hissued := issued hunexpired
      refine ⟨cacheSound_issued h hissued, ?_, evictsEarliest_issued h hissued⟩
      intro leaf hleaf
      exact leafSound_issued h hissued hleaf

theorem kept_issued {history : LeafHistory} {target : NormalizedHost} {clock : Int}
    {result : Except LeafError LeafCertificate} {after : LeafIssuer} (h : Kept history)
    (hissued : Issued history.issuer target clock result after) :
    Kept
      { issuer := after
        minted :=
          if after.issuanceCount = history.issuer.issuanceCount then history.minted
          else history.issuer.keyOf target :: history.minted } := by
  have hsound := cacheSound_issued h hissued
  cases hissued with
  | refused e =>
      rw [if_pos rfl]
      exact h
  | hit hlookup hfresh =>
      rw [if_pos rfl]
      exact h
  | minted hmiss hleaf =>
      rw [if_neg (count_succ_ne _)]
      have hevicted := kept_evicted h
      have hgone := Evicted.miss hevicted hmiss
      refine ⟨hsound, ?_, ?_⟩
      · intro key leaf hlookup
        by_cases hkey : key = history.issuer.keyOf target
        · subst hkey
          rw [FifoCache.push, AList.lookup_insert, Option.some.injEq] at hlookup
          exact hlookup ▸ hleaf.windowed
        · rw [FifoCache.push, AList.lookup_insert_ne hkey] at hlookup
          exact h.windowed key leaf (hevicted.lookup_of key leaf hlookup)
      · apply OldestFirst.push (h.ordered.sublist hevicted.sublist)
        rw [hevicted.queued.mem_iff]
        exact hgone

theorem kept_removeExpired {history : LeafHistory} (h : Kept history) (clock : Int) :
    Kept (history.after (.removeExpired clock)) := by
  refine ⟨cacheSound_removeExpired h clock, ?_, h.ordered.sublist List.filter_sublist⟩
  intro key leaf hlookup
  have hkept : (eraseKeys history.issuer.cache.entries
      (history.issuer.expiredKeys clock)).lookup key = some leaf := hlookup
  rw [lookup_eraseKeys, Option.ite_none_left_eq_some] at hkept
  exact h.windowed key leaf hkept.2

theorem kept_step {history next : LeafHistory} {call : LeafCall} (h : Kept history)
    (hunexpired : Unexpired history call) (hstep : history.step call = some next) : Kept next := by
  rw [← Option.some.inj hstep]
  cases call with
  | removeExpired clock => exact kept_removeExpired h clock
  | issue minting target clock => exact kept_issued h (issued hunexpired)

/-! ### An expired hit -/

/-- The key of a replaced leaf is still queued, and is queued again or has no entry. -/
theorem not_sound_of_expired {history : LeafHistory} {minting : Minting} {target : NormalizedHost}
    {now notAfter : Int} {hit : LeafCertificate} (h : Kept history)
    (hlookup : history.issuer.cache.entries.lookup (history.issuer.keyOf target) = some hit)
    (hexpired : ¬now < hit.notAfter) :
    ¬CacheSound (history.issuer.issueLocked minting target now notAfter).2.cache := by
  rw [issueLocked_of_expired hlookup hexpired]
  have hmem : history.issuer.keyOf target ∈ history.issuer.cache.entries :=
    AList.lookup_isSome.mp (Option.isSome_of_eq_some hlookup)
  have hqueued := (h.sound.queued.mem_iff _).mpr hmem
  intro hsound
  cases hmint : mint minting target now notAfter with
  | error e =>
      rw [mintInto_of_error hmint] at hsound
      have hkept := (hsound.queued.mem_iff _).mp hqueued
      exact (AList.mem_erase.mp hkept).1 rfl
  | ok leaf =>
      rw [mintInto_of_ok hmint] at hsound
      have hroom : (history.issuer.cache.entries.erase
          (history.issuer.keyOf target)).keys.length < maxLeafCacheEntries := by
        have hbounded := h.sound.bounded
        have hpos := length_keys_pos hmem
        rw [length_keys_erase hmem]
        unfold FifoCache.size at hbounded
        omega
      have hnodup := hsound.queued.nodup
      rw [evict_of_lt hroom, FifoCache.push, List.nodup_append] at hnodup
      exact hnodup.2.2 _ hqueued _ (List.mem_singleton_self _) rfl

theorem unexpired_of_served {history : LeafHistory} {call : LeafCall} (h : Kept history)
    (hserved : Served history call) : Unexpired history call := by
  cases call with
  | removeExpired clock => trivial
  | issue minting target clock =>
      intro notAfter hit hwindow hlookup
      rw [Served] at hserved
      obtain ⟨hsound, hleaf, -⟩ := hserved
      by_cases hnow : truncateToSeconds clock < hit.notAfter
      · apply (hleaf hit ?_).unexpired
        rw [issue_of_ok hwindow, issueLocked_of_hit hlookup hnow]
      · rw [issue_of_ok hwindow] at hsound
        exact absurd hsound (not_sound_of_expired h hlookup hnow)

/-- Every call of a run is served as it should be exactly if none finds its own leaf
expired. -/
theorem served_throughout_iff {ca : CaAuthority} {options : LeafOptions} {issuer : LeafIssuer}
    (hnew : LeafIssuer.new ca options = .ok issuer) (calls : List LeafCall) :
    Throughout LeafHistory.step Served (LeafHistory.start issuer) calls ↔
      Throughout LeafHistory.step Unexpired (LeafHistory.start issuer) calls := by
  refine throughout_iff ?_ ?_ (kept_start hnew)
  · intro history call hkept
    exact ⟨unexpired_of_served hkept, served_of_unexpired hkept⟩
  · intro history call next hkept hunexpired hstep
    exact kept_step hkept hunexpired hstep

def shortCa : CaAuthority where
  fingerprint := "e5b7"
  notBefore := 0
  notAfter := hours 48

def shortIssuer : LeafIssuer where
  ca := shortCa
  validityHours := 1
  cache := FifoCache.empty
  issuanceCount := 0

/-- A signer that answers with a certificate of one byte. -/
def byteMinting : Minting where
  keyGenerated := true
  serial := 1
  signedBy := fun _ => some ([0x61], "pem")
  sha256 := fun _ =>
    [0xca, 0x97, 0x81, 0x12, 0xca, 0x1b, 0xbd, 0xca, 0xfa, 0xc2, 0x31, 0xb3, 0x9a, 0x23, 0xdc, 0x4d,
      0xa7, 0x86, 0xef, 0xf8, 0x14, 0x7c, 0x4e, 0x72, 0xb9, 0x80, 0x77, 0x85, 0xaf, 0xee, 0x48, 0xbb]

/-- Two issues of one host; the second finds the first leaf expired. -/
def staleCalls : List LeafCall :=
  [.issue byteMinting (.dns "stale.test") 0, .issue byteMinting (.dns "stale.test") (hours 1)]

/-- The same, with the expired leaf dropped in between. -/
def cleanedCalls : List LeafCall :=
  [.issue byteMinting (.dns "stale.test") 0, .removeExpired (hours 1),
    .issue byteMinting (.dns "stale.test") (hours 1)]

theorem served_cleanedCalls :
    Throughout LeafHistory.step Served (LeafHistory.start shortIssuer) cleanedCalls := by
  apply (served_throughout_iff (show LeafIssuer.new shortCa { validityHours := 1 } = .ok shortIssuer
    from rfl) cleanedCalls).mpr
  refine ⟨?_, trivial, ?_, trivial⟩
  · intro notAfter hit hwindow hlookup
    cases hlookup
  · intro notAfter hit hwindow hlookup
    cases hlookup

theorem stale_leaf_queued_twice :
    LeafIssuer.new shortCa { validityHours := 1 } = .ok shortIssuer ∧
      staleCalls.map LeafCall.clock = [0, hours 1] ∧
      ((run LeafHistory.step (LeafHistory.start shortIssuer) staleCalls).map
        fun history => history.issuer.cache.order) = some ["e5b7/stale.test", "e5b7/stale.test"] ∧
      ¬Throughout LeafHistory.step Served (LeafHistory.start shortIssuer) staleCalls := by
  refine ⟨rfl, rfl, by decide, ?_⟩
  rintro ⟨-, hserved, -⟩
  have hnodup := hserved.1.queued.nodup
  revert hnodup
  decide

end EggReplay.Intercept.LeafCacheRuns
