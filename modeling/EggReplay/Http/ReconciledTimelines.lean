import EggReplay.Http.TiledTimelines

/-!
What is left of a validated response timeline once it is reconciled with the length of the
stored body.
-/

namespace EggReplay.Http.ReconciledTimelines

open EggReplay.Library.Checks
open EggReplay.Library.Intervals
open EggReplay.Core.FlowRecord
open EggReplay.Core.StreamTimeline
open EggReplay.Http.Transaction
open EggReplay.Http.RecordedTimelines
open EggReplay.Http.TiledTimelines

/-- A timeline `after` in place of `events`, for a body of `stored` bytes. -/
structure Reconciles (events after : List StreamEvent) (stored : Nat) : Prop where
  valid : validateDirection after = .ok ()
  total : totalLength (dataIntervals after) = stored
  errors : ∀ event ∈ after, ∀ offset category phase,
    event.event = .error offset category phase → offset = stored
  others : after.filter (fun event => !isData event) =
    (events.filter fun event => !isData event).map (errorAt stored)

variable {events : List StreamEvent}

/-! ### Events other than DATA -/

theorem isData_errorAt (stored : Nat) (event : StreamEvent) :
    isData (errorAt stored event) = isData event := by
  rcases event with ⟨delta, ⟨offset, length⟩ | fields | _ | ⟨offset, category, phase⟩⟩
  · rfl
  · rfl
  · rfl
  · rfl

theorem isTrailers_errorAt (stored : Nat) (event : StreamEvent) :
    isTrailers (errorAt stored event) = isTrailers event := by
  rcases event with ⟨delta, ⟨offset, length⟩ | fields | _ | ⟨offset, category, phase⟩⟩
  · rfl
  · rfl
  · rfl
  · rfl

theorem within_errorAt {seen : Bool} {event : StreamEvent} (stored : Nat)
    (h : Within seen event) : Within seen (errorAt stored event) := by
  rcases event with ⟨delta, ⟨offset, length⟩ | fields | _ | ⟨offset, category, phase⟩⟩
  · exact h
  · exact h
  · exact h
  · exact h

theorem bounded_withoutData {seen : Bool} (stored : Nat) (h : Bounded seen events) :
    Bounded seen ((events.filter fun event => !isData event).map (errorAt stored)) := by
  induction events generalizing seen with
  | nil => exact True.intro
  | cons event rest ih =>
      obtain ⟨hwithin, hrest⟩ := h
      cases hdata : isData event with
      | true =>
          have htrailers : isTrailers event = false := by
            rcases event with ⟨delta, ⟨offset, length⟩ | fields | _ | ⟨offset, category, phase⟩⟩
            · rfl
            · cases hdata
            · rfl
            · rfl
          rw [htrailers, Bool.or_false] at hrest
          rw [List.filter_cons_of_neg (by simp [hdata])]
          exact ih hrest
      | false =>
          rw [List.filter_cons_of_pos (by simp [hdata]), List.map_cons, Bounded,
            isTrailers_errorAt]
          exact ⟨within_errorAt stored hwithin, ih hrest⟩

theorem filter_others (stored : Nat) (events : List StreamEvent) :
    ((events.filter fun event => !isData event).map (errorAt stored)).filter
        (fun event => !isData event) =
      (events.filter fun event => !isData event).map (errorAt stored) := by
  rw [List.filter_map, List.filter_filter]
  congr 1
  apply List.filter_congr
  intro event _
  rw [Function.comp_apply, isData_errorAt, Bool.and_self]

theorem dataIntervals_others (stored : Nat) (events : List StreamEvent) :
    dataIntervals ((events.filter fun event => !isData event).map (errorAt stored)) = [] := by
  rw [dataIntervals, List.filterMap_eq_nil_iff]
  intro event hevent
  obtain ⟨other, hother, rfl⟩ := List.mem_map.mp hevent
  have hdata := (List.mem_filter.mp hother).2
  rcases other with ⟨delta, ⟨offset, length⟩ | fields | _ | ⟨offset, category, phase⟩⟩
  · cases hdata
  · rfl
  · rfl
  · rfl

theorem errors_others {stored : Nat} {event : StreamEvent}
    (h : event ∈ (events.filter fun event => !isData event).map (errorAt stored))
    {offset : Nat} {category phase : String} (herror : event.event = .error offset category phase) :
    offset = stored := by
  obtain ⟨other, -, rfl⟩ := List.mem_map.mp h
  rcases other with ⟨delta, ⟨start, length⟩ | fields | _ | ⟨start, label, place⟩⟩
  · cases herror
  · cases herror
  · cases herror
  · injection herror with hoffset
    exact hoffset.symm

/-! ### The first DATA event -/

/-- DATA comes first: after trailers or the end of the body there is none. -/
theorem data_first (h : validateDirection events = .ok ()) (hdata : events.any isData = true) :
    ∃ delta length rest, events = ⟨delta, .data 0 length⟩ :: rest := by
  obtain ⟨hsequenced, hbounded⟩ := validateDirection_iff.mp h
  obtain ⟨data, hmem, hisData⟩ := List.any_eq_true.mp hdata
  cases events with
  | nil => cases hmem
  | cons event rest =>
      have hterminal := (List.pairwise_cons.mp (sequenced_terminal hsequenced)).1
      have htrailers := (List.pairwise_cons.mp (bounded_trailers hbounded)).1
      rcases event with ⟨delta, ⟨offset, length⟩ | fields | _ | ⟨offset, category, phase⟩⟩
      · obtain ⟨⟨-, -, hoffset, -⟩, -⟩ := hsequenced
        rw [hoffset]
        exact ⟨delta, length, rest, rfl⟩
      · rcases List.mem_cons.mp hmem with rfl | hmem
        · cases hisData
        · rw [(htrailers data hmem rfl).2] at hisData
          cases hisData
      · rcases List.mem_cons.mp hmem with rfl | hmem
        · cases hisData
        · cases hterminal data hmem
      · rcases List.mem_cons.mp hmem with rfl | hmem
        · cases hisData
        · cases hterminal data hmem

/-- One DATA event of the stored length in place of the DATA. -/
def oneData (stored delta : Nat) (rest : List StreamEvent) : List StreamEvent :=
  ⟨delta, .data 0 stored⟩ :: (rest.filter fun event => !isData event).map (errorAt stored)

theorem reconcile_oneData {response : HttpResponse} {delta length : Nat}
    {rest : List StreamEvent} (hpositive : 0 < response.body.len.getD 0)
    (hne : dataLength (⟨delta, .data 0 length⟩ :: rest) ≠ response.body.len.getD 0) :
    reconcileStreamEventBodyLength (⟨delta, .data 0 length⟩ :: rest) (.response response) =
      oneData (response.body.len.getD 0) delta rest := by
  rw [reconcileStreamEventBodyLength]
  dsimp only
  rw [if_neg hne, if_pos hpositive, List.findIdx?_cons]
  rfl

theorem reconcile_empty {response : HttpResponse} (hzero : response.body.len.getD 0 = 0)
    (hne : dataLength events ≠ response.body.len.getD 0) :
    reconcileStreamEventBodyLength events (.response response) =
      (events.filter fun event => !isData event).map (errorAt 0) := by
  rw [reconcileStreamEventBodyLength]
  dsimp only
  rw [if_neg hne, hzero]
  rfl

theorem reconcile_same {response : HttpResponse}
    (h : dataLength events = response.body.len.getD 0) :
    reconcileStreamEventBodyLength events (.response response) = events := by
  rw [reconcileStreamEventBodyLength]
  exact if_pos h

theorem oneData_reconciles {delta length stored : Nat} {rest : List StreamEvent}
    (hvalid : validateDirection (⟨delta, .data 0 length⟩ :: rest) = .ok ())
    (hpositive : 0 < stored) (hsmall : stored ≤ u64Max) :
    Reconciles (⟨delta, .data 0 length⟩ :: rest) (oneData stored delta rest) stored := by
  obtain ⟨⟨⟨hopen, hdelta, -⟩, hrest⟩, hwithin, hbounded⟩ := validateDirection_iff.mp hvalid
  have hoffset : (advance {} ⟨delta, .data 0 stored⟩).lastOffset = stored := by
    show saturatingAdd 0 stored = stored
    rw [saturatingAdd_of_le (by omega), Nat.zero_add]
  have hlater := @sequenced_withoutData (advance {} ⟨delta, .data 0 length⟩)
    (advance {} ⟨delta, .data 0 stored⟩) rest rfl (Nat.le_refl _) hrest
  rw [hoffset] at hlater
  constructor
  · exact validateDirection_iff.mpr
      ⟨⟨⟨hopen, hdelta, rfl, hpositive.ne'⟩, hlater⟩, hwithin, bounded_withoutData stored hbounded⟩
  · have hintervals : dataIntervals (oneData stored delta rest) = [(0, stored)] :=
      congrArg (List.cons (0, stored)) (dataIntervals_others stored rest)
    rw [hintervals]
    rfl
  · intro event hmem offset category phase herror
    rcases List.mem_cons.mp hmem with rfl | hmem
    · cases herror
    · exact errors_others hmem herror
  · exact filter_others stored rest

theorem others_reconciles (hvalid : validateDirection events = .ok ()) :
    Reconciles events ((events.filter fun event => !isData event).map (errorAt 0)) 0 := by
  obtain ⟨hsequenced, hbounded⟩ := validateDirection_iff.mp hvalid
  constructor
  · exact validateDirection_iff.mpr
      ⟨sequenced_withoutData rfl (Nat.le_refl _) hsequenced, bounded_withoutData 0 hbounded⟩
  · rw [dataIntervals_others]
    rfl
  · intro event hmem offset category phase herror
    exact errors_others hmem herror
  · exact filter_others 0 events

/-- A timeline that already adds up to the stored length is left as it is. -/
theorem same_reconciles {stored : Nat} (hvalid : validateDirection events = .ok ())
    (hfits : totalLength (dataIntervals events) ≤ u64Max)
    (htotal : totalLength (dataIntervals events) = stored) : Reconciles events events stored := by
  have herrors := ((tiled_direction_iff hvalid).mpr hfits).errors
  rw [htotal] at herrors
  refine ⟨hvalid, htotal, herrors, ?_⟩
  symm
  conv_rhs => rw [← List.map_id (events.filter fun event => !isData event)]
  apply List.map_congr_left
  intro event hevent
  have hmem := (List.mem_filter.mp hevent).1
  rcases event with ⟨delta, ⟨offset, length⟩ | fields | _ | ⟨offset, category, phase⟩⟩
  · rfl
  · rfl
  · rfl
  · rw [herrors _ hmem offset category phase rfl]
    rfl

/-- Where the lengths disagree, the timeline is rewritten for the stored length. -/
theorem reconcile_reconciles {response : HttpResponse}
    (hvalid : validateDirection events = .ok ())
    (hdata : response.body.len.getD 0 = 0 ∨ events.any isData = true)
    (hsmall : response.body.len.getD 0 ≤ u64Max)
    (hne : dataLength events ≠ response.body.len.getD 0) :
    Reconciles events (reconcileStreamEventBodyLength events (.response response))
      (response.body.len.getD 0) := by
  by_cases hzero : response.body.len.getD 0 = 0
  · rw [reconcile_empty hzero hne, hzero]
    exact others_reconciles hvalid
  · obtain ⟨delta, length, rest, rfl⟩ := data_first hvalid (hdata.resolve_left hzero)
    rw [reconcile_oneData (Nat.pos_of_ne_zero hzero) hne]
    exact oneData_reconciles hvalid (Nat.pos_of_ne_zero hzero) hsmall

/-- A validated timeline is reconciled with the stored body, and only once, unless the body has
the length at which the saturating sum stops and the DATA has more. -/
theorem reconciled_iff {response : HttpResponse} (hvalid : validateDirection events = .ok ())
    (hdata : response.body.len.getD 0 = 0 ∨ events.any isData = true)
    (hsmall : response.body.len.getD 0 ≤ u64Max) :
    (Reconciles events (reconcileStreamEventBodyLength events (.response response))
          (response.body.len.getD 0) ∧
        reconcileStreamEventBodyLength
            (reconcileStreamEventBodyLength events (.response response)) (.response response) =
          reconcileStreamEventBodyLength events (.response response)) ↔
      (response.body.len.getD 0 = u64Max → totalLength (dataIntervals events) ≤ u64Max) := by
  have honce : Reconciles events (reconcileStreamEventBodyLength events (.response response))
        (response.body.len.getD 0) →
      reconcileStreamEventBodyLength
          (reconcileStreamEventBodyLength events (.response response)) (.response response) =
        reconcileStreamEventBodyLength events (.response response) := by
    intro h
    apply reconcile_same
    rw [dataLength_eq, h.total, Nat.min_eq_left hsmall]
  rw [and_iff_left_of_imp honce]
  by_cases hsame : dataLength events = response.body.len.getD 0
  · rw [reconcile_same hsame]
    rw [dataLength_eq] at hsame
    constructor
    · intro h hlimit
      rw [h.total]
      exact hsmall
    · intro h
      have hfits : totalLength (dataIntervals events) ≤ u64Max := by
        by_contra hover
        have hlimit : response.body.len.getD 0 = u64Max := by omega
        exact hover (h hlimit)
      apply same_reconciles hvalid hfits
      omega
  · apply iff_of_true (reconcile_reconciles hvalid hdata hsmall hsame)
    intro hlimit
    rw [dataLength_eq] at hsame
    omega

/-! ### A longer body, and the longest -/

def bodyOf (length : Nat) : HttpResponse where
  status := 200
  headers := []
  body := .blob { byteBlob with length := length }
  trailers := []

theorem oneByte_reconciled :
    Reconciles oneByte [⟨0, .data 0 3⟩, ⟨1, .finish⟩] 3 :=
  ((@reconciled_iff oneByte (bodyOf 3) (by decide) (.inr rfl) (by decide)).mpr
    (by decide)).1

/-- The first two DATA events of the overrun and its end. -/
def overrunByOne : List StreamEvent :=
  [⟨0, .data 0 u64Max⟩, ⟨0, .data u64Max 1⟩, ⟨0, .finish⟩]

theorem overrun_not_reconciled :
    ¬ ∀ (events : List StreamEvent) (response : HttpResponse),
      validateDirection events = .ok () →
      (response.body.len.getD 0 = 0 ∨ events.any isData = true) →
      response.body.len.getD 0 ≤ u64Max →
      Reconciles events (reconcileStreamEventBodyLength events (.response response))
        (response.body.len.getD 0) := by
  intro h
  have hreconciles := h overrunByOne (bodyOf u64Max) (by decide) (.inr rfl)
    (Nat.le_refl _)
  exact absurd hreconciles.total (by decide)

end EggReplay.Http.ReconciledTimelines
