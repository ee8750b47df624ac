import EggReplay.Http.RelayTranscripts
import EggReplay.Library.Pairings

/-!
The relay is transparent: it records what it receives, and sends each peer what it recorded
of the other one. Left out are pongs that answer a ping of the peer that they are for, and
closes after the first.
-/

namespace EggReplay.Http.RelayTransparency

open EggReplay.Library.Text
open EggReplay.Library.Pairings
open EggReplay.Core.FlowRecord
open EggReplay.Core.StreamTimeline
open EggReplay.Core.WebSockets
open EggReplay.Core.Redaction
open EggReplay.Http.WebSocketRelay
open EggReplay.Http.RelayTranscripts

variable {N : Type}

/-! ### What arrives -/

abbrev Arrival := WebSocketDirection × Message

/-- A peer that has ended delivers nothing more. -/
def openAfter (isOpen : PerDirection Bool) : Event → PerDirection Bool
  | .received direction .ended => isOpen.set direction false
  | .received _ (.message _ _) | .received _ (.failed _) | .deadline | .cancelled => isOpen

/-- The message that a turn of the loop receives, raw frames apart. -/
def arrived (isOpen : PerDirection Bool) : Event → List Arrival
  | .received direction (.message message _) =>
      if isOpen.get direction = true ∧ message ≠ .frame then [(direction, message)] else []
  | .received _ (.failed _) | .received _ .ended | .deadline | .cancelled => []

def arrivals : PerDirection Bool → List Event → List Arrival
  | _, [] => []
  | isOpen, event :: rest => arrived isOpen event ++ arrivals (openAfter isOpen event) rest

def kindOf (message : Message) : Option WebSocketMessageKind :=
  (project message).map Projection.kind

def arrivalKind (arrival : Arrival) : WebSocketDirection × Option WebSocketMessageKind :=
  (arrival.1, kindOf arrival.2)

def recordedKind (message : WebSocketMessage) :
    WebSocketDirection × Option WebSocketMessageKind :=
  (message.direction, some message.kind)

/-! ### What is to be sent on -/

def isClose : Message → Bool
  | .close _ => true
  | .text _ | .binary _ | .ping _ | .pong _ | .frame => false

/-- A ping asks, as its peer and with its payload. -/
def pinged : Arrival → Option (WebSocketDirection × Bytes)
  | (direction, .ping data) => some (direction, data)
  | (_, .text _) | (_, .binary _) | (_, .pong _) | (_, .close _) | (_, .frame) => none

/-- A pong answers the other peer. -/
def ponged : Arrival → Option (WebSocketDirection × Bytes)
  | (direction, .pong data) => some (otherDirection direction, data)
  | (_, .text _) | (_, .binary _) | (_, .ping _) | (_, .close _) | (_, .frame) => none

/-- An arrival that goes on to the other peer: no pong that is paired with a ping, and no
close after any close. -/
def goesOn (log : List Arrival) (pairs : List (Nat × Nat)) (entry : Arrival × Nat) : Bool :=
  !(pairs.map Prod.snd).contains entry.2 &&
    !(isClose entry.1.2 && (log.take entry.2).any fun earlier => isClose earlier.2)

def sentOn (log : List Arrival) (pairs : List (Nat × Nat)) : List Arrival :=
  (log.zipIdx.filter (goesOn log pairs)).map Prod.fst

/-! ### Transparency -/

/-- The record and what was sent, while the relay runs. -/
structure Relayed (log : List Arrival) (state : RelayState) : Prop where
  recorded : state.messages.map recordedKind = log.map arrivalKind
  sent : ∃ pairs, Pairing pinged ponged log pairs ∧ state.forwarded = sentOn log pairs

/-- A message at which the storage or a limit ends the relay is not recorded. -/
def recordedArrivals (log : List Arrival) (terminal : WebSocketTerminal) : List Arrival :=
  if terminal = .abnormal "storage-error" ∨ terminal = .abnormal "capture-limit" then log.dropLast
  else log

/-- The record and what was sent at the end: the last message to send may be missing. -/
structure RelayedAtEnd (log : List Arrival) (final : RelayState) (terminal : WebSocketTerminal) :
    Prop where
  recorded : final.messages.map recordedKind = (recordedArrivals log terminal).map arrivalKind
  sent : ∃ pairs, Pairing pinged ponged (recordedArrivals log terminal) pairs ∧
    (final.forwarded = sentOn (recordedArrivals log terminal) pairs ∨
      ∃ last, (recordedArrivals log terminal).getLast? = some last ∧
        final.forwarded ++ [last] = sentOn (recordedArrivals log terminal) pairs)

/-! ### One arrival more -/

theorem goesOn_append {log : List Arrival} {pairs : List (Nat × Nat)} {entry : Arrival × Nat}
    (arrival : Arrival) (h : entry.2 ≤ log.length) :
    goesOn (log ++ [arrival]) pairs entry = goesOn log pairs entry := by
  rw [goesOn, goesOn, List.take_append_of_le_length h]

theorem goesOn_paired {log : List Arrival} {pairs : List (Nat × Nat)} {entry : Arrival × Nat}
    {index later : Nat} (h : entry.2 ≠ later) :
    goesOn log (pairs ++ [(index, later)]) entry = goesOn log pairs entry := by
  have hother : (entry.2 == later) = false := beq_eq_false_iff_ne.mpr h
  rw [goesOn, goesOn, List.map_append, List.contains_append, List.map_singleton,
    List.contains_cons, hother, List.contains_nil, Bool.or_false, Bool.or_false]

theorem sentOn_append (log : List Arrival) (pairs : List (Nat × Nat)) (arrival : Arrival) :
    sentOn (log ++ [arrival]) pairs =
      sentOn log pairs ++
        if goesOn log pairs (arrival, log.length) = true then [arrival] else [] := by
  have hearlier : log.zipIdx.filter (goesOn (log ++ [arrival]) pairs) =
      log.zipIdx.filter (goesOn log pairs) := by
    apply List.filter_congr
    intro entry hentry
    apply goesOn_append
    exact Nat.le_of_lt (List.snd_lt_of_mem_zipIdx hentry)
  rw [sentOn, List.zipIdx_append, List.filter_append, List.map_append, hearlier]
  rw [Nat.zero_add, List.zipIdx_singleton, List.filter_singleton, goesOn_append _ (Nat.le_refl _)]
  cases goesOn log pairs (arrival, log.length) with
  | true => rfl
  | false => rfl

/-- A pair with the last arrival does not change what was sent before. -/
theorem sentOn_paired (log : List Arrival) (pairs : List (Nat × Nat)) (index : Nat) :
    sentOn log (pairs ++ [(index, log.length)]) = sentOn log pairs := by
  rw [sentOn, sentOn]
  apply congrArg (List.map Prod.fst)
  apply List.filter_congr
  intro entry hentry
  apply goesOn_paired
  exact Nat.ne_of_lt (List.snd_lt_of_mem_zipIdx hentry)

theorem goesOn_unpaired {log : List Arrival} {pairs : List (Nat × Nat)} {arrival : Arrival}
    (hpairing : Pairing pinged ponged log pairs) :
    goesOn log pairs (arrival, log.length) =
      !(isClose arrival.2 && log.any fun earlier => isClose earlier.2) := by
  have hnone : (pairs.map Prod.snd).contains log.length = false := by
    rw [List.contains_eq_mem]
    exact decide_eq_false hpairing.length_notMem
  rw [goesOn, hnone, List.take_length]
  rfl

/-! ### Pings that wait -/

/-- The pings that wait in the loop are those that wait for an answer. -/
def Waits (pingPongs : PerDirection (List Bytes))
    (waiting : List (Nat × (WebSocketDirection × Bytes))) : Prop :=
  ∀ direction payload, (pingPongs.get direction).count payload =
    (waiting.map Prod.snd).count (direction, payload)

theorem Waits.ping {pingPongs : PerDirection (List Bytes)}
    {waiting : List (Nat × (WebSocketDirection × Bytes))} (h : Waits pingPongs waiting)
    (direction : WebSocketDirection) (data : Bytes) (index : Nat) :
    Waits (pingPongs.set direction (pingPongs.get direction ++ [data]))
      (waiting ++ [(index, (direction, data))]) := by
  intro other payload
  rw [get_set, List.map_append, List.count_append, ← h, List.map_singleton, List.count_singleton]
  split_ifs with hsame hkey hkey
  · rw [hsame, List.count_append, List.count_singleton]
    have hdata : (data == payload) = true := by
      rw [beq_iff_eq]
      exact (Prod.mk.inj (eq_of_beq hkey)).2
    rw [if_pos hdata]
  · rw [hsame, List.count_append, List.count_singleton]
    have hdata : ¬(data == payload) = true := by
      rw [beq_iff_eq]
      intro hdata
      rw [hsame, hdata, beq_self_eq_true] at hkey
      exact hkey rfl
    rw [if_neg hdata]
  · exact absurd (Prod.mk.inj (eq_of_beq hkey)).1.symm hsame
  · exact (Nat.add_zero _).symm

theorem Waits.pong {pingPongs : PerDirection (List Bytes)}
    {waiting : List (Nat × (WebSocketDirection × Bytes))} (h : Waits pingPongs waiting)
    {peer : WebSocketDirection} {data : Bytes} {index : Nat}
    (hwaits : (index, (peer, data)) ∈ waiting) :
    Waits (pingPongs.set peer ((pingPongs.get peer).erase data))
      (waiting.erase (index, (peer, data))) := by
  have hperm := (List.perm_cons_erase hwaits).map Prod.snd
  intro other payload
  have hcount := hperm.count_eq (other, payload)
  rw [List.map_cons, List.count_cons, ← h] at hcount
  rw [get_set]
  split_ifs with hsame
  · subst hsame
    rw [List.count_erase, hcount]
    by_cases hdata : data = payload
    · rw [hdata, beq_self_eq_true, beq_self_eq_true, if_pos rfl]
      exact Nat.add_sub_cancel _ _
    · have hpayload : ¬(data == payload) = true := by
        rw [beq_iff_eq]
        exact hdata
      have hkey : ¬((other, data) == (other, payload)) = true := by
        rw [beq_iff_eq]
        exact fun hpair => hdata (Prod.mk.inj hpair).2
      rw [if_neg hpayload, if_neg hkey, Nat.add_zero, Nat.sub_zero]
  · have hkey : ¬((peer, data) == (other, payload)) = true := by
      rw [beq_iff_eq]
      exact fun hpair => hsame (Prod.mk.inj hpair).1.symm
    rw [hcount, if_neg hkey, Nat.add_zero]

/-- What an arrival makes of the waiting pings, and whether it is due to be sent on. -/
theorem answerPings_paired {log : List Arrival} {pairs : List (Nat × Nat)}
    {waiting : List (Nat × (WebSocketDirection × Bytes))}
    {pingPongs : PerDirection (List Bytes)} {direction : WebSocketDirection} {message : Message}
    {projected : Projection} (hproject : project message = some projected)
    (hpaired : Paired pinged ponged log pairs waiting) (hwaits : Waits pingPongs waiting) :
    ∃ pairs' waiting', Paired pinged ponged (log ++ [(direction, message)]) pairs' waiting' ∧
      Waits (answerPings pingPongs projected.kind direction projected.bytes).1 waiting' ∧
      sentOn (log ++ [(direction, message)]) pairs' = sentOn log pairs ++
        if (answerPings pingPongs projected.kind direction projected.bytes).2 = true ∨
          (isClose message && log.any fun earlier => isClose earlier.2) = true then []
        else [(direction, message)] := by
  have hplain : pinged (direction, message) = none → ponged (direction, message) = none →
      projected.kind ≠ .ping → projected.kind ≠ .pong →
      ∃ pairs' waiting', Paired pinged ponged (log ++ [(direction, message)]) pairs' waiting' ∧
        Waits (answerPings pingPongs projected.kind direction projected.bytes).1 waiting' ∧
        sentOn (log ++ [(direction, message)]) pairs' = sentOn log pairs ++
          if (answerPings pingPongs projected.kind direction projected.bytes).2 = true ∨
            (isClose message && log.any fun earlier => isClose earlier.2) = true then []
          else [(direction, message)] := by
    intro hping hpong hkindPing hkindPong
    have hunanswered : answerPings pingPongs projected.kind direction projected.bytes =
        (pingPongs, false) := by
      rw [answerPings, if_neg hkindPing, if_neg fun hboth => hkindPong hboth.1]
    refine ⟨pairs, waiting, hpaired.other hping hpong, ?_, ?_⟩
    · rw [hunanswered]
      exact hwaits
    · rw [sentOn_append, goesOn_unpaired hpaired.toPairing, hunanswered]
      cases isClose message && log.any fun earlier => isClose earlier.2 with
      | true => rfl
      | false => rfl
  cases message with
  | text content =>
      obtain rfl := Option.some.inj hproject
      exact hplain rfl rfl (by rintro ⟨⟩) (by rintro ⟨⟩)
  | binary data =>
      obtain rfl := Option.some.inj hproject
      exact hplain rfl rfl (by rintro ⟨⟩) (by rintro ⟨⟩)
  | close frame =>
      obtain rfl := Option.some.inj hproject
      exact hplain rfl rfl (by rintro ⟨⟩) (by rintro ⟨⟩)
  | frame => cases hproject
  | ping data =>
      obtain rfl := Option.some.inj hproject
      refine ⟨pairs, waiting ++ [(log.length, (direction, data))], hpaired.ask rfl rfl, ?_, ?_⟩
      · exact hwaits.ping direction data log.length
      · rw [sentOn_append, goesOn_unpaired hpaired.toPairing]
        rfl
  | pong data =>
      obtain rfl := Option.some.inj hproject
      by_cases hmem : data ∈ pingPongs.get (otherDirection direction)
      · have hanswered : answerPings pingPongs .pong direction data =
            (pingPongs.set (otherDirection direction)
              ((pingPongs.get (otherDirection direction)).erase data), true) := by
          rw [answerPings, if_neg ((by rintro ⟨⟩) : WebSocketMessageKind.pong ≠ .ping), if_pos ⟨rfl, hmem⟩]
        have hcount := List.count_pos_iff.mpr hmem
        rw [hwaits, List.count_pos_iff, List.mem_map] at hcount
        obtain ⟨⟨index, key⟩, hentry, rfl⟩ := hcount
        refine ⟨_, _, hpaired.answer rfl rfl hentry, ?_, ?_⟩
        · rw [hanswered]
          exact hwaits.pong hentry
        · have hwithheld : goesOn log (pairs ++ [(index, log.length)])
              ((direction, .pong data), log.length) = false := by
            rw [goesOn, List.map_append, List.contains_append]
            simp
          rw [sentOn_append, hwithheld, sentOn_paired, hanswered]
          rfl
      · have hunanswered : answerPings pingPongs .pong direction data = (pingPongs, false) := by
          rw [answerPings, if_neg ((by rintro ⟨⟩) : WebSocketMessageKind.pong ≠ .ping),
            if_neg fun hboth => hmem hboth.2]
        have hnone : ∀ index, (index, (otherDirection direction, data)) ∉ waiting := by
          intro index hentry
          apply hmem
          rw [← List.count_pos_iff, hwaits, List.count_pos_iff]
          exact List.mem_map_of_mem hentry
        refine ⟨pairs, waiting, hpaired.unmatched rfl rfl hnone, ?_, ?_⟩
        · rw [hunanswered]
          exact hwaits
        · rw [sentOn_append, goesOn_unpaired hpaired.toPairing, hunanswered]
          rfl

/-! ### One turn of the loop -/

def RelayState.anyClose (state : RelayState) : Bool :=
  state.closeSeen.clientToServer || state.closeSeen.serverToClient

/-- The variables of the loop go with what has arrived. -/
structure InStep (log : List Arrival) (state : RelayState) : Prop where
  recorded : state.messages.map recordedKind = log.map arrivalKind
  sent : ∃ pairs waiting, Paired pinged ponged log pairs waiting ∧
    Waits state.pingPongs waiting ∧ state.forwarded = sentOn log pairs
  closes : RelayState.anyClose state = log.any fun earlier => isClose earlier.2

def Stays (log : List Arrival) : Outcome → Prop
  | .running state => InStep log state
  | .ended final terminal => RelayedAtEnd log final terminal

theorem InStep.relayed {log : List Arrival} {state : RelayState} (h : InStep log state) :
    Relayed log state := by
  obtain ⟨pairs, waiting, hpaired, -, hforwarded⟩ := h.sent
  exact ⟨h.recorded, pairs, hpaired.toPairing, hforwarded⟩

theorem recordedArrivals_of_recorded {log : List Arrival} {terminal : WebSocketTerminal}
    (hstorage : terminal ≠ .abnormal "storage-error")
    (hlimit : terminal ≠ .abnormal "capture-limit") : recordedArrivals log terminal = log :=
  if_neg (not_or.mpr ⟨hstorage, hlimit⟩)

/-- An end at which everything is recorded and sent. -/
theorem InStep.ended {log : List Arrival} {state final : RelayState}
    {terminal : WebSocketTerminal} (h : InStep log state)
    (hmessages : final.messages = state.messages) (hforwarded : final.forwarded = state.forwarded)
    (hstorage : terminal ≠ .abnormal "storage-error")
    (hlimit : terminal ≠ .abnormal "capture-limit") : RelayedAtEnd log final terminal := by
  obtain ⟨pairs, hpairing, hsent⟩ := h.relayed.sent
  have hkept := @recordedArrivals_of_recorded log _ hstorage hlimit
  constructor
  · rw [hkept, hmessages, h.recorded]
  · rw [hkept]
    exact ⟨pairs, hpairing, .inl (hforwarded.trans hsent)⟩

/-- An end at a message that is not recorded. -/
theorem InStep.lost {log : List Arrival} {state final : RelayState} {terminal : WebSocketTerminal}
    (h : InStep log state) (arrival : Arrival) (hmessages : final.messages = state.messages)
    (hforwarded : final.forwarded = state.forwarded)
    (hterminal : terminal = .abnormal "storage-error" ∨ terminal = .abnormal "capture-limit") :
    RelayedAtEnd (log ++ [arrival]) final terminal := by
  obtain ⟨pairs, hpairing, hsent⟩ := h.relayed.sent
  have hkept : recordedArrivals (log ++ [arrival]) terminal = log := by
    rw [recordedArrivals, if_pos hterminal, List.dropLast_concat]
  constructor
  · rw [hkept, hmessages, h.recorded]
  · rw [hkept]
    exact ⟨pairs, hpairing, .inl (hforwarded.trans hsent)⟩

/-- A message that is recorded and not yet sent on. -/
structure Taken (log : List Arrival) (arrival : Arrival) (state : RelayState) (due : Bool) :
    Prop where
  recorded : state.messages.map recordedKind = (log ++ [arrival]).map arrivalKind
  sent : ∃ pairs waiting, Paired pinged ponged (log ++ [arrival]) pairs waiting ∧
    Waits state.pingPongs waiting ∧
    sentOn (log ++ [arrival]) pairs = state.forwarded ++ if due = true then [arrival] else []

section

variable {log : List Arrival} {direction : WebSocketDirection} {message : Message}
  {state : RelayState}

theorem Taken.withheld (h : Taken log (direction, message) state false)
    (hcloses : RelayState.anyClose state =
      (log ++ [(direction, message)]).any fun earlier => isClose earlier.2) :
    InStep (log ++ [(direction, message)]) state := by
  obtain ⟨pairs, waiting, hpaired, hwaits, hsent⟩ := h.sent
  refine ⟨h.recorded, ⟨pairs, waiting, hpaired, hwaits, ?_⟩, hcloses⟩
  rw [hsent]
  exact (List.append_nil _).symm

/-- The message is sent on, or the relay ends with everything but this message sent. -/
theorem Taken.forward (h : Taken log (direction, message) state true) (sent : Bool) :
    (∃ next, forward state direction message sent = .running next ∧
      next = { state with forwarded := state.forwarded ++ [(direction, message)] } ∧
      Taken log (direction, message) next false) ∨
    forward state direction message sent = .ended state (.abnormal "write-error") ∧
      RelayedAtEnd (log ++ [(direction, message)]) state (.abnormal "write-error") := by
  obtain ⟨pairs, waiting, hpaired, hwaits, hsent⟩ := h.sent
  cases sent with
  | true =>
      refine .inl ⟨_, rfl, rfl, h.recorded, pairs, waiting, hpaired, hwaits, ?_⟩
      rw [hsent]
      exact (List.append_nil _).symm
  | false =>
      have hkept : recordedArrivals (log ++ [(direction, message)]) (.abnormal "write-error") =
          log ++ [(direction, message)] := recordedArrivals_of_recorded (by decide) (by decide)
      refine .inr ⟨rfl, ?_, ?_⟩
      · rw [hkept]
        exact h.recorded
      · rw [hkept]
        refine ⟨pairs, hpaired.toPairing, .inr ⟨(direction, message), ?_, hsent.symm⟩⟩
        rw [List.getLast?_append, List.getLast?_singleton, Option.some_or]

theorem anyClose_set (state : RelayState) (direction : WebSocketDirection) :
    RelayState.anyClose { state with closeSeen := state.closeSeen.set direction true } = true := by
  cases direction with
  | clientToServer => exact Bool.true_or _
  | serverToClient => exact Bool.or_true _

theorem duplicate_eq (state : RelayState) (direction : WebSocketDirection) :
    (state.closeSeen.get direction || state.closeSeen.get (otherDirection direction)) =
      RelayState.anyClose state := by
  cases direction with
  | clientToServer => rfl
  | serverToClient => exact Bool.or_comm _ _

theorem any_append_close {log : List Arrival} (h : isClose message = true) :
    ((log ++ [(direction, message)]).any fun earlier => isClose earlier.2) = true := by
  rw [List.any_append, List.any_cons, h, Bool.true_or, Bool.or_true]

/-- The end of a turn that takes a close. -/
theorem Taken.finish (h : Taken log (direction, message) state false)
    (hclose : isClose message = true) (hany : RelayState.anyClose state = true)
    (code : Option Nat) (reason : Option String) :
    Stays (log ++ [(direction, message)])
      (if state.bothClosed = true then .ended state (.cleanClose code reason)
        else .running state) := by
  have hstep := h.withheld (hany.trans (any_append_close hclose).symm)
  split_ifs with hboth
  · exact hstep.ended rfl rfl (by rintro ⟨⟩) (by rintro ⟨⟩)
  · exact hstep

theorem relayClose_stays {due : Bool} (h : Taken log (direction, message) state due)
    (hclose : isClose message = true) (hdue : due = !RelayState.anyClose state)
    (code : Option Nat) (reason : Option String) (sent : Bool) :
    Stays (log ++ [(direction, message)])
      (relayClose state direction message code reason sent) := by
  have hseen : Taken log (direction, message)
      { state with closeSeen := state.closeSeen.set direction true } due := ⟨h.recorded, h.sent⟩
  have hany := anyClose_set state direction
  rw [relayClose, duplicate_eq]
  dsimp only
  cases hduplicate : RelayState.anyClose state with
  | true =>
      rw [hduplicate] at hdue
      rw [hdue] at hseen
      rw [if_pos rfl]
      exact hseen.finish hclose hany code reason
  | false =>
      rw [hduplicate] at hdue
      rw [hdue] at hseen
      rw [if_neg Bool.false_ne_true]
      rcases hseen.forward sent with ⟨next, hforward, rfl, hnext⟩ | ⟨hforward, hended⟩
      · rw [hforward]
        exact hnext.finish hclose hany code reason
      · rw [hforward]
        exact hended

theorem isClose_iff {projected : Projection} (hproject : project message = some projected) :
    isClose message = true ↔ projected.kind = .close := by
  cases message with
  | frame => cases hproject
  | close frame =>
      obtain rfl := Option.some.inj hproject
      exact ⟨fun _ => rfl, fun _ => rfl⟩
  | text content =>
      obtain rfl := Option.some.inj hproject
      exact ⟨(by rintro ⟨⟩), (by rintro ⟨⟩)⟩
  | binary data =>
      obtain rfl := Option.some.inj hproject
      exact ⟨(by rintro ⟨⟩), (by rintro ⟨⟩)⟩
  | ping data =>
      obtain rfl := Option.some.inj hproject
      exact ⟨(by rintro ⟨⟩), (by rintro ⟨⟩)⟩
  | pong data =>
      obtain rfl := Option.some.inj hproject
      exact ⟨(by rintro ⟨⟩), (by rintro ⟨⟩)⟩

theorem sendOn_stays {projected : Projection} (hproject : project message = some projected)
    {answered : Bool} (reason : Option String) (sent : Bool)
    (hcloses : RelayState.anyClose state = log.any fun earlier => isClose earlier.2)
    (hanswered : isClose message = true → answered = false)
    (h : Taken log (direction, message) state
      (!(answered || (isClose message && RelayState.anyClose state)))) :
    Stays (log ++ [(direction, message)])
      (sendOn state direction message projected reason answered sent) := by
  rw [sendOn]
  by_cases hkind : projected.kind = .close
  · have hclose := (isClose_iff hproject).mpr hkind
    rw [if_pos hkind]
    refine relayClose_stays h hclose ?_ projected.closeCode reason sent
    rw [hanswered hclose, hclose, Bool.false_or, Bool.true_and]
  · have hopen : isClose message = false :=
      Bool.not_eq_true _ ▸ fun hclose => hkind ((isClose_iff hproject).mp hclose)
    have hkept : RelayState.anyClose state =
        (log ++ [(direction, message)]).any fun earlier => isClose earlier.2 := by
      rw [hcloses, List.any_append, List.any_cons, hopen, List.any_nil, Bool.or_false,
        Bool.or_false]
    rw [hopen, Bool.false_and, Bool.or_false] at h
    rw [if_neg hkind]
    cases answered with
    | true => exact h.withheld hkept
    | false =>
        rcases h.forward sent with ⟨next, hforward, rfl, hnext⟩ | ⟨hforward, hended⟩
        · rw [if_neg Bool.false_ne_true, hforward]
          exact hnext.withheld hkept
        · rw [if_neg Bool.false_ne_true, hforward]
          exact hended

/-- A message is recorded and sent on, or the relay ends at it. -/
theorem relayMessage_stays (codec : BodyCodec N) (options : WebSocketRecordingOptions)
    (config : RedactionConfig) (h : InStep log state) (handling : Handling)
    {projected : Projection} (hproject : project message = some projected) :
    Stays (log ++ [(direction, message)])
      (relayMessage codec options config state direction message handling) := by
  rw [relayMessage, hproject]
  dsimp only
  split_ifs with hlost hlimits
  · exact h.lost (direction, message) rfl rfl (.inl rfl)
  · exact h.lost (direction, message) rfl rfl (.inr rfl)
  · obtain ⟨pairs, waiting, hpaired, hwaits, hforwarded⟩ := h.sent
    obtain ⟨pairs', waiting', hpaired', hwaits', hsent⟩ :=
      answerPings_paired hproject hpaired hwaits
    refine sendOn_stays hproject _ _ h.closes ?_ ⟨?_, pairs', waiting', hpaired', hwaits', ?_⟩
    · intro hclose
      have hkind := (isClose_iff hproject).mp hclose
      rw [answerPings, hkind]
      rfl
    · show List.map recordedKind (state.messages ++ [_]) = _
      rw [List.map_append, List.map_append, h.recorded]
      apply congrArg (List.map arrivalKind log ++ ·)
      show [(direction, some projected.kind)] = [(direction, kindOf message)]
      rw [kindOf, hproject]
      rfl
    · show _ = state.forwarded ++ if (!(_ || (_ && RelayState.anyClose state))) = true then _ else _
      rw [hsent, hforwarded, h.closes]
      apply congrArg (sentOn log pairs ++ ·)
      generalize (answerPings state.pingPongs projected.kind direction projected.bytes).2 =
        answered
      generalize (isClose message && log.any fun earlier => isClose earlier.2) = late
      cases answered with
      | true => rfl
      | false =>
          cases late with
          | true => rfl
          | false => rfl

end

/-! ### The run -/

section

variable (codec : BodyCodec N) (options : WebSocketRecordingOptions) (config : RedactionConfig)

theorem websocketErrorCause_recorded (error : TransportError) :
    WebSocketTerminal.abnormal (websocketErrorCause error) ≠ .abnormal "storage-error" ∧
      WebSocketTerminal.abnormal (websocketErrorCause error) ≠ .abnormal "capture-limit" := by
  cases error with
  | resetWithoutClosingHandshake => decide
  | unexpectedEof => decide
  | connectionReset => decide
  | brokenPipe => decide
  | other => decide

theorem relayEnd_stays {log : List Arrival} {state : RelayState} (h : InStep log state)
    (direction : WebSocketDirection) : Stays log (relayEnd state direction) := by
  rw [relayEnd]
  dsimp only
  split_ifs with hboth hnone hclosed
  · exact h.ended rfl rfl (by rintro ⟨⟩) (by rintro ⟨⟩)
  · exact h.ended rfl rfl (by decide) (by decide)
  · exact h.ended rfl rfl (by decide) (by decide)
  · exact ⟨h.recorded, h.sent, h.closes⟩

theorem relayStep_stays {log : List Arrival} {state : RelayState} (h : InStep log state)
    (event : Event) :
    Stays (log ++ arrived state.isOpen event) (relayStep codec options config state event) := by
  have hquiet : ∀ outcome, Stays log outcome → Stays (log ++ []) outcome := by
    intro outcome hstays
    rw [List.append_nil]
    exact hstays
  cases event with
  | deadline => exact hquiet _ (h.ended rfl rfl (by decide) (by decide))
  | cancelled => exact hquiet _ (h.ended rfl rfl (by decide) (by decide))
  | received direction value =>
      rw [relayStep.eq_def]
      dsimp only
      by_cases hopen : state.isOpen.get direction = false
      · have hnone : arrived state.isOpen (.received direction value) = [] := by
          cases value with
          | message message handling =>
              rw [arrived, hopen]
              rfl
          | failed error => rfl
          | ended => rfl
        rw [if_pos hopen, hnone]
        exact hquiet _ h
      · rw [if_neg hopen]
        cases value with
        | failed error =>
            obtain ⟨hstorage, hlimit⟩ := websocketErrorCause_recorded error
            exact hquiet _ (h.ended rfl rfl hstorage hlimit)
        | ended => exact hquiet _ (relayEnd_stays h direction)
        | message message handling =>
            rw [Bool.not_eq_false] at hopen
            rcases hproject : project message with _ | projected
            · have hraw : message = .frame := by
                cases message with
                | frame => rfl
                | text content => cases hproject
                | binary data => cases hproject
                | ping data => cases hproject
                | pong data => cases hproject
                | close frame => cases hproject
              rw [arrived, if_neg fun hboth => hboth.2 hraw]
              dsimp only
              rw [relayMessage_raw hproject]
              exact hquiet _ h
            · have hframe : message ≠ .frame := by
                rintro rfl
                cases hproject
              rw [arrived, if_pos ⟨hopen, hframe⟩]
              exact relayMessage_stays codec options config h handling hproject

theorem forward_isOpen (state : RelayState) (direction : WebSocketDirection) (message : Message)
    (sent : Bool) : (forward state direction message sent).state.isOpen = state.isOpen := by
  cases sent with
  | true => rfl
  | false => rfl

theorem relayClose_isOpen (state : RelayState) (direction : WebSocketDirection)
    (message : Message) (code : Option Nat) (reason : Option String) (sent : Bool) :
    (relayClose state direction message code reason sent).state.isOpen = state.isOpen := by
  have hfinish : ∀ final : RelayState, final.isOpen = state.isOpen →
      (if final.bothClosed = true then Outcome.ended final (.cleanClose code reason)
        else .running final).state.isOpen = state.isOpen := by
    intro final hfinal
    split_ifs with hboth
    · exact hfinal
    · exact hfinal
  rw [relayClose]
  dsimp only
  split
  · exact hfinish _ rfl
  · cases sent with
    | true => exact hfinish _ rfl
    | false => rfl

theorem relayMessage_isOpen (state : RelayState) (direction : WebSocketDirection)
    (message : Message) (handling : Handling) :
    (relayMessage codec options config state direction message handling).state.isOpen =
      state.isOpen := by
  rw [relayMessage]
  split
  · rfl
  · dsimp only
    split_ifs with hlost hlimits
    · rfl
    · rfl
    · rw [sendOn]
      split_ifs with hclose hanswered
      · exact relayClose_isOpen _ direction message _ _ handling.sent
      · rfl
      · exact forward_isOpen _ direction message handling.sent

/-- A peer is listened to until it has ended. -/
theorem relayStep_isOpen {state next : RelayState} {event : Event}
    (h : relayStep codec options config state event = .running next) :
    next.isOpen = openAfter state.isOpen event := by
  have hstate := congrArg (fun outcome => outcome.state.isOpen) h
  cases event with
  | deadline => cases h
  | cancelled => cases h
  | received direction value =>
      rw [relayStep.eq_def] at h hstate
      dsimp only at h hstate
      by_cases hopen : state.isOpen.get direction = false
      · rw [if_pos hopen] at h
        obtain rfl := Outcome.running.inj h
        cases value with
        | message message handling => rfl
        | failed error => rfl
        | ended =>
            rw [openAfter]
            cases direction with
            | clientToServer => exact congrArg (PerDirection.mk · _) hopen
            | serverToClient => exact congrArg (PerDirection.mk _ ·) hopen
      · rw [if_neg hopen] at h hstate
        cases value with
        | message message handling =>
            exact hstate.symm.trans (relayMessage_isOpen codec options config state direction
              message handling)
        | failed error => cases h
        | ended =>
            dsimp only at h
            rw [relayEnd] at h
            split_ifs at h with hboth hnone hclosed
            obtain rfl := Outcome.running.inj h
            rfl

/-- The relay up to its end: at each point of the run, and at the end, it has recorded what
arrived and sent on what was to be sent. -/
theorem relayFrom_stays {log : List Arrival} {state final : RelayState} {events : List Event}
    {terminal : WebSocketTerminal} (h : InStep log state)
    (hrun : relayFrom codec options config state events = some (final, terminal)) :
    ∃ before last rest, events = before ++ last :: rest ∧
      (∃ running, runningAfter codec options config state before = some running ∧
        relayStep codec options config running last = .ended final terminal) ∧
      (∀ early late, before = early ++ late →
        ∃ between, runningAfter codec options config state early = some between ∧
          Relayed (log ++ arrivals state.isOpen early) between) ∧
      RelayedAtEnd (log ++ arrivals state.isOpen (before ++ [last])) final terminal := by
  induction events generalizing log state with
  | nil => cases hrun
  | cons event rest ih =>
      have hstep := relayStep_stays codec options config h event
      rw [relayFrom] at hrun
      rcases hnext : relayStep codec options config state event with next | ⟨ended, cause⟩
      · rw [hnext] at hrun hstep
        obtain ⟨before, last, others, rfl, ⟨running, hbefore, hlast⟩, hearlier, hend⟩ :=
          ih hstep hrun
        rw [relayStep_isOpen codec options config hnext, List.append_assoc] at hend
        refine ⟨event :: before, last, others, rfl, ⟨running, ?_, hlast⟩, ?_, hend⟩
        · rw [runningAfter, hnext]
          exact hbefore
        · intro early late hsplit
          rcases early with _ | ⟨first, early⟩
          · refine ⟨state, rfl, ?_⟩
            rw [arrivals, List.append_nil]
            exact h.relayed
          · obtain ⟨rfl, hbefore⟩ := List.cons.inj hsplit
            obtain ⟨between, hbetween, hrelayed⟩ := hearlier early late hbefore
            refine ⟨between, ?_, ?_⟩
            · rw [runningAfter, hnext]
              exact hbetween
            · rw [relayStep_isOpen codec options config hnext, List.append_assoc] at hrelayed
              exact hrelayed
      · rw [hnext] at hrun hstep
        obtain ⟨rfl, rfl⟩ := Prod.mk.inj (Option.some.inj hrun)
        refine ⟨[], event, rest, rfl, ⟨state, rfl, hnext⟩, ?_, ?_⟩
        · intro early late hsplit
          obtain ⟨rfl, -⟩ := List.append_eq_nil_iff.mp hsplit.symm
          refine ⟨state, rfl, ?_⟩
          rw [arrivals, List.append_nil]
          exact h.relayed
        · rw [List.nil_append, arrivals, arrivals, List.append_nil]
          exact hstep

theorem inStep_start : InStep [] RelayState.start where
  recorded := rfl
  sent := by
    refine ⟨[], [], paired_nil pinged ponged, ?_, rfl⟩
    intro direction payload
    cases direction with
    | clientToServer => rfl
    | serverToClient => rfl
  closes := rfl

/-- The relay records every message that it receives before its end, in order, and sends each
peer the messages of the other one in order and as they came. -/
theorem relay_transparent {events : List Event} {final : RelayState}
    {terminal : WebSocketTerminal}
    (hrun : relayFrom codec options config .start events = some (final, terminal)) :
    ∃ before last rest, events = before ++ last :: rest ∧
      (∃ running, runningAfter codec options config .start before = some running ∧
        relayStep codec options config running last = .ended final terminal) ∧
      (∀ early late, before = early ++ late →
        ∃ between, runningAfter codec options config .start early = some between ∧
          Relayed (arrivals RelayState.start.isOpen early) between) ∧
      RelayedAtEnd (arrivals RelayState.start.isOpen (before ++ [last])) final terminal :=
  relayFrom_stays codec options config inStep_start hrun

end

/-- A ping and its pong, and a text whose recipient is gone. -/
def pingAndText : List Event :=
  [.received .clientToServer (.message (.ping [1]) ⟨0, 0, true, true⟩),
    .received .serverToClient (.message (.pong [1]) ⟨0, 0, true, true⟩),
    .received .serverToClient (.message (.text "a") ⟨0, 0, true, false⟩)]

theorem pingAndText_relayed :
    ∃ final, relayFrom letterCodec plainOptions .defaultSecure .start pingAndText =
        some (final, .abnormal "write-error") ∧
      ∃ before last rest, pingAndText = before ++ last :: rest ∧
        RelayedAtEnd (arrivals RelayState.start.isOpen (before ++ [last])) final
          (.abnormal "write-error") := by
  have hrun : (relayFrom letterCodec plainOptions .defaultSecure .start pingAndText).map
      Prod.snd = some (.abnormal "write-error") := by
    decide
  obtain ⟨⟨final, terminal⟩, hended, rfl⟩ := Option.map_eq_some_iff.mp hrun
  obtain ⟨before, last, rest, hevents, -, -, hend⟩ :=
    relay_transparent letterCodec plainOptions .defaultSecure hended
  exact ⟨final, hended, before, last, rest, hevents, hend⟩

end EggReplay.Http.RelayTransparency
