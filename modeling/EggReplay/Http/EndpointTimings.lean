import EggReplay.Http.ReplayDelivery

/-!
Two endpoints that tell a conversation which is not delivered: one gives its answers as late
as it may, so a script cut short leaves messages out, and one gives them at once, so every
answer that the script sends again is seen twice.
-/

namespace EggReplay.Http.EndpointTimings

open EggReplay.Library.Checks
open EggReplay.Library.Text
open EggReplay.Core.FlowRecord
open EggReplay.Core.StreamTimeline
open EggReplay.Core.WebSockets
open EggReplay.Core.Redaction
open EggReplay.Core.BodyWildcards
open EggReplay.Http.WebSocketRelay
open EggReplay.Http.RelayTranscripts
open EggReplay.Http.WebSocketMatching
open EggReplay.Http.WebSocketReplay
open EggReplay.Http.ReplayDelivery

variable {N : Type} {codec : BodyCodec N} {read : ReadBlob} {timing : StreamTimingMode}
  {terminal : WebSocketTerminal}

/-! ### As late as it may -/

/-- The answers wait until a flush, which gives one of them. -/
def lateEndpoint : Endpoint (List Message × Bool) where
  start := ([], false)
  read peer message := ((peer.1 ++ answer peer.2 message, peer.2 || isClose message), [])
  send peer message := ((peer.1, peer.2 || isClose message), [message])
  flush peer := ((peer.1.tail, peer.2), peer.1.head?.toList)

theorem head?_append_tail {α : Type} (items : List α) : items.head?.toList ++ items.tail = items := by
  cases items with
  | nil => rfl
  | cons first rest => rfl

theorem lateEndpoint_answers : Answers lateEndpoint Prod.fst Prod.snd where
  start_owed := rfl
  start_closing := rfl
  read_owed _ _ := rfl
  read_closing _ _ := rfl
  send_owed peer _ := ⟨[], [], rfl, rfl⟩
  send_closing _ _ := rfl
  flush_owed peer := head?_append_tail peer.1
  flush_due := by
    rintro ⟨items, closing⟩ hdue
    cases items with
    | nil => exact absurd rfl hdue
    | cons first rest => exact List.cons_ne_nil _ _
  flush_closing _ := rfl

theorem length_given_late (state : ScriptState (List Message × Bool)) (taken : Bool)
    (message : Message) :
    (if taken = true then lateEndpoint.flush state.peer
      else lateEndpoint.send state.peer message).2.length ≤ 1 := by
  split
  · rcases hpeer : state.peer with ⟨items, closing⟩
    cases items with
    | nil => exact Nat.zero_le 1
    | cons first rest => exact Nat.le_refl 1
  · exact Nat.le_refl 1

theorem length_entriesFrom {direction : WebSocketDirection} {expected : WebSocketMessage}
    {rest : List WebSocketMessage} (hdirection : expected.direction = direction) :
    (entriesFrom direction (expected :: rest)).length =
      (entriesFrom direction rest).length + 1 := by
  rw [entriesFrom, List.filter_cons, if_pos (decide_eq_true hdirection), List.length_cons]
  rfl

/-- A script cut short does not give as many messages as are recorded. -/
theorem late_short {messages : List WebSocketMessage} {inbox : List Message}
    {state : ScriptState (List Message × Bool)} (hsends : Sends read messages inbox)
    (hcut : ¬Uncut codec read timing state.previousDelta state.accumulatedDelay messages) :
    (replayWebsocketScript codec read timing lateEndpoint terminal state messages inbox).length <
      (entriesFrom .serverToClient messages).length := by
  induction messages generalizing inbox state with
  | nil => exact absurd trivial hcut
  | cons expected rest ih =>
      rcases hdirection : expected.direction with _ | _
      · obtain ⟨got, inbox, rfl, hplayed, hrest⟩ := sends_client hdirection hsends
        rw [uncut_client hdirection] at hcut
        rw [replay_client hdirection, ← matchesItself_eq hplayed,
          entriesFrom_other (by rw [hdirection]; rintro ⟨⟩)]
        by_cases hmatch : matchesItself codec read expected = true
        · rw [if_pos hmatch] at hcut
          rw [if_neg (by rw [hmatch]; rintro ⟨⟩)]
          exact ih hrest hcut
        · rw [if_neg hmatch] at hcut
          rw [if_pos (Bool.not_eq_true _ |>.mp hmatch)]
          exact List.length_pos_of_ne_nil hcut
      · have hrest := sends_server hdirection hsends
        rw [length_entriesFrom hdirection]
        by_cases hstop : playedMessage read expected = none ∨
            ∀ delay, timing.delayNs (expected.deltaNs - state.previousDelta)
              state.accumulatedDelay ≠ .ok delay
        · rw [replay_server_stopped hdirection hstop]
          exact Nat.succ_pos _
        · obtain ⟨hplayed, hdelay⟩ := not_or.mp hstop
          obtain ⟨message, hmessage⟩ := Option.ne_none_iff_exists'.mp hplayed
          obtain ⟨delay, hdelay⟩ := not_forall.mp hdelay
          rw [not_not] at hdelay
          rw [replay_server hdirection hdelay hmessage rfl, List.length_append]
          have hgiven := length_given_late state
            (takenForAnswer state.closeReplyPending state.automaticPongs expected.kind) message
          revert hgiven
          generalize (if takenForAnswer state.closeReplyPending state.automaticPongs
            expected.kind = true then lateEndpoint.flush state.peer
            else lateEndpoint.send state.peer message) = given
          intro hgiven
          have hcut' : ¬Uncut codec read timing (state.afterServer given.1 delay expected).previousDelta
              (state.afterServer given.1 delay expected).accumulatedDelay rest := by
            intro huncut
            exact hcut ((uncut_server hdirection).mpr
              ⟨Option.isSome_iff_exists.mpr ⟨message, hmessage⟩, delay, hdelay, huncut⟩)
          have hlater := ih hrest hcut'
          omega

/-! ### At once -/

/-- Every answer is given at the read it is due to. -/
def promptEndpoint : Endpoint Bool where
  start := false
  read closing message := (closing || isClose message, answer closing message)
  send closing message := (closing || isClose message, [message])
  flush closing := (closing, [])

theorem promptEndpoint_answers : Answers promptEndpoint (fun _ => []) id where
  start_owed := rfl
  start_closing := rfl
  read_owed _ _ := List.append_nil _
  read_closing _ _ := rfl
  send_owed _ _ := ⟨[], [], rfl, rfl⟩
  send_closing _ _ := rfl
  flush_owed _ := rfl
  flush_due _ hdue := absurd rfl hdue
  flush_closing _ := rfl

/-- The answers that the script is still waiting for. -/
def awaited (pending : Bool) (pongs : List Bytes) : Nat :=
  pongs.length + pending.toNat

section

variable {pending closing : Bool} {pongs : List Bytes} {expected : WebSocketMessage}
  {got message : Message}

/-- A client message adds no more to the answers awaited than the endpoint gives. -/
theorem awaited_client (hplayed : playedMessage read expected = some got)
    (hclosing : closing = false) :
    awaited (pending || decide (expected.kind = .close))
        (pongs ++ (pingPayload read expected).toList) ≤
      (answer closing got).length + awaited pending pongs := by
  subst hclosing
  rw [awaited, awaited, List.length_append]
  rcases playedMessage_cases hplayed with ⟨hkind, data, rfl⟩ | ⟨hkind, data, rfl⟩ |
    ⟨hkind, frame, rfl⟩ | ⟨hping, -, hclose, -, -, hanswer⟩
  · have hpayload : (pingPayload read expected).toList.length ≤ 1 := by
      cases pingPayload read expected with
      | none => exact Nat.zero_le 1
      | some payload => exact Nat.le_refl 1
    rw [hkind, decide_eq_false (by rintro ⟨⟩), Bool.or_false]
    have hone : (answer false (.ping data)).length = 1 := rfl
    omega
  · rw [pingPayload_eq_none (by rw [hkind]; rintro ⟨⟩), hkind, decide_eq_false (by rintro ⟨⟩),
      Bool.or_false]
    exact Nat.le_add_left _ _
  · rw [pingPayload_eq_none (by rw [hkind]; rintro ⟨⟩)]
    have hone : (answer false (.close frame)).length = 1 := rfl
    have hpending := Bool.toNat_le (pending || decide (expected.kind = .close))
    have hnone : (none : Option Bytes).toList.length = 0 := rfl
    omega
  · rw [pingPayload_eq_none hping, decide_eq_false hclose, Bool.or_false, hanswer]
    exact Nat.le_add_left _ _

/-- A server message is sent, or one fewer answer is awaited. -/
theorem awaited_server (state : ScriptState Bool) (peer : Bool) (delay : Nat) {given : Bool × List Message}
    (hgiven : given =
      if takenForAnswer state.closeReplyPending state.automaticPongs expected.kind = true
      then promptEndpoint.flush state.peer else promptEndpoint.send state.peer message) :
    awaited (state.afterServer peer delay expected).closeReplyPending
        (state.afterServer peer delay expected).automaticPongs + 1 ≤
      given.2.length + awaited state.closeReplyPending state.automaticPongs := by
  rw [ScriptState.afterServer, awaited, awaited]
  dsimp only
  by_cases htaken : takenForAnswer state.closeReplyPending state.automaticPongs expected.kind = true
  · rw [htaken, Bool.not_true, Bool.and_false]
    rw [takenForAnswer, Bool.or_eq_true_iff, Bool.and_eq_true_iff, decide_eq_true_eq,
      decide_eq_true_eq] at htaken
    rcases htaken with ⟨hkind, hpending⟩ | ⟨hkind, hpongs⟩
    · rw [if_neg (by rw [hkind]; rintro ⟨⟩), hpending]
      simp
    · rw [if_pos hkind, List.length_tail]
      have hpos := List.length_pos_of_ne_nil hpongs
      simp
      omega
  · rw [if_neg htaken] at hgiven
    have hone : given.2.length = 1 := by
      rw [hgiven]
      rfl
    rw [Bool.not_eq_true] at htaken
    rw [htaken, Bool.not_false, Bool.and_true, hone]
    have hpongs : (if expected.kind = .pong then state.automaticPongs.tail
        else state.automaticPongs).length ≤ state.automaticPongs.length := by
      split
      · rw [List.length_tail]
        exact Nat.sub_le _ _
      · exact Nat.le_refl _
    omega

end

/-- The server messages left come out, but for the answers awaited. -/
theorem prompt_surplus {messages : List WebSocketMessage} {inbox : List Message}
    {state : ScriptState Bool} (hsilent : SilentAfterClose messages)
    (hsends : Sends read messages inbox)
    (huncut : Uncut codec read timing state.previousDelta state.accumulatedDelay messages)
    (hclosed : Closed state.peer messages) :
    (entriesFrom .serverToClient messages).length ≤
      (replayWebsocketScript codec read timing promptEndpoint terminal state messages
        inbox).length + awaited state.closeReplyPending state.automaticPongs := by
  induction messages generalizing inbox state with
  | nil => exact Nat.zero_le _
  | cons expected rest ih =>
      have hsilent' := (List.pairwise_cons.mp hsilent).2
      rcases hdirection : expected.direction with _ | _
      · obtain ⟨got, inbox, rfl, hplayed, hrest⟩ := sends_client hdirection hsends
        rw [uncut_client hdirection] at huncut
        rw [entriesFrom_other (by rw [hdirection]; rintro ⟨⟩)]
        by_cases hleft : entriesFrom .serverToClient rest = []
        · rw [hleft]
          exact Nat.zero_le _
        · have hmatch : matchesItself codec read expected = true := by
            by_contra hmatch
            rw [if_neg hmatch] at huncut
            exact hleft huncut
          have hopen := hclosed.eq_false hdirection hleft
          rw [if_pos hmatch] at huncut
          have hlater : Closed (state.peer || isClose got) rest := by
            rw [isClose_played hplayed]
            exact hclosed.next hsilent
          have hfewer : (entriesFrom .serverToClient rest).length ≤
              (replayWebsocketScript codec read timing promptEndpoint terminal
                (state.afterClient (promptEndpoint.read state.peer got).1 read expected) rest
                inbox).length +
              awaited (state.closeReplyPending || decide (expected.kind = .close))
                (state.automaticPongs ++ (pingPayload read expected).toList) :=
            ih hsilent' hrest huncut hlater
          have hawaited : awaited (state.closeReplyPending || decide (expected.kind = .close))
                (state.automaticPongs ++ (pingPayload read expected).toList) ≤
              (promptEndpoint.read state.peer got).2.length +
                awaited state.closeReplyPending state.automaticPongs :=
            awaited_client hplayed hopen
          rw [replay_client hdirection, ← matchesItself_eq hplayed,
            if_neg (by rw [hmatch]; rintro ⟨⟩), List.length_append]
          omega
      · have hrest := sends_server hdirection hsends
        rw [uncut_server hdirection] at huncut
        obtain ⟨hplayed, delay, hdelay, huncut⟩ := huncut
        obtain ⟨message, hplayed⟩ := Option.isSome_iff_exists.mp hplayed
        rw [replay_server hdirection hdelay hplayed rfl, List.length_append,
          length_entriesFrom hdirection]
        generalize hgiven : (if takenForAnswer state.closeReplyPending state.automaticPongs
          expected.kind = true then promptEndpoint.flush state.peer
          else promptEndpoint.send state.peer message) = given
        have hawaited := awaited_server state given.1 delay hgiven.symm
        have hlater : Closed given.1 rest := by
          intro htrue
          refine hclosed.next hsilent ?_
          rw [← isClose_played hplayed]
          rw [← hgiven] at htrue
          split at htrue
          · exact Bool.or_eq_true_iff.mpr (.inl htrue)
          · exact htrue
        have hfewer : (entriesFrom .serverToClient rest).length ≤
            (replayWebsocketScript codec read timing promptEndpoint terminal
              (state.afterServer given.1 delay expected) rest inbox).length +
            awaited (state.afterServer given.1 delay expected).closeReplyPending
              (state.afterServer given.1 delay expected).automaticPongs :=
          ih hsilent' hrest huncut hlater
        omega

theorem played_ping {entry : WebSocketMessage} {message : Message}
    (hplayed : playedMessage read entry = some message) (hkind : entry.kind = .ping) :
    ∃ data, message = .ping data := by
  rcases playedMessage_cases hplayed with ⟨-, h⟩ | ⟨h, -⟩ | ⟨h, -⟩ | ⟨h, -⟩
  · exact h
  · rw [hkind] at h
    cases h
  · rw [hkind] at h
    cases h
  · exact absurd hkind h

theorem played_close {entry : WebSocketMessage} {message : Message}
    (hplayed : playedMessage read entry = some message) (hkind : entry.kind = .close) :
    ∃ frame, message = .close frame := by
  rcases playedMessage_cases hplayed with ⟨h, -⟩ | ⟨h, -⟩ | ⟨-, h⟩ | ⟨-, -, h, -⟩
  · rw [hkind] at h
    cases h
  · rw [hkind] at h
    cases h
  · exact h
  · exact absurd hkind h

theorem length_of_seen {direction : WebSocketDirection} {messages : List WebSocketMessage}
    {seen : List Message} (hseen : seen.map some = playedFrom read direction messages) :
    (entriesFrom direction messages).length = seen.length := by
  have hlength := congrArg List.length hseen
  rw [playedFrom, List.length_map, List.length_map] at hlength
  exact hlength.symm

/-- Behind answers that are pongs a close goes out twice: the first of them makes the script
forget that a close is due. -/
theorem prompt_close_alone {messages : List WebSocketMessage} {inbox early : List Message}
    {state : ScriptState Bool} {frame : Option CloseFrame} (hsilent : SilentAfterClose messages)
    (hserver : entriesFrom .clientToServer messages = [])
    (hleft : entriesFrom .serverToClient messages ≠ []) (hsends : Sends read messages inbox)
    (huncut : Uncut codec read timing state.previousDelta state.accumulatedDelay messages)
    (hpongs : ∀ message ∈ early, isPong message = true)
    (hcount : state.automaticPongs.length = early.length)
    (hseen : (early ++ Message.close frame ::
        replayWebsocketScript codec read timing promptEndpoint terminal state messages
          inbox).map some = playedFrom read .serverToClient messages) :
    early = [] := by
  cases messages with
  | nil => exact absurd rfl hleft
  | cons next rest =>
      have hdirection : next.direction = .serverToClient := by
        rcases hdirection : next.direction with _ | _
        · rw [← hdirection] at hserver
          exact absurd hserver entriesFrom_cons_ne_nil
        · rfl
      by_contra hearly
      obtain ⟨first, others, rfl⟩ := List.exists_cons_of_ne_nil hearly
      rw [uncut_server hdirection] at huncut
      obtain ⟨hplayed, delay, hdelay, huncut⟩ := huncut
      obtain ⟨message, hplayed⟩ := Option.isSome_iff_exists.mp hplayed
      have hlength := length_of_seen hseen
      rw [playedFrom_cons, if_pos hdirection, hplayed, List.cons_append, List.map_cons] at hseen
      obtain rfl := Option.some.inj (List.cons.inj hseen).1
      have hkind : next.kind = .pong := by
        have hpong := hpongs first List.mem_cons_self
        rw [isPong_played hplayed] at hpong
        exact of_decide_eq_true hpong
      have htaken : takenForAnswer state.closeReplyPending state.automaticPongs next.kind = true := by
        rw [takenForAnswer, Bool.or_eq_true_iff]
        refine .inr (decide_eq_true ⟨hkind, ?_⟩)
        rw [← List.length_pos_iff, hcount]
        exact Nat.succ_pos _
      have hclosed : Closed state.peer rest := fun _ => .inr (entriesFrom_rest hserver)
      have hfewer : (entriesFrom .serverToClient rest).length ≤
          (replayWebsocketScript codec read timing promptEndpoint terminal
            (state.afterServer state.peer delay next) rest inbox).length +
          awaited (state.afterServer state.peer delay next).closeReplyPending
            (state.afterServer state.peer delay next).automaticPongs :=
        prompt_surplus (List.pairwise_cons.mp hsilent).2 (sends_server hdirection hsends) huncut
          hclosed
      have hafter : awaited (state.afterServer state.peer delay next).closeReplyPending
          (state.afterServer state.peer delay next).automaticPongs = others.length := by
        rw [awaited, ScriptState.afterServer]
        dsimp only
        rw [htaken, Bool.not_true, Bool.and_false, if_pos hkind, List.length_tail, hcount]
        rfl
      rw [length_entriesFrom hdirection,
        replay_server hdirection hdelay hplayed (if_pos htaken).symm] at hlength
      have hsame : (promptEndpoint.flush state.peer).1 = state.peer := rfl
      rw [hsame] at hlength
      rw [List.length_append, List.length_cons, List.length_cons, List.length_append] at hlength
      omega

/-- In a conversation that goes out as recorded under answers given at once, the answers are
recorded where they are due. -/
theorem inOrder_of_prompt {messages : List WebSocketMessage} {inbox early : List Message}
    {state : ScriptState Bool} (hsilent : SilentAfterClose messages)
    (hsends : Sends read messages inbox)
    (huncut : Uncut codec read timing state.previousDelta state.accumulatedDelay messages)
    (hclosed : Closed state.peer messages)
    (hfollows : entriesFrom .serverToClient messages ≠ [] →
      Follows state.peer state.closeReplyPending state.automaticPongs early)
    (hseen : (early ++ replayWebsocketScript codec read timing promptEndpoint terminal state
      messages inbox).map some = playedFrom read .serverToClient messages) :
    InOrder codec read state.peer early messages := by
  induction messages generalizing inbox early state with
  | nil =>
      rw [List.map_append] at hseen
      exact List.map_eq_nil_iff.mp (List.append_eq_nil_iff.mp hseen).1
  | cons expected rest ih =>
      have hsilent' := (List.pairwise_cons.mp hsilent).2
      rcases hdirection : expected.direction with _ | _
      · obtain ⟨got, inbox, rfl, hplayed, hrest⟩ := sends_client hdirection hsends
        rw [uncut_client hdirection] at huncut
        rw [inOrder_client hdirection hplayed]
        rw [playedFrom_cons, if_neg (by rw [hdirection]; rintro ⟨⟩), replay_client hdirection,
          ← matchesItself_eq hplayed, ← List.append_assoc] at hseen
        have hgiven : (promptEndpoint.read state.peer got).2 = answer state.peer got := rfl
        rw [hgiven] at hseen
        by_cases hmatch : matchesItself codec read expected = true
        · rw [if_pos hmatch] at huncut ⊢
          rw [if_neg (by rw [hmatch]; rintro ⟨⟩)] at hseen
          have hclosed' : Closed (state.peer || isClose got) rest := by
            rw [isClose_played hplayed]
            exact hclosed.next hsilent
          have hopen : entriesFrom .serverToClient rest ≠ [] →
              Follows state.peer state.closeReplyPending state.automaticPongs early ∧
                state.peer = false := by
            intro hleft
            refine ⟨hfollows ?_, hclosed.eq_false hdirection hleft⟩
            rwa [entriesFrom_other (by rw [hdirection]; rintro ⟨⟩)]
          have hseen' : entriesFrom .serverToClient rest = [] →
              early = [] ∧ answer state.peer got = [] := by
            intro hnone
            rw [entriesFrom_eq_nil.mp hnone, List.map_eq_nil_iff, List.append_eq_nil_iff,
              List.append_eq_nil_iff] at hseen
            exact hseen.1
          have hping : expected.kind = .ping → (pingPayload read expected).isSome = true := by
            intro hkind
            obtain ⟨data, rfl⟩ := played_ping hplayed hkind
            by_cases hleft : entriesFrom .serverToClient rest = []
            · exact absurd (hseen' hleft).2 (List.cons_ne_nil _ _)
            · obtain ⟨hfollows, hpeer⟩ := hopen hleft
              obtain ⟨hpending, -, hlength⟩ := hfollows.before_close hpeer
              have hfewer : (entriesFrom .serverToClient rest).length ≤
                  (replayWebsocketScript codec read timing promptEndpoint terminal
                    (state.afterClient (promptEndpoint.read state.peer (.ping data)).1 read expected)
                    rest inbox).length +
                  awaited (state.closeReplyPending || decide (expected.kind = .close))
                    (state.automaticPongs ++ (pingPayload read expected).toList) :=
                prompt_surplus hsilent' hrest huncut hclosed'
              have hone : (answer state.peer (.ping data)).length = 1 := rfl
              rw [length_of_seen hseen, List.length_append, List.length_append, hone, awaited,
                hpending, hkind, List.length_append, hlength] at hfewer
              by_contra hnone
              rw [Option.not_isSome_iff_eq_none.mp hnone] at hfewer
              have hstill : (false || decide (WebSocketMessageKind.ping = .close)).toNat = 0 := rfl
              have hnothing : (none : Option Bytes).toList.length = 0 := rfl
              omega
          have hclose : expected.kind = .close → state.peer = false → early = [] := by
            intro hkind hpeer
            obtain ⟨frame, rfl⟩ := played_close hplayed hkind
            by_cases hleft : entriesFrom .serverToClient rest = []
            · exact (hseen' hleft).1
            · obtain ⟨-, hpongs, hlength⟩ := (hopen hleft).1.before_close hpeer
              have hserver := hsilent.rest_eq_nil hkind
              rw [hdirection] at hserver
              have hcount : (state.afterClient (promptEndpoint.read state.peer (.close frame)).1
                  read expected).automaticPongs.length = early.length := by
                rw [ScriptState.afterClient, pingPayload_eq_none (by rw [hkind]; rintro ⟨⟩)]
                rw [Option.toList_none, List.append_nil, hlength]
              have hanswer : answer state.peer (.close frame) = [.close frame] := by
                rw [hpeer]
                rfl
              have huncut' : Uncut codec read timing
                  (state.afterClient (promptEndpoint.read state.peer (.close frame)).1 read
                    expected).previousDelta
                  (state.afterClient (promptEndpoint.read state.peer (.close frame)).1 read
                    expected).accumulatedDelay rest := huncut
              rw [hanswer, List.append_assoc] at hseen
              exact prompt_close_alone hsilent' hserver hleft hrest huncut' hpongs hcount hseen
          have hlater : InOrder codec read
              (state.afterClient (promptEndpoint.read state.peer got).1 read expected).peer
              (early ++ answer state.peer got) rest := by
            refine ih hsilent' hrest huncut hclosed' ?_ hseen
            intro hleft
            exact (hopen hleft).1.client (hopen hleft).2 hplayed hping fun hkind =>
              hclose hkind (hopen hleft).2
          exact ⟨hping, hclose, hlater⟩
        · rw [if_neg hmatch] at huncut ⊢
          rw [entriesFrom_eq_nil.mp huncut, List.map_eq_nil_iff, List.append_eq_nil_iff] at hseen
          exact hseen.1
      · have hrest := sends_server hdirection hsends
        rw [uncut_server hdirection] at huncut
        obtain ⟨hplayed, delay, hdelay, huncut⟩ := huncut
        obtain ⟨message, hplayed⟩ := Option.isSome_iff_exists.mp hplayed
        rw [playedFrom_cons, if_pos hdirection, hplayed,
          replay_server hdirection hdelay hplayed rfl] at hseen
        rw [inOrder_server hdirection, hplayed]
        have hfollows := hfollows (by rw [← hdirection]; exact entriesFrom_cons_ne_nil)
        have hhead : early = [] ∨ early.head? = some message := by
          cases early with
          | nil => exact .inl rfl
          | cons first others => exact .inr (List.cons.inj hseen).1
        refine ⟨hhead, ?_⟩
        have hgiven := given_server promptEndpoint_answers
          (by rw [List.append_nil]; exact hfollows) hplayed (by rw [List.append_nil]; exact hhead) rfl
        rw [List.append_nil] at hgiven
        obtain ⟨later, hout, hlater, hpeer⟩ := hgiven
        rw [List.append_nil] at hlater
        rw [← List.append_assoc, hout, List.cons_append, List.map_cons] at hseen
        rw [← hlater]
        rw [id_eq, id_eq] at hpeer
        rw [← hpeer]
        refine ih hsilent' hrest huncut ?_ ?_ (List.cons.inj hseen).2
        · rw [ScriptState.afterServer, hpeer]
          exact hclosed.next hsilent
        · intro _
          rw [ScriptState.afterServer, hpeer, hlater]
          exact hfollows.server hplayed hhead

/-! ### Delivery -/

/-- A conversation is delivered under every endpoint exactly where nothing stops the script
and the endpoint's answers are recorded where they are due. -/
theorem delivered_iff {limits : WebSocketLimits} {transcript : WebSocketTranscript}
    {conversation : WebSocketConversation} {client : List Message}
    (hvalid : transcript.validate limits = .ok ())
    (hmem : conversation ∈ transcript.conversations)
    (hsends : Sends read conversation.messages client) :
    Delivered codec read timing conversation client ↔
      Uncut codec read timing 0 0 conversation.messages ∧
        InOrder codec read false [] conversation.messages := by
  have hsilent := silentAfterClose_of_validate hvalid hmem
  constructor
  · intro hdelivered
    have huncut : Uncut codec read timing 0 0 conversation.messages := by
      by_contra hcut
      have hlate := hdelivered _ lateEndpoint _ _ lateEndpoint_answers
      have hcut' : ¬Uncut codec read timing (ScriptState.start lateEndpoint).previousDelta
          (ScriptState.start lateEndpoint).accumulatedDelay conversation.messages := hcut
      have hshort : (replayWebsocketScript codec read timing lateEndpoint conversation.terminal
          (.start lateEndpoint) conversation.messages client).length <
            (entriesFrom .serverToClient conversation.messages).length :=
        late_short hsends hcut'
      rw [length_of_seen hlate] at hshort
      exact lt_irrefl _ hshort
    refine ⟨huncut, ?_⟩
    have hprompt : InOrder codec read (ScriptState.start promptEndpoint).peer []
        conversation.messages := by
      have hseen := hdelivered _ promptEndpoint _ _ promptEndpoint_answers
      rw [← List.nil_append (replayWebsocketScript _ _ _ _ _ _ _ _)] at hseen
      exact inOrder_of_prompt hsilent hsends huncut (by rintro ⟨⟩) (fun _ => follows_start) hseen
    exact hprompt
  · rintro ⟨huncut, horder⟩
    exact delivered_of_inOrder hsilent hsends huncut horder

def controlEntry (sequence : Nat) (direction : WebSocketDirection) (kind : WebSocketMessageKind)
    (payload : Bytes) : WebSocketMessage where
  sequence := sequence
  direction := direction
  deltaNs := sequence
  kind := kind
  payload := payloadRef letterCodec payload
  closeCode := none
  closeReason := none
  redactions := []

/-- A ping of the client and its pong. -/
def pingConversation (payload : Bytes) : WebSocketConversation where
  id := "ws"
  flowId := "one"
  offeredSubprotocols := []
  selectedSubprotocol := none
  messages := [controlEntry 0 .clientToServer .ping payload,
    controlEntry 1 .serverToClient .pong payload]
  terminal := .abnormal "eof"

def pingTranscript (payload : Bytes) : WebSocketTranscript where
  schemaVersion := websocketSchemaVersion
  conversations := [pingConversation payload]

theorem ping_delivered_iff :
    Delivered letterCodec (fun _ => some (utf8 ['a'])) .recorded (pingConversation (utf8 ['a']))
        [.ping (utf8 ['a'])] ↔
      Uncut letterCodec (fun _ => some (utf8 ['a'])) .recorded 0 0
          (pingConversation (utf8 ['a'])).messages ∧
        InOrder letterCodec (fun _ => some (utf8 ['a'])) false []
          (pingConversation (utf8 ['a'])).messages := by
  have hvalid : (pingTranscript (utf8 ['a'])).validate .default = .ok () := by decide
  have hmem : pingConversation (utf8 ['a']) ∈ (pingTranscript (utf8 ['a'])).conversations :=
    List.mem_singleton.mpr rfl
  exact delivered_iff hvalid hmem (by decide)

/-- The pong to a ping without a payload goes out twice. -/
theorem empty_ping_answered_twice :
    ¬∀ (transcript : WebSocketTranscript) (conversation : WebSocketConversation)
        (client : List Message),
      transcript.validate .default = .ok () → conversation ∈ transcript.conversations →
      (∀ entry ∈ conversation.messages, (playedMessage (fun _ => none) entry).isSome = true) →
      Sends (fun _ => none) conversation.messages client →
      Delivered letterCodec (fun _ => none) .immediate conversation client := by
  intro h
  have hdelivered := h (pingTranscript []) (pingConversation []) [.ping []] (by decide)
    (by decide) (by decide) (by decide) Bool promptEndpoint (fun _ => [])
    id promptEndpoint_answers
  exact absurd hdelivered (by decide)

end EggReplay.Http.EndpointTimings
