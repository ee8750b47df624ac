import EggReplay.Http.WebSocketReplay

/-!
When a replayed conversation reaches the client as it was recorded. A script that goes
through the conversation in order delivers it under every endpoint; where it does not, an
endpoint that answers at once or one that answers as late as it may shows the difference.
-/

namespace EggReplay.Http.ReplayDelivery

open EggReplay.Library.Checks
open EggReplay.Library.Text
open EggReplay.Core.FlowRecord
open EggReplay.Core.StreamTimeline
open EggReplay.Core.WebSockets
open EggReplay.Core.Redaction
open EggReplay.Core.BodyWildcards
open EggReplay.Http.WebSocketRelay
open EggReplay.Http.RelayTranscripts
open EggReplay.Http.WebSocketMatching
open EggReplay.Http.WebSocketReplay

variable {N σ : Type} {codec : BodyCodec N} {read : ReadBlob} {timing : StreamTimingMode}

/-! ### Validated conversations -/

/-- After a close nothing comes from its direction. -/
def SilentAfterClose (messages : List WebSocketMessage) : Prop :=
  messages.Pairwise fun earlier later =>
    earlier.kind = .close → later.direction ≠ earlier.direction

theorem validateMessage_closed {limits : WebSocketLimits} {checked next : MessageState}
    {message : WebSocketMessage} (h : validateMessage limits checked message = .ok next) :
    message.direction ∉ checked.closeDirections ∧
      (∀ direction ∈ checked.closeDirections, direction ∈ next.closeDirections) ∧
      (message.kind = .close → message.direction ∈ next.closeDirections) := by
  unfold validateMessage at h
  by_cases hkind : message.kind = .close
  · rcases hpayload : message.payload with _ | body
    · simp [hkind, hpayload] at h
      obtain ⟨-, -, -, -, -, -, -, -, hopen, -, rfl⟩ := h
      exact ⟨hopen, fun direction hmem => List.mem_cons_of_mem _ hmem,
        fun _ => List.mem_cons_self⟩
    · simp [hkind, hpayload] at h
  · rcases hpayload : message.payload with _ | body
    · simp [hkind, hpayload] at h
      obtain ⟨-, -, -, -, hopen, -, -, -, -, rfl⟩ := h
      exact ⟨hopen, fun direction hmem => hmem, fun hclose => absurd hclose hkind⟩
    · simp [hkind, hpayload] at h
      obtain ⟨-, -, -, -, hopen, length, -, -, -, -, -, -, -, rfl⟩ := h
      exact ⟨hopen, fun direction hmem => hmem, fun hclose => absurd hclose hkind⟩

theorem silentAfterClose_of_checkFold {limits : WebSocketLimits} {checked final : MessageState}
    {messages : List WebSocketMessage}
    (h : checkFold (validateMessage limits) checked messages = .ok final) :
    SilentAfterClose messages ∧
      ∀ message ∈ messages, message.direction ∉ checked.closeDirections := by
  induction messages generalizing checked with
  | nil => exact ⟨List.Pairwise.nil, fun message hmessage => absurd hmessage List.not_mem_nil⟩
  | cons message rest ih =>
      rw [checkFold_cons, bind_eq_ok] at h
      obtain ⟨next, hnext, hrest⟩ := h
      obtain ⟨hopen, hkeep, hclose⟩ := validateMessage_closed hnext
      obtain ⟨hsilent, hlater⟩ := ih hrest
      refine ⟨List.pairwise_cons.mpr ⟨?_, hsilent⟩, ?_⟩
      · intro later hmem hkind heq
        exact hlater later hmem (heq ▸ hclose hkind)
      · intro other hother
        rcases List.mem_cons.mp hother with rfl | hmem
        · exact hopen
        · exact fun hclosed => hlater other hmem (hkeep _ hclosed)

theorem silentAfterClose_of_validate {limits : WebSocketLimits} {transcript : WebSocketTranscript}
    (h : transcript.validate limits = .ok ()) {conversation : WebSocketConversation}
    (hmem : conversation ∈ transcript.conversations) : SilentAfterClose conversation.messages := by
  obtain ⟨-, -, state, hstate⟩ := transcript_validate_eq_ok.mp h
  rw [List.mem_iff_append] at hmem
  obtain ⟨before, after, hsplit⟩ := hmem
  rw [hsplit, checkFold_append, bind_eq_ok] at hstate
  obtain ⟨reached, -, hrest⟩ := hstate
  rw [checkFold_cons, bind_eq_ok] at hrest
  obtain ⟨next, hnext, -⟩ := hrest
  simp [validateConversation] at hnext
  obtain ⟨-, -, -, -, -, -, -, -, -, -, final, hfinal, -⟩ := hnext
  exact (silentAfterClose_of_checkFold hfinal).1

/-! ### One entry -/

section

variable {entry : WebSocketMessage} {rest : List WebSocketMessage} {message got : Message}

theorem playedFrom_cons {direction : WebSocketDirection} :
    playedFrom read direction (entry :: rest) =
      if entry.direction = direction then playedMessage read entry :: playedFrom read direction rest
      else playedFrom read direction rest := by
  rw [playedFrom, entriesFrom, List.filter_cons]
  by_cases h : entry.direction = direction
  · simp [h, playedFrom, entriesFrom]
  · simp [h, playedFrom, entriesFrom]

theorem entriesFrom_eq_nil {direction : WebSocketDirection} {messages : List WebSocketMessage} :
    entriesFrom direction messages = [] ↔ playedFrom read direction messages = [] := by
  rw [playedFrom, List.map_eq_nil_iff]

theorem entriesFrom_eq_nil_iff {direction : WebSocketDirection}
    {messages : List WebSocketMessage} :
    entriesFrom direction messages = [] ↔ ∀ later ∈ messages, later.direction ≠ direction := by
  simp [entriesFrom, List.filter_eq_nil_iff]

/-- What the endpoint owes for a message of each kind. -/
theorem playedMessage_cases (h : playedMessage read entry = some message) :
    (entry.kind = .ping ∧ ∃ data, message = .ping data) ∨
    (entry.kind = .pong ∧ ∃ data, message = .pong data) ∨
    (entry.kind = .close ∧ ∃ frame, message = .close frame) ∨
    (entry.kind ≠ .ping ∧ entry.kind ≠ .pong ∧ entry.kind ≠ .close ∧ isPong message = false ∧
      isClose message = false ∧ ∀ closing, answer closing message = []) := by
  rw [playedMessage] at h
  rcases hpayload : expectedPayload read entry with _ | payload
  · rw [hpayload] at h
    cases h
  · rw [hpayload] at h
    dsimp only at h
    rcases hkind : entry.kind with _ | _ | _ | _ | _
    · rw [hkind] at h
      obtain ⟨chars, -, rfl⟩ := Option.map_eq_some_iff.mp h
      exact .inr (.inr (.inr ⟨(by rintro ⟨⟩), (by rintro ⟨⟩), (by rintro ⟨⟩), rfl, rfl, fun _ => rfl⟩))
    · rw [hkind] at h
      obtain rfl := Option.some.inj h
      exact .inr (.inr (.inr ⟨(by rintro ⟨⟩), (by rintro ⟨⟩), (by rintro ⟨⟩), rfl, rfl, fun _ => rfl⟩))
    · rw [hkind] at h
      exact .inl ⟨rfl, payload, (Option.some.inj h).symm⟩
    · rw [hkind] at h
      exact .inr (.inl ⟨rfl, payload, (Option.some.inj h).symm⟩)
    · rw [hkind] at h
      exact .inr (.inr (.inl ⟨rfl, _, (Option.some.inj h).symm⟩))

theorem isClose_played (h : playedMessage read entry = some message) :
    isClose message = decide (entry.kind = .close) := by
  rcases playedMessage_cases h with ⟨hkind, data, rfl⟩ | ⟨hkind, data, rfl⟩ | ⟨hkind, frame, rfl⟩ |
    ⟨-, -, hkind, -, hclose, -⟩
  · rw [hkind]
    rfl
  · rw [hkind]
    rfl
  · rw [hkind]
    rfl
  · rw [hclose]
    exact (decide_eq_false hkind).symm

theorem isPong_played (h : playedMessage read entry = some message) :
    isPong message = decide (entry.kind = .pong) := by
  rcases playedMessage_cases h with ⟨hkind, data, rfl⟩ | ⟨hkind, data, rfl⟩ | ⟨hkind, frame, rfl⟩ |
    ⟨-, hkind, -, hpong, -, -⟩
  · rw [hkind]
    rfl
  · rw [hkind]
    rfl
  · rw [hkind]
    rfl
  · rw [hpong]
    exact (decide_eq_false hkind).symm

theorem pingPayload_eq_none (h : entry.kind ≠ .ping) : pingPayload read entry = none := by
  rw [pingPayload]
  split
  · rename_i hkind _
    exact absurd hkind h
  · rfl

end

/-! ### The script against the answers outstanding -/

/-- The two variables of the script, where the answers outstanding are what they should
be: a close stands alone. -/
structure Follows (closing pending : Bool) (pongs : List Bytes) (outstanding : List Message) :
    Prop where
  count : pongs.length = outstanding.countP isPong
  due_iff : pending = true ↔ ∃ message ∈ outstanding, isClose message = true
  alone : ∀ message ∈ outstanding, isClose message = true → outstanding = [message]
  answers : ∀ message ∈ outstanding, isPong message = true ∨ isClose message = true
  closed : pending = true → closing = true

section

variable {closing pending : Bool} {pongs : List Bytes} {outstanding : List Message}
  {entry : WebSocketMessage} {got message : Message}

/-- Before a close every answer outstanding is a pong. -/
theorem Follows.before_close (h : Follows closing pending pongs outstanding)
    (hclosing : closing = false) :
    pending = false ∧ (∀ message ∈ outstanding, isPong message = true) ∧
      pongs.length = outstanding.length := by
  have hpending : pending = false := by
    by_contra htrue
    rw [h.closed (Bool.not_eq_false _ |>.mp htrue)] at hclosing
    cases hclosing
  have hpongs : ∀ message ∈ outstanding, isPong message = true := by
    intro message hmessage
    rcases h.answers message hmessage with htrue | htrue
    · exact htrue
    · rw [h.due_iff.mpr ⟨message, hmessage, htrue⟩] at hpending
      cases hpending
  refine ⟨hpending, hpongs, ?_⟩
  rw [h.count, List.countP_eq_length.mpr hpongs]

theorem Follows.client (h : Follows closing pending pongs outstanding) (hclosing : closing = false)
    (hplayed : playedMessage read entry = some got)
    (hping : entry.kind = .ping → (pingPayload read entry).isSome = true)
    (hclose : entry.kind = .close → outstanding = []) :
    Follows (closing || isClose got) (pending || decide (entry.kind = .close))
      (pongs ++ (pingPayload read entry).toList) (outstanding ++ answer closing got) := by
  have hpending : pending = false := by
    by_contra htrue
    rw [h.closed (Bool.not_eq_false _ |>.mp htrue)] at hclosing
    cases hclosing
  have hnone : ∀ other ∈ outstanding, isClose other = false := by
    intro other hother
    by_contra htrue
    rw [h.due_iff.mpr ⟨other, hother, Bool.not_eq_false _ |>.mp htrue⟩] at hpending
    cases hpending
  subst hclosing hpending
  rcases playedMessage_cases hplayed with ⟨hkind, data, rfl⟩ | ⟨hkind, data, rfl⟩ |
    ⟨hkind, frame, rfl⟩ | ⟨hping', hpong', hclose', -, hgot, hanswer⟩
  · obtain ⟨payload, hpayload⟩ := Option.isSome_iff_exists.mp (hping hkind)
    have hopen : ∀ other ∈ outstanding ++ [Message.pong data], isClose other = false := by
      intro other hother
      rcases List.mem_append.mp hother with hmem | hmem
      · exact hnone other hmem
      · rw [List.mem_singleton.mp hmem]
        rfl
    constructor
    · rw [hpayload]
      simp [answer, h.count, isPong, List.countP_append]
    · rw [hkind]
      constructor
      · intro hfalse
        cases hfalse
      · rintro ⟨other, hother, htrue⟩
        rw [hopen other hother] at htrue
        cases htrue
    · intro other hother htrue
      rw [hopen other hother] at htrue
      cases htrue
    · intro other hother
      rcases List.mem_append.mp hother with hmem | hmem
      · exact h.answers other hmem
      · rw [List.mem_singleton.mp hmem]
        exact .inl rfl
    · rw [hkind]
      intro hfalse
      cases hfalse
  · rw [pingPayload_eq_none (by rw [hkind]; rintro ⟨⟩), hkind]
    simpa [answer, isClose] using h
  · obtain rfl := hclose hkind
    have hpongs : pongs = [] := List.length_eq_zero_iff.mp h.count
    rw [pingPayload_eq_none (by rw [hkind]; rintro ⟨⟩), hkind, hpongs]
    constructor
    · rfl
    · exact ⟨fun _ => ⟨_, List.mem_singleton.mpr rfl, rfl⟩, fun _ => rfl⟩
    · intro other hother _
      rw [List.mem_singleton.mp hother]
      rfl
    · intro other hother
      rw [List.mem_singleton.mp hother]
      exact .inr rfl
    · exact fun _ => rfl
  · rw [pingPayload_eq_none hping', hanswer, hgot, decide_eq_false hclose']
    simpa using h

/-- A server message is taken for an answer exactly where answers are outstanding. -/
theorem Follows.taken_iff (h : Follows closing pending pongs outstanding)
    (hplayed : playedMessage read entry = some message)
    (hhead : outstanding = [] ∨ outstanding.head? = some message) :
    takenForAnswer pending pongs entry.kind = true ↔ outstanding ≠ [] := by
  have hpong := isPong_played hplayed
  have hclose := isClose_played hplayed
  rw [takenForAnswer]
  rcases hhead with rfl | hhead
  · have hpongs : pongs = [] := List.length_eq_zero_iff.mp h.count
    have hpending : pending = false := by
      by_contra htrue
      obtain ⟨other, hother, -⟩ := h.due_iff.mp (Bool.not_eq_false _ |>.mp htrue)
      cases hother
    simp [hpongs, hpending]
  · obtain ⟨rest, rfl⟩ := List.head?_eq_some_iff.mp hhead
    refine ⟨fun _ => List.cons_ne_nil _ _, fun _ => ?_⟩
    rcases h.answers message List.mem_cons_self with htrue | htrue
    · have hpongs : pongs ≠ [] := by
        rintro rfl
        have hcount := h.count
        rw [List.countP_cons_of_pos htrue] at hcount
        cases hcount
      rw [hpong, decide_eq_true_eq] at htrue
      simp [htrue, hpongs]
    · have hpending := h.due_iff.mpr ⟨message, List.mem_cons_self, htrue⟩
      rw [hclose, decide_eq_true_eq] at htrue
      simp [htrue, hpending]

theorem Follows.server (h : Follows closing pending pongs outstanding)
    (hplayed : playedMessage read entry = some message)
    (hhead : outstanding = [] ∨ outstanding.head? = some message) :
    Follows (closing || decide (entry.kind = .close))
      (pending && !takenForAnswer pending pongs entry.kind)
      (if entry.kind = .pong then pongs.tail else pongs) outstanding.tail := by
  have htaken := h.taken_iff hplayed hhead
  have hpong := isPong_played hplayed
  rcases hhead with rfl | hhead
  · have hpongs : pongs = [] := List.length_eq_zero_iff.mp h.count
    have hpending : pending = false := by
      by_contra htrue
      obtain ⟨other, hother, -⟩ := h.due_iff.mp (Bool.not_eq_false _ |>.mp htrue)
      cases hother
    subst hpongs hpending
    constructor
    · simp
    · simp
    · rintro _ ⟨⟩
    · rintro _ ⟨⟩
    · rintro ⟨⟩
  · obtain ⟨rest, rfl⟩ := List.head?_eq_some_iff.mp hhead
    rw [htaken.mpr (List.cons_ne_nil _ _), Bool.not_true, Bool.and_false, List.tail_cons]
    -- a close further back would have stood alone
    have hnone : ∀ other ∈ rest, isClose other = false := by
      intro other hother
      by_contra htrue
      have hsingle := h.alone other (List.mem_cons_of_mem _ hother)
        (Bool.not_eq_false _ |>.mp htrue)
      rw [(List.cons.inj hsingle).2] at hother
      cases hother
    constructor
    · have hcount := h.count
      rw [List.countP_cons] at hcount
      by_cases hkind : entry.kind = .pong
      · rw [hpong, decide_eq_true hkind, if_pos rfl] at hcount
        rw [if_pos hkind, List.length_tail, hcount, Nat.add_sub_cancel]
      · rw [hpong, decide_eq_false hkind, if_neg Bool.false_ne_true] at hcount
        rw [if_neg hkind, hcount, Nat.add_zero]
    · constructor
      · rintro ⟨⟩
      · rintro ⟨other, hother, htrue⟩
        rw [hnone other hother] at htrue
        cases htrue
    · intro other hother htrue
      rw [hnone other hother] at htrue
      cases htrue
    · exact fun other hother => h.answers other (List.mem_cons_of_mem _ hother)
    · rintro ⟨⟩

end

/-! ### One step of the script -/

section

variable {endpoint : Endpoint σ} {terminal : WebSocketTerminal} {state : ScriptState σ}
  {expected : WebSocketMessage} {rest : List WebSocketMessage} {got message : Message}
  {inbox : List Message} {delay : Nat}

theorem replay_nil :
    replayWebsocketScript codec read timing endpoint terminal state [] inbox =
      match terminal with
      | .cleanClose _ _ => (endpoint.flush state.peer).2
      | .abnormal _ => [] := by
  unfold replayWebsocketScript
  rfl

theorem replay_client (hdirection : expected.direction = .clientToServer) :
    replayWebsocketScript codec read timing endpoint terminal state (expected :: rest)
        (got :: inbox) =
      (endpoint.read state.peer got).2 ++
        if websocketMessageMatches codec read expected got = false then []
        else replayWebsocketScript codec read timing endpoint terminal
          (state.afterClient (endpoint.read state.peer got).1 read expected) rest inbox := by
  rw [replayWebsocketScript, hdirection]
  dsimp only
  split
  · rw [List.append_nil]
  · rfl

theorem replay_server (hdirection : expected.direction = .serverToClient)
    (hdelay : timing.delayNs (expected.deltaNs - state.previousDelta) state.accumulatedDelay =
      .ok delay)
    (hplayed : playedMessage read expected = some message) {given : σ × List Message}
    (hgiven : given =
      if takenForAnswer state.closeReplyPending state.automaticPongs expected.kind = true
      then endpoint.flush state.peer else endpoint.send state.peer message) :
    replayWebsocketScript codec read timing endpoint terminal state (expected :: rest) inbox =
      given.2 ++ replayWebsocketScript codec read timing endpoint terminal
        (state.afterServer given.1 delay expected) rest inbox := by
  conv_lhs => unfold replayWebsocketScript
  rw [hgiven]
  dsimp only
  rw [hdirection, hdelay, hplayed]

/-- A server message that cannot be played or has no accepted delay ends the script. -/
theorem replay_server_stopped (hdirection : expected.direction = .serverToClient)
    (hstop : playedMessage read expected = none ∨
      ∀ delay, timing.delayNs (expected.deltaNs - state.previousDelta) state.accumulatedDelay ≠
        .ok delay) :
    replayWebsocketScript codec read timing endpoint terminal state (expected :: rest) inbox =
      [] := by
  unfold replayWebsocketScript
  dsimp only
  rw [hdirection]
  dsimp only
  split
  · rename_i delay message hdelay hplayed
    rcases hstop with hnone | hno
    · rw [hplayed] at hnone
      cases hnone
    · exact absurd hdelay (hno delay)
  · rfl

theorem sends_client (hdirection : expected.direction = .clientToServer)
    {client : List Message} (hsends : Sends read (expected :: rest) client) :
    ∃ got inbox, client = got :: inbox ∧ playedMessage read expected = some got ∧
      Sends read rest inbox := by
  rw [Sends, playedFrom_cons, if_pos hdirection] at hsends
  obtain ⟨got, inbox, rfl, hgot, hinbox⟩ := List.map_eq_cons_iff.mp hsends
  exact ⟨got, inbox, rfl, hgot.symm, hinbox⟩

theorem sends_server (hdirection : expected.direction = .serverToClient)
    {client : List Message} (hsends : Sends read (expected :: rest) client) :
    Sends read rest client := by
  rw [Sends, playedFrom_cons, if_neg (by rw [hdirection]; rintro ⟨⟩)] at hsends
  exact hsends

theorem matchesItself_eq (hplayed : playedMessage read expected = some got) :
    matchesItself codec read expected = websocketMessageMatches codec read expected got := by
  rw [matchesItself, hplayed]

theorem uncut_client {previousDelta accumulatedDelay : Nat}
    (hdirection : expected.direction = .clientToServer) :
    Uncut codec read timing previousDelta accumulatedDelay (expected :: rest) ↔
      if matchesItself codec read expected = true then
        Uncut codec read timing previousDelta accumulatedDelay rest
      else entriesFrom .serverToClient rest = [] := by
  rw [Uncut, hdirection]

theorem uncut_server {previousDelta accumulatedDelay : Nat}
    (hdirection : expected.direction = .serverToClient) :
    Uncut codec read timing previousDelta accumulatedDelay (expected :: rest) ↔
      (playedMessage read expected).isSome = true ∧
        ∃ delay, timing.delayNs (expected.deltaNs - previousDelta) accumulatedDelay = .ok delay ∧
          Uncut codec read timing expected.deltaNs (saturatingAdd accumulatedDelay delay) rest := by
  rw [Uncut, hdirection]

theorem inOrder_client {closing : Bool} {outstanding : List Message}
    (hdirection : expected.direction = .clientToServer)
    (hplayed : playedMessage read expected = some got) :
    InOrder codec read closing outstanding (expected :: rest) ↔
      if matchesItself codec read expected = true then
        (expected.kind = .ping → (pingPayload read expected).isSome = true) ∧
          (expected.kind = .close → closing = false → outstanding = []) ∧
          InOrder codec read (closing || isClose got) (outstanding ++ answer closing got) rest
      else outstanding ++ answer closing got = [] := by
  rw [InOrder, hdirection]
  constructor
  · exact fun h => h got hplayed
  · intro h other hother
    obtain rfl := Option.some.inj (hplayed.symm.trans hother)
    exact h

theorem inOrder_server {closing : Bool} {outstanding : List Message}
    (hdirection : expected.direction = .serverToClient) :
    InOrder codec read closing outstanding (expected :: rest) ↔
      (outstanding = [] ∨ outstanding.head? = playedMessage read expected) ∧
        InOrder codec read (closing || decide (expected.kind = .close)) outstanding.tail rest := by
  rw [InOrder, hdirection]

end

/-! ### In order -/

section

variable {endpoint : Endpoint σ} {owed : σ → List Message} {closing : σ → Bool}
  {terminal : WebSocketTerminal}

theorem entriesFrom_cons_ne_nil {expected : WebSocketMessage} {rest : List WebSocketMessage} :
    entriesFrom expected.direction (expected :: rest) ≠ [] := by
  intro hnil
  exact entriesFrom_eq_nil_iff.mp hnil expected List.mem_cons_self rfl

theorem entriesFrom_rest {direction : WebSocketDirection} {expected : WebSocketMessage}
    {rest : List WebSocketMessage} (h : entriesFrom direction (expected :: rest) = []) :
    entriesFrom direction rest = [] :=
  entriesFrom_eq_nil_iff.mpr fun later hlater =>
    entriesFrom_eq_nil_iff.mp h later (List.mem_cons_of_mem _ hlater)

theorem entriesFrom_other {direction : WebSocketDirection} {expected : WebSocketMessage}
    {rest : List WebSocketMessage} (h : expected.direction ≠ direction) :
    entriesFrom direction (expected :: rest) = entriesFrom direction rest := by
  rw [entriesFrom, List.filter_cons, if_neg (by simpa using h), entriesFrom]

theorem SilentAfterClose.rest_eq_nil {expected : WebSocketMessage} {rest : List WebSocketMessage}
    (h : SilentAfterClose (expected :: rest)) (hkind : expected.kind = .close) :
    entriesFrom expected.direction rest = [] :=
  entriesFrom_eq_nil_iff.mpr fun later hlater =>
    (List.pairwise_cons.mp h).1 later hlater hkind

/-- Once a close has gone by, one of the two directions is silent. -/
def Closed (closing : Bool) (messages : List WebSocketMessage) : Prop :=
  closing = true →
    entriesFrom .serverToClient messages = [] ∨ entriesFrom .clientToServer messages = []

theorem Closed.next {before : Bool} {expected : WebSocketMessage} {rest : List WebSocketMessage}
    (h : Closed before (expected :: rest)) (hsilent : SilentAfterClose (expected :: rest)) :
    Closed (before || decide (expected.kind = .close)) rest := by
  intro hclosing
  rcases Bool.or_eq_true_iff.mp hclosing with hbefore | hkind
  · exact (h hbefore).imp entriesFrom_rest entriesFrom_rest
  · have hnil := hsilent.rest_eq_nil (of_decide_eq_true hkind)
    rcases hdirection : expected.direction with _ | _
    · rw [hdirection] at hnil
      exact .inr hnil
    · rw [hdirection] at hnil
      exact .inl hnil

theorem Closed.eq_false {before : Bool} {expected : WebSocketMessage}
    {rest : List WebSocketMessage} (h : Closed before (expected :: rest))
    (hdirection : expected.direction = .clientToServer)
    (hleft : entriesFrom .serverToClient rest ≠ []) : before = false := by
  by_contra htrue
  rcases h (Bool.not_eq_false _ |>.mp htrue) with hnil | hnil
  · exact hleft (entriesFrom_rest hnil)
  · rw [← hdirection] at hnil
    exact entriesFrom_cons_ne_nil hnil

/-- A message that the script gives next goes out next, where it is taken for an answer
exactly when answers are outstanding, and is then the oldest of them. -/
theorem given_next (hanswers : Answers endpoint owed closing) {early : List Message} {peer : σ}
    {message : Message} {taken : Bool}
    (hhead : early ++ owed peer = [] ∨ (early ++ owed peer).head? = some message)
    (htaken : taken = true ↔ early ++ owed peer ≠ [])
    (hclosing : taken = true → isClose message = true → closing peer = true)
    {given : σ × List Message}
    (hgiven : given = if taken = true then endpoint.flush peer else endpoint.send peer message) :
    ∃ later, early ++ given.2 = message :: later ∧
      later ++ owed given.1 = (early ++ owed peer).tail ∧
      closing given.1 = (closing peer || isClose message) := by
  rcases hhead with hnone | hhead
  · obtain ⟨hearly, hpeer⟩ := List.append_eq_nil_iff.mp hnone
    rw [if_neg fun htrue => htaken.mp htrue hnone] at hgiven
    obtain ⟨before, after, hout, howed⟩ := hanswers.send_owed peer message
    rw [hpeer] at howed
    obtain ⟨hsides, howed⟩ := List.append_eq_nil_iff.mp howed
    obtain ⟨hbefore, hafter⟩ := List.append_eq_nil_iff.mp hsides
    rw [hbefore, hafter] at hout
    rw [hgiven]
    refine ⟨[], ?_, ?_, ?_⟩
    · rw [hearly, hout]
      rfl
    · rw [howed, hnone]
      rfl
    · rw [hanswers.send_closing]
  · obtain ⟨later, hlater⟩ := List.head?_eq_some_iff.mp hhead
    have htrue : taken = true := htaken.mpr (by rw [hlater]; exact List.cons_ne_nil _ _)
    rw [if_pos htrue] at hgiven
    have hflush := hanswers.flush_owed peer
    have hfirst : early ++ (endpoint.flush peer).2 ≠ [] := by
      intro hnil
      obtain ⟨rfl, hnothing⟩ := List.append_eq_nil_iff.mp hnil
      refine hanswers.flush_due peer ?_ hnothing
      rw [← List.nil_append (owed peer), hlater]
      exact List.cons_ne_nil _ _
    obtain ⟨first, others, hothers⟩ := List.exists_cons_of_ne_nil hfirst
    have hall : first :: (others ++ owed (endpoint.flush peer).1) = message :: later := by
      rw [← List.cons_append, ← hothers, List.append_assoc, hflush, hlater]
    obtain ⟨rfl, hrest⟩ := List.cons.inj hall
    rw [hgiven]
    refine ⟨others, hothers, ?_, ?_⟩
    · rw [hrest, hlater]
      rfl
    · rw [hanswers.flush_closing]
      rcases hkind : isClose first with _ | _
      · rw [Bool.or_false]
      · rw [hclosing htrue hkind, Bool.true_or]

/-- The step for a server message puts it out next, whether it is an answer outstanding or
is sent. -/
theorem given_server (hanswers : Answers endpoint owed closing) {early : List Message}
    {state : ScriptState σ} {expected : WebSocketMessage} {message : Message}
    (hfollows : Follows (closing state.peer) state.closeReplyPending state.automaticPongs
      (early ++ owed state.peer))
    (hplayed : playedMessage read expected = some message)
    (hhead : early ++ owed state.peer = [] ∨ (early ++ owed state.peer).head? = some message)
    {given : σ × List Message}
    (hgiven : given =
      if takenForAnswer state.closeReplyPending state.automaticPongs expected.kind = true
      then endpoint.flush state.peer else endpoint.send state.peer message) :
    ∃ later, early ++ given.2 = message :: later ∧
      later ++ owed given.1 = (early ++ owed state.peer).tail ∧
      closing given.1 = (closing state.peer || decide (expected.kind = .close)) := by
  have htaken := hfollows.taken_iff hplayed hhead
  rw [← isClose_played hplayed]
  refine given_next hanswers hhead htaken ?_ hgiven
  intro htrue hclose
  rcases hhead with hnone | hhead
  · exact absurd hnone (htaken.mp htrue)
  · apply hfollows.closed
    exact hfollows.due_iff.mpr ⟨message, List.mem_of_mem_head? hhead, hclose⟩

/-- A conversation in order goes out as recorded. `early` are the answers that the endpoint
has given before their turn. -/
theorem delivered_from (hanswers : Answers endpoint owed closing)
    {messages : List WebSocketMessage} {inbox early : List Message} {state : ScriptState σ}
    (hsilent : SilentAfterClose messages)
    (huncut : Uncut codec read timing state.previousDelta state.accumulatedDelay messages)
    (horder : InOrder codec read (closing state.peer) (early ++ owed state.peer) messages)
    (hsends : Sends read messages inbox)
    (hfollows : entriesFrom .serverToClient messages ≠ [] →
      Follows (closing state.peer) state.closeReplyPending state.automaticPongs
        (early ++ owed state.peer))
    (hclosed : Closed (closing state.peer) messages) :
    (early ++ replayWebsocketScript codec read timing endpoint terminal state messages
        inbox).map some = playedFrom read .serverToClient messages := by
  induction messages generalizing inbox early state with
  | nil =>
      obtain ⟨rfl, hpeer⟩ := List.append_eq_nil_iff.mp horder
      have hflush := hanswers.flush_owed state.peer
      rw [hpeer] at hflush
      rw [replay_nil, List.nil_append, playedFrom, entriesFrom]
      cases terminal with
      | cleanClose code reason => rw [(List.append_eq_nil_iff.mp hflush).1]; rfl
      | abnormal cause => rfl
  | cons expected rest ih =>
      have hsilent' := (List.pairwise_cons.mp hsilent).2
      rcases hdirection : expected.direction with _ | _
      · obtain ⟨got, inbox, rfl, hplayed, hrest⟩ := sends_client hdirection hsends
        have hplayedFrom : playedFrom read .serverToClient (expected :: rest) =
            playedFrom read .serverToClient rest := by
          rw [playedFrom_cons, if_neg (by rw [hdirection]; rintro ⟨⟩)]
        have htaken := hanswers.read_owed state.peer got
        rw [uncut_client hdirection] at huncut
        rw [inOrder_client hdirection hplayed] at horder
        rw [replay_client hdirection, ← matchesItself_eq hplayed, hplayedFrom]
        by_cases hmatch : matchesItself codec read expected = true
        · rw [if_pos hmatch] at huncut horder
          obtain ⟨hping, hclose, horder⟩ := horder
          have howed : early ++ (endpoint.read state.peer got).2 ++
              owed (endpoint.read state.peer got).1 =
                early ++ owed state.peer ++ answer (closing state.peer) got := by
            rw [List.append_assoc, htaken, List.append_assoc]
          have hpeer := hanswers.read_closing state.peer got
          rw [if_neg (by rw [hmatch]; rintro ⟨⟩), ← List.append_assoc]
          refine ih hsilent' huncut ?_ hrest ?_ ?_
          · rw [ScriptState.afterClient, hpeer, howed]
            exact horder
          · intro hleft
            have hopen := hclosed.eq_false hdirection hleft
            have hleft' : entriesFrom .serverToClient (expected :: rest) ≠ [] := by
              rwa [entriesFrom_other (by rw [hdirection]; rintro ⟨⟩)]
            rw [ScriptState.afterClient, hpeer, howed]
            exact (hfollows hleft').client hopen hplayed hping fun hkind => hclose hkind hopen
          · rw [ScriptState.afterClient, hpeer, isClose_played hplayed]
            exact hclosed.next hsilent
        · rw [if_neg hmatch] at huncut horder
          rw [List.append_assoc] at horder
          obtain ⟨rfl, hnone⟩ := List.append_eq_nil_iff.mp horder
          rw [← htaken] at hnone
          rw [if_pos (Bool.not_eq_true _ |>.mp hmatch), (List.append_eq_nil_iff.mp hnone).1,
            entriesFrom_eq_nil.mp huncut]
          rfl
      · have hrest := sends_server hdirection hsends
        rw [uncut_server hdirection] at huncut
        obtain ⟨hplayed, delay, hdelay, huncut⟩ := huncut
        obtain ⟨message, hplayed⟩ := Option.isSome_iff_exists.mp hplayed
        rw [inOrder_server hdirection, hplayed] at horder
        obtain ⟨hhead, horder⟩ := horder
        have hfollows := hfollows (by rw [← hdirection]; exact entriesFrom_cons_ne_nil)
        obtain ⟨later, hout, howed, hpeer⟩ := given_server hanswers hfollows hplayed hhead rfl
        rw [playedFrom_cons, if_pos hdirection, hplayed, replay_server hdirection hdelay hplayed rfl,
          ← List.append_assoc, hout, List.cons_append, List.map_cons]
        congr 1
        refine ih hsilent' huncut ?_ hrest ?_ ?_
        · rw [ScriptState.afterServer, hpeer, howed]
          exact horder
        · intro _
          rw [ScriptState.afterServer, hpeer, howed]
          exact hfollows.server hplayed hhead
        · rw [ScriptState.afterServer, hpeer]
          exact hclosed.next hsilent

end

theorem follows_start : Follows false false [] [] where
  count := rfl
  due_iff := by simp
  alone := by rintro _ ⟨⟩
  answers := by rintro _ ⟨⟩
  closed := by rintro ⟨⟩

theorem delivered_of_inOrder {conversation : WebSocketConversation} {client : List Message}
    (hsilent : SilentAfterClose conversation.messages)
    (hsends : Sends read conversation.messages client)
    (huncut : Uncut codec read timing 0 0 conversation.messages)
    (horder : InOrder codec read false [] conversation.messages) :
    Delivered codec read timing conversation client := by
  intro σ endpoint owed closing hanswers
  have howed : [] ++ owed (ScriptState.start endpoint).peer = [] := hanswers.start_owed
  have hclosing : closing (ScriptState.start endpoint).peer = false := hanswers.start_closing
  rw [← List.nil_append (replayWebsocketScript _ _ _ _ _ _ _ _)]
  refine delivered_from hanswers hsilent huncut ?_ hsends ?_ ?_
  · rw [howed, hclosing]
    exact horder
  · intro _
    rw [howed, hclosing]
    exact follows_start
  · rw [hclosing]
    rintro ⟨⟩

end EggReplay.Http.ReplayDelivery
