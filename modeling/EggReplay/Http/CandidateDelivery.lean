import EggReplay.Http.CandidateScript
import EggReplay.Http.EndpointTimings

/-!
When the recorded client side reaches a candidate once. The two flags of the script follow
the answers outstanding as long as no two pongs are; an endpoint that answers as late as it
may and one that answers at once show that it has to be so.
-/

namespace EggReplay.Http.CandidateDelivery

open EggReplay.Library.Checks
open EggReplay.Library.Text
open EggReplay.Library.LossyText
open EggReplay.Core.FlowRecord
open EggReplay.Core.WebSockets
open EggReplay.Core.Redaction
open EggReplay.Core.BodyWildcards
open EggReplay.Core.Reports
open EggReplay.Http.WebSocketRelay
open EggReplay.Http.RelayTranscripts
open EggReplay.Http.WebSocketMatching
open EggReplay.Http.WebSocketReplay
open EggReplay.Http.ReplayDelivery
open EggReplay.Http.EndpointTimings
open EggReplay.Http.CandidateScript

variable {N σ : Type} {codec : BodyCodec N} {sha256 : Bytes → String} {read : ReadBlob}
  {tolerance : Option Nat} {clock : Clock} {terminal : WebSocketTerminal} {ending : Ending}

/-! ### The flags against the answers outstanding -/

/-- Each flag is set exactly where its answer is outstanding, and no answer is twice. -/
structure Tracks (closing pending automatic : Bool) (outstanding : List Message) : Prop where
  split : ∃ pongs closes, outstanding = pongs ++ closes ∧
    (∀ message ∈ pongs, isPong message = true) ∧ (∀ message ∈ closes, isClose message = true) ∧
    pongs.length = automatic.toNat ∧ closes.length = pending.toNat
  closed : pending = true → closing = true

theorem tracks_start : Tracks false false false [] where
  split := ⟨[], [], rfl, (by rintro _ ⟨⟩), (by rintro _ ⟨⟩), rfl, rfl⟩
  closed := by rintro ⟨⟩

theorem length_eq_zero_of_toNat {α : Type} {items : List α} (h : items.length = Bool.toNat false) :
    items = [] :=
  List.length_eq_zero_iff.mp h

section

variable {closing pending automatic : Bool} {outstanding : List Message}
  {entry : WebSocketMessage} {got message : Message}

theorem Tracks.of_nil (h : Tracks closing pending automatic []) :
    pending = false ∧ automatic = false := by
  obtain ⟨⟨pongs, closes, hsplit, -, -, hpongs, hcloses⟩, -⟩ := h
  obtain ⟨rfl, rfl⟩ := List.append_eq_nil_iff.mp hsplit.symm
  cases pending with
  | true => cases hcloses
  | false =>
      cases automatic with
      | true => cases hpongs
      | false => exact ⟨rfl, rfl⟩

theorem Tracks.before_close (h : Tracks closing pending automatic outstanding)
    (hclosing : closing = false) : pending = false := by
  by_contra htrue
  rw [h.closed (Bool.not_eq_false _ |>.mp htrue)] at hclosing
  cases hclosing

/-- A server message before any close adds the answer that its flag stands for. -/
theorem Tracks.server (h : Tracks closing pending automatic outstanding)
    (hclosing : closing = false) (hplayed : playedMessage read entry = some got)
    (hping : entry.kind = .ping → outstanding = []) :
    Tracks (closing || isClose got) (pending || decide (entry.kind = .close))
      (automatic || decide (entry.kind = .ping)) (outstanding ++ answer closing got) := by
  obtain rfl := h.before_close hclosing
  subst hclosing
  rcases playedMessage_cases hplayed with ⟨hkind, data, rfl⟩ | ⟨hkind, data, rfl⟩ |
    ⟨hkind, frame, rfl⟩ | ⟨hping', -, hclose', -, hgot, hanswer⟩
  · obtain rfl := hping hkind
    obtain ⟨-, rfl⟩ := h.of_nil
    rw [hkind]
    refine ⟨⟨[.pong data], [], rfl, ?_, (by rintro _ ⟨⟩), rfl, rfl⟩, (by rintro ⟨⟩)⟩
    intro message hmessage
    rw [List.mem_singleton.mp hmessage]
    rfl
  · rw [hkind]
    simpa [answer, isClose] using h
  · obtain ⟨⟨pongs, closes, rfl, hpongs, -, hcount, hnone⟩, -⟩ := h
    obtain rfl := length_eq_zero_of_toNat hnone
    rw [hkind, List.append_nil]
    refine ⟨⟨pongs, [.close frame], rfl, hpongs, ?_, ?_, rfl⟩, fun _ => rfl⟩
    · intro message hmessage
      rw [List.mem_singleton.mp hmessage]
      rfl
    · rw [decide_eq_false (by rintro ⟨⟩), Bool.or_false]
      exact hcount
  · rw [hanswer, hgot, decide_eq_false hclose', decide_eq_false hping']
    simpa using h

/-- The message that comes while answers are outstanding and is the oldest of them. -/
theorem Tracks.head_cases {rest : List Message}
    (h : Tracks closing pending automatic (message :: rest)) :
    (isPong message = true ∧ isClose message = false ∧ automatic = true ∧
        ∃ closes, rest = closes ∧ (∀ other ∈ closes, isClose other = true) ∧
          closes.length = pending.toNat) ∨
      (isClose message = true ∧ isPong message = false ∧ automatic = false ∧ pending = true ∧
        rest = []) := by
  obtain ⟨⟨pongs, closes, hsplit, hpongs, hcloses, hcount, hdue⟩, -⟩ := h
  cases pongs with
  | cons first others =>
      obtain ⟨rfl, rfl⟩ := List.cons.inj hsplit
      have hpong := hpongs message List.mem_cons_self
      cases automatic with
      | false => cases hcount
      | true =>
          obtain rfl : others = [] := List.length_eq_zero_iff.mp (Nat.succ.inj hcount)
          refine .inl ⟨hpong, ?_, rfl, closes, rfl, hcloses, hdue⟩
          cases message <;> first | rfl | cases hpong
  | nil =>
      rw [List.nil_append] at hsplit
      obtain rfl := hsplit
      have hclose := hcloses message List.mem_cons_self
      cases automatic with
      | true => cases hcount
      | false =>
          cases pending with
          | false => cases hdue
          | true =>
              refine .inr ⟨hclose, ?_, rfl, rfl, List.length_eq_zero_iff.mp (Nat.succ.inj hdue)⟩
              cases message <;> first | rfl | cases hclose

/-- A client message is taken for an answer exactly where answers are outstanding. -/
theorem takes_iff {state : CandidateState σ}
    (h : Tracks closing state.closeReplyPending state.autoPongPending outstanding)
    (hplayed : playedMessage read entry = some message)
    (hhead : outstanding = [] ∨ outstanding.head? = some message) :
    state.takes entry.kind = true ↔ outstanding ≠ [] := by
  rw [CandidateState.takes]
  rcases hhead with rfl | hhead
  · obtain ⟨hpending, hautomatic⟩ := h.of_nil
    rw [hpending, hautomatic, Bool.and_false, Bool.and_false]
    exact ⟨(by rintro ⟨⟩), fun hne => absurd rfl hne⟩
  · obtain ⟨rest, rfl⟩ := List.head?_eq_some_iff.mp hhead
    refine ⟨fun _ => List.cons_ne_nil _ _, fun _ => ?_⟩
    rw [← isClose_played hplayed, ← isPong_played hplayed]
    rcases h.head_cases with ⟨hpong, -, hautomatic, -⟩ | ⟨hclose, -, -, hpending, -⟩
    · rw [hpong, hautomatic]
      exact Bool.or_true _
    · rw [hclose, hpending]
      rfl

theorem Tracks.client (h : Tracks closing pending automatic outstanding)
    (hplayed : playedMessage read entry = some message)
    (hhead : outstanding = [] ∨ outstanding.head? = some message) :
    Tracks (closing || isClose message) (pending && !decide (entry.kind = .close))
      (automatic && !decide (entry.kind = .pong)) outstanding.tail := by
  rw [← isClose_played hplayed, ← isPong_played hplayed]
  have hstill : (pending && !isClose message) = true → (closing || isClose message) = true := by
    intro htrue
    rw [h.closed (Bool.and_eq_true_iff.mp htrue).1, Bool.true_or]
  refine ⟨?_, hstill⟩
  rcases hhead with rfl | hhead
  · obtain ⟨rfl, rfl⟩ := h.of_nil
    exact ⟨[], [], rfl, (by rintro _ ⟨⟩), (by rintro _ ⟨⟩), rfl, rfl⟩
  · obtain ⟨rest, rfl⟩ := List.head?_eq_some_iff.mp hhead
    rcases h.head_cases with ⟨hpong, hclose, -, closes, rfl, hcloses, hdue⟩ |
      ⟨hclose, hpong, hautomatic, -, rfl⟩
    · refine ⟨[], rest, rfl, (by rintro _ ⟨⟩), hcloses, ?_, ?_⟩
      · rw [hpong, Bool.not_true, Bool.and_false]
        rfl
      · rw [hclose, Bool.not_false, Bool.and_true]
        exact hdue
    · refine ⟨[], [], rfl, (by rintro _ ⟨⟩), (by rintro _ ⟨⟩), ?_, ?_⟩
      · rw [hautomatic]
        rfl
      · rw [hclose, Bool.not_true, Bool.and_false]
        rfl

end

/-! ### One step of the script -/

section

variable {connection : Connection σ} {owed : σ → List Message} {closing : σ → Bool}
  {state : CandidateState σ} {expected : WebSocketMessage} {rest : List WebSocketMessage}
  {got message : Message} {inbox : List Message}

theorem playedMessage_wsMessage (h : playedMessage read expected = some message) :
    ∃ payload, expectedPayload read expected = some payload ∧
      wsMessage expected.kind payload expected.closeCode expected.closeReason = message := by
  rw [playedMessage] at h
  rcases hpayload : expectedPayload read expected with _ | payload
  · rw [hpayload] at h
    cases h
  · rw [hpayload] at h
    dsimp only at h
    refine ⟨payload, rfl, ?_⟩
    rcases hkind : expected.kind with _ | _ | _ | _ | _
    · rw [hkind] at h
      obtain ⟨chars, hchars, rfl⟩ := Option.map_eq_some_iff.mp h
      rw [decodeUtf8_eq_some.mp hchars]
      exact congrArg Message.text (fromUtf8Lossy_utf8 chars)
    · rw [hkind] at h
      exact Option.some.inj h
    · rw [hkind] at h
      exact Option.some.inj h
    · rw [hkind] at h
      exact Option.some.inj h
    · rw [hkind] at h
      exact Option.some.inj h

theorem write_works (hworks : Works connection owed closing) (kind : WebSocketMessageKind) :
    write connection state kind message =
      .ok (if state.takes kind = true then connection.flush state.peer
        else connection.send state.peer message) := by
  rw [write, hworks.sends, hworks.flushes, CandidateState.takes]
  dsimp only
  by_cases hclose : kind = .close ∧ state.closeReplyPending = true
  · rw [if_pos hclose, if_pos]
    rw [decide_eq_true hclose.1, hclose.2]
    rfl
  · rw [if_neg hclose]
    by_cases hpong : kind = .pong ∧ state.autoPongPending = true
    · rw [if_pos hpong, if_pos]
      rw [decide_eq_true hpong.1, hpong.2]
      exact Bool.or_true _
    · rw [if_neg hpong, if_neg]
      intro htakes
      rcases Bool.or_eq_true_iff.mp htakes with htrue | htrue
      · obtain ⟨hkind, hpending⟩ := Bool.and_eq_true_iff.mp htrue
        exact hclose ⟨of_decide_eq_true hkind, hpending⟩
      · obtain ⟨hkind, hpending⟩ := Bool.and_eq_true_iff.mp htrue
        exact hpong ⟨of_decide_eq_true hkind, hpending⟩

theorem play_nil :
    playMessages codec sha256 read tolerance clock connection terminal ending state [] inbox =
      terminalCheck sha256 connection terminal ending state.peer inbox := by
  unfold playMessages
  rfl

theorem play_cut (hcut : conversationLimitNs ≤ clock.before state.index) :
    playMessages codec sha256 read tolerance clock connection terminal ending state
        (expected :: rest) inbox =
      (terminalCheck sha256 connection terminal ending state.peer inbox).report
        [wsFinding "terminal" "completed_within_limit" "duration_limit"] := by
  unfold playMessages
  exact if_pos hcut

theorem play_client (hworks : Works connection owed closing)
    (hcut : ¬conversationLimitNs ≤ clock.before state.index)
    (hdirection : expected.direction = .clientToServer)
    (hplayed : playedMessage read expected = some message) {given : σ × List Message}
    (hgiven : given =
      if state.takes expected.kind = true then connection.flush state.peer
      else connection.send state.peer message) :
    playMessages codec sha256 read tolerance clock connection terminal ending state
        (expected :: rest) inbox =
      ((playMessages codec sha256 read tolerance clock connection terminal ending
        (state.afterClient given.1 expected.kind) rest inbox).report
          (cadence tolerance (clock.after state.index) expected)).behind given.2 := by
  obtain ⟨payload, hpayload, hmessage⟩ := playedMessage_wsMessage hplayed
  conv_lhs => unfold playMessages
  rw [if_neg hcut, hdirection, hpayload]
  dsimp only
  rw [hmessage, write_works hworks, ← hgiven]

theorem play_server (hcut : ¬conversationLimitNs ≤ clock.before state.index)
    (hdirection : expected.direction = .serverToClient)
    (hmatch : candidateMessageMatches codec read expected got = true) :
    playMessages codec sha256 read tolerance clock connection terminal ending state
        (expected :: rest) (got :: inbox) =
      ((playMessages codec sha256 read tolerance clock connection terminal ending
        (state.afterServer (connection.read state.peer got).1 expected.kind) rest inbox).report
          (cadence tolerance (clock.after state.index) expected)).behind
            (connection.read state.peer got).2 := by
  conv_lhs => unfold playMessages
  rw [if_neg hcut, hdirection]
  dsimp only
  rw [if_neg (by rw [hmatch]; rintro ⟨⟩)]

/-- A server message that differs from its record is remarked on. -/
theorem play_mismatch (hcut : ¬conversationLimitNs ≤ clock.before state.index)
    (hdirection : expected.direction = .serverToClient)
    (hmatch : candidateMessageMatches codec read expected got = false) :
    ∃ finding, finding ∈ (playMessages codec sha256 read tolerance clock connection terminal
        ending state (expected :: rest) (got :: inbox)).findings ∧
      isMessageFinding finding = true := by
  unfold playMessages
  rw [if_neg hcut, hdirection]
  dsimp only
  rw [if_pos hmatch]
  refine ⟨_, List.mem_cons_self, ?_⟩
  exact startsWith_append "message." _

theorem serves_server (hdirection : expected.direction = .serverToClient) {served : List Message}
    (hserves : Serves read (expected :: rest) served) :
    ∃ got inbox, served = got :: inbox ∧ playedMessage read expected = some got ∧
      Serves read rest inbox := by
  rw [Serves, playedFrom_cons, if_pos hdirection] at hserves
  obtain ⟨got, inbox, rfl, hgot, hinbox⟩ := List.map_eq_cons_iff.mp hserves
  exact ⟨got, inbox, rfl, hgot.symm, hinbox⟩

theorem serves_client (hdirection : expected.direction = .clientToServer) {served : List Message}
    (hserves : Serves read (expected :: rest) served) : Serves read rest served := by
  rw [Serves, playedFrom_cons, if_neg (by rw [hdirection]; rintro ⟨⟩)] at hserves
  exact hserves

theorem cadence_onTime {observed : Nat} :
    (∀ finding ∈ cadence tolerance observed expected, isMessageFinding finding = false) ↔
      OnTime tolerance observed expected := by
  cases tolerance with
  | none => exact ⟨fun _ => (by rintro _ ⟨⟩), fun _ => (by rintro _ ⟨⟩)⟩
  | some limit =>
      have honly : OnTime (some limit) observed expected ↔
          absDiff observed expected.deltaNs ≤ limit :=
        ⟨fun h => h limit rfl, fun h other hother => by obtain rfl := Option.some.inj hother; exact h⟩
      rw [honly, cadence]
      split
      · rename_i hlate
        refine iff_of_false ?_ (Nat.not_le.mpr hlate)
        intro hnone
        have hfound := hnone _ List.mem_cons_self
        rw [isMessageFinding, wsFinding, messageField, String.append_assoc] at hfound
        rw [startsWith_append] at hfound
        cases hfound
      · rename_i hlimit
        exact ⟨fun _ => Nat.not_lt.mp hlimit, fun _ => (by rintro _ ⟨⟩)⟩

end

/-! ### Runs put together -/

section

variable {run : ScriptRun} {expected : WebSocketMessage} {rest : List WebSocketMessage}
  {message got : Message} {early sent later inbox : List Message} {remarks : List DiffFinding}

theorem exact_findings (hremarks : ∀ finding ∈ remarks, isMessageFinding finding = false) :
    (∀ finding ∈ remarks ++ run.findings, isMessageFinding finding = false) ↔
      ∀ finding ∈ run.findings, isMessageFinding finding = false := by
  rw [List.forall_mem_append]
  exact and_iff_right hremarks

/-- A recorded client message that goes out next. -/
theorem exact_client (hdirection : expected.direction = .clientToServer)
    (hplayed : playedMessage read expected = some message)
    (hout : early ++ sent = message :: later)
    (hremarks : ∀ finding ∈ remarks, isMessageFinding finding = false) :
    (((run.report remarks).behind sent).behind early).Exact read (expected :: rest) ↔
      (run.behind later).Exact read rest := by
  have hsent : early ++ (sent ++ run.sent) = message :: (later ++ run.sent) := by
    rw [← List.append_assoc, hout, List.cons_append]
  simp only [ScriptRun.Exact, ScriptRun.behind, ScriptRun.report]
  rw [hsent, playedFrom_cons, if_pos hdirection, hplayed, List.map_cons,
    exact_findings hremarks, List.cons.injEq]
  exact and_congr_right fun _ => and_congr_left fun _ => and_iff_right rfl

/-- What goes out with a server message is there for the client messages behind it. -/
theorem exact_server (hdirection : expected.direction = .serverToClient)
    (hremarks : ∀ finding ∈ remarks, isMessageFinding finding = false) :
    (((run.report remarks).behind sent).behind early).Exact read (expected :: rest) ↔
      (run.behind (early ++ sent)).Exact read rest := by
  simp only [ScriptRun.Exact, ScriptRun.behind, ScriptRun.report]
  rw [← List.append_assoc, playedFrom_cons, if_neg (by rw [hdirection]; rintro ⟨⟩),
    exact_findings hremarks]

theorem terminalCheck_reported (connection : Connection σ) (peer : σ) :
    (terminalCheck sha256 connection terminal ending peer inbox).aborted = false ∧
      ∀ finding ∈ (terminalCheck sha256 connection terminal ending peer inbox).findings,
        isMessageFinding finding = false := by
  have hterminal : ∀ baseline candidate,
      ∀ finding ∈ [wsFinding "terminal" baseline candidate], isMessageFinding finding = false := by
    intro baseline candidate finding hfinding
    rw [List.mem_singleton.mp hfinding]
    have hfield : startsWith "terminal" "message." = false := by decide
    exact hfield
  cases terminal with
  | cleanClose code reason => exact ⟨rfl, (by rintro _ ⟨⟩)⟩
  | abnormal cause =>
      cases inbox with
      | cons message inbox => exact ⟨rfl, hterminal _ _⟩
      | nil =>
          cases ending with
          | quiet => exact ⟨rfl, hterminal _ _⟩
          | eof => exact ⟨rfl, (by rintro _ ⟨⟩)⟩
          | failed error => exact ⟨rfl, (by rintro _ ⟨⟩)⟩

theorem limit_not_message :
    ∀ finding ∈ [wsFinding "terminal" "completed_within_limit" "duration_limit"],
      isMessageFinding finding = false := by
  decide

theorem terminalCheck_sent_nil (connection : Connection σ) (peer : σ) :
    (terminalCheck sha256 connection terminal ending peer []).sent = [] := by
  cases terminal <;> cases ending <;> rfl

/-- The read after the loop, where the message it gives is a recorded one. -/
theorem terminalCheck_sent (connection : Connection σ) (peer : σ)
    (hplayed : playedMessage read expected = some got) (closing : Bool) :
    ((terminalCheck sha256 connection terminal ending peer (got :: inbox)).sent = [] ∧
        lastAnswer read terminal closing expected = []) ∨
      ((terminalCheck sha256 connection terminal ending peer (got :: inbox)).sent =
          (connection.read peer got).2 ∧
        lastAnswer read terminal closing expected = answer closing got) := by
  cases terminal with
  | cleanClose code reason => exact .inl ⟨rfl, rfl⟩
  | abnormal cause =>
      refine .inr ⟨rfl, ?_⟩
      unfold lastAnswer
      rw [hplayed]

end

theorem playedFrom_eq_nil {direction : WebSocketDirection} {messages : List WebSocketMessage}
    (h : entriesFrom direction messages = []) : playedFrom read direction messages = [] :=
  entriesFrom_eq_nil.mp h

theorem server_of_no_client {expected : WebSocketMessage} {rest : List WebSocketMessage}
    (h : entriesFrom .clientToServer (expected :: rest) = []) :
    expected.direction = .serverToClient := by
  rcases hdirection : expected.direction with _ | _
  · rw [← hdirection] at h
    exact absurd h entriesFrom_cons_ne_nil
  · rfl

theorem Closed.before_server {before : Bool} {expected : WebSocketMessage}
    {rest : List WebSocketMessage} (h : Closed before (expected :: rest))
    (hdirection : expected.direction = .serverToClient)
    (hleft : entriesFrom .clientToServer rest ≠ []) : before = false := by
  by_contra htrue
  rcases h (Bool.not_eq_false _ |>.mp htrue) with hnil | hnil
  · rw [← hdirection] at hnil
    exact entriesFrom_cons_ne_nil hnil
  · exact hleft (entriesFrom_rest hnil)

/-! ### In turn -/

/-- A conversation in turn goes out once. `early` are the answers that the endpoint has
given before their turn. -/
theorem exact_from {connection : Connection σ} {owed : σ → List Message} {closing : σ → Bool}
    (hworks : Works connection owed closing) {messages : List WebSocketMessage}
    {inbox early : List Message} {state : CandidateState σ} (hsilent : SilentAfterClose messages)
    (hintact : Intact read messages) (hserves : Serves read messages inbox)
    (hunremarked : Unremarked codec read tolerance clock state.index messages)
    (hturn : InTurn read clock terminal state.index (closing state.peer)
      (early ++ owed state.peer) messages)
    (htracks : entriesFrom .clientToServer messages ≠ [] →
      Tracks (closing state.peer) state.closeReplyPending state.autoPongPending
        (early ++ owed state.peer))
    (hclosed : Closed (closing state.peer) messages) :
    ((playMessages codec sha256 read tolerance clock connection terminal ending state messages
      inbox).behind early).Exact read messages := by
  have hanswers := hworks.answers
  induction messages generalizing inbox early state with
  | nil =>
      obtain rfl : inbox = [] := List.map_eq_nil_iff.mp hserves
      obtain ⟨rfl, -⟩ := List.append_eq_nil_iff.mp hturn
      obtain ⟨haborted, hfindings⟩ :=
        @terminalCheck_reported σ sha256 terminal ending [] connection state.peer
      rw [play_nil]
      refine ⟨haborted, ?_, hfindings⟩
      rw [ScriptRun.behind, terminalCheck_sent_nil]
      rfl
  | cons expected rest ih =>
      have hsilent' := (List.pairwise_cons.mp hsilent).2
      have hintact' : Intact read rest := fun entry hentry =>
        hintact entry (List.mem_cons_of_mem _ hentry)
      rw [Unremarked] at hunremarked
      rw [InTurn] at hturn
      by_cases hcut : conversationLimitNs ≤ clock.before state.index
      · rw [if_pos hcut] at hunremarked hturn
        obtain ⟨got, inbox, rfl, hplayed, -⟩ :=
          serves_server (server_of_no_client hunremarked) hserves
        rw [List.append_assoc] at hturn
        obtain ⟨rfl, hlast⟩ := List.append_eq_nil_iff.mp hturn
        obtain ⟨haborted, hfindings⟩ :=
          @terminalCheck_reported σ sha256 terminal ending (got :: inbox) connection state.peer
        rw [play_cut hcut]
        refine ⟨haborted, ?_, (exact_findings limit_not_message).mpr hfindings⟩
        have hsent : (terminalCheck sha256 connection terminal ending state.peer
            (got :: inbox)).sent = [] := by
          rcases @terminalCheck_sent σ sha256 read terminal ending expected got inbox connection
            state.peer hplayed (closing state.peer) with ⟨hsent, -⟩ | ⟨hsent, hanswer⟩
          · exact hsent
          · have hread := hanswers.read_owed state.peer got
            rw [← hanswer, hlast] at hread
            rw [hsent]
            exact (List.append_eq_nil_iff.mp hread).1
        rw [playedFrom_eq_nil hunremarked]
        show ([] ++ (terminalCheck sha256 connection terminal ending state.peer
          (got :: inbox)).sent).map some = []
        rw [hsent]
        rfl
      · rw [if_neg hcut] at hunremarked hturn
        obtain ⟨hmatches, htime, hunremarked⟩ := hunremarked
        have hremarks := cadence_onTime.mpr htime
        rcases hdirection : expected.direction with _ | _
        · rw [hdirection] at hturn
          obtain ⟨hhead, hturn⟩ := hturn
          obtain ⟨message, hplayed⟩ :=
            Option.isSome_iff_exists.mp (hintact expected List.mem_cons_self)
          rw [hplayed] at hhead
          have htracks := htracks (by rw [← hdirection]; exact entriesFrom_cons_ne_nil)
          have htakes := takes_iff htracks hplayed hhead
          have hclosing : state.takes expected.kind = true → isClose message = true →
              closing state.peer = true := by
            intro htrue hclose
            apply htracks.closed
            rw [isClose_played hplayed, decide_eq_true_eq] at hclose
            rw [CandidateState.takes, hclose] at htrue
            simpa using htrue
          obtain ⟨later, hout, howed, hpeer⟩ :=
            given_next hanswers hhead htakes hclosing rfl
          rw [play_client hworks hcut hdirection hplayed rfl,
            exact_client hdirection hplayed hout hremarks]
          refine ih hsilent' hintact' (serves_client hdirection hserves) hunremarked ?_ ?_ ?_
          · rw [CandidateState.afterClient, hpeer, howed, isClose_played hplayed]
            exact hturn
          · intro _
            rw [CandidateState.afterClient, hpeer, howed]
            exact htracks.client hplayed hhead
          · rw [CandidateState.afterClient, hpeer, isClose_played hplayed]
            exact hclosed.next hsilent
        · rw [hdirection] at hturn
          obtain ⟨got, inbox, rfl, hplayed, hrest⟩ := serves_server hdirection hserves
          obtain ⟨hping, hturn⟩ := hturn got hplayed
          have hmatch : candidateMessageMatches codec read expected got = true := by
            rw [candidateMessageMatches_eq, ← matchesItself_eq hplayed]
            exact hmatches hdirection
          have hpeer := hanswers.read_closing state.peer got
          have howed : early ++ (connection.read state.peer got).2 ++
              owed (connection.read state.peer got).1 =
                early ++ owed state.peer ++ answer (closing state.peer) got := by
            rw [List.append_assoc, hanswers.read_owed, List.append_assoc]
          rw [play_server hcut hdirection hmatch, exact_server hdirection hremarks]
          refine ih hsilent' hintact' hrest hunremarked ?_ ?_ ?_
          · rw [CandidateState.afterServer, hpeer, howed]
            exact hturn
          · intro hleft
            have hopen := Closed.before_server hclosed hdirection hleft
            have hleft' : entriesFrom .clientToServer (expected :: rest) ≠ [] := by
              rwa [entriesFrom_other (by rw [hdirection]; rintro ⟨⟩)]
            rw [CandidateState.afterServer, hpeer, howed]
            exact (htracks hleft').server hopen hplayed hping
          · rw [CandidateState.afterServer, hpeer, isClose_played hplayed]
            exact hclosed.next hsilent

/-! ### As late as it may -/

def lateConnection : Connection (List Message × Bool) where
  toEndpoint := lateEndpoint
  sendFailure _ _ := none
  flushFailure _ := none

theorem lateConnection_works : Works lateConnection Prod.fst Prod.snd where
  answers := lateEndpoint_answers
  sends _ _ := rfl
  flushes _ := rfl

theorem late_given_length (peer : List Message × Bool) (taken : Bool) (message : Message) :
    (if taken = true then lateConnection.flush peer
      else lateConnection.send peer message).2.length ≤ 1 := by
  split
  · obtain ⟨items, closing⟩ := peer
    cases items with
    | nil => exact Nat.zero_le 1
    | cons first rest => exact Nat.le_refl 1
  · exact Nat.le_refl 1

/-- A run without a remark that gives as many messages as are recorded is not cut short. -/
theorem unremarked_of_late {messages : List WebSocketMessage} {inbox : List Message}
    {state : CandidateState (List Message × Bool)} (hintact : Intact read messages)
    (hserves : Serves read messages inbox) {run : ScriptRun}
    (hrun : run = playMessages codec sha256 read tolerance clock lateConnection terminal ending
      state messages inbox)
    (hfindings : ∀ finding ∈ run.findings, isMessageFinding finding = false)
    (hlength : (entriesFrom .clientToServer messages).length ≤ run.sent.length) :
    Unremarked codec read tolerance clock state.index messages := by
  induction messages generalizing inbox state run with
  | nil => trivial
  | cons expected rest ih =>
      have hintact' : Intact read rest := fun entry hentry =>
        hintact entry (List.mem_cons_of_mem _ hentry)
      rw [Unremarked]
      by_cases hcut : conversationLimitNs ≤ clock.before state.index
      · rw [if_pos hcut]
        have hsent : run.sent = [] := by
          rw [hrun, play_cut hcut]
          show (terminalCheck sha256 lateConnection terminal ending state.peer inbox).sent = []
          cases terminal with
          | cleanClose code reason => rfl
          | abnormal cause =>
              cases inbox with
              | cons message inbox => rfl
              | nil => cases ending <;> rfl
        rw [hsent] at hlength
        exact List.length_eq_zero_iff.mp (Nat.le_zero.mp hlength)
      · rw [if_neg hcut]
        rcases hdirection : expected.direction with _ | _
        · obtain ⟨message, hplayed⟩ :=
            Option.isSome_iff_exists.mp (hintact expected List.mem_cons_self)
          have hgiven := late_given_length state.peer (state.takes expected.kind) message
          revert hgiven
          generalize heq : (if state.takes expected.kind = true then lateConnection.flush state.peer
            else lateConnection.send state.peer message) = given
          intro hgiven
          rw [play_client lateConnection_works hcut hdirection hplayed heq.symm] at hrun
          subst hrun
          obtain ⟨hremarks, hlater⟩ := List.forall_mem_append.mp hfindings
          refine ⟨(by rintro ⟨⟩), cadence_onTime.mp hremarks, ?_⟩
          show Unremarked codec read tolerance clock
            (state.afterClient given.1 expected.kind).index rest
          refine ih hintact' (serves_client hdirection hserves) rfl hlater ?_
          rw [length_entriesFrom hdirection] at hlength
          simp only [ScriptRun.behind, ScriptRun.report, List.length_append] at hlength
          omega
        · obtain ⟨got, inbox, rfl, hplayed, hrest⟩ := serves_server hdirection hserves
          rcases hmatch : candidateMessageMatches codec read expected got with _ | _
          · obtain ⟨finding, hfinding, hremark⟩ :=
              @play_mismatch _ _ codec sha256 read tolerance clock terminal ending lateConnection
                state expected rest got inbox hcut hdirection hmatch
            rw [← hrun] at hfinding
            rw [hfindings finding hfinding] at hremark
            cases hremark
          · rw [play_server hcut hdirection hmatch] at hrun
            subst hrun
            obtain ⟨hremarks, hlater⟩ := List.forall_mem_append.mp hfindings
            refine ⟨fun _ => ?_, cadence_onTime.mp hremarks, ?_⟩
            · rw [matchesItself_eq hplayed, ← candidateMessageMatches_eq, hmatch]
            · show Unremarked codec read tolerance clock
                (state.afterServer (lateConnection.read state.peer got).1 expected.kind).index rest
              refine ih hintact' hrest rfl hlater ?_
              rw [entriesFrom_other (by rw [hdirection]; rintro ⟨⟩)] at hlength
              exact hlength

/-! ### At once -/

def promptConnection : Connection Bool where
  toEndpoint := promptEndpoint
  sendFailure _ _ := none
  flushFailure _ := none

theorem promptConnection_works : Works promptConnection (fun _ => []) id where
  answers := promptEndpoint_answers
  sends _ _ := rfl
  flushes _ := rfl

/-- The answers that the script takes to have been given. -/
def CandidateState.awaited (state : CandidateState Bool) : Nat :=
  state.autoPongPending.toNat + state.closeReplyPending.toNat

section

variable {state : CandidateState Bool} {expected : WebSocketMessage} {message got : Message}

/-- A client message is sent, or one fewer answer is awaited. -/
theorem awaited_client (peer : Bool) {given : Bool × List Message}
    (hgiven : given =
      if state.takes expected.kind = true then promptConnection.flush state.peer
      else promptConnection.send state.peer message) :
    CandidateState.awaited (state.afterClient peer expected.kind) + 1 ≤
      given.2.length + CandidateState.awaited state := by
  rw [CandidateState.afterClient, CandidateState.awaited, CandidateState.awaited]
  dsimp only
  have hclose := Bool.toNat_le (state.closeReplyPending)
  have hpong := Bool.toNat_le (state.autoPongPending)
  by_cases htakes : state.takes expected.kind = true
  · rw [CandidateState.takes, Bool.or_eq_true_iff, Bool.and_eq_true_iff, Bool.and_eq_true_iff,
      decide_eq_true_eq, decide_eq_true_eq] at htakes
    rcases htakes with ⟨hkind, hpending⟩ | ⟨hkind, hautomatic⟩
    · rw [hkind, hpending]
      show (state.autoPongPending && true).toNat + 0 + 1 ≤ given.2.length +
        (state.autoPongPending.toNat + 1)
      rw [Bool.and_true]
      omega
    · rw [hkind, hautomatic]
      show 0 + (state.closeReplyPending && true).toNat + 1 ≤ given.2.length +
        (1 + state.closeReplyPending.toNat)
      rw [Bool.and_true]
      omega
  · rw [if_neg htakes] at hgiven
    have hone : given.2.length = 1 := by
      rw [hgiven]
      rfl
    have hfewer : ∀ flag other : Bool, (flag && other).toNat ≤ flag.toNat := by decide
    have hclose' := hfewer state.closeReplyPending (!decide (expected.kind = .close))
    have hpong' := hfewer state.autoPongPending (!decide (expected.kind = .pong))
    omega

/-- Before a close a server message adds no more to the answers awaited than the endpoint
gives. -/
theorem awaited_server (peer : Bool) (hplayed : playedMessage read expected = some got) :
    CandidateState.awaited (state.afterServer peer expected.kind) ≤
      (answer false got).length + CandidateState.awaited state := by
  rw [CandidateState.afterServer, CandidateState.awaited, CandidateState.awaited]
  dsimp only
  have hmore : ∀ flag : Bool, (flag || true).toNat ≤ 1 + flag.toNat := by decide
  rcases playedMessage_cases hplayed with ⟨hkind, data, rfl⟩ | ⟨hkind, data, rfl⟩ |
    ⟨hkind, frame, rfl⟩ | ⟨hping, -, hclose, -, -, hanswer⟩
  · have hone : (answer false (.ping data)).length = 1 := rfl
    have hflag := hmore state.autoPongPending
    rw [hkind]
    show (state.autoPongPending || true).toNat + (state.closeReplyPending || false).toNat ≤ _
    rw [Bool.or_false]
    omega
  · rw [hkind]
    show (state.autoPongPending || false).toNat + (state.closeReplyPending || false).toNat ≤ _
    rw [Bool.or_false, Bool.or_false]
    exact Nat.le_add_left _ _
  · have hone : (answer false (.close frame)).length = 1 := rfl
    have hflag := hmore state.closeReplyPending
    rw [hkind]
    show (state.autoPongPending || false).toNat + (state.closeReplyPending || true).toNat ≤ _
    rw [Bool.or_false]
    omega
  · rw [decide_eq_false hping, decide_eq_false hclose, Bool.or_false, Bool.or_false]
    exact Nat.le_add_left _ _

end

/-- The client messages left go out, but for the answers awaited. -/
theorem prompt_sent {messages : List WebSocketMessage} {inbox : List Message}
    {state : CandidateState Bool} (hsilent : SilentAfterClose messages)
    (hintact : Intact read messages) (hserves : Serves read messages inbox)
    (hunremarked : Unremarked codec read tolerance clock state.index messages)
    (hclosed : Closed state.peer messages) :
    (entriesFrom .clientToServer messages).length ≤
      (playMessages codec sha256 read tolerance clock promptConnection terminal ending state
        messages inbox).sent.length + CandidateState.awaited state := by
  induction messages generalizing inbox state with
  | nil => exact Nat.zero_le _
  | cons expected rest ih =>
      have hsilent' := (List.pairwise_cons.mp hsilent).2
      have hintact' : Intact read rest := fun entry hentry =>
        hintact entry (List.mem_cons_of_mem _ hentry)
      rw [Unremarked] at hunremarked
      by_cases hcut : conversationLimitNs ≤ clock.before state.index
      · rw [if_pos hcut] at hunremarked
        rw [hunremarked]
        exact Nat.zero_le _
      · rw [if_neg hcut] at hunremarked
        obtain ⟨hmatches, -, hunremarked⟩ := hunremarked
        rcases hdirection : expected.direction with _ | _
        · obtain ⟨message, hplayed⟩ :=
            Option.isSome_iff_exists.mp (hintact expected List.mem_cons_self)
          rw [play_client promptConnection_works hcut hdirection hplayed rfl,
            length_entriesFrom hdirection]
          generalize hgiven : (if state.takes expected.kind = true
            then promptConnection.flush state.peer
            else promptConnection.send state.peer message) = given
          have hawaited := awaited_client given.1 hgiven.symm
          have hlater : Closed given.1 rest := by
            intro htrue
            refine hclosed.next hsilent ?_
            rw [← isClose_played hplayed]
            rw [← hgiven] at htrue
            split at htrue
            · exact Bool.or_eq_true_iff.mpr (.inl htrue)
            · exact htrue
          have hfewer : (entriesFrom .clientToServer rest).length ≤
              (playMessages codec sha256 read tolerance clock promptConnection terminal ending
                (state.afterClient given.1 expected.kind) rest inbox).sent.length +
              CandidateState.awaited (state.afterClient given.1 expected.kind) :=
            ih hsilent' hintact' (serves_client hdirection hserves) hunremarked hlater
          simp only [ScriptRun.behind, ScriptRun.report, List.length_append]
          omega
        · obtain ⟨got, inbox, rfl, hplayed, hrest⟩ := serves_server hdirection hserves
          rw [entriesFrom_other (by rw [hdirection]; rintro ⟨⟩)]
          by_cases hleft : entriesFrom .clientToServer rest = []
          · rw [hleft]
            exact Nat.zero_le _
          · have hmatch : candidateMessageMatches codec read expected got = true := by
              rw [candidateMessageMatches_eq, ← matchesItself_eq hplayed]
              exact hmatches hdirection
            have hopen := Closed.before_server hclosed hdirection hleft
            have hlater : Closed (state.peer || isClose got) rest := by
              rw [isClose_played hplayed]
              exact hclosed.next hsilent
            have hfewer : (entriesFrom .clientToServer rest).length ≤
                (playMessages codec sha256 read tolerance clock promptConnection terminal ending
                  (state.afterServer (promptConnection.read state.peer got).1 expected.kind) rest
                  inbox).sent.length +
                CandidateState.awaited
                  (state.afterServer (promptConnection.read state.peer got).1 expected.kind) :=
              ih hsilent' hintact' hrest hunremarked hlater
            have hawaited :=
              @awaited_server read state expected got (promptConnection.read state.peer got).1 hplayed
            have hgiven : (promptConnection.read state.peer got).2 = answer false got := by
              show answer state.peer got = _
              rw [hopen]
            rw [play_server hcut hdirection hmatch]
            simp only [ScriptRun.behind, ScriptRun.report, List.length_append]
            rw [hgiven]
            omega

/-- In a conversation that goes out once under answers given at once, the answers are
recorded where they are due, and no two pongs are outstanding. -/
theorem inTurn_of_prompt {messages : List WebSocketMessage} {inbox early : List Message}
    {state : CandidateState Bool} (hsilent : SilentAfterClose messages)
    (hintact : Intact read messages) (hserves : Serves read messages inbox)
    (hunremarked : Unremarked codec read tolerance clock state.index messages)
    (hclosed : Closed state.peer messages)
    (htracks : entriesFrom .clientToServer messages ≠ [] →
      Tracks state.peer state.closeReplyPending state.autoPongPending early)
    (hexact : ((playMessages codec sha256 read tolerance clock promptConnection terminal ending
      state messages inbox).behind early).Exact read messages) :
    InTurn read clock terminal state.index state.peer early messages := by
  induction messages generalizing inbox early state with
  | nil =>
      obtain ⟨-, hsent, -⟩ := hexact
      rw [ScriptRun.behind, List.map_append] at hsent
      exact List.map_eq_nil_iff.mp (List.append_eq_nil_iff.mp hsent).1
  | cons expected rest ih =>
      have hsilent' := (List.pairwise_cons.mp hsilent).2
      have hintact' : Intact read rest := fun entry hentry =>
        hintact entry (List.mem_cons_of_mem _ hentry)
      rw [Unremarked] at hunremarked
      rw [InTurn]
      by_cases hcut : conversationLimitNs ≤ clock.before state.index
      · rw [if_pos hcut] at hunremarked ⊢
        obtain ⟨got, inbox, rfl, hplayed, -⟩ :=
          serves_server (server_of_no_client hunremarked) hserves
        obtain ⟨-, hsent, -⟩ := hexact
        rw [play_cut hcut, playedFrom_eq_nil hunremarked] at hsent
        obtain ⟨rfl, hcheck⟩ := List.append_eq_nil_iff.mp (List.map_eq_nil_iff.mp hsent)
        have hchecked : (terminalCheck sha256 promptConnection terminal ending state.peer
            (got :: inbox)).sent = [] := hcheck
        rcases @terminalCheck_sent _ sha256 read terminal ending expected got inbox
          promptConnection state.peer hplayed state.peer with ⟨-, hlast⟩ | ⟨hread, hlast⟩
        · exact hlast
        · rw [List.nil_append, hlast]
          exact hread.symm.trans hchecked
      · rw [if_neg hcut] at hunremarked ⊢
        obtain ⟨hmatches, htime, hunremarked⟩ := hunremarked
        have hremarks := cadence_onTime.mpr htime
        rcases hdirection : expected.direction with _ | _
        · obtain ⟨message, hplayed⟩ :=
            Option.isSome_iff_exists.mp (hintact expected List.mem_cons_self)
          have htracks := htracks (by rw [← hdirection]; exact entriesFrom_cons_ne_nil)
          rw [play_client promptConnection_works hcut hdirection hplayed rfl] at hexact
          have hhead : early = [] ∨ early.head? = some message := by
            cases early with
            | nil => exact .inl rfl
            | cons first others =>
                obtain ⟨-, hsent, -⟩ := hexact
                rw [playedFrom_cons, if_pos hdirection, hplayed] at hsent
                exact .inr (List.cons.inj hsent).1
          rw [hplayed]
          refine ⟨hhead, ?_⟩
          have hhead' : early ++ [] = [] ∨ (early ++ []).head? = some message := by
            rw [List.append_nil]
            exact hhead
          have htakes : state.takes expected.kind = true ↔ early ++ [] ≠ [] := by
            rw [List.append_nil]
            exact takes_iff htracks hplayed hhead
          have hclosing : state.takes expected.kind = true → isClose message = true →
              state.peer = true := by
            intro htrue hclose
            apply htracks.closed
            rw [isClose_played hplayed, decide_eq_true_eq] at hclose
            rw [CandidateState.takes, hclose] at htrue
            simpa using htrue
          obtain ⟨later, hout, hlater, hpeer⟩ :=
            given_next promptConnection_works.answers hhead' htakes hclosing rfl
          rw [List.append_nil, List.append_nil] at hlater
          rw [id_eq, id_eq, isClose_played hplayed] at hpeer
          rw [exact_client hdirection hplayed hout hremarks] at hexact
          rw [← hlater, ← hpeer]
          refine ih hsilent' hintact' (serves_client hdirection hserves) hunremarked ?_ ?_ hexact
          · rw [CandidateState.afterClient, hpeer]
            exact hclosed.next hsilent
          · intro _
            have hnext := htracks.client hplayed hhead
            rw [isClose_played hplayed] at hnext
            rw [CandidateState.afterClient, hpeer, hlater]
            exact hnext
        · obtain ⟨got, inbox, rfl, hplayed, hrest⟩ := serves_server hdirection hserves
          have hmatch : candidateMessageMatches codec read expected got = true := by
            rw [candidateMessageMatches_eq, ← matchesItself_eq hplayed]
            exact hmatches hdirection
          have hlater : Closed (state.peer || isClose got) rest := by
            rw [isClose_played hplayed]
            exact hclosed.next hsilent
          have hopen : entriesFrom .clientToServer rest ≠ [] →
              Tracks state.peer state.closeReplyPending state.autoPongPending early ∧
                state.peer = false := by
            intro hleft
            refine ⟨htracks ?_, Closed.before_server hclosed hdirection hleft⟩
            rwa [entriesFrom_other (by rw [hdirection]; rintro ⟨⟩)]
          rw [play_server hcut hdirection hmatch, exact_server hdirection hremarks] at hexact
          have hping : expected.kind = .ping → early = [] := by
            intro hkind
            obtain ⟨data, rfl⟩ := played_ping hplayed hkind
            obtain ⟨-, hsent, -⟩ := hexact
            by_cases hleft : entriesFrom .clientToServer rest = []
            · rw [playedFrom_eq_nil hleft] at hsent
              have hnone := (List.append_eq_nil_iff.mp (List.map_eq_nil_iff.mp hsent)).1
              exact (List.append_eq_nil_iff.mp hnone).1
            · obtain ⟨htracks, hpeer⟩ := hopen hleft
              have hpending := htracks.before_close hpeer
              have hfewer : (entriesFrom .clientToServer rest).length ≤
                  (playMessages codec sha256 read tolerance clock promptConnection terminal ending
                    (state.afterServer (promptConnection.read state.peer (.ping data)).1
                      expected.kind) rest inbox).sent.length +
                  CandidateState.awaited
                    (state.afterServer (promptConnection.read state.peer (.ping data)).1
                      expected.kind) :=
                prompt_sent hsilent' hintact' hrest hunremarked hlater
              have hawaited : CandidateState.awaited
                  (state.afterServer (promptConnection.read state.peer (.ping data)).1
                    expected.kind) ≤ 1 := by
                rw [CandidateState.awaited, CandidateState.afterServer]
                dsimp only
                rw [hpending, hkind]
                exact Bool.toNat_le _
              have hone : (promptConnection.read state.peer (.ping data)).2.length = 1 := rfl
              rw [length_of_seen hsent, ScriptRun.behind, List.length_append,
                List.length_append, hone] at hfewer
              apply List.length_eq_zero_iff.mp
              omega
          intro other hother
          obtain rfl := Option.some.inj (hplayed.symm.trans hother)
          refine ⟨hping, ?_⟩
          refine ih hsilent' hintact' hrest hunremarked hlater ?_ hexact
          intro hleft
          exact (hopen hleft).1.server (hopen hleft).2 hplayed hping

/-! ### Sent once -/

/-- The client side of a conversation reaches the candidate once, under every endpoint,
exactly where nothing is remarked on and the endpoint's answers are recorded in turn. -/
theorem sentOnce_iff {limits : WebSocketLimits} {transcript : WebSocketTranscript}
    {conversation : WebSocketConversation} {served : List Message}
    (hvalid : transcript.validate limits = .ok ())
    (hmem : conversation ∈ transcript.conversations) (hintact : Intact read conversation.messages)
    (hserves : Serves read conversation.messages served) :
    SentOnce codec sha256 read tolerance clock conversation served ↔
      Unremarked codec read tolerance clock 0 conversation.messages ∧
        InTurn read clock conversation.terminal 0 false [] conversation.messages := by
  have hsilent := silentAfterClose_of_validate hvalid hmem
  constructor
  · intro hsent
    have hunremarked : Unremarked codec read tolerance clock
        (CandidateState.start lateConnection).index conversation.messages := by
      obtain ⟨-, hout, hfindings⟩ := hsent _ lateConnection _ _ .eof lateConnection_works
      exact unremarked_of_late hintact hserves rfl hfindings (length_of_seen hout).le
    have hturn : InTurn read clock conversation.terminal
        (CandidateState.start promptConnection).index (CandidateState.start promptConnection).peer []
        conversation.messages := by
      have hexact := hsent _ promptConnection _ _ .eof promptConnection_works
      have hopen : Closed (CandidateState.start promptConnection).peer conversation.messages :=
        fun hfalse => Bool.noConfusion hfalse
      exact inTurn_of_prompt hsilent hintact hserves hunremarked hopen (fun _ => tracks_start) hexact
    exact ⟨hunremarked, hturn⟩
  · rintro ⟨hunremarked, hturn⟩ σ connection owed closing ending hworks
    have howed : [] ++ owed (CandidateState.start connection).peer = [] :=
      hworks.answers.start_owed
    have hclosing : closing (CandidateState.start connection).peer = false :=
      hworks.answers.start_closing
    show ((playMessages codec sha256 read tolerance clock connection conversation.terminal ending
      (.start connection) conversation.messages served).behind []).Exact read conversation.messages
    refine exact_from hworks hsilent hintact hserves hunremarked ?_ ?_ ?_
    · rw [howed, hclosing]
      exact hturn
    · intro _
      rw [howed, hclosing]
      exact tracks_start
    · rw [hclosing]
      rintro ⟨⟩

/-! ### Pings -/

/-- The conversation in which the server sends pings, and then the client their pongs. -/
def pingsConversation (count : Nat) : WebSocketConversation where
  id := "ws"
  flowId := "one"
  offeredSubprotocols := []
  selectedSubprotocol := none
  messages :=
    (List.range count).map (fun sequence =>
      controlEntry sequence .serverToClient .ping (utf8 ['a'])) ++
    (List.range count).map fun sequence =>
      controlEntry (count + sequence) .clientToServer .pong (utf8 ['a'])
  terminal := .abnormal "eof"

def pingsTranscript (count : Nat) : WebSocketTranscript where
  schemaVersion := websocketSchemaVersion
  conversations := [pingsConversation count]

/-- The clock of a run that takes no time. -/
def stillClock : Clock where
  before _ := 0
  after _ := 0

theorem ping_sentOnce_iff :
    SentOnce letterCodec letterCodec.sha256 (fun _ => some (utf8 ['a'])) none stillClock
        (pingsConversation 1) [.ping (utf8 ['a'])] ↔
      Unremarked letterCodec (fun _ => some (utf8 ['a'])) none stillClock 0
          (pingsConversation 1).messages ∧
        InTurn (fun _ => some (utf8 ['a'])) stillClock (pingsConversation 1).terminal 0 false []
          (pingsConversation 1).messages := by
  have hvalid : (pingsTranscript 1).validate .default = .ok () := by decide
  have hmem : pingsConversation 1 ∈ (pingsTranscript 1).conversations := List.mem_singleton.mpr rfl
  have hintact : Intact (fun _ => some (utf8 ['a'])) (pingsConversation 1).messages := by
    unfold Intact
    decide
  exact sentOnce_iff hvalid hmem hintact (by decide)

/-- The second of two pongs outstanding goes out twice. -/
theorem second_pong_sent_twice :
    ¬∀ (read : ReadBlob) (transcript : WebSocketTranscript) (conversation : WebSocketConversation)
        (served : List Message),
      transcript.validate .default = .ok () → conversation ∈ transcript.conversations →
      Intact read conversation.messages → Serves read conversation.messages served →
      SentOnce letterCodec letterCodec.sha256 read none stillClock conversation served := by
  intro h
  have hintact : Intact (fun _ => some (utf8 ['a'])) (pingsConversation 2).messages := by
    unfold Intact
    decide
  have hexact := h (fun _ => some (utf8 ['a'])) (pingsTranscript 2) (pingsConversation 2)
    [.ping (utf8 ['a']), .ping (utf8 ['a'])] (by decide) (List.mem_singleton.mpr rfl)
    hintact (by decide) Bool promptConnection _ _ .eof promptConnection_works
  exact absurd hexact.2.1 (by decide)

end EggReplay.Http.CandidateDelivery
