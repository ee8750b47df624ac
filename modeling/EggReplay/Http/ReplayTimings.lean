import EggReplay.Http.ReplayDelivery

/-!
The delays of a replay: of the body of a response, by its timeline, and of the server messages of
a conversation.
-/

namespace EggReplay.Http.ReplayTimings

open EggReplay.Library.Checks
open EggReplay.Library.Text
open EggReplay.Core.FlowRecord
open EggReplay.Core.StreamTimeline
open EggReplay.Core.WebSockets
open EggReplay.Core.Redaction
open EggReplay.Core.BodyWildcards
open EggReplay.Http.WebSocketRelay
open EggReplay.Http.RelayTranscripts
open EggReplay.Http.WebSocketMatching
open EggReplay.Http.WebSocketReplay
open EggReplay.Http.ReplayDelivery

variable {N σ : Type}

/-! ### The schedule of a body -/

inductive TimedStreamStep where
  | data (delayNs length : Nat)
  | error (delayNs : Nat) (message : String)
  deriving DecidableEq, Repr

def TimedStreamStep.delayNs : TimedStreamStep → Nat
  | .data delay _ => delay
  | .error delay _ => delay

structure BodySchedule where
  steps : List TimedStreamStep := []
  previousDelta : Nat := 0
  accumulatedDelay : Nat := 0
  trailerDelay : Nat := 0
  terminalDelay : Nat := 0
  terminalError : Bool := false
  deriving DecidableEq, Repr

def BodySchedule.add (schedule : BodySchedule) (delay : Nat) : StreamEventKind → BodySchedule
  | .data _ length => { schedule with steps := schedule.steps ++ [.data delay length] }
  | .trailers _ => { schedule with trailerDelay := delay }
  | .error _ category phase =>
      { schedule with
        terminalError := true
        steps := schedule.steps ++
          [.error delay ("recorded stream error: " ++ category ++ "/" ++ phase)] }
  | .finish => { schedule with terminalDelay := delay }

def scheduleEvent (timing : StreamTimingMode) (schedule : BodySchedule) (event : StreamEvent) :
    Except String BodySchedule := do
  let delay ← timing.delayNs (event.deltaNs - schedule.previousDelta) schedule.accumulatedDelay
  pure (BodySchedule.add
    { schedule with
      previousDelta := event.deltaNs
      accumulatedDelay := saturatingAdd schedule.accumulatedDelay delay }
    delay event.event)

/-- The schedule that a stored body is streamed by; an error is answered with status 500. -/
def bodySchedule (timing : StreamTimingMode) (events : List StreamEvent) :
    Except String BodySchedule :=
  checkFold (scheduleEvent timing) {} events

/-- Nothing of the body has to wait. -/
structure BodySchedule.Prompt (schedule : BodySchedule) : Prop where
  steps : ∀ step ∈ schedule.steps, step.delayNs = 0
  trailers : schedule.trailerDelay = 0
  terminal : schedule.terminalDelay = 0

/-! ### The delays of a script -/

/-- The delays before the server messages, as the script computes them on its way. -/
def scriptDelays (timing : StreamTimingMode) :
    Nat → Nat → List WebSocketMessage → Except String (List Nat)
  | _, _, [] => .ok []
  | previousDelta, accumulatedDelay, expected :: rest =>
      match expected.direction with
      | .clientToServer => scriptDelays timing previousDelta accumulatedDelay rest
      | .serverToClient => do
          let delay ← timing.delayNs (expected.deltaNs - previousDelta) accumulatedDelay
          let later ← scriptDelays timing expected.deltaNs
            (saturatingAdd accumulatedDelay delay) rest
          pure (delay :: later)

def withoutTime (message : WebSocketMessage) : WebSocketMessage :=
  { message with deltaNs := 0 }

/-- The same messages with no time between them. -/
def atOnce (messages : List WebSocketMessage) : List WebSocketMessage :=
  messages.map withoutTime

/-! ### What is expected of the modes -/

/-- Without delays nothing is delayed or cut short, and with the recorded delays a body is as late
as it was recorded. -/
structure TimingHolds (conversation : WebSocketConversation) (response : List StreamEvent) :
    Prop where
  script_delays : ∃ delays, scriptDelays .immediate 0 0 conversation.messages = .ok delays ∧
    ∀ delay ∈ delays, delay = 0
  script_uncut : ∀ {N σ : Type} (codec : BodyCodec N) (read : ReadBlob) (endpoint : Endpoint σ)
    (client : List Message),
    replayWebsocketScript codec read .immediate endpoint conversation.terminal (.start endpoint)
        conversation.messages client =
      replayWebsocketScript codec read .immediate endpoint conversation.terminal (.start endpoint)
        (atOnce conversation.messages) client
  body_immediate : ∃ schedule, bodySchedule .immediate response = .ok schedule ∧ schedule.Prompt
  body_recorded : ∃ schedule, bodySchedule .recorded response = .ok schedule
  body_late : ∀ before event after, response = before ++ event :: after →
    ∃ schedule, bodySchedule .recorded (before ++ [event]) = .ok schedule ∧
      schedule.accumulatedDelay = event.deltaNs

/-- No server message comes more than the limit after the one before it, nor the first one after
the start. -/
def WithinLimit (messages : List WebSocketMessage) : Prop :=
  (0 :: (entriesFrom .serverToClient messages).map (·.deltaNs)).IsChain fun earlier later =>
    later - earlier ≤ maxStreamDelayNs

/-! ### Bodies -/

section

variable {timing : StreamTimingMode} {schedule next : BodySchedule} {event : StreamEvent}

theorem delayNs_eq_ok {delta accumulated delay : Nat} :
    timing.delayNs delta accumulated = .ok delay ↔
      delta ≤ maxStreamDelayNs ∧
        saturatingAdd accumulated (timing.scale delta) ≤ maxStreamTotalDelayNs ∧
        timing.scale delta = delay := by
  simp [StreamTimingMode.delayNs]

theorem scheduleEvent_eq_ok {delay : Nat}
    (h : timing.delayNs (event.deltaNs - schedule.previousDelta) schedule.accumulatedDelay =
      .ok delay) :
    scheduleEvent timing schedule event = .ok (BodySchedule.add
      { schedule with
        previousDelta := event.deltaNs
        accumulatedDelay := saturatingAdd schedule.accumulatedDelay delay }
      delay event.event) := by
  rw [scheduleEvent, h]
  rfl

theorem BodySchedule.previousDelta_add (delay : Nat) (kind : StreamEventKind) :
    (schedule.add delay kind).previousDelta = schedule.previousDelta := by
  cases kind with
  | data offset length => rfl
  | trailers fields => rfl
  | error offset category phase => rfl
  | finish => rfl

theorem BodySchedule.accumulatedDelay_add (delay : Nat) (kind : StreamEventKind) :
    (schedule.add delay kind).accumulatedDelay = schedule.accumulatedDelay := by
  cases kind with
  | data offset length => rfl
  | trailers fields => rfl
  | error offset category phase => rfl
  | finish => rfl

theorem BodySchedule.Prompt.snoc {step : TimedStreamStep} (h : schedule.Prompt)
    (hstep : step.delayNs = 0) : ∀ later ∈ schedule.steps ++ [step], later.delayNs = 0 := by
  intro later hlater
  rcases List.mem_append.mp hlater with hlater | hlater
  · exact h.steps later hlater
  · obtain rfl := List.mem_singleton.mp hlater
    exact hstep

theorem BodySchedule.Prompt.add (h : schedule.Prompt) (kind : StreamEventKind) :
    (schedule.add 0 kind).Prompt := by
  cases kind with
  | data offset length => exact ⟨h.snoc rfl, h.trailers, h.terminal⟩
  | trailers fields => exact ⟨h.steps, rfl, h.terminal⟩
  | error offset category phase => exact ⟨h.snoc rfl, h.trailers, h.terminal⟩
  | finish => exact ⟨h.steps, h.trailers, rfl⟩

/-- The validator lets the deltas of a direction grow up to the limit. -/
theorem validateEvent_delta {state after : DirectionState}
    (h : validateEvent state event = .ok after) :
    state.lastDelta ≤ event.deltaNs ∧ event.deltaNs ≤ maxStreamDelayNs ∧
      after.lastDelta = event.deltaNs := by
  obtain ⟨delta, kind⟩ := event
  cases kind with
  | data offset length =>
      obtain ⟨⟨-, hge, hle⟩, -, rfl⟩ := validateEvent_data_eq_ok.mp h
      exact ⟨hge, hle, rfl⟩
  | trailers fields =>
      obtain ⟨⟨-, hge, hle⟩, -, rfl⟩ := validateEvent_trailers_eq_ok.mp h
      exact ⟨hge, hle, rfl⟩
  | error offset category phase =>
      obtain ⟨⟨-, hge, hle⟩, -, rfl⟩ := validateEvent_error_eq_ok.mp h
      exact ⟨hge, hle, rfl⟩
  | finish =>
      obtain ⟨⟨-, hge, hle⟩, rfl⟩ := validateEvent_finish_eq_ok.mp h
      exact ⟨hge, hle, rfl⟩

/-- Without delays the schedule follows the validated events and stays at zero. -/
structure Immediate (state : DirectionState) (schedule : BodySchedule) : Prop where
  previous : schedule.previousDelta = state.lastDelta
  accumulated : schedule.accumulatedDelay = 0
  prompt : schedule.Prompt

/-- With the recorded delays the schedule is as late as the last validated event. -/
structure Punctual (state : DirectionState) (schedule : BodySchedule) : Prop where
  previous : schedule.previousDelta = state.lastDelta
  accumulated : schedule.accumulatedDelay = state.lastDelta

theorem Immediate.step {state after : DirectionState} (h : Immediate state schedule)
    (hevent : validateEvent state event = .ok after) :
    ∃ next, scheduleEvent .immediate schedule event = .ok next ∧ Immediate after next := by
  obtain ⟨hge, hle, hafter⟩ := validateEvent_delta hevent
  have hdelay : StreamTimingMode.immediate.delayNs (event.deltaNs - schedule.previousDelta)
      schedule.accumulatedDelay = .ok 0 := by
    refine delayNs_eq_ok.mpr ⟨by omega, ?_, rfl⟩
    rw [h.accumulated, StreamTimingMode.scale]
    decide
  refine ⟨_, scheduleEvent_eq_ok hdelay, ?_, ?_, ?_⟩
  · rw [BodySchedule.previousDelta_add, hafter]
  · rw [BodySchedule.accumulatedDelay_add, h.accumulated]
    rfl
  · apply BodySchedule.Prompt.add
    exact ⟨h.prompt.steps, h.prompt.trailers, h.prompt.terminal⟩

theorem Punctual.step {state after : DirectionState} (h : Punctual state schedule)
    (hevent : validateEvent state event = .ok after) :
    ∃ next, scheduleEvent .recorded schedule event = .ok next ∧ Punctual after next := by
  obtain ⟨hge, hle, hafter⟩ := validateEvent_delta hevent
  have hsum : saturatingAdd schedule.accumulatedDelay
      (event.deltaNs - schedule.previousDelta) = event.deltaNs := by
    have hmax : maxStreamDelayNs ≤ u64Max := by decide
    rw [h.accumulated, h.previous, saturatingAdd_of_le (by omega)]
    omega
  have hdelay : StreamTimingMode.recorded.delayNs (event.deltaNs - schedule.previousDelta)
      schedule.accumulatedDelay = .ok (event.deltaNs - schedule.previousDelta) := by
    have hmax : maxStreamDelayNs ≤ maxStreamTotalDelayNs := by decide
    refine delayNs_eq_ok.mpr ⟨by omega, ?_, rfl⟩
    rw [StreamTimingMode.scale, hsum]
    omega
  refine ⟨_, scheduleEvent_eq_ok hdelay, ?_, ?_⟩
  · rw [BodySchedule.previousDelta_add, hafter]
  · rw [BodySchedule.accumulatedDelay_add, hafter]
    exact hsum

end

section

variable {events : List StreamEvent}

theorem bodySchedule_immediate (h : validateDirection events = .ok ()) :
    ∃ schedule, bodySchedule .immediate events = .ok schedule ∧ schedule.Prompt := by
  obtain ⟨final, hfinal⟩ := validateDirection_eq_ok.mp h
  have hstart : Immediate {} {} :=
    ⟨rfl, rfl, fun step hstep => absurd hstep List.not_mem_nil, rfl, rfl⟩
  have hstep : ∀ state schedule event after, Immediate state schedule →
      validateEvent state event = .ok after →
        ∃ next, scheduleEvent .immediate schedule event = .ok next ∧ Immediate after next :=
    fun _ _ _ _ => Immediate.step
  obtain ⟨schedule, hschedule, himmediate⟩ := checkFold_simulation Immediate hstep hstart hfinal
  exact ⟨schedule, hschedule, himmediate.prompt⟩

theorem bodySchedule_recorded {final : DirectionState}
    (h : checkFold validateEvent {} events = .ok final) :
    ∃ schedule, bodySchedule .recorded events = .ok schedule ∧
      schedule.accumulatedDelay = final.lastDelta := by
  have hstart : Punctual {} {} := ⟨rfl, rfl⟩
  have hstep : ∀ state schedule event after, Punctual state schedule →
      validateEvent state event = .ok after →
        ∃ next, scheduleEvent .recorded schedule event = .ok next ∧ Punctual after next :=
    fun _ _ _ _ => Punctual.step
  obtain ⟨schedule, hschedule, hpunctual⟩ := checkFold_simulation Punctual hstep hstart h
  exact ⟨schedule, hschedule, hpunctual.accumulated⟩

/-- The accumulated delay after an event is its recorded delta. -/
theorem bodySchedule_recorded_late {before after : List StreamEvent} {event : StreamEvent}
    (h : validateDirection (before ++ event :: after) = .ok ()) :
    ∃ schedule, bodySchedule .recorded (before ++ [event]) = .ok schedule ∧
      schedule.accumulatedDelay = event.deltaNs := by
  obtain ⟨final, hfinal⟩ := validateDirection_eq_ok.mp h
  rw [checkFold_append, bind_eq_ok] at hfinal
  obtain ⟨reached, hreached, hrest⟩ := hfinal
  rw [checkFold_cons, bind_eq_ok] at hrest
  obtain ⟨next, hnext, -⟩ := hrest
  have hprefix : checkFold validateEvent {} (before ++ [event]) = .ok next := by
    rw [checkFold_append, hreached, ok_bind, checkFold_cons, hnext]
    rfl
  obtain ⟨schedule, hschedule, hlate⟩ := bodySchedule_recorded hprefix
  exact ⟨schedule, hschedule, hlate.trans (validateEvent_delta hnext).2.2⟩

theorem validateDirection_of_validate {timelines : StreamEvents} {flow : FlowStreamEvents}
    (h : timelines.validate = .ok ()) (hflow : flow ∈ timelines.flows) :
    validateDirection flow.response = .ok () := by
  obtain ⟨-, -, totals, htotals⟩ := streamEvents_validate_eq_ok.mp h
  obtain ⟨before, after, hstep⟩ := exists_check_of_mem htotals hflow
  exact (validateFlowEvents_eq_ok.mp hstep).2.2.2.2.1

end

/-! ### Scripts -/

section

variable {messages : List WebSocketMessage} {previousDelta : Nat}

theorem scriptDelays_immediate_iff :
    (∃ delays, scriptDelays .immediate previousDelta 0 messages = .ok delays ∧
        ∀ delay ∈ delays, delay = 0) ↔
      (previousDelta :: (entriesFrom .serverToClient messages).map (·.deltaNs)).IsChain
        fun earlier later => later - earlier ≤ maxStreamDelayNs := by
  induction messages generalizing previousDelta with
  | nil =>
      constructor
      · intro _
        exact List.isChain_singleton _
      · intro _
        exact ⟨[], rfl, fun delay hdelay => absurd hdelay List.not_mem_nil⟩
  | cons expected rest ih =>
      rw [scriptDelays, entriesFrom, List.filter_cons]
      cases hdirection : expected.direction with
      | clientToServer =>
          rw [if_neg (by decide)]
          exact ih
      | serverToClient =>
          rw [if_pos (by decide), List.map_cons, List.isChain_cons_cons]
          have hzero : saturatingAdd 0 0 = 0 := rfl
          constructor
          · rintro ⟨delays, hdelays, hnone⟩
            simp only [bind_eq_ok, pure_eq_ok, delayNs_eq_ok] at hdelays
            obtain ⟨delay, ⟨hgap, -, rfl⟩, later, hlater, rfl⟩ := hdelays
            rw [StreamTimingMode.scale, hzero] at hlater
            refine ⟨hgap, ih.mp ⟨later, hlater, ?_⟩⟩
            intro delay hdelay
            exact hnone delay (List.mem_cons_of_mem _ hdelay)
          · rintro ⟨hgap, hchain⟩
            obtain ⟨later, hlater, hnone⟩ := ih.mpr hchain
            have hdelay : StreamTimingMode.immediate.delayNs (expected.deltaNs - previousDelta) 0 =
                .ok 0 := by
              refine delayNs_eq_ok.mpr ⟨hgap, ?_, rfl⟩
              rw [StreamTimingMode.scale]
              decide
            refine ⟨0 :: later, ?_, ?_⟩
            · dsimp only
              rw [hdelay, ok_bind, hzero, hlater]
              rfl
            · intro delay hdelay
              rcases List.mem_cons.mp hdelay with rfl | hdelay
              · rfl
              · exact hnone delay hdelay

def ScriptState.withoutTime (state : ScriptState σ) : ScriptState σ :=
  { state with previousDelta := 0 }

/-- Where the delays are accepted, the script runs as it does with no time between the
messages. -/
theorem replayWebsocketScript_atOnce (codec : BodyCodec N) (read : ReadBlob)
    (endpoint : Endpoint σ) (terminal : WebSocketTerminal) {state : ScriptState σ}
    (hzero : state.accumulatedDelay = 0)
    (h : (state.previousDelta :: (entriesFrom .serverToClient messages).map (·.deltaNs)).IsChain
      fun earlier later => later - earlier ≤ maxStreamDelayNs) (client : List Message) :
    replayWebsocketScript codec read .immediate endpoint terminal state messages client =
      replayWebsocketScript codec read .immediate endpoint terminal
        (ScriptState.withoutTime state) (atOnce messages) client := by
  induction messages generalizing state client with
  | nil =>
      rw [atOnce, List.map_nil, replay_nil, replay_nil]
      rfl
  | cons expected rest ih =>
      rw [atOnce, List.map_cons]
      rw [entriesFrom, List.filter_cons] at h
      cases hdirection : expected.direction with
      | clientToServer =>
          have hsame : (withoutTime expected).direction = .clientToServer := hdirection
          rw [hdirection, if_neg (by decide)] at h
          cases client with
          | nil => rw [replayWebsocketScript, replayWebsocketScript, hdirection, hsame]
          | cons got inbox =>
              have hmatches : websocketMessageMatches codec read (withoutTime expected) got =
                  websocketMessageMatches codec read expected got := rfl
              have hpeer : (ScriptState.withoutTime state).peer = state.peer := rfl
              rw [replay_client hdirection, replay_client hsame, hmatches, hpeer]
              split
              · rfl
              · apply congrArg
                let peer := (endpoint.read state.peer got).1
                have hrest := @ih (state.afterClient peer read expected) hzero h inbox
                exact hrest
      | serverToClient =>
          have hsame : (withoutTime expected).direction = .serverToClient := hdirection
          rw [hdirection, if_pos (by decide), List.map_cons, List.isChain_cons_cons] at h
          have hdelay : ∀ delta, delta ≤ maxStreamDelayNs →
              StreamTimingMode.immediate.delayNs delta state.accumulatedDelay = .ok 0 := by
            intro delta hdelta
            refine delayNs_eq_ok.mpr ⟨hdelta, ?_, rfl⟩
            rw [hzero, StreamTimingMode.scale]
            decide
          cases hplayed : playedMessage read expected with
          | none =>
              have hplayed' : playedMessage read (withoutTime expected) = none := hplayed
              rw [replay_server_stopped hdirection (.inl hplayed),
                replay_server_stopped hsame (.inl hplayed')]
          | some message =>
              have hplayed' : playedMessage read (withoutTime expected) = some message := hplayed
              have hatStart := hdelay ((withoutTime expected).deltaNs -
                (ScriptState.withoutTime state).previousDelta) (Nat.zero_le _)
              rw [replay_server hdirection (hdelay _ h.1) hplayed rfl,
                replay_server hsame hatStart hplayed' rfl]
              apply congrArg
              refine ih ?_ h.2 client
              rw [ScriptState.afterServer, hzero]
              rfl

/-- A script is delayed and cut short for no reason of timing without delays, and a validated body
keeps its recorded times, exactly where no server message comes more than the limit after the one
before it. -/
theorem timing_holds_iff (conversation : WebSocketConversation) {timelines : StreamEvents}
    {flow : FlowStreamEvents} (htimelines : timelines.validate = .ok ())
    (hflow : flow ∈ timelines.flows) :
    TimingHolds conversation flow.response ↔ WithinLimit conversation.messages := by
  have hresponse := validateDirection_of_validate htimelines hflow
  constructor
  · intro h
    exact scriptDelays_immediate_iff.mp h.script_delays
  · intro h
    obtain ⟨final, hfinal⟩ := validateDirection_eq_ok.mp hresponse
    obtain ⟨schedule, hschedule, -⟩ := bodySchedule_recorded hfinal
    refine ⟨scriptDelays_immediate_iff.mpr h, ?_, bodySchedule_immediate hresponse,
      ⟨schedule, hschedule⟩, ?_⟩
    · intro N σ codec read endpoint client
      have hstart : (ScriptState.start endpoint).accumulatedDelay = 0 := rfl
      exact replayWebsocketScript_atOnce codec read endpoint conversation.terminal hstart h client
    · intro before event after hsplit
      rw [hsplit] at hresponse
      exact bodySchedule_recorded_late hresponse

end

/-! ### A conversation that pauses -/

/-- One text message of the server, after a pause. -/
def pausedConversation (pause : Nat) : WebSocketConversation where
  id := "ws"
  flowId := "one"
  offeredSubprotocols := []
  selectedSubprotocol := none
  messages := [{
    sequence := 0
    direction := .serverToClient
    deltaNs := pause
    kind := .text
    payload := none
    closeCode := none
    closeReason := none
    redactions := [] }]
  terminal := .abnormal "eof"

def pausedTranscript (pause : Nat) : WebSocketTranscript where
  schemaVersion := websocketSchemaVersion
  conversations := [pausedConversation pause]

def emptyTimeline : FlowStreamEvents where
  flowId := "one"
  startOffsetNs := 0
  request := []
  response := []

def emptyTimelines : StreamEvents where
  schemaVersion := streamEventsSchemaVersion
  flows := [emptyTimeline]

/-- The server is silent for 61 seconds before its first message. -/
theorem paused_conversation_cut :
    ¬ ∀ (transcript : WebSocketTranscript) (conversation : WebSocketConversation)
      (timelines : StreamEvents) (flow : FlowStreamEvents),
      transcript.validate .default = .ok () → conversation ∈ transcript.conversations →
        timelines.validate = .ok () → flow ∈ timelines.flows →
          TimingHolds conversation flow.response := by
  intro h
  have hholds := h (pausedTranscript 61000000000) (pausedConversation 61000000000) emptyTimelines
    emptyTimeline (by decide) (List.mem_singleton.mpr rfl) (by decide)
    (List.mem_singleton.mpr rfl)
  obtain ⟨delays, hdelays, -⟩ := hholds.script_delays
  cases hdelays

theorem short_pause_timing_holds :
    TimingHolds (pausedConversation 59000000000) emptyTimeline.response :=
  (timing_holds_iff (pausedConversation 59000000000)
    (by decide : emptyTimelines.validate = .ok ()) (List.mem_singleton.mpr rfl)).mpr
    (List.isChain_cons_cons.mpr ⟨by decide, List.isChain_singleton _⟩)

end EggReplay.Http.ReplayTimings
