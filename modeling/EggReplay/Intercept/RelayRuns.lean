import EggReplay.Core.StreamTimeline
import EggReplay.Intercept.Tunnels

/-!
One opaque relay, step by step: the metered reads of its two directions, the bytes written
onward, and the race of the copying task with the two deadlines, from whose end the outcome is
classified after the fact.
-/

namespace EggReplay.Intercept.RelayRuns

open EggReplay.Core.StreamTimeline
open EggReplay.Intercept.Tunnels
open EggReplay.Library.TransitionSystem

/-! ### The copying task -/

/-- One direction: its atomic counter, the bytes read and written onward, and those in the
buffer between. -/
structure Meter where
  counted : Nat
  read : Nat
  buffered : Nat
  written : Nat
  deriving DecidableEq, Repr

def Meter.empty : Meter := { counted := 0, read := 0, buffered := 0, written := 0 }

/-- A task that is to be aborted runs on to where it next yields. -/
inductive CopyPhase where
  | live
  | stopping
  | finished (result : CopyEnd)
  | dropped
  deriving DecidableEq, Repr

def CopyPhase.runs : CopyPhase → Bool
  | .live | .stopping => true
  | .finished _ | .dropped => false

def CopyPhase.abort : CopyPhase → CopyPhase
  | .live => .stopping
  | .stopping => .stopping
  | .finished result => .finished result
  | .dropped => .dropped

/-- Where `relay_tunnel` stands: the race, its end, the classification and the summary. -/
inductive RelayPhase where
  | selecting
  | ended (cause : RelayEnd)
  | aborted (cause : RelayEnd)
  | classified (outcome : TunnelOutcome) (up down : Nat)
  | returned (summary : TunnelRelaySummary)
  deriving DecidableEq, Repr

structure Relay where
  client : Meter
  upstream : Meter
  limitHit : Bool
  copy : CopyPhase
  phase : RelayPhase
  deriving DecidableEq, Repr

def Relay.start : Relay where
  client := .empty
  upstream := .empty
  limitHit := false
  copy := .live
  phase := .selecting

def Relay.bytesRead (relay : Relay) : Nat := relay.client.read + relay.upstream.read
def Relay.bytesWritten (relay : Relay) : Nat := relay.client.written + relay.upstream.written
def Relay.bytesBuffered (relay : Relay) : Nat := relay.client.buffered + relay.upstream.buffered

inductive RelayAction where
  | read (fromClient : Bool) (fresh : Nat)
  | write (fromClient : Bool) (bytes : Nat)
  | copyEnds (result : CopyEnd)
  | drop
  | raceEnds (cause : RelayEnd)
  | abort
  | classify
  | summarize (durationMs : Nat)
  deriving DecidableEq, Repr

def Relay.meter (relay : Relay) : Bool → Meter
  | true => relay.client
  | false => relay.upstream

def Relay.withMeter (relay : Relay) (meter : Meter) : Bool → Relay
  | true => { relay with client := meter }
  | false => { relay with upstream := meter }

section

variable (relay : Relay) (meter : Meter) (side : Bool)

@[simp] theorem withMeter_phase : (relay.withMeter meter side).phase = relay.phase := by
  cases side with
  | true => rfl
  | false => rfl

@[simp] theorem withMeter_copy : (relay.withMeter meter side).copy = relay.copy := by
  cases side with
  | true => rfl
  | false => rfl

@[simp] theorem withMeter_limitHit : (relay.withMeter meter side).limitHit = relay.limitHit := by
  cases side with
  | true => rfl
  | false => rfl

theorem withMeter_read :
    (relay.withMeter meter side).bytesRead = meter.read + (relay.meter (!side)).read := by
  cases side with
  | true => rfl
  | false => exact Nat.add_comm _ _

theorem withMeter_written :
    (relay.withMeter meter side).bytesWritten =
      meter.written + (relay.meter (!side)).written := by
  cases side with
  | true => rfl
  | false => exact Nat.add_comm _ _

theorem withMeter_buffered :
    (relay.withMeter meter side).bytesBuffered =
      meter.buffered + (relay.meter (!side)).buffered := by
  cases side with
  | true => rfl
  | false => exact Nat.add_comm _ _

/-- The total over both directions, from either of them. -/
theorem bytesRead_eq :
    relay.bytesRead = (relay.meter side).read + (relay.meter (!side)).read := by
  cases side with
  | true => rfl
  | false => exact Nat.add_comm _ _

theorem bytesWritten_eq :
    relay.bytesWritten = (relay.meter side).written + (relay.meter (!side)).written := by
  cases side with
  | true => rfl
  | false => exact Nat.add_comm _ _

theorem bytesBuffered_eq :
    relay.bytesBuffered = (relay.meter side).buffered + (relay.meter (!side)).buffered := by
  cases side with
  | true => rfl
  | false => exact Nat.add_comm _ _

end

/-- `fetch_add` on the direction's own counter. -/
def Meter.count (meter : Meter) (fresh : Nat) : Meter :=
  { meter with counted := (meter.counted + fresh) % 2 ^ 64, read := meter.read + fresh }

/-- `Metered::poll_read`: bytes that take the total over the limit are counted and end the
copying with an error. -/
def Relay.pollRead (maxBytes : UInt64) (relay : Relay) (fromClient : Bool) (fresh : Nat) :
    Relay :=
  let own := relay.meter fromClient
  let peer := relay.meter (!fromClient)
  let counted := own.count fresh
  if maxBytes.toNat < saturatingAdd (saturatingAdd own.counted fresh) peer.counted then
    { relay.withMeter counted fromClient with limitHit := true, copy := .finished .failed }
  else relay.withMeter { counted with buffered := own.buffered + fresh } fromClient

def Relay.pollWrite (relay : Relay) (fromClient : Bool) (bytes : Nat) : Relay :=
  let own := relay.meter fromClient
  relay.withMeter
    { own with buffered := own.buffered - bytes, written := own.written + bytes } fromClient

/-- The outcome of a race that has ended; what the copying task came to counts only where it
won. -/
def Relay.outcome (relay : Relay) : RelayEnd → Option TunnelOutcome
  | .long => some .durationLimit
  | .quiet => some .idleTimeout
  | .joined =>
      match relay.copy with
      | .finished result => some (outcomeOf relay.limitHit result)
      | .live | .stopping | .dropped => none

def Relay.mayEnd (relay : Relay) : RelayEnd → Bool
  | .long | .quiet => true
  | .joined => (relay.outcome .joined).isSome

def Relay.step (maxBytes : UInt64) (relay : Relay) : RelayAction → Option Relay
  | .read fromClient fresh =>
      if relay.copy.runs = true ∧ 0 < fresh then some (relay.pollRead maxBytes fromClient fresh)
      else none
  | .write fromClient bytes =>
      if relay.copy.runs = true ∧ bytes ≤ (relay.meter fromClient).buffered then
        some (relay.pollWrite fromClient bytes)
      else none
  | .copyEnds result =>
      if relay.copy.runs = true then some { relay with copy := .finished result } else none
  | .drop => if relay.copy = .stopping then some { relay with copy := .dropped } else none
  | .raceEnds cause =>
      if relay.phase = .selecting ∧ relay.mayEnd cause = true then
        some { relay with phase := .ended cause }
      else none
  | .abort =>
      match relay.phase with
      | .ended cause => some { relay with phase := .aborted cause, copy := relay.copy.abort }
      | .selecting | .aborted _ | .classified _ _ _ | .returned _ => none
  | .classify =>
      match relay.phase with
      | .aborted cause =>
          (relay.outcome cause).map fun outcome =>
            { relay with
              phase := .classified outcome relay.client.counted relay.upstream.counted }
      | .selecting | .ended _ | .classified _ _ _ | .returned _ => none
  | .summarize durationMs =>
      match relay.phase with
      | .classified outcome up down =>
          some
            { relay with
              phase := .returned
                { outcome := outcome
                  bytesClientToTarget := up
                  bytesTargetToClient := down
                  durationMs := durationMs
                  limitFired := relay.limitHit } }
      | .selecting | .ended _ | .aborted _ | .returned _ => none

/-! ### The ceiling -/

/-- What the byte ceiling promises of a state: no byte over it is written onward, the flag
tells that more was read, and a summary that has the flag has the outcome. -/
structure Exact (maxBytes : UInt64) (relay : Relay) : Prop where
  ceiling : relay.bytesWritten ≤ maxBytes.toNat
  flag : relay.limitHit = true ↔ maxBytes.toNat < relay.bytesRead
  reported : ∀ summary, relay.phase = .returned summary → summary.limitFired = true →
    summary.outcome = .byteLimit

def DeadlineWon (outcome : TunnelOutcome) : Prop :=
  outcome = .durationLimit ∨ outcome = .idleTimeout

/-- The counters do not wrap under the largest of all limits, and what a deadline cut off is
summed up before the ceiling was passed. -/
def Meets (maxBytes : UInt64) (relay : Relay) : RelayAction → Prop
  | .read _ fresh => relay.copy.runs = true →
      maxBytes.toNat < u64Max ∨ relay.bytesRead + fresh ≤ u64Max
  | .summarize _ => ∀ outcome up down, relay.phase = .classified outcome up down →
      DeadlineWon outcome → relay.bytesRead ≤ maxBytes.toNat
  | .write _ _ | .copyEnds _ | .drop | .raceEnds _ | .abort | .classify => True

/-- The invariant: until the flag is set the counters are what was read, within the limit; once
it is set the copying has failed; and what is written or buffered was within the limit. -/
structure Sound (maxBytes : UInt64) (relay : Relay) : Prop where
  counted : relay.limitHit = false →
    (∀ side, (relay.meter side).counted = (relay.meter side).read) ∧
      relay.bytesRead ≤ maxBytes.toNat
  hit : relay.limitHit = true →
    maxBytes.toNat < relay.bytesRead ∧ relay.copy = .finished .failed
  kept : relay.bytesWritten + relay.bytesBuffered ≤ relay.bytesRead
  onward : relay.bytesWritten + relay.bytesBuffered ≤ maxBytes.toNat
  joined : relay.phase = .ended .joined ∨ relay.phase = .aborted .joined →
    relay.copy.runs = false
  settled : ∀ outcome up down, relay.phase = .classified outcome up down →
    DeadlineWon outcome ∨
      relay.copy.runs = false ∧ (relay.limitHit = true → outcome = .byteLimit)
  reported : ∀ summary, relay.phase = .returned summary → summary.limitFired = true →
    summary.outcome = .byteLimit

variable {maxBytes : UInt64} {relay next : Relay}

theorem Sound.exact (h : Sound maxBytes relay) : Exact maxBytes relay where
  ceiling := (Nat.le_add_right _ _).trans h.onward
  flag := by
    constructor
    · exact fun hhit => (h.hit hhit).1
    · intro hover
      rcases Bool.eq_false_or_eq_true relay.limitHit with hhit | hhit
      · exact hhit
      · exact absurd (h.counted hhit).2 (Nat.not_le.mpr hover)
  reported := h.reported

theorem sound_start : Sound maxBytes Relay.start where
  counted := by
    intro _
    refine ⟨?_, Nat.zero_le _⟩
    rintro (_ | _)
    · rfl
    · rfl
  hit := by rintro ⟨⟩
  kept := Nat.zero_le _
  onward := Nat.zero_le _
  joined := by rintro (⟨⟨⟩⟩ | ⟨⟨⟩⟩)
  settled := by rintro outcome up down ⟨⟩
  reported := by rintro summary ⟨⟩

/-! ### Reads -/

theorem exceeds_sum {limit own peer fresh : Nat}
    (h : limit < saturatingAdd (saturatingAdd own fresh) peer) : limit < own + peer + fresh := by
  rw [saturatingAdd, saturatingAdd] at h
  omega

/-- A total that is found to be within the limit was not cut off where it was added up. -/
theorem sum_within {limit own peer fresh : Nat}
    (h : ¬limit < saturatingAdd (saturatingAdd own fresh) peer)
    (hmeets : limit < u64Max ∨ own + peer + fresh ≤ u64Max) : own + peer + fresh ≤ limit := by
  rw [saturatingAdd, saturatingAdd] at h
  omega

theorem limit_le (maxBytes : UInt64) : maxBytes.toNat ≤ u64Max := by
  have hlt := maxBytes.toNat_lt
  rw [u64Max]
  omega

theorem wrapped_eq {sum : Nat} (h : sum ≤ u64Max) : sum % 2 ^ 64 = sum := by
  apply Nat.mod_eq_of_lt
  rw [u64Max] at h
  omega

theorem not_hit_of_runs (h : Sound maxBytes relay) (hruns : relay.copy.runs = true) :
    relay.limitHit = false := by
  rcases Bool.eq_false_or_eq_true relay.limitHit with hhit | hhit
  · rw [(h.hit hhit).2] at hruns
    cases hruns
  · exact hhit

/-- A race is not over with a task that runs on, so what is classified then is a deadline. -/
theorem deadline_of_runs (h : Sound maxBytes relay) (hruns : relay.copy.runs = true)
    {outcome : TunnelOutcome} {up down : Nat}
    (hphase : relay.phase = .classified outcome up down) : DeadlineWon outcome := by
  rcases h.settled outcome up down hphase with hdeadline | ⟨hstopped, -⟩
  · exact hdeadline
  · rw [hstopped] at hruns
    cases hruns

section

variable {fromClient : Bool} {fresh : Nat}

/-- The read that passes the limit is counted, and the copying ends with it. -/
theorem sound_overrun (h : Sound maxBytes relay) (hruns : relay.copy.runs = true)
    (hover : maxBytes.toNat < relay.bytesRead + fresh) :
    Sound maxBytes
      { relay.withMeter ((relay.meter fromClient).count fresh) fromClient with
        limitHit := true, copy := .finished .failed } where
  counted := by rintro ⟨⟩
  hit := by
    intro _
    refine ⟨?_, rfl⟩
    show maxBytes.toNat < (relay.withMeter _ fromClient).bytesRead
    rw [bytesRead_eq relay fromClient] at hover
    rw [withMeter_read, Meter.count]
    dsimp only
    omega
  kept := by
    show (relay.withMeter _ fromClient).bytesWritten + (relay.withMeter _ fromClient).bytesBuffered
      ≤ (relay.withMeter _ fromClient).bytesRead
    have hkept := h.kept
    rw [bytesRead_eq relay fromClient, bytesWritten_eq relay fromClient,
      bytesBuffered_eq relay fromClient] at hkept
    rw [withMeter_read, withMeter_written, withMeter_buffered, Meter.count]
    dsimp only
    omega
  onward := by
    show (relay.withMeter _ fromClient).bytesWritten + (relay.withMeter _ fromClient).bytesBuffered
      ≤ maxBytes.toNat
    have honward := h.onward
    rw [bytesWritten_eq relay fromClient, bytesBuffered_eq relay fromClient] at honward
    rw [withMeter_written, withMeter_buffered]
    exact honward
  joined _ := rfl
  settled := by
    intro outcome up down hphase
    rw [withMeter_phase] at hphase
    exact .inl (deadline_of_runs h hruns hphase)
  reported := by
    intro summary hphase
    rw [withMeter_phase] at hphase
    exact h.reported summary hphase

/-- Bytes within the limit are counted and go to the buffer. -/
theorem sound_within (h : Sound maxBytes relay) (hruns : relay.copy.runs = true)
    (hwithin : relay.bytesRead + fresh ≤ maxBytes.toNat) :
    Sound maxBytes
      (relay.withMeter { (relay.meter fromClient).count fresh with
        buffered := (relay.meter fromClient).buffered + fresh } fromClient) where
  counted := by
    intro _
    obtain ⟨hcounted, -⟩ := h.counted (not_hit_of_runs h hruns)
    have hlimit := limit_le maxBytes
    have hsum : (relay.meter fromClient).counted + fresh ≤ u64Max := by
      rw [hcounted fromClient]
      rw [bytesRead_eq relay fromClient] at hwithin
      omega
    constructor
    · intro side
      have hown : ((relay.meter fromClient).counted + fresh) % 2 ^ 64 =
          (relay.meter fromClient).read + fresh := by
        rw [wrapped_eq hsum, hcounted]
      cases fromClient with
      | true =>
          cases side with
          | true => exact hown
          | false => exact hcounted false
      | false =>
          cases side with
          | true => exact hcounted true
          | false => exact hown
    · rw [bytesRead_eq relay fromClient] at hwithin
      rw [withMeter_read, Meter.count]
      dsimp only
      omega
  hit := by
    rw [withMeter_limitHit, not_hit_of_runs h hruns]
    rintro ⟨⟩
  kept := by
    have hkept := h.kept
    rw [bytesRead_eq relay fromClient, bytesWritten_eq relay fromClient,
      bytesBuffered_eq relay fromClient] at hkept
    rw [withMeter_read, withMeter_written, withMeter_buffered, Meter.count]
    dsimp only
    omega
  onward := by
    have hkept := h.kept
    rw [bytesRead_eq relay fromClient] at hwithin
    rw [bytesRead_eq relay fromClient, bytesWritten_eq relay fromClient,
      bytesBuffered_eq relay fromClient] at hkept
    rw [withMeter_written, withMeter_buffered, Meter.count]
    dsimp only
    omega
  joined := by
    rw [withMeter_phase, withMeter_copy]
    exact h.joined
  settled := by
    rw [withMeter_phase, withMeter_copy, withMeter_limitHit]
    exact h.settled
  reported := by
    rw [withMeter_phase]
    exact h.reported

/-- What the meter finds is what was read, as long as its counters cannot wrap unnoticed. -/
theorem sound_read (h : Sound maxBytes relay) (hruns : relay.copy.runs = true)
    (hmeets : maxBytes.toNat < u64Max ∨ relay.bytesRead + fresh ≤ u64Max) :
    Sound maxBytes (relay.pollRead maxBytes fromClient fresh) := by
  obtain ⟨hcounted, -⟩ := h.counted (not_hit_of_runs h hruns)
  rw [bytesRead_eq relay fromClient] at hmeets
  rw [Relay.pollRead]
  dsimp only
  rw [hcounted fromClient, hcounted !fromClient]
  split
  · rename_i hexceeds
    apply sound_overrun h hruns
    rw [bytesRead_eq relay fromClient]
    exact exceeds_sum hexceeds
  · rename_i hwithin
    apply sound_within h hruns
    rw [bytesRead_eq relay fromClient]
    exact sum_within hwithin hmeets

/-- A sum that the largest limit cannot tell from itself leaves the flag clear. -/
theorem not_exact_read (h : Sound maxBytes relay) (hruns : relay.copy.runs = true)
    (hmax : ¬maxBytes.toNat < u64Max) (hsum : ¬relay.bytesRead + fresh ≤ u64Max) :
    ¬Exact maxBytes (relay.pollRead maxBytes fromClient fresh) := by
  have hlimit := limit_le maxBytes
  have hclear : ¬maxBytes.toNat < saturatingAdd
      (saturatingAdd (relay.meter fromClient).counted fresh) (relay.meter !fromClient).counted := by
    rw [saturatingAdd]
    omega
  intro hexact
  rw [Relay.pollRead] at hexact
  dsimp only at hexact
  rw [if_neg hclear] at hexact
  have hflag := hexact.flag
  rw [withMeter_limitHit, not_hit_of_runs h hruns, withMeter_read, Meter.count] at hflag
  dsimp only at hflag
  rw [bytesRead_eq relay fromClient] at hsum
  have hover : maxBytes.toNat <
      (relay.meter fromClient).read + fresh + (relay.meter !fromClient).read := by
    omega
  cases hflag.mpr hover

end

/-! ### Every other step -/

theorem sound_write (h : Sound maxBytes relay) {fromClient : Bool} {bytes : Nat}
    (hbuffered : bytes ≤ (relay.meter fromClient).buffered) :
    Sound maxBytes (relay.pollWrite fromClient bytes) where
  counted := by
    rw [Relay.pollWrite, withMeter_limitHit]
    intro hclear
    obtain ⟨hcounted, hwithin⟩ := h.counted hclear
    constructor
    · intro side
      cases fromClient with
      | true =>
          cases side with
          | true => exact hcounted true
          | false => exact hcounted false
      | false =>
          cases side with
          | true => exact hcounted true
          | false => exact hcounted false
    · rw [bytesRead_eq relay fromClient] at hwithin
      rw [withMeter_read]
      exact hwithin
  hit := by
    rw [Relay.pollWrite, withMeter_limitHit, withMeter_copy, withMeter_read,
      ← bytesRead_eq relay fromClient]
    exact h.hit
  kept := by
    have hkept := h.kept
    rw [bytesRead_eq relay fromClient, bytesWritten_eq relay fromClient,
      bytesBuffered_eq relay fromClient] at hkept
    rw [Relay.pollWrite, withMeter_read, withMeter_written, withMeter_buffered]
    dsimp only
    omega
  onward := by
    have honward := h.onward
    rw [bytesWritten_eq relay fromClient, bytesBuffered_eq relay fromClient] at honward
    rw [Relay.pollWrite, withMeter_written, withMeter_buffered]
    dsimp only
    omega
  joined := by
    rw [Relay.pollWrite, withMeter_phase, withMeter_copy]
    exact h.joined
  settled := by
    rw [Relay.pollWrite, withMeter_phase, withMeter_copy, withMeter_limitHit]
    exact h.settled
  reported := by
    rw [Relay.pollWrite, withMeter_phase]
    exact h.reported

/-- A step of the race alone. -/
theorem Sound.withPhase (h : Sound maxBytes relay) {phase : RelayPhase}
    (hjoined : phase = .ended .joined ∨ phase = .aborted .joined → relay.copy.runs = false)
    (hsettled : ∀ outcome up down, phase = .classified outcome up down →
      DeadlineWon outcome ∨
        relay.copy.runs = false ∧ (relay.limitHit = true → outcome = .byteLimit))
    (hreported : ∀ summary, phase = .returned summary → summary.limitFired = true →
      summary.outcome = .byteLimit) :
    Sound maxBytes { relay with phase := phase } where
  counted := h.counted
  hit := h.hit
  kept := h.kept
  onward := h.onward
  joined := hjoined
  settled := hsettled
  reported := hreported

/-- The copying ends without having passed the limit. -/
theorem Sound.withCopy (h : Sound maxBytes relay) (hruns : relay.copy.runs = true)
    {copy : CopyPhase} (hstopped : copy.runs = false) :
    Sound maxBytes { relay with copy := copy } where
  counted := h.counted
  hit := by
    intro hhit
    rw [not_hit_of_runs h hruns] at hhit
    cases hhit
  kept := h.kept
  onward := h.onward
  joined _ := hstopped
  settled := by
    intro outcome up down hphase
    exact .inl (deadline_of_runs h hruns hphase)
  reported := h.reported

theorem abort_runs (copy : CopyPhase) : copy.abort.runs = copy.runs := by
  cases copy with
  | live => rfl
  | stopping => rfl
  | finished result => rfl
  | dropped => rfl

theorem sound_abort (h : Sound maxBytes relay) {cause : RelayEnd}
    (hphase : relay.phase = .ended cause) :
    Sound maxBytes { relay with phase := .aborted cause, copy := relay.copy.abort } where
  counted := h.counted
  hit := by
    intro hhit
    obtain ⟨hover, hcopy⟩ := h.hit hhit
    refine ⟨hover, ?_⟩
    show relay.copy.abort = .finished .failed
    rw [hcopy]
    rfl
  kept := h.kept
  onward := h.onward
  joined := by
    rintro (⟨⟨⟩⟩ | hjoined)
    obtain rfl := RelayPhase.aborted.inj hjoined
    exact (abort_runs _).trans (h.joined (.inl hphase))
  settled := by rintro outcome up down ⟨⟩
  reported := by rintro summary ⟨⟩

theorem outcome_joined {outcome : TunnelOutcome} (h : relay.outcome .joined = some outcome) :
    ∃ result, relay.copy = .finished result ∧ outcome = outcomeOf relay.limitHit result := by
  rw [Relay.outcome] at h
  split at h
  · rename_i result hcopy
    exact ⟨result, hcopy, (Option.some.inj h).symm⟩
  · cases h
  · cases h
  · cases h

/-- A deadline is classified as such; a task that joined has failed where the flag is set. -/
theorem outcome_settled (h : Sound maxBytes relay) {cause : RelayEnd} {outcome : TunnelOutcome}
    (houtcome : relay.outcome cause = some outcome) :
    DeadlineWon outcome ∨
      relay.copy.runs = false ∧ (relay.limitHit = true → outcome = .byteLimit) := by
  cases cause with
  | long => exact .inl (.inl (Option.some.inj houtcome).symm)
  | quiet => exact .inl (.inr (Option.some.inj houtcome).symm)
  | joined =>
      obtain ⟨result, hcopy, rfl⟩ := outcome_joined houtcome
      refine .inr ⟨by rw [hcopy]; rfl, ?_⟩
      intro hhit
      have hfailed := (h.hit hhit).2
      rw [hcopy] at hfailed
      rw [hhit, CopyPhase.finished.inj hfailed]
      rfl

/-- The step lemma. -/
theorem sound_step {action : RelayAction} (h : Sound maxBytes relay)
    (hmeets : Meets maxBytes relay action) (hstep : relay.step maxBytes action = some next) :
    Sound maxBytes next := by
  cases action with
  | read fromClient fresh =>
      obtain ⟨⟨hruns, -⟩, rfl⟩ := Option.ite_some_none_eq_some.mp hstep
      exact sound_read h hruns (hmeets hruns)
  | write fromClient bytes =>
      obtain ⟨⟨-, hbuffered⟩, rfl⟩ := Option.ite_some_none_eq_some.mp hstep
      exact sound_write h hbuffered
  | copyEnds result =>
      obtain ⟨hruns, rfl⟩ := Option.ite_some_none_eq_some.mp hstep
      exact h.withCopy hruns rfl
  | drop =>
      obtain ⟨hstopping, rfl⟩ := Option.ite_some_none_eq_some.mp hstep
      exact h.withCopy (by rw [hstopping]; rfl) rfl
  | raceEnds cause =>
      obtain ⟨⟨-, hmay⟩, rfl⟩ := Option.ite_some_none_eq_some.mp hstep
      apply h.withPhase
      · rintro (hended | ⟨⟨⟩⟩)
        obtain rfl := RelayPhase.ended.inj hended
        obtain ⟨outcome, houtcome⟩ := Option.isSome_iff_exists.mp hmay
        obtain ⟨result, hcopy, -⟩ := outcome_joined houtcome
        rw [hcopy]
        rfl
      · rintro outcome up down ⟨⟩
      · rintro summary ⟨⟩
  | abort =>
      rw [Relay.step] at hstep
      split at hstep
      · rename_i cause hphase
        cases hstep
        exact sound_abort h hphase
      all_goals cases hstep
  | classify =>
      rw [Relay.step] at hstep
      split at hstep
      · obtain ⟨outcome, houtcome, rfl⟩ := Option.map_eq_some_iff.mp hstep
        apply h.withPhase
        · rintro (⟨⟨⟩⟩ | ⟨⟨⟩⟩)
        · intro other up down hclassified
          obtain ⟨rfl, -, -⟩ := RelayPhase.classified.inj hclassified
          exact outcome_settled h houtcome
        · rintro summary ⟨⟩
      all_goals cases hstep
  | summarize durationMs =>
      rw [Relay.step] at hstep
      split at hstep
      · rename_i outcome up down hphase
        cases hstep
        apply h.withPhase
        · rintro (⟨⟨⟩⟩ | ⟨⟨⟩⟩)
        · rintro other up down ⟨⟩
        · intro summary hsummary hfired
          obtain rfl := RelayPhase.returned.inj hsummary
          rcases h.settled outcome up down hphase with hdeadline | ⟨-, hlimit⟩
          · have hwithin := hmeets outcome up down hphase hdeadline
            have hover := (h.hit hfired).1
            omega
          · exact hlimit hfired
      all_goals cases hstep

/-! ### Runs -/

/-- The ceiling is kept and reported in every state that the actions lead through. -/
def ExactThroughout (maxBytes : UInt64) (actions : List RelayAction) : Prop :=
  Exact maxBytes .start ∧
    Throughout (Relay.step maxBytes)
      (fun relay action => ∀ next, relay.step maxBytes action = some next → Exact maxBytes next)
      .start actions

/-- Where a step leads to an exact state it met the condition. -/
theorem meets_of_exact {action : RelayAction} (h : Sound maxBytes relay)
    (hexact : ∀ next, relay.step maxBytes action = some next → Exact maxBytes next) :
    Meets maxBytes relay action := by
  cases action with
  | read fromClient fresh =>
      intro hruns
      by_contra hneither
      push Not at hneither
      have hwithin := (h.counted (not_hit_of_runs h hruns)).2
      have hlimit := limit_le maxBytes
      have hfresh : 0 < fresh := by omega
      refine not_exact_read h hruns (Nat.not_lt.mpr hneither.1) (Nat.not_le.mpr hneither.2)
        (hexact _ (if_pos ⟨hruns, hfresh⟩))
  | summarize durationMs =>
      intro outcome up down hphase hdeadline
      by_contra hover
      have hhit := h.exact.flag.mpr (Nat.not_le.mp hover)
      have hstep : relay.step maxBytes (.summarize durationMs) = some
          { relay with
            phase := .returned
              { outcome := outcome
                bytesClientToTarget := up
                bytesTargetToClient := down
                durationMs := durationMs
                limitFired := relay.limitHit } } := by
        rw [Relay.step, hphase]
      have hlimit := (hexact _ hstep).reported _ rfl hhit
      dsimp only at hlimit
      rw [hlimit] at hdeadline
      rcases hdeadline with hdeadline | hdeadline
      · cases hdeadline
      · cases hdeadline
  | write fromClient bytes => trivial
  | copyEnds result => trivial
  | drop => trivial
  | raceEnds cause => trivial
  | abort => trivial
  | classify => trivial

/-- The ceiling is exact and reported throughout a run exactly when no counter can wrap under
the largest limit and no deadline's summary is made once the ceiling was passed. -/
theorem exactThroughout_iff (maxBytes : UInt64) (actions : List RelayAction) :
    ExactThroughout maxBytes actions ↔
      Throughout (Relay.step maxBytes) (Meets maxBytes) .start actions := by
  have hagree := @throughout_iff _ _ (Relay.step maxBytes) (Meets maxBytes) .start actions
    (Sound maxBytes)
    (fun relay action => ∀ next, relay.step maxBytes action = some next → Exact maxBytes next)
    (fun relay action h => ⟨meets_of_exact h, fun hmeets next hstep =>
      (sound_step h hmeets hstep).exact⟩)
    (fun relay action next h hmeets hstep => sound_step h hmeets hstep) sound_start
  rw [ExactThroughout, hagree]
  exact and_iff_right sound_start.exact

theorem exact_of_run {actions : List RelayAction} {final : Relay}
    (h : ExactThroughout maxBytes actions)
    (hrun : run (Relay.step maxBytes) .start actions = some final) : Exact maxBytes final :=
  run_invariant (fun _ _ next _ hexact hstep => hexact next hstep) hrun h.2 h.1

/-- The read that passes a ceiling of eight bytes, and the deadline that wins the race. -/
def lateDeadline : List RelayAction :=
  [.read true 64, .raceEnds .long, .abort, .classify, .summarize 10]

theorem deadline_hides_ceiling :
    ¬∀ (maxBytes : UInt64) (actions : List RelayAction), ExactThroughout maxBytes actions := by
  intro h
  obtain ⟨final, hrun⟩ : ∃ final, run (Relay.step 8) .start lateDeadline = some final :=
    Option.isSome_iff_exists.mp (by decide)
  have hexact := exact_of_run (h 8 lateDeadline) hrun
  have hfinal : final.phase = .returned
      { outcome := .durationLimit
        bytesClientToTarget := 64
        bytesTargetToClient := 0
        durationMs := 10
        limitFired := true } := by
    have hphase : (run (Relay.step 8) .start lateDeadline).map (·.phase) = some (.returned
        { outcome := .durationLimit
          bytesClientToTarget := 64
          bytesTargetToClient := 0
          durationMs := 10
          limitFired := true }) := by
      decide
    rw [hrun] at hphase
    exact Option.some.inj hphase
  cases hexact.reported _ hfinal rfl

end EggReplay.Intercept.RelayRuns
