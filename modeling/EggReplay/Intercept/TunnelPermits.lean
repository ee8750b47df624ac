import EggReplay.Intercept.Tunnels

/-!
Permits and byte-copying tasks over every interleaving: as long as no accept closure finds
its request cancelled while bytes are being copied for it, each copying task has its permit
and ends before its event.
-/

namespace EggReplay.Intercept.TunnelPermits

open EggReplay.Library.TransitionSystem
open EggReplay.Intercept.Tunnels

variable {limits : TunnelLimits}

/-! ### One tunnel -/

/-- Bytes are copied under a relay in its race, a relay runs under a closure in its loop, and
an event comes after the loop. -/
structure Sound (tunnel : Tunnel) : Prop where
  copying : tunnel.copy = .live → tunnel.relay = .selecting
  relaying : tunnel.relay = .spawned ∨ tunnel.relay = .selecting → tunnel.accept = .polling
  reported : tunnel.event ≠ none → tunnel.accept = .recorded ∨ tunnel.accept = .released

/-- The closure does not find its request cancelled while bytes are being copied. -/
def OrderlyAction (tunnel : Tunnel) (action : TunnelAction) : Prop :=
  action = .poll → tunnel.cancelled = true → tunnel.copy ≠ .live

instance (tunnel : Tunnel) (action : TunnelAction) : Decidable (OrderlyAction tunnel action) :=
  inferInstanceAs (Decidable (_ → _ → _))

theorem sound_dialing (host : String) (port : Nat) : Sound (.dialing host port) where
  copying := by rintro ⟨⟩
  relaying := by rintro (h | h) <;> cases h
  reported habsurd := absurd rfl habsurd

/-- A closure that is not in its loop has no relay running. -/
theorem Sound.no_relay {tunnel : Tunnel} (h : Sound tunnel) (haccept : tunnel.accept ≠ .polling) :
    tunnel.relay ≠ .spawned ∧ tunnel.relay ≠ .selecting :=
  ⟨fun hrelay => haccept (h.relaying (.inl hrelay)),
    fun hrelay => haccept (h.relaying (.inr hrelay))⟩

theorem Sound.no_event {tunnel : Tunnel} (h : Sound tunnel) (hrecorded : tunnel.accept ≠ .recorded)
    (hreleased : tunnel.accept ≠ .released) : tunnel.event = none := by
  by_contra hevent
  exact (h.reported hevent).elim hrecorded hreleased

/-- Where no bytes are copied the other two are left to check. -/
theorem sound_idle {tunnel : Tunnel} (hcopy : tunnel.copy ≠ .live)
    (hrelay : tunnel.relay = .spawned ∨ tunnel.relay = .selecting → tunnel.accept = .polling)
    (hevent : tunnel.event ≠ none → tunnel.accept = .recorded ∨ tunnel.accept = .released) :
    Sound tunnel where
  copying hlive := absurd hlive hcopy
  relaying := hrelay
  reported := hevent

theorem abort_eq (relay : RelayTask) :
    relay.abort ≠ .spawned ∧ relay.abort ≠ .selecting := by
  cases relay <;> exact ⟨(by rintro ⟨⟩), (by rintro ⟨⟩)⟩

/-- The step lemma: what each action does to the closure, the tasks and the event. -/
theorem sound_step {tunnel next : Tunnel} {action : TunnelAction} (h : Sound tunnel)
    (horderly : OrderlyAction tunnel action) (hstep : tunnel.step limits action = some next) :
    Sound next := by
  have hidle : tunnel.accept ≠ .polling → tunnel.copy ≠ .live := fun haccept hlive =>
    (h.no_relay haccept).2 (h.copying hlive)
  cases action with
  | dialed established =>
      obtain ⟨haccept, rfl⟩ := Option.ite_some_none_eq_some.mp hstep
      have hpolling : tunnel.accept ≠ .polling := by rw [haccept]; rintro ⟨⟩
      have hnone : tunnel.event = none := h.no_event (by rw [haccept]; rintro ⟨⟩)
        (by rw [haccept]; rintro ⟨⟩)
      refine sound_idle (hidle hpolling) ?_ (absurd hnone)
      rintro (hrelay | hrelay)
      · exact absurd hrelay (h.no_relay hpolling).1
      · exact absurd hrelay (h.no_relay hpolling).2
  | acceptFailed =>
      obtain ⟨haccept, rfl⟩ := Option.ite_some_none_eq_some.mp hstep
      have hpolling : tunnel.accept ≠ .polling := by rw [haccept]; rintro ⟨⟩
      have hnone : tunnel.event = none := h.no_event (by rw [haccept]; rintro ⟨⟩)
        (by rw [haccept]; rintro ⟨⟩)
      refine sound_idle (hidle hpolling) ?_ (absurd hnone)
      rintro (hrelay | hrelay)
      · exact absurd hrelay (h.no_relay hpolling).1
      · exact absurd hrelay (h.no_relay hpolling).2
  | entered =>
      obtain ⟨haccept, rfl⟩ := Option.ite_some_none_eq_some.mp hstep
      have hnone : tunnel.event = none := h.no_event (by rw [haccept]; rintro ⟨⟩)
        (by rw [haccept]; rintro ⟨⟩)
      exact sound_idle (hidle (by rw [haccept]; rintro ⟨⟩)) (fun _ => rfl) (absurd hnone)
  | cancel =>
      obtain rfl := Option.some.inj hstep
      exact ⟨h.copying, h.relaying, h.reported⟩
  | poll =>
      obtain ⟨haccept, hstep⟩ := Option.ite_none_right_eq_some.mp hstep
      have hnone : tunnel.event = none := h.no_event (by rw [haccept]; rintro ⟨⟩)
        (by rw [haccept]; rintro ⟨⟩)
      split at hstep
      · rename_i hcancelled
        obtain rfl := Option.some.inj hstep
        refine sound_idle (horderly rfl hcancelled) ?_ (absurd hnone)
        rintro (hrelay | hrelay)
        · exact absurd hrelay (abort_eq _).1
        · exact absurd hrelay (abort_eq _).2
      · split at hstep
        · rename_i hfinished
          obtain rfl := Option.some.inj hstep
          have hrelay : tunnel.relay ≠ .spawned ∧ tunnel.relay ≠ .selecting := by
            constructor
            · intro hspawned
              rw [hspawned] at hfinished
              cases hfinished
            · intro hselecting
              rw [hselecting] at hfinished
              cases hfinished
          refine sound_idle (fun hlive => hrelay.2 (h.copying hlive)) ?_ (absurd hnone)
          rintro (hspawned | hselecting)
          · exact absurd hspawned hrelay.1
          · exact absurd hselecting hrelay.2
        · obtain rfl := Option.some.inj hstep
          exact h
  | relayStarts =>
      obtain ⟨hrelay, rfl⟩ := Option.ite_some_none_eq_some.mp hstep
      have haccept := h.relaying (.inl hrelay)
      exact ⟨fun _ => rfl, fun _ => haccept, h.reported⟩
  | transfer fromClient fresh =>
      obtain ⟨⟨hlive, -⟩, rfl⟩ := Option.ite_some_none_eq_some.mp hstep
      exact ⟨fun _ => h.copying hlive, h.relaying, h.reported⟩
  | copyEnds result =>
      obtain ⟨hlive, rfl⟩ := Option.ite_some_none_eq_some.mp hstep
      exact ⟨(by rintro ⟨⟩), h.relaying, h.reported⟩
  | relayEnds ended durationMs =>
      obtain ⟨hrelay, hstep⟩ := Option.ite_none_right_eq_some.mp hstep
      split at hstep
      · cases hstep
      · obtain rfl := Option.some.inj hstep
        refine ⟨fun hlive => ?_, ?_, h.reported⟩
        · have hcopy : tunnel.copy.abort = .live := hlive
          cases htask : tunnel.copy <;> rw [htask] at hcopy <;> cases hcopy
        · rintro (habsurd | habsurd) <;> cases habsurd
  | record =>
      obtain ⟨haccept, hstep⟩ := Option.ite_none_right_eq_some.mp hstep
      have hpolling : tunnel.accept ≠ .polling := by rw [haccept]; rintro ⟨⟩
      split at hstep
      · cases hstep
      · obtain rfl := Option.some.inj hstep
        refine sound_idle (hidle hpolling) ?_ (fun _ => .inl rfl)
        rintro (hrelay | hrelay)
        · exact absurd hrelay (h.no_relay hpolling).1
        · exact absurd hrelay (h.no_relay hpolling).2
  | release =>
      obtain ⟨haccept, rfl⟩ := Option.ite_some_none_eq_some.mp hstep
      have hpolling : tunnel.accept ≠ .polling := by rw [haccept]; rintro ⟨⟩
      refine sound_idle (hidle hpolling) ?_ (fun _ => .inr rfl)
      rintro (hrelay | hrelay)
      · exact absurd hrelay (h.no_relay hpolling).1
      · exact absurd hrelay (h.no_relay hpolling).2

/-- A closure that has given its permit back does not take another. -/
theorem permit_step {tunnel next : Tunnel} {action : TunnelAction}
    (hstep : tunnel.step limits action = some next)
    (hpermit : next.accept.holdsPermit = true) : tunnel.accept.holdsPermit = true := by
  cases action with
  | dialed established =>
      obtain ⟨haccept, rfl⟩ := Option.ite_some_none_eq_some.mp hstep
      rw [haccept]
      rfl
  | acceptFailed =>
      obtain ⟨haccept, rfl⟩ := Option.ite_some_none_eq_some.mp hstep
      rw [haccept]
      rfl
  | entered =>
      obtain ⟨haccept, rfl⟩ := Option.ite_some_none_eq_some.mp hstep
      rw [haccept]
      rfl
  | cancel =>
      obtain rfl := Option.some.inj hstep
      exact hpermit
  | poll =>
      obtain ⟨haccept, -⟩ := Option.ite_none_right_eq_some.mp hstep
      rw [haccept]
      rfl
  | relayStarts =>
      obtain ⟨-, rfl⟩ := Option.ite_some_none_eq_some.mp hstep
      exact hpermit
  | transfer fromClient fresh =>
      obtain ⟨-, rfl⟩ := Option.ite_some_none_eq_some.mp hstep
      exact hpermit
  | copyEnds result =>
      obtain ⟨-, rfl⟩ := Option.ite_some_none_eq_some.mp hstep
      exact hpermit
  | relayEnds ended durationMs =>
      obtain ⟨-, hstep⟩ := Option.ite_none_right_eq_some.mp hstep
      split at hstep
      · cases hstep
      · obtain rfl := Option.some.inj hstep
        exact hpermit
  | record =>
      obtain ⟨haccept, -⟩ := Option.ite_none_right_eq_some.mp hstep
      rw [haccept]
      rfl
  | release =>
      obtain ⟨haccept, rfl⟩ := Option.ite_some_none_eq_some.mp hstep
      rw [haccept]
      rfl

/-- Bytes are moved by a live copying task only. -/
theorem moved_step {tunnel next : Tunnel} {action : TunnelAction}
    (hstep : tunnel.step limits action = some next) (hcopy : tunnel.copy ≠ .live) :
    next.clientBytes = tunnel.clientBytes ∧ next.upstreamBytes = tunnel.upstreamBytes := by
  cases action with
  | transfer fromClient fresh =>
      obtain ⟨⟨hlive, -⟩, -⟩ := Option.ite_some_none_eq_some.mp hstep
      exact absurd hlive hcopy
  | cancel =>
      obtain rfl := Option.some.inj hstep
      exact ⟨rfl, rfl⟩
  | poll =>
      obtain ⟨-, hstep⟩ := Option.ite_none_right_eq_some.mp hstep
      split at hstep
      · obtain rfl := Option.some.inj hstep
        exact ⟨rfl, rfl⟩
      · split at hstep <;> obtain rfl := Option.some.inj hstep <;> exact ⟨rfl, rfl⟩
  | relayEnds ended durationMs =>
      obtain ⟨-, hstep⟩ := Option.ite_none_right_eq_some.mp hstep
      split at hstep
      · cases hstep
      · obtain rfl := Option.some.inj hstep
        exact ⟨rfl, rfl⟩
  | record =>
      obtain ⟨-, hstep⟩ := Option.ite_none_right_eq_some.mp hstep
      split at hstep
      · cases hstep
      · obtain rfl := Option.some.inj hstep
        exact ⟨rfl, rfl⟩
  | dialed | acceptFailed | entered | relayStarts | copyEnds | release =>
      obtain ⟨-, rfl⟩ := Option.ite_some_none_eq_some.mp hstep
      exact ⟨rfl, rfl⟩

/-! ### The proxy -/

def holdsPermit (tunnel : Tunnel) : Bool :=
  tunnel.accept.holdsPermit

def isCopying (tunnel : Tunnel) : Bool :=
  decide (tunnel.copy = .live)

/-- Every tunnel is sound, and the permits given and left make up the semaphore. -/
structure ProxySound (limits : TunnelLimits) (state : ProxyState) : Prop where
  permits : state.available + state.tunnels.countP holdsPermit + state.intercepted =
    limits.maxConcurrent
  tunnels : ∀ tunnel ∈ state.tunnels, Sound tunnel

/-- A step of the proxy that is orderly for the tunnel it is about. -/
def Orderly (state : ProxyState) (action : ProxyAction) : Prop :=
  match action with
  | .tunnel index action => ∀ tunnel ∈ state.tunnels[index]?, OrderlyAction tunnel action
  | .connect _ _ | .intercept | .interceptEnds => True

instance (state : ProxyState) (action : ProxyAction) : Decidable (Orderly state action) :=
  match action with
  | .tunnel index action =>
      inferInstanceAs (Decidable (∀ tunnel ∈ state.tunnels[index]?, OrderlyAction tunnel action))
  | .connect _ _ | .intercept | .interceptEnds => .isTrue trivial

theorem proxySound_start (limits : TunnelLimits) : ProxySound limits (.start limits) where
  permits := Nat.add_zero limits.maxConcurrent
  tunnels := fun _ habsurd => absurd habsurd List.not_mem_nil

/-- The permit of one tunnel of a list is held, given back or gone. -/
theorem released_set {tunnels : List Tunnel} {index : Nat} {tunnel next : Tunnel}
    (hget : tunnels[index]? = some tunnel)
    (hpermit : holdsPermit next = true → holdsPermit tunnel = true) :
    released tunnel next + (tunnels.set index next).countP holdsPermit =
      tunnels.countP holdsPermit := by
  obtain ⟨hindex, heq⟩ := List.getElem?_eq_some_iff.mp hget
  rw [List.countP_set hindex, heq]
  have hpos : holdsPermit tunnel = true → 0 < tunnels.countP holdsPermit := fun htrue =>
    List.countP_pos_iff.mpr ⟨tunnel, List.mem_of_getElem? hget, htrue⟩
  have hreleased : released tunnel next = (holdsPermit tunnel && !holdsPermit next).toNat := rfl
  rw [hreleased]
  rcases hbefore : holdsPermit tunnel with _ | _
  · rcases hafter : holdsPermit next with _ | _
    · simp
    · rw [hpermit hafter] at hbefore
      cases hbefore
  · have hsome := hpos hbefore
    rcases hafter : holdsPermit next with _ | _
    · simp
      omega
    · simp
      omega

theorem proxySound_step {state next : ProxyState} {action : ProxyAction}
    (h : ProxySound limits state) (horderly : Orderly state action)
    (hstep : state.step limits action = some next) : ProxySound limits next := by
  have hpermits := h.permits
  cases action with
  | connect host port =>
      rw [ProxyState.step] at hstep
      split at hstep
      · obtain rfl := Option.some.inj hstep
        exact ⟨hpermits, h.tunnels⟩
      · rename_i havailable
        obtain rfl := Option.some.inj hstep
        constructor
        · have hone : [Tunnel.dialing host port].countP holdsPermit = 1 := rfl
          dsimp only
          rw [List.countP_append, hone]
          omega
        · intro tunnel htunnel
          rcases List.mem_append.mp htunnel with hmem | hmem
          · exact h.tunnels tunnel hmem
          · rw [List.mem_singleton.mp hmem]
            exact sound_dialing host port
  | intercept =>
      rw [ProxyState.step] at hstep
      split at hstep
      · obtain rfl := Option.some.inj hstep
        exact ⟨hpermits, h.tunnels⟩
      · obtain rfl := Option.some.inj hstep
        refine ⟨?_, h.tunnels⟩
        dsimp only
        omega
  | interceptEnds =>
      rw [ProxyState.step] at hstep
      split at hstep
      · cases hstep
      · obtain rfl := Option.some.inj hstep
        refine ⟨?_, h.tunnels⟩
        dsimp only
        omega
  | tunnel index action =>
      rw [ProxyState.step] at hstep
      split at hstep
      · cases hstep
      · rename_i tunnel hget
        split at hstep
        · cases hstep
        · rename_i after hafter
          obtain rfl := Option.some.inj hstep
          constructor
          · have hset := released_set hget (permit_step hafter)
            dsimp only
            omega
          · intro other hother
            rcases List.mem_or_eq_of_mem_set hother with hmem | rfl
            · exact h.tunnels other hmem
            · exact sound_step (h.tunnels tunnel (List.mem_of_getElem? hget))
                (horderly tunnel hget) hafter

/-- Each copying task has a permit, and there are no more permits than allowed. -/
def Bounded (limits : TunnelLimits) (state : ProxyState) : Prop :=
  state.tunnels.countP isCopying ≤ state.tunnels.countP holdsPermit ∧
    state.tunnels.countP holdsPermit + state.intercepted ≤ limits.maxConcurrent

/-- No step moves a byte of a tunnel whose event says that it was shut down. -/
def Silent (limits : TunnelLimits) (state : ProxyState) : Prop :=
  ∀ (action : ProxyAction) (next : ProxyState), state.step limits action = some next →
    ∀ (index : Nat) (before after : Tunnel), state.tunnels[index]? = some before →
      next.tunnels[index]? = some after →
      (∃ summary, before.event = some summary ∧ summary.outcome = .shutdown) →
      after.clientBytes = before.clientBytes ∧ after.upstreamBytes = before.upstreamBytes

theorem ProxySound.bounded {state : ProxyState} (h : ProxySound limits state) :
    Bounded limits state := by
  constructor
  · apply List.countP_mono_left
    intro tunnel htunnel hcopying
    have hsound := h.tunnels tunnel htunnel
    have hpolling := hsound.relaying (.inr (hsound.copying (of_decide_eq_true hcopying)))
    rw [holdsPermit, hpolling]
    rfl
  · have hpermits := h.permits
    omega

/-- A step leaves every tunnel as it is but the one that it is about. -/
theorem step_tunnel {state next : ProxyState} {action : ProxyAction}
    (hstep : state.step limits action = some next) {index : Nat} {before after : Tunnel}
    (hbefore : state.tunnels[index]? = some before) (hafter : next.tunnels[index]? = some after) :
    after = before ∨ ∃ action, before.step limits action = some after := by
  obtain ⟨hindex, -⟩ := List.getElem?_eq_some_iff.mp hbefore
  cases action with
  | connect host port =>
      rw [ProxyState.step] at hstep
      split at hstep
      · obtain rfl := Option.some.inj hstep
        exact .inl (Option.some.inj (hafter.symm.trans hbefore))
      · obtain rfl := Option.some.inj hstep
        rw [List.getElem?_append_left hindex] at hafter
        exact .inl (Option.some.inj (hafter.symm.trans hbefore))
  | intercept =>
      rw [ProxyState.step] at hstep
      split at hstep <;> obtain rfl := Option.some.inj hstep <;>
        exact .inl (Option.some.inj (hafter.symm.trans hbefore))
  | interceptEnds =>
      rw [ProxyState.step] at hstep
      split at hstep
      · cases hstep
      · obtain rfl := Option.some.inj hstep
        exact .inl (Option.some.inj (hafter.symm.trans hbefore))
  | tunnel other action =>
      rw [ProxyState.step] at hstep
      split at hstep
      · cases hstep
      · rename_i tunnel hget
        split at hstep
        · cases hstep
        · rename_i changed hchanged
          obtain rfl := Option.some.inj hstep
          by_cases heq : other = index
          · subst heq
            rw [List.getElem?_set_self hindex] at hafter
            obtain rfl := Option.some.inj hafter
            obtain rfl := Option.some.inj (hget.symm.trans hbefore)
            exact .inr ⟨action, hchanged⟩
          · rw [List.getElem?_set_ne heq] at hafter
            exact .inl (Option.some.inj (hafter.symm.trans hbefore))

theorem ProxySound.silent {state : ProxyState} (h : ProxySound limits state) :
    Silent limits state := by
  intro action next hstep index before after hbefore hafter hshutdown
  obtain ⟨summary, hevent, -⟩ := hshutdown
  have hsound := h.tunnels before (List.mem_of_getElem? hbefore)
  have hcopy : before.copy ≠ .live := by
    intro hlive
    have hpolling := hsound.relaying (.inr (hsound.copying hlive))
    rcases hsound.reported (by rw [hevent]; rintro ⟨⟩) with hrecorded | hreleased
    · rw [hpolling] at hrecorded
      cases hrecorded
    · rw [hpolling] at hreleased
      cases hreleased
  rcases step_tunnel hstep hbefore hafter with rfl | ⟨action, hchanged⟩
  · exact ⟨rfl, rfl⟩
  · exact moved_step hchanged hcopy

/-- In a run in which no closure finds its request cancelled while bytes are copied for it,
every copying task has a permit and is silent after a shutdown. -/
theorem orderly_run_bounded {actions : List ProxyAction} {state : ProxyState}
    (hrun : run (ProxyState.step limits) (.start limits) actions = some state)
    (horderly : Throughout (ProxyState.step limits) Orderly (.start limits) actions) :
    Bounded limits state ∧ Silent limits state := by
  have hsound : ProxySound limits state :=
    run_invariant (fun _ _ _ h horderly hstep => proxySound_step h horderly hstep) hrun horderly
      (proxySound_start limits)
  exact ⟨hsound.bounded, hsound.silent⟩

/-! ### A cancelled request -/

def oneTunnel : TunnelLimits where
  maxBytes := 100
  maxConcurrent := 1

/-- A tunnel that is cancelled before its relay has started, or after. -/
def cancelledRun (started : Bool) : List ProxyAction :=
  [.connect "localhost" 443, .tunnel 0 (.dialed true), .tunnel 0 .entered] ++
    (if started = true then [.tunnel 0 .relayStarts] else []) ++
    [.tunnel 0 .cancel, .tunnel 0 .poll, .tunnel 0 .record, .tunnel 0 .release]

/-- A relay that is cancelled before it starts copies nothing, and its permit is free. -/
theorem cancelled_early_bounded :
    ∃ state, run (ProxyState.step oneTunnel) (.start oneTunnel) (cancelledRun false) = some state ∧
      state.available = 1 ∧ Bounded oneTunnel state ∧ Silent oneTunnel state := by
  obtain ⟨state, hrun⟩ : ∃ state, run (ProxyState.step oneTunnel) (.start oneTunnel)
      (cancelledRun false) = some state := Option.isSome_iff_exists.mp (by decide)
  have havailable : (run (ProxyState.step oneTunnel) (.start oneTunnel)
      (cancelledRun false)).map ProxyState.available = some 1 := by decide
  rw [hrun] at havailable
  exact ⟨state, hrun, Option.some.inj havailable, orderly_run_bounded hrun (by decide)⟩

/-- A copying task outlives its relay, its event and its permit. -/
theorem cancelled_relay_goes_on :
    ¬∀ (limits : TunnelLimits) (actions : List ProxyAction) (state : ProxyState),
      run (ProxyState.step limits) (.start limits) actions = some state →
      Bounded limits state ∧ Silent limits state := by
  intro h
  obtain ⟨state, hrun⟩ : ∃ state, run (ProxyState.step oneTunnel) (.start oneTunnel)
      (cancelledRun true) = some state := Option.isSome_iff_exists.mp (by decide)
  have hcopying : (run (ProxyState.step oneTunnel) (.start oneTunnel) (cancelledRun true)).map
      (fun state => (state.tunnels.countP isCopying, state.tunnels.countP holdsPermit)) =
        some (1, 0) := by decide
  rw [hrun] at hcopying
  obtain ⟨hcopies, hpermits⟩ := Prod.mk.inj (Option.some.inj hcopying)
  have hbounded := (h oneTunnel _ state hrun).1.1
  rw [hcopies, hpermits] at hbounded
  exact absurd hbounded (by decide)

end EggReplay.Intercept.TunnelPermits
