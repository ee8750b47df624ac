import EggReplay.Intercept.ExplicitProxy
import EggReplay.Library.TransitionSystem

/-!
The accounts of the explicit proxy over any sequence of requests: what each handler moves, and
the two exits at which a request is counted twice or not at all.
-/

namespace EggReplay.Intercept.ProxyAccounting

open EggReplay.Http.ResponseRendering
open EggReplay.Intercept.Authorities
open EggReplay.Intercept.ExplicitProxy
open EggReplay.Intercept.TargetPolicies
open EggReplay.Library.TransitionSystem

variable {φ ρ : Type} {proxy : Proxy φ ρ} {exchange : Exchange φ}
  {state before middle after : ProxyState φ}

def ProxyStats.failed (stats : ProxyStats) : Nat := ∑ index, stats.failures index

/-! ### What is asked of each request -/

/-- The request gets to where its target is resolved. -/
def reachesResolution (exchange : Exchange φ) : Bool :=
  isConnect exchange == exchange.capability.isSome

def CountedOnce (before after : ProxyStats) : Prop :=
  after.accepted = before.accepted + 1 ∧ after.rejected = before.rejected ∨
    after.accepted = before.accepted ∧ after.rejected = before.rejected + 1

/-- At every moment: no more tunnels than admissions, and as many flows as were recorded. -/
structure Balanced (state : ProxyState φ) : Prop where
  tunnels : state.stats.tunneled + state.stats.intercepted ≤ state.stats.accepted
  flows : state.stats.flows = state.recorded.length

structure Accounted (proxy : Proxy φ ρ) (before : ProxyState φ) (exchange : Exchange φ) :
    Prop where
  once : reachesResolution exchange = true →
    CountedOnce before.stats (dispatch proxy exchange before).1.stats
  categorized : (dispatch proxy exchange before).1.stats.rejected ≠ before.stats.rejected →
    (dispatch proxy exchange before).1.stats.rejected = before.stats.rejected + 1 ∧
      ProxyStats.failed (dispatch proxy exchange before).1.stats =
        ProxyStats.failed before.stats + 1
  balanced : Balanced (dispatch proxy exchange before).1

/-! ### When a request is counted once -/

def admitsPlain (proxy : Proxy φ ρ) (exchange : Exchange φ) : Bool :=
  match resolveAbsoluteTarget proxy.http exchange.head with
  | .ok canonical => proxy.policy.allowsPlain canonical.host canonical.port
  | .error _ => false

def asksUpgrade (proxy : Proxy φ ρ) (exchange : Exchange φ) : Bool :=
  match upstreamHeaders proxy.http "invalid proxy header" exchange.head.headers with
  | .ok headers => (filterProxyHeaders headers).upgradeRequested
  | .error _ => false

def admitsTunnel (proxy : Proxy φ ρ) (exchange : Exchange φ) : Bool :=
  match exchange.capability with
  | none => false
  | some offered =>
      match resolveConnectTarget (connectAuthority exchange offered) with
      | .ok target => decide (proxy.policy.resolveConnect target.host target.port = .tunnel)
      | .error _ => false

/-- No admitted request asks for an upgrade, and no admitted tunnel fails to be dialed. -/
structure Regular (proxy : Proxy φ ρ) (exchange : Exchange φ) : Prop where
  plain : isConnect exchange = false → exchange.capability = none →
    admitsPlain proxy exchange = true → asksUpgrade proxy exchange = false
  dialed : isConnect exchange = true → admitsTunnel proxy exchange = true →
    exchange.permit = true → exchange.dial = .connected

/-! ### What a handler moves -/

/-- Neither admission nor refusal; what is recorded is counted. -/
structure Onward (before after : ProxyState φ) : Prop where
  accepted : after.stats.accepted = before.stats.accepted
  rejected : after.stats.rejected = before.stats.rejected
  tunneled : after.stats.tunneled = before.stats.tunneled
  intercepted : after.stats.intercepted = before.stats.intercepted
  flows : after.stats.flows + before.recorded.length =
    before.stats.flows + after.recorded.length

structure Refused (before after : ProxyState φ) : Prop where
  accepted : after.stats.accepted = before.stats.accepted
  rejected : after.stats.rejected = before.stats.rejected + 1
  tunneled : after.stats.tunneled = before.stats.tunneled
  intercepted : after.stats.intercepted = before.stats.intercepted
  flows : after.stats.flows = before.stats.flows
  recorded : after.recorded = before.recorded
  failed : ProxyStats.failed after.stats = ProxyStats.failed before.stats + 1

structure Admitted (before after : ProxyState φ) : Prop where
  accepted : after.stats.accepted = before.stats.accepted + 1
  rejected : after.stats.rejected = before.stats.rejected
  tunnels : after.stats.tunneled + after.stats.intercepted ≤
    before.stats.tunneled + before.stats.intercepted + 1
  flows : after.stats.flows + before.recorded.length =
    before.stats.flows + after.recorded.length

theorem Onward.refl (state : ProxyState φ) : Onward state state := ⟨rfl, rfl, rfl, rfl, rfl⟩

theorem Onward.trans (h : Onward before middle) (h' : Onward middle after) :
    Onward before after where
  accepted := h'.accepted.trans h.accepted
  rejected := h'.rejected.trans h.rejected
  tunneled := h'.tunneled.trans h.tunneled
  intercepted := h'.intercepted.trans h.intercepted
  flows := by
    have hfirst := h.flows
    have hsecond := h'.flows
    omega

theorem Admitted.onward (h : Admitted before middle) (h' : Onward middle after) :
    Admitted before after where
  accepted := h'.accepted.trans h.accepted
  rejected := h'.rejected.trans h.rejected
  tunnels := by
    have htunnels := h.tunnels
    rw [h'.tunneled, h'.intercepted]
    exact htunnels
  flows := by
    have hfirst := h.flows
    have hsecond := h'.flows
    omega

theorem recordFailure_eq (stats : ProxyStats) {category : String}
    (hknown : category ∈ proxyFailureCategories) :
    ∃ index, stats.recordFailure category =
      { stats with failures := Function.update stats.failures index (stats.failures index + 1) } := by
  unfold ProxyStats.recordFailure
  cases hindex : proxyFailureCategories.finIdxOf? category with
  | none => exact absurd hknown (List.finIdxOf?_eq_none_iff.mp hindex)
  | some index => exact ⟨index, rfl⟩

theorem onward_fail (state : ProxyState φ) (category : String) :
    Onward state (state.fail category) := by
  unfold ProxyState.fail ProxyState.count ProxyStats.recordFailure
  cases proxyFailureCategories.finIdxOf? category with
  | none => exact Onward.refl state
  | some index => exact ⟨rfl, rfl, rfl, rfl, rfl⟩

theorem sum_update {n : Nat} (f : Fin n → Nat) (index : Fin n) :
    ∑ i, Function.update f index (f index + 1) i = ∑ i, f i + 1 := by
  rw [Finset.sum_update_of_mem (Finset.mem_univ index), ← Finset.add_sum_erase Finset.univ f
    (Finset.mem_univ index), Finset.sdiff_singleton_eq_erase]
  omega

theorem refused_refuse (state : ProxyState φ) {category : String}
    (hknown : category ∈ proxyFailureCategories) : Refused state (state.refuse category) := by
  obtain ⟨index, heq⟩ := recordFailure_eq state.stats.recordReject hknown
  unfold ProxyState.refuse ProxyState.fail ProxyState.count
  simp only [heq]
  exact
    { accepted := rfl
      rejected := rfl
      tunneled := rfl
      intercepted := rfl
      flows := rfl
      recorded := rfl
      failed := sum_update state.stats.failures index }

theorem admitted_accept (state : ProxyState φ) :
    Admitted state (state.count ProxyStats.recordAccept) :=
  ⟨rfl, rfl, Nat.le_succ _, rfl⟩

theorem admitted_tunnel (state : ProxyState φ) :
    Admitted state ((state.count ProxyStats.recordAccept).count ProxyStats.recordTunnel) := by
  refine ⟨rfl, rfl, ?_, rfl⟩
  show state.stats.tunneled + 1 + state.stats.intercepted ≤ _
  omega

theorem admitted_intercept (state : ProxyState φ) :
    Admitted state ((state.count ProxyStats.recordAccept).count ProxyStats.recordIntercept) :=
  ⟨rfl, rfl, Nat.le_refl _, rfl⟩

/-! ### The handlers -/

theorem onward_sendRecorded (record : Outbound → Option φ) (state : ProxyState φ)
    (outbound : Outbound) : Onward state (sendRecorded proxy record state outbound).1 := by
  unfold sendRecorded
  cases record outbound with
  | none => exact onward_fail state failureUpstreamFailed
  | some flow =>
      refine ⟨rfl, rfl, rfl, rfl, ?_⟩
      show state.stats.flows + 1 + state.recorded.length =
        state.stats.flows + (state.recorded ++ [flow]).length
      rw [List.length_append, List.length_singleton]
      omega

theorem onward_decryptedOutbound (connect : NormalizedTarget) (state : ProxyState φ)
    (head : RequestHead) : Onward state (decryptedOutbound proxy connect state head).1 := by
  unfold decryptedOutbound
  split_ifs with hform hcoherent
  · exact onward_fail state failureInvalidAuthority
  · exact onward_fail state failureAuthorityMismatch
  · cases upstreamHeaders proxy.http "invalid request header" head.headers with
    | error error => exact Onward.refl state
    | ok headers =>
        dsimp only
        split_ifs with hupgrade huri
        · exact onward_fail state failureUnsupported
        · exact Onward.refl state
        · exact Onward.refl state

theorem onward_serveDecrypted (connect : NormalizedTarget) (poisoned : Bool)
    (state : ProxyState φ) (requests : List (DecryptedRequest φ)) :
    Onward state (serveDecrypted proxy connect poisoned state requests) := by
  induction requests generalizing poisoned state with
  | nil =>
      cases poisoned with
      | false => exact Onward.refl state
      | true => exact Onward.refl state
  | cons request rest ih =>
      cases poisoned with
      | true => exact ih true state
      | false =>
          have hsent : Onward state (decryptedOutbound proxy connect state request.head).1 :=
            onward_decryptedOutbound connect state request.head
          rw [serveDecrypted]
          revert hsent
          obtain ⟨next, closed, result⟩ := decryptedOutbound proxy connect state request.head
          intro hsent
          cases result with
          | error error => exact hsent.trans (ih closed next)
          | ok outbound =>
              exact (hsent.trans (onward_sendRecorded request.record next outbound)).trans
                (ih closed _)

theorem onward_serveTunnel (target : NormalizedTarget) (interception : Interception φ)
    (state : ProxyState φ) : Onward state (serveTunnel proxy target interception state) := by
  unfold serveTunnel
  cases interception.handshake with
  | failed => exact onward_fail state failureTlsFailed
  | accepted alpn serverName =>
      dsimp only
      split_ifs with halpn hsni
      · exact onward_fail state failureUnsupported
      · exact onward_fail state failureAuthorityMismatch
      · exact onward_serveDecrypted target false state interception.requests

theorem onward_serveInterceptedConnect (target : NormalizedTarget)
    (interception : Interception φ) (state : ProxyState φ) :
    Onward state (serveInterceptedConnect proxy target interception state).1 := by
  unfold serveInterceptedConnect
  split_ifs with hleaf hconfig haccepted
  · exact Onward.refl state
  · exact Onward.refl state
  · exact Onward.refl state
  · exact onward_serveTunnel target interception state

theorem handleIntercept_cases (target : NormalizedTarget) (state : ProxyState φ) :
    Refused state (handleIntercept proxy exchange target state).1 ∨
      Admitted state (handleIntercept proxy exchange target state).1 := by
  unfold handleIntercept
  split_ifs with hintercepts hpermit
  · exact .inl (refused_refuse state (by decide))
  · exact .inl (refused_refuse state (by decide))
  · right
    have hserved : Admitted state (serveInterceptedConnect proxy target exchange.interception
        ((state.count ProxyStats.recordAccept).count ProxyStats.recordIntercept)).1 :=
      (admitted_intercept state).onward
        (onward_serveInterceptedConnect target exchange.interception _)
    dsimp only
    revert hserved
    generalize serveInterceptedConnect proxy target exchange.interception
      ((state.count ProxyStats.recordAccept).count ProxyStats.recordIntercept) = served
    obtain ⟨next, result⟩ := served
    intro hserved
    cases result with
    | ok response => exact hserved
    | error error => exact hserved.onward (onward_fail next failureTlsFailed)

theorem handleTunnel_of_dialed (state : ProxyState φ)
    (hdialed : exchange.permit = true → exchange.dial = .connected) :
    Refused state (handleTunnel (ρ := ρ) exchange state).1 ∨
      Admitted state (handleTunnel (ρ := ρ) exchange state).1 := by
  unfold handleTunnel
  cases hpermit : exchange.permit with
  | false => exact .inl (refused_refuse state (by decide))
  | true =>
      rw [hdialed hpermit, if_neg (by decide)]
      dsimp only
      split_ifs with haccepted
      · exact .inr (admitted_tunnel state)
      · exact .inr ((admitted_tunnel state).onward (onward_fail _ failureInternal))

/-- A permitted tunnel whose target is not dialed is counted nowhere. -/
theorem handleTunnel_of_undialed (state : ProxyState φ) (hpermit : exchange.permit = true)
    (hdial : exchange.dial ≠ .connected) :
    Onward state (handleTunnel (ρ := ρ) exchange state).1 := by
  unfold handleTunnel
  rw [if_neg (by rw [hpermit]; decide)]
  cases h : exchange.dial with
  | timedOut => exact onward_fail state failureUpstreamFailed
  | failed error => exact onward_fail state failureUpstreamFailed
  | connected => exact absurd h hdial

theorem handlePlain_of_refused (state : ProxyState φ) (h : admitsPlain proxy exchange = false) :
    Refused state (handlePlain proxy exchange state).1 := by
  unfold handlePlain plainOutbound
  unfold admitsPlain at h
  cases hresolve : resolveAbsoluteTarget proxy.http exchange.head with
  | error rejection => exact refused_refuse state (by decide)
  | ok canonical =>
      rw [hresolve] at h
      dsimp only at h ⊢
      rw [if_pos h]
      exact refused_refuse state (by decide)

/-- The request as it is after its target is admitted. -/
theorem plainOutbound_of_admitted (state : ProxyState φ) (h : admitsPlain proxy exchange = true) :
    ∃ result : Except ServiceError Outbound,
      plainOutbound proxy state exchange.head =
        if asksUpgrade proxy exchange = true then
          ((state.count ProxyStats.recordAccept).refuse failureUnsupported,
            .error (.rejected 400 "proxy upgrade unsupported"))
        else (state.count ProxyStats.recordAccept, result) := by
  unfold plainOutbound asksUpgrade
  unfold admitsPlain at h
  cases hresolve : resolveAbsoluteTarget proxy.http exchange.head with
  | error rejection =>
      rw [hresolve] at h
      cases h
  | ok canonical =>
      rw [hresolve] at h
      dsimp only at h ⊢
      rw [if_neg (by rw [h]; decide)]
      cases upstreamHeaders proxy.http "invalid proxy header" exchange.head.headers with
      | error error => exact ⟨.error error, rfl⟩
      | ok headers => exact ⟨_, rfl⟩

theorem handlePlain_of_admitted (state : ProxyState φ) (h : admitsPlain proxy exchange = true)
    (hupgrade : asksUpgrade proxy exchange = false) :
    Admitted state (handlePlain proxy exchange state).1 := by
  obtain ⟨result, heq⟩ := plainOutbound_of_admitted state h
  rw [if_neg (by rw [hupgrade]; decide)] at heq
  unfold handlePlain
  rw [heq]
  cases result with
  | error error => exact admitted_accept state
  | ok outbound =>
      exact (admitted_accept state).onward (onward_sendRecorded exchange.record _ outbound)

/-- An upgrade is refused after its request was admitted. -/
theorem handlePlain_of_upgrade (state : ProxyState φ) (h : admitsPlain proxy exchange = true)
    (hupgrade : asksUpgrade proxy exchange = true) :
    (handlePlain proxy exchange state).1 =
      (state.count ProxyStats.recordAccept).refuse failureUnsupported := by
  obtain ⟨result, heq⟩ := plainOutbound_of_admitted state h
  rw [if_pos hupgrade] at heq
  unfold handlePlain
  rw [heq]

theorem handleConnect_of_dialed (state : ProxyState φ)
    (hdialed : admitsTunnel proxy exchange = true → exchange.permit = true →
      exchange.dial = .connected) :
    Refused state (handleConnect proxy exchange state).1 ∨
      Admitted state (handleConnect proxy exchange state).1 := by
  unfold handleConnect
  unfold admitsTunnel at hdialed
  cases hcapability : exchange.capability with
  | none => exact .inl (refused_refuse state (by decide))
  | some offered =>
      rw [hcapability] at hdialed
      dsimp only
      cases hresolve : resolveConnectTarget (connectAuthority exchange offered) with
      | error rejection => exact .inl (refused_refuse state (by decide))
      | ok target =>
          simp only [hresolve, decide_eq_true_eq] at hdialed
          dsimp only
          cases haction : proxy.policy.resolveConnect target.host target.port with
          | deny => exact .inl (refused_refuse state (by decide))
          | intercept => exact handleIntercept_cases target state
          | tunnel => exact handleTunnel_of_dialed state (hdialed haction)

theorem handleConnect_of_undialed (state : ProxyState φ) (h : admitsTunnel proxy exchange = true)
    (hpermit : exchange.permit = true) (hdial : exchange.dial ≠ .connected) :
    Onward state (handleConnect proxy exchange state).1 := by
  unfold handleConnect
  unfold admitsTunnel at h
  cases hcapability : exchange.capability with
  | none =>
      rw [hcapability] at h
      cases h
  | some offered =>
      rw [hcapability] at h
      dsimp only at h ⊢
      cases hresolve : resolveConnectTarget (connectAuthority exchange offered) with
      | error rejection =>
          rw [hresolve] at h
          cases h
      | ok target =>
          simp only [hresolve, decide_eq_true_eq] at h
          dsimp only
          rw [h]
          exact handleTunnel_of_undialed state hpermit hdial

/-! ### Each request -/

/-- What a request does to the counters, by whether it is refused after its admission or left
out of them. -/
inductive Moved (before after : ProxyState φ) : Prop
  | refused (h : Refused before after)
  | admitted (h : Admitted before after)
  | both (middle : ProxyState φ) (h : Admitted before middle) (h' : Refused middle after)
      (hfailed : ProxyStats.failed middle.stats = ProxyStats.failed before.stats)
  | onward (h : Onward before after)

theorem moved_dispatch (proxy : Proxy φ ρ) (exchange : Exchange φ) (state : ProxyState φ) :
    Moved state (dispatch proxy exchange state).1 := by
  unfold dispatch
  split_ifs with hconnect hcapability
  · by_cases hdialed : admitsTunnel proxy exchange = true → exchange.permit = true →
        exchange.dial = .connected
    · rcases handleConnect_of_dialed state hdialed with h | h
      · exact .refused h
      · exact .admitted h
    · push Not at hdialed
      obtain ⟨htunnel, hpermit, hdial⟩ := hdialed
      exact .onward (handleConnect_of_undialed state htunnel hpermit hdial)
  · exact .onward (Onward.refl state)
  · cases hadmits : admitsPlain proxy exchange with
    | false => exact .refused (handlePlain_of_refused state hadmits)
    | true =>
        cases hupgrade : asksUpgrade proxy exchange with
        | false => exact .admitted (handlePlain_of_admitted state hadmits hupgrade)
        | true =>
            rw [handlePlain_of_upgrade state hadmits hupgrade]
            exact .both _ (admitted_accept state) (refused_refuse _ (by decide)) rfl

theorem Balanced.onward (hbalanced : Balanced before) (h : Onward before after) :
    Balanced after where
  tunnels := by
    have htunnels := hbalanced.tunnels
    rw [h.tunneled, h.intercepted, h.accepted]
    exact htunnels
  flows := by
    have hflows := hbalanced.flows
    have hmoved := h.flows
    omega

theorem Balanced.admitted (hbalanced : Balanced before) (h : Admitted before after) :
    Balanced after where
  tunnels := by
    have htunnels := hbalanced.tunnels
    have hmoved := h.tunnels
    have haccepted := h.accepted
    omega
  flows := by
    have hflows := hbalanced.flows
    have hmoved := h.flows
    omega

theorem Balanced.refused (hbalanced : Balanced before) (h : Refused before after) :
    Balanced after where
  tunnels := by
    have htunnels := hbalanced.tunnels
    rw [h.tunneled, h.intercepted, h.accepted]
    exact htunnels
  flows := by
    rw [h.flows, h.recorded]
    exact hbalanced.flows

theorem Balanced.moved (hbalanced : Balanced before) (h : Moved before after) : Balanced after := by
  cases h with
  | refused h => exact hbalanced.refused h
  | admitted h => exact hbalanced.admitted h
  | both middle h h' hfailed => exact (hbalanced.admitted h).refused h'
  | onward h => exact hbalanced.onward h

theorem Moved.categorized (h : Moved before after)
    (hrejected : after.stats.rejected ≠ before.stats.rejected) :
    after.stats.rejected = before.stats.rejected + 1 ∧
      ProxyStats.failed after.stats = ProxyStats.failed before.stats + 1 := by
  cases h with
  | refused h => exact ⟨h.rejected, h.failed⟩
  | admitted h => exact absurd h.rejected hrejected
  | both middle h h' hfailed =>
      rw [h'.rejected, h'.failed, h.rejected, hfailed]
      exact ⟨rfl, rfl⟩
  | onward h => exact absurd h.rejected hrejected

theorem countedOnce_of_regular (h : Regular proxy exchange)
    (hreaches : reachesResolution exchange = true) (state : ProxyState φ) :
    CountedOnce state.stats (dispatch proxy exchange state).1.stats := by
  have hcounted : Refused state (dispatch proxy exchange state).1 ∨
      Admitted state (dispatch proxy exchange state).1 := by
    unfold reachesResolution at hreaches
    rw [beq_iff_eq] at hreaches
    unfold dispatch
    cases hconnect : isConnect exchange with
    | true => exact handleConnect_of_dialed state (h.dialed hconnect)
    | false =>
        rw [hconnect] at hreaches
        have hcapability := Option.not_isSome_iff_eq_none.mp (by rw [← hreaches]; decide)
        rw [if_neg (by decide), if_neg (by rw [← hreaches]; decide)]
        cases hadmits : admitsPlain proxy exchange with
        | false => exact .inl (handlePlain_of_refused state hadmits)
        | true =>
            exact .inr (handlePlain_of_admitted state hadmits
              (h.plain hconnect hcapability hadmits))
  rcases hcounted with hrefused | hadmitted
  · exact .inr ⟨hrefused.accepted, hrefused.rejected⟩
  · exact .inl ⟨hadmitted.accepted, hadmitted.rejected⟩

theorem regular_of_countedOnce {state : ProxyState φ}
    (h : reachesResolution exchange = true →
      CountedOnce state.stats (dispatch proxy exchange state).1.stats) :
    Regular proxy exchange := by
  refine ⟨?_, ?_⟩
  · intro hconnect hcapability hadmits
    by_contra hupgrade
    have hcounted := h (by rw [reachesResolution, hconnect, hcapability]; rfl)
    rw [dispatch, if_neg (by rw [hconnect]; decide), if_neg (by rw [hcapability]; decide),
      handlePlain_of_upgrade state hadmits (Bool.not_eq_false _ ▸ hupgrade)] at hcounted
    have hrefused := refused_refuse (state.count ProxyStats.recordAccept)
      (show failureUnsupported ∈ proxyFailureCategories by decide)
    have haccepted := hrefused.accepted.trans (admitted_accept state).accepted
    have hrejected := hrefused.rejected
    rw [(admitted_accept state).rejected] at hrejected
    unfold CountedOnce at hcounted
    omega
  · intro hconnect htunnel hpermit
    by_contra hdial
    have hcapability : exchange.capability.isSome = true := by
      unfold admitsTunnel at htunnel
      cases hnone : exchange.capability with
      | none =>
          rw [hnone] at htunnel
          cases htunnel
      | some offered => rfl
    have hcounted := h (by rw [reachesResolution, hconnect, hcapability]; rfl)
    rw [dispatch, if_pos hconnect] at hcounted
    have honward := @handleConnect_of_undialed _ _ proxy _ state htunnel hpermit hdial
    have haccepted := honward.accepted
    have hrejected := honward.rejected
    unfold CountedOnce at hcounted
    omega

theorem accounted_iff (hbalanced : Balanced state) :
    Accounted proxy state exchange ↔ Regular proxy exchange := by
  constructor
  · intro h
    exact regular_of_countedOnce h.once
  · intro h
    have hmoved := moved_dispatch proxy exchange state
    exact
      { once := fun hreaches => countedOnce_of_regular h hreaches state
        categorized := hmoved.categorized
        balanced := hbalanced.moved hmoved }

/-! ### Each run -/

def step (proxy : Proxy φ ρ) (state : ProxyState φ) (exchange : Exchange φ) :
    Option (ProxyState φ) :=
  some (dispatch proxy exchange state).1

/-- Over any sequence of requests the accounts are right exactly if none of them asks for an
upgrade after its target is admitted, or has a tunnel that is not dialed. -/
theorem accounted_throughout_iff (proxy : Proxy φ ρ) (exchanges : List (Exchange φ)) :
    Throughout (step proxy) (Accounted proxy) ProxyState.new exchanges ↔
      ∀ exchange ∈ exchanges, Regular proxy exchange := by
  have hstart : Balanced (ProxyState.new : ProxyState φ) := ⟨Nat.le_refl _, rfl⟩
  have htotal : ∀ state exchange, (step proxy state exchange).isSome = true := fun _ _ => rfl
  rw [← throughout_of_total htotal]
  refine throughout_iff ?_ ?_ hstart
  · intro state exchange hbalanced
    exact accounted_iff hbalanced
  · intro before exchange after hbalanced hregular hstep
    rw [← Option.some.inj hstep]
    exact hbalanced.moved (moved_dispatch proxy exchange before)

/-- A proxy that tunnels and forwards to one host. -/
def openProxy : Proxy Unit Unit where
  policy :=
    { rules := [{ host := .exactDns "a.test", ports := .any, kind := .any, action := .allow }]
      defaultConnectAction := .tunnel
      bounded := by decide }
  intercepts := false
  http :=
    { headerName := fun _ => true
      headerValue := fun _ => true
      parsesUri := fun _ => true
      builds := fun _ _ => none }
  respond := fun _ => .ok ()

def noInterception : Interception Unit where
  leafIssued := false
  configBuilt := false
  accepted := false
  handshake := .failed
  requests := []

/-- A tunnel to a host that does not answer in time. -/
def undialed : Exchange Unit where
  head :=
    { method := "CONNECT"
      form := .authority
      scheme := none
      uriAuthority := none
      authority := some "a.test:443"
      path := ""
      query := none
      headers := [] }
  capability := some (some "a.test:443")
  permit := true
  dial := .timedOut
  tunnelAccepted := true
  interception := noInterception
  record := fun _ => some ()

def upgrading : Exchange Unit where
  head :=
    { method := "GET"
      form := .absolute
      scheme := some "http"
      uriAuthority := some "a.test"
      authority := some "a.test"
      path := "/"
      query := none
      headers := [{ name := "upgrade", value := [0x68, 0x32, 0x63] }] }
  capability := none
  permit := true
  dial := .connected
  tunnelAccepted := true
  interception := noInterception
  record := fun _ => some ()

/-- One request is counted nowhere, the other both as accepted and as rejected. -/
theorem exits_not_counted_once :
    reachesResolution undialed = true ∧
      ((dispatch openProxy undialed ProxyState.new).1.stats.accepted,
        (dispatch openProxy undialed ProxyState.new).1.stats.rejected) = (0, 0) ∧
      reachesResolution upgrading = true ∧
      ((dispatch openProxy upgrading ProxyState.new).1.stats.accepted,
        (dispatch openProxy upgrading ProxyState.new).1.stats.rejected) = (1, 1) ∧
      ¬Throughout (step openProxy) (Accounted openProxy) ProxyState.new [undialed] ∧
      ¬Throughout (step openProxy) (Accounted openProxy) ProxyState.new [upgrading] := by
  refine ⟨by decide, by decide, by decide, by decide, ?_, ?_⟩
  · rintro ⟨haccounted, -⟩
    rcases haccounted.once (by decide) with ⟨haccepted, -⟩ | ⟨-, hrejected⟩
    · revert haccepted
      decide
    · revert hrejected
      decide
  · rintro ⟨haccounted, -⟩
    rcases haccounted.once (by decide) with ⟨-, hrejected⟩ | ⟨haccepted, -⟩
    · revert hrejected
      decide
    · revert haccepted
      decide

end EggReplay.Intercept.ProxyAccounting
