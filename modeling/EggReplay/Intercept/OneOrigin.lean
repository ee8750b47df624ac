import EggReplay.Http.Atomicity
import EggReplay.Intercept.CanonicalAuthorities

/-!
The decrypted requests of one intercepted connection: what is sent upstream for them, which
flows their recorder adds to the session, and that all of it belongs to the target of the
`CONNECT`.
-/

namespace EggReplay.Intercept.OneOrigin

open EggReplay.Core.FlowRecord
open EggReplay.Core.Redaction
open EggReplay.Core.StreamTimeline
open EggReplay.Http.Atomicity
open EggReplay.Http.Captures
open EggReplay.Http.Recorder
open EggReplay.Http.ResponseRendering
open EggReplay.Http.StreamEventCapture
open EggReplay.Http.Transaction
open EggReplay.Intercept.Authorities
open EggReplay.Intercept.CanonicalAuthorities
open EggReplay.Intercept.ExplicitProxy
open EggReplay.Intercept.Hosts
open EggReplay.Intercept.TargetPolicies
open EggReplay.Library.Checks
open EggReplay.Library.IpText
open EggReplay.Library.Stateful
open EggReplay.Library.Text
open EggReplay.Store.Fixture
open EggReplay.Store.Recording
open EggReplay.Store.SessionOpen
open EggReplay.Store.Staging

variable {N ρ : Type}

/-- The state that the intercepted connections of one proxy share. -/
structure MitmInner (N ρ : Type) where
  policy : TargetPolicy
  headerName : String → Bool
  headerValue : Bytes → Bool
  builds : String → String → Option String
  parseUri : String → Option Uri
  respond : Flow → Except ServiceError ρ
  storage : Codec
  codec : BodyCodec N
  settings : Settings

def MitmInner.proxy (mitm : MitmInner N ρ) : Proxy Flow ρ where
  policy := mitm.policy
  intercepts := true
  http :=
    { headerName := mitm.headerName
      headerValue := mitm.headerValue
      parsesUri := fun text => (mitm.parseUri text).isSome
      builds := mitm.builds }
  respond := mitm.respond

/-- A decrypted request, the session as its recorder finds it, and what the recorder observes
beside the head that is sent. -/
structure Arrival where
  head : RequestHead
  session : RecordingInner
  observed : Exchange

/-- A request that went upstream, and the flow that its recorder added to the session. -/
structure Sent where
  exchange : Exchange
  logged : Option Flow

structure MitmService where
  connect : NormalizedTarget
  poisoned : Bool
  state : ProxyState Flow
  sent : List Sent

def MitmService.new (connect : NormalizedTarget) : MitmService where
  connect := connect
  poisoned := false
  state := ProxyState.new
  sent := []

def Arrival.exchange (arrival : Arrival) (outbound : Outbound) (uri : Uri) : Exchange :=
  { arrival.observed with
    method := outbound.method
    uri := uri
    headers := outbound.headers }

section

variable (mitm : MitmInner N ρ)

def MitmInner.record (arrival : Arrival) (exchange : Exchange) :
    Except HttpError Flow × RecordingInner :=
  recordRequestWithSession mitm.storage mitm.codec mitm.settings exchange arrival.session

/-- The recorder sends a request once its head is converted and a sink is open for its body. -/
def MitmInner.sends (arrival : Arrival) (exchange : Exchange) : Bool :=
  (requestHead mitm.codec exchange.method exchange.uri exchange.headers).isOk &&
    arrival.session.beginBlob.isOk

/-- The flow that a recorder adds to the log, also where its call fails afterwards. -/
def MitmInner.appended (arrival : Arrival) (exchange : Exchange) : Option Flow :=
  match captured mitm.storage pushStreamEventInner mitm.codec mitm.settings
      arrival.session.limits.maxBlobBytes exchange with
  | .error _ => none
  | .ok done =>
      let flow := finishSessionFlow done.capture mitm.settings.profileId
      if (arrival.session.appendFlow flow).isOk = true then some flow else none

def MitmInner.upstream (arrival : Arrival) (outbound : Outbound) : List Sent :=
  match mitm.parseUri outbound.uri with
  | none => []
  | some uri =>
      let exchange := arrival.exchange outbound uri
      if mitm.sends arrival exchange = true then
        [{ exchange, logged := mitm.appended arrival exchange }]
      else []

def MitmInner.recordOutbound (arrival : Arrival) (outbound : Outbound) : Option Flow :=
  (mitm.parseUri outbound.uri).bind fun uri =>
    (mitm.record arrival (arrival.exchange outbound uri)).1.toOption

def MitmService.call (service : MitmService) (arrival : Arrival) : MitmService :=
  if service.poisoned = true then service
  else
    match decryptedOutbound mitm.proxy service.connect service.state arrival.head with
    | (state, poisoned, .error _) => { service with state, poisoned }
    | (state, poisoned, .ok outbound) =>
        { service with
          poisoned
          state := (sendRecorded mitm.proxy (mitm.recordOutbound arrival) state outbound).1
          sent := service.sent ++ mitm.upstream arrival outbound }

def MitmService.run (service : MitmService) (arrivals : List Arrival) : MitmService :=
  arrivals.foldl (MitmService.call mitm) service

end

variable {mitm : MitmInner N ρ} {service : MitmService} {arrival : Arrival}
  {arrivals before after : List Arrival} {connect : NormalizedTarget}

/-! ### The connection as the proxy serves it -/

def Arrival.request (mitm : MitmInner N ρ) (arrival : Arrival) : DecryptedRequest Flow where
  head := arrival.head
  record := mitm.recordOutbound arrival

/-- The counters of a connection and the flows that its calls gave back are those of the proxy. -/
theorem run_state (service : MitmService) (arrivals : List Arrival) :
    (service.run mitm arrivals).state =
      serveDecrypted mitm.proxy service.connect service.poisoned service.state
        (arrivals.map (Arrival.request mitm)) := by
  induction arrivals generalizing service with
  | nil =>
      rw [List.map_nil]
      cases hpoisoned : service.poisoned with
      | true => rfl
      | false => rfl
  | cons arrival rest ih =>
      have hrun : service.run mitm (arrival :: rest) = (service.call mitm arrival).run mitm rest :=
        rfl
      rw [hrun, ih, List.map_cons]
      cases hpoisoned : service.poisoned with
      | true =>
          rw [MitmService.call, if_pos hpoisoned, hpoisoned, serveDecrypted]
      | false =>
          have hfalse : ¬service.poisoned = true := by simp [hpoisoned]
          rw [MitmService.call, if_neg hfalse, serveDecrypted]
          dsimp only [Arrival.request]
          rcases decryptedOutbound mitm.proxy service.connect service.state arrival.head with
            ⟨state, poisoned, e | outbound⟩
          · rfl
          · rfl

/-! ### What a call sends -/

/-- The request names the target of the `CONNECT` and nothing else. -/
structure Coheres (connect : NormalizedTarget) (head : RequestHead) : Prop where
  form : head.form = .origin
  authority : ∃ text, head.authority = some text ∧
    normalizeAuthority text connect.port = .ok connect

theorem checkHttpAuthorityCoherence_iff {authority : Option String} :
    checkHttpAuthorityCoherence connect authority = true ↔
      ∃ text, authority = some text ∧ normalizeAuthority text connect.port = .ok connect := by
  cases authority with
  | none => simp [checkHttpAuthorityCoherence]
  | some text =>
      rcases hnormal : normalizeAuthority text connect.port with e | target
      · simp [checkHttpAuthorityCoherence, hnormal]
      · simp [checkHttpAuthorityCoherence, hnormal]

/-- An incoherent request closes the connection. -/
theorem decryptedOutbound_of_incoherent {proxy : Proxy Flow ρ} {state : ProxyState Flow}
    {head : RequestHead} (h : ¬Coheres connect head) :
    ∃ state' error, decryptedOutbound proxy connect state head = (state', true, .error error) := by
  rw [decryptedOutbound]
  by_cases hform : head.form = .origin
  · have hcheck : checkHttpAuthorityCoherence connect head.authority = false := by
      rw [Bool.eq_false_iff]
      intro hcheck
      exact h ⟨hform, checkHttpAuthorityCoherence_iff.mp hcheck⟩
    rw [if_neg (not_not.mpr hform), if_pos hcheck]
    exact ⟨_, _, rfl⟩
  · rw [if_pos hform]
    exact ⟨_, _, rfl⟩

/-- What is known of a request that is ready to be sent. -/
theorem decryptedOutbound_eq_ok {proxy : Proxy Flow ρ} {state state' : ProxyState Flow}
    {head : RequestHead} {poisoned : Bool} {outbound : Outbound}
    (h : decryptedOutbound proxy connect state head = (state', poisoned, .ok outbound)) :
    head.form = .origin ∧
      outbound.uri = "https://" ++ authorityText connect ++ withQuery head.path head.query ∧
      ∃ message headers, upstreamHeaders proxy.http message head.headers = .ok headers ∧
        outbound.headers = (filterProxyHeaders headers).forwarded := by
  rw [decryptedOutbound] at h
  split at h
  · cases h
  rename_i hform
  split at h
  · cases h
  split at h
  · cases h
  rename_i headers hheaders
  dsimp only at h
  split at h
  · cases h
  split at h
  · cases h
  obtain ⟨-, -, hbuilt⟩ : _ ∧ _ ∧ _ := by simpa only [Prod.mk.injEq] using h
  rw [outboundRequest] at hbuilt
  split at hbuilt
  · cases hbuilt
  · cases hbuilt
    refine ⟨not_not.mp hform, ?_, _, headers, hheaders, rfl⟩
    simp only [authorityText, String.append_assoc]

def HostLess (headers : HeaderMap) : Prop :=
  ∀ field ∈ headers, eqIgnoreAsciiCase field.name "host" = false

theorem mem_append {field other : HeaderField} {headers : HeaderMap}
    (h : other ∈ append field headers) : other = field ∨ other ∈ headers := by
  induction headers with
  | nil => exact .inl (List.mem_singleton.mp h)
  | cons head rest ih =>
      rw [append] at h
      split at h
      · rcases List.mem_cons.mp h with rfl | h
        · exact .inr List.mem_cons_self
        · rcases List.mem_cons.mp h with rfl | h
          · exact .inl rfl
          · exact .inr (List.mem_cons_of_mem _ h)
      · rcases List.mem_cons.mp h with rfl | h
        · exact .inr List.mem_cons_self
        · exact (ih h).imp_right (List.mem_cons_of_mem _)

theorem eqIgnoreAsciiCase_lowercase (name other : String) :
    eqIgnoreAsciiCase (toAsciiLowercase name) other = eqIgnoreAsciiCase name other := by
  rw [eqIgnoreAsciiCase, toAsciiLowercase_idem, eqIgnoreAsciiCase]

theorem upstreamHeaders_hostLess {http : HttpPackage} {message : String}
    {fields headers : HeaderMap} (h : upstreamHeaders http message fields = .ok headers) :
    HostLess headers := by
  rw [upstreamHeaders] at h
  have hfold : ∀ (remaining collected : HeaderMap),
      (∀ field ∈ remaining, eqIgnoreAsciiCase field.name "host" = false) → HostLess collected →
        remaining.foldlM (fun headers field => do
          ensure (http.headerName field.name = true) (ServiceError.rejected 400 message)
          ensure (http.headerValue field.value = true) (.rejected 400 message)
          pure (append { field with name := toAsciiLowercase field.name } headers)) collected =
            .ok headers → HostLess headers := by
    intro remaining
    induction remaining with
    | nil =>
        intro collected _ hcollected hfold
        rw [← pure_eq_ok.mp hfold]
        exact hcollected
    | cons field rest ih =>
        intro collected hremaining hcollected hfold
        rw [List.foldlM_cons] at hfold
        obtain ⟨next, hstep, hfold⟩ := bind_eq_ok.mp hfold
        simp only [bind_unit_eq_ok, pure_eq_ok] at hstep
        obtain ⟨-, -, rfl⟩ := hstep
        apply ih _ (fun other hother => hremaining other (List.mem_cons_of_mem _ hother)) ?_ hfold
        intro other hother
        rcases mem_append hother with rfl | hother
        · rw [eqIgnoreAsciiCase_lowercase]
          exact hremaining field List.mem_cons_self
        · exact hcollected other hother
  apply hfold _ [] ?_ (fun field hfield => by cases hfield) h
  intro field hfield
  have hkept := (List.mem_filter.mp hfield).2
  rwa [Bool.not_eq_true'] at hkept

theorem forwarded_hostLess {headers : HeaderMap} (h : HostLess headers) :
    HostLess (filterProxyHeaders headers).forwarded := by
  intro field hfield
  exact h field (List.mem_filter.mp hfield).1

/-! ### What the recorder adds to the session -/

/-- Redaction and reconciliation leave the origin of a request alone. -/
theorem finishSessionFlow_origin (capture : Capture) (profile : String) :
    (finishSessionFlow capture profile).request.scheme = capture.flow.request.scheme ∧
      (finishSessionFlow capture profile).request.authority =
        capture.flow.request.authority := by
  obtain ⟨headers, redactions, annotations, hflow⟩ := finishSessionFlow_fields capture profile
  rw [hflow]
  exact ⟨rfl, rfl⟩

theorem appended_origin {exchange : Exchange} {flow : Flow}
    (h : mitm.appended arrival exchange = some flow) :
    ∃ authority, exchange.uri.scheme = some flow.request.scheme ∧
      exchange.uri.authority = some authority ∧
      flow.request.authority = withoutUserinfo authority := by
  rw [MitmInner.appended] at h
  split at h
  · cases h
  · rename_i done hdone
    dsimp only at h
    split at h
    · cases h
      obtain ⟨converted, stored, answer, parts⟩ := captured_eq_ok hdone
      obtain ⟨scheme, authority, hscheme, hauthority, rfl⟩ := requestHead_eq_ok parts.head
      obtain ⟨hflowScheme, hflowAuthority⟩ :=
        finishSessionFlow_origin done.capture mitm.settings.profileId
      rw [parts.flow] at hflowScheme hflowAuthority
      exact ⟨authority, hscheme.trans (congrArg some hflowScheme.symm), hauthority,
        hflowAuthority⟩
    · cases h

def logOf (inner : RecordingInner) : Bytes := (inner.directory.files flowLog).getD []

theorem logOf_logged (inner : RecordingInner) (flow : Flow) :
    logOf (logged inner flow) = logOf inner ++ (flow.encode ++ [newline]) := by
  rw [logOf, logOf]
  show ((inner.directory.extendFile flowLog (flow.encode ++ [newline])).files flowLog).getD [] = _
  rw [Directory.extendFile]
  dsimp only
  rw [Function.update_self]
  rfl

/-- The state that publication leaves behind, whether or not the timeline is registered. -/
theorem publishRecord_log {storage : Codec} {flow : Flow} {events : FlowStreamEvents}
    {inner next : RecordingInner} (hflow : inner.appendFlow flow = .ok next) :
    logOf (publishRecord (sessionStore storage) flow events inner).2 =
        logOf inner ++ (flow.encode ++ [newline]) ∧
      (publishRecord (sessionStore storage) flow events inner).2.flowCount =
        inner.flowCount + 1 := by
  have happended : (sessionStore storage).appendFlow flow inner = (.ok (), next) :=
    sessionStore_appendFlow_eq_ok.mpr hflow
  obtain ⟨-, -, -, -, -, -, rfl⟩ := appendFlow_eq_ok.mp hflow
  rcases hevents : (logged inner flow).appendStreamEvents events with error | last
  · rw [publishRecord_of_events_error happended
      (sessionStore_appendStreamEvents_of_error hevents)]
    exact ⟨logOf_logged inner flow, rfl⟩
  · rw [publishRecord_of_ok happended (sessionStore_appendStreamEvents_eq_ok.mpr hevents)]
    obtain ⟨-, -, -, rfl⟩ := appendStreamEvents_eq_ok.mp hevents
    exact ⟨logOf_logged inner flow, rfl⟩

theorem sameSession_log {left right : RecordingInner} (h : SameSession left right) :
    logOf left = logOf right ∧ left.flowCount = right.flowCount :=
  ⟨by rw [logOf, logOf, h.files], h.flowCount⟩

theorem appended_of_captured {exchange : Exchange} {done : Captured}
    (hcaptured : captured mitm.storage pushStreamEventInner mitm.codec mitm.settings
      arrival.session.limits.maxBlobBytes exchange = .ok done) :
    mitm.appended arrival exchange =
      if (arrival.session.appendFlow
          (finishSessionFlow done.capture mitm.settings.profileId)).isOk = true then
        some (finishSessionFlow done.capture mitm.settings.profileId)
      else none := by
  rw [MitmInner.appended, hcaptured]

/-- A call of the recorder adds to the log the flow that is said to be added, and no other. -/
theorem record_log (mitm : MitmInner N ρ) (arrival : Arrival) (exchange : Exchange) :
    logOf (mitm.record arrival exchange).2 =
        logOf arrival.session ++ (mitm.appended arrival exchange).toList.flatMap
          (fun flow => flow.encode ++ [newline]) ∧
      (mitm.record arrival exchange).2.flowCount =
        arrival.session.flowCount + (mitm.appended arrival exchange).toList.length := by
  by_cases hrunning : arrival.session.shutdown = false
  · rcases recordRequestWithSession_run mitm.storage mitm.codec mitm.settings exchange hrunning
      with ⟨error, failed, hcaptured, hrun, hview⟩ |
        ⟨done, captureState, hcaptured, hrun, hview, -⟩
    · have hnone : mitm.appended arrival exchange = none := by
        rw [MitmInner.appended, hcaptured]
      have hsame := sameSession_log (sameSession_of_records hview)
      rw [MitmInner.record, hrun, hnone]
      simpa using hsame
    · have hsession := sameSession_of_records hview
      have hsame := sameSession_log hsession
      rw [MitmInner.record, hrun]
      rcases hflow : captureState.appendFlow
          (finishSessionFlow done.capture mitm.settings.profileId) with error | next
      · have hnone : mitm.appended arrival exchange = none := by
          rw [appended_of_captured hcaptured, if_neg]
          rw [isOk_iff, ← hsession.appendFlow]
          rintro ⟨next, hnext⟩
          cases hflow.symm.trans hnext
        rw [publishRecord_of_flow_error (sessionStore_appendFlow_of_error hflow), hnone]
        simpa using hsame
      · have hsome : mitm.appended arrival exchange =
            some (finishSessionFlow done.capture mitm.settings.profileId) := by
          rw [appended_of_captured hcaptured, if_pos]
          rw [isOk_iff, ← hsession.appendFlow]
          exact ⟨next, hflow⟩
        have hpublished := @publishRecord_log mitm.storage _ (sessionEvents exchange done.capture)
          _ _ hflow
        rw [hsome]
        simpa [hsame.1, hsame.2] using hpublished
  · obtain ⟨error, hrejected⟩ := @recordRequestWithSession_of_shutdown N mitm.storage mitm.codec
      mitm.settings exchange arrival.session hrunning
    have hnone : mitm.appended arrival exchange = none := by
      rcases hcaptured : captured mitm.storage pushStreamEventInner mitm.codec mitm.settings
          arrival.session.limits.maxBlobBytes exchange with e | done
      · rw [MitmInner.appended, hcaptured]
      · rw [appended_of_captured hcaptured, if_neg]
        rw [isOk_iff]
        rintro ⟨next, hnext⟩
        exact hrunning (appendFlow_eq_ok.mp hnext).1
    rw [MitmInner.record, hrejected, hnone]
    simp

theorem withoutUserinfo_of_not_mem {authority : String} (h : '@' ∉ authority.toList) :
    withoutUserinfo authority = authority := by
  rw [withoutUserinfo]
  rcases hsplit : rsplitOnce authority '@' with _ | ⟨userinfo, host⟩
  · rfl
  · rw [(rsplitOnce_eq_some hsplit).1] at h
    exact absurd (List.mem_append_right _ List.mem_cons_self) h

/-! ### One origin -/

/-- An origin-form target is a path from the root. -/
def OriginForm (head : RequestHead) : Prop :=
  head.form = .origin → head.path = "" ∨ startsWith head.path "/" = true

/-- What parsing keeps of a URI: up to the path it is the scheme and the authority. -/
def ParsesUris (parse : String → Option Uri) : Prop :=
  ∀ authority rest uri,
    '/' ∉ authority.toList → '?' ∉ authority.toList → '#' ∉ authority.toList →
    startsWith rest "/" = true → parse ("https://" ++ authority ++ rest) = some uri →
      uri.scheme = some "https" ∧ uri.authority = some authority

/-- The request that went upstream, and the flow that was recorded of it, belong to the target
of the `CONNECT`. -/
structure FromOrigin (connect : NormalizedTarget) (sent : Sent) : Prop where
  scheme : sent.exchange.uri.scheme = some "https"
  host : HostLess sent.exchange.headers
  authority : ∃ authority, sent.exchange.uri.authority = some authority ∧
    normalizeAuthority authority 443 = .ok connect ∧
    ∀ flow, sent.logged = some flow →
      flow.request.scheme = "https" ∧ flow.request.authority = authority

/-- Everything that is sent and recorded belongs to the target, and nothing is sent or recorded
for an incoherent request nor for a request after it. -/
structure Confined (mitm : MitmInner N ρ) (connect : NormalizedTarget)
    (arrivals : List Arrival) : Prop where
  origin : ∀ sent ∈ ((MitmService.new connect).run mitm arrivals).sent, FromOrigin connect sent
  stops : ∀ before bad after, arrivals = before ++ bad :: after →
    ¬Coheres connect bad.head →
      ((MitmService.new connect).run mitm arrivals).sent =
        ((MitmService.new connect).run mitm before).sent

theorem call_connect (mitm : MitmInner N ρ) (service : MitmService) (arrival : Arrival) :
    (service.call mitm arrival).connect = service.connect := by
  rw [MitmService.call]
  split
  · rfl
  · split
    · rfl
    · rfl

theorem run_connect (mitm : MitmInner N ρ) (service : MitmService) (arrivals : List Arrival) :
    (service.run mitm arrivals).connect = service.connect := by
  induction arrivals generalizing service with
  | nil => rfl
  | cons arrival rest ih => exact (ih _).trans (call_connect mitm service arrival)

theorem run_of_poisoned (h : service.poisoned = true) (arrivals : List Arrival) :
    service.run mitm arrivals = service := by
  induction arrivals with
  | nil => rfl
  | cons arrival rest ih =>
      show (service.call mitm arrival).run mitm rest = service
      rw [MitmService.call, if_pos h]
      exact ih

/-- After an incoherent request the connection sends nothing, and has sent nothing for it. -/
theorem call_of_incoherent (h : ¬Coheres service.connect arrival.head) :
    (service.call mitm arrival).poisoned = true ∧
      (service.call mitm arrival).sent = service.sent := by
  rw [MitmService.call]
  by_cases hpoisoned : service.poisoned = true
  · rw [if_pos hpoisoned]
    exact ⟨hpoisoned, rfl⟩
  · obtain ⟨state, error, hrefused⟩ :=
      @decryptedOutbound_of_incoherent ρ service.connect mitm.proxy service.state _ h
    rw [if_neg hpoisoned, hrefused]
    exact ⟨rfl, rfl⟩

theorem run_confined (before : List Arrival) {bad : Arrival} (after : List Arrival)
    (h : ¬Coheres connect bad.head) :
    ((MitmService.new connect).run mitm (before ++ bad :: after)).sent =
      ((MitmService.new connect).run mitm before).sent := by
  have hrun : (MitmService.new connect).run mitm (before ++ bad :: after) =
      ((((MitmService.new connect).run mitm before).call mitm bad).run mitm after) :=
    List.foldl_append
  have hconnect : ((MitmService.new connect).run mitm before).connect = connect :=
    run_connect mitm (MitmService.new connect) before
  rw [← hconnect] at h
  obtain ⟨hpoisoned, hsent⟩ := @call_of_incoherent N ρ mitm _ bad h
  rw [hrun, run_of_poisoned hpoisoned, hsent]

/-! ### What is sent names the target -/

theorem not_mem_uriHost {host : NormalizedHost} (hnamed : ∀ name, host = .dns name → DnsName name)
    {c : Char} (hname : nameChar c = false) (haddress : addressChar c = false)
    (hopening : c ≠ '[') (hclosing : c ≠ ']') : c ∉ (uriHost host).toList := by
  intro hmem
  cases host with
  | dns name =>
      have hchar := (hnamed name rfl).chars c hmem
      rw [hname] at hchar
      cases hchar
  | ip addr =>
      have hchars := (ip_text_bounds addr).1
      cases addr with
      | v4 addr =>
          have hchar := hchars c hmem
          rw [haddress] at hchar
          cases hchar
      | v6 addr =>
          rw [uriHost, String.toList_append, String.toList_append, List.mem_append,
            List.mem_append] at hmem
          rcases hmem with (hmem | hmem) | hmem
          · exact hopening (List.mem_singleton.mp hmem)
          · have hchar := hchars c hmem
            rw [haddress] at hchar
            cases hchar
          · exact hclosing (List.mem_singleton.mp hmem)

theorem not_mem_authorityText {target : NormalizedTarget} (htarget : Wellformed target)
    {c : Char} (hname : nameChar c = false) (haddress : addressChar c = false)
    (hopening : c ≠ '[') (hclosing : c ≠ ']') (hcolon : c ≠ ':')
    (hdigit : ¬(48 ≤ c.toNat ∧ c.toNat ≤ 57)) : c ∉ (authorityText target).toList :=
  not_mem_authority target.port
    (not_mem_uriHost htarget.named hname haddress hopening hclosing) hcolon hdigit

theorem startsWith_extended {text start : String} (rest : String)
    (h : startsWith text start = true) : startsWith (text ++ rest) start = true := by
  rw [startsWith_iff] at h ⊢
  rw [String.toList_append]
  exact h.trans (List.prefix_append _ _)

theorem withQuery_root {path : String} {query : Option String}
    (h : path = "" ∨ startsWith path "/" = true) : startsWith (withQuery path query) "/" = true := by
  rw [withQuery]
  apply startsWith_extended
  rcases h with rfl | h
  · rfl
  · split
    · rfl
    · exact h

/-- What went upstream has the scheme and the authority of the tunnel, and no `Host` of its
own. -/
structure Targeted (connect : NormalizedTarget) (sent : Sent) : Prop where
  scheme : sent.exchange.uri.scheme = some "https"
  authority : sent.exchange.uri.authority = some (authorityText connect)
  host : HostLess sent.exchange.headers
  logged : ∀ flow, sent.logged = some flow →
    flow.request.scheme = "https" ∧ flow.request.authority = authorityText connect

theorem upstream_targeted (hparse : ParsesUris mitm.parseUri) (hconnect : Wellformed connect)
    {state state' : ProxyState Flow} {poisoned : Bool} {outbound : Outbound}
    (horigin : OriginForm arrival.head)
    (h : decryptedOutbound mitm.proxy connect state arrival.head =
      (state', poisoned, .ok outbound)) :
    ∀ sent ∈ mitm.upstream arrival outbound, Targeted connect sent := by
  obtain ⟨hform, huri, message, headers, hheaders, hforwarded⟩ := decryptedOutbound_eq_ok h
  intro sent hsent
  rw [MitmInner.upstream] at hsent
  split at hsent
  · cases hsent
  · rename_i uri hparsed
    dsimp only at hsent
    split at hsent
    · obtain rfl := List.mem_singleton.mp hsent
      rw [huri] at hparsed
      obtain ⟨hscheme, hauthority⟩ := hparse (authorityText connect) _ uri
        (not_mem_authorityText hconnect rfl rfl (by decide) (by decide) (by decide) (by decide))
        (not_mem_authorityText hconnect rfl rfl (by decide) (by decide) (by decide) (by decide))
        (not_mem_authorityText hconnect rfl rfl (by decide) (by decide) (by decide) (by decide))
        (withQuery_root (horigin hform)) hparsed
      refine { scheme := hscheme, authority := hauthority, host := ?_, logged := ?_ }
      · show HostLess outbound.headers
        rw [hforwarded]
        exact forwarded_hostLess (upstreamHeaders_hostLess hheaders)
      · intro flow hflow
        obtain ⟨authority, hflowScheme, hflowAuthority, hrecorded⟩ := appended_origin hflow
        have huserinfo : '@' ∉ (authorityText connect).toList :=
          not_mem_authorityText hconnect rfl rfl (by decide) (by decide) (by decide) (by decide)
        obtain rfl : authority = authorityText connect :=
          Option.some.inj (hflowAuthority.symm.trans hauthority)
        exact ⟨(Option.some.inj (hflowScheme.symm.trans hscheme)),
          hrecorded.trans (withoutUserinfo_of_not_mem huserinfo)⟩
    · cases hsent

theorem call_targeted (hparse : ParsesUris mitm.parseUri) (hconnect : Wellformed service.connect)
    (horigin : OriginForm arrival.head)
    (hsent : ∀ sent ∈ service.sent, Targeted service.connect sent) :
    ∀ sent ∈ (service.call mitm arrival).sent, Targeted service.connect sent := by
  rw [MitmService.call]
  split
  · exact hsent
  · split
    · exact hsent
    · rename_i state poisoned outbound houtbound
      intro sent hmem
      rcases List.mem_append.mp hmem with hmem | hmem
      · exact hsent sent hmem
      · exact upstream_targeted hparse hconnect horigin houtbound sent hmem

/-- Every run keeps to the scheme and the authority of its tunnel. -/
theorem run_targeted (hparse : ParsesUris mitm.parseUri) (hconnect : Wellformed service.connect)
    (horigin : ∀ arrival ∈ arrivals, OriginForm arrival.head)
    (hsent : ∀ sent ∈ service.sent, Targeted service.connect sent) :
    ∀ sent ∈ (service.run mitm arrivals).sent, Targeted service.connect sent := by
  induction arrivals generalizing service with
  | nil => exact hsent
  | cons arrival rest ih =>
      have hkept := call_connect mitm service arrival
      have hstep := call_targeted hparse hconnect (horigin arrival List.mem_cons_self) hsent
      rw [← hkept] at hconnect hstep
      have hrest := ih hconnect
        (fun other hother => horigin other (List.mem_cons_of_mem _ hother)) hstep
      rw [hkept] at hrest
      exact hrest

theorem Targeted.fromOrigin_iff {sent : Sent} (hconnect : Wellformed connect)
    (h : Targeted connect sent) : FromOrigin connect sent ↔ Plain connect := by
  rw [← @normalizeAuthority_authorityText _ 443 hconnect]
  constructor
  · intro hfrom
    obtain ⟨authority, hauthority, hnormal, -⟩ := hfrom.authority
    rw [Option.some.inj (hauthority.symm.trans h.authority)] at hnormal
    exact hnormal
  · intro hnormal
    exact
      { scheme := h.scheme
        host := h.host
        authority := ⟨authorityText connect, h.authority, hnormal, h.logged⟩ }

/-- The requests of a tunnel stay with its origin where the host of the `CONNECT` is no name
that reads as an address. Where it is one, none of them does. -/
theorem one_origin {text : String} (hparse : ParsesUris mitm.parseUri)
    (hconnect : resolveConnectTarget (some text) = .ok connect)
    (horigin : ∀ arrival ∈ arrivals, OriginForm arrival.head) :
    (Plain connect → Confined mitm connect arrivals) ∧
      (¬Plain connect → ∀ sent ∈ ((MitmService.new connect).run mitm arrivals).sent,
        ¬FromOrigin connect sent) := by
  have hwell := wellformed_of_resolveConnectTarget hconnect
  have htargeted : ∀ sent ∈ ((MitmService.new connect).run mitm arrivals).sent,
      Targeted connect sent :=
    @run_targeted N ρ mitm (MitmService.new connect) arrivals hparse hwell horigin
      (fun sent hsent => by cases hsent)
  constructor
  · intro hplain
    refine
      { origin := fun sent hsent => ((htargeted sent hsent).fromOrigin_iff hwell).mpr hplain
        stops := ?_ }
    rintro before bad after rfl hbad
    exact run_confined before after hbad
  · intro hnamed sent hsent hfrom
    exact hnamed (((htargeted sent hsent).fromOrigin_iff hwell).mp hfrom)

/-! ### A tunnel to a name, and one to an address that ends with a dot -/

def endsAuthority (c : Char) : Bool := c == '/' || c == '?' || c == '#'

def parseHttps (text : String) : Option Uri :=
  (stripLead text "https://").map fun rest =>
    let target := rest.toList.dropWhile fun c => !endsAuthority c
    { scheme := some "https"
      authority := some (String.ofList (rest.toList.takeWhile fun c => !endsAuthority c))
      path := String.ofList (target.takeWhile fun c => c != '?')
      query := (splitOnce (String.ofList target) '?').map Prod.snd }

/-- An authority is taken up to the path that follows it. -/
theorem takeWhile_authority {authority rest : String} (hslash : '/' ∉ authority.toList)
    (hquestion : '?' ∉ authority.toList) (hfragment : '#' ∉ authority.toList)
    (hroot : startsWith rest "/" = true) :
    (authority ++ rest).toList.takeWhile (fun c => !endsAuthority c) = authority.toList := by
  obtain ⟨tail, htail⟩ := startsWith_iff.mp hroot
  have hends : ∀ c ∈ authority.toList, (!endsAuthority c) = true := by
    intro c hc
    rw [Bool.not_eq_true', endsAuthority]
    refine Bool.or_eq_false_iff.mpr ⟨Bool.or_eq_false_iff.mpr ⟨?_, ?_⟩, ?_⟩
    · exact beq_eq_false_iff_ne.mpr fun heq => hslash (heq ▸ hc)
    · exact beq_eq_false_iff_ne.mpr fun heq => hquestion (heq ▸ hc)
    · exact beq_eq_false_iff_ne.mpr fun heq => hfragment (heq ▸ hc)
  rw [String.toList_append, ← htail, List.takeWhile_append_of_pos hends]
  exact List.append_nil _

theorem parseHttps_parses : ParsesUris parseHttps := by
  intro authority rest uri hslash hquestion hfragment hroot h
  rw [parseHttps, String.append_assoc, stripLead_append] at h
  obtain rfl := Option.some.inj h
  refine ⟨rfl, ?_⟩
  dsimp only
  rw [takeWhile_authority hslash hquestion hfragment hroot, String.ofList_toList]

def plainTunnel : MitmInner Nat Unit where
  policy := TargetPolicy.denyAll .tunnel
  headerName _ := true
  headerValue _ := true
  builds _ _ := none
  parseUri := parseHttps
  respond _ := .ok ()
  storage := formStorage
  codec := formCodec
  settings := formSettings

def rootRequest (host : String) : Arrival where
  head :=
    { method := "GET"
      form := .origin
      scheme := none
      uriAuthority := none
      authority := some host
      path := "/"
      query := none
      headers := [{ name := "host", value := utf8 host.toList }] }
  session := freshSession
  observed := { formPost [] "" with polled := [], requestEnd := none }

theorem rootRequest_originForm (host : String) : OriginForm (rootRequest host).head :=
  fun _ => .inr (startsWith_append "/" "")

/-- A tunnel to `example.test`, with a request for its root and one for another host. -/
theorem example_tunnel_confined :
    ((MitmService.new { host := .dns "example.test", port := 443 }).run plainTunnel
        [rootRequest "example.test", rootRequest "other.test"]).sent.map
          (fun sent => sent.logged.map fun flow => flow.request.authority) =
      [some "example.test:443"] ∧
    Confined plainTunnel { host := .dns "example.test", port := 443 }
      [rootRequest "example.test", rootRequest "other.test"] := by
  refine ⟨by decide +kernel, ?_⟩
  apply (@one_origin Nat Unit plainTunnel
    [rootRequest "example.test", rootRequest "other.test"]
    { host := .dns "example.test", port := 443 } "example.test:443" parseHttps_parses
    (by decide) ?_).1
  · rintro name ⟨⟩
    decide
  · intro arrival harrival
    rcases List.mem_cons.mp harrival with rfl | harrival
    · exact rootRequest_originForm _
    · obtain rfl := List.mem_singleton.mp harrival
      exact rootRequest_originForm _

/-- The tunnel was approved for a name, and what is sent through it names the address. -/
theorem dotted_tunnel_strays :
    ¬∀ (mitm : MitmInner Nat Unit) (text : String) (connect : NormalizedTarget)
      (arrivals : List Arrival), ParsesUris mitm.parseUri →
      resolveConnectTarget (some text) = .ok connect →
      (∀ arrival ∈ arrivals, OriginForm arrival.head) → Confined mitm connect arrivals := by
  intro h
  have hconfined := h plainTunnel "127.0.0.1.:443" { host := .dns "127.0.0.1", port := 443 }
    [rootRequest "127.0.0.1."] parseHttps_parses (by decide) (by
      intro arrival harrival
      obtain rfl := List.mem_singleton.mp harrival
      exact rootRequest_originForm _)
  have hauthorities : ((MitmService.new { host := .dns "127.0.0.1", port := 443 }).run plainTunnel
      [rootRequest "127.0.0.1."]).sent.map (fun sent =>
        (sent.exchange.uri.authority, sent.logged.map fun flow => flow.request.authority)) =
      [(some "127.0.0.1:443", some "127.0.0.1:443")] := by
    decide +kernel
  obtain ⟨sent, hsent, hnamed⟩ := List.mem_map.mp (hauthorities ▸ List.mem_singleton_self _)
  obtain ⟨authority, hauthority, hnormal, -⟩ := (hconfined.origin sent hsent).authority
  have hsame : sent.exchange.uri.authority = some "127.0.0.1:443" := congrArg Prod.fst hnamed
  rw [Option.some.inj (hauthority.symm.trans hsame)] at hnormal
  have haddress : normalizeAuthority "127.0.0.1:443" 443 =
      .ok { host := .ip (.v4 ⟨127, 0, 0, 1⟩), port := 443 } := by
    decide
  rw [haddress] at hnormal
  cases hnormal

end EggReplay.Intercept.OneOrigin
