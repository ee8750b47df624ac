import EggReplay.Intercept.Authorities
import EggReplay.Intercept.TargetPolicies

/-!
The explicit proxy: how a request is admitted, refused, tunneled, intercepted or recorded, and
which of the operational counters it moves on the way. What the network, the recorder and the
TLS library answer is given with each request.
-/

namespace EggReplay.Intercept.ExplicitProxy

open EggReplay.Http.ResponseRendering
open EggReplay.Http.Transaction
open EggReplay.Intercept.Authorities
open EggReplay.Intercept.Hosts
open EggReplay.Intercept.TargetPolicies
open EggReplay.Library.Checks
open EggReplay.Library.IpText
open EggReplay.Library.Text

/-! ### Counters -/

def failurePolicyDenied : String := "policy_denied"
def failureInvalidAuthority : String := "invalid_authority"
def failureUpstreamFailed : String := "upstream_failed"
def failureTlsFailed : String := "tls_failed"
def failureAuthorityMismatch : String := "authority_mismatch"
def failureLimitReached : String := "limit_reached"
def failureNotConfigured : String := "not_configured"
def failureUnsupported : String := "unsupported"
def failureInternal : String := "internal"

def proxyFailureCategories : List String :=
  [failurePolicyDenied, failureInvalidAuthority, failureUpstreamFailed, failureTlsFailed,
    failureAuthorityMismatch, failureLimitReached, failureNotConfigured, failureUnsupported,
    failureInternal]

structure ProxyStats where
  accepted : Nat
  rejected : Nat
  tunneled : Nat
  intercepted : Nat
  flows : Nat
  failures : Fin proxyFailureCategories.length → Nat

def ProxyStats.new : ProxyStats where
  accepted := 0
  rejected := 0
  tunneled := 0
  intercepted := 0
  flows := 0
  failures := fun _ => 0

def ProxyStats.recordAccept (stats : ProxyStats) : ProxyStats :=
  { stats with accepted := stats.accepted + 1 }

def ProxyStats.recordReject (stats : ProxyStats) : ProxyStats :=
  { stats with rejected := stats.rejected + 1 }

def ProxyStats.recordTunnel (stats : ProxyStats) : ProxyStats :=
  { stats with tunneled := stats.tunneled + 1 }

def ProxyStats.recordIntercept (stats : ProxyStats) : ProxyStats :=
  { stats with intercepted := stats.intercepted + 1 }

def ProxyStats.recordFlow (stats : ProxyStats) : ProxyStats :=
  { stats with flows := stats.flows + 1 }

/-- Unknown categories are ignored. -/
def ProxyStats.recordFailure (stats : ProxyStats) (category : String) : ProxyStats :=
  match proxyFailureCategories.finIdxOf? category with
  | some index =>
      { stats with failures := Function.update stats.failures index (stats.failures index + 1) }
  | none => stats

/-- The snapshot's failures, by their names. -/
def ProxyStats.failureCounts (stats : ProxyStats) : List (String × Nat) :=
  (List.finRange proxyFailureCategories.length).map fun index =>
    (proxyFailureCategories.get index, stats.failures index)

/-! ### The proxy and what surrounds it -/

variable {φ ρ : Type}

/-- A request that is ready to be sent upstream. -/
structure Outbound where
  method : String
  uri : String
  headers : HeaderMap
  deriving DecidableEq, Repr

/-- The configuration that the handlers consult; `intercepts` where interception is set up. -/
structure Proxy (φ ρ : Type) where
  policy : TargetPolicy
  intercepts : Bool
  http : HttpPackage
  respond : φ → Except ServiceError ρ

inductive DialOutcome where
  | timedOut
  | failed (error : String)
  | connected
  deriving DecidableEq, Repr

/-- How the TLS handshake with the client ends. -/
inductive Handshake where
  | failed
  | accepted (alpn : Option Bytes) (serverName : Option String)
  deriving DecidableEq, Repr

structure DecryptedRequest (φ : Type) where
  head : RequestHead
  record : Outbound → Option φ

structure Interception (φ : Type) where
  leafIssued : Bool
  configBuilt : Bool
  accepted : Bool
  handshake : Handshake
  requests : List (DecryptedRequest φ)

/-- A request, with what it is answered by all that it touches. -/
structure Exchange (φ : Type) where
  head : RequestHead
  /-- The tunnel that the server offers for the request, with the authority it names. -/
  capability : Option (Option String)
  permit : Bool
  dial : DialOutcome
  tunnelAccepted : Bool
  interception : Interception φ
  record : Outbound → Option φ

inductive ProxyResponse (ρ : Type) where
  | denied
  | established
  | recorded (response : ρ)
  deriving DecidableEq, Repr

/-- The counters, and the flows that the recorder added to the session. -/
structure ProxyState (φ : Type) where
  stats : ProxyStats
  recorded : List φ

def ProxyState.new : ProxyState φ where
  stats := ProxyStats.new
  recorded := []

def ProxyState.count (state : ProxyState φ) (update : ProxyStats → ProxyStats) : ProxyState φ :=
  { state with stats := update state.stats }

def ProxyState.fail (state : ProxyState φ) (category : String) : ProxyState φ :=
  state.count fun stats => stats.recordFailure category

/-- A refusal is counted with its category. -/
def ProxyState.refuse (state : ProxyState φ) (category : String) : ProxyState φ :=
  (state.count ProxyStats.recordReject).fail category

def ProxyState.publish (state : ProxyState φ) (flow : φ) : ProxyState φ :=
  { stats := state.stats.recordFlow
    recorded := state.recorded ++ [flow] }

abbrev Handled (φ ρ : Type) := ProxyState φ × Except ServiceError (ProxyResponse ρ)

def diagnosticLen : Nat := 128

def boundDiagnostic (message : String) : String :=
  String.ofList (message.toList.take diagnosticLen)

/-! ### Recorded requests -/

def outboundRequest (http : HttpPackage) (method uri : String) (headers : HeaderMap) :
    Except ServiceError Outbound :=
  match http.builds method uri with
  | some error => .error (.internal error)
  | none => .ok { method, uri, headers }

/-- A request is recorded while it is sent. -/
def sendRecorded (proxy : Proxy φ ρ) (record : Outbound → Option φ) (state : ProxyState φ)
    (outbound : Outbound) : Handled φ ρ :=
  match record outbound with
  | none =>
      (state.fail failureUpstreamFailed, .error (.rejected 502 "upstream request failed"))
  | some flow => (state.publish flow, (proxy.respond flow).map .recorded)

/-- A plain request up to the point where it is sent. -/
def plainOutbound (proxy : Proxy φ ρ) (state : ProxyState φ) (head : RequestHead) :
    ProxyState φ × Except ServiceError Outbound :=
  match resolveAbsoluteTarget proxy.http head with
  | .error rejection => (state.refuse failureInvalidAuthority, .error rejection.toServiceError)
  | .ok canonical =>
      if proxy.policy.allowsPlain canonical.host canonical.port = false then
        (state.refuse failurePolicyDenied,
          .error (.rejected 403 "target denied by proxy policy"))
      else
        let state := state.count ProxyStats.recordAccept
        match upstreamHeaders proxy.http "invalid proxy header" head.headers with
        | .error error => (state, .error error)
        | .ok headers =>
            let filtered := filterProxyHeaders headers
            if filtered.upgradeRequested = true then
              (state.refuse failureUnsupported,
                .error (.rejected 400 "proxy upgrade unsupported"))
            else
              (state,
                outboundRequest proxy.http head.method canonical.upstreamUri filtered.forwarded)

def handlePlain (proxy : Proxy φ ρ) (exchange : Exchange φ) (state : ProxyState φ) :
    Handled φ ρ :=
  match plainOutbound proxy state exchange.head with
  | (state, .error error) => (state, .error error)
  | (state, .ok outbound) => sendRecorded proxy exchange.record state outbound

/-! ### Interception -/

def checkSniCoherence (connect : NormalizedTarget) : Option String → Bool
  | none => true
  | some name =>
      match normalizeHost name with
      | .ok host => decide (host = connect.host)
      | .error _ => false

def checkHttpAuthorityCoherence (connect : NormalizedTarget) : Option String → Bool
  | none => false
  | some text =>
      match normalizeAuthority text connect.port with
      | .ok authority => decide (authority = connect)
      | .error _ => false

def uriHost : NormalizedHost → String
  | .dns name => name
  | .ip (.v6 addr) => "[" ++ (IpAddr.v6 addr).text ++ "]"
  | .ip (.v4 addr) => (IpAddr.v4 addr).text

/-- A decrypted request up to the point where it is sent, and whether the connection takes no
more requests after it. -/
def decryptedOutbound (proxy : Proxy φ ρ) (connect : NormalizedTarget) (state : ProxyState φ)
    (head : RequestHead) : ProxyState φ × Bool × Except ServiceError Outbound :=
  if head.form ≠ .origin then
    (state.fail failureInvalidAuthority, true,
      .error (.rejected 400 "intercepted request must use origin-form"))
  else if checkHttpAuthorityCoherence connect head.authority = false then
    (state.fail failureAuthorityMismatch, true,
      .error (.rejected 421 "request authority does not match the intercepted origin"))
  else
    match upstreamHeaders proxy.http "invalid request header" head.headers with
    | .error error => (state, false, .error error)
    | .ok headers =>
        let filtered := filterProxyHeaders headers
        let uri := "https://" ++ uriHost connect.host ++ ":" ++ Nat.repr connect.port.toNat ++
          withQuery head.path head.query
        if filtered.upgradeRequested = true then
          (state.fail failureUnsupported, false,
            .error (.rejected 400 "upgrade inside interception is unsupported"))
        else if proxy.http.parsesUri uri = false then
          (state, false, .error (.rejected 400 "invalid request target"))
        else (state, false, outboundRequest proxy.http head.method uri filtered.forwarded)

/-- The requests of one intercepted connection, in their order. -/
def serveDecrypted (proxy : Proxy φ ρ) (connect : NormalizedTarget) :
    Bool → ProxyState φ → List (DecryptedRequest φ) → ProxyState φ
  | _, state, [] => state
  | true, state, _ :: rest => serveDecrypted proxy connect true state rest
  | false, state, request :: rest =>
      match decryptedOutbound proxy connect state request.head with
      | (state, poisoned, .error _) => serveDecrypted proxy connect poisoned state rest
      | (state, poisoned, .ok outbound) =>
          serveDecrypted proxy connect poisoned
            (sendRecorded proxy request.record state outbound).1 rest

def interceptAlpnHttp11 : Bytes := utf8 "http/1.1".toList

/-- What becomes of the tunnel after it is accepted. -/
def serveTunnel (proxy : Proxy φ ρ) (target : NormalizedTarget) (interception : Interception φ)
    (state : ProxyState φ) : ProxyState φ :=
  match interception.handshake with
  | .failed => state.fail failureTlsFailed
  | .accepted alpn serverName =>
      if alpn.getD interceptAlpnHttp11 ≠ interceptAlpnHttp11 then state.fail failureUnsupported
      else if checkSniCoherence target serverName = false then state.fail failureAuthorityMismatch
      else serveDecrypted proxy target false state interception.requests

def serveInterceptedConnect (proxy : Proxy φ ρ) (target : NormalizedTarget)
    (interception : Interception φ) (state : ProxyState φ) : Handled φ ρ :=
  if interception.leafIssued = false then
    (state, .error (.rejected 502 "interception leaf unavailable"))
  else if interception.configBuilt = false then
    (state, .error (.rejected 502 "interception unavailable"))
  else if interception.accepted = false then (state, .error (.internal "tunnel accept failed"))
  else (serveTunnel proxy target interception state, .ok .established)

def handleIntercept (proxy : Proxy φ ρ) (exchange : Exchange φ) (target : NormalizedTarget)
    (state : ProxyState φ) : Handled φ ρ :=
  if proxy.intercepts = false then
    (state.refuse failureNotConfigured, .error (.internal "CONNECT interception is not configured"))
  else if exchange.permit = false then
    (state.refuse failureLimitReached, .error (.rejected 503 "tunnel concurrency limit reached"))
  else
    let state := (state.count ProxyStats.recordAccept).count ProxyStats.recordIntercept
    match serveInterceptedConnect proxy target exchange.interception state with
    | (state, .ok response) => (state, .ok response)
    | (state, .error error) => (state.fail failureTlsFailed, .error error)

/-! ### Tunnels -/

def handleTunnel (exchange : Exchange φ) (state : ProxyState φ) : Handled φ ρ :=
  if exchange.permit = false then
    (state.refuse failureLimitReached, .error (.rejected 503 "tunnel concurrency limit reached"))
  else
    match exchange.dial with
    | .timedOut =>
        (state.fail failureUpstreamFailed, .error (.rejected 504 "target dial timed out"))
    | .failed error =>
        (state.fail failureUpstreamFailed, .error (.rejected 502 (boundDiagnostic error)))
    | .connected =>
        let state := (state.count ProxyStats.recordAccept).count ProxyStats.recordTunnel
        if exchange.tunnelAccepted = true then (state, .ok .established)
        else (state.fail failureInternal, .error (.internal "tunnel accept failed"))

def connectAuthority (exchange : Exchange φ) (offered : Option String) : Option String :=
  offered.orElse fun _ => exchange.head.authority

def handleConnect (proxy : Proxy φ ρ) (exchange : Exchange φ) (state : ProxyState φ) :
    Handled φ ρ :=
  match exchange.capability with
  | none =>
      (state.refuse failureInvalidAuthority, .error (.rejected 400 "CONNECT requires a tunnel"))
  | some offered =>
      match resolveConnectTarget (connectAuthority exchange offered) with
      | .error rejection => (state.refuse failureInvalidAuthority, .error rejection.toServiceError)
      | .ok target =>
          match proxy.policy.resolveConnect target.host target.port with
          | .deny =>
              (state.refuse failurePolicyDenied,
                .error (.rejected 403 "CONNECT target denied by proxy policy"))
          | .intercept => handleIntercept proxy exchange target state
          | .tunnel => handleTunnel exchange state

def isConnect (exchange : Exchange φ) : Bool := decide (exchange.head.method = "CONNECT")

def dispatch (proxy : Proxy φ ρ) (exchange : Exchange φ) (state : ProxyState φ) : Handled φ ρ :=
  if isConnect exchange = true then handleConnect proxy exchange state
  else if exchange.capability.isSome = true then (state, .ok .denied)
  else handlePlain proxy exchange state

end EggReplay.Intercept.ExplicitProxy
