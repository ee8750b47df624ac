import EggReplay.Http.Transaction
import EggReplay.Http.ResponseRendering
import EggReplay.Intercept.Hosts

/-!
What the explicit proxy reads of a request before it is sent on: the authority that it names,
its target, and the fields of its head that are forwarded.
-/

namespace EggReplay.Intercept.Authorities

open EggReplay.Http.ResponseRendering
open EggReplay.Http.Transaction
open EggReplay.Intercept.Hosts
open EggReplay.Library.Checks
open EggReplay.Library.IpText
open EggReplay.Library.Text

/-! ### Authorities -/

structure NormalizedTarget where
  host : NormalizedHost
  port : UInt16
  deriving DecidableEq, Repr

/-- `str::parse` to sixteen bits; a plus sign may come first. -/
def parseU16 (text : String) : Option UInt16 :=
  let digits := ((stripLead text "+").getD text).toList
  match readNumber 10 digits.length (2 ^ 16) true digits with
  | some (value, []) => some (UInt16.ofNat value)
  | some (_, _ :: _) | none => none

def parsePort (text : String) : Except PolicyError UInt16 := do
  match parseU16 text with
  | none => .error (.invalidPort ("invalid port: " ++ preview text))
  | some port => do
      ensure (port ≠ 0) (.invalidPort "port zero is rejected")
      pure port

def normalizeBracketedAuthority (trimmed rest : String) (defaultPort : UInt16) :
    Except PolicyError NormalizedTarget := do
  match splitOnce rest ']' with
  | none => .error (.invalidHost ("unbalanced brackets: " ++ preview trimmed))
  | some (hostPart, remainder) => do
      let host ← normalizeBracketed trimmed hostPart
      if remainder = "" then pure { host, port := defaultPort }
      else
        match stripLead remainder ":" with
        | some text => do
            let port ← parsePort text
            pure { host, port }
        | none => .error (.invalidHost ("invalid authority suffix: " ++ preview trimmed))

def normalizePlainAuthority (trimmed : String) (defaultPort : UInt16) :
    Except PolicyError NormalizedTarget := do
  ensure (trimmed.toList.any isWhitespace = false)
    (.invalidHost ("authority contains whitespace: " ++ preview trimmed))
  match rsplitOnce trimmed ':' with
  | some (hostPart, portText) => do
      ensure (containsChar hostPart ':' = false)
        (.invalidHost ("unbracketed IPv6 must use brackets: " ++ preview trimmed))
      let host ← normalizeHost hostPart
      let port ← parsePort portText
      pure { host, port }
  | none => do
      let host ← normalizeHost trimmed
      pure { host, port := defaultPort }

def normalizeAuthority (authority : String) (defaultPort : UInt16) :
    Except PolicyError NormalizedTarget := do
  let trimmed := trim authority
  ensure (trimmed ≠ "") (.invalidHost "empty authority")
  ensure (containsChar trimmed '@' = false) (.invalidHost "authority must not contain userinfo")
  ensure (containsChar trimmed '/' = false ∧ containsChar trimmed '?' = false ∧
      containsChar trimmed '#' = false)
    (.invalidHost ("authority contains path syntax: " ++ preview trimmed))
  match stripLead trimmed "[" with
  | some rest => normalizeBracketedAuthority trimmed rest defaultPort
  | none => normalizePlainAuthority trimmed defaultPort

/-! ### Targets -/

inductive RequestTargetForm where
  | origin | absolute | authority | asterisk
  deriving DecidableEq, Repr

structure RequestHead where
  method : String
  form : RequestTargetForm
  scheme : Option String
  uriAuthority : Option String
  authority : Option String
  path : String
  query : Option String
  headers : HeaderMap
  deriving DecidableEq, Repr

structure ProxyRejection where
  status : Nat
  message : String
  deriving DecidableEq, Repr

def ProxyRejection.toServiceError (rejection : ProxyRejection) : ServiceError :=
  .rejected rejection.status rejection.message

structure CanonicalProxyTarget where
  host : NormalizedHost
  port : UInt16
  upstreamUri : String
  deriving DecidableEq, Repr

/-- The checks of the HTTP package on what the proxy builds. -/
structure HttpPackage where
  headerName : String → Bool
  headerValue : Bytes → Bool
  parsesUri : String → Bool
  builds : String → String → Option String

def withQuery (path : String) (query : Option String) : String :=
  (if path = "" then "/" else path) ++ (query.map fun text => "?" ++ text).getD ""

def refuse (message : String) : ProxyRejection where
  status := 400
  message := message

def required (value : Option String) (message : String) : Except ProxyRejection String :=
  match value with
  | some text => .ok text
  | none => .error (refuse message)

def resolveAbsoluteTarget (http : HttpPackage) (head : RequestHead) :
    Except ProxyRejection CanonicalProxyTarget := do
  ensure (head.form = .absolute)
    (refuse "explicit proxy requires absolute-form request target")
  ensure ((head.scheme.map fun scheme => eqIgnoreAsciiCase scheme "http") = some true)
    (refuse "explicit proxy supports http only; https uses CONNECT")
  let uriAuthority ← required head.uriAuthority "absolute target has no authority"
  let target ← (normalizeAuthority uriAuthority 80).mapError
    fun _ => refuse "invalid absolute target authority"
  let hostHeader ← required head.authority "explicit proxy request has no Host"
  let host ← (normalizeAuthority hostHeader 80).mapError fun _ => refuse "invalid Host authority"
  ensure (host = target) (refuse "Host authority contradicts the absolute target")
  let uri := "http://" ++ target.host.asStr ++ ":" ++ Nat.repr target.port.toNat ++
    withQuery head.path head.query
  ensure (http.parsesUri uri = true) (refuse "invalid request target")
  pure { host := target.host, port := target.port, upstreamUri := uri }

def resolveConnectTarget (authority : Option String) : Except ProxyRejection NormalizedTarget := do
  let text ← required authority "CONNECT requires an authority"
  (normalizeAuthority text 443).mapError fun _ => refuse "invalid CONNECT authority"

/-! ### Fields -/

/-- `HeaderMap::append`: next to the last field of its name. -/
def append (field : HeaderField) : HeaderMap → HeaderMap
  | [] => [field]
  | head :: rest =>
      if head.name = field.name ∧ (rest.any fun later => decide (later.name = field.name)) = false
      then head :: field :: rest
      else head :: append field rest

/-- The fields of a head but `host`, as the client's map of them. -/
def upstreamHeaders (http : HttpPackage) (message : String) (fields : HeaderMap) :
    Except ServiceError HeaderMap :=
  (fields.filter fun field => !eqIgnoreAsciiCase field.name "host").foldlM
    (fun headers field => do
      ensure (http.headerName field.name = true) (.rejected 400 message)
      ensure (http.headerValue field.value = true) (.rejected 400 message)
      pure (append { field with name := toAsciiLowercase field.name } headers)) []

def proxyOnly : List String :=
  ["proxy-connection", "proxy-authorization", "proxy-authenticate", "keep-alive"]

structure ProxyFilterOutcome where
  forwarded : HeaderMap
  removed : List String
  upgradeRequested : Bool
  hadProxyAuthorization : Bool
  deriving DecidableEq, Repr

def tokens (value : String) : List String :=
  ((split value ',').map trim).filter fun token => decide (token ≠ "")

/-- The names that the `connection` fields nominate. -/
def nominated (headers : HeaderMap) : List String :=
  ((headers.filter fun field => decide (field.name = "connection")).flatMap
    fun field => (tokens ((toStr field.value).getD "")).map toAsciiLowercase).eraseDups

def teForward (headers : HeaderMap) : Bool :=
  let teTokens := (headers.filter fun field => decide (field.name = "te")).flatMap
    fun field => ((toStr field.value).map tokens).getD []
  decide (teTokens ≠ []) && teTokens.all fun token => eqIgnoreAsciiCase token "trailers"

def classify (name : String) (teForward : Bool) (nominated : List String) : Bool :=
  if name = "connection" then false
  else if name ∈ proxyOnly then false
  else if name = "upgrade" then false
  else if name ∈ nominated then false
  else if name = "te" then teForward
  else true

def filterProxyHeaders (headers : HeaderMap) : ProxyFilterOutcome :=
  let names := nominated headers
  let forwards := fun field : HeaderField => classify field.name (teForward headers) names
  let stripped := (headers.filter fun field => !forwards field).map HeaderField.name
  { forwarded := headers.filter forwards
    removed := stripped.eraseDups
    upgradeRequested := decide ("upgrade" ∈ names) || decide ("upgrade" ∈ stripped)
    hadProxyAuthorization := decide ("proxy-authorization" ∈ stripped) }

end EggReplay.Intercept.Authorities
