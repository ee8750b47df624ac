import EggReplay.Cli.FixtureReplacement
import EggReplay.Core.Redaction
import EggReplay.Intercept.Leaves
import EggReplay.Intercept.Tunnels
import EggReplay.Library.Stateful
import EggReplay.Store.Fixture

/-!
The commands that can overwrite a fixture: `record`, `har import`, `proxy record` and `migrate`,
each with its own order of checks, removal and publication.
-/

namespace EggReplay.Cli.OverwritingCommands

open EggReplay.Library.Checks
open EggReplay.Library.Directories
open EggReplay.Library.IpText
open EggReplay.Library.Stateful
open EggReplay.Library.Text
open EggReplay.Core.FlowRecord
open EggReplay.Core.Redaction
open EggReplay.Store.Fixture
open EggReplay.Intercept.Leaves
open EggReplay.Intercept.Tunnels
open EggReplay.Cli.FixtureReplacement

variable {σ α β : Type}

/-- The directory of the target, and whether the command's session was published at it. -/
structure World (σ : Type) where
  directory : Directory σ
  published : Bool

def World.start (directory : Directory σ) : World σ where
  directory := directory
  published := false

/-- A command returns an error, with its class, or the process stops. -/
inductive Stop where
  | err (failureClass message : String)
  | crashed
  deriving DecidableEq

abbrev Command (σ α : Type) := Op Stop (World σ) α

/-- A call that reads and writes nothing in the directory. -/
def call (failureClass : String) (result : Except String α) : Command σ α :=
  Op.ofExcept (result.mapError (Stop.err failureClass))

def storeCall (result : Except StoreError α) : Command σ α :=
  call "fixture" (result.mapError StoreError.display)

/-- `exists`. -/
def fixtureExists (fixture : FixturePath) : Command σ Bool :=
  fun world => (.ok (decide (fixture.name ∈ world.directory)), world)

def refuse (failureClass message : String) : Command σ α := Op.fail (.err failureClass message)

def removeFixture (removal : Removal σ) (fixture : FixturePath) : Command σ Unit := fun world =>
  match removeDirAll removal fixture.name world.directory with
  | (directory, .done) => (.ok (), { world with directory })
  | (directory, .failed error) => (.error (.err "runtime" error), { world with directory })
  | (directory, .crashed) => (.error .crashed, { world with directory })

/-- A session is created where there is no fixture; its staging directory is no session, and is
left out of the directory. -/
def createSession (create : SessionMetadata → Except StoreError Unit) (fixture : FixturePath)
    (metadata : SessionMetadata) : Command σ Unit := do
  if ← fixtureExists fixture then
    refuse "fixture" (StoreError.display (.invalid "fixture destination already exists"))
  else storeCall (create metadata)

/-- The rename at the end of `finish`. -/
def publishSession (fixture : FixturePath) (session : σ) : Command σ Unit :=
  Op.modify fun world =>
    { directory := world.directory.insert fixture.name session, published := true }

/-! ### Flags -/

/-- The optional features of a build. -/
structure Features where
  h2 : Bool
  h2Inbound : Bool
  h2InboundTls : Bool
  deriving DecidableEq

inductive InboundProtocol where
  | http1
  | http2Cleartext
  | http2Tls (certificate privateKey : String)
  deriving DecidableEq

def parseProtocol (features : Features) (name : String) : Except String InboundProtocol :=
  if name = "http1" ∨ name = "h1" then .ok .http1
  else if features.h2Inbound = true ∧ name ∈ ["http2", "h2", "h2c", "http2-cleartext"] then
    .ok .http2Cleartext
  else if name = "http2-tls" ∨ name = "h2-tls" then
    .error ("inbound TLS identity material could not be loaded: TLS serving requires operator " ++
      "certificate and key material; construct the policy with the identity paths instead of " ++
      "naming it")
  else
    .error ("inbound protocol unrecognised inbound protocol name is not available in this " ++
      "build; rebuild with the opt-in inbound HTTP/2 feature to use it")

def supportedProtocolNames (features : Features) : List String :=
  ["http1", "h1"] ++
    (if features.h2Inbound then ["http2", "h2", "h2c", "http2-cleartext"] else []) ++
    (if features.h2InboundTls then ["http2-tls", "h2-tls"] else [])

structure InboundServingArgs where
  inbound : String
  inboundTlsCert : Option String
  inboundTlsKey : Option String
  deriving DecidableEq

def InboundServingArgs.resolve (args : InboundServingArgs) (features : Features) :
    Except String InboundProtocol := do
  let base ← (parseProtocol features args.inbound).mapError fun error =>
    error ++ "; this build supports: " ++ ", ".intercalate (supportedProtocolNames features)
  if args.inboundTlsCert.isSome || args.inboundTlsKey.isSome then
    if features.h2InboundTls then
      match args.inboundTlsCert, args.inboundTlsKey with
      | some certificate, some privateKey => pure (.http2Tls certificate privateKey)
      | _, _ => pure base
    else
      .error ("TLS serving is not available in this build; rebuild with the opt-in inbound " ++
        "HTTP/2 TLS feature")
  else pure base

inductive OutboundVersionChoice where
  | auto
  | http1
  | http2
  deriving DecidableEq

inductive HttpVersionPolicy where
  | http1Only
  | http2Only
  deriving DecidableEq

def OutboundVersionChoice.policy (features : Features) :
    OutboundVersionChoice → Except String HttpVersionPolicy
  | .auto | .http1 => .ok .http1Only
  | .http2 =>
      if features.h2 then .ok .http2Only
      else
        .error ("outbound HTTP/2 is not available in this build; rebuild with the opt-in " ++
          "outbound h2 feature")

/-- `connect` makes the connector of a route, with the credentials of its errors redacted. -/
def parseRoute (connect : String → Except String Unit) (route : String) : Except String Unit :=
  if route = "direct" then .ok () else connect route

def buildClientWithVersion (features : Features) (connect : String → Except String Unit)
    (route : String) (version : OutboundVersionChoice) : Except String HttpVersionPolicy := do
  let policy ← version.policy features
  parseRoute connect route
  pure policy

structure RedactionArgs where
  redactHeaders : List String
  redactQueries : List String
  redactJsonPaths : List String
  redactionProfile : String
  unsafeReplace : Bool
  deriving DecidableEq

def redactionPolicy (args : RedactionArgs) : RedactionConfig × String :=
  let headers := (args.redactHeaders.map toAsciiLowercase).toFinset
  if args.unsafeReplace then
    ({ headers, queryKeys := args.redactQueries.toFinset,
       jsonPaths := args.redactJsonPaths.toFinset }, args.redactionProfile)
  else
    let config := RedactionConfig.defaultSecure
    ({ headers := config.headers ∪ headers
       queryKeys := config.queryKeys ∪ args.redactQueries.toFinset
       jsonPaths := config.jsonPaths ∪ args.redactJsonPaths.toFinset }, args.redactionProfile)

def defaultMetadata : SessionMetadata where
  schemaVersion := sessionSchemaV1
  toolVersion := "0.1.0"
  sessionId := "session-0"
  captureMode := "semantic"
  source := none
  target := none
  matcherProfile := "strict"
  redactionProfile := "default-v1"

def fixtureExistsMessage : String := "fixture exists; pass --overwrite to replace it"

/-! ### `record` -/

structure RecordArgs where
  inbound : InboundServingArgs
  outboundVersion : OutboundVersionChoice
  listen : String
  upstream : String
  fixture : FixturePath
  overwrite : Bool
  redaction : RedactionArgs
  route : String
  deriving DecidableEq

/-- What comes of the calls that `record` makes. -/
structure RecordCalls (σ : Type) where
  removal : Removal σ
  connect : String → Except String Unit
  redactUrl : String → String
  create : SessionMetadata → Except StoreError Unit
  parseUri : String → Except String Unit
  startGateway : String → RedactionConfig → String → Except String Unit
  ctrlC : Except String Unit
  wait : Except String Unit
  finish : Except StoreError σ

def record (features : Features) (calls : RecordCalls σ) (args : RecordArgs) :
    Command σ Unit := do
  let _inbound ← call "configuration" (args.inbound.resolve features)
  if (← fixtureExists args.fixture) && !args.overwrite then
    refuse "configuration" fixtureExistsMessage
  else
    if ← fixtureExists args.fixture then removeFixture calls.removal args.fixture
    let (redaction, profileId) := redactionPolicy args.redaction
    let _client ← call "configuration"
      (buildClientWithVersion features calls.connect args.route args.outboundVersion)
    createSession calls.create args.fixture
      { defaultMetadata with
        captureMode := "gateway"
        target := some (calls.redactUrl args.upstream)
        redactionProfile := profileId }
    call "configuration" (calls.parseUri args.upstream)
    call "runtime" (calls.startGateway args.listen redaction profileId)
    call "runtime" calls.ctrlC
    call "runtime" calls.wait
    let session ← storeCall calls.finish
    publishSession args.fixture session

/-! ### `har import` -/

structure HarImportArgs where
  har : String
  fixture : FixturePath
  overwrite : Bool
  lossReport : Option String
  redaction : RedactionArgs
  deriving DecidableEq

inductive HarError where
  | invalid (message : String)
  | unsupportedEntry (index : Nat) (reason : String)
  | store (error : StoreError)
  | redaction (message : String)
  deriving DecidableEq

def HarError.stop : HarError → Stop
  | .store error => .err "fixture" error.display
  | .invalid message | .redaction message => .err "configuration" message
  | .unsupportedEntry index reason =>
      .err "configuration" ("entry " ++ Nat.repr index ++ ": " ++ reason)

/-- What comes of the calls that `har import` makes; `ρ` is the report. -/
structure HarImportCalls (σ ρ : Type) where
  read : String → Except String Bytes
  removal : Removal σ
  create : SessionMetadata → Except StoreError Unit
  importHarToWriter : Bytes → RedactionConfig → String → Except HarError ρ
  finish : Except StoreError σ
  writeLossReport : String → ρ → Except String Unit

def harImport {ρ : Type} (calls : HarImportCalls σ ρ) (args : HarImportArgs) :
    Command σ Unit := do
  if (← fixtureExists args.fixture) && !args.overwrite then
    refuse "configuration" fixtureExistsMessage
  else
    let harBytes ← call "configuration"
      ((calls.read args.har).mapError fun error => "cannot read HAR file: " ++ error)
    let (redaction, profileId) := redactionPolicy args.redaction
    if ← fixtureExists args.fixture then removeFixture calls.removal args.fixture
    createSession calls.create args.fixture
      { defaultMetadata with captureMode := "har-import", redactionProfile := profileId }
    let report ← Op.ofExcept
      ((calls.importHarToWriter harBytes redaction profileId).mapError HarError.stop)
    let session ← storeCall calls.finish
    publishSession args.fixture session
    match args.lossReport with
    | some path => call "runtime" (calls.writeLossReport path report)
    | none => pure ()

/-! ### `proxy record` -/

structure SocketAddr where
  ip : IpAddr
  port : Nat
  deriving DecidableEq

def SocketAddr.display (addr : SocketAddr) : String :=
  match addr.ip with
  | .v4 _ => addr.ip.text ++ ":" ++ Nat.repr addr.port
  | .v6 _ => "[" ++ addr.ip.text ++ "]:" ++ Nat.repr addr.port

def isLoopback : IpAddr → Bool
  | .v4 addr => decide (addr.a = 127)
  | .v6 addr => decide (addr.segments = [0, 0, 0, 0, 0, 0, 0, 1])

def checkListenerBind (bind : SocketAddr) (allowNonLoopback : Bool) : Except String Unit :=
  ensure (isLoopback bind.ip = true ∨ allowNonLoopback = true)
    ("refusing non-loopback proxy bind on " ++ bind.display ++ ": remote listeners require " ++
      "--allow-non-loopback and an operator-managed ingress allow policy; remote exposure " ++
      "without proxy authentication creates an open forward proxy")

/-- `ProxyListenerConfig::loopback`, or the remote opt-in. -/
def listenerConfig (bind : SocketAddr) (allowNonLoopback : Bool) : Except String Unit :=
  if allowNonLoopback then .ok ()
  else
    ensure (isLoopback bind.ip = true)
      ("refusing non-loopback explicit-proxy bind on " ++ bind.display ++ ": remote listeners " ++
        "require an explicit opt-in and an ingress allow policy; remote exposure without proxy " ++
        "authentication creates an open forward proxy")

def maxConcurrentTunnels : Nat := 4096

/-- Durations are in seconds. -/
def TunnelLimits.new (maxBytes maxDuration idleTimeout maxConcurrent connectTimeout : Nat) :
    Except String TunnelLimits := do
  ensure (maxBytes ≠ 0) "tunnel max_bytes must be positive"
  ensure (maxDuration ≠ 0) "tunnel max_duration must be positive"
  ensure (idleTimeout ≠ 0) "tunnel idle_timeout must be positive"
  ensure (connectTimeout ≠ 0) "tunnel connect_timeout must be positive"
  ensure (maxConcurrent ≠ 0 ∧ maxConcurrent ≤ maxConcurrentTunnels)
    "tunnel max_concurrent must be 1..=4096"
  pure { maxBytes, maxConcurrent }

structure ProxyRecordArgs where
  listen : SocketAddr
  fixture : FixturePath
  overwrite : Bool
  route : String
  caDir : Option String
  allowNonLoopback : Bool
  redaction : RedactionArgs
  maxTunnels : Nat
  maxConnections : Nat
  leafValidityHours : Nat
  tunnelMaxBytes : Nat
  tunnelMaxDurationSecs : Nat
  tunnelIdleTimeoutSecs : Nat
  tunnelConnectTimeoutSecs : Nat
  deriving DecidableEq

def leafErrorDisplay : LeafError → String
  | .invalidTarget => "leaf target is not an exact DNS name or IP literal"
  | .invalidOptions => "invalid leaf options"
  | .caNotValid => "issuing CA is outside its validity window"
  | .caExpiring => "issuing CA expires too soon to mint a leaf"
  | .keyGeneration => "leaf key generation failed"
  | .signing => "leaf signing failed"

/-- What comes of the calls that `proxy record` makes: whether the default action of the policy
that it loads is to intercept, and the errors of a certificate authority with their class. -/
structure ProxyRecordCalls (σ : Type) where
  removal : Removal σ
  loadRecordPolicy : Except String Bool
  connect : String → Except String Unit
  openCa : String → Except (String × String) CaAuthority
  create : SessionMetadata → Except StoreError Unit
  redactRoute : String → String
  startProxy : Except String Unit
  ctrlC : Except String Unit
  finish : Except StoreError σ

/-- The issuer that interception is armed with. -/
def armMitm (calls : ProxyRecordCalls σ) (args : ProxyRecordArgs) : Except Stop LeafIssuer := do
  let dir ← orFail args.caDir
    (.err "configuration" ("intercept default requires --ca-dir selecting an initialized CA " ++
      "(see `eggreplay ca init`)"))
  let authority ← (calls.openCa dir).mapError fun error => .err error.1 error.2
  ensure (minLeafValidityHours ≤ args.leafValidityHours ∧
      args.leafValidityHours ≤ maxLeafValidityHours)
    (.err "configuration" "leaf validity must be 1..=720 hours")
  (LeafIssuer.new authority { validityHours := args.leafValidityHours }).mapError fun error =>
    .err "configuration" (leafErrorDisplay error)

def proxyRecord (calls : ProxyRecordCalls σ) (args : ProxyRecordArgs) : Command σ Unit := do
  call "configuration" (checkListenerBind args.listen args.allowNonLoopback)
  if (← fixtureExists args.fixture) && !args.overwrite then
    refuse "configuration" fixtureExistsMessage
  else
    if ← fixtureExists args.fixture then removeFixture calls.removal args.fixture
    let intercepts ← call "configuration" calls.loadRecordPolicy
    let (_redaction, profileId) := redactionPolicy args.redaction
    call "configuration"
      ((parseRoute calls.connect args.route).mapError fun error => "invalid --route: " ++ error)
    let _limits ← call "configuration"
      (TunnelLimits.new args.tunnelMaxBytes args.tunnelMaxDurationSecs
        args.tunnelIdleTimeoutSecs args.maxTunnels args.tunnelConnectTimeoutSecs)
    call "configuration"
      (ensure (1 ≤ args.maxConnections ∧ args.maxConnections ≤ 4096)
        "--max-connections must be within 1..=4096")
    let _mitm ←
      if intercepts then Op.ofExcept ((armMitm calls args).map some) else pure none
    createSession calls.create args.fixture
      { defaultMetadata with
        captureMode := "explicit-proxy"
        target := some (calls.redactRoute args.route)
        redactionProfile := profileId }
    call "configuration" (listenerConfig args.listen args.allowNonLoopback)
    call "runtime" calls.startProxy
    call "runtime" calls.ctrlC
    let session ← storeCall calls.finish
    publishSession args.fixture session

/-! ### `migrate` -/

structure MigrateArgs where
  fixture : FixturePath
  toFixture : Option FixturePath
  inPlace : Bool
  overwrite : Bool
  targetSchema : Option Nat
  deriving DecidableEq

inductive MigrationError where
  | store (error : StoreError)
  | blocked (message : String)
  | runtime (message : String)
  deriving DecidableEq

def MigrationError.stop : MigrationError → Stop
  | .blocked message => .err "fixture" message
  | .store error => .err "fixture" error.display
  | .runtime message => .err "runtime" message

/-- What comes of the calls that `migrate` makes; the clock is read twice. -/
structure MigrateCalls (σ : Type) where
  openFixture : Except StoreError σ
  migrateSession : σ → Nat → Except MigrationError σ
  pid : Nat
  stagedNonce : Nat
  nonce : Nat
  fates : Fates σ

/-- The migrated session is published beside the target. -/
def stageSession (staged : FixturePath) (session : σ) : Command σ Unit :=
  Op.modify fun world => { world with directory := world.directory.insert staged.name session }

/-- The new session is published when it has left its staged name. -/
def replaceFixture (fates : Fates σ) (pid nonce : Nat) (staged target : FixturePath) :
    Command σ Unit := fun world =>
  let (directory, ending) :=
    replaceFixtureTransactionally fates pid nonce staged.name target world.directory
  let next := { directory, published := decide (staged.name ∉ directory) }
  match ending with
  | .done => (.ok (), next)
  | .failed error => (.error (.err "runtime" error), next)
  | .crashed => (.error .crashed, next)

/-- The rename to a destination that does not exist. -/
def renameStaged (fate : Fate) (staged target : FixturePath) : Command σ Unit := fun world =>
  let (directory, ending) := rename fate staged.name target.name world.directory
  let next := { directory, published := decide (staged.name ∉ directory) }
  match ending with
  | .done => (.ok (), next)
  | .failed error => (.error (.err "runtime" error), next)
  | .crashed => (.error .crashed, next)

def migrate (calls : MigrateCalls σ) (args : MigrateArgs) : Command σ Unit := do
  if args.inPlace && args.toFixture.isSome then
    refuse "configuration" "--to and --in-place are mutually exclusive"
  else if !args.inPlace && args.toFixture.isNone then
    refuse "configuration" "migrate requires --to <fixture> or --in-place"
  else
    let targetSchema := args.targetSchema.getD sessionSchemaVersion
    call "configuration"
      (ensure (sessionSchemaV1 ≤ targetSchema ∧ targetSchema ≤ sessionSchemaVersion)
        ("unsupported target session schema " ++ Nat.repr targetSchema))
    let source ← storeCall calls.openFixture
    if args.inPlace then
      let staged := siblingTransactionPath args.fixture "migrate" calls.pid calls.stagedNonce
      let migrated ← Op.ofExcept
        ((calls.migrateSession source targetSchema).mapError MigrationError.stop)
      stageSession staged migrated
      replaceFixture calls.fates calls.pid calls.nonce staged args.fixture
    else
      let destination := args.toFixture.getD args.fixture
      if (← fixtureExists destination) && !args.overwrite then
        refuse "configuration" "destination exists; pass --overwrite to replace it"
      else
        let staged := siblingTransactionPath destination "migrate" calls.pid calls.stagedNonce
        let migrated ← Op.ofExcept
          ((calls.migrateSession source targetSchema).mapError MigrationError.stop)
        stageSession staged migrated
        if ← fixtureExists destination then
          replaceFixture calls.fates calls.pid calls.nonce staged destination
        else renameStaged calls.fates.publish staged destination

/-! ### The commands -/

/-- A command that can overwrite a session, with its arguments and what comes of its calls. -/
inductive OverwritingCommand (σ ρ : Type) where
  | record (features : Features) (calls : RecordCalls σ) (args : RecordArgs)
  | harImport (calls : HarImportCalls σ ρ) (args : HarImportArgs)
  | proxyRecord (calls : ProxyRecordCalls σ) (args : ProxyRecordArgs)
  | migrate (calls : MigrateCalls σ) (args : MigrateArgs)

def OverwritingCommand.run {ρ : Type} : OverwritingCommand σ ρ → Command σ Unit
  | .record features calls args => OverwritingCommands.record features calls args
  | .harImport calls args => OverwritingCommands.harImport calls args
  | .proxyRecord calls args => OverwritingCommands.proxyRecord calls args
  | .migrate calls args => OverwritingCommands.migrate calls args

def OverwritingCommand.target {ρ : Type} : OverwritingCommand σ ρ → FixturePath
  | .record _ _ args => args.fixture
  | .harImport _ args => args.fixture
  | .proxyRecord _ args => args.fixture
  | .migrate _ args => if args.inPlace then args.fixture else args.toFixture.getD args.fixture

end EggReplay.Cli.OverwritingCommands
