import EggReplay.Cli.OverwritingCommands

/-!
When a command that can overwrite a fixture keeps the old session where it fails.
-/

namespace EggReplay.Cli.OldFixtureKept

open EggReplay.Library.Checks
open EggReplay.Library.Directories
open EggReplay.Library.Stateful
open EggReplay.Core.FlowRecord
open EggReplay.Core.Redaction
open EggReplay.Store.Fixture
open EggReplay.Intercept.Leaves
open EggReplay.Cli.FixtureReplacement
open EggReplay.Cli.OverwritingCommands

variable {σ ρ α β : Type}

/-- Where the command returns an error, its session was published or the old one is there. -/
def Keeps (target : FixturePath) (old : σ) (command : Command σ α) (world : World σ) : Prop :=
  ∀ failureClass message, (command world).1 = .error (.err failureClass message) →
    (command world).2.published = false →
      (command world).2.directory.lookup target.name = some old

variable {target : FixturePath} {old : σ} {world : World σ} {failureClass message : String}

/-! ### Rules -/

theorem keeps_refuse (h : world.directory.lookup target.name = some old) :
    Keeps target old (refuse failureClass message : Command σ α) world :=
  fun _ _ _ _ => h

theorem keeps_bind_congr {x y : Command σ α} {f : α → Command σ β} (h : x world = y world) :
    Keeps target old (x >>= f) world ↔ Keeps target old (y >>= f) world := by
  have hbind : (x >>= f) world = (y >>= f) world := by
    rcases hy : y world with ⟨stop | a, next⟩
    · rw [Op.bind_of_error hy, Op.bind_of_error (h.trans hy)]
    · rw [Op.bind_of_ok hy, Op.bind_of_ok (h.trans hy)]
  rw [Keeps, Keeps, hbind]

theorem keeps_fixtureExists {fixture : FixturePath} {f : Bool → Command σ α} :
    Keeps target old (fixtureExists fixture >>= f) world ↔
      Keeps target old (f (decide (fixture.name ∈ world.directory))) world :=
  Iff.rfl

theorem keeps_ofExcept_of_kept (h : world.directory.lookup target.name = some old)
    {x : Except Stop α} {f : α → Command σ β} :
    Keeps target old (Op.ofExcept x >>= f) world ↔
      ∀ a, x = .ok a → Keeps target old (f a) world := by
  cases x with
  | error stop => exact ⟨fun _ => (by rintro _ ⟨⟩), fun _ _ _ _ _ => h⟩
  | ok a => exact ⟨fun hkeeps b hb => Except.ok.inj hb ▸ hkeeps, fun hkeeps => hkeeps a rfl⟩

/-- Once the old session is gone, every error loses it. -/
theorem keeps_ofExcept_of_lost (hlost : world.directory.lookup target.name ≠ some old)
    (hpublished : world.published = false) {x : Except Stop α} {f : α → Command σ β}
    (herrors : x ≠ .error .crashed) :
    Keeps target old (Op.ofExcept x >>= f) world ↔
      ∃ a, x = .ok a ∧ Keeps target old (f a) world := by
  cases x with
  | ok a =>
      constructor
      · intro hkeeps
        exact ⟨a, rfl, hkeeps⟩
      · rintro ⟨b, hb, hkeeps⟩
        exact Except.ok.inj hb ▸ hkeeps
  | error stop =>
      cases stop with
      | crashed => exact absurd rfl herrors
      | err failureClass message =>
          constructor
          · intro hkeeps
            exact absurd (hkeeps failureClass message rfl hpublished) hlost
          · rintro ⟨a, ha, -⟩
            cases ha

theorem mapError_ne_crashed {ε : Type} {x : Except ε α} {f : ε → Stop}
    (h : ∀ e, f e ≠ .crashed) : x.mapError f ≠ .error .crashed := by
  cases x with
  | ok a => rintro ⟨⟩
  | error e =>
      intro heq
      exact h e (Except.error.inj heq)

theorem keeps_call_of_kept (h : world.directory.lookup target.name = some old)
    {x : Except String α} {f : α → Command σ β} :
    Keeps target old (call failureClass x >>= f) world ↔
      ∀ a, x = .ok a → Keeps target old (f a) world := by
  rw [call, keeps_ofExcept_of_kept h]
  simp only [mapError_eq_ok]

theorem keeps_check_of_kept (h : world.directory.lookup target.name = some old)
    {x : Except String Unit} {f : Unit → Command σ β} :
    Keeps target old (call failureClass x >>= f) world ↔
      (x = .ok () → Keeps target old (f ()) world) := by
  rw [keeps_call_of_kept h]
  exact ⟨fun hkeeps => hkeeps (), fun hkeeps _ => hkeeps⟩

theorem keeps_call_of_lost (hlost : world.directory.lookup target.name ≠ some old)
    (hpublished : world.published = false) {x : Except String α} {f : α → Command σ β} :
    Keeps target old (call failureClass x >>= f) world ↔
      ∃ a, x = .ok a ∧ Keeps target old (f a) world := by
  have herrors : x.mapError (Stop.err failureClass) ≠ .error .crashed :=
    mapError_ne_crashed fun _ => Stop.noConfusion
  rw [call, keeps_ofExcept_of_lost hlost hpublished herrors]
  simp only [mapError_eq_ok]

theorem keeps_storeCall_of_kept (h : world.directory.lookup target.name = some old)
    {x : Except StoreError α} {f : α → Command σ β} :
    Keeps target old (storeCall x >>= f) world ↔
      ∀ a, x = .ok a → Keeps target old (f a) world := by
  rw [storeCall, keeps_call_of_kept h]
  simp only [mapError_eq_ok]

theorem keeps_storeCall_of_lost (hlost : world.directory.lookup target.name ≠ some old)
    (hpublished : world.published = false) {x : Except StoreError α} {f : α → Command σ β} :
    Keeps target old (storeCall x >>= f) world ↔
      ∃ a, x = .ok a ∧ Keeps target old (f a) world := by
  rw [storeCall, keeps_call_of_lost hlost hpublished]
  simp only [mapError_eq_ok]

theorem keeps_createSession_of_missing (hmissing : world.directory.lookup target.name = none)
    (hpublished : world.published = false) {create : SessionMetadata → Except StoreError Unit}
    {metadata : SessionMetadata} {f : Unit → Command σ β} :
    Keeps target old (createSession create target metadata >>= f) world ↔
      create metadata = .ok () ∧ Keeps target old (f ()) world := by
  have hlost : world.directory.lookup target.name ≠ some old := by
    rw [hmissing]
    rintro ⟨⟩
  have hcreate : createSession create target metadata world = storeCall (create metadata) world := by
    show (if decide (target.name ∈ world.directory) = true then
      refuse "fixture" (StoreError.display (.invalid "fixture destination already exists"))
      else storeCall (create metadata) : Command σ Unit) world = _
    rw [decide_eq_false (AList.lookup_eq_none.mp hmissing)]
    rfl
  rw [keeps_bind_congr hcreate, keeps_storeCall_of_lost hlost hpublished]
  exact ⟨fun ⟨_, h⟩ => h, fun h => ⟨(), h⟩⟩

theorem keeps_publishSession {fixture : FixturePath} {session : σ} :
    Keeps target old (publishSession fixture session) world :=
  fun _ _ h => by cases h

theorem keeps_call_of_published (hpublished : world.published = true) {x : Except String α} :
    Keeps target old (call failureClass x) world := by
  intro _ _ _ h
  rw [call, Op.ofExcept, hpublished] at h
  exact absurd h (by decide)

/-- A removal that fails keeps what it leaves, and one that succeeds leaves the rest of the
command to lose nothing. -/
def RemovalKeeps (removal : Removal σ) (old : σ) (finishes : Prop) : Prop :=
  match removal with
  | .succeeds => finishes
  | .fails _ remains => remains = some old
  | .crashes _ => True

theorem keeps_removeFixture {removal : Removal σ} {f : Unit → Command σ β}
    (hpublished : world.published = false) :
    Keeps target old (removeFixture removal target >>= f) world ↔
      RemovalKeeps removal old
        (Keeps target old (f ()) { world with directory := world.directory.erase target.name }) := by
  cases removal with
  | succeeds => exact Iff.rfl
  | crashes remains => exact ⟨fun _ => trivial, fun _ _ _ h => by cases h⟩
  | fails error remains =>
      have hlookup : (leave target.name remains world.directory).lookup target.name = remains := by
        cases remains with
        | none => exact AList.lookup_erase _ _
        | some entry => exact AList.lookup_insert _
      constructor
      · intro hkeeps
        have hkept := hkeeps "runtime" error rfl hpublished
        exact hlookup.symm.trans hkept
      · intro hremains _ _ _ _
        exact hlookup.trans hremains

theorem RemovalKeeps.congr {removal : Removal σ} {p q : Prop} (h : p ↔ q) :
    RemovalKeeps removal old p ↔ RemovalKeeps removal old q := by
  cases removal with
  | succeeds => exact h
  | fails error remains => exact Iff.rfl
  | crashes remains => exact Iff.rfl

/-- Without `--overwrite` an existing fixture is refused. -/
theorem keeps_refuse_or {overwrite : Bool} {command : Command σ α}
    (hold : world.directory.lookup target.name = some old) :
    Keeps target old
        (if decide (target.name ∈ world.directory) && !overwrite then
          refuse "configuration" message else command) world ↔
      (overwrite = true → Keeps target old command world) := by
  have hpresent : target.name ∈ world.directory :=
    AList.lookup_isSome.mp (Option.isSome_iff_exists.mpr ⟨old, hold⟩)
  cases overwrite with
  | false =>
      rw [decide_eq_true hpresent]
      exact ⟨fun _ => (by rintro ⟨⟩), fun _ => keeps_refuse hold⟩
  | true =>
      rw [Bool.not_true, Bool.and_false]
      exact ⟨fun h _ => h, fun h => h rfl⟩

/-- The rest of a command runs where the old session is gone. -/
theorem keeps_removal {removal : Removal σ} {first : Unit → Command σ β} {second : Command σ β}
    {finishes : Prop} (hold : world.directory.lookup target.name = some old)
    (hpublished : world.published = false)
    (hrest : ∀ gone : World σ, gone.directory.lookup target.name = none → gone.published = false →
      (Keeps target old (first ()) gone ↔ finishes)) :
    Keeps target old (fixtureExists target >>= fun present =>
        if present then removeFixture removal target >>= first else second) world ↔
      RemovalKeeps removal old finishes := by
  have hpresent : target.name ∈ world.directory :=
    AList.lookup_isSome.mp (Option.isSome_iff_exists.mpr ⟨old, hold⟩)
  rw [keeps_fixtureExists, decide_eq_true hpresent, if_pos rfl, keeps_removeFixture hpublished]
  exact RemovalKeeps.congr (hrest _ (AList.lookup_erase _ _) hpublished)

theorem redactionPolicy_snd (args : RedactionArgs) :
    (redactionPolicy args).2 = args.redactionProfile := by
  rw [redactionPolicy]
  split
  · rfl
  · rfl

/-! ### `record` -/

/-- Every call of `record` from the removal to the publication succeeds. -/
structure RecordFinishes (features : Features) (calls : RecordCalls σ) (args : RecordArgs) :
    Prop where
  version : ∃ policy, args.outboundVersion.policy features = .ok policy
  route : parseRoute calls.connect args.route = .ok ()
  create : calls.create
    { defaultMetadata with
      captureMode := "gateway"
      target := some (calls.redactUrl args.upstream)
      redactionProfile := args.redaction.redactionProfile } = .ok ()
  upstream : calls.parseUri args.upstream = .ok ()
  start : calls.startGateway args.listen (redactionPolicy args.redaction).1
    args.redaction.redactionProfile = .ok ()
  ctrlC : calls.ctrlC = .ok ()
  wait : calls.wait = .ok ()
  finish : ∃ session, calls.finish = .ok session

theorem keeps_record_rest {features : Features} {calls : RecordCalls σ} {args : RecordArgs}
    {gone : World σ} (hgone : gone.directory.lookup args.fixture.name = none)
    (hpublished : gone.published = false) :
    Keeps args.fixture old (do
      let _client ← call "configuration"
        (buildClientWithVersion features calls.connect args.route args.outboundVersion)
      createSession calls.create args.fixture
        { defaultMetadata with
          captureMode := "gateway"
          target := some (calls.redactUrl args.upstream)
          redactionProfile := (redactionPolicy args.redaction).2 }
      call "configuration" (calls.parseUri args.upstream)
      call "runtime" (calls.startGateway args.listen (redactionPolicy args.redaction).1
        (redactionPolicy args.redaction).2)
      call "runtime" calls.ctrlC
      call "runtime" calls.wait
      let session ← storeCall calls.finish
      publishSession args.fixture session) gone ↔ RecordFinishes features calls args := by
  have hlost : gone.directory.lookup args.fixture.name ≠ some old := by
    rw [hgone]
    rintro ⟨⟩
  simp only [keeps_call_of_lost hlost hpublished, keeps_storeCall_of_lost hlost hpublished,
    keeps_createSession_of_missing hgone hpublished, keeps_publishSession, redactionPolicy_snd]
  constructor
  · rintro ⟨policy, hclient, hcreate, _, hparse, _, hstart, _, hctrlC, _, hwait, session, hfinish, -⟩
    simp only [buildClientWithVersion, bind_eq_ok, pure_eq_ok] at hclient
    obtain ⟨_, hversion, _, hroute, -⟩ := hclient
    exact ⟨⟨_, hversion⟩, hroute, hcreate, hparse, hstart, hctrlC, hwait, ⟨session, hfinish⟩⟩
  · rintro ⟨⟨policy, hversion⟩, hroute, hcreate, hparse, hstart, hctrlC, hwait, session, hfinish⟩
    refine ⟨policy, ?_, hcreate, _, hparse, _, hstart, _, hctrlC, _, hwait, session, hfinish, trivial⟩
    rw [buildClientWithVersion, hversion, hroute]
    rfl

theorem keeps_record {features : Features} {calls : RecordCalls σ} {args : RecordArgs}
    {directory : Directory σ} (hold : directory.lookup args.fixture.name = some old) :
    Keeps args.fixture old (record features calls args) (World.start directory) ↔
      (args.overwrite = true → ∀ protocol, args.inbound.resolve features = .ok protocol →
        RemovalKeeps calls.removal old (RecordFinishes features calls args)) := by
  rw [record, keeps_call_of_kept hold]
  trans ∀ protocol, args.inbound.resolve features = .ok protocol → args.overwrite = true →
    RemovalKeeps calls.removal old (RecordFinishes features calls args)
  · refine forall_congr' fun protocol => imp_congr_right fun _ => ?_
    rw [keeps_fixtureExists]
    refine (keeps_refuse_or hold).trans (imp_congr_right fun _ => ?_)
    exact keeps_removal hold rfl fun gone hgone hpublished => keeps_record_rest hgone hpublished
  · exact ⟨fun h ho p hp => h p hp ho, fun h p hp ho => h ho p hp⟩

/-! ### `har import` -/

/-- Every call of `har import` from the removal to the publication succeeds. -/
structure HarImportFinishes (calls : HarImportCalls σ ρ) (args : HarImportArgs)
    (harBytes : Library.Text.Bytes) : Prop where
  create : calls.create
    { defaultMetadata with
      captureMode := "har-import"
      redactionProfile := args.redaction.redactionProfile } = .ok ()
  imported : ∃ report, calls.importHarToWriter harBytes (redactionPolicy args.redaction).1
    args.redaction.redactionProfile = .ok report
  finish : ∃ session, calls.finish = .ok session

theorem harError_stop_ne_crashed (error : HarError) : error.stop ≠ .crashed := by
  cases error <;> exact Stop.noConfusion

theorem keeps_publishSession_bind {fixture : FixturePath} {session : σ}
    {f : Unit → Command σ α} (h : ∀ world : World σ, world.published = true →
      Keeps target old (f ()) world) :
    Keeps target old (publishSession fixture session >>= f) world :=
  h _ rfl

theorem keeps_harImport_rest {calls : HarImportCalls σ ρ} {args : HarImportArgs}
    {harBytes : Library.Text.Bytes} {gone : World σ}
    (hgone : gone.directory.lookup args.fixture.name = none) (hpublished : gone.published = false) :
    Keeps args.fixture old (do
      createSession calls.create args.fixture
        { defaultMetadata with
          captureMode := "har-import", redactionProfile := (redactionPolicy args.redaction).2 }
      let report ← Op.ofExcept
        ((calls.importHarToWriter harBytes (redactionPolicy args.redaction).1
          (redactionPolicy args.redaction).2).mapError HarError.stop)
      let session ← storeCall calls.finish
      publishSession args.fixture session
      match args.lossReport with
      | some path => call "runtime" (calls.writeLossReport path report)
      | none => pure ()) gone ↔ HarImportFinishes calls args harBytes := by
  have hlost : gone.directory.lookup args.fixture.name ≠ some old := by
    rw [hgone]
    rintro ⟨⟩
  -- what fails after the publication loses nothing
  have hreport : ∀ (report : ρ) (session : σ),
      Keeps args.fixture old (publishSession args.fixture session >>= fun _ =>
        match args.lossReport with
        | some path => call "runtime" (calls.writeLossReport path report)
        | none => pure ()) gone := by
    intro report session
    apply keeps_publishSession_bind
    intro world hworld
    cases args.lossReport with
    | some path => exact keeps_call_of_published hworld
    | none => exact fun _ _ h => by cases h
  have herrors : (calls.importHarToWriter harBytes (redactionPolicy args.redaction).1
      args.redaction.redactionProfile).mapError HarError.stop ≠ .error .crashed :=
    mapError_ne_crashed harError_stop_ne_crashed
  simp only [redactionPolicy_snd, keeps_createSession_of_missing hgone hpublished,
    keeps_ofExcept_of_lost hlost hpublished herrors, mapError_eq_ok,
    keeps_storeCall_of_lost hlost hpublished, hreport]
  constructor
  · rintro ⟨hcreate, report, himport, session, hfinish, -⟩
    exact ⟨hcreate, ⟨report, himport⟩, ⟨session, hfinish⟩⟩
  · rintro ⟨hcreate, ⟨report, himport⟩, ⟨session, hfinish⟩⟩
    exact ⟨hcreate, report, himport, session, hfinish, trivial⟩

theorem keeps_harImport {calls : HarImportCalls σ ρ} {args : HarImportArgs}
    {directory : Directory σ} (hold : directory.lookup args.fixture.name = some old) :
    Keeps args.fixture old (harImport calls args) (World.start directory) ↔
      (args.overwrite = true → ∀ harBytes, calls.read args.har = .ok harBytes →
        RemovalKeeps calls.removal old (HarImportFinishes calls args harBytes)) := by
  rw [harImport, keeps_fixtureExists]
  refine (keeps_refuse_or hold).trans (imp_congr_right fun _ => ?_)
  rw [keeps_call_of_kept hold]
  simp only [mapError_eq_ok]
  refine forall_congr' fun harBytes => imp_congr_right fun _ => ?_
  exact keeps_removal hold rfl fun gone hgone hpublished => keeps_harImport_rest hgone hpublished

/-! ### `proxy record` -/

/-- Every call of `proxy record` from the removal to the publication succeeds. -/
structure ProxyRecordFinishes (calls : ProxyRecordCalls σ) (args : ProxyRecordArgs)
    (intercepts : Bool) : Prop where
  policy : calls.loadRecordPolicy = .ok intercepts
  route : parseRoute calls.connect args.route = .ok ()
  limits : ∃ limits, TunnelLimits.new args.tunnelMaxBytes args.tunnelMaxDurationSecs
    args.tunnelIdleTimeoutSecs args.maxTunnels args.tunnelConnectTimeoutSecs = .ok limits
  connections : 1 ≤ args.maxConnections ∧ args.maxConnections ≤ 4096
  mitm : intercepts = true → ∃ dir authority, args.caDir = some dir ∧
    calls.openCa dir = .ok authority ∧
      minLeafValidityHours ≤ args.leafValidityHours ∧ args.leafValidityHours ≤ maxLeafValidityHours
  create : calls.create
    { defaultMetadata with
      captureMode := "explicit-proxy"
      target := some (calls.redactRoute args.route)
      redactionProfile := args.redaction.redactionProfile } = .ok ()
  start : calls.startProxy = .ok ()
  ctrlC : calls.ctrlC = .ok ()
  finish : ∃ session, calls.finish = .ok session

theorem armMitm_isOk_iff {calls : ProxyRecordCalls σ} {args : ProxyRecordArgs} :
    (∃ issuer, armMitm calls args = .ok issuer) ↔ ∃ dir authority, args.caDir = some dir ∧
      calls.openCa dir = .ok authority ∧
        minLeafValidityHours ≤ args.leafValidityHours ∧
          args.leafValidityHours ≤ maxLeafValidityHours := by
  simp only [armMitm, bind_eq_ok, orFail_eq_ok, mapError_eq_ok, ensure_eq_ok, LeafIssuer.new,
    LeafOptions.validate, pure_eq_ok]
  constructor
  · rintro ⟨_, dir, hdir, authority, hopen, _, hhours, -⟩
    exact ⟨dir, authority, hdir, hopen, hhours⟩
  · rintro ⟨dir, authority, hdir, hopen, hhours⟩
    exact ⟨_, dir, hdir, authority, hopen, (), hhours, (), hhours, rfl⟩

theorem armMitm_ne_crashed {calls : ProxyRecordCalls σ} {args : ProxyRecordArgs} :
    armMitm calls args ≠ .error .crashed := by
  intro h
  simp only [armMitm, bind_eq_error] at h
  rcases h with h | ⟨dir, -, h⟩
  · cases hdir : args.caDir with
    | none =>
        rw [hdir] at h
        exact Stop.noConfusion (Except.error.inj h)
    | some dir =>
        rw [hdir] at h
        cases h
  · rcases h with h | ⟨authority, -, h⟩
    · exact mapError_ne_crashed (fun _ => Stop.noConfusion) h
    · rcases h with h | ⟨_, -, h⟩
      · rw [ensure] at h
        split at h
        · cases h
        · exact Stop.noConfusion (Except.error.inj h)
      · exact mapError_ne_crashed (fun _ => Stop.noConfusion) h

theorem keeps_armed {calls : ProxyRecordCalls σ} {args : ProxyRecordArgs} {intercepts : Bool}
    {f : Option LeafIssuer → Command σ β} {finishes : Prop}
    (hlost : world.directory.lookup target.name ≠ some old) (hpublished : world.published = false)
    (hrest : ∀ issuer, Keeps target old (f issuer) world ↔ finishes) :
    Keeps target old
        (if intercepts then Op.ofExcept ((armMitm calls args).map some) >>= f
        else pure none >>= f) world ↔
      (intercepts = true → ∃ issuer, armMitm calls args = .ok issuer) ∧ finishes := by
  cases intercepts with
  | false => exact (hrest none).trans ⟨fun h => ⟨(by rintro ⟨⟩), h⟩, fun h => h.2⟩
  | true =>
      have herrors : (armMitm calls args).map some ≠ .error .crashed := by
        intro h
        cases harm : armMitm calls args with
        | ok issuer =>
            rw [harm] at h
            cases h
        | error stop =>
            rw [harm] at h
            exact armMitm_ne_crashed (harm.trans (congrArg _ (Except.error.inj h)))
      rw [if_pos rfl, keeps_ofExcept_of_lost hlost hpublished herrors]
      constructor
      · rintro ⟨issuer, hissuer, hfinishes⟩
        obtain ⟨armed, harmed, -⟩ := map_eq_ok.mp hissuer
        exact ⟨fun _ => ⟨armed, harmed⟩, (hrest issuer).mp hfinishes⟩
      · rintro ⟨harmed, hfinishes⟩
        obtain ⟨issuer, hissuer⟩ := harmed rfl
        exact ⟨some issuer, map_eq_ok.mpr ⟨issuer, hissuer, rfl⟩, (hrest _).mpr hfinishes⟩

/-- The listener was checked before, so that its configuration does not fail. -/
theorem listenerConfig_eq_ok {bind : SocketAddr} {allowNonLoopback : Bool}
    (h : checkListenerBind bind allowNonLoopback = .ok ()) :
    listenerConfig bind allowNonLoopback = .ok () := by
  rw [checkListenerBind, ensure_eq_ok] at h
  rw [listenerConfig]
  split
  · rfl
  · rename_i hallow
    exact ensure_of_true (h.resolve_right hallow)

theorem keeps_proxyRecord_rest {calls : ProxyRecordCalls σ} {args : ProxyRecordArgs}
    (hlisten : checkListenerBind args.listen args.allowNonLoopback = .ok ())
    {gone : World σ} (hgone : gone.directory.lookup args.fixture.name = none)
    (hpublished : gone.published = false) :
    Keeps args.fixture old (do
      let intercepts ← call "configuration" calls.loadRecordPolicy
      call "configuration"
        ((parseRoute calls.connect args.route).mapError fun error => "invalid --route: " ++ error)
      let _limits ← call "configuration"
        (TunnelLimits.new args.tunnelMaxBytes args.tunnelMaxDurationSecs
          args.tunnelIdleTimeoutSecs args.maxTunnels args.tunnelConnectTimeoutSecs)
      call "configuration"
        (ensure (1 ≤ args.maxConnections ∧ args.maxConnections ≤ 4096)
          "--max-connections must be within 1..=4096")
      let _mitm ←
        if intercepts then Op.ofExcept ((armMitm calls args).map some) else pure none
      createSession calls.create args.fixture
        { defaultMetadata with
          captureMode := "explicit-proxy"
          target := some (calls.redactRoute args.route)
          redactionProfile := (redactionPolicy args.redaction).2 }
      call "configuration" (listenerConfig args.listen args.allowNonLoopback)
      call "runtime" calls.startProxy
      call "runtime" calls.ctrlC
      let session ← storeCall calls.finish
      publishSession args.fixture session) gone ↔
        ∃ intercepts, ProxyRecordFinishes calls args intercepts := by
  have hlost : gone.directory.lookup args.fixture.name ≠ some old := by
    rw [hgone]
    rintro ⟨⟩
  simp only [keeps_call_of_lost hlost hpublished, redactionPolicy_snd, mapError_eq_ok,
    ensure_eq_ok]
  refine exists_congr fun intercepts => ?_
  rw [keeps_armed hlost hpublished (fun _ => by
    simp only [keeps_createSession_of_missing hgone hpublished, keeps_call_of_lost hlost hpublished,
      keeps_storeCall_of_lost hlost hpublished, keeps_publishSession, listenerConfig_eq_ok hlisten]
    exact Iff.rfl), armMitm_isOk_iff]
  constructor
  · rintro ⟨hpolicy, _, hroute, limits, hlimits, _, hconnections, hmitm, hcreate, _, -, _, hstart,
      _, hctrlC, session, hfinish, -⟩
    exact ⟨hpolicy, hroute, ⟨limits, hlimits⟩, hconnections, hmitm, hcreate, hstart, hctrlC,
      ⟨session, hfinish⟩⟩
  · rintro ⟨hpolicy, hroute, ⟨limits, hlimits⟩, hconnections, hmitm, hcreate, hstart, hctrlC,
      ⟨session, hfinish⟩⟩
    exact ⟨hpolicy, _, hroute, limits, hlimits, (), hconnections, hmitm, hcreate, (), trivial, _, hstart,
      _, hctrlC, session, hfinish, trivial⟩

theorem keeps_proxyRecord {calls : ProxyRecordCalls σ} {args : ProxyRecordArgs}
    {directory : Directory σ} (hold : directory.lookup args.fixture.name = some old) :
    Keeps args.fixture old (proxyRecord calls args) (World.start directory) ↔
      (args.overwrite = true → checkListenerBind args.listen args.allowNonLoopback = .ok () →
        RemovalKeeps calls.removal old (∃ intercepts, ProxyRecordFinishes calls args intercepts)) := by
  rw [proxyRecord, keeps_check_of_kept hold]
  trans checkListenerBind args.listen args.allowNonLoopback = .ok () → args.overwrite = true →
    RemovalKeeps calls.removal old (∃ intercepts, ProxyRecordFinishes calls args intercepts)
  · refine imp_congr_right fun hlisten => ?_
    rw [keeps_fixtureExists]
    refine (keeps_refuse_or hold).trans (imp_congr_right fun _ => ?_)
    exact keeps_removal hold rfl fun gone hgone hpublished =>
      keeps_proxyRecord_rest hlisten hgone hpublished
  · exact ⟨fun h ho hl => h hl ho, fun h hl ho => h ho hl⟩

/-! ### `migrate` -/

/-- The old session is moved away, and neither rename after that succeeds. -/
def ReplacementFails (fates : Fates σ) (backup : String) (directory : Directory σ) : Prop :=
  fates.stash = .succeeds ∧ backup ∉ directory ∧ (∃ error, fates.publish = .fails error) ∧
    ∃ error, fates.restore = .fails error

theorem replaceFixtureTransactionally_of_fails {fates : Fates σ} {pid nonce : Nat}
    {staged : String} {directory : Directory σ}
    (hold : directory.lookup target.name = some old)
    (hfails : ReplacementFails fates (siblingTransactionPath target "backup" pid nonce).name
      directory) :
    ∃ error, replaceFixtureTransactionally fates pid nonce staged target directory =
      (move target.name (siblingTransactionPath target "backup" pid nonce).name old directory,
        .failed error) := by
  obtain ⟨hstash, hfree, ⟨error, hpublish⟩, restoreError, hrestore⟩ := hfails
  have hpresent : target.name ∈ directory :=
    AList.lookup_isSome.mp (Option.isSome_iff_exists.mpr ⟨old, hold⟩)
  rw [replaceFixtureTransactionally, if_neg (not_not_intro hpresent), hstash, hpublish, hrestore]
  dsimp only
  rw [rename_of_moves hold (AList.lookup_eq_none.mpr hfree)]
  exact ⟨_, rfl⟩

def endingResult : Ending → Except Stop Unit
  | .done => .ok ()
  | .failed error => .error (.err "runtime" error)
  | .crashed => .error .crashed

theorem replaceFixture_eq (fates : Fates σ) (pid nonce : Nat) (staged target : FixturePath)
    (world : World σ) :
    replaceFixture fates pid nonce staged target world =
      (endingResult
        (replaceFixtureTransactionally fates pid nonce staged.name target world.directory).2,
        { directory :=
            (replaceFixtureTransactionally fates pid nonce staged.name target world.directory).1
          published := decide (staged.name ∉
            (replaceFixtureTransactionally fates pid nonce staged.name target
              world.directory).1) }) := by
  rw [replaceFixture]
  rcases replaceFixtureTransactionally fates pid nonce staged.name target world.directory with
    ⟨directory, ending⟩
  cases ending <;> rfl

theorem keeps_replaceFixture {fates : Fates σ} {pid nonce : Nat} {staged : FixturePath}
    {session : σ} (hold : world.directory.lookup target.name = some old)
    (hstaged : world.directory.lookup staged.name = some session)
    (htarget : staged.name ≠ target.name)
    (hbackup : staged.name ≠ (siblingTransactionPath target "backup" pid nonce).name) :
    Keeps target old (replaceFixture fates pid nonce staged target) world ↔
      ¬ ReplacementFails fates (siblingTransactionPath target "backup" pid nonce).name
        world.directory := by
  have hresult := replaceFixture_eq fates pid nonce staged target world
  constructor
  · intro hkeeps hfails
    obtain ⟨error, hrun⟩ :=
      @replaceFixtureTransactionally_of_fails _ _ _ _ _ _ staged.name _ hold hfails
    rw [hrun] at hresult
    have hapart : (siblingTransactionPath target "backup" pid nonce).name ≠ target.name :=
      siblingName_ne target.name "backup" pid nonce
    have hkept := hkeeps "runtime" error (by rw [hresult]; rfl) (by
      rw [hresult]
      apply decide_eq_false
      rw [not_not, ← AList.lookup_isSome, lookup_move_of_ne htarget hbackup, hstaged]
      rfl)
    rw [hresult] at hkept
    exact absurd (hkept.symm.trans (lookup_move_source hapart.symm)) (by rintro ⟨⟩)
  · intro hfails failureClass message herror hpublished
    have hcases := @replaceFixtureTransactionally_cases _ _ fates _ _ _ _ _ hstaged htarget hbackup
    rcases hrun : replaceFixtureTransactionally fates pid nonce staged.name target world.directory
      with ⟨after, ending⟩
    rw [hrun] at hcases hresult
    rw [hresult] at herror hpublished ⊢
    cases hcases with
    | kept hkept => exact (hkept _).trans hold
    | published _ hgone =>
        rw [AList.lookup_eq_none] at hgone
        exact absurd (hpublished.symm.trans (decide_eq_true hgone)) (by decide)
    | stranded entry hstrands _ hfree _ _ _ hending =>
        rcases hending with hcrashed | ⟨hpublish, hrestore⟩
        · rw [hcrashed] at herror
          cases herror
        · exact absurd ⟨hstrands.1, AList.lookup_eq_none.mp hfree, hpublish, hrestore⟩ hfails

theorem migrationError_stop_ne_crashed (error : MigrationError) : error.stop ≠ .crashed := by
  cases error <;> exact Stop.noConfusion

/-- The replacement runs beside the staged session, which is none of its other entries. -/
theorem keeps_staged_replacement {fates : Fates σ} {pid stagedNonce nonce : Nat}
    {migrated : σ} (hold : world.directory.lookup target.name = some old) :
    Keeps target old
        (replaceFixture fates pid nonce (siblingTransactionPath target "migrate" pid stagedNonce)
          target)
        { world with
          directory := world.directory.insert
            (siblingTransactionPath target "migrate" pid stagedNonce).name migrated } ↔
      ¬ ReplacementFails fates (siblingTransactionPath target "backup" pid nonce).name
        world.directory := by
  let replacement : Replacement σ :=
    { label := .migrate, pid, stagedNonce, nonce, session := migrated, fates }
  have htarget : (replacement.staged target).name ≠ target.name :=
    staged_ne_target replacement target
  have hbackup : (replacement.staged target).name ≠
      (siblingTransactionPath target "backup" pid nonce).name := staged_ne_backup replacement target
  have hkept : ({ world with directory := replacement.stage target world.directory } :
      World σ).directory.lookup target.name = some old :=
    (lookup_stage_of_ne htarget.symm).trans hold
  refine (keeps_replaceFixture hkept (AList.lookup_insert _) htarget hbackup).trans
    (not_congr ?_)
  rw [ReplacementFails, ReplacementFails]
  dsimp only
  rw [← AList.lookup_eq_none, ← AList.lookup_eq_none, lookup_stage_of_ne hbackup.symm]

/-- The arguments and the calls before the replacement let `migrate` come to it. -/
structure MigrateReplaces (calls : MigrateCalls σ) (args : MigrateArgs) : Prop where
  destination : args.inPlace = !args.toFixture.isSome
  schema : sessionSchemaV1 ≤ args.targetSchema.getD sessionSchemaVersion ∧
    args.targetSchema.getD sessionSchemaVersion ≤ sessionSchemaVersion
  overwrite : args.inPlace = true ∨ args.overwrite = true
  migrated : ∃ source migrated, calls.openFixture = .ok source ∧
    calls.migrateSession source (args.targetSchema.getD sessionSchemaVersion) = .ok migrated

def migrateTarget (args : MigrateArgs) : FixturePath :=
  if args.inPlace then args.fixture else args.toFixture.getD args.fixture

theorem keeps_migrate_inPlace {calls : MigrateCalls σ} {args : MigrateArgs}
    {directory : Directory σ} (hplace : args.inPlace = true) (hto : args.toFixture = none)
    (hold : directory.lookup args.fixture.name = some old) :
    Keeps args.fixture old (migrate calls args) (World.start directory) ↔
      (MigrateReplaces calls args → ¬ ReplacementFails calls.fates
        (siblingTransactionPath args.fixture "backup" calls.pid calls.nonce).name directory) := by
  have hstay : (World.start directory).directory.lookup args.fixture.name = some old := hold
  rw [migrate, hplace, hto]
  dsimp only
  rw [if_neg (show ¬ (true && (none : Option FixturePath).isSome) = true by decide),
    if_neg (show ¬ (!true && (none : Option FixturePath).isNone) = true by decide),
    keeps_check_of_kept hstay]
  constructor
  · intro hkeeps hreplaces
    obtain ⟨source, migrated, hopen, hmigrated⟩ := hreplaces.migrated
    have hsource := (keeps_storeCall_of_kept hstay).mp
      (hkeeps (ensure_of_true hreplaces.schema)) source hopen
    rw [if_pos rfl, keeps_ofExcept_of_kept hstay] at hsource
    exact (keeps_staged_replacement hstay).mp (hsource migrated (mapError_eq_ok.mpr hmigrated))
  · intro hfails hschema
    rw [keeps_storeCall_of_kept hstay]
    intro source hopen
    rw [if_pos rfl, keeps_ofExcept_of_kept hstay]
    intro migrated hmigrated
    refine (keeps_staged_replacement hstay).mpr (hfails ⟨?_, ensure_eq_ok.mp hschema,
      .inl hplace, source, migrated, hopen, mapError_eq_ok.mp hmigrated⟩)
    rw [hplace, hto]
    rfl

/-- The destination still exists beside the staged session. -/
theorem keeps_staged_destination {fates : Fates σ} {pid stagedNonce nonce : Nat}
    {migrated : σ} (hold : world.directory.lookup target.name = some old) :
    Keeps target old
        (stageSession (siblingTransactionPath target "migrate" pid stagedNonce) migrated >>= fun _ =>
          fixtureExists target >>= fun present =>
            if present then
              replaceFixture fates pid nonce
                (siblingTransactionPath target "migrate" pid stagedNonce) target
            else
              renameStaged fates.publish (siblingTransactionPath target "migrate" pid stagedNonce)
                target) world ↔
      ¬ ReplacementFails fates (siblingTransactionPath target "backup" pid nonce).name
        world.directory := by
  have hpresent : target.name ∈ world.directory.insert
      (siblingTransactionPath target "migrate" pid stagedNonce).name migrated :=
    AList.mem_insert _ |>.mpr
      (.inr (AList.lookup_isSome.mp (Option.isSome_iff_exists.mpr ⟨old, hold⟩)))
  rw [← @keeps_staged_replacement _ _ _ _ _ _ stagedNonce _ migrated hold]
  have hbranch : ∀ staged : World σ, target.name ∈ staged.directory →
      (Keeps target old (fixtureExists target >>= fun present =>
        if present then
          replaceFixture fates pid nonce (siblingTransactionPath target "migrate" pid stagedNonce)
            target
        else
          renameStaged fates.publish (siblingTransactionPath target "migrate" pid stagedNonce)
            target) staged ↔
        Keeps target old (replaceFixture fates pid nonce
          (siblingTransactionPath target "migrate" pid stagedNonce) target) staged) := by
    intro staged hstaged
    rw [keeps_fixtureExists, decide_eq_true hstaged, if_pos rfl]
  exact hbranch _ hpresent

theorem keeps_migrate_to {calls : MigrateCalls σ} {args : MigrateArgs} {directory : Directory σ}
    {destination : FixturePath} (hplace : args.inPlace = false)
    (hto : args.toFixture = some destination)
    (hold : directory.lookup destination.name = some old) :
    Keeps destination old (migrate calls args) (World.start directory) ↔
      (MigrateReplaces calls args → ¬ ReplacementFails calls.fates
        (siblingTransactionPath destination "backup" calls.pid calls.nonce).name directory) := by
  have hstay : (World.start directory).directory.lookup destination.name = some old := hold
  rw [migrate, hplace, hto]
  dsimp only
  rw [if_neg (show ¬ (false && (some destination).isSome) = true by rintro ⟨⟩),
    if_neg (show ¬ (!false && (some destination).isNone) = true by rintro ⟨⟩),
    keeps_check_of_kept hstay]
  constructor
  · intro hkeeps hreplaces
    obtain ⟨source, migrated, hopen, hmigrated⟩ := hreplaces.migrated
    have hsource := (keeps_storeCall_of_kept hstay).mp
      (hkeeps (ensure_of_true hreplaces.schema)) source hopen
    rw [if_neg Bool.false_ne_true, Option.getD_some, keeps_fixtureExists] at hsource
    have hrest := (keeps_refuse_or hstay).mp hsource
      (hreplaces.overwrite.resolve_left (by rw [hplace]; exact Bool.false_ne_true))
    rw [keeps_ofExcept_of_kept hstay] at hrest
    exact (keeps_staged_destination hstay).mp (hrest migrated (mapError_eq_ok.mpr hmigrated))
  · intro hfails hschema
    rw [keeps_storeCall_of_kept hstay]
    intro source hopen
    rw [if_neg Bool.false_ne_true, Option.getD_some, keeps_fixtureExists]
    refine (keeps_refuse_or hstay).mpr fun hoverwrite => ?_
    rw [keeps_ofExcept_of_kept hstay]
    intro migrated hmigrated
    refine (keeps_staged_destination hstay).mpr (hfails ⟨?_, ensure_eq_ok.mp hschema,
      .inr hoverwrite, source, migrated, hopen, mapError_eq_ok.mp hmigrated⟩)
    rw [hplace, hto]
    rfl

theorem keeps_migrate {calls : MigrateCalls σ} {args : MigrateArgs} {directory : Directory σ}
    (hold : directory.lookup (migrateTarget args).name = some old) :
    Keeps (migrateTarget args) old (migrate calls args) (World.start directory) ↔
      (MigrateReplaces calls args → ¬ ReplacementFails calls.fates
        (siblingTransactionPath (migrateTarget args) "backup" calls.pid calls.nonce).name
          directory) := by
  have hrefused : args.inPlace = args.toFixture.isSome →
      (Keeps (migrateTarget args) old (migrate calls args) (World.start directory) ↔
        (MigrateReplaces calls args → ¬ ReplacementFails calls.fates
          (siblingTransactionPath (migrateTarget args) "backup" calls.pid calls.nonce).name
            directory)) := by
    intro hsame
    refine ⟨fun _ hreplaces => ?_, fun _ => ?_⟩
    · have hdestination := hreplaces.destination
      rw [hsame] at hdestination
      exact absurd hdestination (Bool.self_ne_not _)
    · rw [migrate]
      cases hplace : args.inPlace <;> rw [hplace] at hsame <;> cases hto : args.toFixture <;>
        rw [hto] at hsame
      · exact keeps_refuse hold
      · cases hsame
      · cases hsame
      · exact keeps_refuse hold
  cases hplace : args.inPlace with
  | true =>
      cases hto : args.toFixture with
      | some destination => exact hrefused (by rw [hplace, hto]; rfl)
      | none =>
          have htarget : migrateTarget args = args.fixture := by
            rw [migrateTarget, hplace]
            rfl
          rw [htarget] at hold ⊢
          exact keeps_migrate_inPlace hplace hto hold
  | false =>
      cases hto : args.toFixture with
      | none => exact hrefused (by rw [hplace, hto]; rfl)
      | some destination =>
          have htarget : migrateTarget args = destination := by
            rw [migrateTarget, hplace, hto]
            rfl
          rw [htarget] at hold ⊢
          exact keeps_migrate_to hplace hto hold

/-! ### Every command -/

/-- A command that returns an error before its session is published leaves the session that was
at the target. -/
def KeepsOldFixture (command : OverwritingCommand σ ρ) (directory : Directory σ) : Prop :=
  ∀ old, directory.lookup command.target.name = some old →
    Keeps command.target old command.run (World.start directory)

/-- When the old session `old` is not lost: `migrate` loses it where both renames fail, the other
commands where they fail after they removed it. -/
def StopsInTime (directory : Directory σ) (old : σ) : OverwritingCommand σ ρ → Prop
  | .record features calls args =>
      args.overwrite = true → ∀ protocol, args.inbound.resolve features = .ok protocol →
        RemovalKeeps calls.removal old (RecordFinishes features calls args)
  | .harImport calls args =>
      args.overwrite = true → ∀ harBytes, calls.read args.har = .ok harBytes →
        RemovalKeeps calls.removal old (HarImportFinishes calls args harBytes)
  | .proxyRecord calls args =>
      args.overwrite = true → checkListenerBind args.listen args.allowNonLoopback = .ok () →
        RemovalKeeps calls.removal old (∃ intercepts, ProxyRecordFinishes calls args intercepts)
  | .migrate calls args =>
      MigrateReplaces calls args → ¬ ReplacementFails calls.fates
        (siblingTransactionPath (migrateTarget args) "backup" calls.pid calls.nonce).name directory

theorem keeps_old_fixture_iff (command : OverwritingCommand σ ρ) (directory : Directory σ) :
    KeepsOldFixture command directory ↔
      ∀ old, directory.lookup command.target.name = some old →
        StopsInTime directory old command := by
  refine forall_congr' fun old => forall_congr' fun hold => ?_
  cases command with
  | record features calls args => exact keeps_record hold
  | harImport calls args => exact keeps_harImport hold
  | proxyRecord calls args => exact keeps_proxyRecord hold
  | migrate calls args => exact keeps_migrate hold

def exampleDirectory : Directory String := (∅ : Directory String).insert "a.eggr" "A"

/-- The import of a document that is no HAR document. -/
def importOfText : OverwritingCommand String Unit :=
  .harImport
    { read := fun _ => .ok [0x78]
      removal := .succeeds
      create := fun _ => .ok ()
      importHarToWriter := fun _ _ _ =>
        .error (.invalid "expected value at line 1 column 1")
      finish := .ok "B"
      writeLossReport := fun _ _ => .ok () }
    { har := "x.har"
      fixture := { lead := "fixtures/", name := "a.eggr" }
      overwrite := true
      lossReport := none
      redaction :=
        { redactHeaders := []
          redactQueries := []
          redactJsonPaths := []
          redactionProfile := "default-v1"
          unsafeReplace := false } }

/-- The old session is removed before the document is read as HAR. -/
theorem importOfText_loses_fixture :
    ¬ ∀ (command : OverwritingCommand String Unit) (directory : Directory String),
      KeepsOldFixture command directory := by
  intro h
  have hlost := h importOfText exampleDirectory "A" (by decide) "configuration"
    "expected value at line 1 column 1" (by decide)
    (by decide)
  exact absurd hlost (by decide)

end EggReplay.Cli.OldFixtureKept
