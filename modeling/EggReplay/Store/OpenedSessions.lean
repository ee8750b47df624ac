import EggReplay.Store.Publication
import EggReplay.Store.Copies

/-!
What an opened session is known to be: its log reads as valid flows with distinct ids and
intact bodies, its extensions are accepted, and its counts agree with the manifest.
-/

namespace EggReplay.Store.OpenedSessions

open EggReplay.Library.Checks
open EggReplay.Library.Text
open EggReplay.Library.LineLog
open EggReplay.Core.FlowRecord
open EggReplay.Core.StreamTimeline
open EggReplay.Store.Fixture
open EggReplay.Store.SessionOpen
open EggReplay.Store.Staging
open EggReplay.Store.Publication
open EggReplay.Store.Copies

/-- Each line reads as the flow at its place. -/
def Reads (codec : Codec) : List Bytes → List Flow → Prop :=
  List.Forall₂ fun line flow => codec.decodeFlow line = .ok flow

/-- What the extension loop asks of one descriptor and its file. -/
structure AcceptedExtension (codec : Codec) (root : Directory)
    (extension : ExtensionDescriptor) : Prop where
  name : validateExtensionName extension.name = .ok ()
  path : validateExtensionPath extension.path = .ok ()
  version : extension.schemaVersion ≠ 0
  file : ∃ bytes, root.files extension.path = some bytes ∧
    bytes.length ≤ maxExtensionBytes ∧ checkExtensionContent codec extension bytes = .ok ()

structure AcceptedExtensions (codec : Codec) (root : Directory)
    (extensions : List ExtensionDescriptor) : Prop where
  each : ∀ extension ∈ extensions, AcceptedExtension codec root extension
  names : (extensions.map ExtensionDescriptor.name).Nodup
  paths : (extensions.map ExtensionDescriptor.path).Nodup
  total : registeredBytes root extensions ≤ maxTotalExtensionBytes

/-- An opened session and the flows that its log reads as. -/
structure Opened (codec : Codec) (session : Session) (flows : List Flow) : Prop where
  items : Session.flowItems codec session = .ok (flows.map .ok)
  log : ∃ log, session.root.files flowLog = some log ∧ Reads codec (records newline log) flows
  valid : ∀ flow ∈ flows, flow.validate = .ok ()
  countBound : flows.length ≤ session.limits.maxFlows
  total : (flows.map flowBodyBytes).sum ≤ u64Max
  totalBound : (flows.map flowBodyBytes).sum ≤ session.limits.maxTotalBytes
  ids : (flowIds flows).Nodup
  bodies : ∀ flow ∈ flows,
    validateBodyFiles codec session.root flow session.limits = .ok ()
  extensionCount : session.manifest.extensions.length ≤ maxExtensions
  extensions : AcceptedExtensions codec session.root session.manifest.extensions
  fixture : validateWebsocketFixture codec session.root session.manifest.extensions
    session.limits.maxLineBytes session.limits.maxBlobBytes = .ok ()
  timelines : checkTimelines codec session.root session.manifest.extensions
    (flows.map lengthEntry).reverse = .ok ()
  complete : session.manifest.complete = true
  flowCount : session.manifest.flowCount = flows.length
  blobCount : session.manifest.blobCount = countBlobs session.root

/-! ### The flow loop -/

theorem flowItem_eq_ok {codec : Codec} {limits : StoreLimits} {seen : Nat} {line : Bytes}
    {flow : Flow} (h : (flowItem codec limits seen line).1 = .ok flow) :
    seen < limits.maxFlows ∧ (flowItem codec limits seen line).2 = seen + 1 ∧
      codec.decodeFlow line = .ok flow ∧ flow.validate = .ok () := by
  unfold flowItem at h ⊢
  by_cases hroom : limits.maxFlows ≤ seen
  · rw [if_pos hroom] at h
    cases h
  · rw [if_neg hroom] at h ⊢
    simp at h
    obtain ⟨-, hdecode, hvalid⟩ := h
    exact ⟨Nat.lt_of_not_le hroom, rfl, hdecode, hvalid⟩

/-- Lines that all read as flows are within the flow limit, and the flows are valid. -/
theorem flowItems_reads {codec : Codec} {limits : StoreLimits} {seen : Nat} {log : List Bytes}
    {flows : List Flow} (h : flowItems codec limits seen log = flows.map .ok)
    (hseen : seen ≤ limits.maxFlows) :
    Reads codec log flows ∧ (∀ flow ∈ flows, flow.validate = .ok ()) ∧
      seen + flows.length ≤ limits.maxFlows := by
  induction log generalizing seen flows with
  | nil =>
      obtain rfl : flows = [] := by simpa [flowItems] using h.symm
      exact ⟨.nil, by simp, hseen⟩
  | cons line rest ih =>
      rcases flows with _ | ⟨flow, others⟩
      · simp [flowItems] at h
      · rw [flowItems, List.map_cons] at h
        obtain ⟨hfirst, hrest⟩ := List.cons.inj h
        obtain ⟨hroom, hnext, hdecode, hvalid⟩ := flowItem_eq_ok hfirst
        have hbelow : (flowItem codec limits seen line).2 ≤ limits.maxFlows := by
          rw [hnext]
          exact hroom
        obtain ⟨hreads, hothers, hcount⟩ := ih hrest hbelow
        refine ⟨.cons hdecode hreads, ?_, ?_⟩
        · intro other hother
          rcases List.mem_cons.mp hother with rfl | hmem
          · exact hvalid
          · exact hothers other hmem
        · rw [hnext] at hcount
          rw [List.length_cons]
          omega

/-- A flow loop that ends without an error met no bad item and stayed within its totals. -/
theorem openFlows_reads {codec : Codec} {root : Directory} {limits : StoreLimits}
    {totals next : FlowTotals} {items : List (Except StoreError Flow)}
    (h : checkFold (openFlow codec root limits) totals items = .ok next)
    (htotal : totals.total ≤ u64Max) (hlimit : totals.total ≤ limits.maxTotalBytes) :
    ∃ flows : List Flow, items = flows.map .ok ∧
      totals.total + (flows.map flowBodyBytes).sum ≤ u64Max ∧
      totals.total + (flows.map flowBodyBytes).sum ≤ limits.maxTotalBytes := by
  induction items generalizing totals with
  | nil => exact ⟨[], rfl, htotal, hlimit⟩
  | cons item rest ih =>
      rw [checkFold_cons, bind_eq_ok] at h
      obtain ⟨after, hstep, hrest⟩ := h
      simp only [openFlow, bind_eq_ok, ensure_eq_ok, pure_eq_ok] at hstep
      obtain ⟨flow, rfl, _, -, _, hsum, _, hbound, _, -, rfl⟩ := hstep
      obtain ⟨flows, rfl, hflows, hlimits⟩ := ih hrest hsum hbound
      refine ⟨flow :: flows, rfl, ?_, ?_⟩
      · rw [List.map_cons, List.sum_cons, ← Nat.add_assoc]
        exact hflows
      · rw [List.map_cons, List.sum_cons, ← Nat.add_assoc]
        exact hlimits

/-! ### The extension loop -/

theorem checkExtension_eq_ok {codec : Codec} {root : Directory} {state next : ExtensionState}
    {extension : ExtensionDescriptor}
    (h : checkExtension codec root state extension = .ok next) :
    AcceptedExtension codec root extension ∧ extension.name ∉ state.names ∧
      extension.path ∉ state.paths ∧ next.names = extension.name :: state.names ∧
      next.paths = extension.path :: state.paths ∧
      next.total = state.total + registeredBytes root [extension] ∧
      next.total ≤ maxTotalExtensionBytes := by
  simp only [checkExtension, bind_eq_ok, ensure_eq_ok, readFile_eq_ok, pure_eq_ok] at h
  obtain ⟨_, hname, _, hpath, _, ⟨hversion, hnew, hfresh⟩, bytes, hbytes, _, hsize, _, -, _,
    htotal, _, hcontent, rfl⟩ := h
  refine ⟨⟨hname, hpath, hversion, bytes, hbytes, hsize, hcontent⟩, hnew, hfresh, rfl, rfl,
    ?_, htotal⟩
  simp [registeredBytes, hbytes]

theorem checkExtensions_accepted {codec : Codec} {root : Directory}
    {state final : ExtensionState} {extensions : List ExtensionDescriptor}
    (h : checkFold (checkExtension codec root) state extensions = .ok final)
    (htotal : state.total ≤ maxTotalExtensionBytes) :
    (∀ extension ∈ extensions, AcceptedExtension codec root extension ∧
        extension.name ∉ state.names ∧ extension.path ∉ state.paths) ∧
      (extensions.map ExtensionDescriptor.name).Nodup ∧
      (extensions.map ExtensionDescriptor.path).Nodup ∧
      state.total + registeredBytes root extensions ≤ maxTotalExtensionBytes := by
  induction extensions generalizing state with
  | nil => exact ⟨by simp, List.nodup_nil, List.nodup_nil, by simpa [registeredBytes] using htotal⟩
  | cons extension rest ih =>
      rw [checkFold_cons, bind_eq_ok] at h
      obtain ⟨next, hstep, hrest⟩ := h
      obtain ⟨haccepted, hname, hpath, hnames, hpaths, hsum, hbound⟩ :=
        checkExtension_eq_ok hstep
      obtain ⟨heach, hrestNames, hrestPaths, hrestTotal⟩ := ih hrest hbound
      rw [hnames, hpaths] at heach
      refine ⟨?_, ?_, ?_, ?_⟩
      · intro other hother
        rcases List.mem_cons.mp hother with rfl | hmem
        · exact ⟨haccepted, hname, hpath⟩
        · obtain ⟨hother, hotherName, hotherPath⟩ := heach other hmem
          exact ⟨hother, fun hold => hotherName (by simp [hold]),
            fun hold => hotherPath (by simp [hold])⟩
      · rw [List.map_cons, List.nodup_cons]
        refine ⟨?_, hrestNames⟩
        rintro hmem
        obtain ⟨other, hother, heq⟩ := List.mem_map.mp hmem
        exact (heach other hother).2.1 (by simp [heq])
      · rw [List.map_cons, List.nodup_cons]
        refine ⟨?_, hrestPaths⟩
        rintro hmem
        obtain ⟨other, hother, heq⟩ := List.mem_map.mp hmem
        exact (heach other hother).2.2 (by simp [heq])
      · have hsplit : registeredBytes root (extension :: rest) =
            registeredBytes root [extension] + registeredBytes root rest := by
          simp [registeredBytes]
        rw [hsplit, ← Nat.add_assoc, ← hsum]
        exact hrestTotal

/-! ### Opening -/

/-- Opening gives the directory, the decoded manifest, and everything that was checked. -/
theorem open_eq_ok {codec : Codec} {root : Directory} {limits : StoreLimits}
    {session : Session} (h : Session.open codec root limits = .ok session) :
    session.root = root ∧ session.limits = limits ∧
      (∃ bytes, root.files manifestFile = some bytes ∧
        codec.decodeManifest bytes = .ok session.manifest) ∧
      supportedSchema session.manifest.metadata.schemaVersion ∧
      ∃ flows, Opened codec session flows := by
  unfold Session.open at h
  simp only [bind_eq_ok, ensure_eq_ok, readFile_eq_ok, mapError_eq_ok, pure_eq_ok] at h
  obtain ⟨bytes, hbytes, manifest, hmanifest, _, hschema, _, hcomplete, _, -, _, hextensions,
    iter, hiter, totals, hloop, _, hcount, _, hfixture, _, htimelines, _, hblobs, rfl⟩ := h
  refine ⟨rfl, rfl, ⟨bytes, hbytes, hmanifest⟩, hschema, ?_⟩
  simp only [Session.iterFlows, bind_eq_ok, readFile_eq_ok, pure_eq_ok] at hiter
  obtain ⟨log, hlog, rfl⟩ := hiter
  obtain ⟨flows, hitems, htotal, hlimit⟩ :=
    openFlows_reads hloop (Nat.zero_le _) (Nat.zero_le _)
  rw [hitems] at hloop
  obtain ⟨⟨hids, -, hbodies⟩, htotals⟩ := (openFlows_eq_ok htotal hlimit).mp hloop
  obtain ⟨hreads, hvalid, hbound⟩ := flowItems_reads hitems (Nat.zero_le _)
  simp only [validateExtensions, bind_eq_ok, ensure_eq_ok] at hextensions
  obtain ⟨_, hlength, state, haccepted, -⟩ := hextensions
  obtain ⟨heach, hnames, hpaths, hregistered⟩ :=
    checkExtensions_accepted haccepted (Nat.zero_le _)
  refine ⟨flows, ⟨?_, ⟨log, hlog, hreads⟩, hvalid, ?_, ?_, ?_, hids, hbodies, hlength,
    ⟨fun extension hmem => (heach extension hmem).1, hnames, hpaths, ?_⟩, hfixture, ?_, hcomplete,
    ?_, hblobs.symm⟩⟩
  · rw [Session.flowItems, Session.iterFlows, readFile_eq_ok.mpr hlog]
    exact congrArg Except.ok hitems
  · simpa using hbound
  · simpa using htotal
  · simpa using hlimit
  · simpa using hregistered
  · simpa [htotals] using htimelines
  · simpa [htotals] using hcount.symm

end EggReplay.Store.OpenedSessions
