import EggReplay.Store.Staging

/-!
What holds of a staged session after any accepted operations: the flow log is
the encoded flows line by line, the counters agree with it, and every
registered extension has its own bounded file.
-/

namespace EggReplay.Store.StagedInvariant

open EggReplay.Library.Checks
open EggReplay.Library.Text
open EggReplay.Library.LineLog
open EggReplay.Core.FlowRecord
open EggReplay.Core.StreamTimeline
open EggReplay.Store.Fixture
open EggReplay.Store.SessionOpen
open EggReplay.Store.Staging

/-- A registered extension has a valid descriptor and a bounded file of its own. -/
structure ExtensionSound (root : Directory) (extension : ExtensionDescriptor) : Prop where
  name : validateExtensionName extension.name = .ok ()
  path : validateExtensionPath extension.path = .ok ()
  version : extension.schemaVersion ≠ 0
  notLog : extension.path ≠ flowLog
  file : ∃ bytes, root.files extension.path = some bytes ∧ bytes.length ≤ maxExtensionBytes

/-- The staged session holds exactly `flows`, within the limits. -/
structure Sound (limits : StoreLimits) (flows : List Flow) (staged : Staged) : Prop where
  log : staged.directory.files flowLog = some (written newline (flows.map Flow.encode))
  count : staged.flowCount = flows.length
  countBound : flows.length ≤ limits.maxFlows
  total : staged.totalBytes = (flows.map flowBodyBytes).sum
  totalBound : staged.totalBytes ≤ u64Max ∧ staged.totalBytes ≤ limits.maxTotalBytes
  valid : ∀ flow ∈ flows, flow.validate = .ok ()
  extensionCount : staged.extensions.length ≤ maxExtensions
  extension : ∀ extension ∈ staged.extensions, ExtensionSound staged.directory extension
  names : (staged.extensions.map ExtensionDescriptor.name).Nodup
  paths : (staged.extensions.map ExtensionDescriptor.path).Nodup
  extensionTotal :
    registeredBytes staged.directory staged.extensions ≤ maxTotalExtensionBytes

/-- The guards under which both writers append a flow. -/
structure Appendable (limits : StoreLimits) (staged : Staged) (flow : Flow) : Prop where
  room : staged.flowCount < limits.maxFlows
  valid : flow.validate = .ok ()
  refs : validateBodyRefs flow limits.maxBlobBytes = .ok ()
  line : flow.encode.length ≤ limits.maxLineBytes
  total : staged.totalBytes + flowBodyBytes flow ≤ u64Max
  totalBound : staged.totalBytes + flowBodyBytes flow ≤ limits.maxTotalBytes

/-- One operation of either writer, as far as the staged session sees it. -/
inductive Step (limits : StoreLimits) : Staged → List Flow → Staged → List Flow → Prop where
  | body {staged : Staged} {flows : List Flow} (directory : Directory) (nextSuffix : Nat)
      (h : directory.files = staged.directory.files) :
      Step limits staged flows { staged with directory, nextSuffix } flows
  | flow {staged : Staged} {flows : List Flow} (flow : Flow)
      (h : Appendable limits staged flow) :
      Step limits staged flows
        (staged.writeFlow flow (staged.totalBytes + flowBodyBytes flow)) (flows ++ [flow])
  | registries {staged : Staged} {flows : List Flow} (streamEvents : StreamEvents)
      (ids : List String) (records objectBytes : Nat) (websocket : WebSocketAccumulation) :
      Step limits staged flows
        { staged with
          streamEvents, streamEventIds := ids, streamEventRecords := records,
          streamEventObjectBytes := objectBytes, websocket } flows
  | extension {staged next : Staged} {flows : List Flow} (extension : ExtensionDescriptor)
      (bytes : Bytes) (h : staged.writeExtension extension bytes = .ok next) :
      Step limits staged flows next flows

theorem sound_empty (limits : StoreLimits) : Sound limits [] Staged.empty where
  log := by simp [Staged.empty, written]
  count := rfl
  countBound := Nat.zero_le _
  total := rfl
  totalBound := ⟨Nat.zero_le _, Nat.zero_le _⟩
  valid := by simp
  extensionCount := Nat.zero_le _
  extension := by simp [Staged.empty]
  names := List.nodup_nil
  paths := List.nodup_nil
  extensionTotal := Nat.zero_le _

/-! ### Files that do not change -/

theorem ExtensionSound.congr {left right : Directory} {extension : ExtensionDescriptor}
    (h : ExtensionSound left extension)
    (hfile : right.files extension.path = left.files extension.path) :
    ExtensionSound right extension := by
  obtain ⟨bytes, hbytes, hlength⟩ := h.file
  exact ⟨h.name, h.path, h.version, h.notLog, bytes, by rw [hfile, hbytes], hlength⟩

theorem registeredBytes_congr {left right : Directory} {extensions : List ExtensionDescriptor}
    (h : ∀ extension ∈ extensions,
      right.files extension.path = left.files extension.path) :
    registeredBytes right extensions = registeredBytes left extensions := by
  unfold registeredBytes
  congr 1
  apply List.map_congr_left
  intro extension hmem
  rw [h extension hmem]

/-- A directory that keeps the log and the extension files keeps the invariant. -/
theorem Sound.congr {limits : StoreLimits} {flows : List Flow} {staged next : Staged}
    (h : Sound limits flows staged)
    (hlog : next.directory.files flowLog = staged.directory.files flowLog)
    (hfiles : ∀ extension ∈ staged.extensions,
      next.directory.files extension.path = staged.directory.files extension.path)
    (hcount : next.flowCount = staged.flowCount) (htotal : next.totalBytes = staged.totalBytes)
    (hextensions : next.extensions = staged.extensions) : Sound limits flows next where
  log := by rw [hlog, h.log]
  count := by rw [hcount, h.count]
  countBound := h.countBound
  total := by rw [htotal, h.total]
  totalBound := by
    rw [htotal]
    exact h.totalBound
  valid := h.valid
  extensionCount := by
    rw [hextensions]
    exact h.extensionCount
  extension := by
    rw [hextensions]
    exact fun extension hmem => (h.extension extension hmem).congr (hfiles extension hmem)
  names := by
    rw [hextensions]
    exact h.names
  paths := by
    rw [hextensions]
    exact h.paths
  extensionTotal := by
    rw [hextensions, registeredBytes_congr hfiles]
    exact h.extensionTotal

/-! ### Registering an extension -/

/-- What a registered extension has passed, and what its registration changes. -/
structure Registers (staged : Staged) (extension : ExtensionDescriptor) (bytes : Bytes)
    (next : Staged) : Prop where
  name : validateExtensionName extension.name = .ok ()
  path : validateExtensionPath extension.path = .ok ()
  version : extension.schemaVersion ≠ 0
  count : staged.extensions.length < maxExtensions
  size : bytes.length ≤ maxExtensionBytes
  fresh : ∀ entry ∈ staged.extensions,
    entry.name ≠ extension.name ∧ entry.path ≠ extension.path
  total : saturatingAdd (registeredBytes staged.directory staged.extensions) bytes.length ≤
    maxTotalExtensionBytes
  absent : staged.directory.files extension.path = none
  next_eq : next =
    { staged with
      directory :=
        { staged.directory with
          files := Function.update staged.directory.files extension.path (some bytes) },
      extensions := staged.extensions ++ [extension] }

theorem writeExtension_eq_ok {staged next : Staged} {extension : ExtensionDescriptor}
    {bytes : Bytes} (h : staged.writeExtension extension bytes = .ok next) :
    Registers staged extension bytes next := by
  simp [Staged.writeExtension, writeExtensionFile] at h
  obtain ⟨hname, hpath, hversion, hcount, hsize, hfresh, htotal, ⟨habsent, -⟩, rfl⟩ := h
  exact ⟨hname, hpath, hversion, hcount, hsize, hfresh, htotal, habsent, rfl⟩

/-- The extension's own file is the written one, every other file is unchanged. -/
theorem Registers.file {staged next : Staged} {extension : ExtensionDescriptor}
    {bytes : Bytes} (h : Registers staged extension bytes next) :
    next.directory.files extension.path = some bytes := by
  rw [h.next_eq]
  simp

theorem Registers.file_other {staged next : Staged} {extension : ExtensionDescriptor}
    {bytes : Bytes} (h : Registers staged extension bytes next) {name : String}
    (hname : name ≠ extension.path) :
    next.directory.files name = staged.directory.files name := by
  rw [h.next_eq]
  simp [hname]

theorem Registers.extensions_eq {staged next : Staged} {extension : ExtensionDescriptor}
    {bytes : Bytes} (h : Registers staged extension bytes next) :
    next.extensions = staged.extensions ++ [extension] := by
  rw [h.next_eq]

theorem Registers.blobs_eq {staged next : Staged} {extension : ExtensionDescriptor}
    {bytes : Bytes} (h : Registers staged extension bytes next) :
    next.directory.blobs = staged.directory.blobs := by
  rw [h.next_eq]

theorem Sound.register {limits : StoreLimits} {flows : List Flow} {staged next : Staged}
    {extension : ExtensionDescriptor} {bytes : Bytes} (h : Sound limits flows staged)
    (hr : Registers staged extension bytes next) : Sound limits flows next := by
  have hnotLog : extension.path ≠ flowLog := by
    rintro heq
    have habsent := hr.absent
    rw [heq, h.log] at habsent
    simp at habsent
  have hfiles : ∀ entry ∈ staged.extensions,
      next.directory.files entry.path = staged.directory.files entry.path :=
    fun entry hmem => hr.file_other (hr.fresh entry hmem).2
  have hregistered : registeredBytes next.directory next.extensions =
      registeredBytes staged.directory staged.extensions + bytes.length := by
    have hold := registeredBytes_congr hfiles
    rw [hr.extensions_eq, ← hold]
    simp [registeredBytes, hr.file]
  have hsum : registeredBytes staged.directory staged.extensions + bytes.length ≤
      maxTotalExtensionBytes := by
    have hlow : maxTotalExtensionBytes < u64Max := by decide
    have hbound := hr.total
    unfold saturatingAdd at hbound
    omega
  refine ⟨?_, ?_, h.countBound, ?_, ?_, h.valid, ?_, ?_, ?_, ?_, ?_⟩
  · rw [hr.file_other hnotLog.symm, h.log]
  · rw [hr.next_eq]
    exact h.count
  · rw [hr.next_eq]
    exact h.total
  · rw [hr.next_eq]
    exact h.totalBound
  · rw [hr.extensions_eq, List.length_append, List.length_singleton]
    exact hr.count
  · rw [hr.extensions_eq]
    intro entry hmem
    rcases List.mem_append.mp hmem with hold | hnew
    · exact (h.extension entry hold).congr (hfiles entry hold)
    · rw [List.mem_singleton.mp hnew]
      exact ⟨hr.name, hr.path, hr.version, hnotLog, bytes, hr.file, hr.size⟩
  · rw [hr.extensions_eq, List.map_append, List.nodup_append]
    refine ⟨h.names, by simp, ?_⟩
    rintro name hname _ hnew rfl
    obtain ⟨entry, hentry, rfl⟩ := List.mem_map.mp hname
    exact (hr.fresh entry hentry).1 (by simpa using hnew)
  · rw [hr.extensions_eq, List.map_append, List.nodup_append]
    refine ⟨h.paths, by simp, ?_⟩
    rintro path hpath _ hnew rfl
    obtain ⟨entry, hentry, rfl⟩ := List.mem_map.mp hpath
    exact (hr.fresh entry hentry).2 (by simpa using hnew)
  · rw [hregistered]
    exact hsum

/-! ### One step -/

theorem Sound.appendFlow {limits : StoreLimits} {flows : List Flow} {staged : Staged}
    {flow : Flow} (h : Sound limits flows staged) (ha : Appendable limits staged flow) :
    Sound limits (flows ++ [flow])
      (staged.writeFlow flow (staged.totalBytes + flowBodyBytes flow)) := by
  have hfiles : ∀ entry ∈ staged.extensions,
      (staged.writeFlow flow (staged.totalBytes + flowBodyBytes flow)).directory.files
        entry.path = staged.directory.files entry.path :=
    fun entry hmem => extendFile_other (h.extension entry hmem).notLog
  refine ⟨?_, ?_, ?_, ?_, ⟨ha.total, ha.totalBound⟩, ?_, h.extensionCount, ?_, h.names,
    h.paths, ?_⟩
  · rw [List.map_append, written_append]
    exact (extendFile_same h.log).trans (by simp [written])
  · rw [List.length_append, ← h.count]
    rfl
  · have hroom := ha.room
    rw [h.count] at hroom
    rw [List.length_append, List.length_singleton]
    exact hroom
  · rw [List.map_append, List.sum_append, ← h.total]
    simp [Staged.writeFlow]
  · intro other hother
    rcases List.mem_append.mp hother with hold | hnew
    · exact h.valid other hold
    · rw [List.mem_singleton.mp hnew]
      exact ha.valid
  · exact fun entry hmem => (h.extension entry hmem).congr (hfiles entry hmem)
  · exact (registeredBytes_congr hfiles).le.trans h.extensionTotal

theorem Sound.step {limits : StoreLimits} {staged next : Staged} {flows nextFlows : List Flow}
    (h : Sound limits flows staged) (hstep : Step limits staged flows next nextFlows) :
    Sound limits nextFlows next := by
  rcases hstep with ⟨directory, nextSuffix, hfiles⟩ | ⟨flow, happend⟩ | _ | ⟨extension, bytes, hw⟩
  · exact h.congr (congrFun hfiles _) (fun entry _ => congrFun hfiles entry.path) rfl rfl rfl
  · exact h.appendFlow happend
  · exact h.congr rfl (fun _ _ => rfl) rfl rfl rfl
  · exact h.register (writeExtension_eq_ok hw)

end EggReplay.Store.StagedInvariant
