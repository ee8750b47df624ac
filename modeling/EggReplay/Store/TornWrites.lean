import EggReplay.Library.JsonLengths
import EggReplay.Library.Stateful
import EggReplay.Store.OpenedSessions
import EggReplay.Store.SessionRuns

/-!
`append_flow` on a file whose writes may fail after any part of their argument: what a failed
append leaves in the flow log, and what that does to the flows around it.
-/

namespace EggReplay.Store.TornWrites

open EggReplay.Library.Checks
open EggReplay.Library.Text
open EggReplay.Library.LineLog
open EggReplay.Library.Stateful
open EggReplay.Core.FlowRecord
open EggReplay.Core.StreamTimeline
open EggReplay.Store.Fixture
open EggReplay.Store.SessionOpen
open EggReplay.Store.Staging
open EggReplay.Store.StagedInvariant
open EggReplay.Store.Publication
open EggReplay.Store.OpenedSessions
open EggReplay.Store.Writer
open EggReplay.Store.Recording
open EggReplay.Store.SessionRuns

/-- After how many bytes of their argument the two writes of an append fail, where they do. -/
structure WriteFaults where
  line : Option Nat := none
  newline : Option Nat := none
  deriving DecidableEq, Repr

def Staged.extendLog (staged : Staged) (bytes : Bytes) : Staged :=
  { staged with directory := staged.directory.extendFile flowLog bytes }

def writeAll (fault : Option Nat) (bytes : Bytes) : Op StoreError Staged Unit := fun staged =>
  match fault with
  | none => (.ok (), Staged.extendLog staged bytes)
  | some count => (.error (.io "write failed"), Staged.extendLog staged (bytes.take count))

/-- The two writes of a record, and the counters after them. -/
def writeRecord (faults : WriteFaults) (flow : Flow) (nextTotal : Nat) :
    Op StoreError Staged Unit := do
  writeAll faults.line flow.encode
  writeAll faults.newline [newline]
  Op.modify fun staged =>
    { staged with flowCount := staged.flowCount + 1, totalBytes := nextTotal }

/-! ### The checks of both writers -/

/-- Everything `SessionWriter::append_flow` checks, and the total it goes on with. -/
def SessionWriter.checkAppend (writer : SessionWriter) (flow : Flow) : Except StoreError Nat := do
  ensure (writer.flowCount < writer.limits.maxFlows)
    (.invalid "flow count exceeds configured limit")
  flow.validate.mapError StoreError.ofFlowError
  validateBodyRefs flow writer.limits.maxBlobBytes
  ensure (flow.encode.length ≤ writer.limits.maxLineBytes)
    (.invalid "flow JSONL line exceeds configured limit")
  let nextTotal := writer.totalBytes + flowBodyBytes flow
  ensure (nextTotal ≤ u64Max) (.invalid "total body length overflow")
  ensure (nextTotal ≤ writer.limits.maxTotalBytes)
    (.invalid "total body length exceeds configured limit")
  pure nextTotal

/-- Everything `RecordingSession::append_flow` checks, and the total it goes on with. -/
def RecordingInner.checkAppend (inner : RecordingInner) (flow : Flow) : Except StoreError Nat := do
  inner.checkRunning
  checkFlow inner.limits flow
  ensure (inner.flowsOpen = true) (.invalid "session is finalizing")
  ensure (inner.flowCount < inner.limits.maxFlows)
    (.invalid "flow count exceeds configured limit")
  let next := inner.totalBytes + flowBodyBytes flow
  ensure (next ≤ u64Max) (.invalid "total body length overflow")
  ensure (next ≤ inner.limits.maxTotalBytes)
    (.invalid "total body length exceeds configured limit")
  pure next

theorem writer_checkAppend {writer : SessionWriter} {flow : Flow} {total : Nat}
    (h : SessionWriter.checkAppend writer flow = .ok total) :
    Appendable writer.limits writer.toStaged flow ∧
      total = writer.toStaged.totalBytes + flowBodyBytes flow := by
  simp [SessionWriter.checkAppend] at h
  obtain ⟨hroom, hvalid, hrefs, hline, htotal, hbound, rfl⟩ := h
  exact ⟨⟨hroom, hvalid, hrefs, hline, htotal, hbound⟩, rfl⟩

theorem recording_checkAppend {inner : RecordingInner} {flow : Flow} {total : Nat}
    (h : RecordingInner.checkAppend inner flow = .ok total) :
    Appendable inner.limits inner.toStaged flow ∧
      total = inner.toStaged.totalBytes + flowBodyBytes flow := by
  simp [RecordingInner.checkAppend, checkFlow] at h
  obtain ⟨-, hvalid, hrefs, hline, -, hroom, htotal, hbound, rfl⟩ := h
  exact ⟨⟨hroom, hvalid, hrefs, hline, htotal, hbound⟩, rfl⟩

/-- What the two writers have in common when they append a flow. -/
structure FlowWriter (W : Type) where
  staged : W → Staged
  limits : W → StoreLimits
  withStaged : W → Staged → W
  checkAppend : W → Flow → Except StoreError Nat
  staged_withStaged : ∀ writer next, staged (withStaged writer next) = next
  limits_withStaged : ∀ writer next, limits (withStaged writer next) = limits writer
  checkAppend_ok : ∀ {writer flow total}, checkAppend writer flow = .ok total →
    Appendable (limits writer) (staged writer) flow ∧
      total = (staged writer).totalBytes + flowBodyBytes flow

def sessionWriter : FlowWriter SessionWriter where
  staged writer := writer.toStaged
  limits writer := writer.limits
  withStaged writer next := { writer with toStaged := next }
  checkAppend := SessionWriter.checkAppend
  staged_withStaged _ _ := rfl
  limits_withStaged _ _ := rfl
  checkAppend_ok := writer_checkAppend

def recordingSession : FlowWriter RecordingInner where
  staged inner := inner.toStaged
  limits inner := inner.limits
  withStaged inner next := { inner with toStaged := next }
  checkAppend := RecordingInner.checkAppend
  staged_withStaged _ _ := rfl
  limits_withStaged _ _ := rfl
  checkAppend_ok := recording_checkAppend

/-- `append_flow` of either writer. -/
def FlowWriter.appendFlow {W : Type} (kind : FlowWriter W) (flow : Flow) (faults : WriteFaults) :
    Op StoreError W Unit := fun writer =>
  match kind.checkAppend writer flow with
  | .error error => (.error error, writer)
  | .ok nextTotal =>
      let written := writeRecord faults flow nextTotal (kind.staged writer)
      (written.1, kind.withStaged writer written.2)

/-! ### The writes -/

theorem extendLog_extendLog (staged : Staged) (first second : Bytes) :
    Staged.extendLog (Staged.extendLog staged first) second =
      Staged.extendLog staged (first ++ second) := by
  simp only [Staged.extendLog, Directory.extendFile, Function.update_self, Function.update_idem,
    Option.getD_some, List.append_assoc]

theorem writeAll_none (bytes : Bytes) (staged : Staged) :
    writeAll none bytes staged = (.ok (), Staged.extendLog staged bytes) := rfl

theorem writeAll_some (count : Nat) (bytes : Bytes) (staged : Staged) :
    writeAll (some count) bytes staged =
      (.error (.io "write failed"), Staged.extendLog staged (bytes.take count)) := rfl

theorem writeRecord_none (flow : Flow) (nextTotal : Nat) (staged : Staged) :
    writeRecord {} flow nextTotal staged = (.ok (), staged.writeFlow flow nextTotal) := by
  rw [writeRecord, Op.bind_of_ok (writeAll_none _ _), Op.bind_of_ok (writeAll_none _ _),
    extendLog_extendLog]
  rfl

theorem encode_ne_nil (flow : Flow) : flow.encode ≠ [] := by
  rw [Flow.encode, EggReplay.Library.JsonText.encode, Flow.toJson,
    EggReplay.Library.JsonText.Json.render, EggReplay.Library.JsonLengths.utf8_cons]
  exact List.append_ne_nil_of_left_ne_nil (by decide) _

/-- A failed append leaves some bytes in the log, none only where the first write fails before
its first byte. -/
theorem writeRecord_fails {faults : WriteFaults} (h : faults ≠ {}) (flow : Flow) (nextTotal : Nat)
    (staged : Staged) :
    ∃ tail, (tail = [] ↔ faults.line = some 0) ∧
      writeRecord faults flow nextTotal staged =
        (.error (.io "write failed"), Staged.extendLog staged tail) := by
  rcases faults with ⟨_ | count, _ | after⟩
  · exact absurd rfl h
  · refine ⟨flow.encode ++ [newline].take after, ?_, ?_⟩
    · refine iff_of_false (List.append_ne_nil_of_left_ne_nil (encode_ne_nil flow) _) ?_
      rintro ⟨⟩
    · rw [writeRecord, Op.bind_of_ok (writeAll_none _ _), Op.bind_of_error (writeAll_some _ _ _),
        extendLog_extendLog]
  all_goals
    refine ⟨flow.encode.take count, ?_, ?_⟩
    · rw [List.take_eq_nil_iff, or_iff_left (encode_ne_nil flow), Option.some.injEq]
    · rw [writeRecord, Op.bind_of_error (writeAll_some _ _ _)]

theorem writer_appendFlow_eq (writer : SessionWriter) (flow : Flow) :
    writer.appendFlow flow = SessionWriter.checkAppend writer flow >>= fun total =>
      pure { writer with toStaged := writer.toStaged.writeFlow flow total } := by
  simp only [SessionWriter.appendFlow, SessionWriter.checkAppend, bind_assoc, pure_bind]

theorem recording_appendFlow_eq (inner : RecordingInner) (flow : Flow) :
    inner.appendFlow flow = RecordingInner.checkAppend inner flow >>= fun total =>
      pure { inner with toStaged := inner.toStaged.writeFlow flow total } := by
  simp only [RecordingInner.appendFlow, RecordingInner.appendFlowLocked,
    RecordingInner.checkAppend, bind_assoc, pure_bind]

section

variable {W : Type} {kind : FlowWriter W} {writer : W} {flow : Flow} {faults : WriteFaults}

theorem appendFlow_refused {error : StoreError}
    (h : kind.checkAppend writer flow = .error error) :
    kind.appendFlow flow faults writer = (.error error, writer) := by
  rw [FlowWriter.appendFlow, h]

theorem appendFlow_checked {total : Nat} (h : kind.checkAppend writer flow = .ok total) :
    kind.appendFlow flow faults writer =
      ((writeRecord faults flow total (kind.staged writer)).1,
        kind.withStaged writer (writeRecord faults flow total (kind.staged writer)).2) := by
  rw [FlowWriter.appendFlow, h]

end

/-- Without faults the appends are those of the two writers. -/
theorem appendFlow_unfailing (flow : Flow) :
    sessionWriter.appendFlow flow {} =
        Op.ofStep (fun writer => (writer.appendFlow flow).map fun next => (next, ())) ∧
      recordingSession.appendFlow flow {} =
        Op.ofStep (fun inner => (inner.appendFlow flow).map fun next => (next, ())) := by
  constructor
  · funext writer
    rw [Op.ofStep, writer_appendFlow_eq]
    rcases h : SessionWriter.checkAppend writer flow with error | total
    · exact @appendFlow_refused _ sessionWriter writer flow {} error h
    · exact (@appendFlow_checked _ sessionWriter writer flow {} total h).trans
        (by rw [writeRecord_none]; rfl)
  · funext inner
    rw [Op.ofStep, recording_appendFlow_eq]
    rcases h : RecordingInner.checkAppend inner flow with error | total
    · exact @appendFlow_refused _ recordingSession inner flow {} error h
    · exact (@appendFlow_checked _ recordingSession inner flow {} total h).trans
        (by rw [writeRecord_none]; rfl)

/-! ### Runs -/

/-- A writer, and the flows whose append has returned `Ok`. -/
structure Run (W : Type) where
  writer : W
  accepted : List Flow := []

section

variable {W : Type} (kind : FlowWriter W)

def FlowWriter.step (run : Run W) (operation : Flow × WriteFaults) : Run W :=
  let result := kind.appendFlow operation.1 operation.2 run.writer
  match result.1 with
  | .ok () => { writer := result.2, accepted := run.accepted ++ [operation.1] }
  | .error _ => { run with writer := result.2 }

def FlowWriter.run (start : W) (operations : List (Flow × WriteFaults)) : Run W :=
  operations.foldl kind.step { writer := start }

/-- The log reads as the accepted flows, and the counters are theirs. -/
structure Faithful (codec : Codec) (run : Run W) : Prop where
  log : ∃ log, (kind.staged run.writer).directory.files flowLog = some log ∧
    (FlowIter.mk log (kind.limits run.writer) 0).items codec = run.accepted.map .ok
  count : (kind.staged run.writer).flowCount = run.accepted.length
  total : (kind.staged run.writer).totalBytes = (run.accepted.map flowBodyBytes).sum

/-- The append is refused, or fails before its first byte, or does not fail and writes a line
that the reader does not find too long. -/
def Harmless (run : Run W) (operation : Flow × WriteFaults) : Prop :=
  ∀ total, kind.checkAppend run.writer operation.1 = .ok total →
    operation.2.line = some 0 ∨
      (operation.2 = {} ∧ operation.1.encode.length < (kind.limits run.writer).maxLineBytes)

end

/-! ### What the reader makes of a log -/

theorem length_flowItems (codec : Codec) (limits : StoreLimits) (seen : Nat) (log : List Bytes) :
    (flowItems codec limits seen log).length = log.length := by
  induction log generalizing seen with
  | nil => rfl
  | cons line rest ih => exact congrArg Nat.succ (ih _)

/-- Every line has an item of its own. -/
theorem flowItem_mem {codec : Codec} {limits : StoreLimits} {seen : Nat} {log : List Bytes}
    {line : Bytes} (h : line ∈ log) :
    ∃ before, (flowItem codec limits before line).1 ∈ flowItems codec limits seen log := by
  induction log generalizing seen with
  | nil => cases h
  | cons first rest ih =>
      rcases List.mem_cons.mp h with rfl | hrest
      · exact ⟨seen, List.mem_cons_self⟩
      · obtain ⟨before, hmem⟩ := @ih (flowItem codec limits seen first).2 hrest
        exact ⟨before, List.mem_cons_of_mem _ hmem⟩

/-- A line that reads as a flow is within the line limit. -/
theorem line_bound {codec : Codec} {limits : StoreLimits} {seen : Nat} {log : List Bytes}
    {flows : List Flow} (h : flowItems codec limits seen log = flows.map .ok) {line : Bytes}
    (hline : line ∈ log) : line.length ≤ limits.maxLineBytes := by
  obtain ⟨before, hmem⟩ := @flowItem_mem codec limits seen log line hline
  rw [h] at hmem
  obtain ⟨flow, -, hitem⟩ := List.mem_map.mp hmem
  unfold flowItem at hitem
  split at hitem
  · cases hitem
  · obtain ⟨_, hsize, -⟩ := bind_eq_ok.mp hitem.symm
    exact ensure_eq_ok.mp hsize

theorem records_written_append (flows : List Flow) (tail : Bytes) :
    records newline (written newline (flows.map Flow.encode) ++ tail) =
      lines flows ++ records newline tail := by
  induction flows with
  | nil => rfl
  | cons flow rest ih =>
      have hflow : newline ∉ flow.encode := newline_not_mem_flow_encode flow
      rw [List.map_cons, written, List.flatMap_cons, List.append_assoc, List.append_assoc,
        List.singleton_append, records_cons_append newline hflow]
      exact congrArg ((flow.encode ++ [newline]) :: ·) ih

theorem records_ne_nil {tail : Bytes} (h : tail ≠ []) : records newline tail ≠ [] := by
  rw [records_eq_readUntil newline h]
  exact List.cons_ne_nil _ _

/-! ### One append -/

section

variable {W : Type} {kind : FlowWriter W} {codec : Codec} {limits : StoreLimits} {run : Run W}
  {operation : Flow × WriteFaults}

/-- Only harmless appends so far. -/
structure Clean (kind : FlowWriter W) (limits : StoreLimits) (run : Run W) : Prop where
  limits_eq : kind.limits run.writer = limits
  sound : Sound limits run.accepted (kind.staged run.writer)
  lines : ∀ flow ∈ run.accepted, flow.encode.length < limits.maxLineBytes

theorem Clean.faithful (h : Clean kind limits run) (hdecodes : DecodesFlows codec run.accepted) :
    Faithful kind codec run where
  log := by
    refine ⟨_, h.sound.log, ?_⟩
    rw [h.limits_eq]
    show flowItems codec limits 0 (records newline _) = _
    rw [records_log]
    refine flowItems_lines hdecodes h.sound.valid h.lines ?_
    rw [Nat.zero_add]
    exact h.sound.countBound
  count := h.sound.count
  total := h.sound.total

/-- Bytes after the last accepted line are one more record. -/
theorem not_faithful_of_tail {staged : Staged} {writer : W} {tail : Bytes}
    (hsound : Sound limits run.accepted staged) (htail : tail ≠ [])
    (hstaged : kind.staged writer = Staged.extendLog staged tail) :
    ¬Faithful kind codec { run with writer } := by
  rintro ⟨⟨log, hlog, hitems⟩, -, -⟩
  rw [hstaged] at hlog
  have hbytes : log = written newline (run.accepted.map Flow.encode) ++ tail :=
    (Option.some.inj ((extendFile_same hsound.log).symm.trans hlog)).symm
  have hlength := congrArg List.length hitems
  rw [FlowIter.items, length_flowItems, hbytes, records_written_append, List.length_append,
    lines, List.length_map, List.length_map] at hlength
  dsimp only at hlength
  have hpositive := List.length_pos_iff.mpr (records_ne_nil htail)
  omega

theorem step_refused {error : StoreError}
    (h : kind.checkAppend run.writer operation.1 = .error error) :
    kind.step run operation = run := by
  rw [FlowWriter.step, appendFlow_refused h]

theorem step_failed {total : Nat} (h : kind.checkAppend run.writer operation.1 = .ok total)
    (hfaults : operation.2 ≠ {}) :
    ∃ tail, (tail = [] ↔ operation.2.line = some 0) ∧
      kind.step run operation =
        { run with
          writer := kind.withStaged run.writer
            (Staged.extendLog (kind.staged run.writer) tail) } := by
  obtain ⟨tail, htail, hwrites⟩ :=
    writeRecord_fails hfaults operation.1 total (kind.staged run.writer)
  refine ⟨tail, htail, ?_⟩
  rw [FlowWriter.step, appendFlow_checked h, hwrites]

theorem step_written {total : Nat} (h : kind.checkAppend run.writer operation.1 = .ok total)
    (hfaults : operation.2 = {}) :
    kind.step run operation =
      { writer := kind.withStaged run.writer
          ((kind.staged run.writer).writeFlow operation.1 total),
        accepted := run.accepted ++ [operation.1] } := by
  rw [FlowWriter.step, appendFlow_checked h, hfaults, writeRecord_none]

theorem Clean.refused (h : Clean kind limits run) {tail : Bytes} (htail : tail = []) :
    Clean kind limits
      { run with
        writer := kind.withStaged run.writer
          (Staged.extendLog (kind.staged run.writer) tail) } where
  limits_eq := (kind.limits_withStaged _ _).trans h.limits_eq
  sound := by
    rw [kind.staged_withStaged, htail]
    refine h.sound.congr ?_ (fun extension hmem =>
      extendFile_other (h.sound.extension extension hmem).notLog) rfl rfl rfl
    rw [h.sound.log, Staged.extendLog]
    exact (extendFile_same h.sound.log).trans (congrArg some (List.append_nil _))
  lines := h.lines

theorem Clean.written {total : Nat} (h : Clean kind limits run)
    (hcheck : kind.checkAppend run.writer operation.1 = .ok total) :
    Sound limits (run.accepted ++ [operation.1])
      ((kind.staged run.writer).writeFlow operation.1 total) := by
  obtain ⟨happendable, rfl⟩ := kind.checkAppend_ok hcheck
  rw [h.limits_eq] at happendable
  exact h.sound.appendFlow happendable

theorem Clean.step (h : Clean kind limits run) (hharmless : Harmless kind run operation) :
    Clean kind limits (kind.step run operation) := by
  rcases hcheck : kind.checkAppend run.writer operation.1 with error | total
  · rw [step_refused hcheck]
    exact h
  · by_cases hfaults : operation.2 = {}
    · have hline : operation.1.encode.length < limits.maxLineBytes := by
        rcases hharmless total hcheck with hzero | ⟨-, hshort⟩
        · rw [hfaults] at hzero
          cases hzero
        · exact h.limits_eq ▸ hshort
      rw [step_written hcheck hfaults]
      refine ⟨(kind.limits_withStaged _ _).trans h.limits_eq, ?_, ?_⟩
      · rw [kind.staged_withStaged]
        exact h.written hcheck
      · exact List.forall_mem_append.mpr ⟨h.lines, List.forall_mem_singleton.mpr hline⟩
    · obtain ⟨tail, htail, hstep⟩ := step_failed hcheck hfaults
      rw [hstep]
      refine h.refused (htail.mpr ?_)
      rcases hharmless total hcheck with hzero | ⟨hnone, -⟩
      · exact hzero
      · exact absurd hnone hfaults

theorem Clean.harmless (h : Clean kind limits run)
    (hfaithful : Faithful kind codec (kind.step run operation)) :
    Harmless kind run operation := by
  intro total hcheck
  by_cases hfaults : operation.2 = {}
  · refine .inr ⟨hfaults, ?_⟩
    rw [step_written hcheck hfaults] at hfaithful
    obtain ⟨⟨log, hlog, hitems⟩, -, -⟩ := hfaithful
    rw [kind.staged_withStaged, (h.written hcheck).log] at hlog
    obtain rfl := Option.some.inj hlog
    rw [FlowIter.items, records_log, kind.limits_withStaged] at hitems
    have hmem : operation.1.encode ++ [newline] ∈
        Publication.lines (run.accepted ++ [operation.1]) :=
      List.mem_map_of_mem (List.mem_append_right _ List.mem_cons_self)
    have hbound := line_bound hitems hmem
    rw [List.length_append, List.length_singleton] at hbound
    exact hbound
  · obtain ⟨tail, htail, hstep⟩ := step_failed hcheck hfaults
    rw [hstep] at hfaithful
    refine .inl (htail.mp ?_)
    by_contra hne
    exact not_faithful_of_tail h.sound hne (kind.staged_withStaged _ _) hfaithful

/-! ### All appends -/

theorem run_concat (start : W) (operations : List (Flow × WriteFaults)) :
    kind.run start (operations ++ [operation]) =
      kind.step (kind.run start operations) operation := by
  rw [FlowWriter.run, FlowWriter.run, List.foldl_append]
  rfl

theorem accepted_step {flow : Flow} (h : flow ∈ (kind.step run operation).accepted) :
    flow ∈ run.accepted ∨ flow = operation.1 := by
  rw [FlowWriter.step] at h
  rcases hresult : (kind.appendFlow operation.1 operation.2 run.writer).1 with error | done
  · rw [hresult] at h
    exact .inl h
  · rw [hresult] at h
    rcases List.mem_append.mp h with hold | hnew
    · exact .inl hold
    · exact .inr (List.mem_singleton.mp hnew)

theorem accepted_mem {start : W} {operations : List (Flow × WriteFaults)} {flow : Flow}
    (h : flow ∈ (kind.run start operations).accepted) : flow ∈ operations.map Prod.fst := by
  induction operations using List.reverseRecOn with
  | nil => cases h
  | append_singleton before operation ih =>
      rw [run_concat] at h
      rw [List.map_append]
      rcases accepted_step h with hold | rfl
      · exact List.mem_append_left _ (ih hold)
      · exact List.mem_append_right _ List.mem_cons_self

theorem clean_run {start : W} (hlimits : kind.limits start = limits)
    (hstart : Sound limits [] (kind.staged start)) (operations : List (Flow × WriteFaults))
    (hharmless : ∀ before operation, before ++ [operation] <+: operations →
      Harmless kind (kind.run start before) operation) :
    Clean kind limits (kind.run start operations) := by
  induction operations using List.reverseRecOn with
  | nil => exact ⟨hlimits, hstart, List.forall_mem_nil _⟩
  | append_singleton before operation ih =>
      rw [run_concat]
      refine (ih fun earlier other hprefix => hharmless earlier other ?_).step
        (hharmless before operation List.prefix_rfl)
      exact List.IsPrefix.trans hprefix (List.prefix_append _ _)

/-- The log is the accepted flows after every part of a run exactly when each append of it is
harmless. -/
theorem faithful_iff_harmless {start : W} (hlimits : kind.limits start = limits)
    (hstart : Sound limits [] (kind.staged start)) {operations : List (Flow × WriteFaults)}
    (hdecodes : DecodesFlows codec (operations.map Prod.fst)) :
    (∀ before, before <+: operations → Faithful kind codec (kind.run start before)) ↔
      ∀ before operation, before ++ [operation] <+: operations →
        Harmless kind (kind.run start before) operation := by
  constructor
  · intro h
    induction operations using List.reverseRecOn with
    | nil =>
        intro before operation hprefix
        exact absurd (List.prefix_nil.mp hprefix) (List.append_ne_nil_of_right_ne_nil _
          (List.cons_ne_nil _ _))
    | append_singleton earlier last ih =>
        have hearlier := ih (fun flow hflow => hdecodes flow (by
          rw [List.map_append]
          exact List.mem_append_left _ hflow))
          fun before hbefore => h before (hbefore.trans (List.prefix_append _ _))
        have hlast := h _ List.prefix_rfl
        rw [run_concat] at hlast
        intro before operation hprefix
        rcases List.prefix_concat_iff.mp hprefix with hsame | hprefix
        · obtain ⟨rfl, hone⟩ := List.append_inj' hsame rfl
          obtain rfl := List.singleton_inj.mp hone
          exact (clean_run hlimits hstart before hearlier).harmless hlast
        · exact hearlier before operation hprefix
  · intro h before hbefore
    have hclean := clean_run hlimits hstart before fun earlier operation hearlier =>
      h earlier operation (hearlier.trans hbefore)
    refine hclean.faithful fun flow hflow => hdecodes flow ?_
    exact (hbefore.map Prod.fst).subset (accepted_mem hflow)

end

/-- A session writer and a recording session whose log can be read after every append are
those whose appends are all harmless. -/
theorem torn_writes_iff (codec : Codec) (metadata : SessionMetadata) (limits : StoreLimits)
    (operations : List (Flow × WriteFaults))
    (hdecodes : DecodesFlows codec (operations.map Prod.fst)) :
    (∀ start, SessionWriter.create false metadata limits = .ok start →
      ((∀ before, before <+: operations →
          Faithful sessionWriter codec (sessionWriter.run start before)) ↔
        ∀ before operation, before ++ [operation] <+: operations →
          Harmless sessionWriter (sessionWriter.run start before) operation)) ∧
    (∀ start, RecordingInner.create false metadata limits = .ok start →
      ((∀ before, before <+: operations →
          Faithful recordingSession codec (recordingSession.run start before)) ↔
        ∀ before operation, before ++ [operation] <+: operations →
          Harmless recordingSession (recordingSession.run start before) operation)) := by
  constructor
  · intro start hcreate
    simp only [SessionWriter.create, bind_eq_ok, pure_eq_ok] at hcreate
    obtain ⟨_, -, _, -, rfl⟩ := hcreate
    exact faithful_iff_harmless rfl (sound_empty limits) hdecodes
  · intro start hcreate
    simp only [RecordingInner.create, bind_eq_ok, pure_eq_ok] at hcreate
    obtain ⟨_, -, _, -, rfl⟩ := hcreate
    exact faithful_iff_harmless rfl (sound_empty limits) hdecodes

theorem not_faithful_of_read {W : Type} {kind : FlowWriter W} {codec : Codec} {run : Run W}
    (h : ((kind.staged run.writer).directory.files flowLog).map (fun log =>
      (FlowIter.mk log (kind.limits run.writer) 0).items codec) ≠
        some (run.accepted.map .ok)) : ¬Faithful kind codec run := by
  rintro ⟨⟨log, hlog, hitems⟩, -, -⟩
  apply h
  rw [hlog, Option.map_some, hitems]

/-- An append that fails at the given byte of its first write, and one that does not fail. -/
def failingOnce (count : Nat) : List (Flow × WriteFaults) :=
  [(sampleFlow, { line := some count }), (sampleFlow, {})]

theorem failingOnce_iff :
    ((∀ before, before <+: failingOnce 0 →
        Faithful sessionWriter (sampleCodec 1) (sessionWriter.run sampleWriter before)) ↔
      ∀ before operation, before ++ [operation] <+: failingOnce 0 →
        Harmless sessionWriter (sessionWriter.run sampleWriter before) operation) ∧
    ((∀ before, before <+: failingOnce 0 →
        Faithful recordingSession (sampleCodec 1) (recordingSession.run sampleSession before)) ↔
      ∀ before operation, before ++ [operation] <+: failingOnce 0 →
        Harmless recordingSession (recordingSession.run sampleSession before) operation) := by
  have hdecodes : DecodesFlows (sampleCodec 1) ((failingOnce 0).map Prod.fst) := by
    intro flow hflow
    obtain rfl : flow = sampleFlow := by simpa [failingOnce] using hflow
    simp [sampleCodec]
  have h := torn_writes_iff (sampleCodec 1) sampleMetadata StoreLimits.default (failingOnce 0)
    hdecodes
  exact ⟨h.1 sampleWriter rfl, h.2 sampleSession rfl⟩

/-- After one byte of a failed append, the next append returns `Ok` and cannot be read. -/
theorem failingOnce_not_faithful :
    ((sessionWriter.run sampleWriter (failingOnce 1)).accepted = [sampleFlow] ∧
      ¬Faithful sessionWriter (sampleCodec 1) (sessionWriter.run sampleWriter (failingOnce 1))) ∧
    ((recordingSession.run sampleSession (failingOnce 1)).accepted = [sampleFlow] ∧
      ¬Faithful recordingSession (sampleCodec 1)
        (recordingSession.run sampleSession (failingOnce 1))) := by
  refine ⟨⟨by decide +kernel, not_faithful_of_read ?_⟩,
    ⟨by decide +kernel, not_faithful_of_read ?_⟩⟩
  all_goals decide +kernel

end EggReplay.Store.TornWrites
