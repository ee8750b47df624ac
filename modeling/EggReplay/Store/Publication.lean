import EggReplay.Store.StagedInvariant

/-!
When a completed staging directory opens. The checks that run before the rename
and the invariant of the staged session settle most of what the reader checks;
what is left is `Publishable`: distinct flow ids, intact blobs, extensions that
read back, and timelines that agree with the flows.
-/

namespace EggReplay.Store.Publication

open EggReplay.Library.Checks
open EggReplay.Library.Text
open EggReplay.Library.LineLog
open EggReplay.Core.FlowRecord
open EggReplay.Core.StreamTimeline
open EggReplay.Core.WebSockets
open EggReplay.Store.Fixture
open EggReplay.Store.SessionOpen
open EggReplay.Store.Staging
open EggReplay.Store.StagedInvariant

/-- The decoder reads each line that was written for one of the flows. -/
def DecodesFlows (codec : Codec) (flows : List Flow) : Prop :=
  ∀ flow ∈ flows, codec.decodeFlow (flow.encode ++ [newline]) = .ok flow

def flowIds (flows : List Flow) : List String := flows.map fun flow => flow.id

/-! ### Flow lines -/

def lines (flows : List Flow) : List Bytes :=
  flows.map fun flow => flow.encode ++ [newline]

theorem records_log (flows : List Flow) :
    records newline (written newline (flows.map Flow.encode)) = lines flows := by
  rw [records_written]
  · simp [lines]
  · intro entry hentry
    obtain ⟨flow, -, rfl⟩ := List.mem_map.mp hentry
    exact newline_not_mem_flow_encode flow

/-- Within the limits the iterator yields the flows that the lines were written for. -/
theorem flowItems_lines {codec : Codec} {limits : StoreLimits} {flows : List Flow}
    {seen : Nat} (hdecodes : DecodesFlows codec flows)
    (hvalid : ∀ flow ∈ flows, flow.validate = .ok ())
    (hline : ∀ flow ∈ flows, flow.encode.length + 1 ≤ limits.maxLineBytes)
    (hseen : seen + flows.length ≤ limits.maxFlows) :
    flowItems codec limits seen (lines flows) = flows.map .ok := by
  induction flows generalizing seen with
  | nil => rfl
  | cons flow rest ih =>
      have hroom : ¬limits.maxFlows ≤ seen := by
        simp only [List.length_cons] at hseen
        omega
      have hitem : flowItem codec limits seen (flow.encode ++ [newline]) =
          (.ok flow, seen + 1) := by
        have hsize : (flow.encode ++ [newline]).length ≤ limits.maxLineBytes := by
          simpa using hline flow (by simp)
        simp only [flowItem, if_neg hroom, ensure_of_true hsize, hdecodes flow (by simp)]
        show (flow.validate.mapError _ >>= _, _) = _
        rw [hvalid flow (by simp)]
        rfl
      have hrest := @ih (seen + 1) (fun f hf => hdecodes f (by simp [hf]))
        (fun f hf => hvalid f (by simp [hf])) (fun f hf => hline f (by simp [hf]))
        (by simp only [List.length_cons] at hseen; omega)
      rw [lines, List.map_cons, flowItems, hitem, List.map_cons, ← hrest]
      rfl

/-- The fixture check reads every line, so each one is within the line limit. -/
theorem scan_lines_bound {codec : Codec} {maxLineBytes : Nat} {ids final : List String}
    {log : List Bytes} (h : checkFold (scanFlowLine codec maxLineBytes) ids log = .ok final) :
    ∀ line ∈ log, line.length ≤ maxLineBytes := by
  induction log generalizing ids with
  | nil => simp
  | cons line rest ih =>
      rw [checkFold_cons, bind_eq_ok] at h
      obtain ⟨next, hstep, hrest⟩ := h
      simp only [scanFlowLine, bind_unit_eq_ok, ensure_eq_ok] at hstep
      rintro other hother
      rcases List.mem_cons.mp hother with rfl | hmem
      · exact hstep.1
      · exact ih hrest other hmem

/-! ### Reading the flows back -/

def lengthEntry (flow : Flow) : String × Nat := (flow.id, flow.outcome.responseLength)

theorem lookup_lengths {flows : List Flow} {id : String} {length : Nat}
    (hids : (flowIds flows).Nodup) :
    (flows.map lengthEntry).reverse.lookup id = some length ↔
      ∃ flow ∈ flows, flow.id = id ∧ flow.outcome.responseLength = length := by
  have hkeys : ((flows.map lengthEntry).reverse.map Prod.fst).Nodup := by
    rw [List.map_reverse, List.nodup_reverse, List.map_map]
    exact hids
  rw [List.lookup_eq_some_iff]
  constructor
  · rintro ⟨before, after, hsplit, -⟩
    have hmem : (id, length) ∈ (flows.map lengthEntry).reverse := by
      rw [hsplit]
      simp
    rw [List.mem_reverse, List.mem_map] at hmem
    obtain ⟨flow, hflow, hentry⟩ := hmem
    exact ⟨flow, hflow, congrArg Prod.fst hentry, congrArg Prod.snd hentry⟩
  · rintro ⟨flow, hflow, rfl, rfl⟩
    have hmem : lengthEntry flow ∈ (flows.map lengthEntry).reverse :=
      List.mem_reverse.mpr (List.mem_map_of_mem hflow)
    obtain ⟨before, after, hsplit⟩ := List.append_of_mem hmem
    refine ⟨before, after, hsplit, ?_⟩
    intro entry hentry
    rw [hsplit, List.map_append, List.map_cons, List.nodup_append] at hkeys
    have hne := hkeys.2.2 entry.1 (List.mem_map_of_mem hentry) (lengthEntry flow).1 (by simp)
    simpa [lengthEntry] using Ne.symm hne

theorem lookup_eq_none_iff {entries : List (String × Nat)} {id : String} :
    entries.lookup id = none ↔ id ∉ entries.map Prod.fst := by
  rw [List.lookup_eq_none_iff, List.mem_map]
  constructor
  · rintro h ⟨entry, hentry, rfl⟩
    simpa using h entry hentry
  · rintro h entry hentry
    simpa using fun heq => h ⟨entry, hentry, heq.symm⟩

/-- The flow loop of the reader accepts exactly distinct ids with intact blobs. -/
theorem openFlows_eq_ok {codec : Codec} {root : Directory} {limits : StoreLimits}
    {totals next : FlowTotals} {flows : List Flow}
    (hsum : totals.total + (flows.map flowBodyBytes).sum ≤ u64Max)
    (hlimit : totals.total + (flows.map flowBodyBytes).sum ≤ limits.maxTotalBytes) :
    checkFold (openFlow codec root limits) totals (flows.map .ok) = .ok next ↔
      ((flowIds flows).Nodup ∧
        (∀ flow ∈ flows, flow.id ∉ totals.responseLengths.map Prod.fst) ∧
        ∀ flow ∈ flows, validateBodyFiles codec root flow limits = .ok ()) ∧
      next =
        { responseLengths := (flows.map lengthEntry).reverse ++ totals.responseLengths,
          count := totals.count + flows.length,
          total := totals.total + (flows.map flowBodyBytes).sum } := by
  induction flows generalizing totals with
  | nil => simp [flowIds, eq_comm]
  | cons flow rest ih =>
      rw [List.map_cons, List.sum_cons, ← Nat.add_assoc] at hsum hlimit
      have hfirstSum : totals.total + flowBodyBytes flow ≤ u64Max := by omega
      have hfirstLimit : totals.total + flowBodyBytes flow ≤ limits.maxTotalBytes := by omega
      have hstep : ∀ after, openFlow codec root limits totals (.ok flow) = .ok after ↔
          (flow.id ∉ totals.responseLengths.map Prod.fst ∧
            validateBodyFiles codec root flow limits = .ok ()) ∧
          after =
            { responseLengths := lengthEntry flow :: totals.responseLengths,
              count := totals.count + 1, total := totals.total + flowBodyBytes flow } := by
        intro after
        simp only [openFlow, ok_bind, bind_unit_eq_ok, ensure_eq_ok, lookup_eq_none_iff,
          pure_eq_ok, hfirstSum, hfirstLimit, true_and, and_assoc]
        exact and_congr_right fun _ => and_congr_right fun _ => eq_comm
      rw [List.map_cons, checkFold_cons, bind_eq_ok]
      constructor
      · rintro ⟨after, hafter, hrest⟩
        obtain ⟨⟨hnew, hblob⟩, rfl⟩ := (hstep after).mp hafter
        obtain ⟨⟨hids, hfresh, hblobs⟩, rfl⟩ := (ih hsum hlimit).mp hrest
        refine ⟨⟨?_, ?_, ?_⟩, ?_⟩
        · rw [flowIds, List.map_cons, List.nodup_cons]
          refine ⟨?_, hids⟩
          rintro hmem
          obtain ⟨other, hother, heq⟩ := List.mem_map.mp hmem
          exact hfresh other hother (by simp [heq, lengthEntry])
        · intro other hother
          rcases List.mem_cons.mp hother with rfl | hmem
          · exact hnew
          · exact fun h => hfresh other hmem (by simp [h])
        · intro other hother
          rcases List.mem_cons.mp hother with rfl | hmem
          · exact hblob
          · exact hblobs other hmem
        · simp [Nat.add_assoc, Nat.add_comm 1]
      · rintro ⟨⟨hids, hfresh, hblobs⟩, rfl⟩
        rw [flowIds, List.map_cons, List.nodup_cons] at hids
        refine ⟨_, (hstep _).mpr ⟨⟨hfresh flow (by simp), hblobs flow (by simp)⟩, rfl⟩, ?_⟩
        rw [ih hsum hlimit]
        refine ⟨⟨hids.2, ?_, fun other h => hblobs other (by simp [h])⟩, ?_⟩
        · intro other hother
          rw [List.map_cons, List.mem_cons]
          rintro (heq | hold)
          · refine hids.1 ?_
            rw [← show other.id = flow.id from heq]
            exact List.mem_map_of_mem hother
          · exact hfresh other (by simp [hother]) hold
        · simp [Nat.add_assoc, Nat.add_comm 1]

/-! ### Reading the extensions back -/

/-- The content checks of an extension that only the reader makes. -/
structure ExtensionReadable (codec : Codec) (root : Directory)
    (extension : ExtensionDescriptor) : Prop where
  known : extension.requiredForReplay = true → extension.name ∈ knownRequired
  rules : extension.name = "rules" → ∀ bytes, root.files extension.path = some bytes →
    checkRules codec extension bytes = .ok ()
  streamEvents : extension.name = "stream-events" → ∀ bytes,
    root.files extension.path = some bytes → checkStreamEvents codec extension bytes = .ok ()

theorem checkExtensionContent_eq_ok {codec : Codec} {root : Directory}
    {extension : ExtensionDescriptor} {bytes : Bytes}
    (hfile : root.files extension.path = some bytes)
    (hwebsocket : extension.name = "websocket-messages" →
      checkWebsocketMessages codec extension bytes = .ok ()) :
    checkExtensionContent codec extension bytes = .ok () ↔
      ExtensionReadable codec root extension := by
  have hcontent : checkExtensionContent codec extension bytes = .ok () ↔
      (extension.requiredForReplay = true → extension.name ∈ knownRequired) ∧
      (extension.name = "rules" → checkRules codec extension bytes = .ok ()) ∧
      (extension.name = "stream-events" → checkStreamEvents codec extension bytes = .ok ()) ∧
      (extension.name = "websocket-messages" →
        checkWebsocketMessages codec extension bytes = .ok ()) := by
    simp [checkExtensionContent]
  rw [hcontent]
  constructor
  · rintro ⟨hknown, hrules, hstream, -⟩
    refine ⟨hknown, ?_, ?_⟩
    · rintro hname other hother
      rw [hfile] at hother
      rw [← Option.some.inj hother, hrules hname]
    · rintro hname other hother
      rw [hfile] at hother
      rw [← Option.some.inj hother, hstream hname]
  · rintro ⟨hknown, hrules, hstream⟩
    exact ⟨hknown, fun hname => hrules hname bytes hfile,
      fun hname => hstream hname bytes hfile, hwebsocket⟩

/-- With sound, distinct and bounded extensions the reader's loop comes down to
the checks on their content. -/
theorem checkExtensions_eq_ok {codec : Codec} {root : Directory} {state : ExtensionState}
    {extensions : List ExtensionDescriptor}
    (hsound : ∀ extension ∈ extensions, ExtensionSound root extension)
    (hnames : (extensions.map ExtensionDescriptor.name).Nodup)
    (hpaths : (extensions.map ExtensionDescriptor.path).Nodup)
    (hfresh : ∀ extension ∈ extensions,
      extension.name ∉ state.names ∧ extension.path ∉ state.paths)
    (htotal : state.total + registeredBytes root extensions ≤ maxTotalExtensionBytes) :
    (∃ final, checkFold (checkExtension codec root) state extensions = .ok final) ↔
      ∀ extension ∈ extensions, ∀ bytes, root.files extension.path = some bytes →
        checkExtensionContent codec extension bytes = .ok () := by
  induction extensions generalizing state with
  | nil => simp
  | cons extension rest ih =>
      obtain ⟨bytes, hfile, hsize⟩ := (hsound extension (by simp)).file
      have hsplit : registeredBytes root (extension :: rest) =
          bytes.length + registeredBytes root rest := by
        simp [registeredBytes, hfile]
      rw [hsplit, ← Nat.add_assoc] at htotal
      have hcap : maxTotalExtensionBytes ≤ u64Max := by decide
      let next : ExtensionState :=
        { names := extension.name :: state.names, paths := extension.path :: state.paths,
          total := state.total + bytes.length }
      have hstep : ∀ after, checkExtension codec root state extension = .ok after ↔
          checkExtensionContent codec extension bytes = .ok () ∧ next = after := by
        intro after
        have hdescriptor : extension.schemaVersion ≠ 0 ∧ extension.name ∉ state.names ∧
            extension.path ∉ state.paths :=
          ⟨(hsound extension (by simp)).version, hfresh extension (by simp)⟩
        have hmax : state.total + bytes.length ≤ u64Max := by omega
        have hagg : state.total + bytes.length ≤ maxTotalExtensionBytes := by omega
        have hread : root.readFile extension.path = .ok bytes := readFile_eq_ok.mpr hfile
        unfold checkExtension
        rw [(hsound extension (by simp)).name, (hsound extension (by simp)).path, hread]
        simp only [ok_bind, ensure_of_true hdescriptor, ensure_of_true hsize,
          ensure_of_true hmax, ensure_of_true hagg, bind_unit_eq_ok, pure_eq_ok, next]
      rw [List.map_cons, List.nodup_cons] at hnames hpaths
      have hrest := @ih next (fun e he => hsound e (by simp [he])) hnames.2 hpaths.2
        (by
          intro e he
          have hold := hfresh e (by simp [he])
          simp only [next, List.mem_cons, not_or]
          refine ⟨⟨?_, hold.1⟩, ?_, hold.2⟩
          · exact fun heq => hnames.1 (heq ▸ List.mem_map_of_mem he)
          · exact fun heq => hpaths.1 (heq ▸ List.mem_map_of_mem he))
        (by simpa [next] using by omega)
      constructor
      · rintro ⟨final, hrun⟩
        rw [checkFold_cons, bind_eq_ok] at hrun
        obtain ⟨after, hafter, hfinal⟩ := hrun
        obtain ⟨hcontent, rfl⟩ := (hstep after).mp hafter
        rintro other hother otherBytes hotherFile
        rcases List.mem_cons.mp hother with rfl | hmem
        · rw [hfile] at hotherFile
          rw [← Option.some.inj hotherFile, hcontent]
        · exact hrest.mp ⟨final, hfinal⟩ other hmem otherBytes hotherFile
      · rintro h
        obtain ⟨final, hfinal⟩ := hrest.mpr fun e he => h e (by simp [he])
        refine ⟨final, ?_⟩
        rw [checkFold_cons, (hstep next).mpr ⟨h extension (by simp) bytes hfile, rfl⟩, ok_bind]
        exact hfinal

/-! ### The fixture check, before and after the rename -/

/-- The transcript check reads one file and the published blobs. -/
theorem checkTranscript_congr (codec : Codec) {left right : Directory} (maxBlobBytes : Nat)
    (ids : List String) {extension : ExtensionDescriptor}
    (hfile : left.files extension.path = right.files extension.path)
    (hblobs : ∀ digest, left.blob? (.content digest) = right.blob? (.content digest)) :
    checkTranscript codec left maxBlobBytes ids extension =
      checkTranscript codec right maxBlobBytes ids extension := by
  have hpayload : checkMessagePayload codec left maxBlobBytes =
      checkMessagePayload codec right maxBlobBytes := by
    funext message
    unfold checkMessagePayload
    rcases message.payload with _ | _ | _ | blob
    · rfl
    · rfl
    · rfl
    · simp only [verifyBlobFile_congr codec hblobs, hblobs]
  have hconversation : checkConversation codec left maxBlobBytes =
      checkConversation codec right maxBlobBytes := by
    funext ids referenced conversation
    rw [checkConversation, checkConversation, hpayload]
  unfold checkTranscript
  rw [hconversation, Directory.readFile, Directory.readFile, hfile]

/-- The fixture check reads no file but the log and the transcript. -/
theorem validateWebsocketFixture_congr (codec : Codec) {left right : Directory}
    (extensions : List ExtensionDescriptor) (maxLineBytes maxBlobBytes : Nat)
    (hfiles : ∀ name, name ≠ manifestFile → left.files name = right.files name)
    (hblobs : left.blobs = right.blobs) :
    validateWebsocketFixture codec left extensions maxLineBytes maxBlobBytes =
      validateWebsocketFixture codec right extensions maxLineBytes maxBlobBytes := by
  have htranscript : checkTranscript codec left maxBlobBytes =
      checkTranscript codec right maxBlobBytes := by
    funext ids extension
    by_cases hpath : extension.path = "websockets.jsonl"
    · have hfile := hfiles extension.path (by rw [hpath]; decide)
      exact checkTranscript_congr codec maxBlobBytes ids hfile fun _ => blob?_congr hblobs _
    · unfold checkTranscript
      simp only [hpath, false_and]
      rfl
  have hlog : left.readFile flowLog = right.readFile flowLog := by
    rw [Directory.readFile, Directory.readFile, hfiles flowLog (by decide)]
  unfold validateWebsocketFixture
  rw [hlog, htranscript]

theorem fixture_lines_bound {codec : Codec} {root : Directory}
    {extensions : List ExtensionDescriptor} {maxLineBytes maxBlobBytes : Nat}
    {flows : List Flow}
    (hlog : root.files flowLog = some (written newline (flows.map Flow.encode)))
    (h : validateWebsocketFixture codec root extensions maxLineBytes maxBlobBytes = .ok ()) :
    ∀ flow ∈ flows, flow.encode.length + 1 ≤ maxLineBytes := by
  rw [validateWebsocketFixture, readFile_eq_ok.mpr hlog, ok_bind, bind_eq_ok,
    records_log] at h
  obtain ⟨ids, hscan, -⟩ := h
  intro flow hflow
  have hline := scan_lines_bound hscan (flow.encode ++ [newline])
    (List.mem_map_of_mem hflow)
  simpa using hline

/-- What the fixture check accepts, the reader's extension check accepts too. -/
theorem fixture_websocket_content {codec : Codec} {root : Directory}
    {extensions : List ExtensionDescriptor} {maxLineBytes maxBlobBytes : Nat}
    {extension : ExtensionDescriptor} {bytes : Bytes}
    (hnames : (extensions.map ExtensionDescriptor.name).Nodup)
    (hmem : extension ∈ extensions) (hname : extension.name = "websocket-messages")
    (hfile : root.files extension.path = some bytes)
    (h : validateWebsocketFixture codec root extensions maxLineBytes maxBlobBytes = .ok ()) :
    checkWebsocketMessages codec extension bytes = .ok () := by
  have hfind : findExtension extensions "websocket-messages" = some extension := by
    unfold findExtension
    obtain ⟨before, after, rfl⟩ := List.append_of_mem hmem
    rw [List.map_append, List.map_cons, List.nodup_append] at hnames
    rw [List.find?_append, List.find?_eq_none.mpr, List.find?_cons_of_pos (by simpa using hname)]
    · rfl
    · rintro other hother heq
      have hne := hnames.2.2 other.name (List.mem_map_of_mem hother) extension.name (by simp)
      simp only [decide_eq_true_eq] at heq
      exact hne (heq.trans hname.symm)
  unfold validateWebsocketFixture at h
  simp only [bind_eq_ok, hfind] at h
  obtain ⟨-, -, ids, -, htranscript⟩ := h
  simp [checkTranscript, readFile_eq_ok.mpr hfile] at htranscript
  obtain ⟨hrequired, ⟨hpath, hversion⟩, transcript, hdecode, hvalid, -⟩ := htranscript
  simp [checkWebsocketMessages, hrequired, hpath, hversion, hdecode, hvalid]

/-! ### Timelines -/

/-- The timelines that the published stream-events extension holds: the writer's
own registry, or a payload that was written as an extension. -/
def publishedTimelines (codec : Codec) (staged : Staged) : List FlowStreamEvents :=
  if staged.streamEvents.flows ≠ [] then staged.streamEvents.flows
  else
    match findExtension staged.extensions "stream-events" with
    | none => []
    | some extension =>
        match staged.directory.files extension.path with
        | none => []
        | some bytes =>
            match codec.decodeStreamEvents bytes with
            | .ok events => events.flows
            | .error _ => []

/-- The timeline names one of the flows and delivers as many bytes as its body has. -/
def TimelineAgrees (flows : List Flow) (events : FlowStreamEvents) : Prop :=
  ∃ flow ∈ flows, flow.id = events.flowId ∧
    flow.outcome.responseLength = dataLength events.response

/-- What publication leaves to the reader: nothing that a writer checks before the
rename, nor its invariant, implies these. -/
structure Publishable (codec : Codec) (limits : StoreLimits) (flows : List Flow)
    (staged : Staged) : Prop where
  ids : (flowIds flows).Nodup
  blobs : ∀ flow ∈ flows, validateBodyFiles codec staged.directory flow limits = .ok ()
  extensions : ∀ extension ∈ staged.extensions,
    ExtensionReadable codec staged.directory extension
  timelines : ∀ events ∈ publishedTimelines codec staged, TimelineAgrees flows events

/-- The reader finds these timelines in its stream-events extension, or has none. -/
def TimelinesFound (codec : Codec) (root : Directory)
    (extensions : List ExtensionDescriptor) (timelines : List FlowStreamEvents) : Prop :=
  (findExtension extensions "stream-events" = none ∧ timelines = []) ∨
    ∃ extension bytes events, findExtension extensions "stream-events" = some extension ∧
      root.files extension.path = some bytes ∧
      codec.decodeStreamEvents bytes = .ok events ∧ events.flows = timelines

theorem checkTimelines_of_lengths {codec : Codec} {root : Directory}
    {extensions : List ExtensionDescriptor} {flows : List Flow}
    {timelines : List FlowStreamEvents} (hids : (flowIds flows).Nodup)
    (hfound : TimelinesFound codec root extensions timelines) :
    checkTimelines codec root extensions (flows.map lengthEntry).reverse = .ok () ↔
      ∀ events ∈ timelines, TimelineAgrees flows events := by
  unfold checkTimelines
  rcases hfound with ⟨hnone, rfl⟩ | ⟨extension, bytes, events, hsome, hfile, hdecode, rfl⟩
  · rw [hnone]
    simp
  · rw [hsome]
    simp only [readFile_eq_ok.mpr hfile, ok_bind, hdecode]
    show checkAll (checkTimeline (flows.map lengthEntry).reverse) events.flows = .ok () ↔ _
    rw [checkAll_eq_ok]
    refine forall₂_congr fun timeline _ => ?_
    simp only [checkTimeline, bind_eq_ok, orFail_eq_ok, ensure_eq_ok, lookup_lengths hids]
    constructor
    · rintro ⟨length, ⟨flow, hflow, hid, hlength⟩, hdata⟩
      exact ⟨flow, hflow, hid, hlength.trans hdata.symm⟩
    · rintro ⟨flow, hflow, hid, hlength⟩
      exact ⟨_, ⟨flow, hflow, hid, hlength⟩, rfl⟩

/-! ### Completed staging -/

/-- The registry's stream events, where there are any, become an extension. -/
def AddsStreamEvents (staged middle : Staged) : Prop :=
  (staged.streamEvents.flows = [] ∧ middle = staged) ∨
    (staged.streamEvents.flows ≠ [] ∧ staged.streamEvents.validate = .ok () ∧
      Registers staged streamEventsExtension staged.streamEvents.encode middle)

def AddsTranscript (middle final : Staged) : Prop :=
  final = middle ∨ ∃ bytes, Registers middle websocketExtension bytes final

/-- Everything that precedes the rename has succeeded. -/
structure Completes (codec : Codec) (limits : StoreLimits) (staged : Staged)
    (root : Directory) (manifest : Manifest) : Prop where
  stages : ∃ middle final, AddsStreamEvents staged middle ∧ AddsTranscript middle final ∧
    validateWebsocketFixture codec final.directory final.extensions limits.maxLineBytes
      limits.maxBlobBytes = .ok () ∧
    final.writeManifest codec manifest.metadata staged.flowCount = .ok (root, manifest) ∧
    (final.extensions ≠ [] → manifest.metadata.schemaVersion = sessionSchemaVersion)
  schema : supportedSchema manifest.metadata.schemaVersion

theorem AddsStreamEvents.sound {limits : StoreLimits} {flows : List Flow}
    {staged middle : Staged} (h : Sound limits flows staged)
    (hadds : AddsStreamEvents staged middle) : Sound limits flows middle := by
  rcases hadds with ⟨-, rfl⟩ | ⟨-, -, hr⟩
  · exact h
  · exact h.register hr

theorem AddsTranscript.sound {limits : StoreLimits} {flows : List Flow}
    {middle final : Staged} (h : Sound limits flows middle)
    (hadds : AddsTranscript middle final) : Sound limits flows final := by
  rcases hadds with rfl | ⟨bytes, hr⟩
  · exact h
  · exact h.register hr

/-- Registering an extension changes no file of the earlier ones. -/
theorem readable_register {codec : Codec} {staged next : Staged}
    {extension : ExtensionDescriptor} {bytes : Bytes}
    (hr : Registers staged extension bytes next) :
    (∀ entry ∈ next.extensions, ExtensionReadable codec next.directory entry) ↔
      (∀ entry ∈ staged.extensions, ExtensionReadable codec staged.directory entry) ∧
        ExtensionReadable codec next.directory extension := by
  have hold : ∀ entry ∈ staged.extensions,
      (ExtensionReadable codec next.directory entry ↔
        ExtensionReadable codec staged.directory entry) := by
    intro entry hmem
    have hfile := hr.file_other (hr.fresh entry hmem).2
    constructor <;> rintro ⟨hknown, hrules, hstream⟩
    · exact ⟨hknown, by rw [← hfile]; exact hrules, by rw [← hfile]; exact hstream⟩
    · exact ⟨hknown, by rw [hfile]; exact hrules, by rw [hfile]; exact hstream⟩
  rw [hr.extensions_eq]
  constructor
  · intro h
    exact ⟨fun entry hmem => (hold entry hmem).mp (h entry (by simp [hmem])),
      h extension (by simp)⟩
  · rintro ⟨hstaged, hnew⟩ entry hmem
    rcases List.mem_append.mp hmem with hleft | hright
    · exact (hold entry hleft).mpr (hstaged entry hleft)
    · rw [List.mem_singleton.mp hright]
      exact hnew

theorem readable_streamEvents {codec : Codec} {staged next : Staged}
    (hdecode : codec.decodeStreamEvents staged.streamEvents.encode = .ok staged.streamEvents)
    (hvalid : staged.streamEvents.validate = .ok ())
    (hr : Registers staged streamEventsExtension staged.streamEvents.encode next) :
    ExtensionReadable codec next.directory streamEventsExtension where
  known _ := by decide
  rules h := by simp [streamEventsExtension] at h
  streamEvents _ bytes hbytes := by
    rw [hr.file] at hbytes
    rw [← Option.some.inj hbytes]
    simp [checkStreamEvents, streamEventsExtension, hdecode, hvalid]

theorem readable_websocket (codec : Codec) (root : Directory) :
    ExtensionReadable codec root websocketExtension where
  known _ := by decide
  rules h := by simp [websocketExtension] at h
  streamEvents h := by simp [websocketExtension] at h

/-- The extensions that `finish` adds read back, so the others decide. -/
theorem completes_readable {codec : Codec} {staged middle final : Staged}
    (hdecode : staged.streamEvents.flows ≠ [] →
      codec.decodeStreamEvents staged.streamEvents.encode = .ok staged.streamEvents)
    (hstream : AddsStreamEvents staged middle) (htranscript : AddsTranscript middle final) :
    (∀ entry ∈ final.extensions, ExtensionReadable codec final.directory entry) ↔
      ∀ entry ∈ staged.extensions, ExtensionReadable codec staged.directory entry := by
  have hmiddle : (∀ entry ∈ middle.extensions, ExtensionReadable codec middle.directory entry) ↔
      ∀ entry ∈ staged.extensions, ExtensionReadable codec staged.directory entry := by
    rcases hstream with ⟨-, rfl⟩ | ⟨hne, hvalid, hr⟩
    · exact Iff.rfl
    · rw [readable_register hr]
      exact and_iff_left (readable_streamEvents (hdecode hne) hvalid hr)
  rw [← hmiddle]
  rcases htranscript with rfl | ⟨bytes, hr⟩
  · exact Iff.rfl
  · rw [readable_register hr]
    exact and_iff_left (readable_websocket codec final.directory)

theorem findExtension_mem {extensions : List ExtensionDescriptor} {name : String}
    {extension : ExtensionDescriptor} (h : findExtension extensions name = some extension) :
    extension ∈ extensions ∧ extension.name = name :=
  ⟨List.mem_of_find?_eq_some h, by simpa using List.find?_some h⟩

theorem findExtension_append_other {extensions : List ExtensionDescriptor}
    {extension : ExtensionDescriptor} {name : String} (h : extension.name ≠ name) :
    findExtension (extensions ++ [extension]) name = findExtension extensions name := by
  rw [findExtension, List.find?_append, List.find?_cons_of_neg (by simpa using h)]
  simp [findExtension]

theorem findExtension_append_new {extensions : List ExtensionDescriptor}
    {extension : ExtensionDescriptor} (h : ∀ entry ∈ extensions, entry.name ≠ extension.name) :
    findExtension (extensions ++ [extension]) extension.name = some extension := by
  have hold : extensions.find? (fun e => e.name = extension.name) = none := by
    rw [List.find?_eq_none]
    intro entry hentry
    simpa using h entry hentry
  rw [findExtension, List.find?_append, hold, Option.none_or,
    List.find?_cons_of_pos (by simp)]

/-- The reader finds the timelines that publication is about. -/
theorem completes_timelines {codec : Codec} {limits : StoreLimits} {flows : List Flow}
    {staged middle final : Staged} (hsound : Sound limits flows staged)
    (hdecode : staged.streamEvents.flows ≠ [] →
      codec.decodeStreamEvents staged.streamEvents.encode = .ok staged.streamEvents)
    (hreadable : ∀ entry ∈ staged.extensions,
      ExtensionReadable codec staged.directory entry)
    (hstream : AddsStreamEvents staged middle) (htranscript : AddsTranscript middle final) :
    TimelinesFound codec final.directory final.extensions (publishedTimelines codec staged) := by
  have hmiddle : TimelinesFound codec middle.directory middle.extensions
      (publishedTimelines codec staged) := by
    rcases hstream with ⟨hempty, rfl⟩ | ⟨hne, hvalid, hr⟩
    · rcases hfind : findExtension middle.extensions "stream-events" with _ | extension
      · refine .inl ⟨hfind, ?_⟩
        simp [publishedTimelines, hempty, hfind]
      · obtain ⟨hmem, hname⟩ := findExtension_mem hfind
        obtain ⟨bytes, hfile, -⟩ := (hsound.extension extension hmem).file
        have hcheck := (hreadable extension hmem).streamEvents hname bytes hfile
        simp [checkStreamEvents] at hcheck
        obtain ⟨-, events, hevents, -⟩ := hcheck
        refine .inr ⟨extension, bytes, events, hfind, hfile, hevents, ?_⟩
        simp [publishedTimelines, hempty, hfind, hfile, hevents]
    · have hfind := findExtension_append_new fun entry hentry => (hr.fresh entry hentry).1
      rw [← hr.extensions_eq] at hfind
      refine .inr ⟨_, _, _, hfind, hr.file, hdecode hne, ?_⟩
      simp [publishedTimelines, hne]
  rcases htranscript with rfl | ⟨bytes, hr⟩
  · exact hmiddle
  · have hfind : findExtension final.extensions "stream-events" =
        findExtension middle.extensions "stream-events" := by
      rw [hr.extensions_eq]
      exact findExtension_append_other (by decide)
    rcases hmiddle with ⟨hnone, hempty⟩ | ⟨extension, old, events, hsome, hfile, hrest⟩
    · exact .inl ⟨hfind.trans hnone, hempty⟩
    · have hmem := (findExtension_mem hsome).1
      rw [← hr.file_other (hr.fresh extension hmem).2] at hfile
      exact .inr ⟨extension, old, events, hfind.trans hsome, hfile, hrest⟩

/-! ### Opening what was published -/

/-- The published directory is the staged one with a manifest for it. -/
structure ManifestWritten (codec : Codec) (flows : List Flow) (final : Staged)
    (root : Directory) (manifest : Manifest) : Prop where
  file : root.files manifestFile = some (codec.encodeManifest manifest ++ [newline])
  other : ∀ name, name ≠ manifestFile → root.files name = final.directory.files name
  absent : final.directory.files manifestFile = none
  blobs : root.blobs = final.directory.blobs
  complete : manifest.complete = true
  extensions : manifest.extensions = final.extensions
  flowCount : manifest.flowCount = flows.length
  blobCount : manifest.blobCount = countBlobs root

theorem writeManifest_eq_ok {codec : Codec} {flows : List Flow} {final : Staged}
    {metadata : SessionMetadata} {flowCount : Nat} {root : Directory} {manifest : Manifest}
    (h : final.writeManifest codec metadata flowCount = .ok (root, manifest))
    (hcount : flowCount = flows.length) : ManifestWritten codec flows final root manifest := by
  simp [Staged.writeManifest] at h
  obtain ⟨⟨habsent, -⟩, rfl, rfl⟩ := h
  refine ⟨by simp, ?_, habsent, rfl, rfl, rfl, hcount, rfl⟩
  intro name hname
  simp [hname]

section Published

variable {codec : Codec} {limits : StoreLimits} {flows : List Flow} {final : Staged}
  {root : Directory} {manifest : Manifest}

theorem ManifestWritten.extension_file (hwritten : ManifestWritten codec flows final root manifest)
    (hsound : Sound limits flows final) {extension : ExtensionDescriptor}
    (hmem : extension ∈ final.extensions) :
    root.files extension.path = final.directory.files extension.path := by
  apply hwritten.other
  intro heq
  obtain ⟨bytes, hbytes, -⟩ := (hsound.extension extension hmem).file
  rw [heq, hwritten.absent] at hbytes
  simp at hbytes

/-- The extension loop over the published files asks for readable content. -/
theorem open_extensions_iff (hwritten : ManifestWritten codec flows final root manifest)
    (hsound : Sound limits flows final)
    (hfixture : validateWebsocketFixture codec root final.extensions limits.maxLineBytes
      limits.maxBlobBytes = .ok ()) :
    validateExtensions codec root final.extensions = .ok () ↔
      ∀ entry ∈ final.extensions, ExtensionReadable codec final.directory entry := by
  have hfile : ∀ entry ∈ final.extensions,
      root.files entry.path = final.directory.files entry.path :=
    fun entry hentry => hwritten.extension_file hsound hentry
  have hsoundRoot : ∀ entry ∈ final.extensions, ExtensionSound root entry :=
    fun entry hentry => (hsound.extension entry hentry).congr (hfile entry hentry)
  have hregistered : registeredBytes root final.extensions ≤ maxTotalExtensionBytes := by
    rw [registeredBytes_congr hfile]
    exact hsound.extensionTotal
  have hloop := @checkExtensions_eq_ok codec root {} final.extensions hsoundRoot
    hsound.names hsound.paths (by simp) (by simpa using hregistered)
  have hvalidate : validateExtensions codec root final.extensions = .ok () ↔
      ∃ state, checkFold (checkExtension codec root) {} final.extensions = .ok state := by
    simp [validateExtensions, hsound.extensionCount]
  rw [hvalidate, hloop]
  refine forall₂_congr fun entry hentry => ?_
  obtain ⟨bytes, hbytes, -⟩ := (hsoundRoot entry hentry).file
  have hcontent := checkExtensionContent_eq_ok hbytes fun hname =>
    fixture_websocket_content hsound.names hentry hname hbytes hfixture
  have hreadable : ExtensionReadable codec root entry ↔
      ExtensionReadable codec final.directory entry := by
    have hsame := hfile entry hentry
    constructor <;> rintro ⟨hknown, hrules, hevents⟩
    · exact ⟨hknown, by rw [← hsame]; exact hrules, by rw [← hsame]; exact hevents⟩
    · exact ⟨hknown, by rw [hsame]; exact hrules, by rw [hsame]; exact hevents⟩
  rw [← hreadable, ← hcontent]
  constructor
  · exact fun h => h bytes hbytes
  · intro h other hother
    rw [hbytes] at hother
    rw [← Option.some.inj hother, h]

/-- The iterator over the published log yields the flows. -/
theorem published_items (hsound : Sound limits flows final) (hflows : DecodesFlows codec flows)
    (hfixture : validateWebsocketFixture codec final.directory final.extensions
      limits.maxLineBytes limits.maxBlobBytes = .ok ()) :
    (FlowIter.mk (written newline (flows.map Flow.encode)) limits 0).items codec =
      flows.map .ok := by
  rw [FlowIter.items, records_log]
  exact flowItems_lines hflows hsound.valid (fixture_lines_bound hsound.log hfixture)
    (by simpa using hsound.countBound)

/-- What the reader still asks of a directory that passed the checks before the
rename: distinct ids, intact blobs, readable extensions and agreeing timelines. -/
theorem open_iff (hwritten : ManifestWritten codec flows final root manifest)
    (hsound : Sound limits flows final) (hflows : DecodesFlows codec flows)
    (hmanifest : codec.decodeManifest (codec.encodeManifest manifest ++ [newline]) =
      .ok manifest)
    (hschema : supportedSchema manifest.metadata.schemaVersion)
    (hversion : final.extensions ≠ [] →
      manifest.metadata.schemaVersion = sessionSchemaVersion)
    (hfixture : validateWebsocketFixture codec final.directory final.extensions
      limits.maxLineBytes limits.maxBlobBytes = .ok ()) :
    (∃ session, Session.open codec root limits = .ok session) ↔
      (∀ entry ∈ final.extensions, ExtensionReadable codec final.directory entry) ∧
      (flowIds flows).Nodup ∧
      (∀ flow ∈ flows, validateBodyFiles codec final.directory flow limits = .ok ()) ∧
      checkTimelines codec root final.extensions (flows.map lengthEntry).reverse = .ok () := by
  have hfixtureRoot : validateWebsocketFixture codec root final.extensions limits.maxLineBytes
      limits.maxBlobBytes = .ok () := by
    rw [validateWebsocketFixture_congr codec _ _ _ hwritten.other hwritten.blobs, hfixture]
  have hlog : root.files flowLog = some (written newline (flows.map Flow.encode)) := by
    rw [hwritten.other flowLog (by decide), hsound.log]
  have hmessages : (manifest.extensions.any fun e => e.name == "websocket-messages") = true →
      manifest.metadata.schemaVersion = sessionSchemaVersion := by
    rintro hany
    apply hversion
    rintro hempty
    rw [hwritten.extensions, hempty] at hany
    simp at hany
  have hflowLoop := fun next => @openFlows_eq_ok codec root limits {} next flows
    (by simpa [← hsound.total] using hsound.totalBound.1)
    (by simpa [← hsound.total] using hsound.totalBound.2)
  have hopen : (∃ session, Session.open codec root limits = .ok session) ↔
      validateExtensions codec root final.extensions = .ok () ∧
      ∃ totals, checkFold (openFlow codec root limits) {} (flows.map .ok) = .ok totals ∧
        totals.count = flows.length ∧
        checkTimelines codec root final.extensions totals.responseLengths = .ok () := by
    unfold Session.open
    rw [readFile_eq_ok.mpr hwritten.file, ok_bind, hmanifest]
    show (∃ session, (Except.ok manifest >>= _) = Except.ok session) ↔ _
    rw [ok_bind, ensure_of_true hschema, ok_bind, ensure_of_true hwritten.complete,
      ok_bind, ensure_of_true hmessages, ok_bind]
    simp [hwritten.extensions, Session.iterFlows, readFile_eq_ok.mpr hlog,
      published_items hsound hflows hfixture, hwritten.flowCount, hfixtureRoot,
      hwritten.blobCount]
  have hbodies : (∀ flow ∈ flows, validateBodyFiles codec root flow limits = .ok ()) ↔
      ∀ flow ∈ flows, validateBodyFiles codec final.directory flow limits = .ok () := by
    refine forall₂_congr fun flow _ => ?_
    rw [validateBodyFiles_congr codec fun _ => blob?_congr hwritten.blobs _]
  rw [hopen, open_extensions_iff hwritten hsound hfixtureRoot, ← hbodies]
  refine and_congr_right fun _ => ?_
  constructor
  · rintro ⟨totals, hloop, -, htimelines⟩
    obtain ⟨⟨hids, -, hblobs⟩, rfl⟩ := (hflowLoop totals).mp hloop
    exact ⟨hids, hblobs, by simpa using htimelines⟩
  · rintro ⟨hids, hblobs, htimelines⟩
    exact ⟨_, (hflowLoop _).mpr ⟨⟨hids, by simp, hblobs⟩, rfl⟩, by simp,
      by simpa using htimelines⟩

theorem timelinesFound_root (hwritten : ManifestWritten codec flows final root manifest)
    (hsound : Sound limits flows final) {timelines : List FlowStreamEvents}
    (h : TimelinesFound codec final.directory final.extensions timelines) :
    TimelinesFound codec root final.extensions timelines := by
  rcases h with hnone | ⟨extension, bytes, events, hsome, hbytes, hrest⟩
  · exact .inl hnone
  · rw [← hwritten.extension_file hsound (findExtension_mem hsome).1] at hbytes
    exact .inr ⟨extension, bytes, events, hsome, hbytes, hrest⟩

end Published

theorem completes_blobs {staged middle final : Staged}
    (hstream : AddsStreamEvents staged middle) (htranscript : AddsTranscript middle final) :
    final.directory.blobs = staged.directory.blobs := by
  have hmiddle : middle.directory.blobs = staged.directory.blobs := by
    rcases hstream with ⟨-, rfl⟩ | ⟨-, -, hr⟩
    · rfl
    · exact hr.blobs_eq
  rcases htranscript with rfl | ⟨bytes, hr⟩
  · exact hmiddle
  · exact hr.blobs_eq.trans hmiddle

/-- A reader accepts a completed staging directory exactly when it is publishable. -/
theorem open_iff_publishable {codec : Codec} {limits : StoreLimits} {flows : List Flow}
    {staged : Staged} {root : Directory} {manifest : Manifest}
    (hsound : Sound limits flows staged) (hcomplete : Completes codec limits staged root manifest)
    (hflows : DecodesFlows codec flows)
    (hmanifest : codec.decodeManifest (codec.encodeManifest manifest ++ [newline]) =
      .ok manifest)
    (hdecode : staged.streamEvents.flows ≠ [] →
      codec.decodeStreamEvents staged.streamEvents.encode = .ok staged.streamEvents) :
    (∃ session, Session.open codec root limits = .ok session) ↔
      Publishable codec limits flows staged := by
  obtain ⟨middle, final, hstream, htranscript, hfixture, hwrite, hversion⟩ := hcomplete.stages
  have hfinal : Sound limits flows final := htranscript.sound (hstream.sound hsound)
  have hwritten := writeManifest_eq_ok hwrite hsound.count
  have hbodies : (∀ flow ∈ flows, validateBodyFiles codec final.directory flow limits = .ok ()) ↔
      ∀ flow ∈ flows, validateBodyFiles codec staged.directory flow limits = .ok () := by
    refine forall₂_congr fun flow _ => ?_
    rw [validateBodyFiles_congr codec fun _ => blob?_congr (completes_blobs hstream htranscript) _]
  have htimelines : ∀ (_ : ∀ entry ∈ staged.extensions,
        ExtensionReadable codec staged.directory entry) (_ : (flowIds flows).Nodup),
      checkTimelines codec root final.extensions (flows.map lengthEntry).reverse = .ok () ↔
        ∀ events ∈ publishedTimelines codec staged, TimelineAgrees flows events := by
    intro hreadable hids
    have hfound := completes_timelines hsound hdecode hreadable hstream htranscript
    exact checkTimelines_of_lengths hids (timelinesFound_root hwritten hfinal hfound)
  rw [open_iff hwritten hfinal hflows hmanifest hcomplete.schema hversion hfixture,
    completes_readable hdecode hstream htranscript, hbodies]
  constructor
  · rintro ⟨hreadable, hids, hblobs, hchecked⟩
    exact ⟨hids, hblobs, hreadable, (htimelines hreadable hids).mp hchecked⟩
  · rintro ⟨hids, hblobs, hreadable, hagree⟩
    exact ⟨hreadable, hids, hblobs, (htimelines hreadable hids).mpr hagree⟩

end EggReplay.Store.Publication
