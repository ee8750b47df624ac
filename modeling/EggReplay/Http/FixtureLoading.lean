import EggReplay.Core.ConversationRules
import EggReplay.Core.Matching
import EggReplay.Core.ScenarioSteps
import EggReplay.Http.TiledTimelines

/-!
Loading a fixture for replay: the required extensions, the candidates, the timelines and the
WebSocket conversations. Of a session that opened, loading has only to check which extensions
are required and whether the timing mode finds its metadata.
-/

namespace EggReplay.Http.FixtureLoading

open EggReplay.Library.Checks
open EggReplay.Core.FlowRecord
open EggReplay.Core.Matching
open EggReplay.Core.StreamTimeline
open EggReplay.Core.WebSockets
open EggReplay.Core.ConversationRules
open EggReplay.Core.ScenarioSteps
open EggReplay.Store.Fixture
open EggReplay.Store.SessionOpen
open EggReplay.Store.Copies
open EggReplay.Store.CopyPreserves
open EggReplay.Store.Publication
open EggReplay.Store.OpenedSessions
open EggReplay.Http.TiledTimelines

inductive ReplayError where
  | store (error : StoreError)
  | state (message : String)
  deriving DecidableEq, Repr

def ReplayError.display : ReplayError → String
  | .store error => "fixture: " ++ error.display
  | .state message => "replay state: " ++ message

/-- A timeline or a conversation is found by the id of its flow. -/
structure ReplayState where
  candidates : List MatchCandidate
  candidateInAppend : List Bool
  matcher : Matcher
  session : MatcherSession
  store : Session
  scenario : Option ScenarioRuntime
  streamEvents : List FlowStreamEvents
  timingMode : StreamTimingMode
  websockets : List WebSocketConversation

def isImmediate : StreamTimingMode → Bool
  | .immediate => true
  | .recorded | .scaled _ => false

/-- The name is printed as `{:?}` prints one of lowercase letters, digits and hyphens. -/
def checkRequired (websocketFeature scenario : Bool) (extension : ExtensionDescriptor) :
    Except ReplayError Unit :=
  if extension.requiredForReplay = false then pure ()
  else if extension.name = "rules" ∧ scenario = true then pure ()
  else if extension.name = "stream-events" ∨ extension.name = "websocket-messages" then
    ensure (extension.name = "websocket-messages" → websocketFeature = true)
      (.state "required extension \"websocket-messages\" needs the websocket feature")
  else .error (.state ("required extension \"" ++ extension.name ++ "\" is not enabled"))

def loadCandidates (codec : Codec) (session : Session) :
    Except ReplayError (List MatchCandidate) := do
  let items ← (Session.flowItems codec session).mapError .store
  items.mapM fun item => (item.map MatchCandidate.fromFlow).mapError .store

/-- `HashMap::insert` of an entry whose key must be new. -/
def insertNew {α : Type} (key : α → String) (duplicate : ReplayError) (kept : List α) (entry : α) :
    Except ReplayError (List α) := do
  ensure (key entry ∉ kept.map key) duplicate
  pure (kept ++ [entry])

def loadStreamEvents (codec : Codec) (session : Session) (timing : StreamTimingMode) :
    Except ReplayError (List FlowStreamEvents) := do
  let extension ← (Session.readExtension session "stream-events").mapError .store
  match extension with
  | some bytes => do
      let decoded ← (codec.decodeStreamEvents bytes).mapError fun error =>
        .state ("invalid stream-events extension: " ++ error)
      decoded.validate.mapError .state
      checkFold (insertNew FlowStreamEvents.flowId (.state "duplicate stream event flow id")) []
        decoded.flows
  | none => do
      ensure (isImmediate timing = true)
        (.state "timed replay requires a stream-events extension")
      pure []

def timelineOf (timelines : List FlowStreamEvents) (id : String) : Option FlowStreamEvents :=
  timelines.find? fun timeline => timeline.flowId = id

def checkByteCount (timelines : List FlowStreamEvents) (candidate : MatchCandidate) :
    Except ReplayError Unit :=
  match timelineOf timelines candidate.flow.id with
  | some timeline =>
      ensure (dataLength timeline.response = candidate.flow.outcome.responseLength)
        (.state ("stream event byte count disagrees with flow " ++ candidate.flow.id ++
          " response body"))
  | none => pure ()

def loadWebsockets (codec : Codec) (session : Session) :
    Except ReplayError (List WebSocketConversation) := do
  let extension ← (Session.readExtension session "websocket-messages").mapError .store
  match extension with
  | some bytes => do
      let transcript ← (codec.decodeTranscript bytes).mapError fun error =>
        .state ("invalid websocket-messages extension: " ++ error)
      (transcript.validate WebSocketLimits.default).mapError .state
      checkFold (insertNew WebSocketConversation.flowId (.state "duplicate WebSocket flow id")) []
        transcript.conversations
  | none => pure []

/-- A response that timed replay would have no metadata for. -/
def untimed (timelines : List FlowStreamEvents) (candidate : MatchCandidate) : Bool :=
  match candidate.flow.outcome with
  | .response reply =>
      match reply.body with
      | .absent | .empty => false
      | .blob _ => (timelineOf timelines candidate.flow.id).isNone
  | .error _ => false

def loadInner (codec : Codec) (websocketFeature : Bool) (session : Session) (matcher : Matcher)
    (scenario : Option ScenarioRuntime) (timing : StreamTimingMode) :
    Except ReplayError ReplayState := do
  checkAll (checkRequired websocketFeature scenario.isSome) session.manifest.extensions
  let candidates ← loadCandidates codec session
  let streamEvents ← loadStreamEvents codec session timing
  checkAll (checkByteCount streamEvents) candidates
  let websockets ← loadWebsockets codec session
  ensure (isImmediate timing = true ∨ candidates.any (untimed streamEvents) = false)
    (.state "timed replay is missing response event metadata")
  pure
    { candidates, candidateInAppend := List.replicate session.manifest.flowCount false, matcher,
      session := .new, store := session, scenario, streamEvents, timingMode := timing,
      websockets }

/-! ### What an opened session has settled -/

section

variable {codec : Codec} {session : Session} {flows : List Flow}

theorem checkFold_insertNew {α : Type} {key : α → String} {duplicate : ReplayError}
    {kept entries : List α} (h : ((kept ++ entries).map key).Nodup) :
    checkFold (insertNew key duplicate) kept entries = .ok (kept ++ entries) := by
  induction entries generalizing kept with
  | nil => rw [checkFold_nil, List.append_nil]
  | cons entry rest ih =>
      have hnew : key entry ∉ kept.map key := by
        rw [List.map_append, List.map_cons, List.nodup_append] at h
        exact fun hmem => h.2.2 _ hmem _ List.mem_cons_self rfl
      have hsplit : kept ++ entry :: rest = kept ++ [entry] ++ rest := by
        rw [List.append_assoc, List.singleton_append]
      rw [hsplit] at h ⊢
      rw [checkFold_cons, insertNew, ensure_of_true hnew, ok_bind]
      exact ih h

theorem flowIds_of_validated {totals next : SessionTotals} {timelines : List FlowStreamEvents}
    (h : checkFold validateFlowEvents totals timelines = .ok next) :
    (timelines.map FlowStreamEvents.flowId).Nodup ∧
      ∀ timeline ∈ timelines, timeline.flowId ∉ totals.ids := by
  induction timelines generalizing totals with
  | nil => exact ⟨List.nodup_nil, by simp⟩
  | cons timeline rest ih =>
      rw [checkFold_cons, bind_eq_ok] at h
      obtain ⟨after, hstep, hrest⟩ := h
      obtain ⟨⟨-, -, hnew⟩, -, -, -, -, rfl⟩ := validateFlowEvents_eq_ok.mp hstep
      obtain ⟨hnodup, hfresh⟩ := ih hrest
      simp only [List.mem_cons, not_or] at hfresh
      refine ⟨?_, ?_⟩
      · rw [List.map_cons, List.nodup_cons]
        refine ⟨?_, hnodup⟩
        intro hmem
        obtain ⟨other, hother, hsame⟩ := List.mem_map.mp hmem
        exact (hfresh other hother).1 hsame
      · intro other hother
        rcases List.mem_cons.mp hother with rfl | hother
        · exact hnew
        · exact (hfresh other hother).2

theorem flowIds_of_transcript {limits : WebSocketLimits} {transcript : WebSocketTranscript}
    (h : transcript.validate limits = .ok ()) :
    (transcript.conversations.map WebSocketConversation.flowId).Nodup := by
  obtain ⟨-, -, hfold⟩ := transcript_validate_eq_ok.mp h
  exact ((checkFold_validateConversation (Nat.zero_le _) (Nat.zero_le _)).mp hfold).flowIds

theorem loadCandidates_opened (h : Opened codec session flows) :
    loadCandidates codec session = .ok (flows.map MatchCandidate.fromFlow) := by
  rw [loadCandidates, h.items]
  show (flows.map Except.ok).mapM _ = _
  rw [mapM_eq_ok, List.forall₂_map_left_iff, List.forall₂_map_right_iff, List.forall₂_same]
  exact fun flow _ => rfl

/-- The documents of the extensions that replay reads, empty where there is none. -/
structure Documents (codec : Codec) (session : Session) (timelines : List FlowStreamEvents)
    (conversations : List WebSocketConversation) : Prop where
  streams : (findExtension session.manifest.extensions "stream-events" = none ∧ timelines = []) ∨
    ∃ bytes document, Session.readExtension session "stream-events" = .ok (some bytes) ∧
      codec.decodeStreamEvents bytes = .ok document ∧ document.flows = timelines
  websockets : (findExtension session.manifest.extensions "websocket-messages" = none ∧
      conversations = []) ∨
    ∃ bytes transcript, Session.readExtension session "websocket-messages" = .ok (some bytes) ∧
      codec.decodeTranscript bytes = .ok transcript ∧ transcript.conversations = conversations

theorem readExtension_none {name : String}
    (h : findExtension session.manifest.extensions name = none) :
    Session.readExtension session name = .ok none := by
  rw [Session.readExtension, h]
  rfl

/-- A present extension is read, and its content was accepted. -/
theorem readExtension_found (h : Opened codec session flows) {name : String}
    {extension : ExtensionDescriptor}
    (hfind : findExtension session.manifest.extensions name = some extension) :
    ∃ bytes, Session.readExtension session name = .ok (some bytes) ∧ extension.name = name ∧
      checkExtensionContent codec extension bytes = .ok () := by
  have hname : extension.name = name := by simpa using List.find?_some hfind
  have hmem := List.mem_of_find?_eq_some hfind
  obtain ⟨bytes, hbytes, -, hcontent⟩ := Opened.payload_file h hmem
  refine ⟨bytes, ?_, hname, hcontent⟩
  have hread := Opened.readExtension h hmem
  rw [hbytes, hname] at hread
  exact hread

theorem exists_documents (h : Opened codec session flows) :
    ∃ timelines conversations, Documents codec session timelines conversations := by
  have hstreams : ∃ timelines, (findExtension session.manifest.extensions "stream-events" = none ∧
      timelines = []) ∨ ∃ bytes document,
      Session.readExtension session "stream-events" = .ok (some bytes) ∧
      codec.decodeStreamEvents bytes = .ok document ∧ document.flows = timelines := by
    rcases hfind : findExtension session.manifest.extensions "stream-events" with _ | extension
    · exact ⟨[], .inl ⟨rfl, rfl⟩⟩
    · obtain ⟨bytes, hread, hname, hcontent⟩ := readExtension_found h hfind
      simp only [checkExtensionContent, bind_eq_ok, ensure_eq_ok, checkWhen_eq_ok] at hcontent
      obtain ⟨_, -, _, -, _, hstream, -⟩ := hcontent
      have hchecked := hstream hname
      simp only [checkStreamEvents, bind_eq_ok, ensure_eq_ok, mapError_eq_ok] at hchecked
      obtain ⟨_, -, document, hdecoded, -⟩ := hchecked
      exact ⟨document.flows, .inr ⟨bytes, document, hread, hdecoded, rfl⟩⟩
  have hwebsockets : ∃ conversations,
      (findExtension session.manifest.extensions "websocket-messages" = none ∧
      conversations = []) ∨ ∃ bytes transcript,
      Session.readExtension session "websocket-messages" = .ok (some bytes) ∧
      codec.decodeTranscript bytes = .ok transcript ∧
      transcript.conversations = conversations := by
    rcases hfind : findExtension session.manifest.extensions "websocket-messages" with
      _ | extension
    · exact ⟨[], .inl ⟨rfl, rfl⟩⟩
    · obtain ⟨bytes, hread, hname, hcontent⟩ := readExtension_found h hfind
      simp only [checkExtensionContent, bind_eq_ok, ensure_eq_ok, checkWhen_eq_ok] at hcontent
      obtain ⟨_, -, _, -, _, -, hmessages⟩ := hcontent
      have hchecked := hmessages hname
      simp only [checkWebsocketMessages, bind_eq_ok, ensure_eq_ok, mapError_eq_ok] at hchecked
      obtain ⟨_, -, _, -, transcript, hdecoded, -⟩ := hchecked
      exact ⟨transcript.conversations, .inr ⟨bytes, transcript, hread, hdecoded, rfl⟩⟩
  obtain ⟨timelines, hstreams⟩ := hstreams
  obtain ⟨conversations, hwebsockets⟩ := hwebsockets
  exact ⟨timelines, conversations, hstreams, hwebsockets⟩

/-- Loading the timelines fails only where a timing mode has none to follow. -/
theorem loadStreamEvents_opened (hopened : Opened codec session flows)
    {timelines : List FlowStreamEvents} {conversations : List WebSocketConversation}
    (h : Documents codec session timelines conversations) {timing : StreamTimingMode}
    {loaded : List FlowStreamEvents} :
    loadStreamEvents codec session timing = .ok loaded ↔
      (isImmediate timing = true ∨
        (findExtension session.manifest.extensions "stream-events").isSome = true) ∧
      timelines = loaded := by
  rcases h.streams with ⟨hnone, rfl⟩ | ⟨bytes, document, hread, hdecode, rfl⟩
  · rw [loadStreamEvents, readExtension_none hnone, hnone]
    show (ensure (isImmediate timing = true) _ >>= fun _ => pure []) = _ ↔ _
    simp only [↓bind_unit_eq_ok, ensure_eq_ok, pure_eq_ok, Option.isSome_none, Bool.false_eq_true,
      or_false]
  · have hfind : (findExtension session.manifest.extensions "stream-events").isSome = true := by
      rcases hfound : findExtension session.manifest.extensions "stream-events" with _ | extension
      · rw [readExtension_none hfound] at hread
        cases hread
      · rfl
    obtain ⟨extension, hextension⟩ := Option.isSome_iff_exists.mp hfind
    obtain ⟨stored, hstored, hname, hcontent⟩ := readExtension_found hopened hextension
    obtain rfl := Option.some.inj (Except.ok.inj (hread.symm.trans hstored))
    simp only [checkExtensionContent, bind_eq_ok, ensure_eq_ok, checkWhen_eq_ok] at hcontent
    obtain ⟨_, -, _, -, _, hstream, -⟩ := hcontent
    have hchecked := hstream hname
    simp only [checkStreamEvents, bind_eq_ok, ensure_eq_ok, mapError_eq_ok] at hchecked
    obtain ⟨_, -, other, hother, hvalid⟩ := hchecked
    obtain rfl := Except.ok.inj (hdecode.symm.trans hother)
    obtain ⟨-, -, totals, hfold⟩ := streamEvents_validate_eq_ok.mp hvalid
    have hnew : ((([] : List FlowStreamEvents) ++ document.flows).map
        FlowStreamEvents.flowId).Nodup := (flowIds_of_validated hfold).1
    have hmapped : (codec.decodeStreamEvents bytes).mapError (fun error =>
        ReplayError.state ("invalid stream-events extension: " ++ error)) = .ok document := by
      rw [hdecode]
      rfl
    have haccepted : document.validate.mapError ReplayError.state = .ok () := by
      rw [hvalid]
      rfl
    rw [loadStreamEvents, hread]
    show ((codec.decodeStreamEvents bytes).mapError _ >>= fun decoded => _) = _ ↔ _
    rw [hmapped, ok_bind, haccepted, ok_bind, checkFold_insertNew hnew, hfind, List.nil_append]
    simp only [Except.ok.injEq, or_true, true_and]

theorem loadWebsockets_opened (hopened : Opened codec session flows)
    {timelines : List FlowStreamEvents} {conversations : List WebSocketConversation}
    (h : Documents codec session timelines conversations) :
    loadWebsockets codec session = .ok conversations := by
  rcases h.websockets with ⟨hnone, rfl⟩ | ⟨bytes, transcript, hread, hdecode, rfl⟩
  · rw [loadWebsockets, readExtension_none hnone]
    rfl
  · obtain ⟨extension, hextension⟩ : ∃ extension,
        findExtension session.manifest.extensions "websocket-messages" = some extension := by
      rcases hfound : findExtension session.manifest.extensions "websocket-messages" with
        _ | extension
      · rw [readExtension_none hfound] at hread
        cases hread
      · exact ⟨extension, rfl⟩
    obtain ⟨stored, hstored, hname, hcontent⟩ := readExtension_found hopened hextension
    obtain rfl := Option.some.inj (Except.ok.inj (hread.symm.trans hstored))
    simp only [checkExtensionContent, bind_eq_ok, ensure_eq_ok, checkWhen_eq_ok] at hcontent
    obtain ⟨_, -, _, -, _, -, hmessages⟩ := hcontent
    have hchecked := hmessages hname
    simp only [checkWebsocketMessages, bind_eq_ok, ensure_eq_ok, mapError_eq_ok] at hchecked
    obtain ⟨_, -, _, -, other, hother, hvalid⟩ := hchecked
    obtain rfl := Except.ok.inj (hdecode.symm.trans hother)
    have hnew : ((([] : List WebSocketConversation) ++ transcript.conversations).map
        WebSocketConversation.flowId).Nodup := flowIds_of_transcript hvalid
    have hmapped : (codec.decodeTranscript bytes).mapError (fun error =>
        ReplayError.state ("invalid websocket-messages extension: " ++ error)) =
          .ok transcript := by
      rw [hdecode]
      rfl
    have haccepted : (transcript.validate WebSocketLimits.default).mapError ReplayError.state =
        .ok () := by
      rw [hvalid]
      rfl
    rw [loadWebsockets, hread]
    show ((codec.decodeTranscript bytes).mapError _ >>= fun transcript => _) = _
    rw [hmapped, ok_bind, haccepted, ok_bind, checkFold_insertNew hnew, List.nil_append]

theorem mem_of_timelineOf {timelines : List FlowStreamEvents} {id : String}
    {timeline : FlowStreamEvents} (h : timelineOf timelines id = some timeline) :
    timeline ∈ timelines ∧ timeline.flowId = id :=
  ⟨List.mem_of_find?_eq_some h, by simpa using List.find?_some h⟩

/-- The reader has already compared every timeline with its body. -/
theorem checkByteCounts_opened {root : Directory} {limits : StoreLimits}
    (hopen : Session.open codec root limits = .ok session) (hopened : Opened codec session flows)
    {timelines : List FlowStreamEvents} {conversations : List WebSocketConversation}
    (h : Documents codec session timelines conversations) :
    checkAll (checkByteCount timelines) (flows.map MatchCandidate.fromFlow) = .ok () := by
  rw [checkAll_eq_ok]
  intro candidate hcandidate
  obtain ⟨flow, hflow, rfl⟩ := List.mem_map.mp hcandidate
  rw [checkByteCount]
  rcases hfind : timelineOf timelines (MatchCandidate.fromFlow flow).flow.id with _ | timeline
  · rfl
  · obtain ⟨hmem, hid⟩ := mem_of_timelineOf hfind
    rcases h.streams with ⟨-, rfl⟩ | ⟨bytes, document, hread, hdecode, rfl⟩
    · exact absurd hmem List.not_mem_nil
    · have hagrees := Timed.agrees hopen ⟨hopened.items, bytes, hread, hdecode⟩
      obtain ⟨named, hnamed, hsame, hlength⟩ := hagrees.2.2 timeline hmem
      have hflows : named = flow :=
        List.inj_on_of_nodup_map hagrees.2.1 hnamed hflow (hsame.trans hid)
      rw [hflows] at hlength
      exact ensure_of_true hlength.symm

/-- Every required extension is one that this replay applies. -/
def Enabled (websocketFeature scenario : Bool) (extensions : List ExtensionDescriptor) : Prop :=
  ∀ extension ∈ extensions, extension.requiredForReplay = true →
    (extension.name = "rules" ∧ scenario = true) ∨ extension.name = "stream-events" ∨
      (extension.name = "websocket-messages" ∧ websocketFeature = true)

theorem checkRequired_eq_ok {websocketFeature scenario : Bool} {extension : ExtensionDescriptor} :
    checkRequired websocketFeature scenario extension = .ok () ↔
      (extension.requiredForReplay = true →
        (extension.name = "rules" ∧ scenario = true) ∨ extension.name = "stream-events" ∨
          (extension.name = "websocket-messages" ∧ websocketFeature = true)) := by
  rw [checkRequired]
  cases extension.requiredForReplay with
  | false => exact ⟨fun _ => (by rintro ⟨⟩), fun _ => rfl⟩
  | true =>
      have hrequired : ∀ p : Prop, (true = true → p) ↔ p :=
        fun p => ⟨fun h => h rfl, fun h _ => h⟩
      rw [if_neg (by decide), hrequired]
      by_cases hrules : extension.name = "rules" ∧ scenario = true
      · rw [if_pos hrules]
        exact ⟨fun _ => .inl hrules, fun _ => rfl⟩
      · rw [if_neg hrules, or_iff_right hrules]
        by_cases hstream : extension.name = "stream-events"
        · have hnot : extension.name ≠ "websocket-messages" := by
            rw [hstream]
            decide
          rw [if_pos (.inl hstream), ensure_eq_ok]
          exact ⟨fun _ => .inl hstream, fun _ h => absurd h hnot⟩
        · by_cases hmessages : extension.name = "websocket-messages"
          · rw [if_pos (.inr hmessages), ensure_eq_ok, or_iff_right hstream]
            exact ⟨fun h => ⟨hmessages, h hmessages⟩, fun h _ => h.2⟩
          · rw [if_neg fun h => h.elim hstream hmessages, or_iff_right hstream]
            exact ⟨(by rintro ⟨⟩), fun h => absurd h.1 hmessages⟩

/-- A timing mode that delays finds a timeline for every response that has a body. -/
def TimingReady (timing : StreamTimingMode) (extensions : List ExtensionDescriptor)
    (flows : List Flow) (timelines : List FlowStreamEvents) : Prop :=
  isImmediate timing = true ∨ ((findExtension extensions "stream-events").isSome = true ∧
    ∀ flow ∈ flows, ∀ reply blob, flow.outcome = .response reply → reply.body = .blob blob →
      ∃ timeline ∈ timelines, timeline.flowId = flow.id)

theorem timelineOf_isSome {timelines : List FlowStreamEvents} {id : String} :
    (timelineOf timelines id).isSome = true ↔ ∃ timeline ∈ timelines, timeline.flowId = id := by
  rw [timelineOf, List.find?_isSome]
  simp only [decide_eq_true_eq]

theorem untimed_eq_false {timelines : List FlowStreamEvents} {flow : Flow} :
    untimed timelines (.fromFlow flow) = false ↔
      ∀ reply blob, flow.outcome = .response reply → reply.body = .blob blob →
        ∃ timeline ∈ timelines, timeline.flowId = flow.id := by
  have hcandidate : (MatchCandidate.fromFlow flow).flow = flow := rfl
  rw [untimed, hcandidate]
  rcases hreply : flow.outcome with reply | error
  · dsimp only
    rcases hbody : reply.body with _ | _ | blob
    · refine ⟨fun _ other blob h hblob => ?_, fun _ => rfl⟩
      obtain rfl := FlowOutcome.response.inj h
      rw [hbody] at hblob
      cases hblob
    · refine ⟨fun _ other blob h hblob => ?_, fun _ => rfl⟩
      obtain rfl := FlowOutcome.response.inj h
      rw [hbody] at hblob
      cases hblob
    · dsimp only
      rw [Option.isNone_eq_false_iff, timelineOf_isSome]
      exact ⟨fun h _ _ _ _ => h, fun h => h reply blob rfl hbody⟩
  · exact ⟨fun _ _ _ h => (by cases h), fun _ => rfl⟩

/-- A session that opened loads for replay exactly where its required extensions are enabled and
a timing mode that delays has its timelines. Its flows become the candidates in their order, and
the replay starts with its own timelines and conversations and nothing consumed. -/
theorem load_opened {root : Directory} {limits : StoreLimits}
    (hopen : Session.open codec root limits = .ok session) (websocketFeature : Bool)
    (matcher : Matcher) (scenario : Option ScenarioRuntime) (timing : StreamTimingMode) :
    ∃ flows timelines conversations,
      Session.flowItems codec session = .ok (flows.map .ok) ∧
      Documents codec session timelines conversations ∧
      ∀ state, loadInner codec websocketFeature session matcher scenario timing = .ok state ↔
        Enabled websocketFeature scenario.isSome session.manifest.extensions ∧
        TimingReady timing session.manifest.extensions flows timelines ∧
        state =
          { candidates := flows.map MatchCandidate.fromFlow
            candidateInAppend := List.replicate flows.length false
            matcher, session := .new, store := session, scenario, streamEvents := timelines,
            timingMode := timing, websockets := conversations } := by
  obtain ⟨-, -, -, -, flows, hopened⟩ := open_eq_ok hopen
  obtain ⟨timelines, conversations, hdocuments⟩ := exists_documents hopened
  refine ⟨flows, timelines, conversations, hopened.items, hdocuments, fun state => ?_⟩
  have hcounts := checkByteCounts_opened hopen hopened hdocuments
  have hready : ((isImmediate timing = true ∨
      (findExtension session.manifest.extensions "stream-events").isSome = true) ∧
      (isImmediate timing = true ∨
        (flows.map MatchCandidate.fromFlow).any (untimed timelines) = false)) ↔
      TimingReady timing session.manifest.extensions flows timelines := by
    rw [← or_and_left, TimingReady, List.any_eq_false]
    simp only [List.forall_mem_map, Bool.not_eq_true, untimed_eq_false]
  rw [loadInner]
  simp only [↓bind_unit_eq_ok, bind_eq_ok, checkAll_eq_ok, checkRequired_eq_ok,
    loadCandidates_opened hopened, Except.ok.injEq, loadStreamEvents_opened hopened hdocuments,
    loadWebsockets_opened hopened hdocuments, ensure_eq_ok, pure_eq_ok, hopened.flowCount]
  rw [← hready]
  constructor
  · rintro ⟨hrequired, _, rfl, _, ⟨hstreams, rfl⟩, -, _, rfl, htimed, rfl⟩
    exact ⟨hrequired, ⟨hstreams, htimed⟩, rfl⟩
  · rintro ⟨hrequired, ⟨hstreams, htimed⟩, rfl⟩
    exact ⟨hrequired, _, rfl, _, ⟨hstreams, rfl⟩, checkAll_eq_ok.mp hcounts, _, rfl, htimed, rfl⟩

end

/-- The response of the session has its timeline. -/
theorem byteSession_loads :
    ∃ state, loadInner byteCodec true byteSession (Matcher.strict 8) none .recorded = .ok state := by
  obtain ⟨flows, timelines, conversations, hitems, hdocuments, hload⟩ :=
    load_opened byteSession_opens true (Matcher.strict 8) none .recorded
  have hflows : flows = [byteFlow] :=
    List.map_injective_iff.mpr (fun _ _ => Except.ok.inj)
      (Except.ok.inj (hitems.symm.trans byteSession_timed.flows))
  obtain ⟨bytes, hread, hdecode⟩ := byteSession_timed.timelines
  have htimelines : timelines = (timelinesOf oneByte).flows := by
    rcases hdocuments.streams with ⟨hnone, -⟩ | ⟨other, document, hother, hdecoded, rfl⟩
    · rw [readExtension_none hnone] at hread
      cases hread
    · obtain rfl := Option.some.inj (Except.ok.inj (hread.symm.trans hother))
      rw [Except.ok.inj (hdecode.symm.trans hdecoded)]
  refine ⟨_, (hload _).mpr ⟨?_, .inr ⟨rfl, ?_⟩, rfl⟩⟩
  · intro extension hextension _
    obtain rfl := List.mem_singleton.mp hextension
    exact .inr (.inl rfl)
  · intro flow hflow _ _ _ _
    rw [hflows, List.mem_singleton] at hflow
    subst hflow
    rw [htimelines]
    exact ⟨_, List.mem_cons_self, rfl⟩

end EggReplay.Http.FixtureLoading
