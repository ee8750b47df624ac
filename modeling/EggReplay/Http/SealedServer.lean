import EggReplay.Core.Consumption
import EggReplay.Har.HarDocuments
import EggReplay.Http.AppendMiss
import EggReplay.Http.FixtureLoading
import EggReplay.Http.GatewayAnswers
import EggReplay.Http.ReplayedEnds
import EggReplay.Http.ScenarioFaults
import EggReplay.Library.Histories
import EggReplay.Library.LossyText

/-!
A replay server over a fixture that is not appended to. Its requests interleave between the two
sections that take the lock of the replay state: the step of the scenario and the selection. The
order of these sections is one in which the requests could have come one after another.
-/

namespace EggReplay.Http.SealedServer

open EggReplay.Library.Checks
open EggReplay.Library.Histories
open EggReplay.Library.LossyText
open EggReplay.Library.Text
open EggReplay.Library.TransitionSystem
open EggReplay.Core.BodyWildcards
open EggReplay.Core.Consumption
open EggReplay.Core.FlowRecord
open EggReplay.Core.Matching
open EggReplay.Core.Redaction
open EggReplay.Core.ScenarioSteps
open EggReplay.Core.StreamTimeline
open EggReplay.Core.WebSockets
open EggReplay.Store.Fixture
open EggReplay.Store.OpenedSessions
open EggReplay.Store.SessionOpen
open EggReplay.Har.HarDocuments
open EggReplay.Http.AppendMiss
open EggReplay.Http.FixtureLoading
open EggReplay.Http.GatewayAnswers
open EggReplay.Http.ReplayedEnds
open EggReplay.Http.ResponseRendering
open EggReplay.Http.ScenarioFaults
open EggReplay.Http.TiledTimelines

variable {N : Type}

/-! ### The requests -/

inductive HttpVersion where
  | http10
  | http11
  | http2
  deriving DecidableEq, Repr

structure RequestHead where
  version : HttpVersion
  method : String
  scheme : String
  authority : Option String
  path : String
  query : Option String
  headers : List (String × Bytes)

/-- A tunnel that is offered to the handler, and whether the transport takes it over. -/
structure Tunnel where
  isHttp1Upgrade : Bool
  protocol : Option String
  opens : Bool

/-- A request as the runtime hands it over. Its body fails to be read where it is cut off or
grows too long. -/
structure Incoming where
  head : RequestHead
  body : Except String (Bytes × List (String × Bytes))
  tunnel : Option Tunnel

/-- The first `content-length` that is a number. -/
def declaredBodyLength (head : RequestHead) : Option Nat :=
  head.headers.findSome? fun field =>
    if eqIgnoreAsciiCase field.1 "content-length" = true then do
      let raw ← decodeUtf8 field.2
      parseU64 (trim (String.ofList raw))
    else none

def headerEntry (field : String × Bytes) : HeaderEntry where
  name := field.1
  value := fromUtf8Lossy field.2

def isNamed (name : String) (header : HeaderEntry) : Bool := eqIgnoreAsciiCase header.name name

/-- A header of the name has the token in its list. -/
def listsToken (name token : String) (headers : List HeaderEntry) : Bool :=
  headers.any fun header =>
    isNamed name header &&
      (split header.value ',').any fun item => eqIgnoreAsciiCase (trim item) token

def websocketIntent (head : RequestHead) : Bool :=
  listsToken "upgrade" "websocket" (head.headers.map headerEntry)

def maxHandshakeHeaderCount : Nat := 128

def maxHandshakeHeaderBytes : Nat := 64 * 1024

/-- The bounds on the headers of a request. Lengths in memory do not overflow. -/
def validateWebsocketHandshakeHeaders (headers : List HeaderEntry) : Except String Unit := do
  ensure (headers.length ≤ maxHandshakeHeaderCount)
    "WebSocket handshake header count exceeds limit"
  ensure ((headers.map fun header =>
      header.name.utf8ByteSize + header.value.utf8ByteSize + 4).sum ≤ maxHandshakeHeaderBytes)
    "WebSocket handshake headers exceed byte limit"

def normalizeWebsocketHandshakeHeaders (headers : List HeaderEntry) : List HeaderEntry :=
  headers.filter fun header => !isNamed "sec-websocket-key" header

/-! ### The server -/

/-- What other packages do with a handshake and a query. -/
structure WebPackages where
  base64Decode : String → Option Bytes
  deriveAcceptKey : String → String
  parseQuery : String → List QueryPair

def validClientKey (packages : WebPackages) (key : String) : Bool :=
  (packages.base64Decode key).any fun decoded => decide (decoded.length = 16)

structure Server (N : Type) where
  codec : BodyCodec N
  checks : HttpChecks
  packages : WebPackages
  sha256 : Bytes → String
  limits : StoreLimits
  files : BlobFiles
  /-- `Session::read_blob` of the fixture. -/
  readBlob : BlobRef → Option Bytes
  websocketFeature : Bool
  maxBodyBytes : Nat

inductive Answer where
  | response (response : Response)
  | fault (response : FaultResponse)
  | upgraded (headers : List HeaderEntry) (conversation : WebSocketConversation)
  | failed (error : ServiceError)

def Answer.ofResponse : Except ServiceError Response → Answer
  | .ok built => .response built
  | .error error => .failed error

def Answer.ofFault : Except ServiceError FaultResponse → Answer
  | .ok built => .fault built
  | .error error => .failed error

def badHandshake : ServiceError := .rejected 400 "invalid WebSocket replay handshake"

def validHandshake (packages : WebPackages) (head : RequestHead) : Bool :=
  let fields := head.headers.map headerEntry
  let keys := (fields.filter (isNamed "sec-websocket-key")).map fun header =>
    validClientKey packages header.value
  let versions := (fields.filter (isNamed "sec-websocket-version")).map HeaderEntry.value
  decide (head.version = .http11) && decide (head.method = "GET") &&
    (validateWebsocketHandshakeHeaders fields).isOk && decide (keys = [true]) &&
    decide (versions = ["13"]) && listsToken "connection" "upgrade" fields &&
    listsToken "upgrade" "websocket" fields && !fields.any (isNamed "transfer-encoding") &&
    (fields.filter (isNamed "content-length")).all fun header =>
      decide (parseU64 header.value = some 0)

def eggserveHeader (field : String × Bytes) : HeaderEntry where
  name := toAsciiLowercase field.1
  value := fromUtf8Lossy field.2

def eggserveHeaders (headers : List (String × Bytes)) : List HeaderEntry :=
  (headers.filter fun field => !eqIgnoreAsciiCase field.1 "host").map eggserveHeader

/-- The request as it is matched. The handshake of a WebSocket is told by the whole value of a
header here. -/
def requestFromEggserve (packages : WebPackages) (head : RequestHead) (body : Bytes)
    (trailers : List (String × Bytes)) : HttpRequest :=
  let host := (head.headers.find? fun field => eqIgnoreAsciiCase field.1 "host").map fun field =>
    fromUtf8Lossy field.2
  let raw := eggserveHeaders head.headers
  let websocket := raw.any fun header =>
    isNamed "upgrade" header && eqIgnoreAsciiCase header.value "websocket"
  { method := head.method
    scheme := head.scheme
    authority := (head.authority <|> host).getD ""
    path := head.path
    query := (head.query.map packages.parseQuery).getD []
    headers := if websocket = true then normalizeWebsocketHandshakeHeaders raw else raw
    body := if body = [] then .empty else .absent
    trailers := trailers.map eggserveHeader }

/-- What comes before the lock is taken: the request is answered, or it is ready to be matched. -/
def Server.receive (server : Server N) (incoming : Incoming) : Except Answer Asked := do
  ensure ((declaredBodyLength incoming.head).all (· ≤ server.maxBodyBytes) = true)
    (.ofResponse (buildResponse server.checks 413 [] .empty))
  ensure (websocketIntent incoming.head = true → incoming.tunnel.isSome = true)
    (.failed badHandshake)
  if incoming.tunnel.isSome = true then
    ensure (server.websocketFeature = true)
      (.failed (.rejected 501 "WebSocket replay requires the websocket feature"))
    ensure (validHandshake server.packages incoming.head = true) (.failed badHandshake)
  let (body, trailers) ← incoming.body.mapError fun error => .failed (.internal error)
  pure { request := requestFromEggserve server.packages incoming.head body trailers, body }

/-! ### The answers -/

def Server.loader (server : Server N) : Loader := fun _ candidate =>
  match candidate.flow.request.body with
  | .blob blob => server.readBlob blob
  | .absent | .empty => some candidate.requestBody

def Server.arrival (server : Server N) (asked : Asked) : Arrival where
  request := asked.request
  body := asked.body
  loader := server.loader

def upgrade (server : Server N) (head : RequestHead) (tunnel : Tunnel)
    (conversation : WebSocketConversation) : Except ServiceError (List HeaderEntry) := do
  let fields := head.headers.map headerEntry
  ensure (head.version = .http11 ∧ head.method = "GET" ∧ tunnel.isHttp1Upgrade = true ∧
    tunnel.protocol.any (eqIgnoreAsciiCase · "websocket") = true ∧
    (validateWebsocketHandshakeHeaders fields).isOk = true ∧
    (fields.any fun header =>
      isNamed "sec-websocket-version" header && decide (header.value = "13")) = true) badHandshake
  let key ← orFail (fields.find? (isNamed "sec-websocket-key"))
    (.rejected 400 "missing WebSocket key")
  ensure (validClientKey server.packages key.value = true)
    (.rejected 400 "invalid WebSocket key")
  let offered := ((fields.filter (isNamed "sec-websocket-protocol")).flatMap fun header =>
    split header.value ',').map trim
  ensure (conversation.selectedSubprotocol.all (· ∈ offered) = true)
    (.rejected 400 "recorded WebSocket subprotocol was not offered")
  let accept : HeaderEntry :=
    { name := "sec-websocket-accept", value := server.packages.deriveAcceptKey key.value }
  let headers := accept :: (conversation.selectedSubprotocol.map fun protocol =>
    ({ name := "sec-websocket-protocol", value := protocol } : HeaderEntry)).toList
  checkAll (fun header => (server.checks.header header).mapError .internal) headers
  ensure (tunnel.opens = true) (.internal "WebSocket replay tunnel could not be accepted")
  pure headers

def conversationOf (conversations : List WebSocketConversation) (id : String) :
    Option WebSocketConversation :=
  conversations.find? fun conversation => conversation.flowId = id

/-- The answer to a request that the flow was selected for. -/
def Server.reply (server : Server N) (state : ReplayState) (incoming : Incoming) (inAppend : Bool)
    (flow : Flow) : Answer :=
  match flow.outcome with
  | .error error =>
      .ofResponse (responseBytes server.checks 502
        ("recorded upstream error: " ++ categoryDebug error.category ++ "\n"))
  | .response response =>
      if response.status = 101 then
        if server.websocketFeature = true then
          match conversationOf state.websockets flow.id, incoming.tunnel with
          | none, _ => .failed (.internal "recorded WebSocket flow has no conversation")
          | some _, none => .failed (.rejected 400 "WebSocket upgrade tunnel unavailable")
          | some conversation, some tunnel =>
              match upgrade server incoming.head tunnel conversation with
              | .ok headers => .upgraded headers conversation
              | .error error => .failed error
        else .failed (.internal "recorded WebSocket flow requires the websocket feature")
      else if inAppend = true then
        .failed (.internal "append candidate has no recording session")
      else
        .ofResponse (renderResponse server.checks server.sha256 server.limits server.files
          (fun _ => none) (decide (incoming.head.version = .http2))
          { response, inAppend, recorded := timelineOf state.streamEvents flow.id
            timing := state.timingMode })

/-- What a selection comes to; `none` where the index is out of range. -/
def Server.conclude (server : Server N) (state : ReplayState) (incoming : Incoming) :
    MatchResult → Option Answer
  | .matched index => do
      let inAppend ← state.candidateInAppend[index]?
      let candidate ← state.candidates[index]?
      pure (server.reply state incoming inAppend candidate.flow)
  | .exhausted _ =>
      some (.ofResponse (responseBytes server.checks 409 "eggreplay replay fixture exhausted\n"))
  | .noMatch _ => some (.ofResponse (responseBytes server.checks 404 "eggreplay replay no match\n"))

/-! ### Requests in flight -/

inductive Phase where
  | arrived
  | received (asked : Asked)
  | unscripted (asked : Asked)
  | answered (answer : Answer)

structure Thread where
  incoming : Incoming
  phase : Phase

structure World where
  state : ReplayState
  threads : List Thread

inductive Action where
  | arrive (incoming : Incoming)
  | advance (index : Nat)

def World.put (world : World) (index : Nat) (thread : Thread) (phase : Phase) : World :=
  { world with threads := world.threads.set index { thread with phase } }

def Server.select [DecidableEq N] (server : Server N) (state : ReplayState) (asked : Asked) :
    MatchResult × MatcherSession :=
  selectArrival server.codec state.matcher state.candidates .once state.session
    (server.arrival asked)

/-- What the step of a scenario comes to. -/
def Server.script (server : Server N) (asked : Asked) :
    Except String (Option ScenarioStep) → Phase
  | .error error => .answered (.failed (.internal error))
  | .ok none => .unscripted asked
  | .ok (some step) => .answered (.ofFault (scenarioFaultResponse server.checks step.response))

def advance [DecidableEq N] (server : Server N) (world : World) (index : Nat) (thread : Thread) :
    Option World :=
  match thread.phase with
  | .arrived =>
      match server.receive thread.incoming with
      | .error answer => some (world.put index thread (.answered answer))
      | .ok asked => some (world.put index thread (.received asked))
  | .received asked =>
      match world.state.scenario with
      | none => some (world.put index thread (.unscripted asked))
      | some runtime =>
          let stepped := runtime.advance server.codec asked.request asked.body
          let next := { world with state := { world.state with scenario := some stepped.2 } }
          some (next.put index thread (server.script asked stepped.1))
  | .unscripted asked => do
      let selected := server.select world.state asked
      let answer ← server.conclude world.state thread.incoming selected.1
      let next := { world with state := { world.state with session := selected.2 } }
      pure (next.put index thread (.answered answer))
  | .answered _ => none

def step [DecidableEq N] (server : Server N) (world : World) : Action → Option World
  | .arrive incoming =>
      some { world with threads := world.threads ++ [{ incoming, phase := .arrived }] }
  | .advance index => do
      let thread ← world.threads[index]?
      advance server world index thread

def started (state : ReplayState) : World where
  state := state
  threads := []

/-! ### Scenarios, one request more -/

section

variable {codec : BodyCodec N}

theorem after_concat (runtime : ScenarioRuntime) (requests : List ScenarioRequest)
    (request : ScenarioRequest) :
    runtime.after codec (requests ++ [request]) =
      ((runtime.after codec requests).advance codec request.1 request.2).2 := by
  rw [ScenarioRuntime.after, List.foldl_append]
  rfl

theorem advanceAll_concat (runtime : ScenarioRuntime) (requests : List ScenarioRequest)
    (request : ScenarioRequest) :
    runtime.advanceAll codec (requests ++ [request]) =
      runtime.advanceAll codec requests ++
        [(runtime.after codec requests).advance codec request.1 request.2] := by
  induction requests generalizing runtime with
  | nil => rfl
  | cons first rest ih =>
      obtain ⟨head, body⟩ := first
      rw [List.cons_append, ScenarioRuntime.advanceAll, ih, ScenarioRuntime.advanceAll]
      rfl

end

/-! ### The sections of the requests -/

/-- A section under the lock of the replay state, with what it comes to. -/
inductive Section where
  | scripted (asked : Asked) (result : Except String (Option ScenarioStep))
  | selected (asked : Asked) (result : MatchResult)

def Section.scripted? : Section → Option (Asked × Except String (Option ScenarioStep))
  | .scripted asked result => some (asked, result)
  | .selected _ _ => none

def Section.selected? : Section → Option (Asked × MatchResult)
  | .scripted _ _ => none
  | .selected asked result => some (asked, result)

def sectionOf [DecidableEq N] (server : Server N) (state : ReplayState) : Phase → Option Section
  | .received asked =>
      state.scenario.map fun runtime =>
        .scripted asked (runtime.advance server.codec asked.request asked.body).1
  | .unscripted asked => some (.selected asked (server.select state asked).1)
  | .arrived | .answered _ => none

def event [DecidableEq N] (server : Server N) (world : World) : Action → Option (Nat × Section)
  | .arrive _ => none
  | .advance index =>
      (world.threads[index]?).bind fun thread =>
        (sectionOf server world.state thread.phase).map fun entered => (index, entered)

/-- The sections of a run in the order in which they took the lock. -/
def sections [DecidableEq N] (server : Server N) (state : ReplayState) (actions : List Action) :
    List (Nat × Section) :=
  emitted (step server) (event server) (started state) actions

def scripted (history : List (Nat × Section)) :
    List (Asked × Except String (Option ScenarioStep)) :=
  history.filterMap fun entry => entry.2.scripted?

def selected (history : List (Nat × Section)) : List (Asked × MatchResult) :=
  history.filterMap fun entry => entry.2.selected?

def sectionsOf (index : Nat) (history : List (Nat × Section)) : List Section :=
  (history.filter fun entry => decide (entry.1 = index)).map Prod.snd

/-- What a request has gone through, given what came of its sections. -/
inductive Course (server : Server N) (state : ReplayState) (incoming : Incoming) :
    List Section → Phase → Prop
  | arrived : Course server state incoming [] .arrived
  | refused {answer : Answer} (hreceive : server.receive incoming = .error answer) :
      Course server state incoming [] (.answered answer)
  | received {asked : Asked} (hreceive : server.receive incoming = .ok asked) :
      Course server state incoming [] (.received asked)
  | unscripted {asked : Asked} (hreceive : server.receive incoming = .ok asked)
      (hscenario : state.scenario = none) : Course server state incoming [] (.unscripted asked)
  | scripted {asked : Asked} {result : Except String (Option ScenarioStep)} {phase : Phase}
      (hreceive : server.receive incoming = .ok asked)
      (hscenario : state.scenario.isSome = true) (hphase : server.script asked result = phase) :
      Course server state incoming [.scripted asked result] phase
  | selected {asked : Asked} {before : List Section} {result : MatchResult} {answer : Answer}
      (hbefore : Course server state incoming before (.unscripted asked))
      (hanswer : server.conclude state incoming result = some answer) :
      Course server state incoming (before ++ [.selected asked result]) (.answered answer)

section

variable {server : Server N} {start : ReplayState}

theorem Course.of_arrived {incoming : Incoming} {entered : List Section}
    (h : Course server start incoming entered .arrived) : entered = [] := by
  cases h with
  | arrived => rfl
  | @scripted asked result _ _ _ hphase =>
      rcases result with _ | _ | _ <;> cases hphase

theorem Course.of_received {incoming : Incoming} {entered : List Section} {asked : Asked}
    (h : Course server start incoming entered (.received asked)) :
    entered = [] ∧ server.receive incoming = .ok asked := by
  cases h with
  | received hreceive => exact ⟨rfl, hreceive⟩
  | @scripted _ result _ _ _ hphase =>
      rcases result with _ | _ | _ <;> cases hphase

theorem conclude_fixture {state : ReplayState}
    (h : state = { start with session := state.session, scenario := state.scenario })
    (incoming : Incoming) (result : MatchResult) :
    server.conclude state incoming result = server.conclude start incoming result := by
  rw [h]
  cases result <;> rfl

end

/-- How many steps a request has before it at most. -/
def Phase.rank : Phase → Nat
  | .arrived => 3
  | .received _ => 2
  | .unscripted _ => 1
  | .answered _ => 0

theorem script_rank (server : Server N) (asked : Asked)
    (result : Except String (Option ScenarioStep)) : (server.script asked result).rank ≤ 1 := by
  rcases result with _ | _ | _
  · exact Nat.zero_le 1
  · exact Nat.le_refl 1
  · exact Nat.zero_le 1

def scenarioRequest (asked : Asked) : ScenarioRequest := (asked.request, asked.body)

section

variable [DecidableEq N] {server : Server N} {start : ReplayState} {world next : World}
  {history : List (Nat × Section)} {index : Nat}

theorem scripted_append (before after : List (Nat × Section)) :
    scripted (before ++ after) = scripted before ++ scripted after :=
  List.filterMap_append

theorem selected_append (before after : List (Nat × Section)) :
    selected (before ++ after) = selected before ++ selected after :=
  List.filterMap_append

theorem sectionsOf_append (index : Nat) (before after : List (Nat × Section)) :
    sectionsOf index (before ++ after) = sectionsOf index before ++ sectionsOf index after := by
  rw [sectionsOf, List.filter_append, List.map_append]
  rfl

theorem sectionsOf_toList (index : Nat) (entered : Option Section) :
    sectionsOf index (entered.map fun entry => (index, entry)).toList = entered.toList := by
  cases entered with
  | none => rfl
  | some entry =>
      rw [Option.map_some, Option.toList_some, sectionsOf, List.filter_singleton]
      simp

theorem sectionsOf_other {index other : Nat} (h : other ≠ index) (entered : Option Section) :
    sectionsOf other (entered.map fun entry => (index, entry)).toList = [] := by
  cases entered with
  | none => rfl
  | some entry =>
      rw [Option.map_some, Option.toList_some, sectionsOf, List.filter_singleton]
      simp [h.symm]

/-- The sequential replay of the sections of a history. -/
structure Sequential (server : Server N) (start state : ReplayState)
    (history : List (Nat × Section)) : Prop where
  fixture : state = { start with session := state.session, scenario := state.scenario }
  scenario : state.scenario = start.scenario.map fun runtime =>
    runtime.after server.codec ((scripted history).map fun entry => scenarioRequest entry.1)
  steps : ∀ runtime, start.scenario = some runtime →
    (scripted history).map Prod.snd = (runtime.advanceAll server.codec
      ((scripted history).map fun entry => scenarioRequest entry.1)).map Prod.fst
  selections : serve server.codec start.matcher start.candidates .once start.session
      ((selected history).map fun entry => server.arrival entry.1) =
    ((selected history).map Prod.snd, state.session)

theorem sequential_start (server : Server N) (start : ReplayState) :
    Sequential server start start [] where
  fixture := rfl
  scenario := by
    cases start.scenario <;> rfl
  steps _ _ := rfl
  selections := rfl

theorem Sequential.script {state : ReplayState} (h : Sequential server start state history)
    {runtime : ScenarioRuntime} (hscenario : state.scenario = some runtime) (index : Nat)
    (asked : Asked) :
    let stepped := runtime.advance server.codec asked.request asked.body
    Sequential server start { state with scenario := some stepped.2 }
      (history ++ [(index, .scripted asked stepped.1)]) := by
  intro stepped
  have hscripted : scripted (history ++ [(index, Section.scripted asked stepped.1)]) =
      scripted history ++ [(asked, stepped.1)] := scripted_append _ _
  have hselected : selected (history ++ [(index, Section.scripted asked stepped.1)]) =
      selected history := (selected_append _ _).trans (List.append_nil _)
  have hstart := h.scenario
  rw [hscenario] at hstart
  obtain ⟨origin, horigin, hruntime⟩ := Option.map_eq_some_iff.mp hstart.symm
  refine ⟨?_, ?_, ?_, ?_⟩
  · rw [h.fixture]
  · rw [horigin, hscripted, List.map_append, Option.map_some, List.map_singleton, after_concat,
      hruntime]
    rfl
  · intro other hother
    obtain rfl := Option.some.inj (horigin.symm.trans hother)
    rw [hscripted, List.map_append, List.map_append, h.steps origin horigin, List.map_singleton,
      List.map_singleton, advanceAll_concat, List.map_append, hruntime]
    rfl
  · rw [hselected]
    exact h.selections

theorem Sequential.select {state : ReplayState} (h : Sequential server start state history)
    (index : Nat) (asked : Asked) :
    Sequential server start { state with session := (server.select state asked).2 }
      (history ++ [(index, .selected asked (server.select state asked).1)]) := by
  have hscripted : scripted (history ++ [(index,
      Section.selected asked (server.select state asked).1)]) = scripted history :=
    (scripted_append _ _).trans (List.append_nil _)
  have hselected : selected (history ++ [(index,
      Section.selected asked (server.select state asked).1)]) =
      selected history ++ [(asked, (server.select state asked).1)] := selected_append _ _
  have hsame : server.select state asked = selectArrival server.codec start.matcher
      start.candidates .once state.session (server.arrival asked) := by
    rw [h.fixture]
    rfl
  refine ⟨?_, ?_, ?_, ?_⟩
  · rw [h.fixture]
  · rw [hscripted]
    exact h.scenario
  · rw [hscripted]
    exact h.steps
  · rw [hselected, List.map_append, List.map_append, List.map_singleton, List.map_singleton,
      serve_concat, h.selections, hsame]

/-! ### What every step keeps -/

structure Kept (server : Server N) (start : ReplayState) (world : World)
    (history : List (Nat × Section)) : Prop where
  sequential : Sequential server start world.state history
  courses : ∀ (index : Nat) (thread : Thread), world.threads[index]? = some thread →
    Course server start thread.incoming (sectionsOf index history) thread.phase
  known : ∀ entry ∈ history, entry.1 < world.threads.length

theorem kept_started (server : Server N) (start : ReplayState) :
    Kept server start (started start) [] where
  sequential := sequential_start server start
  courses _ _ h := absurd h (by rintro ⟨⟩)
  known _ h := absurd h List.not_mem_nil

theorem Kept.put (h : Kept server start world history) {thread : Thread} {state : ReplayState}
    {phase : Phase} {entered : Option Section} (hat : world.threads[index]? = some thread)
    (hsequential : Sequential server start state
      (history ++ (entered.map fun entry => (index, entry)).toList))
    (hcourse : Course server start thread.incoming (sectionsOf index history ++ entered.toList)
      phase) :
    Kept server start ({ world with state }.put index thread phase)
      (history ++ (entered.map fun entry => (index, entry)).toList) := by
  have hlt := (List.getElem?_eq_some_iff.mp hat).1
  refine ⟨hsequential, ?_, ?_⟩
  · intro other task htask
    rw [World.put, List.getElem?_set] at htask
    rw [sectionsOf_append]
    by_cases hother : index = other
    · subst hother
      rw [if_pos rfl, if_pos hlt] at htask
      obtain rfl := Option.some.inj htask
      rw [sectionsOf_toList]
      exact hcourse
    · rw [if_neg hother] at htask
      rw [sectionsOf_other (Ne.symm hother), List.append_nil]
      exact h.courses other task htask
  · intro entry hentry
    rw [World.put, List.length_set]
    rcases List.mem_append.mp hentry with hentry | hentry
    · exact h.known entry hentry
    · obtain ⟨_, -, rfl⟩ := Option.map_eq_some_iff.mp (Option.mem_toList.mp hentry)
      exact hlt

theorem Kept.arrive (h : Kept server start world history) (incoming : Incoming) :
    Kept server start
      { world with threads := world.threads ++ [{ incoming, phase := .arrived }] } history := by
  refine ⟨h.sequential, ?_, ?_⟩
  · intro index thread hthread
    rcases Nat.lt_or_ge index world.threads.length with hlt | hge
    · rw [List.getElem?_append_left hlt] at hthread
      exact h.courses index thread hthread
    · rw [List.getElem?_append_right hge, List.getElem?_singleton] at hthread
      split at hthread
      · obtain rfl := Option.some.inj hthread
        have hnone : sectionsOf index history = [] := by
          rw [sectionsOf, List.map_eq_nil_iff, List.filter_eq_nil_iff]
          intro entry hentry
          have := h.known entry hentry
          simp only [decide_eq_true_eq]
          omega
        rw [hnone]
        exact .arrived
      · cases hthread
  · intro entry hentry
    rw [List.length_append]
    exact Nat.lt_add_right _ (h.known entry hentry)

theorem Kept.advance (h : Kept server start world history) {thread : Thread}
    (hat : world.threads[index]? = some thread)
    (hstep : advance server world index thread = some next) :
    Kept server start next (history ++
      ((sectionOf server world.state thread.phase).map fun entry => (index, entry)).toList) := by
  have hcourse := h.courses index thread hat
  have hquiet : Sequential server start world.state (history ++
      ((none : Option Section).map fun entry => (index, entry)).toList) := by
    rw [Option.map_none, Option.toList_none, List.append_nil]
    exact h.sequential
  rw [SealedServer.advance] at hstep
  rcases hphase : thread.phase with _ | asked | asked | answer
  · rw [hphase] at hstep hcourse
    have hnone := hcourse.of_arrived
    dsimp only at hstep
    split at hstep
    · rename_i answer hreceive
      obtain rfl := Option.some.inj hstep
      exact h.put hat hquiet (by rw [hnone]; exact .refused hreceive)
    · rename_i asked hreceive
      obtain rfl := Option.some.inj hstep
      exact h.put hat hquiet (by rw [hnone]; exact .received hreceive)
  · rw [hphase] at hstep hcourse
    obtain ⟨hnone, hreceive⟩ := hcourse.of_received
    have hscenario := h.sequential.scenario
    dsimp only at hstep
    rw [sectionOf]
    split at hstep
    · rename_i hstate
      obtain rfl := Option.some.inj hstep
      rw [hstate]
      rw [hstate] at hscenario
      refine h.put hat hquiet ?_
      rw [hnone]
      exact .unscripted hreceive (Option.map_eq_none_iff.mp hscenario.symm)
    · rename_i runtime hstate
      obtain rfl := Option.some.inj hstep
      rw [hstate]
      rw [hstate] at hscenario
      have hloaded : start.scenario.isSome = true := by
        obtain ⟨origin, horigin, -⟩ := Option.map_eq_some_iff.mp hscenario.symm
        rw [horigin]
        rfl
      exact h.put hat (h.sequential.script hstate index asked)
        (by rw [hnone]; exact .scripted hreceive hloaded rfl)
  · rw [hphase] at hstep hcourse
    simp only [Option.bind_eq_bind, Option.bind_eq_some_iff, Option.pure_def,
      Option.some.injEq] at hstep
    obtain ⟨answer, hanswer, rfl⟩ := hstep
    rw [conclude_fixture h.sequential.fixture] at hanswer
    exact h.put hat (h.sequential.select index asked) (.selected hcourse hanswer)
  · rw [hphase] at hstep
    cases hstep

theorem kept_step (h : Kept server start world history) {action : Action}
    (hstep : step server world action = some next) :
    Kept server start next (history ++ (event server world action).toList) := by
  cases action with
  | arrive incoming =>
      obtain rfl := Option.some.inj hstep
      rw [event, Option.toList_none, List.append_nil]
      exact h.arrive incoming
  | advance index =>
      rw [step, Option.bind_eq_bind, Option.bind_eq_some_iff] at hstep
      obtain ⟨thread, hat, hstep⟩ := hstep
      have hkept := h.advance hat hstep
      have hevent : event server world (.advance index) =
          (sectionOf server world.state thread.phase).map fun entry => (index, entry) := by
        rw [event, hat, Option.bind_some]
      rw [hevent]
      exact hkept

theorem kept_run {actions : List Action} {final : World}
    (hrun : run (step server) (started start) actions = some final) :
    Kept server start final (sections server start actions) := by
  have hpreserved : ∀ world history action next, Kept server start world history →
      step server world action = some next →
      Kept server start next (history ++ (event server world action).toList) :=
    fun _ _ _ _ h hstep => kept_step h hstep
  exact emitted_invariant hpreserved hrun (kept_started server start)

/-! ### Progress -/

/-- The index of a selection is in range. -/
theorem conclude_isSome {state : ReplayState}
    (hinAppend : state.candidateInAppend.length = state.candidates.length) (incoming : Incoming)
    (asked : Asked) : ∃ answer,
      server.conclude state incoming (server.select state asked).1 = some answer := by
  have hanswer := @selectArrival_answer N _ server.codec state.matcher state.candidates .once
    state.session (server.arrival asked)
  rcases hresult : (server.select state asked).1 with index | near | near
  · obtain ⟨⟨candidate, hcandidate, -⟩, -, -⟩ := (hanswer.matched_iff index).mp hresult
    have hlt := (List.getElem?_eq_some_iff.mp hcandidate).1
    rw [← hinAppend] at hlt
    refine ⟨server.reply state incoming (state.candidateInAppend[index]) candidate.flow, ?_⟩
    rw [Server.conclude, List.getElem?_eq_getElem hlt, hcandidate]
    rfl
  · exact ⟨_, rfl⟩
  · exact ⟨_, rfl⟩

theorem getElem?_put {state : ReplayState} {thread : Thread} {phase : Phase}
    (hat : world.threads[index]? = some thread) :
    (({ world with state }.put index thread phase).threads)[index]? =
      some { thread with phase } := by
  rw [World.put, List.getElem?_set_self (List.getElem?_eq_some_iff.mp hat).1]

/-- A request that has no answer yet can take its next step. -/
theorem advance_isSome {thread : Thread}
    (hinAppend : world.state.candidateInAppend.length = world.state.candidates.length)
    (hat : world.threads[index]? = some thread) (hrank : thread.phase.rank ≠ 0) :
    ∃ next phase, step server world (.advance index) = some next ∧
      next.threads[index]? = some { thread with phase } ∧ phase.rank < thread.phase.rank ∧
      next.state.candidateInAppend.length = next.state.candidates.length := by
  have hstep : ∀ next, advance server world index thread = some next →
      step server world (.advance index) = some next := by
    intro next h
    rw [step, hat]
    exact h
  rcases hphase : thread.phase with _ | asked | asked | answer
  · rcases hreceive : server.receive thread.incoming with answer | asked
    · refine ⟨_, .answered answer, hstep _ ?_, getElem?_put hat, Nat.zero_lt_succ 2, hinAppend⟩
      rw [SealedServer.advance, hphase]
      dsimp only
      rw [hreceive]
    · refine ⟨_, .received asked, hstep _ ?_, getElem?_put hat, Nat.lt_succ_self 2, hinAppend⟩
      rw [SealedServer.advance, hphase]
      dsimp only
      rw [hreceive]
  · rcases hscenario : world.state.scenario with _ | runtime
    · refine ⟨_, .unscripted asked, hstep _ ?_, getElem?_put hat, Nat.lt_succ_self 1, hinAppend⟩
      rw [SealedServer.advance, hphase]
      dsimp only
      rw [hscenario]
    · refine ⟨World.put { world with state := { world.state with
        scenario := some (runtime.advance server.codec asked.request asked.body).2 } } index thread
        (server.script asked (runtime.advance server.codec asked.request asked.body).1), _,
        hstep _ ?_, getElem?_put hat, Nat.lt_succ_of_le (script_rank server asked _), hinAppend⟩
      rw [SealedServer.advance, hphase]
      dsimp only
      rw [hscenario]
  · obtain ⟨answer, hanswer⟩ := @conclude_isSome N _ server _ hinAppend thread.incoming asked
    refine ⟨World.put { world with state := { world.state with
      session := (server.select world.state asked).2 } } index thread (.answered answer),
      .answered answer, hstep _ ?_, getElem?_put hat, Nat.zero_lt_one, hinAppend⟩
    rw [SealedServer.advance, hphase]
    dsimp only
    rw [hanswer]
    rfl
  · rw [hphase] at hrank
    exact absurd rfl hrank

/-- On its own steps alone a request comes to its answer. -/
theorem answered_alone {thread : Thread}
    (hinAppend : world.state.candidateInAppend.length = world.state.candidates.length)
    (hat : world.threads[index]? = some thread) :
    ∃ steps ≤ thread.phase.rank, ∃ next answer,
      run (step server) world (List.replicate steps (.advance index)) = some next ∧
      next.threads[index]? = some { thread with phase := .answered answer } := by
  induction hrank : thread.phase.rank using Nat.strong_induction_on generalizing world thread with
  | _ rank ih =>
      rcases Nat.eq_zero_or_pos rank with hzero | hpos
      · subst hzero
        rcases hphase : thread.phase with _ | asked | asked | answer
        · rw [hphase] at hrank
          cases hrank
        · rw [hphase] at hrank
          cases hrank
        · rw [hphase] at hrank
          cases hrank
        · exact ⟨0, Nat.le_refl 0, world, answer, rfl, by rw [hat, ← hphase]⟩
      · obtain ⟨next, phase, hstep, hnext, hless, hkept⟩ :=
          @advance_isSome N _ server world index thread hinAppend hat (by omega)
        rw [hrank] at hless
        obtain ⟨steps, hsteps, final, answer, hrun, hfinal⟩ := ih phase.rank hless hkept hnext rfl
        refine ⟨steps + 1, by omega, final, answer, ?_, hfinal⟩
        rw [List.replicate_succ, run_cons_eq_some]
        exact ⟨next, hstep, hrun⟩

/-- A fixture that opened is loaded with one mark for each candidate, and nothing consumed. -/
theorem loaded_state {codec : Codec} {root : Directory} {limits : StoreLimits} {session : Session}
    (hopen : Session.open codec root limits = .ok session) {websocketFeature : Bool}
    {matcher : Matcher} {scenario : Option ScenarioRuntime} {timing : StreamTimingMode}
    {state : ReplayState}
    (hload : loadInner codec websocketFeature session matcher scenario timing = .ok state) :
    state.session = .new ∧ state.matcher = matcher ∧ state.scenario = scenario ∧
      state.candidateInAppend = List.replicate state.candidates.length false := by
  obtain ⟨-, -, -, -, flows, hopened⟩ := open_eq_ok hopen
  simp only [loadInner, bind_eq_ok, pure_eq_ok] at hload
  obtain ⟨_, -, candidates, hcandidates, _, -, _, -, _, -, _, -, rfl⟩ := hload
  rw [loadCandidates_opened hopened] at hcandidates
  obtain rfl := Except.ok.inj hcandidates
  refine ⟨rfl, rfl, rfl, ?_⟩
  rw [List.length_map, hopened.flowCount]

/-- Requests on a loaded fixture are answered as if they had come one after another, in any
interleaving of their steps: the scenario takes its steps and the flows are consumed in the order
of the sections under the lock, and a request that was refused or that the scenario answered takes
part in no selection. No flow answers twice, and no request waits for another. -/
theorem interleaved_replay_sequential {codec : Codec} {root : Directory} {limits : StoreLimits}
    {session : Session} (hopen : Session.open codec root limits = .ok session)
    (server : Server N) {matcher : Matcher} {scenario : Option ScenarioRuntime}
    {timing : StreamTimingMode} {state : ReplayState}
    (hload : loadInner codec server.websocketFeature session matcher scenario timing = .ok state)
    {actions : List Action} {final : World}
    (hrun : run (step server) (started state) actions = some final) :
    let history := sections server state actions
    serve server.codec matcher state.candidates .once .new
        ((selected history).map fun entry => server.arrival entry.1) =
      ((selected history).map Prod.snd, final.state.session) ∧
    (servedIndices ((selected history).map Prod.snd)).Nodup ∧
    (∀ runtime, scenario = some runtime → (scripted history).map Prod.snd =
      (runtime.advanceAll server.codec
        ((scripted history).map fun entry => scenarioRequest entry.1)).map Prod.fst) ∧
    ∀ (index : Nat) (thread : Thread), final.threads[index]? = some thread →
      Course server state thread.incoming (sectionsOf index history) thread.phase ∧
      ∃ steps ≤ 3, ∃ next answer,
        run (step server) final (List.replicate steps (.advance index)) = some next ∧
        next.threads[index]? = some { thread with phase := .answered answer } := by
  intro history
  obtain ⟨hsession, hmatcher, hscenario, hinAppend⟩ := loaded_state hopen hload
  have hkept := kept_run hrun
  have hselections := hkept.sequential.selections
  rw [hmatcher, hsession] at hselections
  refine ⟨hselections, ?_, ?_, ?_⟩
  · have hnodup := @servedIndices_nodup N _ server.codec matcher state.candidates
      ((selected history).map fun entry => server.arrival entry.1)
    rw [hselections] at hnodup
    exact hnodup
  · intro runtime hruntime
    exact hkept.sequential.steps runtime (hscenario.trans hruntime)
  · intro index thread hthread
    refine ⟨hkept.courses index thread hthread, ?_⟩
    have hfinal : final.state.candidateInAppend.length = final.state.candidates.length := by
      rw [hkept.sequential.fixture]
      simp only [hinAppend, List.length_replicate]
    obtain ⟨steps, hsteps, next, answer, hrest, hanswer⟩ :=
      @answered_alone N _ server final index thread hfinal hthread
    have hrank : thread.phase.rank ≤ 3 := by
      cases thread.phase <;> simp only [Phase.rank] <;> omega
    exact ⟨steps, hsteps.trans hrank, next, answer, hrest, hanswer⟩

end

/-! ### Two requests for one flow -/

def byteState : ReplayState where
  candidates := [.fromFlow byteFlow]
  candidateInAppend := [false]
  matcher := .strict 8
  session := .new
  store := byteSession
  scenario := none
  streamEvents := (timelinesOf oneByte).flows
  timingMode := .immediate
  websockets := []

theorem byteState_loaded :
    loadInner byteCodec true byteSession (.strict 8) none .immediate = .ok byteState := by
  have hrequired : checkAll (checkRequired true false) byteSession.manifest.extensions =
      .ok () := by
    decide
  have hcandidates : loadCandidates byteCodec byteSession = .ok byteState.candidates := by
    decide +kernel
  have hstreams : loadStreamEvents byteCodec byteSession .immediate =
      .ok byteState.streamEvents := by
    decide +kernel
  have hwebsockets : loadWebsockets byteCodec byteSession = .ok [] := by decide +kernel
  rw [loadInner, hcandidates, hstreams, hwebsockets]
  rfl

def getRoot : Incoming where
  head :=
    { version := .http11, method := "GET", scheme := "http", authority := some "example.test"
      path := "/", query := none, headers := [] }
  body := .ok ([], [])
  tunnel := none

def byteServer : Server Nat where
  codec := sampleCodec
  checks := openChecks
  packages :=
    { base64Decode := fun _ => none, deriveAcceptKey := fun _ => "", parseQuery := fun _ => [] }
  sha256 := byteCodec.sha256Hex
  limits := StoreLimits.default
  files _ := none
  readBlob _ := none
  websocketFeature := true
  maxBodyBytes := 1024

/-- The second request overtakes the first one. -/
def raced : List Action :=
  [.arrive getRoot, .arrive getRoot, .advance 0, .advance 0, .advance 1, .advance 1, .advance 1,
    .advance 0]

theorem raced_requests_sequential :
    ∃ final, run (step byteServer) (started byteState) raced = some final ∧
      servedIndices ((selected (sections byteServer byteState raced)).map Prod.snd) = [0] ∧
      (sections byteServer byteState raced).map Prod.fst = [1, 0] ∧
      (servedIndices ((selected (sections byteServer byteState raced)).map Prod.snd)).Nodup := by
  have hsome : (run (step byteServer) (started byteState) raced).isSome = true := by
    decide +kernel
  obtain ⟨final, hfinal⟩ := Option.isSome_iff_exists.mp hsome
  have hsequential := interleaved_replay_sequential byteSession_opens byteServer byteState_loaded
    hfinal
  exact ⟨final, hfinal, by decide +kernel, by decide +kernel, hsequential.2.1⟩

end EggReplay.Http.SealedServer
