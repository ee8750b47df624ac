import EggReplay.Core.Matching
import EggReplay.Http.Recorder
import EggReplay.Intercept.Authorities
import EggReplay.Library.TransitionSystem

/-!
`append_miss`: what a request goes through that no flow answers. It takes the lock that its key
has while the miss is in flight, is selected again, and is sent upstream and recorded.
-/

namespace EggReplay.Http.AppendMiss

open EggReplay.Core.FlowRecord
open EggReplay.Core.Matching
open EggReplay.Core.Redaction
open EggReplay.Http.Recorder
open EggReplay.Http.ResponseRendering
open EggReplay.Http.Transaction
open EggReplay.Intercept.Authorities
open EggReplay.Library.Checks
open EggReplay.Library.JsonText
open EggReplay.Library.Text
open EggReplay.Store.Fixture
open EggReplay.Store.Recording
open EggReplay.Store.Staging

variable {N : Type}

/-! ### The upstream request -/

/-- What the URL and HTTP packages do with a request. -/
structure ClientPackage where
  serializeQuery : List QueryPair → String
  parseUri : String → Except String Uri
  isMethod : String → Bool
  isHeaderName : String → Bool
  isHeaderValue : Bytes → Bool

structure AppendContext where
  upstreamScheme : Option String
  upstreamAuthority : Option String
  settings : Settings
  physicalRoute : PhysicalRoute

structure UpstreamRequest where
  method : String
  uri : Uri
  headers : HeaderMap
  deriving DecidableEq, Repr

def upstreamTarget (client : ClientPackage) (actual : HttpRequest) : String :=
  let query := client.serializeQuery actual.query
  if query = "" then actual.path else actual.path ++ "?" ++ query

def headerField (client : ClientPackage) (header : HeaderEntry) :
    Except ServiceError HeaderField := do
  ensure (client.isHeaderName header.name = true) (.internal "invalid HTTP header name")
  ensure (client.isHeaderValue (utf8 header.value.toList) = true)
    (.internal "failed to parse header value")
  pure { name := toAsciiLowercase header.name, value := utf8 header.value.toList }

/-- The headers of the request but `host`, as the client's map of them. -/
def forwardedHeaders (client : ClientPackage) (headers : List HeaderEntry) :
    Except ServiceError HeaderMap :=
  headers.foldlM (fun fields header =>
    if eqIgnoreAsciiCase header.name "host" = true then pure fields
    else do
      let field ← headerField client header
      pure (append field fields)) []

def upstreamRequest (client : ClientPackage) (context : AppendContext) (actual : HttpRequest) :
    Except ServiceError UpstreamRequest := do
  let scheme ← orFail context.upstreamScheme (.internal "upstream URI has no scheme")
  let authority ← orFail context.upstreamAuthority (.internal "upstream URI has no authority")
  let text := scheme ++ "://" ++ authority ++ upstreamTarget client actual
  let uri ← (client.parseUri text).mapError ServiceError.internal
  ensure (client.isMethod actual.method = true) (.internal "invalid HTTP method")
  let headers ← forwardedHeaders client actual.headers
  pure { method := actual.method, uri, headers }

/-- What is seen of the transaction that the request opens. -/
structure Observation where
  polled : List TimedFrame
  requestEnd : Option TimedEnd
  result : Except FlowError Reply
  uuid : String
  startedAtMs : Nat
  completedAtMs : Nat
  startOffsetNs : Nat
  endOffsetNs : Nat

def UpstreamRequest.exchange (request : UpstreamRequest) (context : AppendContext)
    (observed : Observation) : Exchange where
  method := request.method
  uri := request.uri
  headers := request.headers
  polled := observed.polled
  requestEnd := observed.requestEnd
  result := observed.result
  uuid := observed.uuid
  startedAtMs := observed.startedAtMs
  completedAtMs := observed.completedAtMs
  startOffsetNs := observed.startOffsetNs
  endOffsetNs := observed.endOffsetNs
  physicalRoute := some context.physicalRoute

/-! ### The locks of the misses in flight -/

/-- The registry holds its locks weakly; a new lock has the number `fresh`. -/
structure MissLocks where
  locks : List (String × Nat) := []
  fresh : Nat := 0

def maxMissKeys : Nat := 2048

/-- `strong` tells which locks some request still has. -/
def MissLocks.lockFor (misses : MissLocks) (strong : Nat → Bool) (key : String) :
    MissLocks × Except ServiceError Nat :=
  let locks := misses.locks.filter fun entry => strong entry.2
  match locks.lookup key with
  | some lock => ({ misses with locks }, .ok lock)
  | none =>
      if maxMissKeys ≤ locks.length then
        ({ misses with locks }, .error (.rejected 503 "too many concurrent miss keys"))
      else ({ locks := (key, misses.fresh) :: locks, fresh := misses.fresh + 1 }, .ok misses.fresh)

/-! ### Requests in flight -/

/-- A request as it is matched. -/
structure Asked where
  request : HttpRequest
  body : Bytes

/-- The key is a digest of the request's JSON text and its body. -/
def missKey (storage : Codec) (asked : Asked) : String :=
  storage.sha256Hex (encode asked.request.toJson ++ asked.body)

inductive Answer where
  | flow (flow : Flow)
  | exhausted
  | failed (error : ServiceError)

/-- Where a request stands. -/
inductive Thread where
  | arrived
  | missed
  | waiting (lock : Nat)
  | locked (lock : Nat)
  | unanswered (lock : Nat)
  | recorded (lock : Nat) (flow : Flow)
  | leaving (lock : Nat) (answer : Answer)
  | released (lock : Nat) (answer : Answer)
  | answered (answer : Answer)

/-- The lock that the request has a reference to. -/
def Thread.lock? : Thread → Option Nat
  | .waiting lock | .locked lock | .unanswered lock | .recorded lock _ | .leaving lock _
  | .released lock _ => some lock
  | .arrived | .missed | .answered _ => none

/-- The lock that the request holds. -/
def Thread.held? : Thread → Option Nat
  | .locked lock | .unanswered lock | .recorded lock _ | .leaving lock _ => some lock
  | .arrived | .missed | .waiting _ | .released _ _ | .answered _ => none

def Thread.holds (thread : Thread) : Bool := thread.held?.isSome

def Thread.answer? : Thread → Option Answer
  | .leaving _ answer | .released _ answer | .answered answer => some answer
  | .arrived | .missed | .waiting _ | .locked _ | .unanswered _ | .recorded _ _ => none

def Thread.isRecorded : Thread → Bool
  | .recorded _ _ => true
  | _ => false

def Thread.isUnanswered : Thread → Bool
  | .unanswered _ => true
  | _ => false

structure Server (N : Type) where
  storage : Codec
  codec : BodyCodec N
  client : ClientPackage
  context : AppendContext
  matcher : Matcher
  /-- `Session::read_blob` of the fixture that is replayed. -/
  readBlob : BlobRef → Option Bytes

/-- The replay state, the recording session, the registry, and the upstream transactions so far. -/
structure World where
  candidates : List MatchCandidate
  candidateInAppend : List Bool
  session : MatcherSession := .new
  recording : RecordingInner
  misses : MissLocks := {}
  transactions : Nat := 0
  threads : List Thread := []

/-- `RecordingSession::read_body` of a blob. -/
def readRecorded (storage : Codec) (recording : RecordingInner) (blob : BlobRef) : Option Bytes :=
  match verifyBlobFile storage recording.directory blob recording.limits.maxBlobBytes with
  | .ok _ => recording.directory.blob? (.content blob.sha256)
  | .error _ => none

/-- The loaders of the two selections differ in what they give for a body that is not stored. -/
def Server.loader (server : Server N) (world : World) (unstored : MatchCandidate → Bytes) :
    Loader := fun index candidate =>
  match candidate.flow.request.body with
  | .blob blob =>
      if (world.candidateInAppend[index]?).getD false = true then
        readRecorded server.storage world.recording blob
      else server.readBlob blob
  | .absent | .empty => some (unstored candidate)

def Server.selectFirst [DecidableEq N] (server : Server N) (asked : Asked) (world : World) :
    MatchResult × MatcherSession :=
  server.matcher.selectWithLoader server.codec asked.request asked.body world.candidates
    .unlimited world.session (server.loader world MatchCandidate.requestBody)

def Server.selectAgain [DecidableEq N] (server : Server N) (asked : Asked) (world : World) :
    MatchResult × MatcherSession :=
  server.matcher.selectWithLoader server.codec asked.request asked.body world.candidates
    .unlimited world.session (server.loader world fun _ => [])

inductive Action where
  | arrive
  | advance (index : Nat)
  | transact (index : Nat) (observed : Observation)

/-- Some request still has the lock. -/
def World.strong (world : World) (lock : Nat) : Bool :=
  world.threads.any fun thread => decide (thread.lock? = some lock)

def World.isHeld (world : World) (lock : Nat) : Bool :=
  world.threads.any fun thread => decide (thread.held? = some lock)

def World.put (world : World) (index : Nat) (thread : Thread) : World :=
  { world with threads := world.threads.set index thread }

/-- The step of a request before its transaction and after it. -/
def advance [DecidableEq N] (server : Server N) (asked : Asked) (world : World) (index : Nat) :
    Thread → Option World
  | .arrived =>
      let selected := server.selectFirst asked world
      let next := { world with session := selected.2 }
      match selected.1 with
      | .matched found => do
          let candidate ← world.candidates[found]?
          pure (next.put index (.answered (.flow candidate.flow)))
      | .exhausted _ => some (next.put index (.answered .exhausted))
      | .noMatch _ => some (next.put index .missed)
  | .missed =>
      match world.misses.lockFor world.strong (missKey server.storage asked) with
      | (misses, .ok lock) => some ({ world with misses }.put index (.waiting lock))
      | (misses, .error error) =>
          some ({ world with misses }.put index (.answered (.failed error)))
  | .waiting lock =>
      if world.isHeld lock = true then none else some (world.put index (.locked lock))
  | .locked lock =>
      let selected := server.selectAgain asked world
      let next := { world with session := selected.2 }
      match selected.1 with
      | .matched found =>
          if (world.candidateInAppend[found]?).getD false = true then do
            let candidate ← world.candidates[found]?
            pure (next.put index (.leaving lock (.flow candidate.flow)))
          else some (next.put index (.unanswered lock))
      | .exhausted _ => some (next.put index (.leaving lock .exhausted))
      | .noMatch _ => some (next.put index (.unanswered lock))
  | .unanswered lock =>
      match upstreamRequest server.client server.context asked.request with
      | .ok _ => none
      | .error error => some (world.put index (.leaving lock (.failed error)))
  | .recorded lock flow =>
      some ({ world with
        candidates := world.candidates ++ [MatchCandidate.fromFlow flow]
        candidateInAppend := world.candidateInAppend ++ [true] }.put index
          (.leaving lock (.flow flow)))
  | .leaving lock answer => some (world.put index (.released lock answer))
  | .released _ answer => some (world.put index (.answered answer))
  | .answered _ => none

def httpErrorText : HttpError → String
  | .conversion message => "HTTP conversion: " ++ message
  | .body message => "body stream: " ++ message
  | .store error => "fixture: " ++ error.display

/-- The upstream transaction of a request that holds its lock, and its record. -/
def transact (server : Server N) (asked : Asked) (world : World) (index : Nat)
    (observed : Observation) : Thread → Option World
  | .unanswered lock =>
      match upstreamRequest server.client server.context asked.request with
      | .error _ => none
      | .ok request =>
          let recorded := recordRequestWithSession server.storage server.codec
            server.context.settings (request.exchange server.context observed) world.recording
          let next :=
            { world with recording := recorded.2, transactions := world.transactions + 1 }
          match recorded.1 with
          | .ok flow => some (next.put index (.recorded lock flow))
          | .error error => some (next.put index (.leaving lock (.failed
              (.rejected 502 ("upstream recording failed: " ++ httpErrorText error)))))
  | _ => none

def step [DecidableEq N] (server : Server N) (asked : Asked) (world : World) :
    Action → Option World
  | .arrive => some { world with threads := world.threads ++ [.arrived] }
  | .advance index => do
      let thread ← world.threads[index]?
      advance server asked world index thread
  | .transact index observed => do
      let thread ← world.threads[index]?
      transact server asked world index observed thread

/-- A server that has loaded its fixture, with an open recording session. -/
def started (fixture : List Flow) (recording : RecordingInner) : World where
  candidates := fixture.map MatchCandidate.fromFlow
  candidateInAppend := fixture.map fun _ => false
  recording := recording

end EggReplay.Http.AppendMiss
