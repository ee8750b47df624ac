import EggReplay.Http.CandidateScript

/-!
The comparison of two recorded WebSocket conversations, as `diff` makes it.
-/

namespace EggReplay.Cli.FixtureWebSockets

open EggReplay.Library.Text
open EggReplay.Core.FlowRecord
open EggReplay.Core.WebSockets
open EggReplay.Core.Redaction
open EggReplay.Core.Reports
open EggReplay.Http.WebSocketMatching
open EggReplay.Http.CandidateScript

variable {N : Type}

/-! ### What `{:?}` prints -/

def debugOption {α : Type} (debug : α → String) : Option α → String
  | none => "None"
  | some a => "Some(" ++ debug a ++ ")"

def debugDirection : WebSocketDirection → String
  | .clientToServer => "ClientToServer"
  | .serverToClient => "ServerToClient"

/-- The terminal; `quoted` prints a string with its quotes and escapes. -/
def debugTerminal (quoted : String → String) : WebSocketTerminal → String
  | .cleanClose code reason =>
      "CleanClose \x7b code: " ++ debugOption Nat.repr code ++ ", reason: " ++
        debugOption quoted reason ++ " \x7d"
  | .abnormal cause => "Abnormal \x7b cause: " ++ quoted cause ++ " \x7d"

/-! ### Messages -/

def fixturePayload (read : ReadBlob) : BodyRef → Option Bytes
  | .blob blob => read blob
  | .absent | .empty => some []

def payloadSummary (message : WebSocketMessage) : String :=
  match message.payload with
  | some (.blob blob) => "sha256:" ++ blob.sha256 ++ ";length:" ++ Nat.repr blob.length
  | some body => "length:" ++ Nat.repr (body.len.getD 0)
  | none => "length:0"

/-- The pointers that either message is marked with. -/
def pointerSets (a b : WebSocketMessage) : Finset String :=
  ((a.redactions ++ b.redactions).filterMap jsonPointersOf).flatten.toFinset

def samePayload (codec : BodyCodec N) (pointers : Finset String) :
    Option Bytes → Option Bytes → Bool
  | some left, some right =>
      if pointers ≠ ∅ then
        match applyJsonRedaction codec left pointers, applyJsonRedaction codec right pointers with
        | .ok (l, _), .ok (r, _) => decide (l = r)
        | _, _ => false
      else decide (left = right)
  | none, none => true
  | _, _ => false

def isWhole : WebSocketRedaction → Bool
  | .wholeMessage => true
  | .closeReason | .jsonPointers _ => false

/-- A finding, where it is to be reported. -/
def findingWhen (condition : Bool) (field baseline candidate : String) : List DiffFinding :=
  if condition = true then [wsFinding field baseline candidate] else []

def comparePayload (codec : BodyCodec N) (baseline candidate : ReadBlob) (field : String)
    (a b : WebSocketMessage) : List DiffFinding :=
  if (a.redactions ++ b.redactions).any isWhole = true ∨ a.kind = .close then []
  else
    findingWhen (!samePayload codec (pointerSets a b)
        (a.payload.bind (fixturePayload baseline)) (b.payload.bind (fixturePayload candidate)))
      (field ++ ".payload") (payloadSummary a) (payloadSummary b)

def compareMessages (codec : BodyCodec N) (baseline candidate : ReadBlob)
    (cadenceToleranceNs : Option Nat) (index : Nat) (a b : WebSocketMessage) :
    List DiffFinding :=
  let field := "message." ++ Nat.repr index
  findingWhen (decide (a.direction ≠ b.direction)) (field ++ ".direction")
      (debugDirection a.direction) (debugDirection b.direction) ++
    if a.kind ≠ b.kind then
      findingWhen true (field ++ ".kind") (debugKind a.kind) (debugKind b.kind)
    else
      findingWhen (decide (a.closeCode ≠ b.closeCode)) (field ++ ".close_code")
          (debugOption Nat.repr a.closeCode) (debugOption Nat.repr b.closeCode) ++
        findingWhen (decide (a.closeReason ≠ b.closeReason) &&
            !(a.redactions ++ b.redactions).any isWildcard) (field ++ ".close_reason")
          "different" "different" ++
        findingWhen (cadenceToleranceNs.any fun tolerance =>
            decide (tolerance < absDiff a.deltaNs b.deltaNs)) (field ++ ".cadence")
          (Nat.repr a.deltaNs) (Nat.repr b.deltaNs) ++
        comparePayload codec baseline candidate field a b

/-! ### Conversations -/

def compareFixtureWebsockets (codec : BodyCodec N) (quoted : String → String)
    (baseline candidate : ReadBlob) (left right : WebSocketConversation)
    (cadenceToleranceNs : Option Nat) : List DiffFinding :=
  findingWhen (decide (left.selectedSubprotocol ≠ right.selectedSubprotocol))
      "handshake.subprotocol" (left.selectedSubprotocol.getD "none")
      (right.selectedSubprotocol.getD "none") ++
    findingWhen (decide (left.terminal ≠ right.terminal)) "terminal"
      (debugTerminal quoted left.terminal) (debugTerminal quoted right.terminal) ++
    findingWhen (decide (left.messages.length ≠ right.messages.length)) "messages.count"
      (Nat.repr left.messages.length) (Nat.repr right.messages.length) ++
    (left.messages.zip right.messages).zipIdx.flatMap fun entry =>
      compareMessages codec baseline candidate cadenceToleranceNs entry.2 entry.1.1 entry.1.2

/-! ### The two fixtures exchanged -/

theorem fields_findingWhen (condition : Bool) (field a b c d : String) :
    (findingWhen condition field a b).map DiffFinding.field =
      (findingWhen condition field c d).map DiffFinding.field := by
  cases condition with
  | true => rfl
  | false => rfl

theorem decide_ne_comm {α : Type} [DecidableEq α] (a b : α) :
    decide (a ≠ b) = decide (b ≠ a) := by
  rw [decide_eq_decide]
  exact ne_comm

theorem any_append_comm {α : Type} (test : α → Bool) (left right : List α) :
    (left ++ right).any test = (right ++ left).any test := by
  rw [List.any_append, List.any_append, Bool.or_comm]

theorem pointerSets_comm (a b : WebSocketMessage) : pointerSets a b = pointerSets b a := by
  rw [pointerSets, pointerSets, List.filterMap_append, List.filterMap_append,
    List.flatten_append, List.flatten_append, List.toFinset_append, List.toFinset_append,
    Finset.union_comm]

theorem samePayload_comm (codec : BodyCodec N) (pointers : Finset String)
    (left right : Option Bytes) :
    samePayload codec pointers left right = samePayload codec pointers right left := by
  rcases left with _ | left
  · cases right with
    | none => rfl
    | some right => rfl
  · rcases right with _ | right
    · rfl
    · rw [samePayload, samePayload]
      split_ifs with hpointers
      · rcases applyJsonRedaction codec left pointers with e | ⟨l, found⟩
        · rcases applyJsonRedaction codec right pointers with e' | ⟨r, found'⟩
          · rfl
          · rfl
        · rcases applyJsonRedaction codec right pointers with e' | ⟨r, found'⟩
          · rfl
          · exact decide_eq_decide.mpr eq_comm
      · exact decide_eq_decide.mpr eq_comm

theorem absDiff_comm (a b : Nat) : absDiff a b = absDiff b a := by
  rw [absDiff, absDiff]
  omega

theorem compareMessages_exchange (codec : BodyCodec N) (baseline candidate : ReadBlob)
    (tolerance : Option Nat) (index : Nat) (a b : WebSocketMessage) :
    (compareMessages codec baseline candidate tolerance index a b).map DiffFinding.field =
      (compareMessages codec candidate baseline tolerance index b a).map DiffFinding.field := by
  rw [compareMessages, compareMessages, List.map_append, List.map_append,
    decide_ne_comm a.direction]
  refine congrArg₂ (· ++ ·) (fields_findingWhen _ _ _ _ _ _) ?_
  by_cases hkind : a.kind = b.kind
  · rw [if_neg (not_not.mpr hkind), if_neg (not_not.mpr hkind.symm)]
    simp only [List.map_append]
    rw [decide_ne_comm a.closeCode, decide_ne_comm a.closeReason,
      any_append_comm isWildcard a.redactions, absDiff_comm a.deltaNs]
    refine congrArg₂ (· ++ ·) (congrArg₂ (· ++ ·) (congrArg₂ (· ++ ·) ?_ rfl) ?_) ?_
    · exact fields_findingWhen _ _ _ _ _ _
    · exact fields_findingWhen _ _ _ _ _ _
    · rw [comparePayload, comparePayload, any_append_comm isWhole a.redactions, hkind,
        pointerSets_comm, samePayload_comm]
      split_ifs with hskipped
      · rfl
      · exact fields_findingWhen _ _ _ _ _ _
  · rw [if_pos hkind, if_pos (Ne.symm hkind)]
    exact fields_findingWhen _ _ _ _ _ _

/-- Exchanging the two fixtures exchanges the two sides of each finding, and leaves the
fields of the findings as they are. -/
theorem compareFixtureWebsockets_exchange (codec : BodyCodec N) (quoted : String → String)
    (baseline candidate : ReadBlob) (left right : WebSocketConversation)
    (tolerance : Option Nat) :
    (compareFixtureWebsockets codec quoted baseline candidate left right tolerance).map
        DiffFinding.field =
      (compareFixtureWebsockets codec quoted candidate baseline right left tolerance).map
        DiffFinding.field := by
  have hmessages : ∀ (start : Nat) (xs ys : List WebSocketMessage),
      (((xs.zip ys).zipIdx start).flatMap fun entry =>
          compareMessages codec baseline candidate tolerance entry.2 entry.1.1 entry.1.2).map
            DiffFinding.field =
        (((ys.zip xs).zipIdx start).flatMap fun entry =>
          compareMessages codec candidate baseline tolerance entry.2 entry.1.1 entry.1.2).map
            DiffFinding.field := by
    intro start xs
    induction xs generalizing start with
    | nil =>
        intro ys
        rw [List.zip_nil_left, List.zip_nil_right]
        rfl
    | cons x xs ih =>
        intro ys
        rcases ys with _ | ⟨y, ys⟩
        · rfl
        · rw [List.zip_cons_cons, List.zip_cons_cons, List.zipIdx_cons, List.zipIdx_cons,
            List.flatMap_cons, List.flatMap_cons, List.map_append, List.map_append, ih]
          apply congrArg (· ++ _)
          exact compareMessages_exchange codec baseline candidate tolerance start x y
  rw [compareFixtureWebsockets, compareFixtureWebsockets]
  simp only [List.map_append]
  rw [decide_ne_comm left.selectedSubprotocol, decide_ne_comm left.terminal,
    decide_ne_comm left.messages.length, hmessages]
  refine congrArg₂ (· ++ ·) (congrArg₂ (· ++ ·) (congrArg₂ (· ++ ·) ?_ ?_) ?_) rfl
  · exact fields_findingWhen _ _ _ _ _ _
  · exact fields_findingWhen _ _ _ _ _ _
  · exact fields_findingWhen _ _ _ _ _ _

end EggReplay.Cli.FixtureWebSockets
