import EggReplay.Cli.FixtureWebSockets

/-!
When the comparison of two fixtures and the comparison with a live candidate come to the
same for a WebSocket message: the one sees what the relay records of the message, the other
the message itself.
-/

namespace EggReplay.Cli.WebSocketAgreement

open EggReplay.Library.Text
open EggReplay.Core.FlowRecord
open EggReplay.Core.WebSockets
open EggReplay.Core.Redaction
open EggReplay.Core.BodyWildcards
open EggReplay.Core.Reports
open EggReplay.Http.WebSocketRelay
open EggReplay.Http.RelayTranscripts
open EggReplay.Http.RelayRedaction
open EggReplay.Http.WebSocketMatching
open EggReplay.Http.CandidateScript
open EggReplay.Cli.FixtureWebSockets

variable {N : Type} {codec : BodyCodec N} {options : WebSocketRecordingOptions}
  {config : RedactionConfig}

/-! ### Messages in the place of others -/

/-- What the relay records of a message, in the place of an expected one. -/
def recordedInPlace (codec : BodyCodec N) (options : WebSocketRecordingOptions)
    (config : RedactionConfig) (expected : WebSocketMessage) (projected : Projection) :
    WebSocketMessage :=
  messageEntry codec expected.sequence expected.direction expected.deltaNs projected
    (recordedAs codec options config projected)

/-- The recorded payload of a message is stored. -/
def StoredIn (read : ReadBlob) (codec : BodyCodec N) (payload : Bytes) : Prop :=
  payload ≠ [] →
    read { sha256 := codec.sha256 payload, length := payload.length } = some payload

/-- A close frame with the code of a recorded close that has no reason: the candidate's
reason is empty, or it is one that the relay would have redacted. -/
def ReasonApart (options : WebSocketRecordingOptions) (expected : WebSocketMessage)
    (actual : Message) : Prop :=
  ∃ frame, actual = .close (some frame) ∧ expected.kind = .close ∧
    expected.closeCode = some frame.code ∧ expected.closeReason = none ∧
    (frame.reason = "" ∨ options.redactText = true)

/-- A message that was recorded with the same settings, with its payload in both fixtures. -/
def RecordedIn (codec : BodyCodec N) (options : WebSocketRecordingOptions)
    (config : RedactionConfig) (baseline candidate : ReadBlob) (entry : WebSocketMessage) :
    Prop :=
  ∃ message, Nonempty (Recording codec options config baseline message entry) ∧
    Nonempty (Recording codec options config candidate message entry)

/-! ### Findings -/

theorem findingWhen_eq_nil {condition : Bool} {field a b : String} :
    findingWhen condition field a b = [] ↔ condition = false := by
  cases condition with
  | true => exact ⟨(by rintro ⟨⟩), (by rintro ⟨⟩)⟩
  | false => exact ⟨fun _ => rfl, fun _ => rfl⟩

/-- Two messages that the comparison of fixtures takes for the same. -/
structure SameMessage (codec : BodyCodec N) (baseline candidate : ReadBlob)
    (tolerance : Option Nat) (a b : WebSocketMessage) : Prop where
  direction : a.direction = b.direction
  kind : a.kind = b.kind
  code : a.closeCode = b.closeCode
  reason : a.closeReason = b.closeReason ∨ (a.redactions ++ b.redactions).any isWildcard = true
  cadence : ∀ bound ∈ tolerance, absDiff a.deltaNs b.deltaNs ≤ bound
  payload : (a.redactions ++ b.redactions).any isWhole = true ∨ a.kind = .close ∨
    samePayload codec (pointerSets a b) (a.payload.bind (fixturePayload baseline))
      (b.payload.bind (fixturePayload candidate)) = true

theorem comparePayload_eq_nil {baseline candidate : ReadBlob} {field : String}
    {a b : WebSocketMessage} :
    comparePayload codec baseline candidate field a b = [] ↔
      (a.redactions ++ b.redactions).any isWhole = true ∨ a.kind = .close ∨
        samePayload codec (pointerSets a b) (a.payload.bind (fixturePayload baseline))
          (b.payload.bind (fixturePayload candidate)) = true := by
  rw [comparePayload, ← or_assoc]
  split_ifs with hskipped
  · exact ⟨fun _ => .inl hskipped, fun _ => rfl⟩
  · rw [findingWhen_eq_nil, Bool.not_eq_false']
    exact ⟨.inr, fun h => h.resolve_left hskipped⟩

theorem compareMessages_eq_nil {baseline candidate : ReadBlob} {tolerance : Option Nat}
    {index : Nat} {a b : WebSocketMessage} :
    compareMessages codec baseline candidate tolerance index a b = [] ↔
      SameMessage codec baseline candidate tolerance a b := by
  rw [compareMessages, List.append_eq_nil_iff, findingWhen_eq_nil, decide_eq_false_iff_not,
    not_not]
  by_cases hkind : a.kind = b.kind
  · rw [if_neg (not_not.mpr hkind)]
    simp only [List.append_eq_nil_iff, findingWhen_eq_nil, comparePayload_eq_nil,
      decide_eq_false_iff_not, not_not, Bool.and_eq_false_iff, Bool.not_eq_false']
    constructor
    · rintro ⟨hdirection, ⟨⟨hcode, hreason⟩, hcadence⟩, hpayload⟩
      refine ⟨hdirection, hkind, hcode, hreason, ?_, hpayload⟩
      intro bound hbound
      obtain rfl := Option.mem_def.mp hbound
      rw [Option.any_some, decide_eq_false_iff_not] at hcadence
      exact Nat.le_of_not_lt hcadence
    · intro h
      refine ⟨h.direction, ⟨⟨h.code, h.reason⟩, ?_⟩, h.payload⟩
      cases tolerance with
      | none => rfl
      | some bound =>
          rw [Option.any_some, decide_eq_false_iff_not]
          exact Nat.not_lt.mpr (h.cadence bound rfl)
  · rw [if_pos hkind, findingWhen_eq_nil]
    exact iff_of_false (fun h => Bool.noConfusion h.2) fun h => hkind h.kind

/-! ### Payloads -/

/-- A payload as a fixture has it: nothing is stored for an empty one. -/
def nonempty (payload : Bytes) : Option Bytes :=
  if payload = [] then none else some payload

theorem payloadRef_read {read : ReadBlob} {payload : Bytes}
    (h : StoredIn read codec payload) :
    (payloadRef codec payload).bind (fixturePayload read) = nonempty payload := by
  rw [payloadRef, nonempty]
  split_ifs with hempty
  · rfl
  · exact h hempty

theorem samePayload_plain (a b : Bytes) :
    samePayload codec ∅ (nonempty a) (nonempty b) = true ↔ b = a := by
  rw [nonempty, nonempty]
  split_ifs with ha hb hb
  · exact ⟨fun _ => hb.trans ha.symm, fun _ => rfl⟩
  · exact ⟨(by rintro ⟨⟩), fun h => absurd (h.trans ha) hb⟩
  · exact ⟨(by rintro ⟨⟩), fun h => absurd (h.symm.trans hb) ha⟩
  · rw [samePayload, if_neg (not_not.mpr rfl), decide_eq_true_eq]
    exact eq_comm

/-- Nothing is redacted in an empty body. -/
theorem applyJsonRedaction_ne_nil (hcodec : Lawful codec) {body clean : Bytes}
    {paths : Finset String} {found : Bool}
    (h : applyJsonRedaction codec body paths = .ok (clean, found)) : body ≠ [] := by
  rintro rfl
  obtain ⟨value, hvalue, -⟩ := applyJsonRedaction_eq_ok h
  exact hcodec.parse_empty value hvalue

theorem samePayload_redacted (hcodec : Lawful codec) {paths : Finset String}
    (hpaths : paths ≠ ∅) {a b : Bytes} {a' b' : Bytes} {founda foundb : Bool}
    (ha : applyJsonRedaction codec a paths = .ok (a', founda))
    (hb : applyJsonRedaction codec b paths = .ok (b', foundb)) :
    samePayload codec paths (nonempty a) (nonempty b) = true ↔ a' = b' := by
  rw [nonempty, nonempty, if_neg (applyJsonRedaction_ne_nil hcodec ha),
    if_neg (applyJsonRedaction_ne_nil hcodec hb), samePayload, if_pos hpaths, ha, hb]
  exact decide_eq_true_iff

/-- A body that is no JSON is not the same as one that is. -/
theorem samePayload_left (hcodec : Lawful codec) {paths : Finset String} (hpaths : paths ≠ ∅)
    {a b b' : Bytes} {found : Bool} {error : String}
    (ha : applyJsonRedaction codec a paths = .error error)
    (hb : applyJsonRedaction codec b paths = .ok (b', found)) :
    samePayload codec paths (nonempty a) (nonempty b) = false := by
  rw [nonempty, nonempty, if_neg (applyJsonRedaction_ne_nil hcodec hb)]
  split_ifs with hempty
  · rfl
  · rw [samePayload, if_pos hpaths, ha]

/-- The pointers of two lists of redactions. -/
def pointersOf (left right : List WebSocketRedaction) : Finset String :=
  ((left ++ right).filterMap jsonPointersOf).flatten.toFinset

/-- The two comparisons agree on payloads that are no closes: the one sees what came, the
other what is recorded of it. -/
theorem redactPayload_agree (hcodec : Lawful codec) (kind : WebSocketMessageKind)
    (bytes other : Bytes) {left right : Bytes × Option WebSocketRedaction}
    (hleft : redactPayload codec options config kind bytes = left)
    (hright : redactPayload codec options config kind other = right) :
    (left.2.toList.any isWildcard = true ∨
        comparePayloads codec left.2.toList left.1 other = true) ↔
      (left.2.toList ++ right.2.toList).any isWhole = true ∨
        samePayload codec (pointersOf left.2.toList right.2.toList) (nonempty left.1)
          (nonempty right.1) = true := by
  rw [redactPayload] at hleft hright
  have hplain : left = (bytes, none) → right = (other, none) →
      ((left.2.toList.any isWildcard = true ∨
          comparePayloads codec left.2.toList left.1 other = true) ↔
        (left.2.toList ++ right.2.toList).any isWhole = true ∨
          samePayload codec (pointersOf left.2.toList right.2.toList) (nonempty left.1)
            (nonempty right.1) = true) := by
    rintro rfl rfl
    show (false = true ∨ decide (other = bytes) = true) ↔
      (false = true ∨ samePayload codec ∅ (nonempty bytes) (nonempty other) = true)
    rw [samePayload_plain, decide_eq_true_eq]
  split_ifs at hleft hright with hwhole hjson hbinary
  · subst hleft
    exact iff_of_true (.inl rfl) (.inl rfl)
  · have hpaths := hjson.2
    have hone : pointersOf [.jsonPointers (config.jsonPaths.sort (· ≤ ·))] [] =
        config.jsonPaths := by
      show ((config.jsonPaths.sort (· ≤ ·)) ++ []).toFinset = _
      rw [List.append_nil, Finset.sort_toFinset]
    have hother : pointersOf [] [.jsonPointers (config.jsonPaths.sort (· ≤ ·))] =
        config.jsonPaths := hone
    have hboth : pointersOf [.jsonPointers (config.jsonPaths.sort (· ≤ ·))]
        [.jsonPointers (config.jsonPaths.sort (· ≤ ·))] = config.jsonPaths := by
      show ((config.jsonPaths.sort (· ≤ ·)) ++ ((config.jsonPaths.sort (· ≤ ·)) ++ [])).toFinset = _
      rw [List.append_nil, List.toFinset_append, Finset.sort_toFinset, Finset.union_idempotent]
    rcases happly : applyJsonRedaction codec bytes config.jsonPaths with error | ⟨clean, found⟩
    · rw [happly] at hleft
      rcases happly' : applyJsonRedaction codec other config.jsonPaths with
        error' | ⟨clean', found'⟩
      · rw [happly'] at hright
        exact hplain hleft.symm hright.symm
      · -- the candidate's text is JSON and the recorded one is not
        rw [happly'] at hright
        subst hleft hright
        obtain ⟨again, hagain⟩ := applyJsonRedaction_idem hcodec happly'
        have hne : ¬other = bytes := by
          rintro rfl
          rw [happly] at happly'
          cases happly'
        have hapart := samePayload_left hcodec hpaths happly hagain
        refine iff_of_false ?_ ?_
        · rintro (hwild | hsame)
          · cases hwild
          · exact hne (of_decide_eq_true hsame)
        · rintro (hmarked | hsame)
          · cases hmarked
          · have hpointers : samePayload codec config.jsonPaths (nonempty bytes)
                (nonempty clean') = true := by
              rw [← hother]
              exact hsame
            rw [hapart] at hpointers
            cases hpointers
    · rw [happly] at hleft
      subst hleft
      obtain ⟨again, hagain⟩ := applyJsonRedaction_idem hcodec happly
      have hcompare : comparePayloads codec [.jsonPointers (config.jsonPaths.sort (· ≤ ·))] clean
          other = sameRedacted codec (config.jsonPaths.sort (· ≤ ·)) clean other := rfl
      rcases happly' : applyJsonRedaction codec other config.jsonPaths with
        error' | ⟨clean', found'⟩
      · -- the recorded text is JSON and the candidate's is not
        rw [happly'] at hright
        subst hright
        refine iff_of_false ?_ ?_
        · rintro (hwild | hsame)
          · cases hwild
          · rw [Option.toList_some, hcompare, sameRedacted, Finset.sort_toFinset, hagain,
              happly'] at hsame
            cases hsame
        · rintro (hmarked | hsame)
          · cases hmarked
          · have hpointers : samePayload codec config.jsonPaths (nonempty clean)
                (nonempty other) = true := by
              rw [← hone]
              exact hsame
            rw [samePayload_comm, samePayload_left hcodec hpaths happly' hagain] at hpointers
            cases hpointers
      · rw [happly'] at hright
        subst hright
        obtain ⟨again', hagain'⟩ := applyJsonRedaction_idem hcodec happly'
        show (false = true ∨ _) ↔ (false = true ∨ samePayload codec (pointersOf
          [.jsonPointers (config.jsonPaths.sort (· ≤ ·))]
          [.jsonPointers (config.jsonPaths.sort (· ≤ ·))]) _ _ = true)
        rw [hboth, samePayload_redacted hcodec hpaths hagain hagain', Option.toList_some, hcompare,
          sameRedacted, Finset.sort_toFinset, hagain, happly', decide_eq_true_eq]
  · subst hleft
    exact iff_of_true (.inl rfl) (.inl rfl)
  · exact hplain hleft.symm hright.symm

/-! ### One message -/

section

variable {baseline candidate : ReadBlob} {tolerance : Option Nat} {expected : WebSocketMessage}
  {message actual : Message} {projected : Projection}

/-- A message that is no close keeps its kind and bytes, and has no close metadata. -/
theorem recordedAs_no_close {projected : Projection} (hkind : projected.kind ≠ .close) :
    recordedAs codec options config projected =
      { payload := (redactPayload codec options config projected.kind projected.bytes).1
        closeReason := projected.closeReason
        redaction := (redactPayload codec options config projected.kind projected.bytes).2 } :=
  if_neg fun h => hkind h.1

/-- The comparison of fixtures with a message in the place of the expected one. -/
theorem sameMessage_inPlace_iff (hread : StoredIn candidate codec
    (recordedAs codec options config projected).payload) :
    SameMessage codec baseline candidate tolerance expected
        (recordedInPlace codec options config expected projected) ↔
      expected.kind = projected.kind ∧ expected.closeCode = projected.closeCode ∧
      (expected.closeReason = (recordedAs codec options config projected).closeReason ∨
        (expected.redactions ++
          (recordedAs codec options config projected).redaction.toList).any isWildcard = true) ∧
      ((expected.redactions ++
          (recordedAs codec options config projected).redaction.toList).any isWhole = true ∨
        expected.kind = .close ∨
        samePayload codec
          (pointersOf expected.redactions (recordedAs codec options config projected).redaction.toList)
          (expected.payload.bind (fixturePayload baseline))
          (nonempty (recordedAs codec options config projected).payload) = true) := by
  have hpayload : (recordedInPlace codec options config expected projected).payload.bind
      (fixturePayload candidate) = nonempty (recordedAs codec options config projected).payload :=
    payloadRef_read hread
  constructor
  · intro h
    have hsame := h.payload
    rw [hpayload] at hsame
    exact ⟨h.kind, h.code, h.reason, hsame⟩
  · rintro ⟨hkind, hcode, hreason, hsame⟩
    refine ⟨rfl, hkind, hcode, hreason, ?_, ?_⟩
    · intro bound hbound
      show absDiff expected.deltaNs expected.deltaNs ≤ bound
      rw [absDiff, Nat.sub_self]
      exact Nat.zero_le bound
    · rw [hpayload]
      exact hsame

/-- Messages of another kind are found to differ by either comparison. -/
theorem other_kind_differs (hproject : project actual = some projected)
    (hread : StoredIn candidate codec (recordedAs codec options config projected).payload)
    (hkind : expected.kind ≠ projected.kind) :
    ¬candidateMessageMatches codec baseline expected actual = true ∧
      ¬SameMessage codec baseline candidate tolerance expected
        (recordedInPlace codec options config expected projected) := by
  constructor
  · rw [candidateMessageMatches_eq, matches_eq_true_iff]
    rintro ⟨seen, hseen, hsame, -⟩
    obtain ⟨other, hother, hotherKind, -⟩ := observe_of_project hproject
    obtain rfl := Option.some.inj (hseen.symm.trans hother)
    exact hkind (hsame.symm.trans hotherKind)
  · rw [sameMessage_inPlace_iff hread]
    exact fun h => hkind h.1

/-- On messages that are no closes the two comparisons agree. -/
theorem data_agree (hcodec : Lawful codec)
    (recording : Recording codec options config baseline message expected)
    (hproject : project actual = some projected)
    (hread : StoredIn candidate codec (recordedAs codec options config projected).payload)
    (hkind : expected.kind = projected.kind) (hdata : projected.kind ≠ .close) :
    candidateMessageMatches codec baseline expected actual = true ↔
      SameMessage codec baseline candidate tolerance expected
        (recordedInPlace codec options config expected projected) := by
  obtain ⟨origin, sequence, direction, deltaNs, horigin, rfl, hstored⟩ := recording.exists_entry
  obtain ⟨seen, hseen, hseenKind, hbytes, -, -⟩ := observe_of_project hproject
  have hsameKind : origin.kind = projected.kind := hkind
  have horiginData : origin.kind ≠ .close := fun hclose => hdata (hsameKind ▸ hclose)
  have hseenData : seen.kind ≠ .close := fun hclose => hdata (hseenKind ▸ hclose)
  have hshaped := project_shaped hproject
  have horiginShaped := project_shaped horigin
  have hagree := @redactPayload_agree _ _ options config hcodec projected.kind
    origin.bytes projected.bytes _ _ rfl rfl
  have hpayload : (payloadRef codec (recordedAs codec options config origin).payload).bind
      (fixturePayload baseline) = nonempty (recordedAs codec options config origin).payload :=
    payloadRef_read hstored
  have hexpected : expectedPayload baseline (messageEntry codec sequence direction deltaNs origin
      (recordedAs codec options config origin)) =
        some (recordedAs codec options config origin).payload := by
    by_cases hempty : (recordedAs codec options config origin).payload = []
    · simp [expectedPayload, messageEntry, payloadRef, hempty]
    · simpa [expectedPayload, messageEntry, payloadRef, hempty] using hstored hempty
  rw [sameMessage_inPlace_iff hread, candidateMessageMatches_eq, matches_eq_true_iff, hexpected]
  dsimp only [messageEntry]
  rw [hpayload, recordedAs_no_close horiginData, recordedAs_no_close hdata]
  dsimp only
  rw [hsameKind, horiginShaped.code horiginData, horiginShaped.reason horiginData,
    hshaped.code hdata, hshaped.reason hdata]
  constructor
  · rintro ⟨other, hother, -, -, hcases⟩
    obtain rfl := Option.some.inj (hseen.symm.trans hother)
    refine ⟨rfl, rfl, .inl rfl, ?_⟩
    have hleft : (redactPayload codec options config projected.kind origin.bytes).2.toList.any
        isWildcard = true ∨
        comparePayloads codec (redactPayload codec options config projected.kind
          origin.bytes).2.toList (redactPayload codec options config projected.kind origin.bytes).1
          projected.bytes = true := by
      rcases hcases with hwild | ⟨-, ⟨hclose, -⟩ | ⟨-, payload, hread, hsame⟩⟩
      · exact .inl hwild
      · exact absurd hclose hseenData
      · obtain rfl := Option.some.inj hread
        rw [hbytes] at hsame
        exact .inr hsame
    rcases hagree.mp hleft with hwhole | hsame
    · exact .inl hwhole
    · exact .inr (.inr hsame)
  · rintro ⟨-, -, -, hcases⟩
    refine ⟨seen, hseen, hseenKind, fun hclose => absurd hclose hseenData, ?_⟩
    have hright := hcases.imp_right fun h => h.resolve_left hdata
    rcases hagree.mpr hright with hwild | hsame
    · exact .inl hwild
    · rcases hmarked : (redactPayload codec options config projected.kind
        origin.bytes).2.toList.any isWildcard with _ | _
      · refine .inr ⟨rfl, .inr ⟨hseenData, _, rfl, ?_⟩⟩
        rw [hbytes]
        exact hsame
      · exact .inl rfl

/-- What the relay records of a close, and whether its reason is redacted. -/
theorem recordedAs_close_iff {projected : Projection} (hkind : projected.kind = .close) :
    ((recordedAs codec options config projected).redaction.toList.any isWildcard = true ↔
        options.redactText = true ∧ projected.closeReason.isSome = true) ∧
      ((recordedAs codec options config projected).closeReason = none ↔
        projected.closeReason = none) ∧
      ((recordedAs codec options config projected).redaction.toList.any isWildcard = false →
        (recordedAs codec options config projected).closeReason = projected.closeReason) := by
  have hpayload : redactPayload codec options config projected.kind projected.bytes =
      (projected.bytes, none) := by
    rw [redactPayload, hkind]
    rfl
  rw [recordedAs]
  split_ifs with hredacted
  · obtain ⟨-, htext, hreason⟩ := hredacted
    refine ⟨iff_of_true rfl ⟨htext, hreason⟩, ⟨(by rintro ⟨⟩), ?_⟩, (by rintro ⟨⟩)⟩
    intro hnone
    rw [hnone] at hreason
    cases hreason
  · rw [hpayload]
    refine ⟨iff_of_false Bool.false_ne_true ?_, Iff.rfl, fun _ => rfl⟩
    exact fun hboth => hredacted ⟨hkind, hboth.1, hboth.2⟩

theorem nonemptyReason_of_empty {frame : CloseFrame} (h : frame.reason = "") :
    nonemptyReason frame = none :=
  if_pos h

theorem nonemptyReason_of_ne {frame : CloseFrame} (h : frame.reason ≠ "") :
    nonemptyReason frame = some frame.reason :=
  if_neg h

/-- The relay records an empty reason as none. -/
theorem project_reason_ne_empty (hproject : project message = some projected) :
    projected.closeReason ≠ some "" := by
  cases message with
  | close frame =>
      obtain rfl := Option.some.inj hproject
      intro hempty
      obtain ⟨given, -, hreason⟩ := Option.bind_eq_some_iff.mp hempty
      by_cases hnone : given.reason = ""
      · rw [nonemptyReason_of_empty hnone] at hreason
        cases hreason
      · rw [nonemptyReason_of_ne hnone] at hreason
        exact hnone (Option.some.inj hreason)
  | frame => cases hproject
  | text content =>
      obtain rfl := Option.some.inj hproject
      rintro ⟨⟩
  | binary data =>
      obtain rfl := Option.some.inj hproject
      rintro ⟨⟩
  | ping data =>
      obtain rfl := Option.some.inj hproject
      rintro ⟨⟩
  | pong data =>
      obtain rfl := Option.some.inj hproject
      rintro ⟨⟩

/-- The projection of a close frame. -/
def closeProjection (frame : Option CloseFrame) : Projection where
  kind := .close
  bytes := []
  closeCode := frame.map CloseFrame.code
  closeReason := frame.bind nonemptyReason

/-- What either comparison goes by where both messages are closes. -/
theorem close_comparisons (recording : Recording codec options config baseline message expected)
    {frame : Option CloseFrame} (hkind : expected.kind = .close) :
    ∃ origin, project message = some origin ∧ expected.closeCode = origin.closeCode ∧
      (expected.redactions.any isWildcard = true ↔
        options.redactText = true ∧ origin.closeReason.isSome = true) ∧
      (expected.closeReason = none ↔ origin.closeReason = none) ∧
      (expected.redactions.any isWildcard = false → expected.closeReason = origin.closeReason) ∧
      (candidateMessageMatches codec baseline expected (.close frame) = true ↔
        frame.map CloseFrame.code = expected.closeCode ∧
          (expected.redactions.any isWildcard = true ∨
            frame.map CloseFrame.reason = expected.closeReason)) ∧
      (SameMessage codec baseline candidate tolerance expected
          (recordedInPlace codec options config expected (closeProjection frame)) ↔
        frame.map CloseFrame.code = expected.closeCode ∧
          (expected.redactions.any isWildcard = true ∨
            (recordedAs codec options config (closeProjection frame)).redaction.toList.any
              isWildcard = true ∨
            (recordedAs codec options config (closeProjection frame)).closeReason =
              expected.closeReason)) := by
  obtain ⟨origin, sequence, direction, deltaNs, horigin, rfl, -⟩ := recording.exists_entry
  have horiginKind : origin.kind = .close := hkind
  obtain ⟨hwild, hnone, hkept⟩ :=
    @recordedAs_close_iff _ codec options config _ horiginKind
  have hempty : (recordedAs codec options config (closeProjection frame)).payload = [] :=
    (recordedAs_shaped (project_shaped (show project (.close frame) =
      some (closeProjection frame) from rfl))).close rfl
  refine ⟨origin, horigin, rfl, hwild, hnone, hkept, ?_, ?_⟩
  · rw [candidateMessageMatches_eq, matches_eq_true_iff]
    constructor
    · rintro ⟨seen, hseen, -, hcode, hcases⟩
      obtain rfl := Option.some.inj hseen
      refine ⟨hcode rfl, ?_⟩
      rcases hcases with hmarked | ⟨-, ⟨-, hreason⟩ | ⟨hdata, -⟩⟩
      · exact .inl hmarked
      · exact .inr hreason
      · exact absurd rfl hdata
    · rintro ⟨hcode, hcases⟩
      refine ⟨_, rfl, hkind.symm, fun _ => hcode, ?_⟩
      rcases hmarked : (recordedAs codec options config origin).redaction.toList.any
        isWildcard with _ | _
      · refine .inr ⟨hmarked, .inl ⟨rfl, ?_⟩⟩
        rcases hcases with hsome | hreason
        · exact absurd (hmarked.symm.trans hsome) Bool.false_ne_true
        · exact hreason
      · exact .inl hmarked
  · rw [sameMessage_inPlace_iff fun hpayload => absurd hempty hpayload, List.any_append,
      Bool.or_eq_true]
    constructor
    · rintro ⟨-, hcode, hcases, -⟩
      refine ⟨hcode.symm, ?_⟩
      rcases hcases with hreason | hmarked | hmarked
      · exact .inr (.inr hreason.symm)
      · exact .inl hmarked
      · exact .inr (.inl hmarked)
    · rintro ⟨hcode, hcases⟩
      refine ⟨hkind, hcode.symm, ?_, .inr (.inl hkind)⟩
      rcases hcases with hmarked | hmarked | hreason
      · exact .inr (.inl hmarked)
      · exact .inr (.inr hmarked)
      · exact .inl hreason.symm

/-- On closes the two comparisons agree but for a reason whose record is no reason, or is
redacted, where none was recorded before. -/
theorem close_agree_iff (recording : Recording codec options config baseline message expected)
    (frame : Option CloseFrame) (hkind : expected.kind = .close) :
    (candidateMessageMatches codec baseline expected (.close frame) = true ↔
      SameMessage codec baseline candidate tolerance expected
        (recordedInPlace codec options config expected (closeProjection frame))) ↔
      ¬ReasonApart options expected (.close frame) := by
  obtain ⟨origin, horigin, hcode, hwild, hnone, hkept, hmatches, hsame⟩ :=
    close_comparisons recording hkind
  obtain ⟨hwild', hnone', hkept'⟩ := @recordedAs_close_iff _ codec options
    config _ (show (closeProjection frame).kind = .close from rfl)
  rw [hmatches, hsame]
  by_cases hcodes : frame.map CloseFrame.code = expected.closeCode
  · rcases hmarked : expected.redactions.any isWildcard with _ | _
    · rw [and_iff_right hcodes, and_iff_right hcodes, or_iff_right Bool.false_ne_true,
        or_iff_right Bool.false_ne_true]
      rw [hmarked] at hwild
      cases frame with
      | none =>
          have hplain : ¬(recordedAs codec options config (closeProjection none)).redaction.toList.any
              isWildcard = true := fun h => by cases (hwild'.mp h).2
          rw [or_iff_right hplain, hnone'.mpr rfl]
          refine iff_of_true Iff.rfl ?_
          rintro ⟨given, hframe, -⟩
          cases hframe
      | some given =>
          have hdiffers : some given.reason = expected.closeReason → given.reason ≠ "" := by
            intro hreason hempty
            rw [hkept hmarked] at hreason
            exact project_reason_ne_empty horigin (hempty ▸ hreason.symm)
          have happly : expected.closeReason = none →
              (given.reason = "" ∨ options.redactText = true) →
              ReasonApart options expected (.close (some given)) :=
            fun hnoReason hcases => ⟨given, rfl, hkind, hcodes.symm, hnoReason, hcases⟩
          by_cases htext : options.redactText = true
          · -- an unmarked close has no reason, and the candidate's record is not compared
            have hnoReason : expected.closeReason = none := by
              apply hnone.mpr
              rw [← Option.not_isSome_iff_eq_none]
              exact fun hsome => Bool.false_ne_true (hmarked ▸ hwild.mpr ⟨htext, hsome⟩)
            refine iff_of_false ?_ (not_not.mpr (happly hnoReason (.inr htext)))
            intro hagree
            have hfound : some given.reason = expected.closeReason := by
              apply hagree.mpr
              by_cases hempty : given.reason = ""
              · right
                rw [hnoReason, hnone']
                exact nonemptyReason_of_empty hempty
              · left
                apply hwild'.mpr
                refine ⟨htext, ?_⟩
                show (nonemptyReason given).isSome = true
                rw [nonemptyReason_of_ne hempty]
                rfl
            rw [hnoReason] at hfound
            cases hfound
          · have hplain : (recordedAs codec options config
                (closeProjection (some given))).redaction.toList.any isWildcard = false := by
              rw [Bool.eq_false_iff]
              exact fun h => htext (hwild'.mp h).1
            have hrecorded : (recordedAs codec options config
                (closeProjection (some given))).closeReason = nonemptyReason given :=
              hkept' hplain
            rw [hplain, or_iff_right Bool.false_ne_true, hrecorded]
            by_cases hempty : given.reason = ""
            · rw [nonemptyReason_of_empty hempty]
              have hleft : ¬some given.reason = expected.closeReason :=
                fun hreason => hdiffers hreason hempty
              by_cases hnoReason : expected.closeReason = none
              · refine iff_of_false ?_ (not_not.mpr (happly hnoReason (.inl hempty)))
                exact fun hagree => hleft (hagree.mpr hnoReason.symm)
              · refine iff_of_true (iff_of_false hleft fun h => hnoReason h.symm) ?_
                rintro ⟨-, -, -, -, hnoReason', -⟩
                exact hnoReason hnoReason'
            · rw [nonemptyReason_of_ne hempty]
              refine iff_of_true Iff.rfl ?_
              rintro ⟨other, hother, -, -, -, hcases⟩
              obtain rfl := Option.some.inj (Message.close.inj hother)
              exact hcases.elim hempty htext
    · refine iff_of_true (iff_of_true ⟨hcodes, .inl rfl⟩ ⟨hcodes, .inl rfl⟩) ?_
      rintro ⟨given, -, -, -, hreason, -⟩
      have hsome := (hwild.mp hmarked).2
      rw [hnone.mp hreason] at hsome
      cases hsome
  · refine iff_of_true (iff_of_false (fun h => hcodes h.1) fun h => hcodes h.1) ?_
    rintro ⟨given, hframe, -, hgiven, -⟩
    obtain rfl := Message.close.inj hframe
    exact hcodes hgiven.symm

theorem kind_close {actual : Message} {projected : Projection}
    (hproject : project actual = some projected) (hkind : projected.kind = .close) :
    ∃ frame, actual = .close frame ∧ projected = closeProjection frame := by
  cases actual with
  | close frame =>
      obtain rfl := Option.some.inj hproject
      exact ⟨frame, rfl, rfl⟩
  | frame => cases hproject
  | text content =>
      obtain rfl := Option.some.inj hproject
      cases hkind
  | binary data =>
      obtain rfl := Option.some.inj hproject
      cases hkind
  | ping data =>
      obtain rfl := Option.some.inj hproject
      cases hkind
  | pong data =>
      obtain rfl := Option.some.inj hproject
      cases hkind

/-- The two comparisons of a message agree but for the reasons of closes. -/
theorem message_agree_iff (hcodec : Lawful codec)
    (recording : Recording codec options config baseline message expected)
    (hproject : project actual = some projected)
    (hread : StoredIn candidate codec (recordedAs codec options config projected).payload) :
    (candidateMessageMatches codec baseline expected actual = true ↔
      SameMessage codec baseline candidate tolerance expected
        (recordedInPlace codec options config expected projected)) ↔
      ¬ReasonApart options expected actual := by
  by_cases hkind : expected.kind = projected.kind
  · by_cases hclose : projected.kind = .close
    · obtain ⟨frame, rfl, rfl⟩ := kind_close hproject hclose
      exact close_agree_iff recording frame hkind
    · refine iff_of_true (data_agree hcodec recording hproject hread hkind hclose) ?_
      rintro ⟨frame, -, hexpected, -⟩
      exact hclose (hkind.symm.trans hexpected)
  · obtain ⟨hlive, hfixture⟩ := @other_kind_differs _ _ _ _ _ _ tolerance _ _ _ hproject hread hkind
    refine iff_of_true (iff_of_false hlive hfixture) ?_
    rintro ⟨frame, rfl, hexpected, -⟩
    obtain rfl := Option.some.inj hproject
    exact hkind hexpected

/-- A recorded message is the same as itself. -/
theorem RecordedIn.same (hcodec : Lawful codec) {entry : WebSocketMessage}
    (h : RecordedIn codec options config baseline candidate entry) :
    SameMessage codec baseline candidate tolerance entry entry := by
  obtain ⟨message, ⟨recording⟩, ⟨other⟩⟩ := h
  obtain ⟨origin, sequence, direction, deltaNs, horigin, hentry, -⟩ := recording.exists_entry
  obtain ⟨origin', sequence', direction', deltaNs', horigin', -, hstored⟩ := other.exists_entry
  obtain rfl := Option.some.inj (horigin.symm.trans horigin')
  have hinPlace : recordedInPlace codec options config entry origin = entry := by
    rw [hentry]
    rfl
  have hkind : entry.kind = origin.kind := by
    rw [hentry]
    rfl
  by_cases hclose : origin.kind = .close
  · refine ⟨rfl, rfl, rfl, .inl rfl, ?_, .inr (.inl (hkind.trans hclose))⟩
    intro bound hbound
    rw [absDiff, Nat.sub_self]
    exact Nat.zero_le bound
  · have hreasoned : ¬EmptyReason message := by
      rintro ⟨code, rfl⟩
      obtain rfl := Option.some.inj horigin
      exact hclose rfl
    have hmatches : candidateMessageMatches codec baseline entry message = true := by
      rw [candidateMessageMatches_eq]
      exact recording.matches_self hcodec hreasoned
    rw [data_agree hcodec recording horigin hstored hkind hclose, hinPlace] at hmatches
    exact hmatches

/-! ### One position of two fixtures -/

/-- The conversation with the message between those before and after it. -/
def withMessage (conversation : WebSocketConversation) (before after : List WebSocketMessage)
    (message : WebSocketMessage) : WebSocketConversation :=
  { conversation with messages := before ++ message :: after }

theorem compare_eq_nil_iff (hcodec : Lawful codec) (quoted : String → String)
    (conversation : WebSocketConversation) {before after : List WebSocketMessage}
    (hothers : ∀ entry ∈ before ++ after,
      RecordedIn codec options config baseline candidate entry) (a b : WebSocketMessage) :
    compareFixtureWebsockets codec quoted baseline candidate
        (withMessage conversation before after a) (withMessage conversation before after b)
        tolerance = [] ↔
      SameMessage codec baseline candidate tolerance a b := by
  have hlength : (before ++ a :: after).length = (before ++ b :: after).length := by
    rw [List.length_append, List.length_append, List.length_cons, List.length_cons]
  have hself : ∀ entries : List WebSocketMessage, (∀ entry ∈ entries,
      RecordedIn codec options config baseline candidate entry) →
      ∀ pair ∈ entries.zip entries,
        SameMessage codec baseline candidate tolerance pair.1 pair.2 := by
    intro entries hentries pair hpair
    have hzip : entries.zip entries = entries.map fun entry => (entry, entry) := by
      rw [← List.zip_map', List.map_id']
    rw [hzip, List.mem_map] at hpair
    obtain ⟨entry, hentry, rfl⟩ := hpair
    exact (hentries entry hentry).same hcodec
  rw [compareFixtureWebsockets, withMessage, withMessage]
  simp only [List.append_eq_nil_iff, findingWhen_eq_nil, decide_eq_false_iff_not, not_not,
    hlength, true_and, List.flatMap_eq_nil_iff, compareMessages_eq_nil]
  rw [List.zip_append rfl, List.zip_cons_cons]
  constructor
  · intro h
    obtain ⟨index, hindex⟩ : ∃ index, (((a, b), index) : (WebSocketMessage × WebSocketMessage) × Nat) ∈
        (before.zip before ++ (a, b) :: after.zip after).zipIdx := by
      have hmem : (a, b) ∈ before.zip before ++ (a, b) :: after.zip after :=
        List.mem_append_right _ List.mem_cons_self
      rw [← List.zipIdx_map_fst 0 (before.zip before ++ (a, b) :: after.zip after),
        List.mem_map] at hmem
      obtain ⟨⟨pair, index⟩, hpair, hfirst⟩ := hmem
      obtain rfl : pair = (a, b) := hfirst
      exact ⟨index, hpair⟩
    exact h _ hindex
  · intro h entry hentry
    have hmem := List.fst_mem_of_mem_zipIdx hentry
    rcases List.mem_append.mp hmem with hbefore | hafter
    · exact hself before (fun other hother => hothers other (List.mem_append_left _ hother)) _
        hbefore
    · rcases List.mem_cons.mp hafter with hhere | hafter
      · rw [hhere]
        exact h
      · exact hself after (fun other hother => hothers other (List.mem_append_right _ hother)) _
          hafter

/-- The comparison with a live candidate and the comparison of two fixtures agree on a
message, and exchanging the fixtures keeps the fields of the findings, exactly where the
message is not a close whose reason sets them apart. -/
theorem comparisons_agree_iff (hcodec : Lawful codec) (quoted : String → String)
    (recording : Recording codec options config baseline message expected)
    (hproject : project actual = some projected)
    (hread : StoredIn candidate codec (recordedAs codec options config projected).payload)
    (conversation : WebSocketConversation) {before after : List WebSocketMessage}
    (hothers : ∀ entry ∈ before ++ after,
      RecordedIn codec options config baseline candidate entry) (tolerance : Option Nat) :
    ((candidateMessageMatches codec baseline expected actual = true ↔
        compareFixtureWebsockets codec quoted baseline candidate
          (withMessage conversation before after expected)
          (withMessage conversation before after
            (recordedInPlace codec options config expected projected)) tolerance = []) ∧
      (compareFixtureWebsockets codec quoted baseline candidate
          (withMessage conversation before after expected)
          (withMessage conversation before after
            (recordedInPlace codec options config expected projected)) tolerance).map
          DiffFinding.field =
        (compareFixtureWebsockets codec quoted candidate baseline
          (withMessage conversation before after
            (recordedInPlace codec options config expected projected))
          (withMessage conversation before after expected) tolerance).map DiffFinding.field) ↔
      ¬ReasonApart options expected actual := by
  rw [and_iff_left (compareFixtureWebsockets_exchange codec quoted baseline candidate _ _ _),
    compare_eq_nil_iff hcodec quoted conversation hothers]
  exact message_agree_iff hcodec recording hproject hread

end

/-! ### A text, and a close without a reason -/

def closeConversation : WebSocketConversation where
  id := "ws-0"
  flowId := "flow-0"
  offeredSubprotocols := []
  selectedSubprotocol := none
  messages := []
  terminal := .abnormal "eof"

theorem text_compared :
    (candidateMessageMatches letterCodec (fun _ => some (utf8 ['a'])) oneTextEntry (.text "a") =
          true ↔
        compareFixtureWebsockets letterCodec id (fun _ => some (utf8 ['a']))
          (fun _ => some (utf8 ['a'])) (withMessage closeConversation [] [] oneTextEntry)
          (withMessage closeConversation [] []
            (recordedInPlace letterCodec plainOptions .defaultSecure oneTextEntry
              { kind := .text, bytes := utf8 "a".toList, closeCode := none,
                closeReason := none })) none = []) := by
  have hplain : ¬ReasonApart plainOptions oneTextEntry (.text "a") := by
    rintro ⟨frame, hframe, -⟩
    cases hframe
  have hstored : StoredIn (fun _ => some (utf8 ['a'])) letterCodec
      (recordedAs letterCodec plainOptions .defaultSecure
        { kind := .text, bytes := utf8 "a".toList, closeCode := none,
          closeReason := none }).payload := by
    intro _
    decide
  exact ((comparisons_agree_iff letterCodec_lawful id textRecording rfl hstored closeConversation
    (fun entry hentry => absurd hentry List.not_mem_nil) none).mpr hplain).1

/-- A close without a reason is told from its own record by the comparison with a live
candidate, and not by the comparison of fixtures. -/
theorem close_without_reason_differs :
    ¬(candidateMessageMatches letterCodec (fun _ => none) closeEntry
          (.close (some { code := 1000, reason := "" })) = true ↔
        compareFixtureWebsockets letterCodec id (fun _ => none) (fun _ => none)
          (withMessage closeConversation [] [] closeEntry)
          (withMessage closeConversation [] []
            (recordedInPlace letterCodec plainOptions .defaultSecure closeEntry
              (closeProjection (some { code := 1000, reason := "" })))) none = []) := by
  decide

end EggReplay.Cli.WebSocketAgreement
