import EggReplay.Http.ConcealedFields
import EggReplay.Http.RecorderAgreement

/-!
Two transactions whose bodies differ in the selected values only: what becomes of the bodies and
of the headers that a transform makes stale.
-/

namespace EggReplay.Http.SelectedBodies

open EggReplay.Library.Checks
open EggReplay.Library.Text
open EggReplay.Library.JsonText
open EggReplay.Library.TwoRuns
open EggReplay.Core.FlowRecord
open EggReplay.Core.StreamTimeline
open EggReplay.Core.Redaction
open EggReplay.Core.ScenarioSecrecy
open EggReplay.Store.Fixture
open EggReplay.Store.BlobContents
open EggReplay.Http.Transaction
open EggReplay.Http.StreamEventCapture
open EggReplay.Http.Recorder
open EggReplay.Http.Captures
open EggReplay.Http.RecordMarkers
open EggReplay.Http.GatewayAnswers
open EggReplay.Http.ConcealedFields
open EggReplay.Http.RecorderAgreement

variable {N : Type}

/-! ### Bodies that differ in selected values -/

def SameFormPair (keys : Finset String) (left right : String × String) : Prop :=
  left.1 = right.1 ∧ (left.1 ∈ keys ∨ left.2 = right.2)

/-- Two bodies of a media type that is redacted. A form is read as text, so that both are
UTF-8 or neither is. -/
inductive SameSelected (codec : BodyCodec N) (config : RedactionConfig)
    (contentType : Option String) (left right : Bytes) : Prop
  | json (htype : isJsonContentType contentType = true) (hpaths : config.jsonPaths ≠ ∅)
      {value other : Json N} (hleft : codec.fromSlice left = .ok value)
      (hright : codec.fromSlice right = .ok other)
      (hchanged : ChangedAt config.jsonPaths value other)
  | form (htype : isFormContentType contentType = true) (hkeys : config.queryKeys ≠ ∅)
      (hpairs : List.Forall₂ (SameFormPair config.queryKeys) (codec.parseForm left)
        (codec.parseForm right))
      (hutf8 : (decodeUtf8 left).isSome = (decodeUtf8 right).isSome)

section

variable {codec : BodyCodec N} {config : RedactionConfig} {contentType : Option String}
  {left right : Bytes}

theorem SameSelected.needsTransform (h : SameSelected codec config contentType left right) :
    needsTransform config contentType = true := by
  cases h with
  | json htype hpaths _ _ _ => exact needsTransform_iff.mpr (.inl ⟨hpaths, htype⟩)
  | form htype hkeys _ _ => exact needsTransform_iff.mpr (.inr ⟨hkeys, htype⟩)

theorem redactFormPairs_same {keys : Finset String} {pairs others : List (String × String)}
    (h : List.Forall₂ (SameFormPair keys) pairs others) :
    pairs.map (redactFormPair keys) = others.map (redactFormPair keys) := by
  induction h with
  | nil => rfl
  | @cons a b pairs others hab _ ih =>
      obtain ⟨key, value⟩ := a
      obtain ⟨key', value'⟩ := b
      obtain ⟨hkey, hvalue⟩ := hab
      obtain rfl : key = key' := hkey
      rw [List.map_cons, List.map_cons, ih, redactFormPair, redactFormPair]
      split
      · rfl
      · rename_i hpublic
        obtain rfl : value = value' := hvalue.resolve_left hpublic
        rfl

theorem formKeys_same {keys : Finset String} {pairs others : List (String × String)}
    (h : List.Forall₂ (SameFormPair keys) pairs others) :
    (pairs.any fun pair => decide (pair.1 ∈ keys)) =
      others.any fun pair => decide (pair.1 ∈ keys) :=
  any_related h fun _ _ hab => by rw [hab.1]

theorem applyFormRedaction_same (hleft : left ≠ []) (hright : right ≠ [])
    (hpairs : List.Forall₂ (SameFormPair config.queryKeys) (codec.parseForm left)
      (codec.parseForm right))
    (hutf8 : (decodeUtf8 left).isSome = (decodeUtf8 right).isSome) :
    applyFormRedaction codec left config.queryKeys =
      applyFormRedaction codec right config.queryKeys := by
  have hnone : codec.parseForm left = [] ↔ codec.parseForm right = [] := by
    rw [← List.length_eq_zero_iff, ← List.length_eq_zero_iff, hpairs.length_eq]
  rw [applyFormRedaction, applyFormRedaction]
  rcases hdecode : decodeUtf8 left with _ | chars
  · rw [hdecode, Option.isSome_none, eq_comm, Option.isSome_eq_false_iff,
      Option.isNone_iff_eq_none] at hutf8
    rw [hutf8]
    rfl
  · rw [hdecode, Option.isSome_some, eq_comm, Option.isSome_iff_exists] at hutf8
    obtain ⟨others, hothers⟩ := hutf8
    rw [hothers]
    dsimp only
    rw [redactFormPairs_same hpairs, formKeys_same hpairs]
    by_cases hempty : codec.parseForm left = []
    · have hother := hnone.mp hempty
      have hrejected : ¬¬(codec.parseForm left = [] ∧ left ≠ []) := not_not.mpr ⟨hempty, hleft⟩
      have hrejected' : ¬¬(codec.parseForm right = [] ∧ right ≠ []) :=
        not_not.mpr ⟨hother, hright⟩
      rw [ensure_of_false hrejected, ensure_of_false hrejected']
      rfl
    · have haccepted : ¬(codec.parseForm left = [] ∧ left ≠ []) := fun h => hempty h.1
      have haccepted' : ¬(codec.parseForm right = [] ∧ right ≠ []) :=
        fun h => hempty (hnone.mpr h.1)
      rw [ensure_of_true haccepted, ensure_of_true haccepted']
      rfl

theorem applyJsonRedaction_same {value other : Json N} (hleft : codec.fromSlice left = .ok value)
    (hright : codec.fromSlice right = .ok other)
    (hchanged : ChangedAt config.jsonPaths value other) :
    (applyJsonRedaction codec left config.jsonPaths).map Prod.fst =
      (applyJsonRedaction codec right config.jsonPaths).map Prod.fst := by
  rw [applyJsonRedaction, applyJsonRedaction, hleft, hright]
  show Except.ok (codec.toVec (redactPointers _ _).1) = Except.ok (codec.toVec (redactPointers _ _).1)
  rw [redactPointers_fst, redactPointers_fst, hchanged.redacted_eq]

/-- The transform makes the same of two bodies that differ in selected values. -/
theorem SameSelected.transformBody_same (h : SameSelected codec config contentType left right)
    (hleft : left ≠ []) (hright : right ≠ []) (profile : String) (isResponse : Bool) :
    transformBody codec left contentType config profile isResponse =
      transformBody codec right contentType config profile isResponse := by
  rw [transformBody, transformBody, if_neg hleft, if_neg hright]
  cases h with
  | json htype hpaths hvalue hother hchanged =>
      have hclean := applyJsonRedaction_same hvalue hother hchanged
      rw [if_pos ⟨hpaths, htype⟩, if_pos ⟨hpaths, htype⟩]
      generalize applyJsonRedaction codec left config.jsonPaths = cleaned at hclean ⊢
      generalize applyJsonRedaction codec right config.jsonPaths = cleaned' at hclean ⊢
      rcases cleaned with message | ⟨clean, found⟩
      · rcases cleaned' with message' | ⟨clean', found'⟩
        · obtain rfl : message = message' := Except.error.inj hclean
          rfl
        · cases hclean
      · rcases cleaned' with message' | ⟨clean', found'⟩
        · cases hclean
        · obtain rfl : clean = clean' := Except.ok.inj hclean
          rfl
  | form htype hkeys hpairs hutf8 =>
      rw [applyFormRedaction_same hleft hright hpairs hutf8]
      have hjson : ¬(config.jsonPaths ≠ ∅ ∧ isJsonContentType contentType = true) := by
        rintro ⟨-, hjson⟩
        rw [isFormContentType, decide_eq_true_eq] at htype
        rw [htype] at hjson
        revert hjson
        decide
      rw [if_neg hjson, if_neg hjson, if_pos ⟨hkeys, htype⟩, if_pos ⟨hkeys, htype⟩]

end

/-! ### Stale headers -/

def staleHeaders : List String :=
  ["content-length", "content-md5", "content-digest", "digest", "signature", "signature-input"]

/-- A header that a transform of the body drops whatever its value is, where an ETag is strong. -/
def Stale (header : HeaderEntry) : Prop :=
  toAsciiLowercase header.name ∈ staleHeaders ∨
    toAsciiLowercase header.name = "etag" ∧ startsWith (trimStart header.value) "W/" = false

def SameUnlessStale (left right : HeaderEntry) : Prop :=
  left = right ∨ left.name = right.name ∧ Stale left ∧ Stale right

/-- The same of fields. Values that are written in hexadecimal are noted, so that both values
are or neither is. -/
def SameFieldUnlessStale (left right : HeaderField) : Prop :=
  left = right ∨ left.name = right.name ∧ Stale (headerEntry left) ∧ Stale (headerEntry right) ∧
    (toStr left.value).isNone = (toStr right.value).isNone

theorem reconcileHeader_of_stale {header : HeaderEntry} (h : Stale header) :
    reconcileHeader header =
      if toAsciiLowercase header.name = "content-length" then .drop
      else .dropMarked (toAsciiLowercase header.name) := by
  rw [Stale] at h
  unfold reconcileHeader
  generalize toAsciiLowercase header.name = name at h ⊢
  rcases h with hname | ⟨rfl, hstrong⟩
  · simp only [staleHeaders, List.mem_cons, List.not_mem_nil, or_false] at hname
    rcases hname with rfl | rfl | rfl | rfl | rfl | rfl
    · rfl
    · rfl
    · rfl
    · rfl
    · rfl
    · rfl
  · rw [hstrong]
    rfl

example : reconcileHeader { name := "Content-Length", value := "3" } = .drop := by decide

theorem SameUnlessStale.verdict {left right : HeaderEntry} (h : SameUnlessStale left right) :
    reconcileHeader left = reconcileHeader right := by
  rcases h with rfl | ⟨hname, hleft, hright⟩
  · rfl
  · rw [reconcileHeader_of_stale hleft, reconcileHeader_of_stale hright, hname]

/-- What is kept is the same in both. -/
theorem SameUnlessStale.eq_of_kept {left right : HeaderEntry} (h : SameUnlessStale left right)
    (hkept : reconcileHeader left = .keep ∨ reconcileHeader left = .warn) : left = right := by
  rcases h with heq | ⟨-, hleft, -⟩
  · exact heq
  · rw [reconcileHeader_of_stale hleft] at hkept
    split at hkept
    · rcases hkept with hkept | hkept
      · cases hkept
      · cases hkept
    · rcases hkept with hkept | hkept
      · cases hkept
      · cases hkept

theorem SameUnlessStale.redacted {left right : HeaderEntry} (h : SameUnlessStale left right)
    (names : Finset String) :
    SameUnlessStale (redactHeader names left) (redactHeader names right) := by
  rcases h with rfl | ⟨hname, hleft, hright⟩
  · exact .inl rfl
  · rw [redactHeader, redactHeader, ← hname]
    split
    · left
      obtain ⟨name, value⟩ := left
      obtain ⟨name', value'⟩ := right
      obtain rfl : name = name' := hname
      rfl
    · exact .inr ⟨hname, hleft, hright⟩

theorem SameUnlessStale.name {left right : HeaderEntry} (h : SameUnlessStale left right) :
    left.name = right.name := by
  rcases h with rfl | ⟨hname, -, -⟩
  · rfl
  · exact hname

theorem names_same {left right : List HeaderEntry} (h : List.Forall₂ SameUnlessStale left right) :
    left.map (·.name) = right.map (·.name) := by
  induction h with
  | nil => rfl
  | cons hfirst _ ih => rw [List.map_cons, List.map_cons, hfirst.name, ih]

/-- Reconciliation makes the same of headers that differ in stale ones. -/
theorem reconciled_stale {left right : List HeaderEntry}
    (h : List.Forall₂ SameUnlessStale left right) (newLen : Nat) (profile : String) :
    reconcileHeadersAfterBodyRedaction left newLen profile =
      reconcileHeadersAfterBodyRedaction right newLen profile := by
  rw [reconcileHeadersAfterBodyRedaction, reconcileHeadersAfterBodyRedaction,
    Reconciled.mk.injEq]
  refine ⟨congrArg (· ++ _) ?_, ?_, ?_⟩
  · induction h with
    | nil => rfl
    | cons hfirst _ ih =>
        rw [List.filter_cons, List.filter_cons, ← hfirst.verdict, ih]
        split
        · rename_i hkept
          rw [hfirst.eq_of_kept (of_decide_eq_true hkept)]
        · rfl
  · induction h with
    | nil => rfl
    | cons hfirst _ ih => rw [List.filterMap_cons, List.filterMap_cons, ← hfirst.verdict, ih]
  · induction h with
    | nil => rfl
    | cons hfirst _ ih => rw [List.filterMap_cons, List.filterMap_cons, ← hfirst.verdict, ih]

section

variable {a b : HeaderField}

theorem SameFieldUnlessStale.entry (h : SameFieldUnlessStale a b) :
    SameUnlessStale (headerEntry a) (headerEntry b) := by
  rcases h with rfl | ⟨hname, hleft, hright, -⟩
  · exact .inl rfl
  · refine .inr ⟨?_, hleft, hright⟩
    rw [headerEntry, headerEntry, hname]

theorem SameFieldUnlessStale.name (h : SameFieldUnlessStale a b) : a.name = b.name := by
  rcases h with rfl | ⟨hname, -⟩
  · rfl
  · exact hname

theorem SameFieldUnlessStale.lossy (h : SameFieldUnlessStale a b) :
    (toStr a.value).isNone = (toStr b.value).isNone := by
  rcases h with rfl | ⟨-, -, -, hlossy⟩
  · rfl
  · exact hlossy

/-- No transform makes a media type stale. -/
theorem SameFieldUnlessStale.contentType (h : SameFieldUnlessStale a b)
    (hname : toAsciiLowercase a.name = "content-type") : a.value = b.value := by
  rcases h with rfl | ⟨-, hleft, -⟩
  · rfl
  · rw [Stale, headerEntry, toAsciiLowercase_idem, hname] at hleft
    rcases hleft with hstale | hetag
    · exact absurd hstale (by decide)
    · exact absurd hetag.1 (by decide)

end

section

variable {left right : HeaderMap}

theorem entries_same (h : List.Forall₂ SameFieldUnlessStale left right) :
    List.Forall₂ SameUnlessStale (headerEntries left).1 (headerEntries right).1 := by
  apply List.forall₂_map_left_iff.mpr
  apply List.forall₂_map_right_iff.mpr
  exact h.imp fun _ _ hfield => hfield.entry

theorem redactedEntries_same (h : List.Forall₂ SameFieldUnlessStale left right)
    (names : Finset String) :
    List.Forall₂ SameUnlessStale ((headerEntries left).1.map (redactHeader names))
      ((headerEntries right).1.map (redactHeader names)) := by
  apply List.forall₂_map_left_iff.mpr
  apply List.forall₂_map_right_iff.mpr
  exact (entries_same h).imp fun _ _ hentry => hentry.redacted names

theorem contentType_unless_stale (h : List.Forall₂ SameFieldUnlessStale left right) :
    contentType left = contentType right := by
  have hlower : toAsciiLowercase "content-type" = "content-type" := by decide
  have hfind : (left.find? fun field => eqIgnoreAsciiCase field.name "content-type").map
        HeaderField.value =
      (right.find? fun field => eqIgnoreAsciiCase field.name "content-type").map
        HeaderField.value := by
    apply find_value_related h
    · intro a b hab
      rw [hab.name]
    · intro a b hab hname
      rw [eqIgnoreAsciiCase, decide_eq_true_eq, hlower] at hname
      exact hab.contentType hname
  rw [contentType, contentType]
  have hbind : ∀ found : Option HeaderField,
      (found.bind fun field => toStr field.value) = (found.map HeaderField.value).bind toStr := by
    intro found
    cases found with
    | none => rfl
    | some field => rfl
  rw [hbind, hbind, hfind]

theorem lossy_unless_stale (h : List.Forall₂ SameFieldUnlessStale left right) :
    (headerEntries left).2 = (headerEntries right).2 :=
  any_related h fun _ _ hfield => hfield.lossy

end

/-! ### Bodies within the limits -/

def bodyOf (frames : List TimedFrame) : Bytes := frames.flatMap frameData

/-- The entries of all the trailers. -/
def trailersIn (frames : List TimedFrame) : List HeaderEntry :=
  (frames.flatMap sentTrailers).flatMap fun fields => (headerEntries fields).1

structure Fits (maxBlobBytes : Nat) (frames : List TimedFrame) : Prop where
  blob : (bodyOf frames).length ≤ maxBlobBytes
  length : (bodyOf frames).length ≤ u64Max
  events : frames.length < maxEventsPerDirection

theorem push_of_room {events : List StreamEvent} (h : events.length < maxEventsPerDirection)
    (event : StreamEvent) :
    ∃ next, pushStreamEventInner events event = .ok next ∧ next.length ≤ events.length + 1 := by
  rw [pushStreamEventInner]
  by_cases hempty : isEmptyData event = true
  · exact ⟨events, if_pos hempty, Nat.le_succ _⟩
  · rw [if_neg hempty]
    exact ⟨_, if_pos h, by rw [List.length_append, List.length_singleton]⟩

theorem grow_of_fits {maxBlobBytes : Nat} {content buffer : Bytes}
    (hlength : content.length + buffer.length ≤ u64Max)
    (hblob : content.length + buffer.length ≤ maxBlobBytes) :
    grow maxBlobBytes content buffer = .ok (content ++ buffer) := by
  rw [grow, ensure_of_true hlength, ensure_of_true hblob]
  rfl

section

variable (maxBlobBytes : Nat)

/-- A frame for which there is room is taken. -/
theorem taken_frame {taken : Taken} (frame : TimedFrame) (hgiven : taken.given = true)
    (hlength : taken.content.length + (frameData frame).length ≤ u64Max)
    (hblob : taken.content.length + (frameData frame).length ≤ maxBlobBytes)
    (hevents : taken.events.length < maxEventsPerDirection) :
    ∃ events offset, events.length ≤ taken.events.length + 1 ∧
      taken.frame maxBlobBytes pushStreamEventInner frame =
        { content := taken.content ++ frameData frame
          trailers := taken.trailers ++ trailersIn [frame]
          events := events
          offset := offset
          given := true } := by
  obtain ⟨content, trailers, events, offset, given⟩ := taken
  obtain rfl : given = true := hgiven
  have hopen : ¬true = false := fun h => Bool.false_ne_true h.symm
  obtain ⟨deltaNs, bytes | fields⟩ := frame
  · obtain ⟨next, hpush, hnext⟩ := push_of_room hevents ⟨deltaNs, .data offset bytes.length⟩
    have hgrow := grow_of_fits hlength hblob
    refine ⟨next, saturatingAdd offset bytes.length, hnext, ?_⟩
    rw [Taken.frame, if_neg hopen]
    dsimp only [frameData] at hgrow hpush ⊢
    rw [hgrow]
    dsimp only
    rw [hpush]
    exact congrArg (fun trailers => (⟨_, trailers, _, _, true⟩ : Taken))
      (List.append_nil trailers).symm
  · obtain ⟨next, hpush, hnext⟩ :=
      push_of_room hevents ⟨deltaNs, .trailers (headerEntries fields).1⟩
    refine ⟨next, offset, hnext, ?_⟩
    rw [Taken.frame, if_neg hopen]
    dsimp only at hpush ⊢
    rw [hpush]
    simp only [frameData, trailersIn, sentTrailers, List.flatMap_cons, List.flatMap_nil,
      List.append_nil]

theorem taken_frames {taken : Taken} {frames : List TimedFrame} (hgiven : taken.given = true)
    (hlength : taken.content.length + (bodyOf frames).length ≤ u64Max)
    (hblob : taken.content.length + (bodyOf frames).length ≤ maxBlobBytes)
    (hevents : taken.events.length + frames.length < maxEventsPerDirection) :
    (frames.foldl (Taken.frame maxBlobBytes pushStreamEventInner) taken).content =
        taken.content ++ bodyOf frames ∧
      (frames.foldl (Taken.frame maxBlobBytes pushStreamEventInner) taken).trailers =
        taken.trailers ++ trailersIn frames := by
  induction frames generalizing taken with
  | nil => exact ⟨(List.append_nil _).symm, (List.append_nil _).symm⟩
  | cons frame rest ih =>
      rw [bodyOf, List.flatMap_cons, List.length_append] at hlength hblob
      rw [List.length_cons] at hevents
      obtain ⟨events, offset, hcount, hframe⟩ :=
        taken_frame maxBlobBytes frame hgiven (by omega) (by omega) (by omega)
      obtain ⟨hcontent, htrailers⟩ := @ih
        ⟨taken.content ++ frameData frame, taken.trailers ++ trailersIn [frame], events, offset,
          true⟩ rfl
        (by rw [List.length_append, bodyOf]; omega) (by rw [List.length_append, bodyOf]; omega)
        (by dsimp only; omega)
      rw [List.foldl_cons, hframe]
      rw [hcontent, htrailers]
      simp only [bodyOf, trailersIn, List.flatMap_cons, List.flatMap_nil, List.append_nil,
        List.flatMap_append, List.append_assoc, and_self]

/-- A request body within the limits is taken as a whole. -/
theorem takenBody_of_fits {exchange : Exchange} (h : Fits maxBlobBytes exchange.polled) :
    (takenBody maxBlobBytes pushStreamEventInner exchange).content = bodyOf exchange.polled ∧
      (takenBody maxBlobBytes pushStreamEventInner exchange).trailers =
        trailersIn exchange.polled := by
  have hlength : ([] : Bytes).length + (bodyOf exchange.polled).length ≤ u64Max := by
    rw [List.length_nil, Nat.zero_add]
    exact h.length
  have hblob : ([] : Bytes).length + (bodyOf exchange.polled).length ≤ maxBlobBytes := by
    rw [List.length_nil, Nat.zero_add]
    exact h.blob
  have hevents : ([] : List StreamEvent).length + exchange.polled.length <
      maxEventsPerDirection := by
    rw [List.length_nil, Nat.zero_add]
    exact h.events
  have hframes := @taken_frames maxBlobBytes .start exchange.polled rfl hlength hblob hevents
  rw [takenBody, (taken_finish_kept _ _ _).1, (taken_finish_kept _ _ _).2]
  exact hframes

theorem received_frame {received : Received} (frame : TimedFrame)
    (hlength : received.content.length + (frameData frame).length ≤ u64Max)
    (hblob : received.content.length + (frameData frame).length ≤ maxBlobBytes)
    (hevents : received.events.length < maxEventsPerDirection) :
    ∃ next, received.frame maxBlobBytes frame = .ok next ∧
      next.content = received.content ++ frameData frame ∧
      next.events.length ≤ received.events.length + 1 := by
  obtain ⟨content, trailers, events, offset⟩ := received
  obtain ⟨deltaNs, bytes | fields⟩ := frame
  · obtain ⟨next, hpush, hnext⟩ := push_of_room hevents ⟨deltaNs, .data offset bytes.length⟩
    have hgrow := grow_of_fits hlength hblob
    refine ⟨⟨content ++ bytes, trailers, next, saturatingAdd offset bytes.length⟩, ?_, rfl, hnext⟩
    rw [Received.frame]
    dsimp only [frameData, pushStreamEvent] at hgrow hpush ⊢
    rw [hgrow, hpush]
    rfl
  · obtain ⟨next, hpush, hnext⟩ :=
      push_of_room hevents ⟨deltaNs, .trailers (headerEntries fields).1⟩
    refine ⟨⟨content, (headerEntries fields).1, next, offset⟩, ?_, (List.append_nil _).symm, hnext⟩
    rw [Received.frame]
    dsimp only [pushStreamEvent] at hpush ⊢
    rw [hpush]
    rfl

theorem received_frames {received : Received} {frames : List TimedFrame}
    (hlength : received.content.length + (bodyOf frames).length ≤ u64Max)
    (hblob : received.content.length + (bodyOf frames).length ≤ maxBlobBytes)
    (hevents : received.events.length + frames.length < maxEventsPerDirection) :
    ∃ last, checkFold (Received.frame maxBlobBytes) received frames = .ok last ∧
      last.events.length < maxEventsPerDirection := by
  induction frames generalizing received with
  | nil => exact ⟨received, rfl, hevents⟩
  | cons frame rest ih =>
      rw [bodyOf, List.flatMap_cons, List.length_append] at hlength hblob
      rw [List.length_cons] at hevents
      obtain ⟨next, hframe, hcontent, hcount⟩ :=
        @received_frame maxBlobBytes received frame (by omega) (by omega) (by omega)
      rw [checkFold_cons, hframe]
      apply ih
      · rw [hcontent, List.length_append, bodyOf]
        omega
      · rw [hcontent, List.length_append, bodyOf]
        omega
      · omega

/-- A response within the limits is received. -/
theorem receivedBody_of_fits {reply : Reply} (h : Fits maxBlobBytes reply.frames) :
    ∃ received, receivedBody maxBlobBytes reply = .ok received := by
  have hlength : Received.start.content.length + (bodyOf reply.frames).length ≤ u64Max := by
    rw [Received.start, List.length_nil, Nat.zero_add]
    exact h.length
  have hblob : Received.start.content.length + (bodyOf reply.frames).length ≤ maxBlobBytes := by
    rw [Received.start, List.length_nil, Nat.zero_add]
    exact h.blob
  have hevents : Received.start.events.length + reply.frames.length < maxEventsPerDirection := by
    rw [Received.start, List.length_nil, Nat.zero_add]
    exact h.events
  obtain ⟨last, hframes, hroom⟩ := received_frames maxBlobBytes hlength hblob hevents
  obtain ⟨events, hpush, -⟩ := push_of_room hroom (responseEndEvent last.offset reply.ending)
  refine ⟨{ last with events := events }, ?_⟩
  rw [receivedBody, hframes]
  show (pushStreamEvent last.events _ >>= _) = _
  rw [pushStreamEvent, hpush]
  rfl

theorem foldl_frameTrailers (frames : List TimedFrame) (earlier : HeaderMap) :
    frames.foldl frameTrailers earlier = (frames.flatMap sentTrailers).getLastD earlier := by
  induction frames generalizing earlier with
  | nil => rfl
  | cons frame rest ih =>
      rw [List.foldl_cons, ih]
      obtain ⟨deltaNs, bytes | fields⟩ := frame
      · rfl
      · exact List.getLastD_cons.symm

theorem replyTrailers_same {left right : Reply}
    (h : left.frames.flatMap sentTrailers = right.frames.flatMap sentTrailers) :
    replyTrailers left = replyTrailers right := by
  rw [replyTrailers, replyTrailers, foldl_frameTrailers, foldl_frameTrailers, h]

end

end EggReplay.Http.SelectedBodies
