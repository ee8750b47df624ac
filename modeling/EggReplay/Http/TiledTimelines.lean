import EggReplay.Library.Intervals
import EggReplay.Store.Merges
import EggReplay.Http.RecordedTimelines

/-!
Validated timelines as tilings of their bodies. The offsets are added with saturation, so a
timeline tiles its body where its DATA lengths add up to a 64-bit number.
-/

namespace EggReplay.Http.TiledTimelines

open EggReplay.Library.Checks
open EggReplay.Library.Text
open EggReplay.Library.Intervals
open EggReplay.Core.FlowRecord
open EggReplay.Core.StreamTimeline
open EggReplay.Store.Fixture
open EggReplay.Store.SessionOpen
open EggReplay.Store.Copies
open EggReplay.Store.Publication
open EggReplay.Store.Staging (streamEventsExtension)
open EggReplay.Store.SessionRuns (sampleFlow sampleMetadata)
open EggReplay.Store.OpenedSessions
open EggReplay.Store.Merges (opensAs open_of_opensAs)
open EggReplay.Http.StreamEventCapture (dataBytes)
open EggReplay.Http.Transaction (isData)
open EggReplay.Http.RecordedTimelines

/-- Where the DATA events lie in the body. -/
def dataIntervals (events : List StreamEvent) : List Interval :=
  events.filterMap fun event =>
    match event.event with
    | .data offset length => some (offset, length)
    | .trailers _ | .finish | .error _ _ _ => none

/-- The DATA lies end to end within 64 bits, only the last event ends the body, trailers come
once and after all DATA, delays do not decrease, and an error stands where the DATA stops. -/
structure Tiled (events : List StreamEvent) : Prop where
  endToEnd : EndToEnd 0 (dataIntervals events)
  fits : ∀ interval ∈ dataIntervals events, interval.1 + interval.2 ≤ u64Max
  terminal : events.Pairwise fun first _ => isTerminal first = false
  trailers : events.Pairwise fun first later =>
    isTrailers first = true → isTrailers later = false ∧ isData later = false
  delays : events.Pairwise fun first later => first.deltaNs ≤ later.deltaNs
  errors : ∀ event ∈ events, ∀ offset category phase,
    event.event = .error offset category phase → offset = totalLength (dataIntervals events)

/-! ### What the events of a sequence are -/

variable {events : List StreamEvent} {state : DirectionState}

theorem Follows.delta {event : StreamEvent} (h : Follows state event) :
    state.lastDelta ≤ event.deltaNs := h.2.1

theorem sequenced_delays (h : Sequenced state events) :
    (∀ event ∈ events, state.lastDelta ≤ event.deltaNs) ∧
      events.Pairwise fun first later => first.deltaNs ≤ later.deltaNs := by
  induction events generalizing state with
  | nil => exact ⟨fun event hmem => absurd hmem List.not_mem_nil, List.Pairwise.nil⟩
  | cons event rest ih =>
      obtain ⟨hfollows, hrest⟩ := h
      obtain ⟨hlater, hpairwise⟩ := ih hrest
      have hdelta := Follows.delta hfollows
      refine ⟨?_, List.Pairwise.cons hlater hpairwise⟩
      intro other hother
      rcases List.mem_cons.mp hother with rfl | hother
      · exact hdelta
      · exact hdelta.trans (hlater other hother)

theorem eq_nil_of_terminal (h : Sequenced state events) (hterminal : state.terminal = true) :
    events = [] := by
  cases events with
  | nil => rfl
  | cons event rest =>
      have hopen := h.1.1
      rw [hterminal] at hopen
      cases hopen

theorem sequenced_terminal (h : Sequenced state events) :
    events.Pairwise fun first _ => isTerminal first = false := by
  induction events generalizing state with
  | nil => exact List.Pairwise.nil
  | cons event rest ih =>
      obtain ⟨-, hrest⟩ := h
      apply List.Pairwise.cons
      · intro later hlater
        cases hterminal : isTerminal event with
        | false => rfl
        | true =>
            have hended : (advance state event).terminal = true := by
              rw [advance, hterminal, Bool.or_true]
            rw [eq_nil_of_terminal hrest hended] at hlater
            cases hlater
      · exact ih hrest

theorem bounded_seen (h : Bounded true events) :
    ∀ event ∈ events, isTrailers event = false ∧ isData event = false := by
  induction events with
  | nil =>
      intro event hmem
      cases hmem
  | cons event rest ih =>
      obtain ⟨hwithin, hrest⟩ := h
      intro other hother
      rcases List.mem_cons.mp hother with rfl | hother
      · rcases other with ⟨delta, ⟨offset, length⟩ | fields | _ | ⟨offset, category, phase⟩⟩
        · cases hwithin.2
        · cases hwithin.2.1
        · exact ⟨rfl, rfl⟩
        · exact ⟨rfl, rfl⟩
      · rw [Bool.true_or] at hrest
        exact ih hrest other hother

theorem bounded_trailers {seen : Bool} (h : Bounded seen events) :
    events.Pairwise fun first later =>
      isTrailers first = true → isTrailers later = false ∧ isData later = false := by
  induction events generalizing seen with
  | nil => exact List.Pairwise.nil
  | cons event rest ih =>
      obtain ⟨-, hrest⟩ := h
      apply List.Pairwise.cons
      · intro later hlater htrailers
        rw [htrailers, Bool.or_true] at hrest
        exact bounded_seen hrest later hlater
      · exact ih hrest

/-- Where nothing saturates, the DATA lies end to end from the last offset on, and an error
stands at its end. -/
theorem sequenced_endToEnd (h : Sequenced state events)
    (hfits : state.lastOffset + totalLength (dataIntervals events) ≤ u64Max) :
    EndToEnd state.lastOffset (dataIntervals events) ∧
      ∀ event ∈ events, ∀ offset category phase,
        event.event = .error offset category phase →
          offset = state.lastOffset + totalLength (dataIntervals events) := by
  induction events generalizing state with
  | nil => exact ⟨True.intro, fun event hmem => absurd hmem List.not_mem_nil⟩
  | cons event rest ih =>
      obtain ⟨⟨hopen, hdelta, hkind⟩, hrest⟩ := h
      rcases event with ⟨delta, ⟨offset, length⟩ | fields | _ | ⟨offset, category, phase⟩⟩
      · obtain ⟨rfl, hlength⟩ := hkind
        have hintervals : dataIntervals (⟨delta, .data state.lastOffset length⟩ :: rest) =
            (state.lastOffset, length) :: dataIntervals rest := rfl
        rw [hintervals, totalLength_cons, ← Nat.add_assoc] at hfits
        have hnext : (advance state ⟨delta, .data state.lastOffset length⟩).lastOffset =
            state.lastOffset + length :=
          saturatingAdd_of_le ((Nat.le_add_right _ _).trans hfits)
        have hfollowing := ih hrest
        rw [hnext] at hfollowing
        obtain ⟨htiles, herrors⟩ := hfollowing hfits
        rw [hintervals, totalLength_cons, ← Nat.add_assoc]
        refine ⟨⟨rfl, hlength, htiles⟩, ?_⟩
        intro other hother
        rcases List.mem_cons.mp hother with rfl | hother
        · rintro _ _ _ ⟨⟩
        · exact herrors other hother
      · obtain ⟨htiles, herrors⟩ := ih hrest hfits
        refine ⟨htiles, ?_⟩
        intro other hother
        rcases List.mem_cons.mp hother with rfl | hother
        · rintro _ _ _ ⟨⟩
        · exact herrors other hother
      · obtain ⟨htiles, herrors⟩ := ih hrest hfits
        refine ⟨htiles, ?_⟩
        intro other hother
        rcases List.mem_cons.mp hother with rfl | hother
        · rintro _ _ _ ⟨⟩
        · exact herrors other hother
      · obtain ⟨rfl, -⟩ := hkind
        obtain rfl : rest = [] := by
          apply eq_nil_of_terminal hrest
          simp [advance, isTerminal]
        refine ⟨True.intro, ?_⟩
        intro other hother other_offset other_category other_phase hevent
        obtain rfl := List.mem_singleton.mp hother
        injection hevent with hoffset
        exact hoffset.symm

/-! ### Tilings -/

theorem Tiled.totalLength_le (h : Tiled events) : totalLength (dataIntervals events) ≤ u64Max := by
  by_cases hne : dataIntervals events = []
  · rw [hne, totalLength_nil]
    exact Nat.zero_le _
  · obtain ⟨interval, hmem, hstop⟩ := h.endToEnd.exists_stop hne
    rw [Nat.zero_add] at hstop
    rw [← hstop]
    exact h.fits interval hmem

/-- A direction that the validation accepts is tiled exactly where its DATA lengths add up to a
64-bit number. -/
theorem tiled_direction_iff (h : validateDirection events = .ok ()) :
    Tiled events ↔ totalLength (dataIntervals events) ≤ u64Max := by
  obtain ⟨hsequenced, hbounded⟩ := validateDirection_iff.mp h
  constructor
  · exact Tiled.totalLength_le
  · intro hfits
    have hfromZero : ({} : DirectionState).lastOffset + totalLength (dataIntervals events) ≤
        u64Max := by
      rw [Nat.zero_add]
      exact hfits
    obtain ⟨htiles, herrors⟩ := sequenced_endToEnd hsequenced hfromZero
    refine ⟨htiles, ?_, sequenced_terminal hsequenced, bounded_trailers hbounded,
      (sequenced_delays hsequenced).2, ?_⟩
    · intro interval hmem
      exact (htiles.stop_le interval hmem).trans hfromZero
    · intro event hmem offset category phase hevent
      rw [herrors event hmem offset category phase hevent]
      exact Nat.zero_add _

theorem validateDirection_of_mem {timelines : StreamEvents} (h : timelines.validate = .ok ())
    {flow : FlowStreamEvents} (hflow : flow ∈ timelines.flows) :
    validateDirection flow.request = .ok () ∧ validateDirection flow.response = .ok () := by
  obtain ⟨-, -, totals, hfold⟩ := streamEvents_validate_eq_ok.mp h
  obtain ⟨before, after, hcheck⟩ := exists_check_of_mem hfold hflow
  obtain ⟨-, -, -, hrequest, hresponse, -⟩ := validateFlowEvents_eq_ok.mp hcheck
  exact ⟨hrequest, hresponse⟩

/-! ### The bodies of an opened session -/

theorem dataLength_append_one (events : List StreamEvent) (event : StreamEvent) :
    dataLength (events ++ [event]) = saturatingAdd (dataLength events) (dataBytes event) := by
  rw [dataLength, List.foldl_append]
  rcases event with ⟨delta, ⟨offset, length⟩ | fields | _ | ⟨offset, category, phase⟩⟩
  · rfl
  · rfl
  · rfl
  · rfl

theorem totalLength_append_one (events : List StreamEvent) (event : StreamEvent) :
    totalLength (dataIntervals (events ++ [event])) =
      totalLength (dataIntervals events) + dataBytes event := by
  rw [dataIntervals, List.filterMap_append, totalLength, List.map_append, List.sum_append]
  rcases event with ⟨delta, ⟨offset, length⟩ | fields | _ | ⟨offset, category, phase⟩⟩
  · rfl
  · rfl
  · rfl
  · rfl

/-- The session reader's sum is the exact one, cut off at 64 bits. -/
theorem dataLength_eq (events : List StreamEvent) :
    dataLength events = min (totalLength (dataIntervals events)) u64Max := by
  induction events using List.reverseRecOn with
  | nil => rfl
  | append_singleton rest event ih =>
      rw [dataLength_append_one, ih, totalLength_append_one, saturatingAdd]
      omega

/-- The flows and timelines of a session, as its readers decode them. -/
structure Timed (codec : Codec) (session : Session) (flows : List Flow)
    (timelines : StreamEvents) : Prop where
  flows : Session.flowItems codec session = .ok (flows.map .ok)
  timelines : ∃ bytes, Session.readExtension session "stream-events" = .ok (some bytes) ∧
    codec.decodeStreamEvents bytes = .ok timelines

/-- The timelines of an opened session are valid, and each names a flow and adds up to its
body. -/
theorem Timed.agrees {codec : Codec} {root : Directory} {limits : StoreLimits}
    {session : Session} {flows : List Flow} {timelines : StreamEvents}
    (hopen : Session.open codec root limits = .ok session)
    (h : Timed codec session flows timelines) :
    timelines.validate = .ok () ∧ (flowIds flows).Nodup ∧
      ∀ timeline ∈ timelines.flows, TimelineAgrees flows timeline := by
  obtain ⟨-, -, -, -, opened, hopened⟩ := open_eq_ok hopen
  obtain ⟨bytes, hread, hdecode⟩ := h.timelines
  have hflows : opened = flows := by
    have hitems := Except.ok.inj (hopened.items.symm.trans h.flows)
    exact List.map_injective_iff.mpr (fun _ _ => Except.ok.inj) hitems
  rw [hflows] at hopened
  rw [Session.readExtension] at hread
  cases hfind : findExtension session.manifest.extensions "stream-events" with
  | none =>
      rw [hfind] at hread
      cases hread
  | some extension =>
      rw [hfind] at hread
      simp only [bind_eq_ok, ensure_eq_ok, readFile_eq_ok, pure_eq_ok] at hread
      obtain ⟨content, hfile, _, -, hbytes⟩ := hread
      obtain rfl := Option.some.inj hbytes
      have hfound : TimelinesFound codec session.root session.manifest.extensions
          timelines.flows := .inr ⟨extension, content, timelines, hfind, hfile, hdecode, rfl⟩
      refine ⟨?_, hopened.ids,
        (checkTimelines_of_lengths hopened.ids hfound).mp hopened.timelines⟩
      have hname : extension.name = "stream-events" := by
        simpa using List.find?_some hfind
      obtain ⟨stored, hstored, -, hcontent⟩ :=
        (hopened.extensions.each extension (List.mem_of_find?_eq_some hfind)).file
      obtain rfl := Option.some.inj (hfile.symm.trans hstored)
      simp only [checkExtensionContent, bind_eq_ok, ensure_eq_ok, checkWhen_eq_ok] at hcontent
      obtain ⟨_, -, _, -, _, hstream, -⟩ := hcontent
      have hchecked := hstream hname
      simp only [checkStreamEvents, bind_eq_ok, ensure_eq_ok, mapError_eq_ok] at hchecked
      obtain ⟨_, -, events, hevents, hvalid⟩ := hchecked
      obtain rfl := Except.ok.inj (hdecode.symm.trans hevents)
      exact hvalid

theorem partition_iff {stop : Nat} (hvalid : validateDirection events = .ok ())
    (hsum : dataLength events = stop) :
    Partition (dataIntervals events) (Set.Ico 0 stop) ↔
      totalLength (dataIntervals events) ≤ u64Max := by
  rw [dataLength_eq] at hsum
  constructor
  · intro h
    have htotal := h.totalLength_eq
    omega
  · intro h
    have htiles := ((tiled_direction_iff hvalid).mpr h).endToEnd.partition
    rw [Nat.zero_add] at htiles
    rwa [← hsum, Nat.min_eq_left h]

/-- The DATA lengths of both directions add up to 64-bit numbers. -/
def LengthsFit (timelines : StreamEvents) : Prop :=
  ∀ flow ∈ timelines.flows, totalLength (dataIntervals flow.request) ≤ u64Max ∧
    totalLength (dataIntervals flow.response) ≤ u64Max

/-- Validated timelines tile their bodies, and those of an opened session the stored ones,
exactly where the DATA lengths of a direction do not exceed 64 bits together. -/
theorem tiled_iff (codec : Codec) (root : Directory) (limits : StoreLimits) :
    (∀ timelines : StreamEvents, timelines.validate = .ok () →
      ((∀ flow ∈ timelines.flows, Tiled flow.request ∧ Tiled flow.response) ↔
        LengthsFit timelines)) ∧
      ∀ (session : Session) (flows : List Flow) (timelines : StreamEvents),
        Session.open codec root limits = .ok session → Timed codec session flows timelines →
        ((∀ flow ∈ flows, ∀ timeline ∈ timelines.flows, timeline.flowId = flow.id →
            Partition (dataIntervals timeline.response)
              (Set.Ico 0 flow.outcome.responseLength)) ↔
          ∀ timeline ∈ timelines.flows,
            totalLength (dataIntervals timeline.response) ≤ u64Max) := by
  constructor
  · intro timelines hvalid
    apply forall₂_congr
    intro flow hflow
    obtain ⟨hrequest, hresponse⟩ := validateDirection_of_mem hvalid hflow
    exact and_congr (tiled_direction_iff hrequest) (tiled_direction_iff hresponse)
  · intro session flows timelines hopen htimed
    obtain ⟨hvalid, hids, hagrees⟩ := htimed.agrees hopen
    constructor
    · intro hpartition timeline htimeline
      obtain ⟨flow, hflow, hid, hlength⟩ := hagrees timeline htimeline
      obtain ⟨-, hresponse⟩ := validateDirection_of_mem hvalid htimeline
      exact (partition_iff hresponse hlength.symm).mp
        (hpartition flow hflow timeline htimeline hid.symm)
    · intro hfits flow hflow timeline htimeline hid
      obtain ⟨named, hnamed, hnamedId, hlength⟩ := hagrees timeline htimeline
      have hsame : named = flow := by
        apply List.inj_on_of_nodup_map hids hnamed hflow
        exact hnamedId.trans hid
      rw [hsame] at hlength
      obtain ⟨-, hresponse⟩ := validateDirection_of_mem hvalid htimeline
      exact (partition_iff hresponse hlength.symm).mpr (hfits timeline htimeline)

/-! ### One byte, and two bytes too many -/

def oneByte : List StreamEvent := [⟨0, .data 0 1⟩, ⟨1, .finish⟩]

/-- The second and the third DATA event both start at the 64-bit limit. -/
def overrun : List StreamEvent :=
  [⟨0, .data 0 u64Max⟩, ⟨0, .data u64Max 1⟩, ⟨0, .data u64Max 1⟩, ⟨0, .finish⟩]

def timelinesOf (response : List StreamEvent) : StreamEvents where
  schemaVersion := streamEventsSchemaVersion
  flows := [{ flowId := "one", startOffsetNs := 0, request := [], response }]

theorem overrun_not_tiled :
    ¬ ∀ timelines : StreamEvents, timelines.validate = .ok () →
      ∀ flow ∈ timelines.flows, Tiled flow.request ∧ Tiled flow.response := by
  intro h
  have hvalid : (timelinesOf overrun).validate = .ok () := by decide
  have htiled := (h _ hvalid _ List.mem_cons_self).2
  exact absurd htiled.totalLength_le (by decide)

def byteBlob : BlobRef where
  sha256 := "ca978112ca1bbdcafac231b39a23dc4da786eff8147c4e72b9807785afee48bb"
  length := 1

/-- A response with the body `a`. -/
def byteFlow : Flow :=
  { sampleFlow with
    outcome := .response { status := 200, headers := [], body := .blob byteBlob, trailers := [] } }

def byteManifest : Manifest where
  metadata := { sampleMetadata with schemaVersion := sessionSchemaVersion }
  complete := true
  flowCount := 1
  blobCount := 1
  extensions := [streamEventsExtension]

def byteManifestText : Bytes :=
  utf8 ("\x7b\"schema_version\":2,\"tool_version\":\"0.1.0\",\"session_id\":\"session-0\",".toList ++
    "\"capture_mode\":\"forward\",\"source\":null,\"target\":null,".toList ++
    "\"matcher_profile\":\"default\",\"redaction_profile\":\"default\",".toList ++
    "\"complete\":true,\"flow_count\":1,\"blob_count\":1,".toList ++
    "\"extensions\":[\x7b\"name\":\"stream-events\",\"schema_version\":1,".toList ++
    "\"path\":\"stream-events.json\",\"required_for_replay\":true\x7d]\x7d".toList)

def byteCodec : Codec where
  sha256Hex bytes := if bytes = utf8 "a".toList then byteBlob.sha256 else ""
  decodeFlow bytes :=
    if bytes = byteFlow.encode ++ [newline] then .ok byteFlow else .error "unknown flow"
  encodeManifest _ := byteManifestText
  decodeManifest bytes :=
    if bytes = byteManifestText then .ok byteManifest else .error "unknown manifest"
  decodeStreamEvents bytes :=
    if bytes = (timelinesOf oneByte).encode then .ok (timelinesOf oneByte)
    else .error "unknown stream events"
  decodeTranscript _ := .error "unknown transcript"
  decodeRules _ := .error "unknown rules"

def byteRoot : Directory where
  files := fun name =>
    if name = flowLog then some (byteFlow.encode ++ [newline])
    else if name = manifestFile then some byteManifestText
    else if name = "stream-events.json" then some (timelinesOf oneByte).encode
    else none
  blobs := [(.content byteBlob.sha256, utf8 "a".toList)]

def byteSession : Session := ⟨byteRoot, byteManifest, StoreLimits.default⟩

theorem byteSession_opens :
    Session.open byteCodec byteRoot StoreLimits.default = .ok byteSession :=
  open_of_opensAs (by decide +kernel)

theorem byteSession_timed : Timed byteCodec byteSession [byteFlow] (timelinesOf oneByte) where
  flows := by decide +kernel
  timelines := ⟨(timelinesOf oneByte).encode, by decide +kernel, by decide +kernel⟩

theorem oneByte_tiles :
    Tiled oneByte ∧ Partition [(0, 1)] (Set.Ico 0 1) := by
  have hvalid : (timelinesOf oneByte).validate = .ok () := by decide
  have hrequest : totalLength (dataIntervals []) ≤ u64Max := by decide
  have hresponse : totalLength (dataIntervals oneByte) ≤ u64Max := by decide
  have hfits : ∀ timeline ∈ (timelinesOf oneByte).flows,
      totalLength (dataIntervals timeline.request) ≤ u64Max ∧
        totalLength (dataIntervals timeline.response) ≤ u64Max := by
    intro timeline htimeline
    obtain rfl := List.mem_singleton.mp htimeline
    exact ⟨hrequest, hresponse⟩
  obtain ⟨hvalidated, hopened⟩ := tiled_iff byteCodec byteRoot StoreLimits.default
  constructor
  · exact ((hvalidated _ hvalid).mpr hfits _ List.mem_cons_self).2
  · exact (hopened byteSession [byteFlow] _ byteSession_opens byteSession_timed).mpr
      (fun timeline htimeline => (hfits timeline htimeline).2) byteFlow List.mem_cons_self _
      List.mem_cons_self rfl

end EggReplay.Http.TiledTimelines
