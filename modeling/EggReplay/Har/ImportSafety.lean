import EggReplay.Har.HarImport
import EggReplay.Library.JsonLengths
import EggReplay.Store.SessionRuns

/-!
When an import panics: at the first entry that is otherwise read without error and has a text to
note whose cut falls inside a character. What is refused before that leaves the writer alone.
-/

namespace EggReplay.Har.ImportSafety

open EggReplay.Library.Checks
open EggReplay.Library.JsonLengths (length_utf8_append)
open EggReplay.Library.JsonText
open EggReplay.Library.Stateful
open EggReplay.Library.Text
open EggReplay.Core.FlowRecord
open EggReplay.Core.Redaction
open EggReplay.Har.HarDocuments
open EggReplay.Har.HarImport
open EggReplay.Store.Fixture
open EggReplay.Store.Writer

variable {N R : Type} {codec : Codec} {settings : ImportSettings N R} {writer : SessionWriter}

/-! ### Cuts -/

/-- The text is longer than the bound, and no character ends at the bound. -/
def Cut (text : String) (max : Nat) : Prop :=
  max < text.utf8ByteSize ∧ ∀ lead, lead <+: text.toList → (utf8 lead).length ≠ max

theorem utf8_cons_length (c : Char) (rest : List Char) :
    (utf8 (c :: rest)).length = c.utf8Size + (utf8 rest).length := by
  rw [utf8, List.flatMap_cons, List.length_append, String.length_utf8EncodeChar]
  rfl

theorem sliceTo_isSome_iff {chars : List Char} {max : Nat} :
    (sliceTo chars max).isSome = true ↔ ∃ lead, lead <+: chars ∧ (utf8 lead).length = max := by
  induction chars generalizing max with
  | nil =>
      cases max with
      | zero => exact iff_of_true rfl ⟨[], List.nil_prefix, rfl⟩
      | succ max =>
          apply iff_of_false
          · rw [sliceTo]
            decide
          · rintro ⟨lead, hlead, hlength⟩
            rw [List.prefix_nil.mp hlead] at hlength
            cases hlength
  | cons c rest ih =>
      cases max with
      | zero => exact iff_of_true rfl ⟨[], List.nil_prefix, rfl⟩
      | succ max =>
          rw [sliceTo]
          split
          · rename_i hfits
            rw [Option.isSome_map, ih]
            constructor
            · rintro ⟨lead, hlead, hlength⟩
              refine ⟨c :: lead, List.cons_prefix_cons.mpr ⟨rfl, hlead⟩, ?_⟩
              rw [utf8_cons_length]
              omega
            · rintro ⟨lead, hlead, hlength⟩
              cases lead with
              | nil => cases hlength
              | cons head lead =>
                  obtain ⟨rfl, hrest⟩ := List.cons_prefix_cons.mp hlead
                  rw [utf8_cons_length] at hlength
                  exact ⟨lead, hrest, by omega⟩
          · rename_i hlong
            apply iff_of_false
            · decide
            · rintro ⟨lead, hlead, hlength⟩
              cases lead with
              | nil => cases hlength
              | cons head lead =>
                  obtain ⟨rfl, _⟩ := List.cons_prefix_cons.mp hlead
                  rw [utf8_cons_length] at hlength
                  omega

theorem truncateBounded_eq_none_iff {text : String} {max : Nat} :
    truncateBounded text max = none ↔ Cut text max := by
  rw [truncateBounded, Cut]
  split
  · rename_i hfits
    apply iff_of_false
    · rintro ⟨⟩
    · rintro ⟨hlong, _⟩
      omega
  · rename_i hlong
    rw [Option.map_eq_none_iff, ← Option.not_isSome_iff_eq_none, sliceTo_isSome_iff, not_exists]
    constructor
    · intro hnone
      exact ⟨by omega, fun lead hlead hlength => hnone lead ⟨hlead, hlength⟩⟩
    · rintro ⟨_, hnone⟩ lead ⟨hlead, hlength⟩
      exact hnone lead hlead hlength

theorem not_cut_empty (max : Nat) : ¬Cut "" max := by
  rintro ⟨hlong, _⟩
  exact Nat.not_lt_zero max hlong

theorem noted_eq_none_iff {key : String} {text : Option String} {max : Nat} :
    noted key text max = none ↔ Cut (text.getD "") max := by
  rw [noted]
  split
  · rename_i hempty
    rw [hempty]
    apply iff_of_false
    · rintro ⟨⟩
    · exact not_cut_empty max
  · rw [Option.map_eq_none_iff, truncateBounded_eq_none_iff]

/-! ### Entries -/

/-- A comment of an entry, or what is noted of the creator, is cut inside a character. -/
def CutNotes (creator : Option HarCreator) (entry : HarEntry N) : Prop :=
  Cut (entry.request.comment.getD "") 512 ∨ Cut (entry.response.comment.getD "") 512 ∨
    Cut ((creatorText creator).getD "") 256

section

variable {creator : Option HarCreator} {index : Nat} {entry : HarEntry N}

theorem annotationsOf_eq_none_iff {durationMs : Nat} :
    annotationsOf creator entry durationMs = none ↔ CutNotes creator entry := by
  rw [annotationsOf, CutNotes, ← @noted_eq_none_iff "har.request.comment",
    ← @noted_eq_none_iff "har.response.comment", ← @noted_eq_none_iff "har.creator"]
  cases noted "har.request.comment" entry.request.comment 512 with
  | none => exact iff_of_true rfl (.inl rfl)
  | some request =>
      cases noted "har.response.comment" entry.response.comment 512 with
      | none => exact iff_of_true rfl (.inr (.inl rfl))
      | some response =>
          cases noted "har.creator" (creatorText creator) 256 with
          | none => exact iff_of_true rfl (.inr (.inr rfl))
          | some creator =>
              apply iff_of_false
              · rintro ⟨⟩
              · rintro (⟨⟨⟩⟩ | ⟨⟨⟩⟩ | ⟨⟨⟩⟩)

theorem mapError_failed_ne_panicked {α : Type} {x : Except HarError α} :
    x.mapError HarStop.failed ≠ .error .panicked := by
  cases x with
  | ok value => rintro ⟨⟩
  | error error => rintro ⟨⟩

/-- An entry panics when it is read without error and a note of it is cut. -/
theorem convertEntry_panicked_iff :
    convertEntry settings creator index entry = .error .panicked ↔
      (∃ prepared, prepareEntry settings index entry = .ok prepared) ∧ CutNotes creator entry := by
  rw [convertEntry]
  cases hprepared : prepareEntry settings index entry with
  | error error =>
      apply iff_of_false
      · rintro ⟨⟩
      · rintro ⟨⟨prepared, ⟨⟩⟩, _⟩
  | ok prepared =>
      rw [← @annotationsOf_eq_none_iff _ _ _ prepared.durationMs]
      show ((orFail (annotationsOf creator entry prepared.durationMs) HarStop.panicked) >>=
        fun annotations => (assembleFlow settings index entry prepared annotations).mapError
          HarStop.failed) = _ ↔ _
      cases annotationsOf creator entry prepared.durationMs with
      | none => exact iff_of_true rfl ⟨⟨prepared, rfl⟩, rfl⟩
      | some annotations =>
          apply iff_of_false
          · exact mapError_failed_ne_panicked
          · rintro ⟨_, ⟨⟩⟩

end

/-- The entries from an index on are all converted. -/
def Accepted (settings : ImportSettings N R) (creator : Option HarCreator) (index : Nat)
    (entries : List (HarEntry N)) : Prop :=
  ∀ place entry, entries[place]? = some entry →
    ∃ converted, convertEntry settings creator (index + place) entry = .ok converted

/-- An entry that the checks before its notes accept, after entries that are all accepted, has a
note that is cut inside a character. -/
structure CutReached (settings : ImportSettings N R) (creator : Option HarCreator) (index : Nat)
    (entries before : List (HarEntry N)) (entry : HarEntry N) : Prop where
  place : before ++ [entry] <+: entries
  accepted : Accepted settings creator index before
  prepared : ∃ prepared, prepareEntry settings (index + before.length) entry = .ok prepared
  cut : CutNotes creator entry

section

variable {creator : Option HarCreator} {index : Nat} {entry : HarEntry N}
  {entries : List (HarEntry N)}

theorem accepted_cons :
    Accepted settings creator index (entry :: entries) ↔
      (∃ converted, convertEntry settings creator index entry = .ok converted) ∧
        Accepted settings creator (index + 1) entries := by
  constructor
  · intro h
    refine ⟨h 0 entry rfl, ?_⟩
    intro place other hother
    have hlater := h (place + 1) other hother
    rw [← Nat.add_assoc, Nat.add_right_comm] at hlater
    exact hlater
  · rintro ⟨hfirst, hrest⟩ place other hother
    cases place with
    | zero =>
        cases hother
        exact hfirst
    | succ place =>
        have hlater := hrest place other hother
        rw [Nat.add_right_comm, Nat.add_assoc] at hlater
        exact hlater

theorem convertFrom_panicked_iff :
    convertFrom settings creator index entries = .error .panicked ↔
      ∃ before entry, CutReached settings creator index entries before entry := by
  induction entries generalizing index with
  | nil =>
      apply iff_of_false
      · rintro ⟨⟩
      · rintro ⟨before, entry, hcut⟩
        have hempty := List.prefix_nil.mp hcut.place
        exact List.append_ne_nil_of_right_ne_nil before (List.cons_ne_nil entry []) hempty
  | cons first rest ih =>
      rw [convertFrom, bind_eq_error]
      constructor
      · rintro (hpanic | ⟨converted, hconverted, hpanic⟩)
        · obtain ⟨hprepared, hcut⟩ := convertEntry_panicked_iff.mp hpanic
          refine ⟨[], first, List.cons_prefix_cons.mpr ⟨rfl, List.nil_prefix⟩, ?_, hprepared, hcut⟩
          intro place entry hentry
          cases hentry
        · rw [bind_eq_error] at hpanic
          rcases hpanic with hpanic | ⟨_, _, ⟨⟩⟩
          obtain ⟨before, entry, hcut⟩ := ih.mp hpanic
          refine ⟨first :: before, entry, List.cons_prefix_cons.mpr ⟨rfl, hcut.place⟩, ?_, ?_,
            hcut.cut⟩
          · exact accepted_cons.mpr ⟨⟨converted, hconverted⟩, hcut.accepted⟩
          · rw [List.length_cons, ← Nat.add_assoc, Nat.add_right_comm]
            exact hcut.prepared
      · rintro ⟨before, entry, hcut⟩
        cases before with
        | nil =>
            obtain ⟨rfl, _⟩ := List.cons_prefix_cons.mp hcut.place
            exact .inl (convertEntry_panicked_iff.mpr ⟨hcut.prepared, hcut.cut⟩)
        | cons head before =>
            obtain ⟨rfl, hplace⟩ := List.cons_prefix_cons.mp hcut.place
            obtain ⟨⟨converted, hconverted⟩, haccepted⟩ := accepted_cons.mp hcut.accepted
            refine .inr ⟨converted, hconverted, ?_⟩
            have hprepared := hcut.prepared
            rw [List.length_cons, ← Nat.add_assoc, Nat.add_right_comm] at hprepared
            rw [ih.mpr ⟨before, entry, hplace, haccepted, hprepared, hcut.cut⟩]
            rfl

end

/-! ### Imports -/

theorem validateDocument_panicked_iff {harBytes : Bytes} :
    validateDocument settings harBytes = .error .panicked ↔
      ∃ log, readDocument settings.libraries harBytes = .ok log ∧
        ∃ before entry, CutReached settings log.creator 0 log.entries before entry := by
  rw [validateDocument]
  cases readDocument settings.libraries harBytes with
  | error error =>
      apply iff_of_false
      · rintro ⟨⟩
      · rintro ⟨log, ⟨⟩, _⟩
  | ok log =>
      have hconvert : ((Except.ok log : Except HarError (HarLog N)).mapError HarStop.failed >>=
          fun log => convertFrom settings log.creator 0 log.entries >>= fun converted =>
            pure ({ log, pending := converted.1,
                    losses := logLosses log ++ converted.2 } : Validated N)) = .error .panicked ↔
          convertFrom settings log.creator 0 log.entries = .error .panicked := by
        show (convertFrom settings log.creator 0 log.entries >>= fun converted => _) = _ ↔ _
        rw [bind_eq_error]
        constructor
        · rintro (hpanic | ⟨_, _, ⟨⟩⟩)
          exact hpanic
        · exact .inl
      rw [hconvert, convertFrom_panicked_iff]
      constructor
      · intro hcut
        exact ⟨log, rfl, hcut⟩
      · rintro ⟨other, hlog, hcut⟩
        cases hlog
        exact hcut

/-- What is refused before anything is written leaves the writer as it is. -/
theorem import_of_refused {toolVersion : String} {harBytes : Bytes} {stop : HarStop}
    (h : validateDocument settings harBytes = .error stop) :
    importHarToWriter codec toolVersion settings harBytes writer = (.error stop, writer) := by
  rw [importHarToWriter]
  apply Op.bind_of_error
  rw [Op.ofExcept, h]

/-- A failure of the fixture: of the writer, or of the write of a body. -/
def FixtureFailure (stop : HarStop) : Prop :=
  (∃ error, stop = .failed (.store error)) ∨
    ∃ text, stop = .failed (.invalid ("body write failed: " ++ text))

theorem failsOnly_publishBody (bytes : Bytes) :
    FailsOnly FixtureFailure (publishBody codec bytes) := by
  intro writer stop final h
  rw [publishBody] at h
  split at h
  · cases h
  · dsimp only at h
    generalize Store.Staging.BodyWriter.write writer.beginBlob.1.directory writer.beginBlob.2
      bytes = written at h
    cases written with
    | error error =>
        cases h
        exact .inr ⟨_, rfl⟩
    | ok written =>
        dsimp only at h
        rw [Prod.mk.injEq] at h
        cases href : Store.Staging.BodyWriter.reference codec written.2 with
        | ok body =>
            rw [href] at h
            cases h.1
        | error error =>
            rw [href] at h
            cases h.1
            exact .inl ⟨error, rfl⟩

theorem failsOnly_publishResponse (bytes : Bytes) (outcome : FlowOutcome) :
    FailsOnly FixtureFailure (publishResponse codec bytes outcome) := by
  cases outcome with
  | response response =>
      exact (failsOnly_publishBody bytes).bind fun body => failsOnly_pure _
  | error error => exact failsOnly_pure _

theorem failsOnly_store (step : SessionWriter → Except StoreError SessionWriter) :
    FailsOnly FixtureFailure (Op.ofStep fun writer => do
      let after ← (step writer).mapError fun error => HarStop.failed (.store error)
      pure (after, ())) := by
  apply failsOnly_ofStep
  intro writer stop h
  cases hstep : step writer with
  | ok after =>
      rw [hstep] at h
      cases h
  | error error =>
      rw [hstep] at h
      cases h
      exact .inl ⟨error, rfl⟩

theorem failsOnly_publishFlow (count : Nat) (pending : PendingFlow) :
    FailsOnly FixtureFailure (publishFlow codec count pending) := by
  apply (failsOnly_publishBody pending.requestBytes).bind
  intro body
  apply (failsOnly_publishResponse pending.responseBytes pending.flow.outcome).bind
  intro outcome
  exact (failsOnly_store _).bind fun _ => failsOnly_pure _

theorem failsOnly_writeProvenance (toolVersion : String) (provenance : InteropProvenance) :
    FailsOnly FixtureFailure (writeProvenance toolVersion provenance) :=
  failsOnly_store fun writer =>
    writer.writeExtension interopProvenance (provenance.encode toolVersion)

/-- After the checks an import fails only with its fixture. -/
theorem import_of_validated {toolVersion : String} {harBytes : Bytes} {validated : Validated N}
    {stop : HarStop} {final : SessionWriter}
    (h : validateDocument settings harBytes = .ok validated)
    (hfailed : importHarToWriter codec toolVersion settings harBytes writer =
      (.error stop, final)) : FixtureFailure stop := by
  have hvalidated : Op.ofExcept (validateDocument settings harBytes) writer =
      (.ok validated, writer) := by
    rw [Op.ofExcept, h]
  rw [importHarToWriter, Op.bind_of_ok hvalidated] at hfailed
  have hflows : FailsOnly FixtureFailure (Op.fold (publishFlow codec) 0 validated.pending) :=
    failsOnly_fold failsOnly_publishFlow validated.pending 0
  have hlater := hflows.bind fun count => (failsOnly_writeProvenance toolVersion
    { harCreator := validated.log.creator.map HarCreator.display
      entries := validated.log.entries.length
      flows := count
      losses := validated.losses.take 1024 }).bind fun _ => failsOnly_pure
        ({ flows := count, losses := validated.losses,
           entries := validated.log.entries.length } : ImportReport)
  exact hlater writer stop final hfailed

/-- The import does not panic, and what it refuses it refuses before anything is written. -/
structure Safe (codec : Codec) (toolVersion : String) (settings : ImportSettings N R)
    (harBytes : Bytes) (writer : SessionWriter) : Prop where
  calm : (importHarToWriter codec toolVersion settings harBytes writer).1 ≠ .error .panicked
  refused : ∀ error, validateDocument settings harBytes = .error (.failed error) →
    importHarToWriter codec toolVersion settings harBytes writer = (.error (.failed error), writer)
  unwritten : ∀ stop final,
    importHarToWriter codec toolVersion settings harBytes writer = (.error stop, final) →
      FixtureFailure stop ∨ final = writer

/-- An import is safe unless it comes to an entry whose notes are cut inside a character. -/
theorem safe_iff {toolVersion : String} {harBytes : Bytes} :
    Safe codec toolVersion settings harBytes writer ↔
      ¬∃ log, readDocument settings.libraries harBytes = .ok log ∧
        ∃ before entry, CutReached settings log.creator 0 log.entries before entry := by
  rw [← validateDocument_panicked_iff]
  constructor
  · intro hsafe hpanic
    apply hsafe.calm
    rw [import_of_refused hpanic]
  · intro hcalm
    refine ⟨?_, ?_, ?_⟩
    · intro hpanic
      cases hvalidated : validateDocument settings harBytes with
      | error stop =>
          rw [import_of_refused hvalidated] at hpanic
          rw [Except.error.inj hpanic] at hvalidated
          exact hcalm hvalidated
      | ok validated =>
          rcases himport : importHarToWriter codec toolVersion settings harBytes writer with
            ⟨result, final⟩
          rw [himport] at hpanic
          obtain rfl : result = .error .panicked := hpanic
          rcases import_of_validated hvalidated himport with ⟨_, ⟨⟩⟩ | ⟨_, ⟨⟩⟩
    · intro error herror
      exact import_of_refused herror
    · intro stop final hfailed
      cases hvalidated : validateDocument settings harBytes with
      | error other =>
          rw [import_of_refused hvalidated] at hfailed
          cases hfailed
          exact .inr rfl
      | ok validated => exact .inl (import_of_validated hvalidated hfailed)

/-! ### A comment that is cut -/

theorem utf8_replicate_length (count : Nat) : (utf8 (List.replicate count 'a')).length = count := by
  induction count with
  | zero => rfl
  | succ count ih =>
      rw [List.replicate_succ, utf8_cons_length, ih]
      exact Nat.add_comm 1 count

/-- The last character takes the octets 511 and 512. -/
def cutComment : List Char := List.replicate 511 'a' ++ ['é']

theorem cutComment_length : (utf8 cutComment).length = 513 := by
  rw [cutComment, length_utf8_append, utf8_replicate_length]
  rfl

theorem cutComment_cut : Cut (String.ofList cutComment) 512 := by
  have hletters := utf8_replicate_length 511
  have hwhole := cutComment_length
  refine ⟨?_, ?_⟩
  · rw [← length_utf8, String.toList_ofList, hwhole]
    decide
  · intro lead hlead hlength
    rw [String.toList_ofList, cutComment, List.prefix_concat_iff] at hlead
    rcases hlead with hlead | ⟨rest, hrest⟩
    · rw [hlead] at hlength
      exact absurd (hwhole.symm.trans hlength) (by decide)
    · rw [← hrest, length_utf8_append] at hletters
      omega

def cutEntry : HarEntry Nat where
  pageref := none
  startedDateTime := some "1970-01-01T00:00:00Z"
  time := none
  request :=
    { method := "GET", url := "http://a.test/", httpVersion := none, cookies := [], headers := [],
      queryString := [], postData := none, comment := some (String.ofList cutComment) }
  response :=
    { status := .number 200, httpVersion := none, cookies := [], headers := [], content := none,
      redirectUrl := none, comment := none }
  cache := none
  timings := none
  serverIpAddress := none
  connection := none

def cutLog : HarLog Nat where
  version := "1.2"
  creator := none
  browser := none
  pages := none
  entries := [cutEntry]

def beforeComment : String :=
  "\x7b\"log\":\x7b\"version\":\"1.2\",\"entries\":[\x7b" ++
    "\"startedDateTime\":\"1970-01-01T00:00:00Z\"," ++
    "\"request\":\x7b\"method\":\"GET\",\"url\":\"http://a.test/\",\"comment\":\""

def afterComment : String := "\"\x7d,\"response\":\x7b\"status\":200\x7d\x7d]\x7d\x7d"

def cutDocument : List Char := beforeComment.toList ++ cutComment ++ afterComment.toList

def cutLibraries : HarLibraries Nat Nat where
  fromSlice bytes :=
    if bytes = utf8 cutDocument then .ok cutLog else .error "expected value at line 1 column 1"
  asF64
    | .number number => some number
    | _ => none
  asU64
    | .number number => some number
    | _ => none
  parseF64 _ := none
  noDuration _ := false
  roundedMs number := min number 3600000
  atLeastZero _ := true
  belowZero _ := false
  parseUrl text :=
    if text = "http://a.test/" then
      some
        { scheme := "http", username := "", password := none, host := some "a.test", port := none,
          path := "/", queryPairs := [] }
    else none
  rfc3339Millis text := if text = "1970-01-01T00:00:00Z" then some 0 else none
  base64Decode _ := none
  body :=
    { fromSlice _ := .error "expected value at line 1 column 1"
      toVec _ := []
      parseForm _ := []
      serializeForm _ := []
      sha256 _ := "" }

def cutSettings : ImportSettings Nat Nat where
  libraries := cutLibraries
  redaction := .defaultSecure
  profileId := "default-secure"
  maxStructuredBytes := 1024
  maxBlobBytes := 1024
  uniqueSuffix _ := "1-0"

def freshWriter : SessionWriter where
  toStaged := .empty
  metadata := Store.SessionRuns.sampleMetadata
  limits := .default

theorem fromSlice_cut {bytes : Bytes} (h : bytes = utf8 cutDocument) :
    cutLibraries.fromSlice bytes = .ok cutLog := if_pos h

theorem readDocument_cut : readDocument cutLibraries (utf8 cutDocument) = .ok cutLog := by
  have hbefore : beforeComment.utf8ByteSize = 137 := rfl
  have hafter : afterComment.utf8ByteSize = 32 := rfl
  have hsize : (utf8 cutDocument).length ≤ maxHarFileBytes := by
    rw [cutDocument, length_utf8_append, length_utf8_append, length_utf8, length_utf8,
      cutComment_length, hbefore, hafter]
    decide
  rw [readDocument, ensure_of_true hsize, fromSlice_cut rfl]
  rfl

/-- A comment whose last character begins before the cut and ends behind it. -/
theorem cut_comment_panics :
    ¬Safe (Store.SessionRuns.sampleCodec 1) "0.1.0" cutSettings (utf8 cutDocument)
      freshWriter := by
  have hprepared : (prepareEntry cutSettings 0 cutEntry).isOk = true := rfl
  have hcut : CutReached cutSettings none 0 [cutEntry] [] cutEntry :=
    { place := List.prefix_refl _
      accepted := by
        intro place entry hentry
        cases hentry
      prepared := isOk_iff.mp hprepared
      cut := .inl cutComment_cut }
  intro hsafe
  apply hsafe.calm
  rw [import_of_refused]
  exact validateDocument_panicked_iff.mpr ⟨cutLog, readDocument_cut, [], cutEntry, hcut⟩

end EggReplay.Har.ImportSafety
