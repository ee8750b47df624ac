import EggReplay.Http.GatewayAnswers
import EggReplay.Http.Rematching

/-!
When the client of the recording gateway, or of the explicit proxy, gets what the upstream
sent. Both answer from the recorded flow, so everything that recording and redaction change
reaches the client, and a body that broke off is delivered as a whole one.
-/

namespace EggReplay.Http.GatewayTransparency

open EggReplay.Library.Checks
open EggReplay.Library.Stateful
open EggReplay.Library.Text
open EggReplay.Core.FlowRecord
open EggReplay.Core.Redaction
open EggReplay.Store.Fixture
open EggReplay.Store.Recording
open EggReplay.Store.BlobContents
open EggReplay.Http.Transaction
open EggReplay.Http.Recorder
open EggReplay.Http.Captures
open EggReplay.Http.RecordMarkers
open EggReplay.Http.Atomicity
open EggReplay.Http.ProjectionAgreement
open EggReplay.Http.ReplayedEnds
open EggReplay.Http.ResponseRendering
open EggReplay.Http.Rematching
open EggReplay.Http.GatewayAnswers

variable {N : Type}

/-! ### One field -/

theorem utf8EncodeChar_ascii : ∀ n : Fin 128,
    String.utf8EncodeChar (Char.ofNat n) = [UInt8.ofNat n] := by
  decide

theorem utf8_ascii {bytes : Bytes} (h : ∀ byte ∈ bytes, byte.toNat < 128) :
    utf8 (bytes.map fun byte => Char.ofNat byte.toNat) = bytes := by
  induction bytes with
  | nil => rfl
  | cons byte rest ih =>
      have hbyte := utf8EncodeChar_ascii ⟨byte.toNat, h byte List.mem_cons_self⟩
      rw [UInt8.ofNat_toNat] at hbyte
      have hrest := ih fun other hother => h other (List.mem_cons_of_mem byte hother)
      rw [utf8, List.map_cons, List.flatMap_cons, hbyte]
      exact congrArg (byte :: ·) hrest

theorem length_le_utf8 (chars : List Char) : chars.length ≤ (utf8 chars).length := by
  induction chars with
  | nil => exact Nat.le_refl 0
  | cons c rest ih =>
      have hpos : 0 < (String.utf8EncodeChar c).length :=
        List.length_pos_iff.mpr String.utf8EncodeChar_ne_nil
      rw [utf8, List.flatMap_cons, List.length_append, List.length_cons]
      have hrest : rest.length ≤ (rest.flatMap String.utf8EncodeChar).length := ih
      omega

/-- A value of visible ASCII is kept; any other is written out longer than it is. -/
theorem entry_bytes_iff (field : HeaderField) :
    utf8 (headerEntry field).value.toList = field.value ↔ Visible field := by
  show utf8 ((toStr field.value).getD
    (String.ofList (field.value.flatMap hexByte))).toList = field.value ↔ _
  rw [toStr]
  constructor
  · intro h
    by_contra hopaque
    rw [Visible] at hopaque
    rw [if_neg hopaque, Option.getD_none, String.toList_ofList] at h
    have hlength := length_le_utf8 (field.value.flatMap hexByte)
    rw [h, length_flatMap_hexByte] at hlength
    have hempty : field.value = [] := List.length_eq_zero_iff.mp (by omega)
    apply hopaque
    rw [hempty]
    rfl
  · intro h
    rw [Visible] at h
    rw [if_pos h, Option.getD_some, String.toList_ofList]
    exact utf8_ascii fun byte hbyte => isVisibleAscii_lt (List.all_eq_true.mp h byte hbyte)

theorem redactHeader_entry (config : RedactionConfig) (field : HeaderField) :
    redactHeader config.headers (headerEntry field) =
      if toAsciiLowercase field.name ∈ config.headers then
        { headerEntry field with value := redacted }
      else headerEntry field := by
  rw [redactHeader, headerEntry, toAsciiLowercase_idem]

theorem redacted_bytes_iff (config : RedactionConfig) (field : HeaderField) :
    utf8 (redactHeader config.headers (headerEntry field)).value.toList = field.value ↔
      Legible config field := by
  rw [redactHeader_entry, Legible]
  split_ifs with hnamed
  · exact eq_comm
  · exact entry_bytes_iff field

theorem redactHeader_of_legible {config : RedactionConfig} {field : HeaderField}
    (h : Legible config field) :
    redactHeader config.headers (headerEntry field) = headerEntry field := by
  rw [redactHeader_entry]
  split_ifs with hnamed
  · rw [Legible, if_pos hnamed] at h
    have htext : toStr (utf8 redacted.toList) = some redacted := by decide
    rw [headerEntry, h, htext]
    rfl
  · rfl

/-! ### Fields under a name -/

theorem gotValues_map {α : Type} (name : String) (items : List α) (nameOf : α → String)
    (entry : α → HeaderEntry)
    (hname : ∀ item, toAsciiLowercase (entry item).name = toAsciiLowercase (nameOf item)) :
    gotValues name (items.map entry) =
      (items.filter fun item => toAsciiLowercase (nameOf item) = name).map
        fun item => utf8 (entry item).value.toList := by
  rw [gotValues, List.filter_map, List.map_map]
  have hfilter : ((fun header : HeaderEntry => decide (toAsciiLowercase header.name = name)) ∘
      entry) = fun item => decide (toAsciiLowercase (nameOf item) = name) := by
    funext item
    rw [Function.comp_apply, hname]
  rw [hfilter]
  rfl

theorem name_redactHeader (names : Finset String) (header : HeaderEntry) :
    (redactHeader names header).name = header.name := by
  rw [redactHeader]
  split_ifs with hnamed
  · rfl
  · rfl

theorem gotValues_entries (config : RedactionConfig) (name : String) (fields : HeaderMap) :
    gotValues name ((fields.map headerEntry).map (redactHeader config.headers)) =
      (fields.filter fun field => toAsciiLowercase field.name = name).map
        fun field => utf8 (redactHeader config.headers (headerEntry field)).value.toList := by
  rw [List.map_map]
  apply gotValues_map name fields HeaderField.name
  intro field
  rw [Function.comp_apply, name_redactHeader, headerEntry, toAsciiLowercase_idem]

theorem gotValues_append (name : String) (left right : List HeaderEntry) :
    gotValues name (left ++ right) = gotValues name left ++ gotValues name right := by
  rw [gotValues, List.filter_append, List.map_append]
  rfl

/-- The fields under one name are kept. -/
theorem values_kept_iff (config : RedactionConfig) (name : String) (fields : HeaderMap) :
    gotValues name ((fields.map headerEntry).map (redactHeader config.headers)) =
        sentValues name fields ↔
      ∀ field ∈ fields, toAsciiLowercase field.name = name → Legible config field := by
  rw [gotValues_entries, sentValues, List.map_inj_left]
  constructor
  · intro h field hfield hname
    apply (redacted_bytes_iff config field).mp
    exact h field (List.mem_filter.mpr ⟨hfield, decide_eq_true hname⟩)
  · intro h field hfield
    obtain ⟨hmem, hname⟩ := List.mem_filter.mp hfield
    exact (redacted_bytes_iff config field).mpr (h field hmem (of_decide_eq_true hname))

/-! ### Reconciled fields -/

/-- The field is not taken for stale after a transform. -/
def outlives (field : HeaderField) : Bool :=
  decide (reconcileHeader (headerEntry field) = .keep ∨ reconcileHeader (headerEntry field) = .warn)

theorem reconcileHeader_eq_drop (field : HeaderField) :
    reconcileHeader (headerEntry field) = .drop ↔
      toAsciiLowercase field.name = "content-length" := by
  rw [reconcileHeader, headerEntry, toAsciiLowercase_idem]
  split_ifs with hlength hdigest hetag hweak
  · exact ⟨fun _ => hlength, fun _ => rfl⟩
  · exact ⟨(by rintro ⟨⟩), fun h => absurd h hlength⟩
  · exact ⟨(by rintro ⟨⟩), fun h => absurd h hlength⟩
  · exact ⟨(by rintro ⟨⟩), fun h => absurd h hlength⟩
  · exact ⟨(by rintro ⟨⟩), fun h => absurd h hlength⟩

theorem outlives_iff (field : HeaderField) :
    outlives field = true ↔ toAsciiLowercase field.name ≠ "content-length" ∧
      ∀ name, reconcileHeader (headerEntry field) ≠ .dropMarked name := by
  have hdrop := not_congr (reconcileHeader_eq_drop field)
  rw [outlives, decide_eq_true_eq, Ne, ← hdrop]
  cases reconcileHeader (headerEntry field) with
  | keep => exact ⟨fun _ => ⟨(by rintro ⟨⟩), (by rintro _ ⟨⟩)⟩, fun _ => .inl rfl⟩
  | warn => exact ⟨fun _ => ⟨(by rintro ⟨⟩), (by rintro _ ⟨⟩)⟩, fun _ => .inr rfl⟩
  | drop => exact ⟨(by rintro (h | h) <;> cases h), fun h => absurd rfl h.1⟩
  | dropMarked name => exact ⟨(by rintro (h | h) <;> cases h), fun h => absurd rfl (h.2 name)⟩

example : outlives { name := "ETag", value := utf8 "W/1".toList } = true ∧
    outlives { name := "Digest", value := [] } = false := by decide

def staleNames : List String :=
  ["content-md5", "content-digest", "digest", "signature", "signature-input", "etag"]

theorem stale_of_dropMarked {field : HeaderField} {name : String}
    (h : reconcileHeader (headerEntry field) = .dropMarked name) :
    toAsciiLowercase field.name ∈ staleNames := by
  rw [reconcileHeader, headerEntry, toAsciiLowercase_idem] at h
  dsimp only at h
  split_ifs at h with hlength hdigest hetag hweak
  · rcases hdigest with hname | hname | hname | hname | hname
    all_goals
      rw [hname]
      decide
  · rw [hetag]
    decide

/-- A stale field is for the client, not for the connection. -/
theorem not_hopByHop_of_dropMarked {field : HeaderField} {name : String}
    (h : reconcileHeader (headerEntry field) = .dropMarked name) :
    toAsciiLowercase field.name ∉ hopByHop := by
  have hdisjoint : ∀ stale ∈ staleNames, stale ∉ hopByHop := by decide
  exact hdisjoint _ (stale_of_dropMarked h)

/-- What is recorded of the fields beside a transformed body. -/
theorem reconciled_fields (config : RedactionConfig) (profile : String) (fields : HeaderMap)
    (length : Nat) :
    (reconcileHeadersAfterBodyRedaction (fields.map headerEntry) length profile).headers.map
        (redactHeader config.headers) =
      ((fields.filter outlives).map headerEntry).map (redactHeader config.headers) ++
        [recordedLength config length] := by
  have hfilter : ((fun header : HeaderEntry =>
      decide (reconcileHeader header = .keep ∨ reconcileHeader header = .warn)) ∘ headerEntry) =
      outlives := by
    funext field
    rw [Function.comp_apply, outlives]
  rw [reconcileHeadersAfterBodyRedaction, List.map_append, List.filter_map, hfilter,
    List.map_cons, List.map_nil, recordedLength]

theorem gotValues_length (config : RedactionConfig) (length : Nat) (name : String) :
    gotValues name [recordedLength config length] =
      if name = "content-length" then [utf8 (recordedLength config length).value.toList]
      else [] := by
  have hlower : toAsciiLowercase "content-length" = "content-length" := by decide
  have hname : toAsciiLowercase (recordedLength config length).name = "content-length" := by
    rw [recordedLength, name_redactHeader]
    exact hlower
  rw [gotValues, List.filter_cons, hname]
  split_ifs with h h' h'
  · rfl
  · exact absurd (of_decide_eq_true h).symm h'
  · exact absurd (decide_eq_true h'.symm) h
  · rfl

/-- The digits of a number are visible ASCII. -/
theorem visible_repr (name : String) (n : Nat) :
    Visible { name, value := utf8 (Nat.repr n).toList } := by
  have hdigit : ∀ c : Char, c.isDigit = true → (String.utf8EncodeChar c).all isVisibleAscii = true := by
    intro c hc
    obtain ⟨value, rfl⟩ : ∃ value : Fin 128, c = Char.ofNat value := by
      have hlt : c.toNat < 128 := by
        simp only [Char.isDigit, Bool.and_eq_true, decide_eq_true_eq, UInt32.le_iff_toNat_le] at hc
        exact Nat.lt_of_le_of_lt hc.2 (by decide)
      exact ⟨⟨c.toNat, hlt⟩, (Char.ofNat_toNat c).symm⟩
    rw [utf8EncodeChar_ascii]
    revert value
    decide
  rw [Visible, utf8, List.all_flatMap, List.all_eq_true]
  intro c hc
  rw [Nat.toList_repr] at hc
  exact hdigit c (Nat.isDigit_of_mem_toDigits (by decide) (by decide) hc)

/-- A length that was sent as it is recorded is legible. -/
theorem legible_of_length {config : RedactionConfig} {field : HeaderField} {length : Nat}
    (hname : toAsciiLowercase field.name = "content-length")
    (hvalue : field.value = utf8 (recordedLength config length).value.toList) :
    Legible config field := by
  have hlower : toAsciiLowercase "content-length" = "content-length" := by decide
  rw [recordedLength, redactHeader] at hvalue
  dsimp only at hvalue
  rw [hlower] at hvalue
  rw [Legible, hname]
  split_ifs at hvalue ⊢ with hnamed
  · exact hvalue
  · have hvisible := visible_repr field.name length
    rw [Visible] at hvisible ⊢
    rw [hvalue]
    exact hvisible

theorem filter_outlives {fields : HeaderMap} {name : String} (hname : name ≠ "content-length")
    (hdigests : ∀ field ∈ fields, ∀ stale, reconcileHeader (headerEntry field) ≠ .dropMarked stale) :
    (fields.filter outlives).filter (fun field => toAsciiLowercase field.name = name) =
      fields.filter fun field => toAsciiLowercase field.name = name := by
  rw [List.filter_filter]
  apply List.filter_congr
  intro field hfield
  by_cases hfieldname : toAsciiLowercase field.name = name
  · have houtlives := (outlives_iff field).mpr ⟨hfieldname ▸ hname, hdigests field hfield⟩
    rw [houtlives, Bool.and_true]
  · rw [decide_eq_false hfieldname, Bool.false_and]

theorem filter_outlives_length (fields : HeaderMap) :
    (fields.filter outlives).filter
      (fun field => toAsciiLowercase field.name = "content-length") = [] := by
  apply List.filter_eq_nil_iff.mpr
  intro field hfield
  obtain ⟨-, houtlives⟩ := List.mem_filter.mp hfield
  rw [decide_eq_true_eq]
  exact ((outlives_iff field).mp houtlives).1

/-- The fields beside a transformed body are kept. -/
theorem reconciled_kept_iff (config : RedactionConfig) (fields : HeaderMap) (length : Nat) :
    (∀ name, name ∉ hopByHop →
      gotValues name (((fields.filter outlives).map headerEntry).map
        (redactHeader config.headers) ++ [recordedLength config length]) =
          sentValues name fields) ↔
      (∀ field ∈ fields, toAsciiLowercase field.name ∉ hopByHop → Legible config field) ∧
      (∀ field ∈ fields, ∀ stale, reconcileHeader (headerEntry field) ≠ .dropMarked stale) ∧
      sentValues "content-length" fields =
        [utf8 (recordedLength config length).value.toList] := by
  constructor
  · intro h
    have hothers : ∀ name, name ∉ hopByHop → name ≠ "content-length" →
        gotValues name (((fields.filter outlives).map headerEntry).map
          (redactHeader config.headers)) = sentValues name fields := by
      intro name hhop hname
      have hvalues := h name hhop
      rw [gotValues_append, gotValues_length, if_neg hname, List.append_nil] at hvalues
      exact hvalues
    have hfilter : ∀ name, name ∉ hopByHop → name ≠ "content-length" →
        (fields.filter outlives).filter (fun field => toAsciiLowercase field.name = name) =
          fields.filter fun field => toAsciiLowercase field.name = name := by
      intro name hhop hname
      have hlength := congrArg List.length (hothers name hhop hname)
      rw [gotValues_entries, List.length_map, sentValues, List.length_map] at hlength
      exact (List.filter_sublist.filter _).eq_of_length hlength
    have hlengths : sentValues "content-length" fields =
        [utf8 (recordedLength config length).value.toList] := by
      rw [← h "content-length" (by decide), gotValues_append, gotValues_length, if_pos rfl,
        gotValues_entries, filter_outlives_length]
      rfl
    refine ⟨?_, ?_, hlengths⟩
    · intro field hfield hhop
      by_cases hname : toAsciiLowercase field.name = "content-length"
      · have hmem : field.value ∈ sentValues "content-length" fields :=
          List.mem_map_of_mem (List.mem_filter.mpr ⟨hfield, decide_eq_true hname⟩)
        rw [hlengths, List.mem_singleton] at hmem
        exact legible_of_length hname hmem
      · have hvalues := hothers _ hhop hname
        rw [gotValues_entries, hfilter _ hhop hname, ← gotValues_entries] at hvalues
        exact (values_kept_iff config _ fields).mp hvalues field hfield rfl
    · intro field hfield stale hstale
      have hhop := not_hopByHop_of_dropMarked hstale
      have hname : toAsciiLowercase field.name ≠ "content-length" := by
        intro hname
        rw [(reconcileHeader_eq_drop field).mpr hname] at hstale
        cases hstale
      have hmem : field ∈ (fields.filter outlives).filter
          fun other => toAsciiLowercase other.name = toAsciiLowercase field.name := by
        rw [hfilter _ hhop hname]
        exact List.mem_filter.mpr ⟨hfield, decide_eq_true rfl⟩
      have houtlives := (List.mem_filter.mp (List.mem_filter.mp hmem).1).2
      exact ((outlives_iff field).mp houtlives).2 stale hstale
  · rintro ⟨hlegible, hdigests, hlengths⟩ name hhop
    rw [gotValues_append, gotValues_length]
    by_cases hname : name = "content-length"
    · rw [hname, gotValues_entries, filter_outlives_length, if_pos rfl, hlengths]
      rfl
    · rw [gotValues_entries, filter_outlives hname hdigests, if_neg hname, List.append_nil,
        ← gotValues_entries]
      apply (values_kept_iff config name fields).mpr
      intro field hfield hfieldname
      exact hlegible field hfield (hfieldname ▸ hhop)

/-! ### Recorded values are printable -/

theorem printable_redacted : Printable redacted := by
  decide

theorem printable_repr (n : Nat) : Printable (Nat.repr n) :=
  visible_repr "" n

theorem visible_hexByte : ∀ n : Fin 16,
    (String.utf8EncodeChar (Nat.digitChar n)).all isVisibleAscii = true := by
  decide

theorem printable_hex (bytes : Bytes) : Printable (String.ofList (bytes.flatMap hexByte)) := by
  rw [Printable, String.toList_ofList, utf8, List.all_flatMap, List.all_flatMap, List.all_eq_true]
  intro byte hbyte
  have hlt := UInt8.toNat_lt byte
  rw [List.all_eq_true]
  intro c hc
  rw [hexByte] at hc
  rcases List.mem_cons.mp hc with rfl | hlow
  · exact visible_hexByte ⟨byte.toNat / 16, by omega⟩
  · rw [List.mem_singleton.mp hlow]
    exact visible_hexByte ⟨byte.toNat % 16, by omega⟩

theorem printable_headerEntry (field : HeaderField) : Printable (headerEntry field).value := by
  by_cases hvisible : Visible field
  · have hbytes := (entry_bytes_iff field).mpr hvisible
    rw [Printable, hbytes]
    exact hvisible
  · have hvalue : (headerEntry field).value = String.ofList (field.value.flatMap hexByte) := by
      show (toStr field.value).getD _ = _
      rw [Visible] at hvisible
      rw [toStr, if_neg hvisible, Option.getD_none]
    rw [hvalue]
    exact printable_hex field.value

theorem printable_redactHeader {names : Finset String} {header : HeaderEntry}
    (h : Printable header.value) : Printable (redactHeader names header).value := by
  rw [redactHeader]
  split_ifs with hnamed
  · exact printable_redacted
  · exact h

/-! ### What is received of a reply -/

theorem received_frame {maxBlobBytes : Nat} {received next : Received} {frame : TimedFrame}
    {earlier : HeaderMap} (htrailers : received.trailers = (headerEntries earlier).1)
    (h : received.frame maxBlobBytes frame = .ok next) :
    next.content = received.content ++ frameData frame ∧
      next.trailers = (headerEntries (frameTrailers earlier frame)).1 := by
  rcases frame with ⟨delta, bytes | fields⟩
  · simp only [Received.frame, bind_eq_ok, mapError_eq_ok, pure_eq_ok] at h
    obtain ⟨content, hgrow, events, -, rfl⟩ := h
    simp only [grow, bind_unit_eq_ok, pure_eq_ok] at hgrow
    exact ⟨hgrow.2.2.symm, htrailers⟩
  · simp only [Received.frame, bind_eq_ok, pure_eq_ok] at h
    obtain ⟨events, -, rfl⟩ := h
    exact ⟨(List.append_nil _).symm, rfl⟩

theorem received_frames {maxBlobBytes : Nat} {frames : List TimedFrame}
    {start final : Received} {earlier : HeaderMap}
    (htrailers : start.trailers = (headerEntries earlier).1)
    (h : checkFold (Received.frame maxBlobBytes) start frames = .ok final) :
    final.content = start.content ++ frames.flatMap frameData ∧
      final.trailers = (headerEntries (frames.foldl frameTrailers earlier)).1 := by
  induction frames generalizing start earlier with
  | nil =>
      obtain rfl := Except.ok.inj h
      exact ⟨(List.append_nil _).symm, htrailers⟩
  | cons frame rest ih =>
      rw [checkFold_cons, bind_eq_ok] at h
      obtain ⟨next, hnext, hrest⟩ := h
      obtain ⟨hcontent, hnextTrailers⟩ := received_frame htrailers hnext
      obtain ⟨hfinal, hfinalTrailers⟩ := ih hnextTrailers hrest
      refine ⟨?_, hfinalTrailers⟩
      rw [hfinal, hcontent, List.flatMap_cons, List.append_assoc]

theorem receivedBody_eq_ok {maxBlobBytes : Nat} {reply : Reply} {received : Received}
    (h : receivedBody maxBlobBytes reply = .ok received) :
    received.content = replyBody reply ∧
      received.trailers = (headerEntries (replyTrailers reply)).1 := by
  simp only [receivedBody, bind_eq_ok, pure_eq_ok] at h
  obtain ⟨final, hframes, events, -, rfl⟩ := h
  exact received_frames rfl hframes

/-! ### What is recorded of a reply -/

/-- The content that is stored, the markers of its transform, and the response that is
recorded with it. -/
structure RecordedReply (storage : Codec) (codec : BodyCodec N) (settings : Settings)
    (reply : Reply) (clean : Bytes) (markers : List RedactionMarker) (response : HttpResponse) :
    Prop where
  transform : transformBody codec (replyBody reply) (contentType reply.headers)
    settings.redaction settings.profileId true = .ok (clean, markers)
  status : response.status = reply.status
  headers : response.headers =
    (if markers = [] then reply.headers.map headerEntry
      else (reconcileHeadersAfterBodyRedaction (reply.headers.map headerEntry) clean.length
        settings.profileId).headers).map (redactHeader settings.redaction.headers)
  body : reference storage clean = .ok response.body
  trailers : response.trailers =
    ((replyTrailers reply).map headerEntry).map (redactHeader settings.redaction.headers)

theorem filedOutcome_reply {storage : Codec} {codec : BodyCodec N} {settings : Settings}
    {maxBlobBytes : Nat} {exchange : Exchange} {reply : Reply} {answer : FiledOutcome}
    (hresult : exchange.result = .ok reply)
    (h : filedOutcome storage codec settings maxBlobBytes exchange = .ok answer) :
    ∃ markers response, answer.observed.outcome = .response response ∧
      RecordedReply storage codec settings reply answer.content markers
        (redactResponse settings.redaction.headers response) := by
  rw [filedOutcome, hresult] at h
  simp only [bind_eq_ok, pure_eq_ok] at h
  obtain ⟨received, hreceived, stored, hstored, rfl⟩ := h
  obtain ⟨hcontent, htrailers⟩ := receivedBody_eq_ok hreceived
  obtain ⟨htransform, hreference, -⟩ := filedStaged_eq_ok hstored
  rw [hcontent] at htransform
  refine ⟨stored.markers, _, rfl, htransform, rfl, ?_, hreference, ?_⟩
  · show List.map _ (if stored.markers = [] then _ else _) = _
    rw [reference_len hreference]
    rfl
  · show List.map _ received.trailers = _
    rw [htrailers]
    rfl

/-- What a successful call has recorded of the reply, and where its content stands. -/
theorem recorded_reply {storage : Codec} {codec : BodyCodec N} {settings : Settings}
    {exchange : Exchange} {reply : Reply} {inner next : RecordingInner} {flow : Flow}
    (hrecord : recordRequestWithSession storage codec settings exchange inner = (.ok flow, next))
    (hresult : exchange.result = .ok reply) :
    ∃ clean markers response request, flow.outcome = .response response ∧
      RecordedReply storage codec settings reply clean markers response ∧
      checkFlow inner.limits flow = .ok () ∧
      contents next.directory =
        ((contents inner.directory).file storage request).file storage clean := by
  obtain ⟨done, hdone, hflow, hcheck, hcontents⟩ := recordRequestWithSession_contents hrecord
  obtain ⟨converted, stored, answer, parts⟩ := captured_eq_ok hdone
  obtain ⟨markers, response, houtcome, hreply⟩ := filedOutcome_reply hresult parts.outcome
  refine ⟨answer.content, markers, redactResponse settings.redaction.headers response,
    done.requestContent, ?_, hreply, hcheck, ?_⟩
  · rw [hflow, finishSessionFlow_outcome, parts.flow]
    show redactOutcome settings.redaction.headers answer.observed.outcome = _
    rw [houtcome]
    rfl
  · rw [hcontents, parts.responseContent]

/-- A content under a digest that no other content has is filed there. -/
theorem filed_content {storage : Codec} {session : RecordingInner} {request clean : Bytes}
    (haddressed : Addressed storage.sha256Hex session) (hclean : clean ≠ [])
    (hunshared : Unshared storage.sha256Hex (storage.sha256Hex clean)) :
    ((contents session.directory).file storage request).file storage clean
      (storage.sha256Hex clean) = some clean := by
  rw [Contents.file_digest storage _ hclean]
  apply congrArg some
  rcases hstored : (contents session.directory).file storage request
    (storage.sha256Hex clean) with _ | bytes
  · rfl
  · rw [Option.getD_some]
    refine hunshared bytes clean ?_ rfl
    rw [Contents.file] at hstored
    split_ifs at hstored with hempty htaken
    · exact haddressed _ _ hstored
    · exact haddressed _ _ hstored
    · rw [Function.update_apply] at hstored
      split_ifs at hstored with hdigest
      · obtain rfl := Option.some.inj hstored
        exact hdigest.symm
      · exact haddressed _ _ hstored

theorem recorded_intact {storage : Codec} {codec : BodyCodec N} {settings : Settings}
    {reply : Reply} {inner next : RecordingInner} {flow : Flow} {files : BlobFiles}
    {request clean : Bytes} {markers : List RedactionMarker} {response : HttpResponse}
    (houtcome : flow.outcome = .response response)
    (hreply : RecordedReply storage codec settings reply clean markers response)
    (hchecked : checkFlow inner.limits flow = .ok ())
    (hcontents : contents next.directory =
      ((contents inner.directory).file storage request).file storage clean)
    (hlower : ∀ bytes, toAsciiLowercase (storage.sha256Hex bytes) = storage.sha256Hex bytes)
    (haddressed : Addressed storage.sha256Hex inner) (hfiles : FilesOf files next)
    (hunshared : ∀ blob, BodyRef.blob blob ∈ bodyRefs flow →
      Unshared storage.sha256Hex blob.sha256) :
    Intact storage.sha256Hex inner.limits files clean response.body := by
  have hbody := hreply.body
  have hmem : response.body ∈ bodyRefs flow := by
    rw [bodyRefs, houtcome]
    exact List.mem_cons_of_mem _ (List.mem_singleton.mpr rfl)
  rw [reference] at hbody
  split_ifs at hbody with hempty
  · rw [← pure_eq_ok.mp hbody]
    exact hempty
  · simp only [bind_eq_ok, mapError_eq_ok, pure_eq_ok] at hbody
    obtain ⟨blob, hblob, hbody⟩ := hbody
    simp only [BlobRef.new, bind_unit_eq_ok, pure_eq_ok] at hblob
    obtain ⟨-, rfl⟩ := hblob
    rw [hlower] at hbody
    rw [← hbody] at hmem ⊢
    simp only [checkFlow, bind_unit_eq_ok, validateBodyRefs, checkAll_eq_ok] at hchecked
    have hlimit := hchecked.2.1 _ hmem
    simp only [validateBodyRef, bind_unit_eq_ok, ensure_eq_ok] at hlimit
    have hstands : contents next.directory (storage.sha256Hex clean) = some clean := by
      rw [hcontents]
      exact filed_content haddressed hempty (hunshared _ hmem)
    obtain ⟨file, hfile, hcontent, hreads⟩ := hfiles _ _ hstands
    refine ⟨hlimit.1, hlimit.2, file, hfile, hcontent, ?_⟩
    exact ⟨congrArg List.length hcontent, congrArg storage.sha256Hex hcontent, hreads⟩

/-! ### What is delivered -/

section

variable {checks : HttpChecks} {sha256 : Bytes → String} {limits : StoreLimits}
  {files : BlobFiles} {flow : Flow} {response : HttpResponse} {content : Bytes}

/-- The end of a body with the trailers. -/
def endWith (checks : HttpChecks) (trailers : List HeaderEntry) : Ending :=
  if trailers = [] then .clean []
  else
    match checks.trailers trailers with
    | .ok _ => .clean trailers
    | .error message => .failed message

theorem gateway_delivers (houtcome : flow.outcome = .response response)
    (hhead : buildHead checks response.status response.headers = .ok ())
    (hintact : Intact sha256 limits files content response.body) :
    ∃ chunks, chunks.flatten = content ∧
      deliverGateway checks sha256 (gatewayResponse checks sha256 limits files flow) =
        some ⟨response.status, response.headers, chunks, endWith checks response.trailers⟩ := by
  rw [gatewayResponse, houtcome]
  dsimp only
  rcases hbody : response.body with _ | _ | blob
  · rw [hbody] at hintact
    refine ⟨[], hintact.symm, ?_⟩
    show deliverGateway checks sha256 (buildResponse checks response.status response.headers
      (.stream (responseStream BlobFile.empty 0 response.trailers))) = _
    rw [buildResponse, hhead]
    rfl
  · rw [hbody] at hintact
    refine ⟨[], hintact.symm, ?_⟩
    show deliverGateway checks sha256 (buildResponse checks response.status response.headers
      (.stream (responseStream BlobFile.empty 0 response.trailers))) = _
    rw [buildResponse, hhead]
    rfl
  · rw [hbody] at hintact
    obtain ⟨hdigest, hlimit, file, hfile, rfl, hstored⟩ := hintact
    have hpath : bodyPath sha256 limits files blob = .ok file := by
      simp [bodyPath, hdigest, hlimit, hfile, hstored.length, hstored.digest]
    have hplayed : ∃ chunks, (ByteStream.plain file none).play sha256
        (endWith checks response.trailers) (blob.length + 1) =
          some ⟨chunks, endWith checks response.trailers⟩ ∧
        chunks.flatten = file.content.drop 0 := by
      apply play_plain hstored
      rw [Option.getD_none, List.drop_zero, hstored.length]
      exact Nat.lt_succ_self _
    obtain ⟨chunks, hplay, hflatten⟩ := hplayed
    refine ⟨chunks, hflatten, ?_⟩
    rw [sessionBodyPath, hpath]
    show (deliverGateway checks sha256 (buildResponse checks response.status response.headers
      (.stream (responseStream file blob.length response.trailers)))) = _
    rw [buildResponse, hhead]
    show Option.map _ ((ByteStream.plain file none).play sha256 _ (blob.length + 1)) = _
    rw [show (responseStream file blob.length response.trailers).finish checks =
      endWith checks response.trailers from rfl, hplay]
    rfl

/-- The reads of a stored file give all of it. -/
theorem readToEnd_stored {blob : BlobRef} {file : BlobFile} (hstored : Stored sha256 blob file)
    {fuel offset : Nat} (hfuel : (file.content.drop offset).length < fuel) :
    BlobFile.readToEnd file fuel offset = .ok (file.content.drop offset) := by
  induction fuel generalizing offset with
  | zero => exact absurd hfuel (Nat.not_lt_zero _)
  | succ fuel ih =>
      obtain ⟨chunk, hchunk, -, hend, hdrop⟩ := readAt_stored hstored offset
        (show maxChunkBytes ≠ 0 by decide)
      rw [BlobFile.readToEnd, hchunk]
      rcases chunk with _ | ⟨first, others⟩
      · rw [List.drop_eq_nil_of_le (hend rfl)]
      · have hlength := congrArg List.length hdrop
        have hpos : 0 < (first :: others).length := Nat.succ_pos _
        rw [List.length_append] at hlength
        dsimp only
        rw [ih (by omega), hdrop]
        rfl

theorem proxy_delivers (houtcome : flow.outcome = .response response)
    (hhead : buildHead checks response.status response.headers = .ok ())
    (hannouncement : checks.header (trailerAnnouncement response.trailers) = .ok ())
    (hintact : Intact sha256 limits files content response.body) :
    deliverProxy checks (flowToResponse checks sha256 limits files flow) =
      some ⟨response.status,
        response.headers ++
          (if response.trailers = [] then [] else [trailerAnnouncement response.trailers]),
        [content], endWith checks response.trailers⟩ := by
  have hread : sessionReadBody sha256 limits files response.body = .ok content := by
    rcases hbody : response.body with _ | _ | blob
    · rw [hbody] at hintact
      exact congrArg Except.ok hintact.symm
    · rw [hbody] at hintact
      exact congrArg Except.ok hintact.symm
    · rw [hbody] at hintact
      obtain ⟨hdigest, hlimit, file, hfile, rfl, hstored⟩ := hintact
      have hpath : bodyPath sha256 limits files blob = .ok file := by
        simp [bodyPath, hdigest, hlimit, hfile, hstored.length, hstored.digest]
      have hbytes : BlobFile.readToEnd file (file.content.length + 1) 0 = .ok file.content :=
        readToEnd_stored hstored (Nat.lt_succ_self _)
      rw [sessionReadBody, hpath, ok_bind, hbytes]
      rfl
  rw [flowToResponse, houtcome]
  dsimp only
  rw [hhead, ok_bind, hread]
  show deliverProxy checks (if response.trailers = [] then _ else _) = _
  rw [endWith]
  by_cases htrailers : response.trailers = []
  · rw [if_pos htrailers, if_pos htrailers, if_pos htrailers, List.append_nil]
    rfl
  · rw [if_neg htrailers, if_neg htrailers, if_neg htrailers, hannouncement]
    rfl

end

/-! ### Transparency -/

section

variable {checks : HttpChecks} {storage : Codec} {codec : BodyCodec N} {settings : Settings}
  {reply : Reply} {clean : Bytes} {markers : List RedactionMarker} {response : HttpResponse}

theorem transform_markers {isResponse : Bool} {contentType : Option String} {content : Bytes}
    {config : RedactionConfig} {profile : String}
    (h : Transform codec config profile isResponse contentType content clean markers) :
    (markers = [] → clean = content ∧ ¬(content ≠ [] ∧ needsTransform config contentType = true)) ∧
      (markers ≠ [] → content ≠ [] ∧ needsTransform config contentType = true) := by
  cases h with
  | kept h =>
      refine ⟨fun _ => ⟨rfl, ?_⟩, fun hmarkers => absurd rfl hmarkers⟩
      rintro ⟨hcontent, hneeds⟩
      rcases h with hempty | hnone
      · exact hcontent hempty
      · rw [hneeds] at hnone
        cases hnone
  | json hcontent hpaths htype _ =>
      refine ⟨fun hmarkers => absurd hmarkers (bodyMarkers_ne_nil hpaths), fun _ => ⟨hcontent, ?_⟩⟩
      exact needsTransform_iff.mpr (.inl ⟨hpaths, htype⟩)
  | form hcontent hkeys htype _ =>
      refine ⟨fun hmarkers => absurd hmarkers (formMarkers_ne_nil hkeys), fun _ => ⟨hcontent, ?_⟩⟩
      exact needsTransform_iff.mpr (.inr ⟨hkeys, htype⟩)

/-- The fields and the body of a recorded reply are the upstream's. -/
theorem recorded_kept_iff (hreply : RecordedReply storage codec settings reply clean markers
    response) :
    (clean = replyBody reply ∧ ∀ name, name ∉ hopByHop →
      gotValues name response.headers = sentValues name reply.headers) ↔
      (∀ field ∈ reply.headers, toAsciiLowercase field.name ∉ hopByHop →
        Legible settings.redaction field) ∧
      (Transformed settings.redaction reply → Steady codec settings reply) := by
  have htransform := transform_markers (transformBody_eq_ok hreply.transform)
  rw [hreply.headers]
  by_cases hmarkers : markers = []
  · obtain ⟨hclean, huntouched⟩ := htransform.1 hmarkers
    rw [if_pos hmarkers]
    constructor
    · rintro ⟨-, hvalues⟩
      refine ⟨?_, fun htransformed => absurd htransformed huntouched⟩
      intro field hfield hhop
      exact (values_kept_iff _ _ _).mp (hvalues _ hhop) field hfield rfl
    · rintro ⟨hlegible, -⟩
      refine ⟨hclean, ?_⟩
      intro name hhop
      apply (values_kept_iff _ _ _).mpr
      intro field hfield hname
      exact hlegible field hfield (hname ▸ hhop)
  · have htransformed := htransform.2 hmarkers
    rw [if_neg hmarkers, reconciled_fields, reconciled_kept_iff]
    constructor
    · rintro ⟨hclean, hlegible, hdigests, hlength⟩
      refine ⟨hlegible, fun _ => ⟨⟨markers, ?_⟩, hdigests, ?_⟩⟩
      · rw [hreply.transform, hclean]
      · rw [hlength, hclean]
    · rintro ⟨hlegible, hsteady⟩
      obtain ⟨⟨others, hbody⟩, hdigests, hlength⟩ := hsteady htransformed
      rw [hreply.transform, Except.ok.injEq, Prod.mk.injEq] at hbody
      refine ⟨hbody.1, hlegible, hdigests, ?_⟩
      rw [hlength, hbody.1]

/-- The end of the recorded reply is the upstream's. -/
theorem endsAlike_iff (hmid : MidBody reply)
    (hreply : RecordedReply storage codec settings reply clean markers response) :
    EndsAlike reply (endWith checks response.trailers) ↔
      reply.ending.failure = none ∧
      (∀ field ∈ replyTrailers reply, Legible settings.redaction field) ∧
      (replyTrailers reply ≠ [] →
        checks.trailers (headerEntries (replyTrailers reply)).1 = .ok ()) := by
  rw [hreply.trailers, List.map_map, endWith]
  by_cases hnone : replyTrailers reply = []
  · rw [hnone, List.map_nil, if_pos rfl, EndsAlike]
    constructor
    · rintro ⟨hcomplete, -⟩
      exact ⟨hcomplete, fun field hfield => absurd hfield List.not_mem_nil, fun h => absurd rfl h⟩
    · rintro ⟨hcomplete, -, -⟩
      refine ⟨hcomplete, ?_⟩
      rw [hnone]
      rfl
  · have hcomplete : reply.ending.failure = none := by
      by_contra hfailed
      exact hnone (hmid hfailed)
    have hkept : (∀ field ∈ replyTrailers reply, Legible settings.redaction field) →
        (replyTrailers reply).map (redactHeader settings.redaction.headers ∘ headerEntry) =
          (headerEntries (replyTrailers reply)).1 := by
      intro hlegible
      apply List.map_congr_left
      intro field hfield
      exact redactHeader_of_legible (hlegible field hfield)
    rw [if_neg (by simpa using hnone)]
    constructor
    · intro h
      rcases haccepted : checks.trailers ((replyTrailers reply).map
        (redactHeader settings.redaction.headers ∘ headerEntry)) with message | ⟨⟩
      · rw [haccepted] at h
        exact absurd hcomplete h
      · rw [haccepted] at h
        obtain ⟨-, hfields⟩ := h
        have hlegible : ∀ field ∈ replyTrailers reply, Legible settings.redaction field := by
          intro field hfield
          rw [List.map_map, List.map_inj_left] at hfields
          exact (redacted_bytes_iff _ field).mp (congrArg Prod.snd (hfields field hfield))
        rw [hkept hlegible] at haccepted
        exact ⟨hcomplete, hlegible, fun _ => haccepted⟩
    · rintro ⟨-, hlegible, haccepted⟩
      rw [hkept hlegible, haccepted hnone]
      refine ⟨hcomplete, ?_⟩
      show List.map gotField ((replyTrailers reply).map headerEntry) = _
      rw [List.map_map, List.map_inj_left]
      intro field hfield
      have hbytes := (redacted_bytes_iff _ field).mpr (hlegible field hfield)
      rw [redactHeader_of_legible (hlegible field hfield)] at hbytes
      rw [Function.comp_apply, gotField, hbytes]
      rfl

theorem transparent_iff_unaltered {headers : List HeaderEntry} {chunks : List Bytes}
    (hmid : MidBody reply)
    (hreply : RecordedReply storage codec settings reply clean markers response)
    (hchunks : chunks.flatten = clean)
    (hheaders : ∀ name, name ∉ hopByHop → gotValues name headers = gotValues name response.headers) :
    TransparentTo reply (some
      ⟨response.status, headers, chunks, endWith checks response.trailers⟩) ↔
      Unaltered checks codec settings reply := by
  constructor
  · rintro ⟨answer, hanswer, hstatus, hvalues, hbody, hending⟩
    obtain rfl := Option.some.inj hanswer
    obtain ⟨hcomplete, htrailers, hannounced⟩ := (endsAlike_iff hmid hreply).mp hending
    obtain ⟨hlegible, hsteady⟩ := (recorded_kept_iff hreply).mp
      ⟨hchunks.symm.trans hbody, fun name hhop => (hheaders name hhop).symm.trans (hvalues name hhop)⟩
    exact ⟨hcomplete, hlegible, htrailers, hannounced, hsteady⟩
  · rintro ⟨hcomplete, hlegible, htrailers, hannounced, hsteady⟩
    obtain ⟨hbody, hvalues⟩ := (recorded_kept_iff hreply).mpr ⟨hlegible, hsteady⟩
    refine ⟨_, rfl, hreply.status, ?_, hchunks.trans hbody, ?_⟩
    · intro name hhop
      exact (hheaders name hhop).trans (hvalues name hhop)
    · exact (endsAlike_iff hmid hreply).mpr ⟨hcomplete, htrailers, hannounced⟩

theorem recorded_head (haccepts : Accepts checks reply)
    (hreply : RecordedReply storage codec settings reply clean markers response) :
    buildHead checks response.status response.headers = .ok () := by
  have hheader : ∀ header ∈ response.headers, checks.header header = .ok () := by
    rw [hreply.headers]
    intro header hheader
    obtain ⟨earlier, hearlier, rfl⟩ := List.mem_map.mp hheader
    have hentry : ∀ other ∈ reply.headers.map headerEntry,
        other.name ∈ "content-length" :: (reply.headers.map fun field =>
          toAsciiLowercase field.name) ∧ Printable other.value := by
      intro other hother
      obtain ⟨field, hfield, rfl⟩ := List.mem_map.mp hother
      exact ⟨List.mem_cons_of_mem _ (List.mem_map_of_mem hfield), printable_headerEntry field⟩
    have hsent : earlier.name ∈ "content-length" :: (reply.headers.map fun field =>
        toAsciiLowercase field.name) ∧ Printable earlier.value := by
      split_ifs at hearlier with hmarkers
      · exact hentry earlier hearlier
      · rw [reconcileHeadersAfterBodyRedaction] at hearlier
        rcases List.mem_append.mp hearlier with hkept | hlength
        · exact hentry earlier (List.mem_filter.mp hkept).1
        · rw [List.mem_singleton.mp hlength]
          exact ⟨List.mem_cons_self, printable_repr clean.length⟩
    rw [← name_redactHeader settings.redaction.headers earlier] at hsent
    exact haccepts.header _ hsent.1 _ (printable_redactHeader hsent.2)
  rw [buildHead, hreply.status, haccepts.status]
  show checkAll _ response.headers = _
  rw [checkAll_eq_ok]
  intro header hmem
  rw [hheader header hmem]
  rfl

/-- Redaction keeps the names that are announced. -/
theorem recorded_announcement (haccepts : Accepts checks reply)
    (hreply : RecordedReply storage codec settings reply clean markers response) :
    checks.header (trailerAnnouncement response.trailers) = .ok () := by
  have hsame : trailerAnnouncement response.trailers =
      trailerAnnouncement (headerEntries (replyTrailers reply)).1 := by
    rw [hreply.trailers, trailerAnnouncement, trailerAnnouncement, List.map_map]
    have hnames : HeaderEntry.name ∘ redactHeader settings.redaction.headers =
        HeaderEntry.name := by
      funext header
      exact name_redactHeader settings.redaction.headers header
    rw [hnames]
    rfl
  rw [hsame]
  exact haccepts.announcement

end

/-- The gateway and the explicit proxy are transparent to exactly the replies that nothing
in recording and redaction alters, and that do not break off. -/
theorem transparent_iff {checks : HttpChecks} {storage : Codec} {codec : BodyCodec N}
    {settings : Settings} {exchange : Exchange} {reply : Reply} {inner next : RecordingInner}
    {flow : Flow} {files : BlobFiles}
    (hrecord : recordRequestWithSession storage codec settings exchange inner = (.ok flow, next))
    (hresult : exchange.result = .ok reply) (hmid : MidBody reply)
    (haccepts : Accepts checks reply)
    (hlower : ∀ bytes, toAsciiLowercase (storage.sha256Hex bytes) = storage.sha256Hex bytes)
    (hunshared : ∀ blob, BodyRef.blob blob ∈ bodyRefs flow →
      Unshared storage.sha256Hex blob.sha256)
    (haddressed : Addressed storage.sha256Hex inner) (hfiles : FilesOf files next) :
    (TransparentTo reply (deliverGateway checks storage.sha256Hex
        (gatewayResponse checks storage.sha256Hex inner.limits files flow)) ↔
      Unaltered checks codec settings reply) ∧
    (TransparentTo reply (deliverProxy checks
        (flowToResponse checks storage.sha256Hex inner.limits files flow)) ↔
      Unaltered checks codec settings reply) := by
  obtain ⟨clean, markers, response, request, houtcome, hreply, hchecked, hcontents⟩ :=
    recorded_reply hrecord hresult
  have hintact := recorded_intact houtcome hreply hchecked hcontents hlower haddressed hfiles
    hunshared
  have hhead := recorded_head haccepts hreply
  constructor
  · obtain ⟨chunks, hchunks, hdelivered⟩ := gateway_delivers houtcome hhead hintact
    rw [hdelivered]
    exact transparent_iff_unaltered hmid hreply hchunks fun name hhop => rfl
  · rw [proxy_delivers houtcome hhead (recorded_announcement haccepts hreply) hintact]
    refine transparent_iff_unaltered hmid hreply (List.flatten_singleton) ?_
    intro name hhop
    have hextra : gotValues name (if response.trailers = [] then []
        else [trailerAnnouncement response.trailers]) = [] := by
      split_ifs with htrailers
      · rfl
      · have hother : ¬decide (toAsciiLowercase "trailer" = name) = true := by
          rw [decide_eq_true_eq]
          intro hname
          apply hhop
          rw [← hname]
          decide
        rw [gotValues, List.map_eq_nil_iff, List.filter_eq_nil_iff]
        intro header hheader
        rw [List.mem_singleton.mp hheader]
        exact hother
    rw [gotValues_append, hextra, List.append_nil]

/-! ### A page, and one that breaks off -/

/-- The published contents as files. -/
def publishedFiles (session : RecordingInner) : BlobFiles := fun digest =>
  (contents session.directory digest).bind fun bytes =>
    if h : bytes.length < 2 ^ 63 then some ⟨bytes, h, fun _ => some maxChunkBytes⟩ else none

theorem publishedFiles_filesOf {session : RecordingInner}
    (h : session.directory.blobs.all (fun entry => decide (entry.2.length < 2 ^ 63)) = true) :
    FilesOf (publishedFiles session) session := by
  intro digest bytes hbytes
  have hmem : (BlobName.content digest, bytes) ∈ session.directory.blobs := by
    obtain ⟨left, right, hsplit, -⟩ := List.lookup_eq_some_iff.mp hbytes
    rw [hsplit]
    exact List.mem_append_right left List.mem_cons_self
  have hlength : bytes.length < 2 ^ 63 := of_decide_eq_true (List.all_eq_true.mp h _ hmem)
  refine ⟨⟨bytes, hlength, fun _ => some maxChunkBytes⟩, ?_, rfl, fun offset => rfl⟩
  rw [publishedFiles, hbytes, Option.bind_some, dif_pos hlength]

/-- Checks of the status range and of printable values. -/
def plainChecks : HttpChecks where
  status value := if 100 ≤ value ∧ value ≤ 999 then .ok () else .error "invalid status code"
  header entry :=
    if Printable entry.value then .ok () else .error "failed to parse header value"
  trailers _ := .ok ()

/-- A page with a length and a date, that ends as given. -/
def pageReply (ending : TimedEnd) : Reply where
  status := 200
  http2 := false
  headers :=
    [{ name := "Content-Type", value := utf8 "text/plain".toList },
      { name := "Content-Length", value := utf8 "16".toList }]
  frames := [⟨1, .data redactedForm⟩]
  ending := ending

def pageRequest (ending : TimedEnd) : Exchange :=
  { formPost [] "" with polled := [], requestEnd := none, result := .ok (pageReply ending) }

theorem pageReply_accepted (ending : TimedEnd) : Accepts plainChecks (pageReply ending) where
  status := rfl
  header name _ value hvalue := if_pos hvalue
  announcement := by
    show plainChecks.header (trailerAnnouncement []) = .ok ()
    decide

theorem formStorage_lower (bytes : Bytes) :
    toAsciiLowercase (formStorage.sha256Hex bytes) = formStorage.sha256Hex bytes := by
  show toAsciiLowercase (formCodec.sha256 bytes) = formCodec.sha256 bytes
  rw [formCodec]
  dsimp only
  split_ifs with hform
  · decide
  · decide

theorem formStorage_unshared :
    Unshared formStorage.sha256Hex (formStorage.sha256Hex redactedForm) := by
  have hform : ∀ bytes, formStorage.sha256Hex bytes = formStorage.sha256Hex redactedForm →
      bytes = redactedForm := by
    intro bytes hbytes
    by_contra hother
    have hnone : formStorage.sha256Hex bytes = "" := if_neg hother
    have hsome : formStorage.sha256Hex redactedForm ≠ "" := by decide
    exact hsome (hbytes.symm.trans hnone)
  intro left right hleft hright
  rw [hform left hleft, hform right hright]

theorem freshSession_addressed : Addressed formStorage.sha256Hex freshSession := by
  intro digest bytes hbytes
  cases hbytes

theorem page_delivered :
    ∃ flow next, recordRequestWithSession formStorage formCodec formSettings
        (pageRequest ⟨2, none⟩) freshSession = (.ok flow, next) ∧
      TransparentTo (pageReply ⟨2, none⟩) (deliverGateway plainChecks formStorage.sha256Hex
        (gatewayResponse plainChecks formStorage.sha256Hex freshSession.limits
          (publishedFiles next) flow)) := by
  have hok : (recordRequestWithSession formStorage formCodec formSettings
      (pageRequest ⟨2, none⟩) freshSession).1.isOk = true := by
    decide +kernel
  obtain ⟨flow, next, hrecord⟩ := Op.exists_of_isOk hok
  have hblobs : ((recordRequestWithSession formStorage formCodec formSettings
      (pageRequest ⟨2, none⟩) freshSession).2.directory.blobs.all
        fun entry => decide (entry.2.length < 2 ^ 63)) = true := by
    decide +kernel
  have hbodies : ((recordRequestWithSession formStorage formCodec formSettings
      (pageRequest ⟨2, none⟩) freshSession).1.map bodyRefs) =
      .ok [.empty, .blob { sha256 := formStorage.sha256Hex redactedForm, length := 16 }] := by
    decide +kernel
  rw [hrecord] at hblobs hbodies
  refine ⟨flow, next, hrecord, ?_⟩
  have hunshared : ∀ blob, BodyRef.blob blob ∈ bodyRefs flow →
      Unshared formStorage.sha256Hex blob.sha256 := by
    intro blob hblob
    rw [Except.ok.inj hbodies] at hblob
    rcases List.mem_cons.mp hblob with hempty | hpage
    · cases hempty
    · obtain rfl := BodyRef.blob.inj (List.mem_singleton.mp hpage)
      exact formStorage_unshared
  apply (transparent_iff hrecord rfl (fun hfailed => absurd rfl hfailed)
    (pageReply_accepted ⟨2, none⟩) formStorage_lower hunshared freshSession_addressed
    (publishedFiles_filesOf hblobs)).1.mpr
  refine ⟨rfl, ?_, ?_, fun h => absurd rfl h, ?_⟩
  · decide
  · exact fun field hfield => absurd hfield List.not_mem_nil
  · intro htransformed
    have hplain : needsTransform formSettings.redaction
        (contentType (pageReply ⟨2, none⟩).headers) = false := by
      decide
    rw [Transformed, hplain] at htransformed
    exact absurd htransformed.2 (by decide)

/-- The upstream fails in the middle of the body, and both clients are given a whole one. -/
theorem broken_page_delivered_whole :
    ∃ flow next, recordRequestWithSession formStorage formCodec formSettings
        (pageRequest ⟨2, some (.other, .body)⟩) freshSession = (.ok flow, next) ∧
      ¬TransparentTo (pageReply ⟨2, some (.other, .body)⟩)
        (deliverGateway plainChecks formStorage.sha256Hex
          (gatewayResponse plainChecks formStorage.sha256Hex freshSession.limits
            (publishedFiles next) flow)) ∧
      ¬TransparentTo (pageReply ⟨2, some (.other, .body)⟩)
        (deliverProxy plainChecks
          (flowToResponse plainChecks formStorage.sha256Hex freshSession.limits
            (publishedFiles next) flow)) := by
  have hok : (recordRequestWithSession formStorage formCodec formSettings
      (pageRequest ⟨2, some (.other, .body)⟩) freshSession).1.isOk = true := by
    decide +kernel
  have hended : ∀ answer : Delivered, answer.played.ending = .clean [] →
      ¬Transparent (pageReply ⟨2, some (.other, .body)⟩) answer := by
    intro answer hclean htransparent
    have hending := htransparent.ending
    rw [hclean] at hending
    exact absurd hending.1 (Option.some_ne_none _)
  obtain ⟨flow, next, hrecord⟩ := Op.exists_of_isOk hok
  have hdelivered : (match recordRequestWithSession formStorage formCodec formSettings
      (pageRequest ⟨2, some (.other, .body)⟩) freshSession with
    | (.ok flow, next) =>
        ((deliverGateway plainChecks formStorage.sha256Hex
            (gatewayResponse plainChecks formStorage.sha256Hex freshSession.limits
              (publishedFiles next) flow)).all fun answer =>
          decide (answer.played.ending = .clean [])) &&
        ((deliverProxy plainChecks
            (flowToResponse plainChecks formStorage.sha256Hex freshSession.limits
              (publishedFiles next) flow)).all fun answer =>
          decide (answer.played.ending = .clean []))
    | (.error _, _) => false) = true := by
    decide +kernel
  rw [hrecord] at hdelivered
  obtain ⟨hgateway, hproxy⟩ := Bool.and_eq_true_iff.mp hdelivered
  refine ⟨flow, next, hrecord, ?_, ?_⟩
  · rintro ⟨answer, hanswer, htransparent⟩
    rw [hanswer, Option.all_some, decide_eq_true_eq] at hgateway
    exact hended answer hgateway htransparent
  · rintro ⟨answer, hanswer, htransparent⟩
    rw [hanswer, Option.all_some, decide_eq_true_eq] at hproxy
    exact hended answer hproxy htransparent

end EggReplay.Http.GatewayTransparency
