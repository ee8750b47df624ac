import EggReplay.Http.AppendMiss
import EggReplay.Http.GatewayTransparency
import EggReplay.Intercept.OneOrigin

/-!
Whether the record of a miss is found by the request that was missed: what the upstream request
keeps of it, and what the matcher compares of both.
-/

namespace EggReplay.Http.MissRematching

open EggReplay.Core.BodyWildcards
open EggReplay.Core.Consumption
open EggReplay.Core.FieldWildcards
open EggReplay.Core.FlowRecord
open EggReplay.Core.Matching
open EggReplay.Core.Redaction
open EggReplay.Core.StreamTimeline
open EggReplay.Http.AppendMiss
open EggReplay.Http.Atomicity
open EggReplay.Http.Captures
open EggReplay.Http.GatewayAnswers
open EggReplay.Http.GatewayTransparency
open EggReplay.Http.ProjectionAgreement
open EggReplay.Http.Rematching
open EggReplay.Http.Recorder
open EggReplay.Http.RecordMarkers
open EggReplay.Http.ResponseRendering
open EggReplay.Http.StreamEventCapture
open EggReplay.Http.Transaction
open EggReplay.Intercept.Authorities
open EggReplay.Intercept.OneOrigin
open EggReplay.Library.Checks
open EggReplay.Library.JsonText
open EggReplay.Library.Text
open EggReplay.Store.BlobContents
open EggReplay.Store.Fixture
open EggReplay.Store.Recording

variable {N : Type}

/-! ### The headers that are sent on -/

/-- Every name of the map is in lower case. -/
def Lowered (fields : HeaderMap) : Prop :=
  ∀ field ∈ fields, toAsciiLowercase field.name = field.name

def sentField (header : HeaderEntry) : HeaderField where
  name := toAsciiLowercase header.name
  value := utf8 header.value.toList

/-- What the recorder writes for a header that is sent on. -/
def sentEntry (header : HeaderEntry) : HeaderEntry := headerEntry (sentField header)

def notHost (header : HeaderEntry) : Bool :=
  decide (toAsciiLowercase header.name ≠ "host")

/-- A header that is sent on and recorded as it came. -/
def Forwarded (header : HeaderEntry) : Prop :=
  toAsciiLowercase header.name ≠ "host" ∧ Printable header.value

instance (header : HeaderEntry) : Decidable (Forwarded header) :=
  inferInstanceAs (Decidable (_ ∧ _))

section

variable {name : String} {fields : HeaderMap} {field : HeaderField} {header : HeaderEntry}

theorem sentEntry_name : toAsciiLowercase (sentEntry header).name = toAsciiLowercase header.name := by
  rw [sentEntry, headerEntry, sentField, toAsciiLowercase_idem, toAsciiLowercase_idem]

theorem sentField_name : toAsciiLowercase (sentField header).name = (sentField header).name :=
  toAsciiLowercase_idem _

theorem utf8_inj {left right : String} (h : utf8 left.toList = utf8 right.toList) :
    left = right := by
  have hdecoded := congrArg decodeUtf8 h
  rw [decodeUtf8_utf8, decodeUtf8_utf8] at hdecoded
  exact String.toList_inj.mp (Option.some.inj hdecoded)

theorem sentEntry_value (h : Printable header.value) : (sentEntry header).value = header.value :=
  utf8_inj ((entry_bytes_iff _).mpr h)

theorem headerValues_nil : headerValues name [] = [] := rfl

theorem headerValues_cons (header : HeaderEntry) (rest : List HeaderEntry) :
    headerValues name (header :: rest) = headerValues name [header] ++ headerValues name rest := by
  rw [← headerValues_append]
  rfl

theorem lowered_append (hfields : Lowered fields)
    (hfield : toAsciiLowercase field.name = field.name) : Lowered (append field fields) := by
  intro other hother
  rcases mem_append hother with rfl | hmem
  · exact hfield
  · exact hfields other hmem

/-- Under each name the field comes last. -/
theorem headerValues_appended (hfields : Lowered fields)
    (hfield : toAsciiLowercase field.name = field.name) :
    headerValues name ((append field fields).map headerEntry) =
      headerValues name (fields.map headerEntry) ++ headerValues name [headerEntry field] := by
  induction fields with
  | nil => rw [append, List.map_nil, headerValues_nil, List.nil_append, List.map_singleton]
  | cons head rest ih =>
      have hrest : Lowered rest := fun other hother => hfields other (List.mem_cons_of_mem _ hother)
      rw [append]
      split
      · rename_i hlast
        obtain ⟨-, hlater⟩ := hlast
        have hswap : headerValues name [headerEntry field] ++
            headerValues name (rest.map headerEntry) =
              headerValues name (rest.map headerEntry) ++ headerValues name [headerEntry field] := by
          by_cases hname : toAsciiLowercase (headerEntry field).name = name
          · have hnone : headerValues name (rest.map headerEntry) = [] := by
              apply headerValues_eq_nil
              intro entry hentry
              obtain ⟨other, hother, rfl⟩ := List.mem_map.mp hentry
              rintro hsame
              have hdiffers := List.any_eq_false.mp hlater other hother
              rw [decide_eq_true_eq] at hdiffers
              apply hdiffers
              rw [headerEntry, toAsciiLowercase_idem, hrest other hother] at hsame
              rw [headerEntry, toAsciiLowercase_idem, hfield] at hname
              rw [hsame, hname]
            rw [hnone, List.append_nil, List.nil_append]
          · have hnone : headerValues name [headerEntry field] = [] := by
              apply headerValues_eq_nil
              intro entry hentry
              rwa [List.mem_singleton.mp hentry]
            rw [hnone, List.append_nil, List.nil_append]
        rw [List.map_cons, List.map_cons, List.map_cons, headerValues_cons _ (_ :: _),
          headerValues_cons (headerEntry field) (rest.map headerEntry), hswap,
          headerValues_cons (headerEntry head) (rest.map headerEntry), List.append_assoc]
      · rw [List.map_cons, List.map_cons, headerValues_cons _ (List.map _ (append _ _)), ih hrest,
          headerValues_cons (headerEntry head) (rest.map headerEntry), List.append_assoc]

theorem eqIgnoreAsciiCase_host : eqIgnoreAsciiCase header.name "host" = true ↔
    toAsciiLowercase header.name = "host" := by
  have hlower : toAsciiLowercase "host" = "host" := by decide
  rw [eqIgnoreAsciiCase, decide_eq_true_eq, hlower]

/-- The values under a name are those of the headers other than `host`, as they are recorded. -/
theorem headerValues_forwarded {client : ClientPackage} {headers : List HeaderEntry}
    (h : forwardedHeaders client headers = .ok fields) :
    headerValues name (fields.map headerEntry) =
      headerValues name ((headers.filter notHost).map sentEntry) := by
  have hfold : ∀ (remaining : List HeaderEntry) (collected : HeaderMap), Lowered collected →
      remaining.foldlM (fun fields header =>
        if eqIgnoreAsciiCase header.name "host" = true then pure fields
        else do
          let field ← headerField client header
          pure (append field fields)) collected = .ok fields →
      headerValues name (fields.map headerEntry) =
        headerValues name (collected.map headerEntry) ++
          headerValues name ((remaining.filter notHost).map sentEntry) := by
    intro remaining
    induction remaining with
    | nil =>
        intro collected _ hfold
        obtain rfl := pure_eq_ok.mp hfold
        exact (List.append_nil _).symm
    | cons header rest ih =>
        intro collected hcollected hfold
        rw [List.foldlM_cons] at hfold
        obtain ⟨next, hstep, hfold⟩ := bind_eq_ok.mp hfold
        by_cases hhost : eqIgnoreAsciiCase header.name "host" = true
        · rw [if_pos hhost] at hstep
          obtain rfl := pure_eq_ok.mp hstep
          have hskipped : ¬notHost header = true := by
            rw [notHost, decide_eq_true_eq, not_not]
            exact eqIgnoreAsciiCase_host.mp hhost
          rw [ih _ hcollected hfold, List.filter_cons_of_neg hskipped]
        · rw [if_neg hhost] at hstep
          simp only [headerField, ↓bind_unit_eq_ok, bind_eq_ok, pure_eq_ok] at hstep
          obtain ⟨_, ⟨-, -, rfl⟩, rfl⟩ := hstep
          have hlowered : Lowered (append (sentField header) collected) :=
            lowered_append hcollected sentField_name
          have hsent : notHost header = true :=
            decide_eq_true fun hname => hhost (eqIgnoreAsciiCase_host.mpr hname)
          rw [ih _ hlowered hfold, headerValues_appended hcollected sentField_name,
            List.filter_cons_of_pos hsent, List.map_cons, headerValues_cons (sentEntry header),
            List.append_assoc, sentEntry]
  have hall := hfold headers [] (fun field hfield => absurd hfield List.not_mem_nil) h
  rwa [List.map_nil, headerValues_nil, List.nil_append] at hall

/-- Under a name whose headers are sent on and recorded as they came, the record has the values
that came. -/
theorem headerValues_kept {client : ClientPackage} {headers : List HeaderEntry}
    (h : forwardedHeaders client headers = .ok fields)
    (hkept : ∀ header ∈ headers, toAsciiLowercase header.name = name → Forwarded header) :
    headerValues name (fields.map headerEntry) = headerValues name headers := by
  rw [headerValues_forwarded h]
  clear h
  induction headers with
  | nil => rw [List.filter_nil, List.map_nil]
  | cons header rest ih =>
      have hrest := ih fun other hother => hkept other (List.mem_cons_of_mem _ hother)
      rw [headerValues_cons, ← hrest]
      by_cases hname : toAsciiLowercase header.name = name
      · obtain ⟨hhost, hprintable⟩ := hkept header List.mem_cons_self hname
        have hsent : notHost header = true := decide_eq_true hhost
        have hvalue : headerValues name [sentEntry header] = headerValues name [header] := by
          rw [headerValues, headerValues, List.filter_singleton, List.filter_singleton,
            sentEntry_name]
          simp only [hname, decide_true, cond_true, List.map_singleton, sentEntry_value hprintable]
        rw [List.filter_cons_of_pos hsent, List.map_cons, headerValues_cons, hvalue]
      · have hnone : headerValues name [header] = [] := by
          apply headerValues_eq_nil
          intro entry hentry
          rwa [List.mem_singleton.mp hentry]
        have hsent : headerValues name [sentEntry header] = [] := by
          apply headerValues_eq_nil
          intro entry hentry
          rwa [List.mem_singleton.mp hentry, sentEntry_name]
        rw [hnone, List.nil_append, List.filter_cons]
        split
        · rw [List.map_cons, headerValues_cons, hsent, List.nil_append]
        · rfl

end

/-! ### The recorded request -/

/-- Redaction leaves the request with its head and body as it is. -/
structure LeavesRequest (codec : BodyCodec N) (settings : Settings) (contentType : Option String)
    (request : HttpRequest) (body : Bytes) : Prop where
  headers : request.headers.map (redactHeader settings.redaction.headers) = request.headers
  query : request.query.map (redactPair settings.redaction.queryKeys) = request.query
  body : ∃ markers, transformBody codec body contentType settings.redaction settings.profileId
      false = .ok (body, markers) ∧
    (markers ≠ [] → (reconcileHeadersAfterBodyRedaction request.headers body.length
      settings.profileId).headers = request.headers)

section

variable {storage : Codec} {codec : BodyCodec N} {settings : Settings} {push : Push}
  {maxBlobBytes : Nat} {exchange : Exchange} {done : Captured} {converted : RecordedRequest}
  {stored : Filed} {answer : FiledOutcome} {body : Bytes}

theorem stored_content (parts : CapturedFrom storage push codec settings maxBlobBytes exchange done
      converted stored answer) (hbody : (takenBody maxBlobBytes push exchange).content = body)
    (hleaves : LeavesRequest codec settings (contentType exchange.headers) converted.request
      body) :
    stored.content = body ∧ (stored.markers ≠ [] →
      (reconcileHeadersAfterBodyRedaction converted.request.headers body.length
        settings.profileId).headers = converted.request.headers) := by
  obtain ⟨htransform, -, -⟩ := filedStaged_eq_ok parts.request
  obtain ⟨markers, hunchanged, hreconciled⟩ := hleaves.body
  rw [hbody, hunchanged, Except.ok.injEq, Prod.mk.injEq] at htransform
  obtain ⟨hcontent, hmarkers⟩ := htransform
  exact ⟨hcontent.symm, hmarkers ▸ hreconciled⟩

/-- The record has the head of the request and the reference of its body. -/
theorem finishSessionFlow_unchanged (parts : CapturedFrom storage push codec settings maxBlobBytes
      exchange done converted stored answer)
    (hbody : (takenBody maxBlobBytes push exchange).content = body)
    (hleaves : LeavesRequest codec settings (contentType exchange.headers) converted.request
      body) :
    ∃ trailers, (finishSessionFlow done.capture settings.profileId).request =
      { converted.request with body := stored.body, trailers } := by
  obtain ⟨hcontent, hreconciled⟩ := stored_content parts hbody hleaves
  have hany := recordMarkers_any_iff parts
  by_cases hmarkers : stored.markers = []
  · have hnone : ¬(recordMarkers done.capture).any isRequestBodyMarker = true := by
      rw [hany, not_not]
      exact hmarkers
    rw [recordMarkers] at hnone
    refine ⟨(takenBody maxBlobBytes push exchange).trailers.map
      (redactHeader settings.redaction.headers), ?_⟩
    rw [finishSessionFlow, noteLossyHeaders]
    dsimp only
    rw [if_neg hnone, parts.flow, capturedFlow, redactFlow]
    split
    · dsimp only [observedFlow]
      rw [hleaves.headers, hleaves.query]
    · dsimp only [observedFlow]
      rw [hleaves.headers, hleaves.query]
  · refine ⟨(takenBody maxBlobBytes push exchange).trailers.map
      (redactHeader settings.redaction.headers), ?_⟩
    have hlength : stored.body.len.getD 0 = body.length := by
      rw [reference_len (filedStaged_eq_ok parts.request).2.1, hcontent]
      rfl
    rw [finishSessionFlow_request parts hmarkers, hleaves.headers, hlength, hreconciled hmarkers,
      redactFlow, unredacted]
    dsimp only [observedFlow]
    rw [hleaves.query]

end

/-! ### What is sent upstream -/

/-- A body that compares equal to itself. -/
def Comparable (codec : BodyCodec N) (mode : BodyMatchMode) (body : Bytes) : Prop :=
  match mode with
  | .exactBytes => True
  | .exactText => isUtf8 body = true
  | .semanticJson => ∃ value, codec.fromSlice body = .ok value

/-- The upstream request has what the matcher compares of the request. -/
structure Rematchable (server : Server N) (asked : Asked) (request : UpstreamRequest) : Prop where
  method : request.method = asked.request.method
  scheme : ∃ scheme, request.uri.scheme = some scheme ∧
    toAsciiLowercase asked.request.scheme = toAsciiLowercase scheme
  authority : ∃ authority, request.uri.authority = some authority ∧
    toAsciiLowercase asked.request.authority = toAsciiLowercase (withoutUserinfo authority)
  path : (if asked.request.path = "" then "/" else asked.request.path) =
    if request.uri.path = "" then "/" else request.uri.path
  query : (request.uri.query.map (parseQuery server.codec)).getD [] = asked.request.query
  headers : ∀ name ∉ server.matcher.ignoredHeaders,
    headerValues name (request.headers.map headerEntry) = headerValues name asked.request.headers
  body : asked.body = [] ∨
    needsTransform server.context.settings.redaction (contentType request.headers) = true ∨
    Comparable server.codec server.matcher.bodyMode asked.body

/-- What the URL and HTTP packages do with a request that has arrived. -/
structure Reads (server : Server N) (request : HttpRequest) : Prop where
  method : server.client.isMethod request.method = true
  headers : ∀ header ∈ request.headers, server.client.isHeaderName header.name = true ∧
    server.client.isHeaderValue (utf8 header.value.toList) = true
  query : parseQuery server.codec (server.client.serializeQuery request.query) = request.query
  unqueried : server.client.serializeQuery request.query = "" → request.query = []
  uri : ∀ scheme authority, server.context.upstreamScheme = some scheme →
    server.context.upstreamAuthority = some authority →
    request.path = "" ∨ startsWith request.path "/" = true →
    server.client.parseUri (scheme ++ "://" ++ authority ++ upstreamTarget server.client request) =
      .ok
        { scheme := some scheme
          authority := some authority
          path := if request.path = "" then "/" else request.path
          query :=
            if server.client.serializeQuery request.query = "" then none
            else some (server.client.serializeQuery request.query) }

/-- The origin, the headers and the body of the request are such that what is sent upstream
compares equal to it. -/
structure Refindable (server : Server N) (asked : Asked) : Prop where
  scheme : ∃ scheme, server.context.upstreamScheme = some scheme ∧
    toAsciiLowercase asked.request.scheme = toAsciiLowercase scheme
  authority : ∃ authority, server.context.upstreamAuthority = some authority ∧
    toAsciiLowercase asked.request.authority = toAsciiLowercase (withoutUserinfo authority)
  path : asked.request.path = "" ∨ startsWith asked.request.path "/" = true
  headers : ∀ header ∈ asked.request.headers,
    toAsciiLowercase header.name ∈ server.matcher.ignoredHeaders ∨ Forwarded header
  body : asked.body = [] ∨ Comparable server.codec server.matcher.bodyMode asked.body ∨
    ∀ request, upstreamRequest server.client server.context asked.request = .ok request →
      needsTransform server.context.settings.redaction (contentType request.headers) = true

/-- The client takes the body, which is one frame, before the answer, and it fits. -/
def TakesBody (maxBlobBytes : Nat) (body : Bytes) (observed : Observation) : Prop :=
  body.length ≤ u64Max ∧ body.length ≤ maxBlobBytes ∧
    ∃ deltaNs, observed.polled = if body = [] then [] else [⟨deltaNs, .data body⟩]

section

variable {server : Server N} {asked : Asked} {request : UpstreamRequest}
  {observed : Observation}

theorem exists_forwardedHeaders {client : ClientPackage} {headers : List HeaderEntry}
    (h : ∀ header ∈ headers, client.isHeaderName header.name = true ∧
      client.isHeaderValue (utf8 header.value.toList) = true) :
    ∃ fields, forwardedHeaders client headers = .ok fields := by
  unfold forwardedHeaders
  generalize ([] : HeaderMap) = collected
  induction headers generalizing collected with
  | nil => exact ⟨collected, rfl⟩
  | cons header rest ih =>
      have hrest := ih fun other hother => h other (List.mem_cons_of_mem _ hother)
      obtain ⟨hname, hvalue⟩ := h header List.mem_cons_self
      rw [List.foldlM_cons]
      by_cases hhost : eqIgnoreAsciiCase header.name "host" = true
      · rw [if_pos hhost, pure_bind]
        exact hrest collected
      · rw [if_neg hhost, headerField, ensure_of_true hname, ensure_of_true hvalue]
        exact hrest _

theorem content_of_sent {maxBlobBytes : Nat} {body : Bytes} {context : AppendContext}
    (h : TakesBody maxBlobBytes body observed) :
    (takenBody maxBlobBytes pushStreamEventInner (request.exchange context observed)).content =
      body := by
  obtain ⟨hsize, hfits, deltaNs, hpolled⟩ := h
  have hfinish : ∀ (taken : Taken) (ending : Option TimedEnd),
      (taken.finish pushStreamEventInner ending).content = taken.content := by
    intro taken ending
    unfold Taken.finish
    split
    · rfl
    · split
      · rfl
      · rfl
  rw [takenBody, hfinish]
  have hframes : (request.exchange context observed).polled = observed.polled := rfl
  rw [hframes, hpolled]
  by_cases hempty : body = []
  · rw [if_pos hempty, hempty]
    rfl
  · rw [if_neg hempty, List.foldl_cons, List.foldl_nil, Taken.frame]
    have hgrow : grow maxBlobBytes Taken.start.content body = .ok body := by
      have hlength : Taken.start.content.length + body.length = body.length := Nat.zero_add _
      rw [grow, hlength, ensure_of_true hsize, ensure_of_true hfits]
      rfl
    rw [if_neg (by decide)]
    dsimp only
    rw [hgrow]
    dsimp only
    split
    · rfl
    · rfl

/-- The request is sent upstream with what the matcher compares of it. -/
theorem upstreamRequest_rematchable (hreads : Reads server asked.request)
    (hrefindable : Refindable server asked) :
    ∃ request, upstreamRequest server.client server.context asked.request = .ok request ∧
      Rematchable server asked request := by
  obtain ⟨scheme, hscheme, hschemes⟩ := hrefindable.scheme
  obtain ⟨authority, hauthority, hauthorities⟩ := hrefindable.authority
  obtain ⟨fields, hfields⟩ := exists_forwardedHeaders hreads.headers
  have huri := hreads.uri scheme authority hscheme hauthority hrefindable.path
  have hrequest : upstreamRequest server.client server.context asked.request = .ok
      { method := asked.request.method
        uri :=
          { scheme := some scheme
            authority := some authority
            path := if asked.request.path = "" then "/" else asked.request.path
            query :=
              if server.client.serializeQuery asked.request.query = "" then none
              else some (server.client.serializeQuery asked.request.query) }
        headers := fields } := by
    rw [upstreamRequest, hscheme, hauthority, orFail, orFail, ok_bind, ok_bind]
    dsimp only
    rw [huri, ensure_of_true hreads.method, hfields]
    rfl
  refine ⟨_, hrequest, rfl, ⟨scheme, rfl, hschemes⟩, ⟨authority, rfl, hauthorities⟩, ?_, ?_, ?_,
    ?_⟩
  · dsimp only
    by_cases hpath : asked.request.path = ""
    · rw [if_pos hpath, if_neg (by decide)]
    · rw [if_neg hpath, if_neg hpath]
  · dsimp only
    by_cases hnone : server.client.serializeQuery asked.request.query = ""
    · rw [if_pos hnone, hreads.unqueried hnone]
      rfl
    · rw [if_neg hnone]
      exact hreads.query
  · intro name hname
    apply headerValues_kept hfields
    rintro header hheader rfl
    exact (hrefindable.headers header hheader).resolve_left hname
  · rcases hrefindable.body with hempty | hcomparable | hneeds
    · exact .inl hempty
    · exact .inr (.inr hcomparable)
    · exact .inr (.inl (hneeds _ hrequest))

end

/-! ### The record as a candidate -/

/-- What `RecordingSession::read_body` gives for the request body of a flow. -/
def recordedBody (storage : Codec) (recording : RecordingInner) (flow : Flow) : Option Bytes :=
  match flow.request.body with
  | .blob blob => readRecorded storage recording blob
  | .absent | .empty => some []

/-- What the digests, the form routines and the earlier blobs promise for the body. -/
structure BodyRoutines (server : Server N) (asked : Asked) (recording : RecordingInner) :
    Prop where
  digest : server.codec.sha256 asked.body = server.storage.sha256Hex asked.body
  lower : toAsciiLowercase (server.storage.sha256Hex asked.body) =
    server.storage.sha256Hex asked.body
  free : ∀ other, contents recording.directory (server.storage.sha256Hex asked.body) =
    some other → other = asked.body
  form : ∀ pairs, pairs ≠ [] → ∃ text,
    decodeUtf8 (server.codec.serializeForm pairs) = some text ∧
      isForm (String.ofList text) = true

/-- The request is answered by the flow, wherever that stands among the candidates. -/
def Found [DecidableEq N] (server : Server N) (asked : Asked) (recording : RecordingInner) (flow : Flow) : Prop :=
  ∀ (index : Nat) (loader : Loader),
    loader index (.fromFlow flow) = recordedBody server.storage recording flow →
    matchesAt server.codec server.matcher ⟨asked.request, asked.body, loader⟩ index
      (.fromFlow flow) = true

section

variable {server : Server N} {asked : Asked} {request : UpstreamRequest}
  {observed : Observation} {inner next : RecordingInner} {flow : Flow} {index : Nat}
  {loader : Loader}

/-- The recording session gives the body that was recorded. -/
theorem recordedBody_of_reference {body : Bytes} {reply : BodyRef}
    (hreference : reference server.storage body = .ok reply) (hreply : flow.request.body = reply)
    (hlower : toAsciiLowercase (server.storage.sha256Hex body) = server.storage.sha256Hex body)
    (hbound : validateBodyRefs flow next.limits.maxBlobBytes = .ok ())
    (hcontents : body ≠ [] →
      contents next.directory (server.storage.sha256Hex body) = some body) :
    recordedBody server.storage next flow = some body := by
  rw [recordedBody, hreply]
  rw [reference] at hreference
  split at hreference
  · rename_i hempty
    cases hreference
    exact congrArg some hempty.symm
  · rename_i hbody
    simp only [bind_eq_ok, mapError_eq_ok, pure_eq_ok] at hreference
    obtain ⟨blob, hblob, rfl⟩ := hreference
    have hparts : blob.sha256 = server.storage.sha256Hex body ∧ blob.length = body.length := by
      simp only [BlobRef.new, bind_unit_eq_ok, ensure_eq_ok, pure_eq_ok] at hblob
      obtain ⟨-, rfl⟩ := hblob
      exact ⟨hlower, rfl⟩
    obtain ⟨hdigest, hlength⟩ := hparts
    have hread := hcontents hbody
    rw [contents] at hread
    rw [validateBodyRefs, checkAll_eq_ok] at hbound
    have hvalid := hbound (.blob blob) (by rw [bodyRefs, hreply]; exact List.mem_cons_self)
    simp only [validateBodyRef, bind_unit_eq_ok, ensure_eq_ok] at hvalid
    obtain ⟨hdigestValid, hfits⟩ := hvalid
    have hverified : verifyBlobFile server.storage next.directory blob
        next.limits.maxBlobBytes = .ok () := by
      simp only [verifyBlobFile, ↓bind_unit_eq_ok, bind_eq_ok, orFail_eq_ok, ensure_eq_ok]
      refine ⟨(), hdigestValid, hfits, body, ?_, hlength.symm, hdigest.symm⟩
      rwa [hdigest]
    show readRecorded server.storage next blob = some body
    rw [readRecorded, hverified, hdigest]
    exact hread

theorem expectedBytes_recorded {body : BodyRef}
    (hreference : reference server.storage asked.body = .ok body)
    (hflow : flow.request.body = body) (hloaded : loader index (.fromFlow flow) = some asked.body) :
    expectedBytes loader index (.fromFlow flow) = some asked.body := by
  rw [reference] at hreference
  split at hreference
  · rename_i hempty
    obtain rfl := pure_eq_ok.mp hreference
    rw [expectedBytes, MatchCandidate.fromFlow, hflow, hempty]
    rfl
  · simp only [bind_eq_ok, mapError_eq_ok, pure_eq_ok] at hreference
    obtain ⟨blob, -, rfl⟩ := hreference
    rw [expectedBytes]
    have hcandidate : (MatchCandidate.fromFlow flow).body = .digest blob.sha256 blob.length := by
      rw [MatchCandidate.fromFlow, hflow]
      rfl
    rw [hcandidate]
    exact hloaded

variable [DecidableEq N]

/-- A body that was not transformed is found by itself where it compares equal. -/
theorem bodyMatchesLazy_plain {body : BodyRef}
    (hreference : reference server.storage asked.body = .ok body)
    (hflow : flow.request.body = body)
    (hdigest : server.codec.sha256 asked.body = server.storage.sha256Hex asked.body)
    (hlower : toAsciiLowercase (server.storage.sha256Hex asked.body) =
      server.storage.sha256Hex asked.body)
    (hcomparable : asked.body = [] ∨
      Comparable server.codec server.matcher.bodyMode asked.body)
    (hjson : redactedBodyJsonPaths flow.redactions false = ∅)
    (hform : redactedBodyFormKeys flow.redactions = ∅)
    (hloaded : loader index (.fromFlow flow) = some asked.body) :
    server.matcher.bodyMatchesLazy server.codec asked.body true index (.fromFlow flow) loader =
      true := by
  have hnone : ¬(redactedBodyJsonPaths (MatchCandidate.fromFlow flow).flow.redactions false ≠ ∅ ∨
      redactedBodyFormKeys (MatchCandidate.fromFlow flow).flow.redactions ≠ ∅) := by
    rintro (h | h)
    · exact h hjson
    · exact h hform
  rw [Matcher.bodyMatchesLazy, if_neg hnone, Matcher.bodyMatchesPlain]
  rw [reference] at hreference
  split at hreference
  · rename_i hempty
    obtain rfl := pure_eq_ok.mp hreference
    rw [MatchCandidate.fromFlow, hflow]
    exact decide_eq_true hempty
  · rename_i hbody
    simp only [bind_eq_ok, mapError_eq_ok, pure_eq_ok] at hreference
    obtain ⟨blob, hblob, rfl⟩ := hreference
    simp only [BlobRef.new, bind_unit_eq_ok, ensure_eq_ok, pure_eq_ok] at hblob
    obtain ⟨-, rfl⟩ := hblob
    have hsame : (decide (asked.body.length = asked.body.length) &&
        decide (server.codec.sha256 asked.body =
          toAsciiLowercase (server.storage.sha256Hex asked.body))) = true := by
      rw [decide_eq_true rfl, Bool.true_and, hdigest, hlower]
      exact decide_eq_true rfl
    have hcomparable := hcomparable.resolve_left hbody
    have hcandidate : (MatchCandidate.fromFlow flow).body =
        .digest (toAsciiLowercase (server.storage.sha256Hex asked.body)) asked.body.length := by
      rw [MatchCandidate.fromFlow, hflow]
      rfl
    rw [hcandidate]
    dsimp only
    cases hmode : server.matcher.bodyMode with
    | exactBytes => exact hsame
    | exactText =>
        rw [hmode] at hcomparable
        rw [hsame]
        exact hcomparable
    | semanticJson =>
        rw [hmode] at hcomparable
        obtain ⟨value, hvalue⟩ := hcomparable
        rw [if_neg (by decide), hloaded]
        dsimp only
        rw [bodyMatch, bodyMatchWithJson, hvalue]
        exact decide_eq_true rfl

/-- A body that redaction leaves as it is is found by itself. -/
theorem bodyMatchesLazy_redacted {value : Json N}
    (hexpected : expectedBytes loader index (.fromFlow flow) = some asked.body)
    (hjson : redactedBodyJsonPaths flow.redactions false ≠ ∅)
    (hform : redactedBodyFormKeys flow.redactions = ∅)
    (hvalue : server.codec.fromSlice asked.body = .ok value) :
    server.matcher.bodyMatchesLazy server.codec asked.body true index (.fromFlow flow) loader =
      true := by
  have hsome : redactedBodyJsonPaths (MatchCandidate.fromFlow flow).flow.redactions false ≠ ∅ ∨
      redactedBodyFormKeys (MatchCandidate.fromFlow flow).flow.redactions ≠ ∅ := .inl hjson
  have hnone : redactedBodyFormKeys (MatchCandidate.fromFlow flow).flow.redactions = ∅ := hform
  rw [Matcher.bodyMatchesLazy, if_pos hsome, Bool.true_and, Matcher.bodyMatchesRedacted,
    hexpected]
  dsimp only
  rw [if_pos hnone]
  dsimp only
  rw [bodyMatchWithJson, hvalue]
  exact decide_eq_true rfl

theorem bodyMatchesLazy_form {text : List Char}
    (hexpected : expectedBytes loader index (.fromFlow flow) = some asked.body)
    (hform : redactedBodyFormKeys flow.redactions ≠ ∅)
    (htext : decodeUtf8 asked.body = some text) (hisForm : isForm (String.ofList text) = true) :
    server.matcher.bodyMatchesLazy server.codec asked.body true index (.fromFlow flow) loader =
      true := by
  have hsome : redactedBodyJsonPaths (MatchCandidate.fromFlow flow).flow.redactions false ≠ ∅ ∨
      redactedBodyFormKeys (MatchCandidate.fromFlow flow).flow.redactions ≠ ∅ := .inr hform
  have hkeys : ¬redactedBodyFormKeys (MatchCandidate.fromFlow flow).flow.redactions = ∅ := hform
  rw [Matcher.bodyMatchesLazy, if_pos hsome, Bool.true_and, Matcher.bodyMatchesRedacted,
    hexpected]
  dsimp only
  rw [if_neg hkeys, tryFormWildcard_eq htext hisForm, htext, Option.bind_some, if_pos hisForm]
  exact decide_eq_true rfl

/-- The record of a rematchable request that redaction leaves as it is answers the request. -/
theorem found_of_record {exchange : Exchange}
    (hexchange : request.exchange server.context observed = exchange)
    (hrun : recordRequestWithSession server.storage server.codec server.context.settings exchange
      inner = (.ok flow, next))
    (hbody : (takenBody inner.limits.maxBlobBytes pushStreamEventInner exchange).content =
      asked.body)
    {head : RecordedRequest}
    (hhead : requestHead server.codec request.method request.uri request.headers = .ok head)
    (hleaves : LeavesRequest server.codec server.context.settings (contentType request.headers)
      head.request asked.body)
    (hroutines : BodyRoutines server asked inner) (hsame : Rematchable server asked request) :
    Found server asked next flow := by
  subst hexchange
  obtain ⟨done, captureState, flowed, hdone, rfl, -, hrunning, hflow, hevents⟩ :=
    recordRequestWithSession_eq_ok hrun
  obtain ⟨converted, stored, answer, parts⟩ := captured_eq_ok hdone
  obtain rfl := Except.ok.inj (hhead.symm.trans parts.head)
  obtain ⟨htransform, hreference, -⟩ := filedStaged_eq_ok parts.request
  obtain ⟨hcontent, -⟩ := stored_content parts hbody hleaves
  obtain ⟨trailers, hrequest⟩ := finishSessionFlow_unchanged parts hbody hleaves
  have hpaths := redactedBodyJsonPaths_recorded parts
  have hkeys := redactedBodyFormKeys_recorded parts
  rw [hbody] at htransform
  rw [hcontent] at hreference htransform
  generalize hflowName : finishSessionFlow done.capture server.context.settings.profileId = flow
    at hrun hflow hrequest hpaths hkeys
  have hflowBody : flow.request.body = stored.body := by rw [hrequest]
  have hcontents : asked.body ≠ [] →
      contents next.directory (server.storage.sha256Hex asked.body) = some asked.body := by
    intro hne
    rw [recorded_contents hrunning hflow hevents, parts.requestContent, hcontent]
    apply Contents.file_mono
    rw [Contents.file_digest server.storage _ hne]
    rcases hbase : contents inner.directory (server.storage.sha256Hex asked.body) with _ | earlier
    · rfl
    · rw [hroutines.free earlier hbase]
      rfl
  have hbound : validateBodyRefs flow next.limits.maxBlobBytes = .ok () := by
    obtain ⟨-, hchecked, -, -, -, -, rfl⟩ := appendFlow_eq_ok.mp hflow
    obtain ⟨-, -, -, rfl⟩ := appendStreamEvents_eq_ok.mp hevents
    simp only [checkFlow, ↓bind_unit_eq_ok] at hchecked
    obtain ⟨-, hrefs, -⟩ := hchecked
    exact hrefs
  intro index loader hloader
  rw [recordedBody_of_reference hreference hflowBody hroutines.lower hbound hcontents] at hloader
  have hexpected := expectedBytes_recorded hreference hflowBody hloader
  rw [matchesAt, Bool.and_eq_true, decide_eq_true_eq]
  constructor
  · obtain ⟨scheme, authority, hscheme, hauthority, rfl⟩ := requestHead_eq_ok hhead
    obtain ⟨sameScheme, hfound, hschemes⟩ := hsame.scheme
    obtain rfl := Option.some.inj (hfound.symm.trans hscheme)
    obtain ⟨sameAuthority, hfound, hauthorities⟩ := hsame.authority
    obtain rfl := Option.some.inj (hfound.symm.trans hauthority)
    rw [dimensions_eq_nil_iff_apart]
    show AgreesApartFrom _ _ asked.request flow.request
    rw [hrequest]
    refine ⟨hsame.method.symm, hschemes, hauthorities, hsame.path, ?_, ?_⟩
    · intro name hname
      exact (hsame.headers name fun hignored =>
        hname (Finset.mem_union_left _ hignored)).symm
    · dsimp only
      rw [hsame.query]
  · have htransformed := transformBody_eq_ok htransform
    have hcomparable := hsame.body
    generalize stored.markers = markers at hpaths hkeys htransformed
    generalize hclean : asked.body = clean at htransformed
    cases htransformed with
    | kept hkept =>
        subst hclean
        apply bodyMatchesLazy_plain hreference hflowBody hroutines.digest hroutines.lower _ hpaths
          hkeys hloader
        rcases hcomparable with hempty | hneeds | hcomparable
        · exact .inl hempty
        · rcases hkept with hempty | hplain
          · exact .inl hempty
          · exact absurd (hneeds.symm.trans hplain) (by decide)
        · exact .inr hcomparable
    | json _ hconfigured _ hredacted =>
        subst hclean
        rw [markedFields_bodyMarkers, Finset.sort_toFinset] at hpaths
        rw [markedFields_bodyMarkers_eq_nil (by decide)] at hkeys
        obtain ⟨value, hvalue, -⟩ := applyJsonRedaction_eq_ok hredacted
        have hjson : redactedBodyJsonPaths flow.redactions false ≠ ∅ := by
          rw [hpaths]
          exact hconfigured
        exact bodyMatchesLazy_redacted hexpected hjson hkeys hvalue
    | form hne hconfigured _ hredacted =>
        rw [markedFields_formMarkers, Finset.sort_toFinset] at hkeys
        obtain ⟨hserialized, hpairs⟩ := applyFormRedaction_eq_ok hredacted
        have hsome : (server.codec.parseForm clean).map
            (redactFormPair server.context.settings.redaction.queryKeys) ≠ [] := by
          rw [Ne, List.map_eq_nil_iff]
          exact hpairs hne
        obtain ⟨text, htext, hisForm⟩ := hroutines.form _ hsome
        rw [← hserialized] at htext
        subst hclean
        have hform : redactedBodyFormKeys flow.redactions ≠ ∅ := by
          rw [hkeys]
          exact hconfigured
        exact bodyMatchesLazy_form hexpected hform htext hisForm

end

end EggReplay.Http.MissRematching
