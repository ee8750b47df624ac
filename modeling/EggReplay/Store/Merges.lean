import EggReplay.Store.CopyPreserves

/-!
Merging two opened sessions. The extensions of both are gathered by name; the merged session
is their union with the flows of the first before those of the second.
-/

namespace EggReplay.Store.Merges

open EggReplay.Library.Checks
open EggReplay.Library.Text
open EggReplay.Core.FlowRecord
open EggReplay.Core.StreamTimeline
open EggReplay.Store.Fixture
open EggReplay.Store.SessionOpen
open EggReplay.Store.Staging
open EggReplay.Store.Writer
open EggReplay.Store.Publication
open EggReplay.Store.SessionRuns
open EggReplay.Store.Copies
open EggReplay.Store.OpenedSessions
open EggReplay.Store.Assembly
open EggReplay.Store.CopiedBlobs
open EggReplay.Store.CopyPreserves

/-- An extension with the bytes of its file. -/
abbrev Entry := ExtensionDescriptor × Bytes

/-- What the merged session has under a name, by what the two sessions have. -/
inductive MergedEntry (codec : Codec) : Option Entry → Option Entry → Option Entry → Prop where
  | neither : MergedEntry codec none none none
  | base (entry : Entry) : MergedEntry codec (some entry) none (some entry)
  | additional (entry : Entry) : MergedEntry codec none (some entry) (some entry)
  | common (entry : Entry) (hname : entry.1.name ≠ "stream-events") :
      MergedEntry codec (some entry) (some entry) (some entry)
  | streamEvents (descriptor : ExtensionDescriptor) {left right combined : Bytes}
      {first second : StreamEvents} (hname : descriptor.name = "stream-events")
      (hleft : codec.decodeStreamEvents left = .ok first)
      (hright : codec.decodeStreamEvents right = .ok second)
      (hcombined : codec.decodeStreamEvents combined = .ok (StreamEvents.extend first second)) :
      MergedEntry codec (some (descriptor, left)) (some (descriptor, right))
        (some (descriptor, combined))

def Session.entry (session : Session) (name : String) : Option Entry :=
  Gathered.get (Session.payloads session) name

/-- The disjoint union of two sessions, with the metadata of the first under the target
schema. -/
structure MergeOf (codec : Codec) (targetSchema : Nat) (base additional merged : Session) :
    Prop where
  flows : Session.flows codec merged = Session.flows codec base ++ Session.flows codec additional
  filed : Filed merged.root.blobs
  blobs : ∀ digest, merged.root.blob? (.content digest) =
    (base.root.blob? (.content digest)).or (additional.root.blob? (.content digest))
  metadata : merged.manifest.metadata = migratedMetadata base targetSchema
  entries : ∀ name, MergedEntry codec (Session.entry base name) (Session.entry additional name)
    (Session.entry merged name)

/-- Both sessions have an extension of the name, with another descriptor or payload. -/
def Conflicting (base additional : Session) : Prop :=
  ∃ name left right, name ≠ "stream-events" ∧ Session.entry base name = some left ∧
    Session.entry additional name = some right ∧ left ≠ right

/-- The concatenated stream events of the two sessions read back as they were written. -/
def ReadsCombined (codec : Codec) (left right : Option Entry) : Prop :=
  ∀ prior entry first second, left = some prior → right = some entry →
    codec.decodeStreamEvents prior.2 = .ok first → codec.decodeStreamEvents entry.2 = .ok second →
    codec.decodeStreamEvents (StreamEvents.extend first second).encode =
      .ok (StreamEvents.extend first second)

/-! ### Gathered extensions -/

theorem get_append_new {gathered : Gathered} {entry : Entry}
    (h : gathered.get entry.1.name = none) (name : String) :
    Gathered.get (gathered ++ [entry]) name =
      if name = entry.1.name then some entry else gathered.get name := by
  rw [Gathered.get, List.find?_append]
  by_cases hname : name = entry.1.name
  · subst hname
    rw [if_pos rfl, show gathered.find? _ = none from h, Option.none_or,
      List.find?_cons_of_pos (by simp)]
  · rw [if_neg hname, List.find?_cons_of_neg (by simpa using fun heq => hname heq.symm)]
    exact Option.or_none

theorem get_set {gathered : Gathered} (name other : String) (bytes : Bytes) :
    Gathered.get (gathered.set name bytes) other =
      if other = name then (gathered.get name).map fun entry => (entry.1, bytes)
      else gathered.get other := by
  induction gathered with
  | nil => simp [Gathered.get, Gathered.set]
  | cons entry rest ih =>
      rw [Gathered.set, List.map_cons]
      by_cases hentry : entry.1.name = other
      · rw [Gathered.get, List.find?_cons_of_pos (by split <;> simpa using hentry)]
        by_cases hname : other = name
        · rw [if_pos hname, if_pos (hentry.trans hname), Gathered.get,
            List.find?_cons_of_pos (by simpa using hentry.trans hname)]
          rfl
        · rw [if_neg hname, if_neg fun heq => hname (hentry.symm.trans heq), Gathered.get,
            List.find?_cons_of_pos (by simpa using hentry)]
      · rw [Gathered.get, List.find?_cons_of_neg (by split <;> simpa using hentry)]
        refine Eq.trans ih ?_
        by_cases hname : other = name
        · subst hname
          rw [if_pos rfl, if_pos rfl, Gathered.get, Gathered.get,
            List.find?_cons_of_neg (by simpa using hentry)]
        · rw [if_neg hname, if_neg hname, Gathered.get, Gathered.get,
            List.find?_cons_of_neg (by simpa using hentry)]

theorem get_name {gathered : Gathered} {name : String} {entry : Entry}
    (h : gathered.get name = some entry) : entry.1.name = name := by
  simpa using List.find?_some h

theorem get_eq_some {gathered : Gathered}
    (h : (gathered.map fun entry => entry.1.name).Nodup) {name : String} {entry : Entry} :
    gathered.get name = some entry ↔ entry ∈ gathered ∧ entry.1.name = name := by
  constructor
  · intro hget
    exact ⟨List.mem_of_find?_eq_some hget, get_name hget⟩
  · rintro ⟨hmem, rfl⟩
    obtain ⟨before, after, rfl⟩ := List.append_of_mem hmem
    rw [List.map_append, List.map_cons, List.nodup_append] at h
    rw [Gathered.get, List.find?_append, List.find?_eq_none.mpr, Option.none_or,
      List.find?_cons_of_pos (by simp)]
    intro other hother
    simpa using h.2.2 _ (List.mem_map_of_mem hother) entry.1.name (by simp)

theorem get_perm {left right : Gathered} (hperm : left.Perm right)
    (h : (left.map fun entry => entry.1.name).Nodup) (name : String) :
    left.get name = right.get name := by
  apply Option.ext
  intro entry
  rw [get_eq_some h, get_eq_some ((hperm.map _).nodup_iff.mp h), hperm.mem_iff]

/-! ### One extension -/

section

variable {codec : Codec} {source : Session} {flows : List Flow} {start next : Gathered}

theorem combineStreamEvents_eq_ok {prior bytes combined : Bytes}
    (h : combineStreamEvents codec prior bytes = .ok combined) :
    ∃ first second, codec.decodeStreamEvents prior = .ok first ∧
      codec.decodeStreamEvents bytes = .ok second ∧
      combined = (StreamEvents.extend first second).encode := by
  simp only [combineStreamEvents, bind_eq_ok, mapError_eq_ok, pure_eq_ok] at h
  obtain ⟨first, hfirst, second, hsecond, _, -, _, -, rfl⟩ := h
  exact ⟨first, second, hfirst, hsecond, rfl⟩

def Session.payload (source : Session) (extension : ExtensionDescriptor) : Entry :=
  (extension, (source.root.files extension.path).getD [])

/-- Gathering one extension merges it with what its name has, and leaves the other names. -/
theorem gatherExtension_eq_ok (hopened : Opened codec source flows)
    {extension : ExtensionDescriptor} (hmem : extension ∈ source.manifest.extensions)
    (hreads : ReadsCombined codec (start.get extension.name)
      (some (Session.payload source extension)))
    (h : gatherExtension codec source start extension = .ok next) :
    MergedEntry codec (start.get extension.name) (some (Session.payload source extension))
        (next.get extension.name) ∧
      ∀ name, name ≠ extension.name → next.get name = start.get name := by
  rw [gatherExtension, Opened.readExtension hopened hmem, ok_bind, orFail_some, ok_bind] at h
  rcases hstart : start.get extension.name with _ | ⟨prior, priorBytes⟩
  · rw [hstart] at h
    obtain rfl := pure_eq_ok.mp h
    have hget := @get_append_new start (Session.payload source extension) hstart
    refine ⟨?_, fun name hname => (hget name).trans (if_neg hname)⟩
    have hnew : Gathered.get (start ++ [Session.payload source extension]) extension.name =
        some (Session.payload source extension) := (hget extension.name).trans (if_pos rfl)
    show MergedEntry codec none _
      (Gathered.get (start ++ [Session.payload source extension]) extension.name)
    rw [hnew]
    exact .additional _
  · rw [hstart] at h hreads
    by_cases hstream : extension.name = "stream-events" ∧ prior = extension
    · simp only [if_pos hstream, bind_eq_ok, pure_eq_ok] at h
      obtain ⟨combined, hcombined, rfl⟩ := h
      obtain ⟨first, second, hfirst, hsecond, rfl⟩ := combineStreamEvents_eq_ok hcombined
      obtain ⟨hname, rfl⟩ := hstream
      have hget := (@get_set start prior.name prior.name
        (StreamEvents.extend first second).encode).trans (if_pos rfl)
      rw [hstart] at hget
      refine ⟨?_, fun name hother => (get_set _ _ _).trans (if_neg hother)⟩
      rw [hget]
      exact .streamEvents prior hname hfirst hsecond
        (hreads _ _ first second rfl rfl hfirst hsecond)
    · simp only [if_neg hstream, bind_eq_ok, ensure_eq_ok, pure_eq_ok] at h
      obtain ⟨_, ⟨rfl, rfl⟩, rfl⟩ := h
      rw [hstart]
      refine ⟨?_, fun _ _ => rfl⟩
      exact .common (Session.payload source prior) fun hname => hstream ⟨hname, rfl⟩

theorem MergedEntry.of_right_none {left merged : Option Entry}
    (h : MergedEntry codec left none merged) : merged = left := by
  rcases h with _ | _
  · rfl
  · rfl

theorem MergedEntry.of_left_none {right merged : Option Entry}
    (h : MergedEntry codec none right merged) : merged = right := by
  rcases h with _ | _
  · rfl
  · rfl

/-! ### All extensions of a session -/

theorem entry_cons (extension : ExtensionDescriptor) (rest : List ExtensionDescriptor)
    (name : String) :
    Gathered.get ((extension :: rest).map (Session.payload source)) name =
      if name = extension.name then some (Session.payload source extension)
      else Gathered.get (rest.map (Session.payload source)) name := by
  rw [List.map_cons, Gathered.get]
  by_cases hname : name = extension.name
  · rw [if_pos hname]
    exact List.find?_cons_of_pos (decide_eq_true hname.symm)
  · rw [if_neg hname]
    exact List.find?_cons_of_neg fun heq => hname (of_decide_eq_true heq).symm

theorem entry_none {extensions : List ExtensionDescriptor} {name : String}
    (h : name ∉ extensions.map ExtensionDescriptor.name) :
    Gathered.get (extensions.map (Session.payload source)) name = none := by
  rw [Gathered.get, List.find?_eq_none]
  intro entry hentry heq
  obtain ⟨extension, hmem, rfl⟩ := List.mem_map.mp hentry
  exact h (List.mem_map.mpr ⟨extension, hmem, of_decide_eq_true heq⟩)

theorem gather_all (hopened : Opened codec source flows) {extensions : List ExtensionDescriptor}
    (hsub : ∀ extension ∈ extensions, extension ∈ source.manifest.extensions)
    (hnames : (extensions.map ExtensionDescriptor.name).Nodup)
    (hreads : ∀ name, ReadsCombined codec (start.get name)
      (Gathered.get (extensions.map (Session.payload source)) name))
    (h : checkFold (gatherExtension codec source) start extensions = .ok next) (name : String) :
    MergedEntry codec (start.get name)
      (Gathered.get (extensions.map (Session.payload source)) name) (next.get name) := by
  induction extensions generalizing start with
  | nil =>
      obtain rfl : start = next := by simpa using h
      rcases start.get name with _ | entry
      · exact .neither
      · exact .base entry
  | cons extension rest ih =>
      rw [checkFold_cons, bind_eq_ok] at h
      obtain ⟨after, hafter, hrest⟩ := h
      rw [List.map_cons, List.nodup_cons] at hnames
      have hfirst := hreads extension.name
      rw [entry_cons, if_pos rfl] at hfirst
      obtain ⟨hmerged, hother⟩ :=
        gatherExtension_eq_ok hopened (hsub extension (by simp)) hfirst hafter
      have hreadsRest : ∀ other, ReadsCombined codec (after.get other)
          (Gathered.get (rest.map (Session.payload source)) other) := by
        intro other
        by_cases hsame : other = extension.name
        · rw [hsame, entry_none hnames.1]
          intro _ _ _ _ _ hnone
          cases hnone
        · have hold := hreads other
          rw [entry_cons, if_neg hsame] at hold
          rw [hother other hsame]
          exact hold
      have hfinal := ih (fun e he => hsub e (by simp [he])) hnames.2 hreadsRest hrest
      rw [entry_cons]
      by_cases hsame : name = extension.name
      · subst hsame
        rw [entry_none hnames.1] at hfinal
        rw [if_pos rfl, hfinal.of_right_none]
        exact hmerged
      · rw [if_neg hsame, ← hother name hsame]
        exact hfinal

end

/-! ### The merged session -/

section

variable {codec : Codec} {pieces : Bytes → List Bytes} {entries moreEntries : List BlobEntry}
  {base additional : Session} {targetSchema : Nat} {flows moreFlows : List Flow}
  {existing : Option Directory}

/-- The read-back assumptions of a merge: what the codec decodes of what the merge writes. -/
structure MergeReadsBack (codec : Codec) (base additional : Session)
    (staged : Except StoreError SessionWriter) : Prop where
  flows : DecodesFlows codec (Session.flows codec base ++ Session.flows codec additional)
  events : ∀ name, ReadsCombined codec (Session.entry base name) (Session.entry additional name)
  manifest : ∀ writer, staged = .ok writer → DecodesManifest codec (writer.stage codec)

/-- What a merge that reaches its publication has staged. -/
theorem stageMerge_eq_ok (hpieces : ∀ bytes, (pieces bytes).flatten = bytes)
    (hlower : LowercaseHex codec) (hbase : Opened codec base flows)
    (hadditional : Opened codec additional moreFlows) (hlists : Lists base.root entries)
    (hmoreLists : Lists additional.root moreEntries)
    (hreads : ∀ name, ReadsCombined codec (Session.entry base name)
      (Session.entry additional name))
    {writer : SessionWriter}
    (h : Session.stageMerge codec pieces entries moreEntries base additional existing
      targetSchema = .ok writer) :
    ∃ gathered : Gathered,
      (∀ name, MergedEntry codec (Session.entry base name) (Session.entry additional name)
        (gathered.get name)) ∧
      supportedSchema targetSchema ∧ existing = none ∧
      Filed (moreEntries.foldl fileEntry (entries.foldl fileEntry [])) ∧
      Assembled (StoreLimits.min base.limits additional.limits) (migratedMetadata base targetSchema)
        { flows := flows ++ moreFlows, entries := gathered.intoValues,
          blobs := moreEntries.foldl fileEntry (entries.foldl fileEntry []) } writer := by
  simp only [Session.stageMerge, bind_eq_ok, ensure_eq_ok] at h
  obtain ⟨_, hschema, created, hcreated, filled, hfilled, more, hmore, items, hitems, moreItems,
    hmoreItems, logged, hlogged, gathered, hgathered, all, hall, hwriter⟩ := h
  obtain rfl : flows.map .ok = items := Except.ok.inj (hbase.items.symm.trans hitems)
  obtain rfl : moreFlows.map .ok = moreItems :=
    Except.ok.inj (hadditional.items.symm.trans hmoreItems)
  have hexisting : existing = none := by
    simp only [SessionWriter.create, bind_unit_eq_ok, ensure_eq_ok] at hcreated
    simpa using hcreated.1
  subst hexisting
  have hnone : Filed ({} : Draft).blobs := fun _ hmem => absurd hmem List.not_mem_nil
  obtain ⟨-, hfiled, hfirst⟩ := copyBlobs_eq_ok hpieces hlower
    (fun entry hentry => Listed.of_lists hlists hentry) (create_assembled hcreated) hnone hfilled
  obtain ⟨-, hfiledMore, hsecond⟩ := copyBlobs_eq_ok hpieces hlower
    (fun entry hentry => Listed.of_lists hmoreLists hentry) hfirst hfiled hmore
  rw [← List.map_append] at hlogged
  have hfinal := (hsecond.copyFlows hlogged).writeAll hwriter
  have hfirstGathered := fun name => gather_all hbase (fun _ hmem => hmem)
    hbase.extensions.names (fun _ _ _ _ _ hempty => by cases hempty) hgathered name
  have hbaseGathered : ∀ name, gathered.get name = Session.entry base name :=
    fun name => (hfirstGathered name).of_left_none
  have hallGathered := fun name => gather_all hadditional (fun _ hmem => hmem)
    hadditional.extensions.names
    (fun other => by
      rw [hbaseGathered other]
      exact hreads other) hall name
  refine ⟨all, ?_, hschema, rfl, hfiledMore, by simpa [migratedMetadata] using hfinal⟩
  intro name
  rw [← hbaseGathered name]
  exact hallGathered name

theorem intoValues_perm (gathered : Gathered) : gathered.intoValues.Perm gathered :=
  List.perm_insertionSort _ _

/-- A published session has under each name what was gathered for it. -/
theorem published_entry {limits : StoreLimits} {metadata : SessionMetadata} {draft : Draft}
    {gathered : Gathered} {merged : Session} (hentries : draft.entries = gathered.intoValues)
    (hnames : (draft.entries.map fun entry => entry.1.name).Nodup)
    (h : Published codec limits metadata draft merged) (name : String) :
    Session.entry merged name = gathered.get name := by
  have hpayloads : Session.payloads merged = draft.entries := by
    rw [Session.payloads, h.manifest_eq, Draft.manifest, List.map_map]
    conv_rhs => rw [← List.map_id draft.entries]
    apply List.map_congr_left
    intro entry hentry
    show (entry.1, (merged.root.files entry.1.path).getD []) = entry
    rw [h.payloads entry hentry]
    rfl
  rw [Session.entry, hpayloads, get_perm (hentries ▸ intoValues_perm gathered) hnames]

/-- The blobs of both directories, the first one's where they share a digest. -/
theorem merged_contents (hlists : Lists base.root entries)
    (hmoreLists : Lists additional.root moreEntries) (digest : String) :
    (moreEntries.foldl fileEntry (entries.foldl fileEntry [])).lookup (.content digest) =
      (base.root.blob? (.content digest)).or (additional.root.blob? (.content digest)) := by
  rw [lookup_fileEntries, copied_contents hlists, lookup_perm hmoreLists.files hmoreLists.names]
  rfl

/-- Nothing is gathered exactly when neither session has an extension. -/
theorem gathered_eq_nil {gathered : Gathered}
    (h : ∀ name, MergedEntry codec (Session.entry base name) (Session.entry additional name)
      (gathered.get name)) :
    gathered = [] ↔ base.manifest.extensions = [] ∧ additional.manifest.extensions = [] := by
  have hnone : ∀ name, gathered.get name = none ↔
      Session.entry base name = none ∧ Session.entry additional name = none := by
    intro name
    have hname := h name
    constructor
    · intro hmerged
      rw [hmerged] at hname
      generalize Session.entry base name = left at hname ⊢
      generalize Session.entry additional name = right at hname ⊢
      cases hname
      exact ⟨rfl, rfl⟩
    · rintro ⟨hleft, hright⟩
      rw [hleft, hright] at hname
      exact hname.of_left_none
  have hextensions : ∀ session : Session, session.manifest.extensions = [] ↔
      ∀ name, Session.entry session name = none := by
    intro session
    constructor
    · intro hempty name
      rw [Session.entry, Session.payloads, hempty]
      rfl
    · intro hall
      rcases hsome : session.manifest.extensions with _ | ⟨extension, rest⟩
      · rfl
      · have hfirst := hall extension.name
        rw [Session.entry, Session.payloads, hsome] at hfirst
        have hfound : Gathered.get ((extension :: rest).map (Session.payload session))
            extension.name = some _ := (entry_cons _ _ _).trans (if_pos rfl)
        exact absurd (hfound.symm.trans hfirst) (Option.some_ne_none _)
  rw [hextensions base, hextensions additional, ← forall_and]
  constructor
  · rintro rfl name
    exact (hnone name).mp rfl
  · intro hall
    rcases gathered with _ | ⟨entry, rest⟩
    · rfl
    · have hfirst := (hnone entry.1.name).mpr (hall entry.1.name)
      rw [Gathered.get, List.find?_cons_of_pos (by simp)] at hfirst
      cases hfirst

/-- A merge that succeeds is the disjoint union of the two sessions exactly when its target is
the current schema or neither has an extension; and a conflict stops it before anything is
published. -/
theorem mergeTo_union_iff {root moreRoot : Directory} {limits moreLimits : StoreLimits}
    (hpieces : ∀ bytes, (pieces bytes).flatten = bytes) (hlower : LowercaseHex codec)
    (hbase : Session.open codec root limits = .ok base)
    (hadditional : Session.open codec moreRoot moreLimits = .ok additional)
    (hlists : Lists root entries) (hmoreLists : Lists moreRoot moreEntries)
    (hreads : MergeReadsBack codec base additional
      (Session.stageMerge codec pieces entries moreEntries base additional existing
        targetSchema)) :
    (∀ merged, (Session.mergeTo codec pieces entries moreEntries base additional existing
        targetSchema).result = .ok merged →
      (MergeOf codec targetSchema base additional merged ↔
        targetSchema = sessionSchemaVersion ∨
          base.manifest.extensions = [] ∧ additional.manifest.extensions = [])) ∧
    (Conflicting base additional →
      (∃ error, (Session.mergeTo codec pieces entries moreEntries base additional existing
        targetSchema).result = .error error) ∧
      (Session.mergeTo codec pieces entries moreEntries base additional existing
        targetSchema).destination = existing) := by
  obtain ⟨rfl, -, -, -, flows, hopened⟩ := open_eq_ok hbase
  obtain ⟨rfl, -, -, -, moreFlows, hmoreOpened⟩ := open_eq_ok hadditional
  have hdecodes := hreads.flows
  rw [Opened.flows_eq hopened, Opened.flows_eq hmoreOpened] at hdecodes
  rw [Session.mergeTo]
  rcases hstage : Session.stageMerge codec pieces entries moreEntries base additional existing
    targetSchema with error | writer
  · refine ⟨?_, fun _ => ⟨⟨error, rfl⟩, rfl⟩⟩
    intro merged hmerged
    cases hmerged
  · obtain ⟨gathered, hgathered, -, hexisting, hfiled, hassembled⟩ := stageMerge_eq_ok hpieces
      hlower hopened hmoreOpened hlists hmoreLists hreads.events hstage
    have hempty := gathered_eq_nil hgathered
    refine ⟨?_, ?_⟩
    · intro merged hmerged
      obtain ⟨hpublished, -, hopenMerged⟩ := hassembled.published hdecodes
        (hreads.manifest writer hstage) hmerged
      obtain ⟨-, -, -, -, mergedFlows, hmergedOpened⟩ := open_eq_ok hopenMerged
      have hnames : (gathered.intoValues.map fun entry => entry.1.name).Nodup := by
        have hsound := hassembled.sound.names
        rw [hassembled.extensions, List.map_map] at hsound
        exact hsound
      have hmetadata : merged.manifest.metadata = migratedMetadata base targetSchema ↔
          targetSchema = sessionSchemaVersion ∨ gathered = [] := by
        rw [hpublished.manifest_eq]
        show Draft.finalMetadata _ _ = _ ↔ _
        have hvalues : gathered.intoValues = [] ↔ gathered = [] := by
          rw [← List.perm_nil, (intoValues_perm gathered).congr_left]
          exact List.perm_nil
        rw [Draft.finalMetadata]
        by_cases hnone : gathered = []
        · rw [if_pos (hvalues.mpr hnone)]
          exact iff_of_true rfl (.inr hnone)
        · rw [if_neg fun hvalue => hnone (hvalues.mp hvalue)]
          constructor
          · intro hsame
            exact .inl (congrArg SessionMetadata.schemaVersion hsame).symm
          · rintro (rfl | hnil)
            · rfl
            · exact absurd hnil hnone
      rw [← hempty, ← hmetadata]
      refine ⟨fun h => h.metadata, fun hsame => ⟨?_, ?_, ?_, hsame, ?_⟩⟩
      · rw [Session.flows, hpublished.items, Opened.flows_eq hopened,
          Opened.flows_eq hmoreOpened]
        show ((flows ++ moreFlows).map Except.ok).filterMap Except.toOption = _
        rw [List.filterMap_map]
        exact List.filterMap_some
      · rw [hpublished.blobs]
        exact hfiled
      · intro digest
        rw [Directory.blob?, hpublished.blobs]
        exact merged_contents hlists hmoreLists digest
      · intro name
        rw [published_entry rfl hnames hpublished name]
        exact hgathered name
    · rintro ⟨name, left, right, hname, hleft, hright, hne⟩
      have hentry := hgathered name
      rw [hleft, hright] at hentry
      generalize gathered.get name = merged at hentry
      cases hentry with
      | common _ _ => exact absurd rfl hne
      | streamEvents descriptor hstream _ _ _ =>
          refine absurd ?_ hname
          rw [← get_name hleft, hstream]

end

/-! ### A plain session and one with an extension -/

def notesExtension : ExtensionDescriptor where
  name := "notes"
  schemaVersion := 1
  path := "notes.txt"
  requiredForReplay := false

def notedManifest (version flowCount : Nat) (noted : Bool) : Manifest :=
  { Manifest.migrate (sampleManifest flowCount) version with
    extensions := if noted then [notesExtension] else [] }

def notedManifestText (version flowCount : Nat) (noted : Bool) : Bytes :=
  utf8 ("\x7b\n  \"schema_version\": ".toList ++ (Nat.repr version).toList ++
    ",\n  \"tool_version\": \"0.1.0\",\n".toList ++
    "  \"session_id\": \"session-0\",\n  \"capture_mode\": \"forward\",\n".toList ++
    "  \"source\": null,\n  \"target\": null,\n".toList ++
    "  \"matcher_profile\": \"default\",\n".toList ++
    "  \"redaction_profile\": \"default\",\n  \"complete\": true,\n".toList ++
    "  \"flow_count\": ".toList ++ (Nat.repr flowCount).toList ++
    ",\n  \"blob_count\": 0".toList ++
    (if noted then
      (",\n  \"extensions\": [\n    \x7b\n      \"name\": \"notes\",\n".toList ++
        "      \"schema_version\": 1,\n      \"path\": \"notes.txt\",\n".toList ++
        "      \"required_for_replay\": false\n    \x7d\n  ]".toList)
    else []) ++ "\n\x7d".toList)

/-- Decoders for the sample flow and the manifests of the two sessions and of their merge. -/
def notedCodec : Codec :=
  { sampleCodec 1 with
    encodeManifest := fun manifest =>
      notedManifestText manifest.metadata.schemaVersion manifest.flowCount
        (!manifest.extensions.isEmpty),
    decodeManifest := fun bytes =>
      if bytes = notedManifestText 1 1 false ++ [newline] then .ok (notedManifest 1 1 false)
      else if bytes = notedManifestText 2 0 true ++ [newline] then .ok (notedManifest 2 0 true)
      else if bytes = notedManifestText 2 1 true ++ [newline] then .ok (notedManifest 2 1 true)
      else .error "unknown manifest" }

def plainRoot : Directory where
  files := fun name =>
    if name = flowLog then some (sampleFlow.encode ++ [newline])
    else if name = manifestFile then some (notedManifestText 1 1 false ++ [newline])
    else none
  blobs := []

def notedRoot : Directory where
  files := fun name =>
    if name = flowLog then some []
    else if name = manifestFile then some (notedManifestText 2 0 true ++ [newline])
    else if name = notesExtension.path then some (utf8 "hello".toList)
    else none
  blobs := []

def plainBase : Session := ⟨plainRoot, notedManifest 1 1 false, StoreLimits.default⟩
def notedAdditional : Session := ⟨notedRoot, notedManifest 2 0 true, StoreLimits.default⟩

def mergeNoted (targetSchema : Nat) : Publication :=
  Session.mergeTo notedCodec (fun bytes => [bytes]) [] [] plainBase notedAdditional none
    targetSchema

def opensAs (opened : Except StoreError Session) (manifest : Manifest) : Bool :=
  match opened with
  | .ok session => decide (session.manifest = manifest)
  | .error _ => false

theorem open_of_opensAs {codec : Codec} {root : Directory} {limits : StoreLimits}
    {manifest : Manifest} (h : opensAs (Session.open codec root limits) manifest = true) :
    Session.open codec root limits = .ok ⟨root, manifest, limits⟩ := by
  rcases hopen : Session.open codec root limits with error | session
  · rw [hopen] at h
    cases h
  · rw [hopen] at h
    obtain ⟨hroot, hlimits, -⟩ := open_eq_ok hopen
    obtain rfl : session.manifest = manifest := of_decide_eq_true h
    rw [← hroot, ← hlimits]

theorem lists_nil {root : Directory} (hblobs : root.blobs = [])
    (hdirectory : root.files "blobs" = none) : Lists root [] where
  files := by
    rw [hblobs]
    exact .nil
  names := by
    rw [hblobs]
    exact List.nodup_nil
  marker := by simp [hblobs]
  directory := hdirectory

theorem plainBase_opens :
    Session.open notedCodec plainRoot StoreLimits.default = .ok plainBase :=
  open_of_opensAs (by decide +kernel)

theorem notedAdditional_opens :
    Session.open notedCodec notedRoot StoreLimits.default = .ok notedAdditional :=
  open_of_opensAs (by decide +kernel)

theorem plainRoot_lists : Lists plainRoot [] := lists_nil rfl (by decide)

theorem notedRoot_lists : Lists notedRoot [] := lists_nil rfl (by decide)

/-- The staged writer, if any, writes this manifest, if any. -/
def stagesAs (staged : Except StoreError SessionWriter) (manifest : Manifest) : Bool :=
  match staged with
  | .error _ => true
  | .ok writer =>
      match writer.stage notedCodec with
      | .error _ => true
      | .ok (_, written) => decide (written = manifest)

theorem noted_readsBack {targetSchema : Nat}
    (h : stagesAs (Session.stageMerge notedCodec (fun bytes => [bytes]) [] [] plainBase
      notedAdditional none targetSchema) (notedManifest 2 1 true) = true) :
    MergeReadsBack notedCodec plainBase notedAdditional
      (Session.stageMerge notedCodec (fun bytes => [bytes]) [] [] plainBase notedAdditional none
        targetSchema) where
  flows := by
    have hflows : Session.flows notedCodec plainBase ++ Session.flows notedCodec notedAdditional =
        [sampleFlow] := by decide +kernel
    rw [hflows]
    intro flow hflow
    rw [List.mem_singleton.mp hflow]
    simp [notedCodec, sampleCodec]
  events := by
    rintro name prior entry first second hnone -
    cases hnone
  manifest := by
    rintro writer hwriter root manifest hstage
    rw [hwriter] at h
    simp only [stagesAs, hstage] at h
    rw [of_decide_eq_true h]
    decide +kernel

theorem noted_lowercase : LowercaseHex notedCodec := by
  intro bytes
  show toAsciiLowercase "" = ""
  decide

/-- The union of the two sessions under the current schema. -/
theorem noted_mergeTo_union : ∃ merged, (mergeNoted 2).result = .ok merged ∧
    MergeOf notedCodec 2 plainBase notedAdditional merged := by
  have hmerge : opensAs (mergeNoted 2).result (notedManifest 2 1 true) = true := by
    decide +kernel
  rcases hresult : (mergeNoted 2).result with error | merged
  · rw [hresult] at hmerge
    cases hmerge
  · refine ⟨merged, rfl, ?_⟩
    have hunion := (@mergeTo_union_iff notedCodec (fun bytes => [bytes]) [] [] plainBase
      notedAdditional 2 none plainRoot notedRoot StoreLimits.default StoreLimits.default
      (by simp) noted_lowercase plainBase_opens notedAdditional_opens plainRoot_lists
      notedRoot_lists (noted_readsBack (by decide +kernel))).1 merged hresult
    exact hunion.mpr (.inl rfl)

/-- The ids are disjoint and the merge to schema 1 succeeds, but the extension of the second
session raises the schema of the result. -/
theorem merge_raises_schema :
    Session.open notedCodec plainRoot StoreLimits.default = .ok plainBase ∧
      Session.open notedCodec notedRoot StoreLimits.default = .ok notedAdditional ∧
      Session.flows notedCodec notedAdditional = [] ∧
      (∃ merged, (mergeNoted 1).result = .ok merged) ∧
      ∀ merged, (mergeNoted 1).result = .ok merged →
        ¬MergeOf notedCodec 1 plainBase notedAdditional merged := by
  have hmerge : opensAs (mergeNoted 1).result (notedManifest 2 1 true) = true := by
    decide +kernel
  refine ⟨plainBase_opens, notedAdditional_opens, by decide, ?_, ?_⟩
  · rcases hresult : (mergeNoted 1).result with error | merged
    · rw [hresult] at hmerge
      cases hmerge
    · exact ⟨merged, rfl⟩
  · intro merged hresult hunion
    rw [hresult] at hmerge
    have hmanifest : merged.manifest = notedManifest 2 1 true := of_decide_eq_true hmerge
    have hmetadata := hunion.metadata
    rw [hmanifest] at hmetadata
    exact absurd (congrArg SessionMetadata.schemaVersion hmetadata) (by decide)

end EggReplay.Store.Merges
