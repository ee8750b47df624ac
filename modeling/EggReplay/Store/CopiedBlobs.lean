import EggReplay.Store.Assembly

/-!
The blob loop of a copy: each listed file is streamed through a body writer and filed under
its digest, so that the writer's blobs become the listed ones.
-/

namespace EggReplay.Store.CopiedBlobs

open EggReplay.Library.Checks
open EggReplay.Library.Text
open EggReplay.Core.FlowRecord
open EggReplay.Core.StreamTimeline
open EggReplay.Store.Fixture
open EggReplay.Store.SessionOpen
open EggReplay.Store.Staging
open EggReplay.Store.Writer
open EggReplay.Store.Copies
open EggReplay.Store.Assembly

abbrev Blobs := List (BlobName × Bytes)

/-- Published blobs only, no staging files and no marker. -/
def Filed (blobs : Blobs) : Prop := ∀ entry ∈ blobs, ∃ digest, entry.1 = .content digest

/-- A file that stands under the digest of its content, within the blob limit. -/
structure IntactBlob (codec : Codec) (maxBlobBytes : Nat) (digest : String) (bytes : Bytes) :
    Prop where
  name : validateDigest digest = .ok ()
  nonempty : bytes ≠ []
  bound : bytes.length ≤ maxBlobBytes
  hash : codec.sha256Hex bytes = digest

/-- The blobs after one more content is filed under its digest. -/
def fileBlob (digest : String) (bytes : Bytes) (blobs : Blobs) : Blobs :=
  if (blobs.lookup (.content digest)).isSome = true then blobs
  else (.content digest, bytes) :: blobs

def fileEntry (blobs : Blobs) : BlobEntry → Blobs
  | .file (.content digest) bytes => fileBlob digest bytes blobs
  | .file (.staging _) _ | .file .gitkeep _ | .other => blobs

/-- An entry that a copy takes or skips without an error. -/
def CopiedEntry (codec : Codec) (maxBlobBytes : Nat) : BlobEntry → Prop
  | .file (.content digest) bytes => IntactBlob codec maxBlobBytes digest bytes
  | .file .gitkeep bytes => bytes = []
  | .file (.staging _) _ | .other => False

/-- `{:x}` writes a digest in lower case. -/
def LowercaseHex (codec : Codec) : Prop :=
  ∀ bytes, toAsciiLowercase (codec.sha256Hex bytes) = codec.sha256Hex bytes

theorem Filed.fileBlob {blobs : Blobs} (h : Filed blobs) (digest : String) (bytes : Bytes) :
    Filed (fileBlob digest bytes blobs) := by
  rw [CopiedBlobs.fileBlob]
  split
  · exact h
  · intro entry hentry
    rcases List.mem_cons.mp hentry with rfl | hmem
    · exact ⟨digest, rfl⟩
    · exact h entry hmem

theorem Filed.fileEntry {blobs : Blobs} (h : Filed blobs) (entry : BlobEntry) :
    Filed (fileEntry blobs entry) := by
  rcases entry with ⟨⟨_⟩ | ⟨digest⟩ | _, bytes⟩ | _
  · exact h
  · exact h.fileBlob digest bytes
  · exact h
  · exact h

/-- Under distinct names a lookup finds exactly the entries. -/
theorem lookup_nodup {α β : Type} [BEq α] [LawfulBEq α] {entries : List (α × β)} {name : α}
    {value : β} (h : (entries.map Prod.fst).Nodup) :
    entries.lookup name = some value ↔ (name, value) ∈ entries := by
  rw [List.lookup_eq_some_iff]
  constructor
  · rintro ⟨before, after, rfl, -⟩
    simp
  · intro hmem
    obtain ⟨before, after, rfl⟩ := List.append_of_mem hmem
    refine ⟨before, after, rfl, ?_⟩
    intro entry hentry
    rw [List.map_append, List.map_cons, List.nodup_append] at h
    have hne := h.2.2 entry.1 (List.mem_map_of_mem hentry) name (by simp)
    simpa using Ne.symm hne

theorem lookup_perm {α β : Type} [BEq α] [LawfulBEq α] {left right : List (α × β)}
    (hperm : left.Perm right) (h : (right.map Prod.fst).Nodup) (name : α) :
    left.lookup name = right.lookup name := by
  apply Option.ext
  intro value
  rw [lookup_nodup h, lookup_nodup ((hperm.map Prod.fst).nodup_iff.mpr h), hperm.mem_iff]

/-! ### One body writer -/

section

variable {codec : Codec} {root : Directory} {body : BodyWriter} {stored : Blobs}

theorem Filed.staging_ne (h : Filed stored) {entry : BlobName × Bytes} (hentry : entry ∈ stored)
    (suffix : Nat) : entry.1 ≠ .staging suffix := by
  obtain ⟨digest, hdigest⟩ := h entry hentry
  rw [hdigest]
  simp

theorem extendBlob_head (hfiled : Filed stored) {suffix : Nat} {content : Bytes}
    (hroot : root.blobs = (.staging suffix, content) :: stored) (piece : Bytes) :
    root.extendBlob (.staging suffix) piece =
      { root with blobs := (.staging suffix, content ++ piece) :: stored } := by
  have hstored : (stored.map fun entry =>
      if entry.1 = .staging suffix then (entry.1, entry.2 ++ piece) else entry) = stored := by
    conv_rhs => rw [← List.map_id stored]
    apply List.map_congr_left
    intro entry hentry
    rw [if_neg (hfiled.staging_ne hentry suffix)]
    rfl
  rw [Directory.extendBlob, hroot, List.map_cons, if_pos rfl, hstored]

/-- All pieces in order, as far as the limit of the writer goes. -/
theorem writePieces_eq_ok (hfiled : Filed stored)
    (hroot : root.blobs = (.staging body.suffix, body.hashed) :: stored)
    (hlength : body.length = body.hashed.length) {pieces : List Bytes}
    {next : Directory × BodyWriter} (h : writePieces root body pieces = .ok next) :
    next.1 = { root with
        blobs := (.staging body.suffix, body.hashed ++ pieces.flatten) :: stored } ∧
      next.2 = { body with
        hashed := body.hashed ++ pieces.flatten,
        length := (body.hashed ++ pieces.flatten).length } := by
  unfold writePieces at h
  induction pieces generalizing root body with
  | nil =>
      obtain rfl : (root, body) = next := by simpa using h
      simp [← hroot, ← hlength]
  | cons piece rest ih =>
      rw [checkFold_cons, bind_eq_ok] at h
      obtain ⟨after, hafter, hrest⟩ := h
      simp [BodyWriter.write] at hafter
      obtain ⟨-, -, rfl⟩ := hafter
      have hnext := ih (by rw [extendBlob_head hfiled hroot piece])
        (by simp [hlength]) hrest
      rw [extendBlob_head hfiled hroot piece] at hnext
      simpa [List.append_assoc] using hnext

theorem writePieces_ok {pieces : List Bytes} (hmax : body.length + pieces.flatten.length ≤ u64Max)
    (hbound : body.length + pieces.flatten.length ≤ body.maxBytes) :
    ∃ next, writePieces root body pieces = .ok next := by
  unfold writePieces
  induction pieces generalizing root body with
  | nil => exact ⟨(root, body), rfl⟩
  | cons piece rest ih =>
      rw [List.flatten_cons, List.length_append, ← Nat.add_assoc] at hmax hbound
      have hfirst : body.length + piece.length ≤ u64Max := by omega
      have hroom : body.length + piece.length ≤ body.maxBytes := by omega
      rw [checkFold_cons, BodyWriter.write, ensure_of_true hfirst, ok_bind,
        ensure_of_true hroom]
      exact ih hmax hbound

/-- A nonempty content that was streamed is filed under its digest. -/
theorem publish_head (hfiled : Filed stored)
    (hroot : root.blobs = (.staging body.suffix, body.hashed) :: stored)
    (hlength : body.length = body.hashed.length) (hnonempty : body.hashed ≠ []) :
    body.publish codec root =
      { root with blobs := fileBlob (codec.sha256Hex body.hashed) body.hashed stored } := by
  have hlookup : root.blob? (.content (codec.sha256Hex body.hashed)) =
      stored.lookup (.content (codec.sha256Hex body.hashed)) := by
    have hother : (BlobName.content (codec.sha256Hex body.hashed) ==
        BlobName.staging body.suffix) = false := by simp
    rw [Directory.blob?, hroot, List.lookup_cons, hother]
  have hkept : ∀ entry ∈ stored, entry.1 ≠ .staging body.suffix :=
    fun entry hentry => hfiled.staging_ne hentry body.suffix
  have hlong : body.length ≠ 0 := by
    rw [hlength]
    exact fun hzero => hnonempty (List.length_eq_zero_iff.mp hzero)
  rw [BodyWriter.publish, if_neg hlong, hlookup, fileBlob]
  split
  · rw [Directory.removeBlob, hroot, List.filter_cons_of_neg (by simp),
      List.filter_eq_self.mpr (by simpa using hkept)]
  · have hstored : (stored.map fun entry => if entry.1 = .staging body.suffix then
        (.content (codec.sha256Hex body.hashed), entry.2) else entry) = stored := by
      conv_rhs => rw [← List.map_id stored]
      apply List.map_congr_left
      intro entry hentry
      rw [if_neg (hkept entry hentry)]
      rfl
    rw [Directory.renameBlob, hroot, List.map_cons, if_pos rfl, hstored]

end

/-! ### One entry -/

theorem validateDigest_text {name : BlobName} (h : validateDigest (BlobName.text name) = .ok ()) :
    ∃ digest, name = .content digest := by
  rcases name with suffix | digest | _
  · obtain ⟨-, hdigits, -⟩ := ensure_eq_ok.mp h
    rw [BlobName.text, String.toList_append, List.all_append, Bool.and_eq_true] at hdigits
    exact absurd hdigits.1 (by decide)
  · exact ⟨digest, rfl⟩
  · exact absurd h (by decide)

section

variable {codec : Codec} {pieces : Bytes → List Bytes} {source : Session} {limits : StoreLimits}
  {metadata : SessionMetadata} {draft : Draft} {writer next : SessionWriter}

/-- What an entry stands for in the directory that it was listed from. -/
structure Listed (root : Directory) (entry : BlobEntry) : Prop where
  lookup : ∀ name bytes, entry = .file name bytes → root.blob? name = some bytes
  marker : ∀ bytes, entry ≠ .file (.content ".gitkeep") bytes

theorem reference_isBlob {body : BodyWriter} {reference : BodyRef} {digest : String}
    (hlower : LowercaseHex codec) (h : body.reference codec = .ok reference)
    (hblob : isBlob digest reference) :
    body.length ≠ 0 ∧ codec.sha256Hex body.hashed = digest := by
  rw [BodyWriter.reference] at h
  by_cases hlength : body.length = 0
  · rw [if_pos hlength] at h
    cases h
    exact hblob.elim
  · rw [if_neg hlength] at h
    simp only [bind_eq_ok, mapError_eq_ok, BlobRef.new, pure_eq_ok] at h
    obtain ⟨blob, ⟨_, -, rfl⟩, rfl⟩ := h
    exact ⟨hlength, (hlower _).symm.trans hblob⟩

/-- The body of a new blob after all pieces were written to it. -/
theorem streamed (hfiled : Filed writer.directory.blobs) {content : List Bytes}
    {copied : Directory × BodyWriter}
    (h : writePieces writer.beginBlob.1.directory writer.beginBlob.2 content = .ok copied) :
    copied.2.hashed = content.flatten ∧ copied.2.length = content.flatten.length ∧
      (content.flatten ≠ [] → copied.2.publish codec copied.1 =
        { writer.directory with
          blobs := fileBlob (codec.sha256Hex content.flatten) content.flatten
            writer.directory.blobs }) := by
  have hbegun : writer.beginBlob.1.directory.blobs =
      (.staging writer.beginBlob.2.suffix, writer.beginBlob.2.hashed) ::
        writer.directory.blobs := rfl
  obtain ⟨hroot, hbody⟩ := writePieces_eq_ok hfiled hbegun rfl h
  have hhashed : copied.2.hashed = content.flatten := by
    rw [hbody]
    rfl
  have hlength : copied.2.length = content.flatten.length := by
    rw [hbody]
    rfl
  refine ⟨hhashed, hlength, fun hnonempty => ?_⟩
  have hblobs : copied.1.blobs =
      (.staging copied.2.suffix, copied.2.hashed) :: writer.directory.blobs := by
    rw [hroot, hbody]
  rw [publish_head hfiled hblobs (by rw [hlength, hhashed]) (by rw [hhashed]; exact hnonempty),
    hhashed, hroot]
  rfl

/-- A step of the blob loop skips the marker, or files an intact blob of the source. -/
theorem copyBlob_eq_ok (hpieces : ∀ bytes, (pieces bytes).flatten = bytes)
    (hlower : LowercaseHex codec) (hassembled : Assembled limits metadata draft writer)
    (hfiled : Filed draft.blobs) {entry : BlobEntry} (hlisted : Listed source.root entry)
    (h : copyBlob codec pieces source writer entry = .ok next) :
    CopiedEntry codec source.limits.maxBlobBytes entry ∧
      Assembled limits metadata { draft with blobs := fileEntry draft.blobs entry } next := by
  rcases entry with ⟨name, bytes⟩ | _
  · rw [copyBlob] at h
    by_cases hskip : BlobName.text name = ".gitkeep" ∧ bytes = []
    · rw [if_pos hskip] at h
      obtain rfl := pure_eq_ok.mp h
      rcases name with suffix | digest | _
      · exact absurd (congrArg String.toList hskip.1) (by simp [BlobName.text])
      · exact absurd rfl (hskip.1 ▸ hlisted.marker bytes)
      · exact ⟨hskip.2, hassembled⟩
    · rw [if_neg hskip] at h
      simp only [bind_eq_ok, ensure_eq_ok, pure_eq_ok] at h
      obtain ⟨_, hdigest, blob, hblob, content, hcontent, copied, hcopied, body, hbody, _,
        hsame, rfl⟩ := h
      obtain ⟨digest, rfl⟩ := validateDigest_text hdigest
      obtain ⟨-, -, hcase⟩ := ensure_eq_ok.mp hdigest
      simp only [BlobRef.new, mapError_eq_ok, bind_eq_ok, pure_eq_ok] at hblob
      obtain ⟨_, -, rfl⟩ := hblob
      simp only [Session.openBlob, bind_eq_ok, ensure_eq_ok, orFail_eq_ok, pure_eq_ok]
        at hcontent
      obtain ⟨_, -, _, hbound, found, hfound, _, hlength, rfl⟩ := hcontent
      have hsource := hlisted.lookup _ _ rfl
      rw [← hcase] at hfound
      obtain rfl : bytes = found := Option.some.inj (hsource.symm.trans hfound)
      have hwriter : Filed writer.directory.blobs := by
        rw [hassembled.blobs]
        exact hfiled
      obtain ⟨hhashed, hcount, hpublish⟩ := @streamed codec _ hwriter _ _ hcopied
      obtain ⟨hlong, hhash⟩ := reference_isBlob hlower hbody hsame
      rw [hpieces] at hhashed hcount hpublish
      rw [hhashed] at hhash
      have hnonempty : bytes ≠ [] := by
        rintro rfl
        exact hlong hcount
      refine ⟨⟨hdigest, hnonempty, hbound, hhash⟩, ?_⟩
      rw [hpublish hnonempty, hhash, hassembled.blobs]
      exact hassembled.setBlobs _ _
  · cases h

/-- Nothing stops the copy of an intact blob of the source. -/
theorem copyBlob_ok (hpieces : ∀ bytes, (pieces bytes).flatten = bytes)
    (hfiled : Filed writer.directory.blobs) {entry : BlobEntry}
    (hlisted : Listed source.root entry)
    (hentry : CopiedEntry codec source.limits.maxBlobBytes entry)
    (hlimits : writer.limits = source.limits) (hword : source.limits.maxBlobBytes ≤ u64Max) :
    ∃ next, copyBlob codec pieces source writer entry = .ok next := by
  rcases entry with ⟨⟨suffix⟩ | ⟨digest⟩ | _, bytes⟩ | _
  · exact hentry.elim
  · obtain ⟨hname, hnonempty, hbound, hhash⟩ := hentry
    obtain ⟨hsize, hdigits, hcase⟩ := ensure_eq_ok.mp hname
    have hopen : Session.openBlob source { sha256 := digest, length := bytes.length } =
        .ok bytes := by
      rw [Session.openBlob, hname, ok_bind, ensure_of_true hbound, ok_bind,
        hlisted.lookup _ _ rfl, orFail_some, ok_bind, ensure_of_true rfl, ok_bind]
      rfl
    obtain ⟨copied, hcopied⟩ : ∃ copied, writePieces writer.beginBlob.1.directory
        writer.beginBlob.2 (pieces bytes) = .ok copied := by
      apply writePieces_ok
      · rw [hpieces]
        exact (Nat.zero_add _).trans_le (hbound.trans hword)
      · rw [hpieces]
        refine (Nat.zero_add _).trans_le (hbound.trans ?_)
        rw [← hlimits]
        rfl
    obtain ⟨hhashed, hcount, -⟩ := @streamed codec _ hfiled _ _ hcopied
    rw [hpieces] at hhashed hcount
    have hlong : copied.2.length ≠ 0 := by
      rw [hcount]
      exact fun hzero => hnonempty (List.length_eq_zero_iff.mp hzero)
    have hreference : copied.2.reference codec =
        .ok (.blob { sha256 := digest, length := copied.2.length }) := by
      rw [BodyWriter.reference, if_neg hlong, hhashed, hhash, BlobRef.new,
        ensure_of_true ⟨hsize, hdigits⟩, ← hcase]
      rfl
    have hnew : (BlobRef.new digest bytes.length).mapError StoreError.ofFlowError =
        .ok { sha256 := digest, length := bytes.length } := by
      rw [BlobRef.new, ensure_of_true ⟨hsize, hdigits⟩, ← hcase]
      rfl
    refine ⟨{ writer.beginBlob.1 with directory := copied.2.publish codec copied.1 }, ?_⟩
    rw [copyBlob, if_neg fun hskip => hnonempty hskip.2]
    show (validateDigest digest >>= _) = _
    rw [hname, ok_bind]
    show ((BlobRef.new digest bytes.length).mapError StoreError.ofFlowError >>= _) = _
    rw [hnew, ok_bind, hopen, ok_bind]
    show (writePieces _ _ _ >>= _) = _
    rw [hcopied, ok_bind, hreference, ok_bind]
    show (ensure (isBlob digest _) _ >>= _) = _
    rw [ensure_of_true (show isBlob digest (.blob ⟨digest, copied.2.length⟩) from rfl)]
    rfl
  · refine ⟨writer, ?_⟩
    rw [copyBlob, if_pos ⟨rfl, hentry⟩]
    rfl
  · exact hentry.elim

/-! ### The whole directory -/

theorem Listed.of_lists {root : Directory} {entries : List BlobEntry} (h : Lists root entries)
    {entry : BlobEntry} (hentry : entry ∈ entries) : Listed root entry := by
  have hmem : ∀ name bytes, entry = .file name bytes → (name, bytes) ∈ root.blobs := by
    rintro name bytes rfl
    exact h.files.mem_iff.mp (List.mem_filterMap.mpr ⟨_, hentry, rfl⟩)
  refine ⟨fun name bytes heq => ?_, fun bytes heq => ?_⟩
  · exact (lookup_nodup h.names).mpr (hmem name bytes heq)
  · exact h.marker _ (hmem _ bytes heq) rfl

theorem copyBlobs_eq_ok (hpieces : ∀ bytes, (pieces bytes).flatten = bytes)
    (hlower : LowercaseHex codec) {entries : List BlobEntry}
    (hlisted : ∀ entry ∈ entries, Listed source.root entry)
    (hassembled : Assembled limits metadata draft writer) (hfiled : Filed draft.blobs)
    (h : copyBlobNamespace codec pieces entries source writer = .ok next) :
    (∀ entry ∈ entries, CopiedEntry codec source.limits.maxBlobBytes entry) ∧
      Filed (entries.foldl fileEntry draft.blobs) ∧
      Assembled limits metadata
        { draft with blobs := entries.foldl fileEntry draft.blobs } next := by
  unfold copyBlobNamespace at h
  induction entries generalizing draft writer with
  | nil =>
      obtain rfl : writer = next := by simpa using h
      exact ⟨by simp, hfiled, hassembled⟩
  | cons entry rest ih =>
      rw [checkFold_cons, bind_eq_ok] at h
      obtain ⟨after, hafter, hrest⟩ := h
      obtain ⟨hentry, hstep⟩ :=
        copyBlob_eq_ok hpieces hlower hassembled hfiled (hlisted entry (by simp)) hafter
      obtain ⟨hothers, hfinal, hnext⟩ := ih (fun file hfile => hlisted file (by simp [hfile]))
        hstep (hfiled.fileEntry entry) hrest
      refine ⟨?_, hfinal, hnext⟩
      intro file hfile
      rcases List.mem_cons.mp hfile with rfl | hmem
      · exact hentry
      · exact hothers file hmem

theorem copyBlobs_ok (hpieces : ∀ bytes, (pieces bytes).flatten = bytes)
    (hlower : LowercaseHex codec) {entries : List BlobEntry}
    (hlisted : ∀ entry ∈ entries, Listed source.root entry)
    (hentries : ∀ entry ∈ entries, CopiedEntry codec source.limits.maxBlobBytes entry)
    (hassembled : Assembled source.limits metadata draft writer) (hfiled : Filed draft.blobs)
    (hword : source.limits.maxBlobBytes ≤ u64Max) :
    ∃ next, copyBlobNamespace codec pieces entries source writer = .ok next := by
  unfold copyBlobNamespace
  induction entries generalizing draft writer with
  | nil => exact ⟨writer, rfl⟩
  | cons entry rest ih =>
      have hwriter : Filed writer.directory.blobs := by
        rw [hassembled.blobs]
        exact hfiled
      obtain ⟨after, hafter⟩ := copyBlob_ok hpieces hwriter (hlisted entry (by simp))
        (hentries entry (by simp)) hassembled.limits_eq hword
      obtain ⟨-, hstep⟩ :=
        copyBlob_eq_ok hpieces hlower hassembled hfiled (hlisted entry (by simp)) hafter
      obtain ⟨final, hfinal⟩ := ih (fun file hfile => hlisted file (by simp [hfile]))
        (fun file hfile => hentries file (by simp [hfile])) hstep (hfiled.fileEntry entry)
      refine ⟨final, ?_⟩
      rw [checkFold_cons, hafter, ok_bind, hfinal]

end

/-! ### What the loop files -/

@[simp] theorem filterMap_file (name : BlobName) (bytes : Bytes) (rest : List BlobEntry) :
    (BlobEntry.file name bytes :: rest).filterMap BlobEntry.file? =
      (name, bytes) :: rest.filterMap BlobEntry.file? := rfl

theorem lookup_singleton_other {name other : BlobName} (h : name ≠ other) (bytes : Bytes) :
    [(other, bytes)].lookup name = none := by
  rw [List.lookup_cons, beq_eq_false_iff_ne.mpr h]
  rfl

/-- A digest that is already taken keeps its content. -/
theorem lookup_fileBlob (blobs : Blobs) (digest target : String) (bytes : Bytes) :
    (fileBlob target bytes blobs).lookup (.content digest) =
      (blobs.lookup (.content digest)).or
        ([(BlobName.content target, bytes)].lookup (.content digest)) := by
  rw [fileBlob]
  by_cases hsame : digest = target
  · subst hsame
    generalize hstored : blobs.lookup (.content digest) = stored
    rcases stored with _ | found
    · show ((BlobName.content digest, bytes) :: blobs).lookup _ = [(_, bytes)].lookup _
      rw [List.lookup_cons_self, List.lookup_cons_self]
    · exact hstored
  · have hne : BlobName.content digest ≠ .content target := by simpa using hsame
    rw [lookup_singleton_other hne, Option.or_none]
    split
    · rfl
    · rw [List.lookup_cons, beq_eq_false_iff_ne.mpr hne]

theorem lookup_fileEntry (blobs : Blobs) (entry : BlobEntry) (digest : String) :
    (fileEntry blobs entry).lookup (.content digest) =
      (blobs.lookup (.content digest)).or (entry.file?.toList.lookup (.content digest)) := by
  rcases entry with ⟨⟨suffix⟩ | ⟨target⟩ | _, bytes⟩ | _
  · rw [BlobEntry.file?, Option.toList_some, lookup_singleton_other (by simp), Option.or_none]
    rfl
  · exact lookup_fileBlob blobs digest target bytes
  · rw [BlobEntry.file?, Option.toList_some, lookup_singleton_other (by simp), Option.or_none]
    rfl
  · exact (Option.or_none).symm

theorem lookup_append {α β : Type} [BEq α] (left right : List (α × β)) (name : α) :
    (left ++ right).lookup name = (left.lookup name).or (right.lookup name) := by
  induction left with
  | nil => rfl
  | cons entry rest ih =>
      rw [List.cons_append, List.lookup_cons, List.lookup_cons]
      split
      · rfl
      · exact ih

theorem lookup_fileEntries (entries : List BlobEntry) (blobs : Blobs) (digest : String) :
    (entries.foldl fileEntry blobs).lookup (.content digest) =
      (blobs.lookup (.content digest)).or
        ((entries.filterMap BlobEntry.file?).lookup (.content digest)) := by
  induction entries generalizing blobs with
  | nil => simp
  | cons entry rest ih =>
      rw [List.foldl_cons, ih, lookup_fileEntry, Option.or_assoc, ← lookup_append]
      rcases hfile : entry.file? with _ | file
      · rw [List.filterMap_cons_none hfile]
        rfl
      · rw [List.filterMap_cons_some hfile]
        rfl

end EggReplay.Store.CopiedBlobs
