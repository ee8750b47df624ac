import EggReplay.Store.Staging

/-!
Body writers as what they write: the content that a staging file grows to, and the contents
that stand under their digests once a body is published.
-/

namespace EggReplay.Store.BlobContents

open EggReplay.Library.Checks
open EggReplay.Library.Text
open EggReplay.Core.FlowRecord
open EggReplay.Core.StreamTimeline
open EggReplay.Store.Fixture
open EggReplay.Store.SessionOpen
open EggReplay.Store.Staging

/-- The published contents, by digest. -/
abbrev Contents := String → Option Bytes

def contents (root : Directory) : Contents := fun digest => root.blob? (.content digest)

/-- A content that stands under its digest is not written again. -/
def Contents.file (codec : Codec) (stored : Contents) (content : Bytes) : Contents :=
  if content = [] then stored
  else if (stored (codec.sha256Hex content)).isSome = true then stored
  else Function.update stored (codec.sha256Hex content) (some content)

def grow (maxBlobBytes : Nat) (content buffer : Bytes) : Except StoreError Bytes := do
  ensure (content.length + buffer.length ≤ u64Max) (.io "body length overflow")
  ensure (content.length + buffer.length ≤ maxBlobBytes) (.io "body exceeds configured limit")
  pure (content ++ buffer)

def reference (codec : Codec) (content : Bytes) : Except StoreError BodyRef :=
  if content = [] then pure .empty
  else do
    let blob ← (BlobRef.new (codec.sha256Hex content) content.length).mapError
      StoreError.ofFlowError
    pure (.blob blob)

def boundedContent (maxBytes : Nat) (content : Bytes) : Except StoreError Bytes := do
  ensure (content.length ≤ maxBytes) (.invalid "staged body exceeds structured redaction limit")
  pure content

/-- The writer's file holds the content, and the writer has counted and hashed it. -/
structure Stages (maxBlobBytes : Nat) (writer : BodyWriter) (content : Bytes)
    (root : Directory) : Prop where
  hashed : writer.hashed = content
  length : writer.length = content.length
  limit : writer.maxBytes = maxBlobBytes
  file : root.blob? (.staging writer.suffix) = some content

/-! ### The entries of a directory -/

theorem lookup_map_value {blobs : List (BlobName × Bytes)} (f : BlobName → Bytes → Bytes)
    (name : BlobName) :
    (blobs.map fun entry => (entry.1, f entry.1 entry.2)).lookup name =
      (blobs.lookup name).map (f name) := by
  induction blobs with
  | nil => rfl
  | cons entry rest ih =>
      rw [List.map_cons, List.lookup_cons, List.lookup_cons]
      rcases hname : name == entry.1 with _ | _
      · exact ih
      · rw [eq_of_beq hname]
        rfl

theorem lookup_filter_other {blobs : List (BlobName × Bytes)} {name other : BlobName}
    (h : other ≠ name) :
    (blobs.filter fun entry => decide (entry.1 ≠ name)).lookup other = blobs.lookup other := by
  induction blobs with
  | nil => rfl
  | cons entry rest ih =>
      by_cases hentry : entry.1 = name
      · rw [List.filter_cons_of_neg (by simpa using hentry), ih, List.lookup_cons]
        have hother : (other == entry.1) = false := by
          simpa [hentry] using h
        rw [hother]
      · rw [List.filter_cons_of_pos (by simpa using hentry), List.lookup_cons,
          List.lookup_cons, ih]

theorem lookup_rename_other {blobs : List (BlobName × Bytes)} {name target other : BlobName}
    (hname : other ≠ name) (htarget : other ≠ target) :
    (blobs.map fun entry => if entry.1 = name then (target, entry.2) else entry).lookup other =
      blobs.lookup other := by
  induction blobs with
  | nil => rfl
  | cons entry rest ih =>
      rw [List.map_cons, List.lookup_cons]
      by_cases hentry : entry.1 = name
      · have hleft : (other == target) = false := by simpa using htarget
        have hright : (other == entry.1) = false := by simpa [hentry] using hname
        rw [if_pos hentry, List.lookup_cons, hleft, hright]
        exact ih
      · rw [if_neg hentry, List.lookup_cons, ih]

theorem lookup_rename_target {blobs : List (BlobName × Bytes)} {name target : BlobName}
    (h : blobs.lookup target = none) :
    (blobs.map fun entry => if entry.1 = name then (target, entry.2) else entry).lookup target =
      blobs.lookup name := by
  induction blobs with
  | nil => rfl
  | cons entry rest ih =>
      rw [List.lookup_cons] at h
      rcases htarget : target == entry.1 with _ | _
      · rw [htarget] at h
        rw [List.map_cons, List.lookup_cons]
        by_cases hentry : entry.1 = name
        · rw [if_pos hentry, List.lookup_cons, beq_self_eq_true, ← hentry, beq_self_eq_true]
        · have hname : (name == entry.1) = false := by simpa using fun h => hentry h.symm
          rw [if_neg hentry, List.lookup_cons, htarget, hname]
          exact ih h
      · rw [htarget] at h
        cases h

/-! ### Published contents -/

@[simp] theorem contents_createBlob (root : Directory) (suffix : Nat) :
    contents (root.createBlob (.staging suffix)) = contents root := by
  funext digest
  have hother : (BlobName.content digest == BlobName.staging suffix) = false := by simp
  rw [contents, contents, Directory.blob?, Directory.createBlob, List.lookup_cons, hother]
  rfl

@[simp] theorem contents_extendBlob (root : Directory) (suffix : Nat) (buffer : Bytes) :
    contents (root.extendBlob (.staging suffix) buffer) = contents root := by
  funext digest
  have hmap : (fun entry : BlobName × Bytes =>
      if entry.1 = .staging suffix then (entry.1, entry.2 ++ buffer) else entry) =
      fun entry => (entry.1, if entry.1 = .staging suffix then entry.2 ++ buffer else entry.2) := by
    funext entry
    split <;> rfl
  rw [contents, contents, Directory.blob?, Directory.extendBlob, hmap]
  rw [lookup_map_value fun name bytes => if name = .staging suffix then bytes ++ buffer else bytes]
  simp [Directory.blob?]

@[simp] theorem contents_removeBlob (root : Directory) (suffix : Nat) :
    contents (root.removeBlob (.staging suffix)) = contents root := by
  funext digest
  exact lookup_filter_other (by simp)

theorem blob?_extendBlob (root : Directory) (name : BlobName) (buffer : Bytes) :
    (root.extendBlob name buffer).blob? name = (root.blob? name).map (· ++ buffer) := by
  have hmap : (fun entry : BlobName × Bytes =>
      if entry.1 = name then (entry.1, entry.2 ++ buffer) else entry) =
      fun entry => (entry.1, if entry.1 = name then entry.2 ++ buffer else entry.2) := by
    funext entry
    split <;> rfl
  rw [Directory.blob?, Directory.extendBlob, hmap]
  rw [lookup_map_value fun other bytes => if other = name then bytes ++ buffer else bytes]
  simp [Directory.blob?]

/-! ### Body writers -/

theorem publish_files (codec : Codec) (root : Directory) (body : BodyWriter) :
    (body.publish codec root).files = root.files := by
  rw [BodyWriter.publish]
  split
  · rfl
  · split
    · rfl
    · rfl

section

variable {maxBlobBytes : Nat} {writer : BodyWriter} {content : Bytes} {root : Directory}

theorem stages_open (suffix : Nat) :
    Stages maxBlobBytes (BodyWriter.open suffix maxBlobBytes) []
      (root.createBlob (.staging suffix)) where
  hashed := rfl
  length := rfl
  limit := rfl
  file := by simp [BodyWriter.open, Directory.blob?, Directory.createBlob]

theorem Stages.congr {next : Directory} (h : Stages maxBlobBytes writer content root)
    (hblobs : next.blobs = root.blobs) : Stages maxBlobBytes writer content next where
  hashed := h.hashed
  length := h.length
  limit := h.limit
  file := by
    rw [Directory.blob?, hblobs]
    exact h.file

/-- A write succeeds exactly when the content may grow, and then the file holds the longer
content. -/
theorem Stages.write (h : Stages maxBlobBytes writer content root) (buffer : Bytes) :
    (∃ next, grow maxBlobBytes content buffer = .ok (content ++ buffer) ∧
      writer.write root buffer = .ok (root.extendBlob (.staging writer.suffix) buffer, next) ∧
      Stages maxBlobBytes next (content ++ buffer)
        (root.extendBlob (.staging writer.suffix) buffer)) ∨
    ∃ error, grow maxBlobBytes content buffer = .error error ∧
      writer.write root buffer = .error error := by
  rw [BodyWriter.write, grow, h.length, h.limit]
  by_cases hoverflow : content.length + buffer.length ≤ u64Max
  · rw [ensure_of_true hoverflow]
    by_cases hlimit : content.length + buffer.length ≤ maxBlobBytes
    · left
      rw [ensure_of_true hlimit]
      refine ⟨⟨writer.suffix, writer.hashed ++ buffer, content.length + buffer.length,
        maxBlobBytes⟩, rfl, rfl, ?_, ?_, rfl, ?_⟩
      · rw [h.hashed]
      · rw [List.length_append]
      · rw [blob?_extendBlob, h.file]
        rfl
    · right
      rw [ensure_of_false hlimit]
      exact ⟨_, rfl, rfl⟩
  · right
    rw [ensure_of_false hoverflow]
    exact ⟨_, rfl, rfl⟩

theorem Stages.write_ok (h : Stages maxBlobBytes writer content root) {buffer longer : Bytes}
    (hgrow : grow maxBlobBytes content buffer = .ok longer) :
    ∃ next, writer.write root buffer =
        .ok (root.extendBlob (.staging writer.suffix) buffer, next) ∧
      Stages maxBlobBytes next longer (root.extendBlob (.staging writer.suffix) buffer) := by
  rcases h.write buffer with ⟨next, hcontent, hwrite, hnext⟩ | ⟨error, hrejected, -⟩
  · rw [hgrow] at hcontent
    cases hcontent
    exact ⟨next, hwrite, hnext⟩
  · rw [hgrow] at hrejected
    cases hrejected

theorem Stages.write_error (h : Stages maxBlobBytes writer content root) {buffer : Bytes}
    {error : StoreError} (hgrow : grow maxBlobBytes content buffer = .error error) :
    writer.write root buffer = .error error := by
  rcases h.write buffer with ⟨next, hcontent, -, -⟩ | ⟨other, hrejected, hwrite⟩
  · rw [hgrow] at hcontent
    cases hcontent
  · rw [hgrow] at hrejected
    cases hrejected
    exact hwrite

theorem Stages.readStagingBounded (h : Stages maxBlobBytes writer content root)
    (maxBytes : Nat) :
    writer.readStagingBounded root maxBytes = boundedContent maxBytes content := by
  rw [BodyWriter.readStagingBounded, boundedContent, h.length, h.file, orFail_some, ok_bind,
    ensure_of_true rfl]
  rfl

theorem Stages.reference (h : Stages maxBlobBytes writer content root) (codec : Codec) :
    writer.reference codec = reference codec content := by
  rw [BodyWriter.reference, BlobContents.reference, h.hashed, h.length]
  simp only [List.length_eq_zero_iff]

theorem Stages.contents_publish (h : Stages maxBlobBytes writer content root) (codec : Codec) :
    contents (writer.publish codec root) = (contents root).file codec content := by
  rw [BodyWriter.publish, Contents.file, h.hashed, h.length]
  by_cases hempty : content = []
  · rw [if_pos hempty, if_pos (List.length_eq_zero_iff.mpr hempty), contents_removeBlob]
  · rw [if_neg hempty, if_neg fun hlength => hempty (List.length_eq_zero_iff.mp hlength)]
    by_cases hstored : (root.blob? (.content (codec.sha256Hex content))).isSome = true
    · have hfiled : (contents root (codec.sha256Hex content)).isSome = true := hstored
      rw [if_pos hstored, contents_removeBlob, if_pos hfiled]
    · have hfree : ¬(contents root (codec.sha256Hex content)).isSome = true := hstored
      rw [if_neg hstored, if_neg hfree]
      funext digest
      by_cases hdigest : digest = codec.sha256Hex content
      · subst hdigest
        rw [Function.update_self, ← h.file]
        exact lookup_rename_target (Option.not_isSome_iff_eq_none.mp hstored)
      · rw [Function.update_of_ne hdigest]
        exact lookup_rename_other (by simp) (by simpa using hdigest)

theorem contents_drop (writer : BodyWriter) (root : Directory) :
    contents (writer.drop root) = contents root :=
  contents_removeBlob root writer.suffix

end

/-! ### What is filed -/

theorem grow_eq_ok {maxBlobBytes : Nat} {content buffer longer : Bytes}
    (h : grow maxBlobBytes content buffer = .ok longer) : longer = content ++ buffer := by
  simp only [grow, bind_unit_eq_ok, pure_eq_ok] at h
  exact h.2.2.symm

theorem grow_length_le {maxBlobBytes : Nat} {content buffer longer : Bytes}
    (h : grow maxBlobBytes content buffer = .ok longer) : longer.length ≤ u64Max := by
  simp only [grow, bind_unit_eq_ok, ensure_eq_ok, pure_eq_ok] at h
  rw [← h.2.2, List.length_append]
  exact h.1

/-- A reference has the length of what it is for. -/
theorem reference_len {codec : Codec} {content : Bytes} {body : BodyRef}
    (h : reference codec content = .ok body) : body.len = some content.length := by
  rw [reference] at h
  by_cases hempty : content = []
  · rw [if_pos hempty] at h
    cases h
    rw [hempty]
    rfl
  · rw [if_neg hempty] at h
    simp only [bind_eq_ok, mapError_eq_ok, BlobRef.new, pure_eq_ok] at h
    obtain ⟨blob, ⟨_, -, rfl⟩, rfl⟩ := h
    rfl

theorem Contents.file_mono (codec : Codec) {stored : Contents} {digest : String}
    {bytes content : Bytes} (h : stored digest = some bytes) :
    stored.file codec content digest = some bytes := by
  rw [Contents.file]
  split
  · exact h
  · split
    · exact h
    · rename_i hfree
      rw [Function.update_of_ne, h]
      rintro rfl
      rw [h] at hfree
      exact hfree rfl

/-- After the filing, the content's digest is taken: by the content itself, unless it was
taken before. -/
theorem Contents.file_digest (codec : Codec) (stored : Contents) {content : Bytes}
    (hcontent : content ≠ []) :
    stored.file codec content (codec.sha256Hex content) =
      some ((stored (codec.sha256Hex content)).getD content) := by
  rw [Contents.file, if_neg hcontent]
  rcases hstored : stored (codec.sha256Hex content) with _ | bytes
  · simp
  · simp [hstored]

end EggReplay.Store.BlobContents
