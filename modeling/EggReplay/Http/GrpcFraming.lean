import EggReplay.Library.Checks
import EggReplay.Library.Envelopes

/-!
The frames of a gRPC body: the loop over length-prefixed envelopes, what it accepts, and what of
a body its frames give back.
-/

namespace EggReplay.Http.GrpcFraming

open EggReplay.Library.Checks
open EggReplay.Library.Envelopes
open EggReplay.Library.Text (Bytes)

def grpcMaxBodyBytes : Nat := 16 * 1024 * 1024

def grpcMaxFrames : Nat := 4096

inductive GrpcError where
  | tooLarge
  | tooManyFrames
  | truncated
  | overrun
  | trailingBytes
  deriving DecidableEq, Repr

structure GrpcFrame where
  index : Nat
  compressed : Bool
  length : Nat
  payload : Bytes
  deriving DecidableEq, Repr

/-- The loop from an offset on. The body is bounded, so that no sum here overflows a word. -/
def parseFrom (body : Bytes) (offset : Nat) (frames : List GrpcFrame) :
    Except GrpcError (List GrpcFrame) :=
  if offset < body.length then
    if grpcMaxFrames ≤ frames.length then .error .tooManyFrames
    else
      match body.drop offset with
      | flags :: a :: b :: c :: d :: _ =>
          let length := fromBeBytes a b c d
          let payloadStart := offset + 5
          if payloadStart + length ≤ body.length then
            parseFrom body (payloadStart + length) (frames ++
              [{ index := frames.length
                 compressed := decide (flags &&& 1 = 1)
                 length
                 payload := (body.drop payloadStart).take length }])
          else .error .overrun
      | _ => .error .truncated
  else if offset ≠ body.length then .error .trailingBytes
  else .ok frames
termination_by body.length - offset

def parseGrpcFrames (body : Bytes) : Except GrpcError (List GrpcFrame) := do
  ensure (body.length ≤ grpcMaxBodyBytes) .tooLarge
  parseFrom body 0 []

/-! ### What the loop reads -/

def frameOf (index : Nat) (envelope : Envelope) : GrpcFrame where
  index
  compressed := decide (envelope.flags &&& 1 = 1)
  length := envelope.payload.length
  payload := envelope.payload

def framesOf : Nat → List Envelope → List GrpcFrame
  | _, [] => []
  | index, envelope :: rest => frameOf index envelope :: framesOf (index + 1) rest

section

variable {body : Bytes} {offset : Nat} {frames : List GrpcFrame}

theorem parseFrom_end (h : offset = body.length) : parseFrom body offset frames = .ok frames := by
  rw [parseFrom, if_neg (by omega), if_neg (by simpa using h)]

/-- One turn of the loop at an envelope. -/
theorem parseFrom_envelope {envelope : Envelope} {rest : Bytes}
    (h : body.drop offset = envelope.encode ++ rest) :
    parseFrom body offset frames =
      if grpcMaxFrames ≤ frames.length then .error .tooManyFrames
      else parseFrom body (offset + envelope.encode.length)
        (frames ++ [frameOf frames.length envelope]) := by
  have hsize := congrArg List.length h
  rw [List.length_drop, List.length_append, encode_length] at hsize
  have hwithin : offset < body.length := by omega
  have hpayload : (body.drop (offset + 5)).take envelope.payload.length = envelope.payload := by
    rw [← List.drop_drop, h]
    exact List.take_left
  have hread : envelope.encode ++ rest = envelope.flags ::
      UInt8.ofNat (envelope.payload.length / 16777216) ::
      UInt8.ofNat (envelope.payload.length / 65536) ::
      UInt8.ofNat (envelope.payload.length / 256) ::
      UInt8.ofNat envelope.payload.length :: (envelope.payload ++ rest) := rfl
  have hfits : offset + 5 + envelope.payload.length ≤ body.length := by omega
  rw [parseFrom, if_pos hwithin, h, hread]
  simp only [fromBeBytes_toBeBytes envelope.bounded]
  rw [if_pos hfits, hpayload, encode_length, ← Nat.add_assoc]
  rfl

/-- Where no envelope stands the loop fails. -/
theorem parseFrom_broken (hwithin : offset < body.length)
    (h : readEnvelope (body.drop offset) = none) :
    ∃ error, parseFrom body offset frames = .error error := by
  have hsize : (body.drop offset).length = body.length - offset := List.length_drop
  rw [parseFrom, if_pos hwithin]
  split
  · exact ⟨_, rfl⟩
  · split
    · rename_i flags a b c d rest heq
      rw [heq, readEnvelope] at h
      rw [heq] at hsize
      simp only [List.length_cons] at hsize
      split at h
      · cases h
      · rename_i hshort
        rw [if_neg (by omega)]
        exact ⟨_, rfl⟩
    · exact ⟨_, rfl⟩

theorem parseFrom_encodeAll {envelopes : List Envelope}
    (hbody : body.drop offset = encodeAll envelopes) (hoffset : offset ≤ body.length)
    (hcount : frames.length + envelopes.length ≤ grpcMaxFrames) :
    parseFrom body offset frames = .ok (frames ++ framesOf frames.length envelopes) := by
  induction envelopes generalizing offset frames with
  | nil =>
      rw [encodeAll_nil, List.drop_eq_nil_iff] at hbody
      rw [parseFrom_end (Nat.le_antisymm hoffset hbody), framesOf, List.append_nil]
  | cons envelope rest ih =>
      rw [encodeAll_cons] at hbody
      rw [List.length_cons] at hcount
      have hafter : body.drop (offset + envelope.encode.length) = encodeAll rest := by
        rw [← List.drop_drop, hbody]
        exact List.drop_left
      have hsize := congrArg List.length hbody
      rw [List.length_drop, List.length_append] at hsize
      have hmore : (frames ++ [frameOf frames.length envelope]).length = frames.length + 1 := by
        rw [List.length_append, List.length_singleton]
      have henc := encode_length envelope
      rw [parseFrom_envelope hbody, if_neg (by omega),
        ih hafter (by omega) (by rw [hmore]; omega), hmore, List.append_assoc]
      rfl

theorem encodeAll_of_parseFrom {result : List GrpcFrame} (hoffset : offset ≤ body.length)
    (h : parseFrom body offset frames = .ok result) (hframes : frames.length ≤ grpcMaxFrames) :
    ∃ envelopes, body.drop offset = encodeAll envelopes ∧
      frames.length + envelopes.length ≤ grpcMaxFrames ∧
      result = frames ++ framesOf frames.length envelopes := by
  -- each turn takes at least an envelope's head off what is left
  induction hleft : body.length - offset using Nat.strong_induction_on generalizing offset frames
  rename_i left ih
  rcases Nat.lt_or_eq_of_le hoffset with hwithin | hend
  · generalize hread : readEnvelope (body.drop offset) = found at h
    cases found with
    | none =>
        obtain ⟨error, herror⟩ := @parseFrom_broken body offset frames hwithin hread
        rw [herror] at h
        cases h
    | some found =>
        have hdrop := readEnvelope_eq_some hread
        have hsize := congrArg List.length hdrop
        rw [List.length_drop, List.length_append] at hsize
        have henc := encode_length found.1
        rw [parseFrom_envelope hdrop] at h
        split at h
        · cases h
        · rename_i hroom
          have hmore : (frames ++ [frameOf frames.length found.1]).length = frames.length + 1 := by
            rw [List.length_append, List.length_singleton]
          obtain ⟨rest, hrest, hcount, hresult⟩ :=
            ih (body.length - (offset + found.1.encode.length)) (by omega) (by omega) h
              (by omega) rfl
          refine ⟨found.1 :: rest, ?_, ?_, ?_⟩
          · rw [encodeAll_cons, ← hrest, ← List.drop_drop, hdrop, List.drop_left]
          · rw [List.length_cons]
            omega
          · rw [hresult, hmore, List.append_assoc]
            rfl
  · rw [parseFrom_end hend] at h
    cases h
    refine ⟨[], ?_, ?_, ?_⟩
    · rw [encodeAll_nil, List.drop_eq_nil_iff]
      omega
    · exact hframes
    · rw [framesOf, List.append_nil]

end

/-- A body is parsed when it is a sequence of envelopes, whatever their flags. -/
theorem parseGrpcFrames_eq_ok_iff {body : Bytes} {frames : List GrpcFrame} :
    parseGrpcFrames body = .ok frames ↔ body.length ≤ grpcMaxBodyBytes ∧
      ∃ envelopes, body = encodeAll envelopes ∧ envelopes.length ≤ grpcMaxFrames ∧
        frames = framesOf 0 envelopes := by
  rw [parseGrpcFrames, bind_eq_ok]
  constructor
  · rintro ⟨_, hsize, hparse⟩
    refine ⟨ensure_eq_ok.mp hsize, ?_⟩
    obtain ⟨envelopes, hbody, hcount, hresult⟩ :=
      encodeAll_of_parseFrom (Nat.zero_le _) hparse (Nat.zero_le _)
    rw [List.length_nil, Nat.zero_add] at hcount
    exact ⟨envelopes, hbody, hcount, hresult⟩
  · rintro ⟨hsize, envelopes, hbody, hcount, rfl⟩
    have hdrop : body.drop 0 = encodeAll envelopes := hbody
    have hroom : ([] : List GrpcFrame).length + envelopes.length ≤ grpcMaxFrames := by
      rw [List.length_nil, Nat.zero_add]
      exact hcount
    exact ⟨(), ensure_eq_ok.mpr hsize, parseFrom_encodeAll hdrop (Nat.zero_le _) hroom⟩

/-! ### Encoding again -/

def encodeFrame (frame : GrpcFrame) : Bytes :=
  (if frame.compressed = true then 1 else 0) :: (toBeBytes frame.length ++ frame.payload)

def encodeFrames (frames : List GrpcFrame) : Bytes := frames.flatMap encodeFrame

/-- Frames in their order, with the lengths of their payloads. -/
structure Framed (frames : List GrpcFrame) : Prop where
  count : frames.length ≤ grpcMaxFrames
  indices : frames.map GrpcFrame.index = List.range frames.length
  lengths : ∀ frame ∈ frames, frame.length = frame.payload.length ∧ frame.length < 4294967296

/-- What a frame keeps of an envelope. -/
def lowFlag (envelope : Envelope) : Envelope :=
  { envelope with flags := envelope.flags &&& 1 }

section

variable {envelopes : List Envelope}

theorem and_one_toNat (flags : UInt8) : (flags &&& 1).toNat = flags.toNat % 2 := by
  rw [UInt8.toNat_and]
  exact Nat.and_one_is_mod flags.toNat

theorem and_one_cases (flags : UInt8) : flags &&& 1 = 0 ∨ flags &&& 1 = 1 := by
  have hnat := and_one_toNat flags
  rcases Nat.mod_two_eq_zero_or_one flags.toNat with hzero | hone
  · refine .inl (UInt8.toNat_inj.mp ?_)
    rw [hnat, hzero]
    rfl
  · refine .inr (UInt8.toNat_inj.mp ?_)
    rw [hnat, hone]
    rfl

theorem encodeFrame_frameOf (index : Nat) (envelope : Envelope) :
    encodeFrame (frameOf index envelope) = (lowFlag envelope).encode := by
  have hflag : (if (frameOf index envelope).compressed = true then (1 : UInt8) else 0) =
      envelope.flags &&& 1 := by
    rcases and_one_cases envelope.flags with hzero | hone
    · rw [frameOf, hzero]
      rfl
    · rw [frameOf, hone]
      rfl
  rw [encodeFrame, hflag]
  rfl

theorem encodeFrames_framesOf (index : Nat) (envelopes : List Envelope) :
    encodeFrames (framesOf index envelopes) = encodeAll (envelopes.map lowFlag) := by
  induction envelopes generalizing index with
  | nil => rfl
  | cons envelope rest ih =>
      rw [framesOf, encodeFrames, List.flatMap_cons, encodeFrame_frameOf, List.map_cons,
        encodeAll_cons, ← ih (index + 1)]
      rfl

theorem lowFlag_eq_self {envelope : Envelope} :
    lowFlag envelope = envelope ↔ envelope.flags = 0 ∨ envelope.flags = 1 := by
  constructor
  · intro h
    have hflags : envelope.flags &&& 1 = envelope.flags := congrArg Envelope.flags h
    rw [← hflags]
    exact and_one_cases envelope.flags
  · rintro (hzero | hone)
    · apply Envelope.ext
      · rw [lowFlag, hzero]
        rfl
      · rfl
    · apply Envelope.ext
      · rw [lowFlag, hone]
        rfl
      · rfl

theorem map_lowFlag_eq_self :
    envelopes.map lowFlag = envelopes ↔
      ∀ envelope ∈ envelopes, envelope.flags = 0 ∨ envelope.flags = 1 := by
  have hsame := @List.map_inj_left _ _ envelopes lowFlag id
  rw [List.map_id] at hsame
  simp only [← lowFlag_eq_self]
  exact hsame

/-- The frames give the octets back if no envelope has a flag beside the lowest. -/
theorem encodeFrames_eq_iff (index : Nat) :
    encodeFrames (framesOf index envelopes) = encodeAll envelopes ↔
      ∀ envelope ∈ envelopes, envelope.flags = 0 ∨ envelope.flags = 1 := by
  rw [encodeFrames_framesOf, ← map_lowFlag_eq_self]
  constructor
  · exact encodeAll_inj
  · intro h
    rw [h]

/-- Every list of frames comes of envelopes with no flag beside the lowest. -/
theorem exists_framesOf {frames : List GrpcFrame} {index : Nat}
    (hindices : frames.map GrpcFrame.index = List.range' index frames.length)
    (hlengths : ∀ frame ∈ frames,
      frame.length = frame.payload.length ∧ frame.length < 4294967296) :
    ∃ envelopes, framesOf index envelopes = frames ∧ encodeAll envelopes = encodeFrames frames ∧
      envelopes.length = frames.length := by
  induction frames generalizing index with
  | nil => exact ⟨[], rfl, rfl, rfl⟩
  | cons frame rest ih =>
      rw [List.map_cons, List.length_cons, List.range'_succ, List.cons.injEq] at hindices
      obtain ⟨hlength, hbound⟩ := hlengths frame List.mem_cons_self
      obtain ⟨envelopes, hframes, hencode, hcount⟩ := ih hindices.2
        fun other hother => hlengths other (List.mem_cons_of_mem _ hother)
      let envelope : Envelope :=
        { flags := if frame.compressed = true then 1 else 0
          payload := frame.payload
          bounded := by
            rw [← hlength]
            exact hbound }
      have hflag : decide (envelope.flags &&& 1 = 1) = frame.compressed := by
        show decide ((if frame.compressed = true then (1 : UInt8) else 0) &&& 1 = 1) = _
        cases frame.compressed with
        | false => rfl
        | true => rfl
      have hframe : frameOf index envelope = frame := by
        rw [frameOf, hflag, ← hindices.1, ← hlength]
      refine ⟨envelope :: envelopes, ?_, ?_, ?_⟩
      · rw [framesOf, hframe, hframes]
      · rw [encodeAll_cons, hencode, Envelope.encode, ← hlength]
        rfl
      · rw [List.length_cons, List.length_cons, hcount]

end

/-! ### Exact framing -/

/-- A sequence of envelopes, no more than a body may have. -/
def Enveloped (body : Bytes) (envelopes : List Envelope) : Prop :=
  body = encodeAll envelopes ∧ envelopes.length ≤ grpcMaxFrames

/-- What is parsed is what frames encode, and nothing else. -/
structure Exact (body : Bytes) : Prop where
  accepted : (∃ frames, parseGrpcFrames body = .ok frames) ↔
    ∃ envelopes, Enveloped body envelopes ∧
      ∀ envelope ∈ envelopes, envelope.flags = 0 ∨ envelope.flags = 1
  encoded : ∀ frames, parseGrpcFrames body = .ok frames → encodeFrames frames = body
  parsed : ∀ frames, Framed frames → encodeFrames frames = body → parseGrpcFrames body = .ok frames

/-- An envelope has a flag that frames do not have. -/
def StrayFlag (body : Bytes) : Prop :=
  ∃ envelopes, Enveloped body envelopes ∧
    ∃ envelope ∈ envelopes, envelope.flags ≠ 0 ∧ envelope.flags ≠ 1

theorem parse_envelopes {body : Bytes} {envelopes : List Envelope}
    (hsize : body.length ≤ grpcMaxBodyBytes) (h : Enveloped body envelopes) :
    parseGrpcFrames body = .ok (framesOf 0 envelopes) :=
  parseGrpcFrames_eq_ok_iff.mpr ⟨hsize, envelopes, h.1, h.2, rfl⟩

/-- The frames of a body are exact just where no envelope has a stray flag. -/
theorem exact_iff (body : Bytes) (hsize : body.length ≤ grpcMaxBodyBytes) :
    Exact body ↔ ¬StrayFlag body := by
  constructor
  · rintro hexact ⟨envelopes, henvelopes, envelope, hmem, hzero, hone⟩
    have hencoded := hexact.encoded _ (parse_envelopes hsize henvelopes)
    rw [henvelopes.1, encodeFrames_eq_iff] at hencoded
    rcases hencoded envelope hmem with hflags | hflags
    · exact hzero hflags
    · exact hone hflags
  · intro hstray
    have hflags : ∀ envelopes, Enveloped body envelopes →
        ∀ envelope ∈ envelopes, envelope.flags = 0 ∨ envelope.flags = 1 := by
      intro envelopes henvelopes envelope hmem
      by_contra hneither
      rw [not_or] at hneither
      exact hstray ⟨envelopes, henvelopes, envelope, hmem, hneither⟩
    refine ⟨⟨?_, ?_⟩, ?_, ?_⟩
    · rintro ⟨frames, hparse⟩
      obtain ⟨_, envelopes, hbody, hcount, _⟩ := parseGrpcFrames_eq_ok_iff.mp hparse
      exact ⟨envelopes, ⟨hbody, hcount⟩, hflags envelopes ⟨hbody, hcount⟩⟩
    · rintro ⟨envelopes, henvelopes, _⟩
      exact ⟨_, parse_envelopes hsize henvelopes⟩
    · intro frames hparse
      obtain ⟨_, envelopes, hbody, hcount, rfl⟩ := parseGrpcFrames_eq_ok_iff.mp hparse
      have hencoded := (encodeFrames_eq_iff 0).mpr (hflags envelopes ⟨hbody, hcount⟩)
      rw [hencoded, hbody]
    · intro frames hframed hencoded
      have hindices := hframed.indices
      rw [List.range_eq_range'] at hindices
      obtain ⟨envelopes, hframes, hencode, hcount⟩ := exists_framesOf hindices hframed.lengths
      rw [← hframes]
      apply parse_envelopes hsize
      rw [Enveloped, hencode, hcount]
      exact ⟨hencoded.symm, hframed.count⟩

/-- One compressed frame with an octet. -/
theorem compressed_octet_exact : Exact [1, 0, 0, 0, 1, 7] := by
  apply (exact_iff [1, 0, 0, 0, 1, 7] (by decide)).mpr
  rintro ⟨envelopes, ⟨hbody, _⟩, envelope, hmem, _, hone⟩
  have honly : encodeAll envelopes = encodeAll [⟨1, [7], by decide⟩] := hbody.symm
  rw [encodeAll_inj honly, List.mem_singleton] at hmem
  rw [hmem] at hone
  exact hone rfl

/-- A flag of another bit is read as no flag. -/
theorem stray_flag_reinterpreted : ¬Exact [2, 0, 0, 0, 0] := by
  intro hexact
  have henveloped : Enveloped [2, 0, 0, 0, 0] [⟨2, [], by decide⟩] := ⟨by decide, by decide⟩
  have hparse : parseGrpcFrames [2, 0, 0, 0, 0] =
      .ok [{ index := 0, compressed := false, length := 0, payload := [] }] :=
    parse_envelopes (by decide) henveloped
  have hencoded := hexact.encoded _ hparse
  exact absurd hencoded (by decide)

end EggReplay.Http.GrpcFraming
