import EggReplay.Library.Text

/-!
`String::from_utf8_lossy`: bytes as text, with one replacement character for each maximal
part that is no UTF-8. The decoder is a machine over the bytes, whose state is a sequence
that has begun and not ended.
-/

namespace EggReplay.Library.LossyText

open EggReplay.Library.Text

def replacementCharacter : Char := Char.ofNat 0xFFFD

/-- A sequence after its first bytes: the bits so far, how many bytes are still to come, and
the range that the next one must be in. -/
structure Pending where
  value : Nat
  missing : Nat
  low : Nat
  high : Nat
  deriving DecidableEq, Repr

inductive Decoded where
  | scalar (c : Char)
  | begun (pending : Pending)
  | invalid
  deriving DecidableEq, Repr

/-- What a byte is where no sequence has begun. -/
def startByte (byte : UInt8) : Decoded :=
  let n := byte.toNat
  if n < 0x80 then .scalar (Char.ofNat n)
  else if 0xC2 ≤ n ∧ n ≤ 0xDF then .begun ⟨n - 0xC0, 1, 0x80, 0xBF⟩
  else if n = 0xE0 then .begun ⟨0, 2, 0xA0, 0xBF⟩
  else if n = 0xED then .begun ⟨0xD, 2, 0x80, 0x9F⟩
  else if 0xE1 ≤ n ∧ n ≤ 0xEF then .begun ⟨n - 0xE0, 2, 0x80, 0xBF⟩
  else if n = 0xF0 then .begun ⟨0, 3, 0x90, 0xBF⟩
  else if n = 0xF4 then .begun ⟨4, 3, 0x80, 0x8F⟩
  else if 0xF1 ≤ n ∧ n ≤ 0xF3 then .begun ⟨n - 0xF0, 3, 0x80, 0xBF⟩
  else .invalid

/-- What a sequence is with its next byte. -/
def Pending.next (pending : Pending) (byte : UInt8) : Decoded :=
  let n := byte.toNat
  if pending.low ≤ n ∧ n ≤ pending.high then
    let value := pending.value * 64 + (n - 0x80)
    if pending.missing ≤ 1 then .scalar (Char.ofNat value)
    else .begun ⟨value, pending.missing - 1, 0x80, 0xBF⟩
  else .invalid

/-- What is written for a byte and the sequence that is left, given both for an invalid
one. -/
def Decoded.emit (invalid : List Char × Option Pending) :
    Decoded → List Char × Option Pending
  | .scalar c => ([c], none)
  | .begun next => ([], some next)
  | .invalid => invalid

def freshStep (byte : UInt8) : List Char × Option Pending :=
  (startByte byte).emit ([replacementCharacter], none)

/-- A byte that does not go on with a sequence ends it and is read afresh. -/
def lossyStep : Option Pending → UInt8 → List Char × Option Pending
  | none, byte => freshStep byte
  | some pending, byte =>
      (pending.next byte).emit
        (replacementCharacter :: (freshStep byte).1, (freshStep byte).2)

def lossyChars : Option Pending → Bytes → List Char
  | none, [] => []
  | some _, [] => [replacementCharacter]
  | pending, byte :: rest =>
      (lossyStep pending byte).1 ++ lossyChars (lossyStep pending byte).2 rest

def fromUtf8Lossy (bytes : Bytes) : String :=
  String.ofList (lossyChars none bytes)

/-! ### Bounds -/

theorem Decoded.emit_length {invalid : List Char × Option Pending} {n : Nat} (hn : 1 ≤ n)
    (hinvalid : invalid.1.length + invalid.2.toList.length ≤ n) (decoded : Decoded) :
    (decoded.emit invalid).1.length + (decoded.emit invalid).2.toList.length ≤ n := by
  cases decoded with
  | scalar => exact hn
  | begun => exact hn
  | invalid => exact hinvalid

theorem freshStep_length (byte : UInt8) :
    (freshStep byte).1.length + (freshStep byte).2.toList.length ≤ 1 :=
  Decoded.emit_length le_rfl le_rfl _

/-- A step writes no more than its byte and the sequence before it stand for. -/
theorem lossyStep_length (pending : Option Pending) (byte : UInt8) :
    (lossyStep pending byte).1.length + (lossyStep pending byte).2.toList.length ≤
      1 + pending.toList.length := by
  have hfresh := freshStep_length byte
  cases pending with
  | none => exact hfresh
  | some pending =>
      apply Decoded.emit_length
      · exact Nat.le_add_right 1 _
      · simp only [List.length_cons, Option.toList_some, List.length_nil]
        omega

theorem lossyChars_length (pending : Option Pending) (bytes : Bytes) :
    (lossyChars pending bytes).length ≤ bytes.length + pending.toList.length := by
  induction bytes generalizing pending with
  | nil =>
      cases pending <;> simp [lossyChars]
  | cons byte rest ih =>
      have hstep := lossyStep_length pending byte
      have hrest := ih (lossyStep pending byte).2
      rw [lossyChars, List.length_append, List.length_cons]
      omega

theorem fromUtf8Lossy_length (bytes : Bytes) :
    (fromUtf8Lossy bytes).toList.length ≤ bytes.length := by
  rw [fromUtf8Lossy, String.toList_ofList]
  exact lossyChars_length none bytes

theorem lossyStep_ascii {byte : UInt8} (h : byte.toNat < 0x80) :
    lossyStep none byte = ([Char.ofNat byte.toNat], none) := by
  rw [lossyStep, freshStep, startByte, if_pos h]
  rfl

/-- ASCII is kept. -/
theorem fromUtf8Lossy_ascii {bytes : Bytes} (h : ∀ byte ∈ bytes, byte.toNat < 0x80) :
    fromUtf8Lossy bytes = String.ofList (bytes.map fun byte => Char.ofNat byte.toNat) := by
  rw [fromUtf8Lossy]
  apply congrArg
  induction bytes with
  | nil => rfl
  | cons byte rest ih =>
      rw [lossyChars, lossyStep_ascii (h byte List.mem_cons_self), List.map_cons,
        ih fun other hother => h other (List.mem_cons_of_mem _ hother)]
      rfl

/-! ### Text -/

theorem toNat_ofNat {n : Nat} (h : n < 256) : (UInt8.ofNat n).toNat = n := by
  rw [UInt8.toNat_ofNat']
  exact Nat.mod_eq_of_lt h

/-- A tail byte in the range of its sequence goes on with it. -/
theorem lossyChars_tail {value missing low high bits : Nat} {rest : Bytes}
    (hbits : bits < 64) (hlow : low ≤ bits + 0x80) (hhigh : bits + 0x80 ≤ high) :
    lossyChars (some ⟨value, missing, low, high⟩) (UInt8.ofNat (bits + 0x80) :: rest) =
      if missing ≤ 1 then Char.ofNat (value * 64 + bits) :: lossyChars none rest
      else lossyChars (some ⟨value * 64 + bits, missing - 1, 0x80, 0xBF⟩) rest := by
  have hbyte : (UInt8.ofNat (bits + 0x80)).toNat = bits + 0x80 := toNat_ofNat (by omega)
  have hnext : Pending.next ⟨value, missing, low, high⟩ (UInt8.ofNat (bits + 0x80)) =
      if missing ≤ 1 then .scalar (Char.ofNat (value * 64 + bits))
      else .begun ⟨value * 64 + bits, missing - 1, 0x80, 0xBF⟩ := by
    rw [Pending.next, hbyte, if_pos ⟨hlow, hhigh⟩, Nat.add_sub_cancel]
  rw [lossyChars, lossyStep, hnext]
  split
  · rfl
  · rfl

/-- The first byte of a longer sequence begins it. -/
theorem lossyChars_start {byte : UInt8} {pending : Pending} {rest : Bytes}
    (h : startByte byte = .begun pending) :
    lossyChars none (byte :: rest) = lossyChars (some pending) rest := by
  rw [lossyChars, lossyStep, freshStep, h]
  rfl

theorem lossyChars_two {n : Nat} {rest : Bytes} (hlow : 0x7F < n) (hhigh : n ≤ 0x7FF) :
    lossyChars none (UInt8.ofNat (n / 64 % 0x20 + 0xC0) :: UInt8.ofNat (n % 0x40 + 0x80) :: rest) =
      Char.ofNat n :: lossyChars none rest := by
  have hlead : (UInt8.ofNat (n / 64 % 0x20 + 0xC0)).toNat = n / 64 % 0x20 + 0xC0 :=
    toNat_ofNat (by omega)
  have hstart : startByte (UInt8.ofNat (n / 64 % 0x20 + 0xC0)) =
      .begun ⟨n / 64 % 0x20, 1, 0x80, 0xBF⟩ := by
    rw [startByte, hlead]
    rw [if_neg (by omega), if_pos (by omega), Nat.add_sub_cancel]
  have hvalue : n / 64 % 0x20 * 64 + n % 0x40 = n := by omega
  rw [lossyChars_start hstart, lossyChars_tail (by omega) (by omega) (by omega), if_pos le_rfl,
    hvalue]

/-- The range of the second byte leaves out the surrogates and what is shorter. -/
theorem lossyChars_three {n : Nat} {rest : Bytes} (hlow : 0x7FF < n) (hhigh : n ≤ 0xFFFF)
    (hvalid : n < 0xD800 ∨ 0xDFFF < n) :
    lossyChars none (UInt8.ofNat (n / 4096 % 0x10 + 0xE0) ::
        UInt8.ofNat (n / 64 % 0x40 + 0x80) :: UInt8.ofNat (n % 0x40 + 0x80) :: rest) =
      Char.ofNat n :: lossyChars none rest := by
  have hlead : (UInt8.ofNat (n / 4096 % 0x10 + 0xE0)).toNat = n / 4096 % 0x10 + 0xE0 :=
    toNat_ofNat (by omega)
  obtain ⟨low, high, hstart, hfirst, hlast⟩ : ∃ low high,
      startByte (UInt8.ofNat (n / 4096 % 0x10 + 0xE0)) =
        .begun ⟨n / 4096 % 0x10, 2, low, high⟩ ∧
      low ≤ n / 64 % 0x40 + 0x80 ∧ n / 64 % 0x40 + 0x80 ≤ high := by
    rw [startByte, hlead]
    rw [if_neg (by omega), if_neg (by omega)]
    by_cases hzero : n / 4096 % 0x10 = 0
    · rw [hzero]
      exact ⟨0xA0, 0xBF, rfl, by omega, by omega⟩
    · rw [if_neg (by omega)]
      by_cases hsurrogate : n / 4096 % 0x10 = 0xD
      · rw [hsurrogate]
        exact ⟨0x80, 0x9F, rfl, by omega, by omega⟩
      · rw [if_neg (by omega), if_pos (by omega), Nat.add_sub_cancel]
        exact ⟨0x80, 0xBF, rfl, by omega, by omega⟩
  have hvalue : (n / 4096 % 0x10 * 64 + n / 64 % 0x40) * 64 + n % 0x40 = n := by omega
  rw [lossyChars_start hstart, lossyChars_tail (by omega) hfirst hlast, if_neg (by decide),
    lossyChars_tail (by omega) (by omega) (by omega), if_pos (by decide), hvalue]

theorem lossyChars_four {n : Nat} {rest : Bytes} (hlow : 0xFFFF < n) (hhigh : n < 0x110000) :
    lossyChars none (UInt8.ofNat (n / 262144 % 0x08 + 0xF0) ::
        UInt8.ofNat (n / 4096 % 0x40 + 0x80) :: UInt8.ofNat (n / 64 % 0x40 + 0x80) ::
        UInt8.ofNat (n % 0x40 + 0x80) :: rest) =
      Char.ofNat n :: lossyChars none rest := by
  have hlead : (UInt8.ofNat (n / 262144 % 0x08 + 0xF0)).toNat = n / 262144 % 0x08 + 0xF0 :=
    toNat_ofNat (by omega)
  obtain ⟨low, high, hstart, hfirst, hlast⟩ : ∃ low high,
      startByte (UInt8.ofNat (n / 262144 % 0x08 + 0xF0)) =
        .begun ⟨n / 262144 % 0x08, 3, low, high⟩ ∧
      low ≤ n / 4096 % 0x40 + 0x80 ∧ n / 4096 % 0x40 + 0x80 ≤ high := by
    rw [startByte, hlead]
    rw [if_neg (by omega), if_neg (by omega), if_neg (by omega), if_neg (by omega),
      if_neg (by omega)]
    by_cases hzero : n / 262144 % 0x08 = 0
    · rw [hzero]
      exact ⟨0x90, 0xBF, rfl, by omega, by omega⟩
    · rw [if_neg (by omega)]
      by_cases hlast : n / 262144 % 0x08 = 4
      · rw [hlast]
        exact ⟨0x80, 0x8F, rfl, by omega, by omega⟩
      · rw [if_neg (by omega), if_pos (by omega), Nat.add_sub_cancel]
        exact ⟨0x80, 0xBF, rfl, by omega, by omega⟩
  have hvalue : ((n / 262144 % 0x08 * 64 + n / 4096 % 0x40) * 64 + n / 64 % 0x40) * 64 +
      n % 0x40 = n := by omega
  rw [lossyChars_start hstart, lossyChars_tail (by omega) hfirst hlast, if_neg (by decide),
    lossyChars_tail (by omega) (by omega) (by omega), if_neg (by decide),
    lossyChars_tail (by omega) (by omega) (by omega), if_pos (by decide), hvalue]

theorem lossyChars_encode (c : Char) (rest : Bytes) :
    lossyChars none (String.utf8EncodeChar c ++ rest) = c :: lossyChars none rest := by
  have hvalid : c.toNat < 0xD800 ∨ 0xDFFF < c.toNat ∧ c.toNat < 0x110000 := c.valid
  have hchar : Char.ofNat c.toNat = c := Char.ofNat_toNat c
  rw [String.utf8EncodeChar]
  have hval : c.val.toNat = c.toNat := rfl
  rw [hval]
  split
  · have hone : (UInt8.ofNat c.toNat).toNat = c.toNat := toNat_ofNat (by omega)
    rw [List.cons_append, lossyChars, lossyStep_ascii (by omega), hone, hchar]
    rfl
  · split
    · conv_rhs => rw [← hchar]
      exact lossyChars_two (by omega) (by omega)
    · split
      · conv_rhs => rw [← hchar]
        exact lossyChars_three (by omega) (by omega) (by omega)
      · conv_rhs => rw [← hchar]
        exact lossyChars_four (by omega) (by omega)

/-- Text is kept. -/
theorem fromUtf8Lossy_utf8 (chars : List Char) :
    fromUtf8Lossy (utf8 chars) = String.ofList chars := by
  rw [fromUtf8Lossy]
  apply congrArg
  induction chars with
  | nil => rfl
  | cons c chars ih =>
      have hcons : utf8 (c :: chars) = String.utf8EncodeChar c ++ utf8 chars := List.flatMap_cons
      rw [hcons, lossyChars_encode, ih]

example : fromUtf8Lossy [0x61, 0xE2, 0x82, 0xAC, 0xE2, 0x82, 0x62] = "a€\uFFFDb" := by
  decide

end EggReplay.Library.LossyText
