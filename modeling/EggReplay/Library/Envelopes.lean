import EggReplay.Library.Text
import Mathlib.Data.List.Basic

/-!
Length-prefixed envelopes: an octet of flags, the length of the payload in four octets with the
highest first, and the payload. A sequence of them is read back from its octets in one way only.
-/

namespace EggReplay.Library.Envelopes

open EggReplay.Library.Text (Bytes)

/-! ### Four octets -/

def fromBeBytes (a b c d : UInt8) : Nat :=
  a.toNat * 16777216 + b.toNat * 65536 + c.toNat * 256 + d.toNat

def toBeBytes (length : Nat) : Bytes :=
  [UInt8.ofNat (length / 16777216), UInt8.ofNat (length / 65536), UInt8.ofNat (length / 256),
    UInt8.ofNat length]

theorem fromBeBytes_lt (a b c d : UInt8) : fromBeBytes a b c d < 4294967296 := by
  have ha := a.toNat_lt
  have hb := b.toNat_lt
  have hc := c.toNat_lt
  have hd := d.toNat_lt
  rw [fromBeBytes]
  omega

theorem fromBeBytes_toBeBytes {length : Nat} (h : length < 4294967296) :
    fromBeBytes (UInt8.ofNat (length / 16777216)) (UInt8.ofNat (length / 65536))
      (UInt8.ofNat (length / 256)) (UInt8.ofNat length) = length := by
  simp only [fromBeBytes, UInt8.toNat_ofNat']
  omega

theorem toBeBytes_fromBeBytes (a b c d : UInt8) : toBeBytes (fromBeBytes a b c d) = [a, b, c, d] := by
  have ha := a.toNat_lt
  have hb := b.toNat_lt
  have hc := c.toNat_lt
  have hd := d.toNat_lt
  have hfirst : UInt8.ofNat (fromBeBytes a b c d / 16777216) = a := by
    apply UInt8.toNat_inj.mp
    simp only [fromBeBytes, UInt8.toNat_ofNat']
    omega
  have hsecond : UInt8.ofNat (fromBeBytes a b c d / 65536) = b := by
    apply UInt8.toNat_inj.mp
    simp only [fromBeBytes, UInt8.toNat_ofNat']
    omega
  have hthird : UInt8.ofNat (fromBeBytes a b c d / 256) = c := by
    apply UInt8.toNat_inj.mp
    simp only [fromBeBytes, UInt8.toNat_ofNat']
    omega
  have hlast : UInt8.ofNat (fromBeBytes a b c d) = d := by
    apply UInt8.toNat_inj.mp
    simp only [fromBeBytes, UInt8.toNat_ofNat']
    omega
  rw [toBeBytes, hfirst, hsecond, hthird, hlast]

/-! ### Envelopes -/

/-- The length fits its four octets. -/
@[ext] structure Envelope where
  flags : UInt8
  payload : Bytes
  bounded : payload.length < 4294967296

def Envelope.encode (envelope : Envelope) : Bytes :=
  envelope.flags :: (toBeBytes envelope.payload.length ++ envelope.payload)

def encodeAll (envelopes : List Envelope) : Bytes := envelopes.flatMap Envelope.encode

@[simp] theorem encodeAll_nil : encodeAll [] = [] := rfl

@[simp] theorem encodeAll_cons (envelope : Envelope) (rest : List Envelope) :
    encodeAll (envelope :: rest) = envelope.encode ++ encodeAll rest := List.flatMap_cons

/-- The first envelope, and what follows it. -/
def readEnvelope : Bytes → Option (Envelope × Bytes)
  | flags :: a :: b :: c :: d :: rest =>
      if h : fromBeBytes a b c d ≤ rest.length then
        some ({ flags
                payload := rest.take (fromBeBytes a b c d)
                bounded := by
                  rw [List.length_take, Nat.min_eq_left h]
                  exact fromBeBytes_lt a b c d },
          rest.drop (fromBeBytes a b c d))
      else none
  | _ => none

theorem encode_length (envelope : Envelope) :
    envelope.encode.length = 5 + envelope.payload.length := by
  rw [Envelope.encode, List.length_cons, List.length_append]
  show 4 + envelope.payload.length + 1 = 5 + envelope.payload.length
  omega

theorem readEnvelope_encode (envelope : Envelope) (rest : Bytes) :
    readEnvelope (envelope.encode ++ rest) = some (envelope, rest) := by
  have hlength := fromBeBytes_toBeBytes envelope.bounded
  have hread : envelope.encode ++ rest = envelope.flags ::
      UInt8.ofNat (envelope.payload.length / 16777216) ::
      UInt8.ofNat (envelope.payload.length / 65536) ::
      UInt8.ofNat (envelope.payload.length / 256) ::
      UInt8.ofNat envelope.payload.length :: (envelope.payload ++ rest) := rfl
  have hfits : envelope.payload.length ≤ (envelope.payload ++ rest).length := by
    rw [List.length_append]
    omega
  rw [hread, readEnvelope]
  simp only [hlength]
  rw [dif_pos hfits]
  congr 2
  · apply Envelope.ext
    · rfl
    · exact List.take_left
  · exact List.drop_left

theorem readEnvelope_eq_some {bytes rest : Bytes} {envelope : Envelope}
    (h : readEnvelope bytes = some (envelope, rest)) : bytes = envelope.encode ++ rest := by
  rw [readEnvelope.eq_def] at h
  split at h
  · rename_i flags a b c d tail
    split at h
    · rename_i hfits
      cases h
      rw [Envelope.encode]
      dsimp only
      rw [List.length_take, Nat.min_eq_left hfits, toBeBytes_fromBeBytes, List.cons_append,
        List.append_assoc, List.take_append_drop]
      rfl
    · cases h
  · cases h

theorem encode_append_inj {first second : Envelope} {rest tail : Bytes}
    (h : first.encode ++ rest = second.encode ++ tail) : first = second ∧ rest = tail := by
  have hread := readEnvelope_encode first rest
  rw [h, readEnvelope_encode] at hread
  cases hread
  exact ⟨rfl, rfl⟩

/-- The octets determine the envelopes. -/
theorem encodeAll_inj {first second : List Envelope} (h : encodeAll first = encodeAll second) :
    first = second := by
  induction first generalizing second with
  | nil =>
      cases second with
      | nil => rfl
      | cons head rest => cases h
  | cons head rest ih =>
      cases second with
      | nil => cases h
      | cons other tail =>
          rw [encodeAll_cons, encodeAll_cons] at h
          obtain ⟨rfl, hrest⟩ := encode_append_inj h
          rw [ih hrest]

end EggReplay.Library.Envelopes
