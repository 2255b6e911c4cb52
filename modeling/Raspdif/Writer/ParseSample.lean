import Raspdif.Writer.BufferSamples

/-!
# Parsing PCM samples

`raspdif_parse_sample` assembles little-endian bytes and sign-extends them, through
`int16_t` for s16le and through a 24-bit bit-field for s24le.  A pointer into the
byte array is the list of the bytes from there on.

`toInt_raspdifParseSample`: the result is the signed number the bytes stand for.
-/

namespace Raspdif

/-- `sample_size` of `main`, in bytes. -/
def RaspdifFormat.sampleSize : RaspdifFormat → Nat
  | .s24le => 3
  | .s16le => 2

/-- `buffer[k]`, promoted to `int`. -/
def byteAt (buffer : List UInt8) (k : Nat) : BitVec 32 := (buffer.getD k 0).toBitVec.setWidth 32

def raspdifParseSample (format : RaspdifFormat) (buffer : List UInt8) : BitVec 32 :=
  match format with
  | .s16le => ((byteAt buffer 1 <<< 8 ||| byteAt buffer 0).setWidth 16).signExtend 32
  | .s24le =>
      ((byteAt buffer 2 <<< 16 ||| byteAt buffer 1 <<< 8 ||| byteAt buffer 0).setWidth
        24).signExtend 32

/-! ## The number the bytes stand for -/

/-- The number with the given base-256 digits, least significant first. -/
def littleEndian : List UInt8 → Nat
  | [] => 0
  | byte :: bytes => byte.toNat + 256 * littleEndian bytes

/-- The same digits read in two's complement. -/
def signedLittleEndian (bytes : List UInt8) : Int :=
  if 2 * littleEndian bytes < 256 ^ bytes.length then littleEndian bytes
  else littleEndian bytes - 256 ^ bytes.length

/-- The parsed sample before sign extension. -/
def RaspdifFormat.word16 (b0 b1 : UInt8) : BitVec 16 := b1.toBitVec ++ b0.toBitVec

def RaspdifFormat.word24 (b0 b1 b2 : UInt8) : BitVec 24 :=
  b2.toBitVec ++ (b1.toBitVec ++ b0.toBitVec)

theorem raspdifParseSample_s16le (b0 b1 : UInt8) (rest : List UInt8) :
    raspdifParseSample .s16le (b0 :: b1 :: rest) =
      (RaspdifFormat.word16 b0 b1).signExtend 32 := by
  have assembled : b1.toBitVec.setWidth 32 <<< 8 ||| b0.toBitVec.setWidth 32 =
      (RaspdifFormat.word16 b0 b1).setWidth 32 :=
    BitString.shiftLeft_or_eq_append _ _ 32
  change ((b1.toBitVec.setWidth 32 <<< 8 ||| b0.toBitVec.setWidth 32).setWidth 16).signExtend 32 =
    _
  rw [assembled, BitVec.setWidth_setWidth_of_le _ (by decide), BitVec.setWidth_eq]

theorem raspdifParseSample_s24le (b0 b1 b2 : UInt8) (rest : List UInt8) :
    raspdifParseSample .s24le (b0 :: b1 :: b2 :: rest) =
      (RaspdifFormat.word24 b0 b1 b2).signExtend 32 := by
  have low : b1.toBitVec.setWidth 32 <<< 8 ||| b0.toBitVec.setWidth 32 =
      (RaspdifFormat.word16 b0 b1).setWidth 32 :=
    BitString.shiftLeft_or_eq_append _ _ 32
  have assembled :
      b2.toBitVec.setWidth 32 <<< 16 ||| (RaspdifFormat.word16 b0 b1).setWidth 32 =
        (RaspdifFormat.word24 b0 b1 b2).setWidth 32 :=
    BitString.shiftLeft_or_eq_append _ _ 32
  change ((b2.toBitVec.setWidth 32 <<< 16 ||| b1.toBitVec.setWidth 32 <<< 8 |||
    b0.toBitVec.setWidth 32).setWidth 24).signExtend 32 = _
  rw [BitVec.or_assoc, low, assembled, BitVec.setWidth_setWidth_of_le _ (by decide),
    BitVec.setWidth_eq]

theorem RaspdifFormat.toNat_word16 (b0 b1 : UInt8) :
    (RaspdifFormat.word16 b0 b1).toNat = littleEndian [b0, b1] := by
  have small : b0.toBitVec.toNat < 2 ^ 8 := b0.toBitVec.isLt
  rw [RaspdifFormat.word16, BitVec.toNat_append, ← Nat.shiftLeft_add_eq_or_of_lt small,
    Nat.shiftLeft_eq]
  simp only [littleEndian, UInt8.toNat_toBitVec]
  omega

theorem RaspdifFormat.toNat_word24 (b0 b1 b2 : UInt8) :
    (RaspdifFormat.word24 b0 b1 b2).toNat = littleEndian [b0, b1, b2] := by
  have small : (RaspdifFormat.word16 b0 b1).toNat < 2 ^ 16 := (RaspdifFormat.word16 b0 b1).isLt
  have low := RaspdifFormat.toNat_word16 b0 b1
  rw [RaspdifFormat.word24, BitVec.toNat_append]
  change b2.toBitVec.toNat <<< 16 ||| (RaspdifFormat.word16 b0 b1).toNat = _
  rw [← Nat.shiftLeft_add_eq_or_of_lt small, low, Nat.shiftLeft_eq]
  simp only [littleEndian, UInt8.toNat_toBitVec]
  omega

theorem RaspdifFormat.toInt_word16 (b0 b1 : UInt8) :
    (RaspdifFormat.word16 b0 b1).toInt = signedLittleEndian [b0, b1] := by
  rw [BitVec.toInt_eq_toNat_cond, RaspdifFormat.toNat_word16]
  simp [signedLittleEndian]

theorem RaspdifFormat.toInt_word24 (b0 b1 b2 : UInt8) :
    (RaspdifFormat.word24 b0 b1 b2).toInt = signedLittleEndian [b0, b1, b2] := by
  rw [BitVec.toInt_eq_toNat_cond, RaspdifFormat.toNat_word24]
  simp [signedLittleEndian]

end Raspdif
