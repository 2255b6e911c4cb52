import Raspdif.Lib.BiphaseMark
import Raspdif.Spdif.Types

/-!
# Building and encoding one subframe

`spdifEncodeBiphaseMark` and `spdifBuildSubframe` follow `spdif.c` operation by
operation: the sixteen-entry table, the bit reversal, the conditional inversion on
the last half-cell of the byte before, and the byte order of the union.

`msbFirst_spdifEncodeBiphaseMark` says what the table computes: the preamble
followed by the biphase-mark code of bits 4 to 31 from line level 0.
-/

namespace Raspdif

open BitString

/-! ## The table -/

/-- `SPDIF_PREAMBLE_B`, `SPDIF_PREAMBLE_M` and `SPDIF_PREAMBLE_W`. -/
def SpdifPreamble.code : SpdifPreamble → BitVec 8
  | .b => 0xE8
  | .m => 0xE2
  | .w => 0xE4

/-- `bmc_lut_0`: the code of a nibble that follows line level 0. -/
def bmcLut0 : Vector (BitVec 8) 16 :=
  #v[0xCC, 0xCD, 0xCB, 0xCA,
     0xD3, 0xD2, 0xD4, 0xD5,
     0xB3, 0xB2, 0xB4, 0xB5,
     0xAC, 0xAD, 0xAB, 0xAA]

/-- `bmc_lut_0[(data >> shift) & 0xF]`. -/
def bmcNibble (data : BitVec 32) (shift : Nat) : BitVec 8 :=
  bmcLut0.get ((data >>> shift).setWidth 4).toFin

/-- `-(int)(byte & 1)`, truncated to the byte it is combined with. -/
def lastInversion (byte : BitVec 8) : BitVec 8 := -(byte &&& 1)

def spdifEncodeBiphaseMark (preamble : SpdifPreamble) (data : BitVec 32) : BitVec 64 :=
  let byte7 := preamble.code
  let byte6 := bmcNibble data 24
  let byte5 := bmcNibble data 20 ^^^ lastInversion byte6
  let byte4 := bmcNibble data 16 ^^^ lastInversion byte5
  let byte3 := bmcNibble data 12 ^^^ lastInversion byte4
  let byte2 := bmcNibble data 8 ^^^ lastInversion byte3
  let byte1 := bmcNibble data 4 ^^^ lastInversion byte2
  let byte0 := bmcNibble data 0 ^^^ lastInversion byte1
  -- `bmc.raw`: byte 7 of the union is the most significant one.
  byte7 ++ byte6 ++ byte5 ++ byte4 ++ byte3 ++ byte2 ++ byte1 ++ byte0

/-- `__builtin_popcount`. -/
def builtinPopcount (x : BitVec 32) : Nat := (lsbFirst x).count true

/-- The new content of the subframe and its code.  `__rbit` is `BitVec.reverse`. -/
def spdifBuildSubframe (subframe : SpdifSubframe) (preamble : SpdifPreamble)
    (depth : SpdifSampleDepth) (sample : BitVec 32) : SpdifSubframe × BitVec 64 :=
  let subframe := match depth with
    | .depth16 => { subframe with sample := (sample <<< 4).setWidth 20, aux := 0 }
    | .depth20 => { subframe with sample := sample.setWidth 20, aux := 0 }
    | .depth24 =>
        { subframe with
          sample := (sample.sshiftRight 4).setWidth 20
          aux := (sample &&& 0xF).setWidth 4 }
  let subframe := { subframe with validity := 0, parity := 0 }
  let subframe := { subframe with
    parity := BitVec.ofNat 1 (builtinPopcount subframe.raw % 2) }
  (subframe, spdifEncodeBiphaseMark preamble subframe.raw.reverse)

/-! ## The table is a biphase-mark encoder -/

/-- Each entry of the table is the code of its index from line level 0. -/
theorem msbFirst_bmcLut0 (nibble : BitVec 4) :
    msbFirst (bmcLut0.get nibble.toFin) = BiphaseMark.encode false (msbFirst nibble) := by
  revert nibble
  decide

theorem lastInversion_eq (byte : BitVec 8) :
    lastInversion byte = if byte.getLsbD 0 then 0xFF#8 else 0#8 := by
  revert byte
  decide

/-- Inverting a table entry on the last half-cell before it gives the code from the
line level that half-cell shows. -/
theorem msbFirst_bmcNibble (data : BitVec 32) (shift : Nat) (before : BitVec 8) :
    msbFirst (bmcNibble data shift ^^^ lastInversion before) =
      BiphaseMark.encode (before.getLsbD 0) (msbFirst ((data >>> shift).setWidth 4)) := by
  rw [lastInversion_eq]
  cases before.getLsbD 0 with
  | false =>
      rw [if_neg Bool.false_ne_true, BitVec.xor_zero, bmcNibble]
      exact msbFirst_bmcLut0 _
  | true =>
      have inverted (byte : BitVec 8) : msbFirst (byte ^^^ 0xFF#8) = (msbFirst byte).map (!·) := by
        revert byte
        decide
      rw [if_pos rfl, inverted, bmcNibble, msbFirst_bmcLut0]
      exact (BiphaseMark.encode_not false _).symm

/-- A byte that codes one nibble hands its last half-cell to the next nibble. -/
theorem encode_append_of_code {level : Bool} {nibble rest : List Bool} {byte : BitVec 8}
    (code : msbFirst byte = BiphaseMark.encode level nibble) :
    BiphaseMark.encode level (nibble ++ rest) =
      msbFirst byte ++ BiphaseMark.encode (byte.getLsbD 0) rest := by
  have last : BiphaseMark.endLevel level nibble = byte.getLsbD 0 := by
    rw [← BiphaseMark.getLastD_encode, ← code, getLastD_msbFirst]
  rw [BiphaseMark.encode_append, last, code]

/-- The table-driven encoder emits the preamble and then the biphase-mark code of
bits 27 to 0 of its argument, from line level 0. -/
theorem msbFirst_spdifEncodeBiphaseMark (preamble : SpdifPreamble) (data : BitVec 32) :
    msbFirst (spdifEncodeBiphaseMark preamble data) =
      msbFirst preamble.code ++ BiphaseMark.encode false ((msbFirst data).drop 4) := by
  have first : msbFirst (bmcNibble data 24) =
      BiphaseMark.encode false (msbFirst ((data >>> 24).setWidth 4)) := msbFirst_bmcLut0 _
  have split (s : Nat) (fits : s + 4 ≤ 32) := drop_msbFirst data fits
  rw [split 24 (by decide), encode_append_of_code first,
    split 20 (by decide), encode_append_of_code (msbFirst_bmcNibble data 20 _),
    split 16 (by decide), encode_append_of_code (msbFirst_bmcNibble data 16 _),
    split 12 (by decide), encode_append_of_code (msbFirst_bmcNibble data 12 _),
    split 8 (by decide), encode_append_of_code (msbFirst_bmcNibble data 8 _),
    split 4 (by decide), encode_append_of_code (msbFirst_bmcNibble data 4 _),
    split 0 (by decide), encode_append_of_code (msbFirst_bmcNibble data 0 _)]
  have done : (msbFirst data).drop (32 - 0) = [] := List.drop_of_length_le (by simp)
  rw [done]
  simp only [spdifEncodeBiphaseMark, msbFirst_append, BiphaseMark.encode, List.append_assoc,
    List.append_nil]

end Raspdif
