import Raspdif.Spdif.Encode

/-!
# What one call of `spdif_build_subframe` leaves and returns

The call rewrites `sample`, `aux`, `validity` and `parity` and keeps `preamble`,
`userData` and `channelStatus`.  Its result is a function of the kept fields and of
its arguments alone (`spdifBuildSubframe_congr`), and the word it encodes has an
even number of ones (`even_count_spdifBuildSubframe`), which is what lets every
subframe start from line level 0.
-/

namespace Raspdif

open BitString

/-! ## Fields after the call -/

/-- The 20-bit field written for a sample of the given depth. -/
def SpdifSampleDepth.sampleField (depth : SpdifSampleDepth) (sample : BitVec 32) : BitVec 20 :=
  match depth with
  | .depth16 => (sample <<< 4).setWidth 20
  | .depth20 => sample.setWidth 20
  | .depth24 => (sample.sshiftRight 4).setWidth 20

/-- The aux nibble written for a sample of the given depth. -/
def SpdifSampleDepth.auxField (depth : SpdifSampleDepth) (sample : BitVec 32) : BitVec 4 :=
  match depth with
  | .depth16 | .depth20 => 0
  | .depth24 => (sample &&& 0xF).setWidth 4

section

variable (subframe : SpdifSubframe) (preamble : SpdifPreamble) (depth : SpdifSampleDepth)
  (sample : BitVec 32)

@[simp] theorem spdifBuildSubframe_preamble :
    (spdifBuildSubframe subframe preamble depth sample).1.preamble = subframe.preamble := by
  cases depth <;> rfl

@[simp] theorem spdifBuildSubframe_userData :
    (spdifBuildSubframe subframe preamble depth sample).1.userData = subframe.userData := by
  cases depth <;> rfl

@[simp] theorem spdifBuildSubframe_channelStatus :
    (spdifBuildSubframe subframe preamble depth sample).1.channelStatus =
      subframe.channelStatus := by
  cases depth <;> rfl

@[simp] theorem spdifBuildSubframe_sample :
    (spdifBuildSubframe subframe preamble depth sample).1.sample = depth.sampleField sample := by
  cases depth <;> rfl

@[simp] theorem spdifBuildSubframe_aux :
    (spdifBuildSubframe subframe preamble depth sample).1.aux = depth.auxField sample := by
  cases depth <;> rfl

@[simp] theorem spdifBuildSubframe_validity :
    (spdifBuildSubframe subframe preamble depth sample).1.validity = 0 := by
  cases depth <;> rfl

/-- The parity bit is the parity of the word with a zero in its place. -/
theorem spdifBuildSubframe_parity :
    (spdifBuildSubframe subframe preamble depth sample).1.parity =
      BitVec.ofNat 1 (builtinPopcount
        { (spdifBuildSubframe subframe preamble depth sample).1 with parity := 0 }.raw % 2) := by
  cases depth <;> rfl

theorem spdifBuildSubframe_code :
    (spdifBuildSubframe subframe preamble depth sample).2 =
      spdifEncodeBiphaseMark preamble
        (spdifBuildSubframe subframe preamble depth sample).1.raw.reverse := by
  cases depth <;> rfl

/-- Nothing of the old sample, aux, validity or parity reaches the result. -/
theorem spdifBuildSubframe_congr {subframe other : SpdifSubframe}
    (samePreamble : subframe.preamble = other.preamble)
    (sameUserData : subframe.userData = other.userData)
    (sameChannelStatus : subframe.channelStatus = other.channelStatus) :
    spdifBuildSubframe subframe preamble depth sample =
      spdifBuildSubframe other preamble depth sample := by
  cases depth <;>
    simp only [spdifBuildSubframe, samePreamble, sameUserData, sameChannelStatus]

/-! ## The code on the line -/

/-- The code is the preamble followed by the biphase-mark code, from line level 0,
of bits 4 to 31 of the updated word. -/
theorem msbFirst_spdifBuildSubframe :
    msbFirst (spdifBuildSubframe subframe preamble depth sample).2 =
      msbFirst preamble.code ++ BiphaseMark.encode false
        (spdifBuildSubframe subframe preamble depth sample).1.dataBits := by
  rw [spdifBuildSubframe_code, msbFirst_spdifEncodeBiphaseMark, msbFirst_reverse,
    SpdifSubframe.dataBits]

end

/-- A one-bit parity field completes the other bits of the word to an even count. -/
theorem SpdifSubframe.even_count_dataBits {s : SpdifSubframe} (clear : s.preamble = 0)
    (parity : s.parity = BitVec.ofNat 1 (builtinPopcount { s with parity := 0 }.raw % 2)) :
    Even (s.dataBits.count true) := by
  have noPreamble : (lsbFirst s.preamble).count true = 0 := by
    rw [clear]
    decide
  have others : builtinPopcount { s with parity := 0 }.raw =
      (lsbFirst s.aux ++ (lsbFirst s.sample ++ [s.validity.getLsbD 0, s.userData.getLsbD 0,
        s.channelStatus.getLsbD 0])).count true := by
    rw [builtinPopcount, SpdifSubframe.lsbFirst_raw, List.count_append, noPreamble, Nat.zero_add]
    simp [List.count_cons, Nat.add_assoc]
  have whole : s.dataBits.count true =
      builtinPopcount { s with parity := 0 }.raw + s.parity.toNat := by
    have parityBit : s.parity.toNat = if s.parity.getLsbD 0 = true then 1 else 0 := by
      generalize s.parity = bit
      revert bit
      decide
    rw [others, parityBit, SpdifSubframe.dataBits_eq]
    simp only [List.count_append, List.count_cons, List.count_nil, beq_iff_eq]
    omega
  rw [Nat.even_iff, whole, parity, BitVec.toNat_ofNat]
  omega

/-- The word that is encoded has an even number of ones in bits 4 to 31. -/
theorem even_count_spdifBuildSubframe {subframe : SpdifSubframe} (clear : subframe.preamble = 0)
    (preamble : SpdifPreamble) (depth : SpdifSampleDepth) (sample : BitVec 32) :
    Even ((spdifBuildSubframe subframe preamble depth sample).1.dataBits.count true) :=
  SpdifSubframe.even_count_dataBits (by simpa using clear)
    (spdifBuildSubframe_parity subframe preamble depth sample)

/-- So the line is back at level 0 after the subframe. -/
theorem endLevel_spdifBuildSubframe {subframe : SpdifSubframe} (clear : subframe.preamble = 0)
    (preamble : SpdifPreamble) (depth : SpdifSampleDepth) (sample : BitVec 32) :
    BiphaseMark.endLevel false
      (spdifBuildSubframe subframe preamble depth sample).1.dataBits = false :=
  BiphaseMark.endLevel_of_even (by rw [SpdifSubframe.length_dataBits]; decide)
    (even_count_spdifBuildSubframe clear preamble depth sample)

end Raspdif
