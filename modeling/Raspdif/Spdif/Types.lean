import Raspdif.Lib.BitString

/-!
# S/PDIF data types

The types of `spdif.h`.  Bit-fields are `BitVec`s of the declared width, and the
`raw` view of a union lays them out from bit 0 upward, in declaration order, as the
little-endian ABI of the target does.
-/

namespace Raspdif

open BitString

/-- `SPDIF_FRAME_COUNT`. -/
abbrev spdifFrameCount : Nat := 192

inductive SpdifSampleDepth
  | depth16
  | depth20
  | depth24
  deriving DecidableEq, Repr

inductive SpdifPreamble
  /-- First subframe, left channel. -/
  | m
  /-- Second subframe, right channel. -/
  | w
  /-- First subframe, left channel, start of block. -/
  | b
  deriving DecidableEq, Repr

/-! ## Subframes -/

structure SpdifSubframe where
  /-- Four bit times on the line; the preamble itself is not stored here. -/
  preamble : BitVec 4
  aux : BitVec 4
  sample : BitVec 20
  validity : BitVec 1
  userData : BitVec 1
  channelStatus : BitVec 1
  parity : BitVec 1
  deriving DecidableEq, Repr

/-- The `raw` member of `spdif_subframe_t`. -/
def SpdifSubframe.raw (s : SpdifSubframe) : BitVec 32 :=
  s.parity ++ s.channelStatus ++ s.userData ++ s.validity ++ s.sample ++ s.aux ++ s.preamble

/-- Bits 4 to 31 of a subframe word, in the order they go on the line. -/
def SpdifSubframe.dataBits (s : SpdifSubframe) : List Bool :=
  (lsbFirst s.raw).drop 4

theorem SpdifSubframe.lsbFirst_raw (s : SpdifSubframe) :
    lsbFirst s.raw = lsbFirst s.preamble ++ (lsbFirst s.aux ++ (lsbFirst s.sample ++
      [s.validity.getLsbD 0, s.userData.getLsbD 0, s.channelStatus.getLsbD 0,
        s.parity.getLsbD 0])) := by
  unfold SpdifSubframe.raw
  rw [lsbFirst_append, lsbFirst_append, lsbFirst_append, lsbFirst_append, lsbFirst_append,
    lsbFirst_append]
  simp only [lsbFirst_one, List.cons_append, List.nil_append]

theorem SpdifSubframe.dataBits_eq (s : SpdifSubframe) :
    s.dataBits = lsbFirst s.aux ++ (lsbFirst s.sample ++
      [s.validity.getLsbD 0, s.userData.getLsbD 0, s.channelStatus.getLsbD 0,
        s.parity.getLsbD 0]) := by
  rw [SpdifSubframe.dataBits, s.lsbFirst_raw, List.drop_left' (by simp)]

@[simp] theorem SpdifSubframe.length_dataBits (s : SpdifSubframe) : s.dataBits.length = 28 := by
  simp [SpdifSubframe.dataBits]

structure SpdifFrame where
  a : SpdifSubframe
  b : SpdifSubframe
  deriving DecidableEq, Repr

structure SpdifBlock where
  frames : Fin spdifFrameCount → SpdifFrame

/-- A block after `memset(&block, 0, sizeof(block))`. -/
def SpdifBlock.zero : SpdifBlock where
  frames _ := ⟨⟨0, 0, 0, 0, 0, 0, 0⟩, ⟨0, 0, 0, 0, 0, 0, 0⟩⟩

/-! ## Channel status -/

structure SpdifPcmChannelStatus where
  /-- 0 for S/PDIF. -/
  aes3 : BitVec 1
  /-- 0 for PCM. -/
  compressed : BitVec 1
  copyPermit : BitVec 1
  pcmMode : BitVec 3
  mode : BitVec 2
  categoryCode : BitVec 8
  sourceNumber : BitVec 4
  /-- 1 for the left channel, 2 for the right channel. -/
  channelNumber : BitVec 4
  sampleFrequency : BitVec 4
  clockAccuracy : BitVec 2
  reserved : BitVec 2
  /-- 0: samples of at most 20 bits. -/
  wordLength : BitVec 1
  sampleWordLength : BitVec 3
  originalSamplingFrequency : BitVec 4
  reserved2 : Fin 19 → BitVec 8

/-- The `raw` member of `spdif_pcm_channel_status_t`: 24 bytes, 192 bits. -/
def SpdifPcmChannelStatus.raw (c : SpdifPcmChannelStatus) (k : Fin 24) : BitVec 8 :=
  match k with
  | 0 => c.mode ++ c.pcmMode ++ c.copyPermit ++ c.compressed ++ c.aes3
  | 1 => c.categoryCode
  | 2 => c.channelNumber ++ c.sourceNumber
  | 3 => c.reserved ++ c.clockAccuracy ++ c.sampleFrequency
  | 4 => c.originalSamplingFrequency ++ c.sampleWordLength ++ c.wordLength
  | ⟨k + 5, bound⟩ => c.reserved2 ⟨k, by omega⟩

/-- The byte `i / 8` of the channel status that holds bit `i`. -/
def channelStatusByte (i : Fin spdifFrameCount) : Fin 24 :=
  ⟨i.val / 8, Nat.div_lt_of_lt_mul i.isLt⟩

/-- Bit `i` of the channel status, counting each byte from its least significant bit. -/
def SpdifPcmChannelStatus.bit (c : SpdifPcmChannelStatus) (i : Fin spdifFrameCount) : Bool :=
  (c.raw (channelStatusByte i)).getLsbD (i.val % 8)

end Raspdif
