import Raspdif.Spdif.Build

/-!
# Channel status

`spdif_populate_channel_status` builds the 192 channel status bits of both channels
once and spreads them over the block, one bit to each frame.
-/

namespace Raspdif

/-- `channel_status_a`. -/
def channelStatusA : SpdifPcmChannelStatus where
  aes3 := 0
  compressed := 0
  copyPermit := 1
  pcmMode := 0
  mode := 0
  categoryCode := 0
  sourceNumber := 0
  channelNumber := 1
  sampleFrequency := 1
  clockAccuracy := 0
  reserved := 0
  wordLength := 0
  sampleWordLength := 0
  originalSamplingFrequency := 0
  reserved2 _ := 0

/-- `channel_status_b`. -/
def channelStatusB : SpdifPcmChannelStatus := { channelStatusA with channelNumber := 2 }

/-- `status.raw[i / 8] >> (i % 8)`, truncated to the one-bit field it is stored in. -/
def SpdifPcmChannelStatus.field (c : SpdifPcmChannelStatus) (i : Fin spdifFrameCount) :
    BitVec 1 :=
  (c.raw (channelStatusByte i) >>> (i.val % 8)).setWidth 1

/-- The loop writes each frame of the block once, and only its channel status bits. -/
def spdifPopulateChannelStatus (block : SpdifBlock) : SpdifBlock where
  frames i :=
    let frame := block.frames i
    { a := { frame.a with channelStatus := channelStatusA.field i }
      b := { frame.b with channelStatus := channelStatusB.field i } }

theorem SpdifPcmChannelStatus.getLsbD_field (c : SpdifPcmChannelStatus)
    (i : Fin spdifFrameCount) : (c.field i).getLsbD 0 = c.bit i := by
  simp [SpdifPcmChannelStatus.field, SpdifPcmChannelStatus.bit]

/-- The block `main` passes to the encoder. -/
def initialBlock : SpdifBlock := spdifPopulateChannelStatus SpdifBlock.zero

/-! ## The fields a call never writes -/

/-- Two subframes agree on the fields `spdif_build_subframe` keeps. -/
structure SpdifSubframe.SameKept (s t : SpdifSubframe) : Prop where
  preamble : s.preamble = t.preamble
  userData : s.userData = t.userData
  channelStatus : s.channelStatus = t.channelStatus

theorem SpdifSubframe.SameKept.refl (s : SpdifSubframe) : s.SameKept s := ⟨rfl, rfl, rfl⟩

theorem SpdifSubframe.SameKept.trans {s t u : SpdifSubframe} (left : s.SameKept t)
    (right : t.SameKept u) : s.SameKept u :=
  ⟨left.preamble.trans right.preamble, left.userData.trans right.userData,
    left.channelStatus.trans right.channelStatus⟩

/-- A call keeps the preamble, user data and channel status of its subframe. -/
theorem spdifBuildSubframe_sameKept (subframe : SpdifSubframe) (preamble : SpdifPreamble)
    (depth : SpdifSampleDepth) (sample : BitVec 32) :
    (spdifBuildSubframe subframe preamble depth sample).1.SameKept subframe :=
  ⟨spdifBuildSubframe_preamble .., spdifBuildSubframe_userData ..,
    spdifBuildSubframe_channelStatus ..⟩

/-- The result of a call depends on nothing of its subframe but the kept fields. -/
theorem SpdifSubframe.SameKept.build_eq {s t : SpdifSubframe} (same : s.SameKept t)
    (preamble : SpdifPreamble) (depth : SpdifSampleDepth) (sample : BitVec 32) :
    spdifBuildSubframe s preamble depth sample = spdifBuildSubframe t preamble depth sample :=
  spdifBuildSubframe_congr preamble depth sample same.preamble same.userData same.channelStatus

/-- Two blocks agree on the kept fields of every subframe. -/
def SpdifBlock.SameKept (block other : SpdifBlock) : Prop :=
  ∀ i, (block.frames i).a.SameKept (other.frames i).a ∧
    (block.frames i).b.SameKept (other.frames i).b

theorem SpdifBlock.SameKept.refl (block : SpdifBlock) : block.SameKept block :=
  fun _ => ⟨.refl _, .refl _⟩

end Raspdif
