import Mathlib.Logic.Function.Basic
import Raspdif.Spdif.ChannelStatus

/-!
# Encoding one frame into a buffer

The types of `raspdif.h` and `raspdif_buffer_samples` of `main.c`.  The function's
two `static` variables are the structure `Statics`, handed in and out; a `Buffer` is
one entry of the ring.

`frameEntry` is the frame a call stores, as a function of the block position, the
format and the two samples alone; `raspdifBufferSamples_buffer` says that on a block
whose kept fields are the initial ones a call stores exactly that.
-/

namespace Raspdif

/-- `RASPDIF_BUFFER_COUNT`. -/
abbrev raspdifBufferCount : Nat := 3

/-- `RASPDIF_BUFFER_SIZE`. -/
abbrev raspdifBufferSize : Nat := 2048

inductive RaspdifFormat
  | s16le
  | s24le
  deriving DecidableEq, Repr

structure RaspdifSample where
  msb : BitVec 32
  lsb : BitVec 32
  deriving DecidableEq, Repr

/-- One slot of a buffer: the codes of both subframes of a frame. -/
structure RaspdifEntry where
  a : RaspdifSample
  b : RaspdifSample
  deriving DecidableEq, Repr

structure RaspdifBuffer where
  sample : Fin raspdifBufferSize → RaspdifEntry

/-- A buffer of zero words. -/
def RaspdifBuffer.zero : RaspdifBuffer := ⟨fun _ => ⟨⟨0, 0⟩, ⟨0, 0⟩⟩⟩

/-- The `static` variables of `raspdif_buffer_samples`.  `frame_index` is only ever
assigned a remainder modulo the frame count. -/
structure Statics where
  /-- `frame_index`, a `uint8_t`. -/
  frameIndex : BitVec 8
  /-- `sample_count`, a `uint32_t`. -/
  sampleCount : BitVec 32
  frameIndex_lt : frameIndex.toNat < spdifFrameCount

/-- Both counters start at 0. -/
def Statics.initial : Statics := ⟨0, 0, by decide⟩

/-- The frame of the block the next call encodes. -/
def Statics.position (s : Statics) : Fin spdifFrameCount := ⟨s.frameIndex.toNat, s.frameIndex_lt⟩

/-- `sample_count % RASPDIF_BUFFER_SIZE`. -/
def Statics.slot (s : Statics) : Fin raspdifBufferSize :=
  ⟨s.sampleCount.toNat % raspdifBufferSize, Nat.mod_lt _ (by decide)⟩

/-- `frame_index = (frame_index + 1) % SPDIF_FRAME_COUNT; sample_count++`. -/
def Statics.next (s : Statics) : Statics where
  frameIndex := BitVec.ofNat 8 ((s.frameIndex.toNat + 1) % spdifFrameCount)
  sampleCount := s.sampleCount + 1
  frameIndex_lt := by
    have small : (s.frameIndex.toNat + 1) % spdifFrameCount < spdifFrameCount :=
      Nat.mod_lt _ (by decide)
    rw [BitVec.toNat_ofNat, Nat.mod_eq_of_lt (small.trans (by decide))]
    exact small

/-- The two words of a code, as stored. -/
def RaspdifSample.ofCode (code : BitVec 64) : RaspdifSample where
  msb := (code >>> 32).setWidth 32
  lsb := code.setWidth 32

/-- What `raspdif_buffer_samples` returns and leaves in memory. -/
structure Buffered where
  full : Bool
  statics : Statics
  buffer : RaspdifBuffer
  block : SpdifBlock

/-- `format == raspdif_format_s24le ? spdif_sample_depth_24 : spdif_sample_depth_16`. -/
def RaspdifFormat.bitDepth : RaspdifFormat → SpdifSampleDepth
  | .s24le => .depth24
  | .s16le => .depth16

/-- `frame_index == 0 ? spdif_preamble_b : spdif_preamble_m`. -/
def preambleA (position : Fin spdifFrameCount) : SpdifPreamble :=
  if position.val = 0 then .b else .m

def raspdifBufferSamples (statics : Statics) (buffer : RaspdifBuffer) (block : SpdifBlock)
    (format : RaspdifFormat) (sampleA sampleB : BitVec 32) : Buffered :=
  let bitDepth := format.bitDepth
  let frame := block.frames statics.position
  let (a, codeA) := spdifBuildSubframe frame.a (preambleA statics.position) bitDepth sampleA
  let (b, codeB) := spdifBuildSubframe frame.b .w bitDepth sampleB
  let entry := { a := RaspdifSample.ofCode codeA, b := RaspdifSample.ofCode codeB }
  { full := statics.next.slot.val == 0
    statics := statics.next
    buffer := ⟨Function.update buffer.sample statics.slot entry⟩
    block := ⟨Function.update block.frames statics.position { a, b }⟩ }

/-! ## The counters -/

theorem Statics.position_next (s : Statics) :
    s.next.position.val = (s.position.val + 1) % spdifFrameCount := by
  have small : (s.frameIndex.toNat + 1) % spdifFrameCount < 2 ^ 8 :=
    (Nat.mod_lt _ (by decide)).trans (by decide)
  exact (BitVec.toNat_ofNat _ _).trans (Nat.mod_eq_of_lt small)

/-- The slot moves by one modulo the buffer size, across the wrap of the 32-bit
counter too, since the buffer size divides `2 ^ 32`. -/
theorem Statics.slot_next (s : Statics) :
    s.next.slot.val = (s.slot.val + 1) % raspdifBufferSize := by
  have count : s.next.sampleCount.toNat = (s.sampleCount.toNat + 1) % 2 ^ 32 :=
    BitVec.toNat_add _ _
  simp only [Statics.slot, count, raspdifBufferSize]
  omega

/-! ## The stored frame -/

/-- The frame encoded at a block position of the initial block. -/
def frameEntry (position : Fin spdifFrameCount) (format : RaspdifFormat)
    (sampleA sampleB : BitVec 32) : RaspdifEntry where
  a := .ofCode (spdifBuildSubframe (initialBlock.frames position).a (preambleA position)
    format.bitDepth sampleA).2
  b := .ofCode (spdifBuildSubframe (initialBlock.frames position).b .w format.bitDepth sampleB).2

section

variable {statics : Statics} {buffer : RaspdifBuffer} {block : SpdifBlock}
  {format : RaspdifFormat} {sampleA sampleB : BitVec 32}

@[simp] theorem raspdifBufferSamples_full :
    (raspdifBufferSamples statics buffer block format sampleA sampleB).full =
      (statics.next.slot.val == 0) := rfl

@[simp] theorem raspdifBufferSamples_statics :
    (raspdifBufferSamples statics buffer block format sampleA sampleB).statics =
      statics.next := rfl

/-- A call changes no kept field of any subframe of the block. -/
theorem raspdifBufferSamples_sameKept {initial : SpdifBlock} (kept : block.SameKept initial) :
    (raspdifBufferSamples statics buffer block format sampleA sampleB).block.SameKept
      initial := by
  intro i
  obtain ⟨keptA, keptB⟩ := kept i
  by_cases here : i = statics.position
  · subst here
    simp only [raspdifBufferSamples, Function.update_self]
    exact ⟨(spdifBuildSubframe_sameKept ..).trans keptA,
      (spdifBuildSubframe_sameKept ..).trans keptB⟩
  · simp only [raspdifBufferSamples, Function.update_of_ne here]
    exact ⟨keptA, keptB⟩

/-- On a block with the initial kept fields a call stores, in the current slot, the
frame that its position, format and samples determine, and no other slot changes. -/
theorem raspdifBufferSamples_buffer (kept : block.SameKept initialBlock) :
    (raspdifBufferSamples statics buffer block format sampleA sampleB).buffer.sample =
      Function.update buffer.sample statics.slot
        (frameEntry statics.position format sampleA sampleB) := by
  obtain ⟨keptA, keptB⟩ := kept statics.position
  have codeA := keptA.build_eq (preambleA statics.position) format.bitDepth sampleA
  have codeB := keptB.build_eq .w format.bitDepth sampleB
  simp only [raspdifBufferSamples, frameEntry, codeA, codeB]

end

end Raspdif
