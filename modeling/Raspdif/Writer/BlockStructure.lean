import Raspdif.Spdif.Receiver
import Raspdif.Writer.BufferSamples

/-!
# Sequences of calls of `raspdif_buffer_samples`

`EncoderAt count` is what the `static` counters and the block hold after `count`
calls, whatever was encoded; one call moves it by one (`EncoderAt.call`).  It is the
one invariant of the encoder, and every result about a run of calls comes from it.

`block_structure`: the `n`-th call of any sequence stores the frame of block
position `n % 192`, with the preambles and channel status bits of that position and
no trace of the calls before it.
-/

namespace Raspdif

open BitString

/-! ## The invariant -/

/-- The block position of call number `count`. -/
def blockPosition (count : Nat) : Fin spdifFrameCount :=
  ⟨count % spdifFrameCount, Nat.mod_lt _ (by decide)⟩

/-- The encoder state after `count` calls. -/
structure EncoderAt (count : Nat) (statics : Statics) (block : SpdifBlock) : Prop where
  position : statics.position = blockPosition count
  slot : statics.slot.val = count % raspdifBufferSize
  kept : block.SameKept initialBlock

theorem EncoderAt.initial : EncoderAt 0 Statics.initial initialBlock :=
  ⟨rfl, rfl, .refl _⟩

section

variable {count : Nat} {statics : Statics} {block : SpdifBlock}

theorem EncoderAt.call (reached : EncoderAt count statics block) (buffer : RaspdifBuffer)
    (format : RaspdifFormat) (sampleA sampleB : BitVec 32) :
    EncoderAt (count + 1)
      (raspdifBufferSamples statics buffer block format sampleA sampleB).statics
      (raspdifBufferSamples statics buffer block format sampleA sampleB).block where
  position := by
    apply Fin.ext
    rw [raspdifBufferSamples_statics, Statics.position_next, reached.position]
    exact Nat.mod_add_mod _ _ _
  slot := by
    rw [raspdifBufferSamples_statics, Statics.slot_next, reached.slot]
    exact Nat.mod_add_mod _ _ _
  kept := raspdifBufferSamples_sameKept reached.kept

theorem EncoderAt.stores (reached : EncoderAt count statics block) (buffer : RaspdifBuffer)
    (format : RaspdifFormat) (sampleA sampleB : BitVec 32) :
    (raspdifBufferSamples statics buffer block format sampleA sampleB).buffer.sample =
      Function.update buffer.sample statics.slot
        (frameEntry (blockPosition count) format sampleA sampleB) := by
  rw [raspdifBufferSamples_buffer reached.kept, reached.position]

/-- A call reports a full buffer when its slot was the last one. -/
theorem EncoderAt.full (reached : EncoderAt count statics block) (buffer : RaspdifBuffer)
    (format : RaspdifFormat) (sampleA sampleB : BitVec 32) :
    (raspdifBufferSamples statics buffer block format sampleA sampleB).full =
      decide ((count + 1) % raspdifBufferSize = 0) := by
  have moved := (reached.call buffer format sampleA sampleB).slot
  rw [raspdifBufferSamples_statics] at moved
  rw [raspdifBufferSamples_full, moved]
  rfl

end

/-! ## Runs of calls -/

/-- The arguments of one call; the buffer is whatever the caller points at. -/
structure BufferCall where
  buffer : RaspdifBuffer
  format : RaspdifFormat
  sampleA : BitVec 32
  sampleB : BitVec 32

structure Encoder where
  statics : Statics
  block : SpdifBlock

/-- The state `main` starts from: zeroed counters, and a zeroed block after
`spdif_populate_channel_status`. -/
def Encoder.initial : Encoder := ⟨Statics.initial, initialBlock⟩

def Encoder.call (e : Encoder) (c : BufferCall) : Buffered :=
  raspdifBufferSamples e.statics c.buffer e.block c.format c.sampleA c.sampleB

def Encoder.after (e : Encoder) (c : BufferCall) : Encoder :=
  ⟨(e.call c).statics, (e.call c).block⟩

/-- The slot the call wrote, read back from the buffer it left. -/
def Encoder.stored (e : Encoder) (c : BufferCall) : RaspdifEntry :=
  (e.call c).buffer.sample e.statics.slot

def Encoder.run (e : Encoder) (calls : List BufferCall) : Encoder := calls.foldl Encoder.after e

/-- The frames stored by successive calls. -/
def Encoder.entries (e : Encoder) : List BufferCall → List RaspdifEntry
  | [] => []
  | c :: calls => e.stored c :: (e.after c).entries calls

/-- The frame a call stores as number `count` of a run. -/
def BufferCall.entry (c : BufferCall) (count : Nat) : RaspdifEntry :=
  frameEntry (blockPosition count) c.format c.sampleA c.sampleB

theorem Encoder.stored_eq {e : Encoder} {count : Nat} (reached : EncoderAt count e.statics e.block)
    (c : BufferCall) : e.stored c = c.entry count := by
  rw [Encoder.stored, Encoder.call, reached.stores, Function.update_self]
  rfl

theorem Encoder.after_at {e : Encoder} {count : Nat}
    (reached : EncoderAt count e.statics e.block) (c : BufferCall) :
    EncoderAt (count + 1) (e.after c).statics (e.after c).block :=
  reached.call c.buffer c.format c.sampleA c.sampleB

theorem Encoder.run_at {e : Encoder} {count : Nat} (reached : EncoderAt count e.statics e.block)
    (calls : List BufferCall) :
    EncoderAt (count + calls.length) (e.run calls).statics (e.run calls).block := by
  induction calls generalizing e count with
  | nil => exact reached
  | cons c calls ih =>
      rw [List.length_cons, Nat.add_comm calls.length, ← Nat.add_assoc]
      exact ih (Encoder.after_at reached c)

theorem Encoder.getElem?_entries {e : Encoder} {count : Nat}
    (reached : EncoderAt count e.statics e.block) (calls : List BufferCall) (n : Nat) :
    (e.entries calls)[n]? = (calls[n]?).map fun c => c.entry (count + n) := by
  induction calls generalizing e count n with
  | nil => rfl
  | cons c calls ih =>
      cases n with
      | zero => exact congrArg some (Encoder.stored_eq reached c)
      | succ n =>
          rw [Encoder.entries, List.getElem?_cons_succ, List.getElem?_cons_succ,
            ih (Encoder.after_at reached c), Nat.add_assoc, Nat.add_comm 1]

/-! ## What a stored frame carries -/

/-- The half-cells of a stored code, most significant word and bit first. -/
def RaspdifSample.cells (s : RaspdifSample) : List Bool := msbFirst s.msb ++ msbFirst s.lsb

theorem RaspdifSample.cells_ofCode (code : BitVec 64) :
    (RaspdifSample.ofCode code).cells = msbFirst code := by
  have high := drop_msbFirst code (s := 32) (k := 32) (by decide)
  have low := drop_msbFirst code (s := 0) (k := 32) (by decide)
  rw [List.drop_of_length_le (i := 64 - 0) (by simp), List.append_nil] at low
  rw [RaspdifSample.cells, RaspdifSample.ofCode]
  exact ((high.trans (by rw [low]; rfl)).symm)

/-- The call that encodes the left subframe of a block position. -/
def subframeCallA (position : Fin spdifFrameCount) (format : RaspdifFormat)
    (sample : BitVec 32) : SubframeCall where
  subframe := (initialBlock.frames position).a
  preamble := preambleA position
  depth := format.bitDepth
  sample := sample
  clear := rfl

/-- The call that encodes the right subframe of a block position. -/
def subframeCallB (position : Fin spdifFrameCount) (format : RaspdifFormat)
    (sample : BitVec 32) : SubframeCall where
  subframe := (initialBlock.frames position).b
  preamble := .w
  depth := format.bitDepth
  sample := sample
  clear := rfl

theorem frameEntry_a_cells (position : Fin spdifFrameCount) (format : RaspdifFormat)
    (sampleA sampleB : BitVec 32) :
    (frameEntry position format sampleA sampleB).a.cells =
      msbFirst (subframeCallA position format sampleA).code :=
  RaspdifSample.cells_ofCode _

theorem frameEntry_b_cells (position : Fin spdifFrameCount) (format : RaspdifFormat)
    (sampleA sampleB : BitVec 32) :
    (frameEntry position format sampleA sampleB).b.cells =
      msbFirst (subframeCallB position format sampleB).code :=
  RaspdifSample.cells_ofCode _

/-- What a receiver finds in a subframe that carries a sample and bit `position` of a
channel status. -/
def receivedSample (preamble : SpdifPreamble) (status : SpdifPcmChannelStatus)
    (position : Fin spdifFrameCount) (format : RaspdifFormat) (sample : BitVec 32) :
    ReceivedSubframe where
  preamble := preamble
  aux := format.bitDepth.auxField sample
  sample := format.bitDepth.sampleField sample
  validity := false
  userData := false
  channelStatus := status.bit position
  evenParity := true

/-- A call on a subframe with clear user data is received as its sample. -/
theorem SubframeCall.received_eq {call : SubframeCall} {status : SpdifPcmChannelStatus}
    {position : Fin spdifFrameCount} {format : RaspdifFormat}
    (depth : call.depth = format.bitDepth) (user : call.subframe.userData = 0)
    (carries : call.subframe.channelStatus = status.field position) :
    call.received = receivedSample call.preamble status position format call.sample := by
  have even : call.updated.dataBits.count true % 2 = 0 :=
    Nat.even_iff.mp (even_count_spdifBuildSubframe call.clear ..)
  rw [receivedSample, ← depth, ← status.getLsbD_field, ← carries]
  simp only [SubframeCall.received, SpdifSubframe.received, even]
  simp [SubframeCall.updated, user]

theorem subframeCallA_received (position : Fin spdifFrameCount) (format : RaspdifFormat)
    (sample : BitVec 32) :
    (subframeCallA position format sample).received =
      receivedSample (preambleA position) channelStatusA position format sample :=
  SubframeCall.received_eq rfl rfl rfl

theorem subframeCallB_received (position : Fin spdifFrameCount) (format : RaspdifFormat)
    (sample : BitVec 32) :
    (subframeCallB position format sample).received =
      receivedSample .w channelStatusB position format sample :=
  SubframeCall.received_eq rfl rfl rfl

/-! ## Block structure -/

/-- The channel status bits of the two channels differ in the channel number only:
1 for the left channel, 2 for the right one. -/
theorem channelStatus_bit_ne_iff (i : Fin spdifFrameCount) :
    channelStatusA.bit i ≠ channelStatusB.bit i ↔ i.val = 20 ∨ i.val = 21 := by
  revert i
  decide +kernel

/-- **Block structure and history independence.**  Of any sequence of calls, call
number `n` stores the frame that `n % 192`, its format and its samples determine.  A
receiver finds in it preamble B exactly when `n % 192 = 0` and M otherwise, then W,
and the channel status bits of that position, which differ between the channels in
the channel number only.  At every moment of the run the block still has the
preamble, user and channel status fields it started with. -/
theorem block_structure (calls : List BufferCall) (n : Fin calls.length) :
    (∃ entry a b,
        (Encoder.initial.entries calls)[n.val]? = some entry ∧
        entry = frameEntry (blockPosition n) calls[n].format calls[n].sampleA calls[n].sampleB ∧
        receiveSubframe false entry.a.cells = some a ∧
        receiveSubframe false entry.b.cells = some b ∧
        a.preamble = (if n.val % 192 = 0 then .b else .m) ∧
        b.preamble = .w ∧
        a.channelStatus = channelStatusA.bit (blockPosition n) ∧
        b.channelStatus = channelStatusB.bit (blockPosition n)) ∧
      (channelStatusB = { channelStatusA with channelNumber := 2 } ∧
        channelStatusA.channelNumber = 1 ∧
        ∀ i, channelStatusA.bit i ≠ channelStatusB.bit i ↔ i.val = 20 ∨ i.val = 21) ∧
      ∀ count, (Encoder.initial.run (calls.take count)).block.SameKept initialBlock := by
  refine ⟨?_, ⟨rfl, rfl, channelStatus_bit_ne_iff⟩,
    fun count => (Encoder.run_at EncoderAt.initial _).kept⟩
  have stored : (Encoder.initial.entries calls)[n.val]? = some (calls[n].entry n) := by
    rw [Encoder.getElem?_entries EncoderAt.initial, Nat.zero_add]
    simp
  refine ⟨_,
    receivedSample (preambleA (blockPosition n)) channelStatusA (blockPosition n)
      calls[n].format calls[n].sampleA,
    receivedSample .w channelStatusB (blockPosition n) calls[n].format calls[n].sampleB,
    stored, rfl, ?_, ?_, rfl, rfl, rfl, rfl⟩
  · rw [BufferCall.entry, frameEntry_a_cells, SubframeCall.receiveSubframe_code,
      subframeCallA_received]
  · rw [BufferCall.entry, frameEntry_b_cells, SubframeCall.receiveSubframe_code,
      subframeCallB_received]

end Raspdif
