import Raspdif.Writer.BlockStructure
import Raspdif.Writer.ParseSample

/-!
# From input bytes to a received stream

A run of calls puts its frames on the line one after the other.  This module reads
that line with the receiver of `Raspdif/Spdif/Receiver.lean`:

* `receive_entries`: the receiver recovers, frame by frame, the samples and the
  channel status bits that the calls were made with;
* `pcm_round_trip`: for PCM input it returns the input samples, at 24-bit scale.
-/

namespace Raspdif

open BitString

/-! ## The line of a run of calls -/

/-- The four words of a frame, each most significant bit first. -/
def RaspdifEntry.cells (entry : RaspdifEntry) : List Bool := entry.a.cells ++ entry.b.cells

/-- The subframes of calls number `count` and following. -/
def lineCalls (count : Nat) : List BufferCall → List SubframeCall
  | [] => []
  | c :: calls =>
      subframeCallA (blockPosition count) c.format c.sampleA ::
        subframeCallB (blockPosition count) c.format c.sampleB :: lineCalls (count + 1) calls

/-- What a receiver finds in the frames of calls number `count` and following. -/
def receivedFrom (count : Nat) : List BufferCall → List ReceivedSubframe
  | [] => []
  | c :: calls =>
      receivedSample (preambleA (blockPosition count)) channelStatusA (blockPosition count)
          c.format c.sampleA ::
        receivedSample .w channelStatusB (blockPosition count) c.format c.sampleB ::
          receivedFrom (count + 1) calls

theorem map_received_lineCalls (count : Nat) (calls : List BufferCall) :
    (lineCalls count calls).map SubframeCall.received = receivedFrom count calls := by
  induction calls generalizing count with
  | nil => rfl
  | cons c calls ih =>
      simp only [lineCalls, receivedFrom, List.map_cons, subframeCallA_received,
        subframeCallB_received, ih]

theorem cells_entries {e : Encoder} {count : Nat} (reached : EncoderAt count e.statics e.block)
    (calls : List BufferCall) :
    (e.entries calls).flatMap RaspdifEntry.cells = halfCells (lineCalls count calls) := by
  induction calls generalizing e count with
  | nil => rfl
  | cons c calls ih =>
      rw [Encoder.entries, List.flatMap_cons, ih (Encoder.after_at reached c),
        Encoder.stored_eq reached, RaspdifEntry.cells, BufferCall.entry, frameEntry_a_cells,
        frameEntry_b_cells, lineCalls, halfCells_cons, halfCells_cons, List.append_assoc]

/-- The receiver recovers every frame of every run of calls. -/
theorem receive_entries (calls : List BufferCall) :
    receive ((Encoder.initial.entries calls).flatMap RaspdifEntry.cells) =
      some (receivedFrom 0 calls) := by
  rw [cells_entries EncoderAt.initial, receive_halfCells, map_received_lineCalls]

/-! ## PCM frames -/

/-- One input frame, as `fread` stores it. -/
structure PcmFrame (format : RaspdifFormat) where
  bytes : List UInt8
  length : bytes.length = 2 * format.sampleSize

/-- The signed input value of the left channel. -/
def PcmFrame.left {format : RaspdifFormat} (frame : PcmFrame format) : Int :=
  signedLittleEndian (frame.bytes.take format.sampleSize)

/-- The signed input value of the right channel. -/
def PcmFrame.right {format : RaspdifFormat} (frame : PcmFrame format) : Int :=
  signedLittleEndian (frame.bytes.drop format.sampleSize)

/-- The call `main` makes for an input frame it has read into `samples`. -/
def PcmFrame.call {format : RaspdifFormat} (frame : PcmFrame format) (buffer : RaspdifBuffer) :
    BufferCall where
  buffer := buffer
  format := format
  sampleA := raspdifParseSample format frame.bytes
  sampleB := raspdifParseSample format (frame.bytes.drop format.sampleSize)

/-- A sample of the format in units of a 24-bit sample. -/
def RaspdifFormat.scale : RaspdifFormat → Int
  | .s16le => 2 ^ 8
  | .s24le => 1

/-! ## Samples through the subframe fields -/

/-- A 16-bit sample fills the top of the 20-bit field. -/
theorem fields_depth16 (x : BitVec 16) :
    SpdifSampleDepth.depth16.sampleField (x.signExtend 32) ++
      SpdifSampleDepth.depth16.auxField (x.signExtend 32) = x ++ 0#8 := by
  apply BitVec.eq_of_getLsbD_eq
  intro i bound
  simp only [SpdifSampleDepth.sampleField, SpdifSampleDepth.auxField, BitVec.getLsbD_append,
    BitVec.getLsbD_setWidth, BitVec.getLsbD_shiftLeft, BitVec.getLsbD_signExtend]
  rcases Nat.lt_or_ge i 8 with low | high
  · by_cases aux : i < 4
    · simp [low, aux]
    · simp [low, aux, show i - 4 < 4 by omega]
  · simp [show ¬ i < 8 by omega, show ¬ i < 4 by omega, show i - 4 < 20 by omega,
      show i - 4 < 32 by omega, show ¬ i - 4 < 4 by omega, show i - 4 - 4 = i - 8 by omega,
      show i - 8 < 32 by omega, show i - 8 < 16 by omega]

/-- A 24-bit sample is split into the 20-bit field and the aux nibble. -/
theorem fields_depth24 (x : BitVec 24) :
    SpdifSampleDepth.depth24.sampleField (x.signExtend 32) ++
      SpdifSampleDepth.depth24.auxField (x.signExtend 32) = x := by
  apply BitVec.eq_of_getLsbD_eq
  intro i bound
  simp only [SpdifSampleDepth.sampleField, SpdifSampleDepth.auxField, BitVec.getLsbD_append,
    BitVec.getLsbD_setWidth, BitVec.getLsbD_and, BitVec.getLsbD_sshiftRight]
  have extended : (x.signExtend 32).getLsbD i = x.getLsbD i := by
    rw [BitVec.getLsbD_signExtend, if_pos (by omega), decide_eq_true (by omega), Bool.true_and]
  by_cases aux : i < 4
  · have mask : (0xF : BitVec 32).getLsbD i = true := by
      obtain rfl | rfl | rfl | rfl : i = 0 ∨ i = 1 ∨ i = 2 ∨ i = 3 := by omega
      all_goals rfl
    simp only [aux, ↓reduceIte, decide_true, Bool.true_and, extended, mask, Bool.and_true]
  · simp only [aux, ↓reduceIte, show i - 4 < 20 by omega, decide_true, Bool.true_and,
      show 4 + (i - 4) = i by omega, show i < 32 by omega, show ¬ 32 ≤ i - 4 by omega,
      decide_false, Bool.not_false, extended]

theorem toInt_append_zero (x : BitVec 16) : (x ++ 0#8).toInt = 2 ^ 8 * x.toInt := by
  have wide : (x ++ 0#8).toNat = 2 ^ 8 * x.toNat := by
    rw [BitVec.toNat_append, BitVec.toNat_ofNat, Nat.shiftLeft_eq]
    simp [Nat.mul_comm]
  rw [BitVec.toInt_eq_toNat_cond, BitVec.toInt_eq_toNat_cond, wide]
  split <;> split <;> omega

/-- The 24 bits on the line are the input sample at 24-bit scale. -/
theorem toInt_fields (format : RaspdifFormat) {bytes : List UInt8}
    (enough : format.sampleSize ≤ bytes.length) :
    (format.bitDepth.sampleField (raspdifParseSample format bytes) ++
        format.bitDepth.auxField (raspdifParseSample format bytes)).toInt =
      format.scale * signedLittleEndian (bytes.take format.sampleSize) := by
  cases format with
  | s16le =>
      rcases bytes with _ | ⟨b0, _ | ⟨b1, rest⟩⟩
      · simp [RaspdifFormat.sampleSize] at enough
      · simp [RaspdifFormat.sampleSize] at enough
      · rw [raspdifParseSample_s16le, RaspdifFormat.bitDepth, fields_depth16, toInt_append_zero,
          RaspdifFormat.toInt_word16]
        rfl
  | s24le =>
      rcases bytes with _ | ⟨b0, _ | ⟨b1, _ | ⟨b2, rest⟩⟩⟩
      · simp [RaspdifFormat.sampleSize] at enough
      · simp [RaspdifFormat.sampleSize] at enough
      · simp [RaspdifFormat.sampleSize] at enough
      · rw [raspdifParseSample_s24le, RaspdifFormat.bitDepth, fields_depth24,
          RaspdifFormat.toInt_word24, RaspdifFormat.scale, one_mul]
        rfl

theorem PcmFrame.value24_left {format : RaspdifFormat} (frame : PcmFrame format)
    (buffer : RaspdifBuffer) (preamble : SpdifPreamble) (status : SpdifPcmChannelStatus)
    (position : Fin spdifFrameCount) :
    (receivedSample preamble status position format (frame.call buffer).sampleA).value24 =
      format.scale * frame.left :=
  toInt_fields format (by rw [frame.length]; omega)

theorem PcmFrame.value24_right {format : RaspdifFormat} (frame : PcmFrame format)
    (buffer : RaspdifBuffer) (preamble : SpdifPreamble) (status : SpdifPcmChannelStatus)
    (position : Fin spdifFrameCount) :
    (receivedSample preamble status position format (frame.call buffer).sampleB).value24 =
      format.scale * frame.right := by
  have rest : (frame.bytes.drop format.sampleSize).length = format.sampleSize := by
    rw [List.length_drop, frame.length]
    omega
  have whole := toInt_fields format rest.ge
  rw [List.take_of_length_le rest.le] at whole
  exact whole

/-- The calls made for a sequence of input frames, each into some buffer. -/
def pcmCalls {format : RaspdifFormat} (frames : List (RaspdifBuffer × PcmFrame format)) :
    List BufferCall :=
  frames.map fun frame => frame.2.call frame.1

/-- **PCM bytes to line and back.**  A receiver of the stored words returns, frame by
frame and left before right, the signed input values at 24-bit scale, valid, with user
bit 0 and even parity. -/
theorem pcm_round_trip (format : RaspdifFormat)
    (frames : List (RaspdifBuffer × PcmFrame format)) :
    ∃ received,
      receive ((Encoder.initial.entries (pcmCalls frames)).flatMap RaspdifEntry.cells) =
        some received ∧
      received.map ReceivedSubframe.value24 = frames.flatMap (fun frame =>
        [format.scale * frame.2.left, format.scale * frame.2.right]) ∧
      ∀ r ∈ received, r.validity = false ∧ r.userData = false ∧ r.evenParity = true := by
  refine ⟨_, receive_entries _, ?_, ?_⟩
  · generalize 0 = count
    induction frames generalizing count with
    | nil => rfl
    | cons frame frames ih =>
        have rest := ih (count + 1)
        rw [pcmCalls] at rest ⊢
        rw [List.map_cons, receivedFrom, List.map_cons, List.map_cons, List.flatMap_cons, rest]
        exact congrArg₂ _ (frame.2.value24_left ..) (congrArg₂ _ (frame.2.value24_right ..) rfl)
  · generalize pcmCalls frames = calls
    generalize 0 = count
    induction calls generalizing count with
    | nil => simp [receivedFrom]
    | cons c calls ih =>
        intro r member
        rw [receivedFrom, List.mem_cons, List.mem_cons] at member
        rcases member with rfl | rfl | later
        · exact ⟨rfl, rfl, rfl⟩
        · exact ⟨rfl, rfl, rfl⟩
        · exact ih (count + 1) r later

end Raspdif
