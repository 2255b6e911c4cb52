import Raspdif.Writer.Stream

/-!
# The declared word length

A consumer receiver does not take 24 bits on trust: `word_length`, bit 32 of the
channel status, tells it whether the aux nibble is audio.
`spdif_populate_channel_status` always declares at most 20 bits, for s24le input too,
so such a receiver drops the low four bits of every 24-bit sample.

`consumerRecovers_iff` says exactly which input survives.
-/

namespace Raspdif

/-! ## The consumer receiver -/

/-- The left channel: the subframes behind a B or an M preamble. -/
def leftChannel (received : List ReceivedSubframe) : List ReceivedSubframe :=
  received.filter (·.preamble != .w)

def rightChannel (received : List ReceivedSubframe) : List ReceivedSubframe :=
  received.filter (·.preamble == .w)

/-- The `word_length` bit of the block that subframe `n` of a channel belongs to; 0,
the default, while the block has not transmitted it. -/
def wordLengthBit (channel : List ReceivedSubframe) (n : Nat) : Bool :=
  ((channel[n / spdifFrameCount * spdifFrameCount + 32]?).map (·.channelStatus)).getD false

/-- The audio of a channel: 24 bits where the channel status says so, else 20. -/
def consumerAudio (channel : List ReceivedSubframe) : List Int :=
  channel.mapIdx fun n r => if wordLengthBit channel n then r.value24 else r.value20

/-! ## What the transmitter declares -/

theorem preambleA_ne_w (position : Fin spdifFrameCount) : preambleA position ≠ .w := by
  unfold preambleA
  split <;> decide

theorem leftChannel_receivedFrom (count : Nat) (calls : List BufferCall) :
    leftChannel (receivedFrom count calls) = calls.mapIdx fun n c =>
      receivedSample (preambleA (blockPosition (count + n))) channelStatusA
        (blockPosition (count + n)) c.format c.sampleA := by
  induction calls generalizing count with
  | nil => rfl
  | cons c calls ih =>
      have next (n : Nat) : count + 1 + n = count + (n + 1) := by omega
      have rest := ih (count + 1)
      have left := preambleA_ne_w (blockPosition count)
      simp only [next, leftChannel] at rest
      simpa [leftChannel, receivedFrom, List.mapIdx_cons, receivedSample, left] using rest

theorem rightChannel_receivedFrom (count : Nat) (calls : List BufferCall) :
    rightChannel (receivedFrom count calls) = calls.mapIdx fun n c =>
      receivedSample .w channelStatusB (blockPosition (count + n)) c.format c.sampleB := by
  induction calls generalizing count with
  | nil => rfl
  | cons c calls ih =>
      have next (n : Nat) : count + 1 + n = count + (n + 1) := by omega
      have rest := ih (count + 1)
      have left := preambleA_ne_w (blockPosition count)
      simp only [next, rightChannel] at rest
      simpa [rightChannel, receivedFrom, List.mapIdx_cons, receivedSample, left] using rest

theorem blockPosition_wordLength (n : Nat) :
    blockPosition (0 + (n / spdifFrameCount * spdifFrameCount + 32)) = ⟨32, by decide⟩ := by
  apply Fin.ext
  simp only [blockPosition, spdifFrameCount]
  omega

/-- A channel that carries a status with word length 0 is taken for 20-bit audio. -/
theorem consumerAudio_of_wordLength_zero {calls : List BufferCall}
    {sample : Nat → BufferCall → ReceivedSubframe} {status : SpdifPcmChannelStatus}
    (carries : ∀ n c, (sample n c).channelStatus = status.bit (blockPosition (0 + n)))
    (declared : status.bit ⟨32, by decide⟩ = false) :
    consumerAudio (calls.mapIdx sample) = (calls.mapIdx sample).map ReceivedSubframe.value20 := by
  have narrow (n : Nat) : wordLengthBit (calls.mapIdx sample) n = false := by
    rw [wordLengthBit, List.getElem?_mapIdx]
    cases calls[n / spdifFrameCount * spdifFrameCount + 32]? with
    | none => rfl
    | some c =>
        simp only [Option.map_some, Option.getD_some]
        rw [carries, blockPosition_wordLength, declared]
  unfold consumerAudio
  apply List.ext_getElem?
  intro n
  simp [narrow]

/-! ## Dropping the aux nibble -/

/-- A 24-bit value survives without its aux nibble exactly when it is a multiple of 16. -/
theorem ReceivedSubframe.value20_eq_value24_iff (r : ReceivedSubframe) :
    r.value20 = r.value24 ↔ (16 : Int) ∣ r.value24 := by
  have join (aux : BitVec 4) : (r.sample ++ aux).toNat = 16 * r.sample.toNat + aux.toNat := by
    rw [BitVec.toNat_append, ← Nat.shiftLeft_add_eq_or_of_lt aux.isLt, Nat.shiftLeft_eq]
    omega
  have small := r.aux.isLt
  have field := r.sample.isLt
  rw [ReceivedSubframe.value20, ReceivedSubframe.value24, BitVec.toInt_eq_toNat_cond,
    BitVec.toInt_eq_toNat_cond, join, join]
  simp only [BitVec.toNat_ofNat]
  split <;> split <;> omega

/-- A channel of 24-bit values is recovered from its 20-bit fields exactly when every
value is a multiple of 16. -/
theorem map_value20_eq_iff {α : Type} (inputs : List α) {call : α → BufferCall}
    {sample : Nat → BufferCall → ReceivedSubframe} {value : α → Int}
    (sent : ∀ n x, (sample n (call x)).value24 = value x) :
    ((inputs.map call).mapIdx sample).map ReceivedSubframe.value20 = inputs.map value ↔
      ∀ x ∈ inputs, (16 : Int) ∣ value x := by
  induction inputs generalizing sample with
  | nil => simp
  | cons x inputs ih =>
      have rest := ih (fun n y => sent (n + 1) y)
      have here : (sample 0 (call x)).value20 = value x ↔ (16 : Int) ∣ value x := by
        rw [← sent 0 x]
        exact (sample 0 (call x)).value20_eq_value24_iff
      rw [List.map_cons, List.mapIdx_cons, List.map_cons, List.map_cons, List.cons.injEq, here,
        rest, List.forall_mem_cons]

/-! ## Exactly what a consumer recovers -/

/-- A consumer receiver of the stored words returns every input sample. -/
def ConsumerRecovers {format : RaspdifFormat} (frames : List (RaspdifBuffer × PcmFrame format)) :
    Prop :=
  ∃ received,
    receive ((Encoder.initial.entries (pcmCalls frames)).flatMap RaspdifEntry.cells) =
      some received ∧
    consumerAudio (leftChannel received) = frames.map (format.scale * ·.2.left) ∧
    consumerAudio (rightChannel received) = frames.map (format.scale * ·.2.right)

/-- The aux nibbles of the line, which the declared word length excludes, must be zero. -/
theorem consumerRecovers_iff_dvd {format : RaspdifFormat}
    (frames : List (RaspdifBuffer × PcmFrame format)) :
    ConsumerRecovers frames ↔
      ∀ frame ∈ frames, (16 : Int) ∣ format.scale * frame.2.left ∧
        (16 : Int) ∣ format.scale * frame.2.right := by
  have left : consumerAudio (leftChannel (receivedFrom 0 (pcmCalls frames))) =
      frames.map (format.scale * ·.2.left) ↔
        ∀ frame ∈ frames, (16 : Int) ∣ format.scale * frame.2.left := by
    rw [leftChannel_receivedFrom, consumerAudio_of_wordLength_zero (fun _ _ => rfl) rfl]
    exact map_value20_eq_iff frames fun n frame => frame.2.value24_left ..
  have right : consumerAudio (rightChannel (receivedFrom 0 (pcmCalls frames))) =
      frames.map (format.scale * ·.2.right) ↔
        ∀ frame ∈ frames, (16 : Int) ∣ format.scale * frame.2.right := by
    rw [rightChannel_receivedFrom, consumerAudio_of_wordLength_zero (fun _ _ => rfl) rfl]
    exact map_value20_eq_iff frames fun n frame => frame.2.value24_right ..
  rw [ConsumerRecovers, receive_entries]
  simp only [Option.some.injEq, exists_eq_left', left, right, ← forall_and]

/-- **Declared word length.**  A consumer receiver recovers every sample exactly when
the input is s16le, or every s24le sample has its low four bits clear. -/
theorem consumerRecovers_iff (format : RaspdifFormat)
    (frames : List (RaspdifBuffer × PcmFrame format)) :
    ConsumerRecovers frames ↔
      format = .s16le ∨
        ∀ frame ∈ frames, (16 : Int) ∣ frame.2.left ∧ (16 : Int) ∣ frame.2.right := by
  rw [consumerRecovers_iff_dvd]
  cases format with
  | s16le =>
      simp only [true_or, iff_true, RaspdifFormat.scale]
      intro frame member
      exact ⟨Dvd.dvd.mul_right (by decide) _, Dvd.dvd.mul_right (by decide) _⟩
  | s24le => simp [RaspdifFormat.scale]

/-- One whole block of s24le input, so that its word length is transmitted: 1 on the
left channel, silence on the right. -/
def leastBitBlock : List (RaspdifBuffer × PcmFrame .s24le) :=
  List.replicate spdifFrameCount (.zero, ⟨[1, 0, 0, 0, 0, 0], rfl⟩)

/-- Its left samples are received as 0. -/
theorem not_consumerRecovers_leastBitBlock : ¬ ConsumerRecovers leastBitBlock := by
  intro recovers
  have lost := (consumerRecovers_iff_dvd leastBitBlock).mp recovers _
    (List.mem_replicate.mpr ⟨by decide, rfl⟩)
  exact absurd lost.1 (by decide)

end Raspdif
