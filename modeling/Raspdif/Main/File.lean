import Raspdif.Writer.ParseSample

/-!
# The input file

What `main` uses of stdio.  A `File` is the bytes that have arrived and were not read
yet, whether more can arrive, and the end-of-file indicator; `File.fread` takes what is
available up to the request, as a non-blocking read does, and a blocking one first waits
until the file is `Ready`.

The bytes of a stream fall into frames of two samples each: `frames` are the samples that
`raspdif_parse_sample` gets out of them.
-/

namespace Raspdif

structure File where
  /-- Arrived and not read yet. -/
  pending : List UInt8
  /-- The writer has closed its end: nothing more arrives. -/
  closed : Bool
  /-- `feof`. -/
  eof : Bool

structure FileRead where
  /-- What `fread` returns. -/
  items : Nat
  copied : List UInt8
  file : File

/-- `fread(samples, size, count, file)`. -/
def File.fread (file : File) (size count : Nat) : FileRead where
  items := (file.pending.take (size * count)).length / size
  copied := file.pending.take (size * count)
  file :=
    { file with
      pending := file.pending.drop (size * count)
      eof := file.eof || (file.closed && decide (file.pending.length < size * count)) }

/-- A blocking `fread` of so many bytes returns. -/
def File.Ready (file : File) (bytes : Nat) : Prop :=
  bytes ≤ file.pending.length ∨ file.closed = true

instance (file : File) (bytes : Nat) : Decidable (file.Ready bytes) :=
  inferInstanceAs (Decidable (_ ∨ _))

/-- The bytes of one input frame. -/
def RaspdifFormat.frameSize (format : RaspdifFormat) : Nat := format.sampleSize * 2

theorem RaspdifFormat.sampleSize_pos (format : RaspdifFormat) : 0 < format.sampleSize := by
  cases format <;> exact Nat.zero_lt_succ _

theorem RaspdifFormat.frameSize_pos (format : RaspdifFormat) : 0 < format.frameSize :=
  Nat.mul_pos format.sampleSize_pos Nat.two_pos

/-- A read returns both samples exactly when it copies a whole frame. -/
theorem File.items_eq_two_iff (file : File) (format : RaspdifFormat) :
    (file.fread format.sampleSize 2).items = 2 ↔
      (file.fread format.sampleSize 2).copied.length = format.frameSize := by
  have pos := format.sampleSize_pos
  have bound : (file.fread format.sampleSize 2).copied.length ≤ format.sampleSize * 2 :=
    List.length_take_le _ _
  change (file.fread format.sampleSize 2).copied.length / format.sampleSize = 2 ↔ _
  rw [RaspdifFormat.frameSize]
  constructor
  · intro two
    have enough := Nat.div_mul_le_self (file.fread format.sampleSize 2).copied.length
      format.sampleSize
    rw [two] at enough
    omega
  · intro whole
    rw [whole, Nat.mul_div_cancel_left 2 pos]

/-! ## Input frames -/

/-- The two samples in the bytes of `samples`, parsed as `main` does. -/
def RaspdifFormat.parseFrame (format : RaspdifFormat) (samples : List UInt8) :
    BitVec 32 × BitVec 32 :=
  (raspdifParseSample format samples, raspdifParseSample format (samples.drop format.sampleSize))

/-- Frame number `n` of a byte stream. -/
def RaspdifFormat.frameBytes (format : RaspdifFormat) (stream : List UInt8) (n : Nat) :
    List UInt8 :=
  (stream.drop (format.frameSize * n)).take format.frameSize

/-- The consecutive frames of a byte stream, parsed; bytes short of a frame at its end
make none. -/
def RaspdifFormat.frames (format : RaspdifFormat) (stream : List UInt8) :
    List (BitVec 32 × BitVec 32) :=
  (List.range (stream.length / format.frameSize)).map fun n =>
    format.parseFrame (format.frameBytes stream n)

theorem raspdifParseSample_append {format : RaspdifFormat} {bytes : List UInt8}
    (enough : format.sampleSize ≤ bytes.length) (rest : List UInt8) :
    raspdifParseSample format (bytes ++ rest) = raspdifParseSample format bytes := by
  have same {k : Nat} (bound : k < format.sampleSize) :
      byteAt (bytes ++ rest) k = byteAt bytes k := by
    rw [byteAt, byteAt, List.getD_eq_getElem?_getD, List.getD_eq_getElem?_getD,
      List.getElem?_append_left (bound.trans_le enough)]
  cases format with
  | s16le =>
      simp only [RaspdifFormat.sampleSize] at same
      simp only [raspdifParseSample, same (k := 0) (by omega), same (k := 1) (by omega)]
  | s24le =>
      simp only [RaspdifFormat.sampleSize] at same
      simp only [raspdifParseSample, same (k := 0) (by omega), same (k := 1) (by omega),
        same (k := 2) (by omega)]

/-- Parsing looks at one frame of `samples` only. -/
theorem RaspdifFormat.parseFrame_append {format : RaspdifFormat} {bytes : List UInt8}
    (whole : bytes.length = format.frameSize) (rest : List UInt8) :
    format.parseFrame (bytes ++ rest) = format.parseFrame bytes := by
  rw [RaspdifFormat.frameSize] at whole
  have second : format.sampleSize ≤ (bytes.drop format.sampleSize).length := by
    rw [List.length_drop]
    omega
  rw [RaspdifFormat.parseFrame, RaspdifFormat.parseFrame,
    List.drop_append_of_le_length (by omega), raspdifParseSample_append (by omega),
    raspdifParseSample_append second]

theorem RaspdifFormat.frames_append {format : RaspdifFormat} {bytes : List UInt8}
    (whole : bytes.length = format.frameSize) (rest : List UInt8) :
    format.frames (bytes ++ rest) = format.parseFrame bytes :: format.frames rest := by
  have count : (bytes ++ rest).length / format.frameSize = rest.length / format.frameSize + 1 := by
    rw [List.length_append, whole, Nat.add_comm, Nat.add_div_right _ format.frameSize_pos]
  have first : format.frameBytes (bytes ++ rest) 0 = bytes := by
    rw [RaspdifFormat.frameBytes, Nat.mul_zero, List.drop_zero, List.take_left' whole]
  have later (n : Nat) : format.frameBytes (bytes ++ rest) (n + 1) = format.frameBytes rest n := by
    rw [RaspdifFormat.frameBytes, RaspdifFormat.frameBytes, Nat.mul_succ, Nat.add_comm, ← whole,
      List.drop_append, List.drop_of_length_le (by omega), List.nil_append,
      Nat.add_sub_cancel_left]
  rw [RaspdifFormat.frames, RaspdifFormat.frames, count, List.range_succ_eq_map, List.map_cons,
    List.map_map, first]
  refine congrArg _ (List.map_congr_left fun n _ => ?_)
  exact congrArg format.parseFrame (later n)

/-- A stream read frame by frame. -/
theorem RaspdifFormat.frames_flatten {format : RaspdifFormat} {reads : List (List UInt8)}
    (whole : ∀ bytes ∈ reads, bytes.length = format.frameSize) (rest : List UInt8) :
    format.frames (reads.flatten ++ rest) = reads.map format.parseFrame ++ format.frames rest := by
  induction reads with
  | nil => rfl
  | cons bytes reads ih =>
      rw [List.forall_mem_cons] at whole
      rw [List.flatten_cons, List.append_assoc, RaspdifFormat.frames_append whole.1, ih whole.2]
      rfl

end Raspdif
