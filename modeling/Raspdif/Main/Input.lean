import Raspdif.Main.Cursor

/-!
# What the program does with its input

Bookkeeping of the input bytes over a run.  `Fed`: what the calls of `fread` copied,
one after the other, and what is still pending are the bytes that arrived.  `handed` is
what becomes of them, the samples of the calls of `raspdif_buffer_samples` that come from
the input.
-/

namespace Raspdif

open Trace

/-- The frames handed to `raspdif_buffer_samples` by the preload and the read loop. -/
def handed (trace : List Event) : List (BitVec 32 × BitVec 32) :=
  ((calls trace).filter fun c => c.source = .input).map fun c => (c.sampleA, c.sampleB)

@[simp] theorem handed_append (first second : List Event) :
    handed (first ++ second) = handed first ++ handed second := by
  simp [handed]

/-- What was read and what is pending is what was there and what arrived. -/
def Fed (before : List UInt8) (trace : List Event) (s : Main) : Prop :=
  (reads trace).flatten ++ s.file.pending = before ++ delivered trace

theorem Fed.nil (s : Main) : Fed s.file.pending [] s :=
  (List.append_nil _).symm

section

variable {setup : Setup} {answers : Answers} {s s' : Main} {trace events : List Event}
  {before : List UInt8} {n : Nat}

/-- A step that neither reads nor delivers. -/
theorem Fed.quiet (fed : Fed before trace s) (noRead : reads events = [])
    (noDelivery : delivered events = []) (pending : s'.file.pending = s.file.pending) :
    Fed before (trace ++ events) s' := by
  unfold Fed
  rw [reads_append, delivered_append, noRead, noDelivery, List.append_nil, List.append_nil,
    pending]
  exact fed

/-- A step with one `fread`. -/
theorem Fed.read (fed : Fed before trace s) (read : reads events = [(s.fread setup).copied])
    (noDelivery : delivered events = [])
    (pending : s'.file.pending = (s.fread setup).file.pending) :
    Fed before (trace ++ events) s' := by
  have split : (s.fread setup).copied ++ (s.fread setup).file.pending = s.file.pending :=
    List.take_append_drop _ _
  unfold Fed
  rw [reads_append, delivered_append, read, noDelivery, List.append_nil, pending,
    List.flatten_append, List.flatten_singleton, List.append_assoc, split]
  exact fed

theorem Fed.step (fed : Fed before trace s) (one : Main.Step setup s events s') :
    Fed before (trace ++ events) s' := by
  cases one with
  | cpu answers ran =>
      cases Main.step_moves ran with
      | preloadFrame => exact fed.read rfl rfl rfl
      | preloadDone => exact fed.read rfl rfl rfl
      | finish => exact fed.quiet rfl rfl rfl
      | readWait => exact fed.quiet rfl rfl rfl
      | underrun => exact fed.read rfl rfl rfl
      | readFrame => exact fed.read rfl rfl rfl
      | fillRemainder => exact fed.quiet rfl rfl rfl
      | fillWait => exact fed.quiet rfl rfl rfl
      | fillEnter => exact fed.quiet rfl rfl rfl
      | fillReturn => exact fed.quiet rfl rfl rfl
      | fillBuffer => exact fed.quiet rfl rfl rfl
      | poll => exact fed.quiet rfl rfl rfl
  | deliver bytes _ =>
      have all : delivered [.delivered bytes] = bytes := List.append_nil bytes
      unfold Fed
      rw [reads_append, delivered_append, all, ← List.append_assoc before, ← fed,
        List.append_assoc]
      exact congrArg (List.flatten · ++ _) (List.append_nil _)
  | close => exact fed.quiet rfl rfl rfl

theorem Fed.of_run {start : Main} (run : Run (Main.Step setup) start trace s) :
    Fed start.file.pending trace s :=
  run.invariant (Fed start.file.pending) (Fed.nil start) Fed.step

/-! ## One read -/

theorem Main.items_eq_two_iff :
    (s.fread setup).items = 2 ↔ (s.fread setup).copied.length = setup.format.frameSize :=
  s.file.items_eq_two_iff setup.format

/-- A read of a whole frame, and what it leaves of the file. -/
theorem Main.fread_of_long (long : setup.format.frameSize ≤ s.file.pending.length) :
    (s.fread setup).copied.length = setup.format.frameSize ∧ (s.fread setup).items = 2 ∧
      (s.fread setup).file =
        { s.file with pending := s.file.pending.drop setup.format.frameSize } := by
  have whole : (s.fread setup).copied.length = setup.format.frameSize :=
    List.length_take_of_le long
  have inside : ¬ s.file.pending.length < setup.format.sampleSize * 2 := Nat.not_lt.mpr long
  refine ⟨whole, Main.items_eq_two_iff.mpr whole, ?_⟩
  simp [Main.fread, File.fread, inside, RaspdifFormat.frameSize]

/-- A read that copies a whole frame leaves the end-of-file indicator as it was. -/
theorem Main.eof_of_whole (whole : (s.fread setup).copied.length = setup.format.frameSize) :
    (s.fread setup).file.eof = s.file.eof := by
  have long : setup.format.frameSize ≤ s.file.pending.length := by
    rw [← whole]
    exact List.length_take_le' _ _
  rw [(Main.fread_of_long long).2.2]

/-- The frame that a whole read leaves in `samples`. -/
theorem Main.parseFrame_afterRead (whole : (s.fread setup).copied.length = setup.format.frameSize) :
    setup.format.parseFrame (s.afterRead setup).samples =
      setup.format.parseFrame (s.fread setup).copied :=
  RaspdifFormat.parseFrame_append whole _

/-- The read loop stores a frame when a whole one is pending and the DMA is elsewhere. -/
theorem Main.exists_readFrame (s : Main) (setup : Setup) (pc : s.pc = .readLoop)
    (noEof : s.file.eof = false) (inRing : s.bufferIndex < raspdifBufferCount)
    (long : setup.format.frameSize ≤ s.file.pending.length) :
    ∃ s', Main.Step setup s [.fread (s.fread setup).copied,
      .call ((s.afterRead setup).bufferInput setup).call] s' :=
  ⟨_, .cpu ⟨setup.controlBlock ((s.bufferIndex + 1) % raspdifBufferCount), 0, 0⟩
    (Main.step_of_moves _ _ (.readFrame pc noEof (setup.controlBlock_next_ne inRing)
      (Or.inl (Main.fread_of_long long).2.1)))⟩

theorem handed_read_call {copied : List UInt8} {c : Call} (input : c.source = .input) :
    handed [.fread copied, .call c] = [(c.sampleA, c.sampleB)] := by
  have one : calls [.fread copied, .call c] = [c] := rfl
  simp [handed, one, input]

theorem handed_delivered_call {bytes copied : List UInt8} {c : Call} (input : c.source = .input) :
    handed [.delivered bytes, .fread copied, .call c] = [(c.sampleA, c.sampleB)] := by
  change handed [.fread copied, .call c] = _
  exact handed_read_call input

theorem handed_fill_call {c : Call} (fill : c.source = .fill) : handed [.call c] = [] := by
  have one : calls [.call c] = [c] := rfl
  simp [handed, one, fill]

/-- Bytes arrive when none are pending. -/
theorem Main.Step.deliver_empty (file : s.file = ⟨[], false, false⟩) (bytes : List UInt8) :
    Main.Step setup s [.delivered bytes] { s with file := ⟨bytes, false, false⟩ } := by
  have step : Main.Step setup s _ _ := .deliver bytes (by rw [file])
  rw [file] at step
  exact step

/-- The read loop after `n` calls, with no byte pending. -/
structure Main.Idle (n : Nat) (s : Main) : Prop where
  pc : s.pc = .readLoop
  file : s.file = ⟨[], false, false⟩
  inRing : s.bufferIndex < raspdifBufferCount
  encoder : EncoderAt n s.statics s.block

/-- A frame that arrives in one piece is read and stored at once. -/
theorem exists_delivered_frame (setup : Setup) (idle : s.Idle n) (bytes : List UInt8)
    (whole : bytes.length = setup.format.frameSize) :
    ∃ c s', Run (Main.Step setup) s [.delivered bytes, .fread bytes, .call c] s' ∧
      s'.Idle (n + 1) ∧ c.source = .input ∧
      (c.sampleA, c.sampleB) = setup.format.parseFrame bytes := by
  rcases idle with ⟨pc, file, inRing, encoder⟩
  let arrived : Main := { s with file := ⟨bytes, false, false⟩ }
  have deliver : Main.Step setup s [.delivered bytes] arrived := .deliver_empty file bytes
  have all : (arrived.fread setup).copied = bytes := List.take_of_length_le whole.le
  have long : setup.format.frameSize ≤ arrived.file.pending.length := whole.ge
  obtain ⟨-, items, left⟩ := Main.fread_of_long long
  have step := Main.step_of_moves setup
    ⟨setup.controlBlock ((s.bufferIndex + 1) % raspdifBufferCount), 0, 0⟩
    (.readFrame (s := arrived) pc rfl (setup.controlBlock_next_ne inRing) (Or.inl items))
  have parsed : _ = setup.format.parseFrame (arrived.fread setup).copied :=
    Main.parseFrame_afterRead (by rw [all, whole])
  rw [all] at step parsed
  refine ⟨_, _, (Run.single deliver).append (.single (.cpu _ step)), ⟨pc, ?_, ?_, ?_⟩, rfl, parsed⟩
  · change (arrived.fread setup).file = _
    rw [left]
    exact congrArg (File.mk · false false) (List.drop_of_length_le whole.le)
  · change (ite _ _ _) < _
    split
    · exact Nat.mod_lt _ (Nat.zero_lt_succ _)
    · exact inRing
  · exact Main.bufferSamples_encoder setup encoder .input s.bufferIndex _ _

end

end Raspdif
