import Raspdif.Main.Input

/-!
# The preload loop

`Preloaded` is the moment at which `main` has filled the three buffers and enables the
DMA: the start of every statement about the read loop.  `exists_preloaded`: any stream
that is long enough gets there.
-/

namespace Raspdif

open Trace

/-- The frames in the ring. -/
abbrev ringSize : Nat := raspdifBufferCount * raspdifBufferSize

/-- `main` has just left a complete preload and enabled the DMA. -/
structure Preloaded (setup : Setup) (trace : List Event) (s : Main) : Prop where
  ends : ∃ buffers past mid answers copied,
    Run (Main.Step setup) (Main.start buffers) past mid ∧
    mid.step setup answers = some (s, [.fread copied, .dmaEnable]) ∧
    trace = past ++ [.fread copied, .dmaEnable]
  complete : (calls trace).length = ringSize

section

variable {setup : Setup} {trace : List Event} {s : Main}

theorem Preloaded.run (preloaded : Preloaded setup trace s) :
    ∃ buffers, Run (Main.Step setup) (Main.start buffers) trace s := by
  rcases preloaded.ends with ⟨buffers, past, mid, answers, copied, run, last, rfl⟩
  exact ⟨buffers, .snoc run (.cpu answers last)⟩

theorem Preloaded.cursor (preloaded : Preloaded setup trace s) : Cursor setup trace s := by
  rcases preloaded.run with ⟨buffers, run⟩
  exact Cursor.of_run run

/-- The read loop starts at buffer 0. -/
theorem Preloaded.loop (preloaded : Preloaded setup trace s) :
    s.pc = .readLoop ∧ s.bufferIndex = 0 := by
  rcases preloaded.ends with ⟨buffers, past, mid, answers, copied, run, last, rfl⟩
  cases Main.step_moves last with
  | preloadDone => exact ⟨rfl, rfl⟩

theorem Preloaded.inRing (preloaded : Preloaded setup trace s) :
    s.bufferIndex < raspdifBufferCount := by
  rw [preloaded.loop.2]
  exact Nat.zero_lt_succ _

theorem Preloaded.idle (preloaded : Preloaded setup trace s) (file : s.file = ⟨[], false, false⟩) :
    s.Idle ringSize := by
  have encoder := preloaded.cursor.encoder
  rw [preloaded.complete] at encoder
  exact ⟨preloaded.loop.1, file, preloaded.inRing, encoder⟩

theorem Preloaded.fills_eq (preloaded : Preloaded setup trace s) : fills trace = 0 := by
  rcases preloaded.ends with ⟨buffers, past, mid, answers, copied, run, last, rfl⟩
  have control := (Cursor.of_run run).control
  cases Main.step_moves last with
  | preloadDone pc =>
      rw [pc] at control
      rw [fills_append, control.2.2]
      rfl

end

/-! ## Every long enough stream is preloaded -/

section

variable (setup : Setup) (stream : List UInt8)

/-- The preload loop stores one frame for each frame of the stream. -/
theorem exists_preload_run (buffers : Nat → RaspdifBuffer) (count : Nat) (fits : count ≤ ringSize)
    (enough : setup.format.frameSize * count ≤ stream.length) :
    ∃ trace s, Run (Main.Step setup) (Main.start buffers) trace s ∧ s.pc = .preload ∧
      (calls trace).length = count ∧ (reads trace).length = count ∧
      s.file = ⟨stream.drop (setup.format.frameSize * count), false, false⟩ ∧
      delivered trace = stream ∧
      ∀ copied ∈ reads trace, copied.length = setup.format.frameSize := by
  induction count with
  | zero =>
      refine ⟨[.delivered stream], _, .single (.deliver stream rfl), rfl, rfl, rfl, rfl,
        List.append_nil _, ?_⟩
      intro copied member
      cases member
  | succ count ih =>
      rw [Nat.mul_succ] at enough
      obtain ⟨trace, s, run, pc, made, taken, file, arrived, whole⟩ := ih (by omega) (by omega)
      have long : setup.format.frameSize ≤ s.file.pending.length := by
        rw [file, List.length_drop]
        omega
      obtain ⟨copied, items, left⟩ := Main.fread_of_long long
      have room : s.bufferIndex < raspdifBufferCount := by
        have control := (Cursor.of_run run).control
        rw [pc, made] at control
        rw [control.2.1]
        exact Nat.div_lt_of_lt_mul (by rw [Nat.mul_comm]; exact fits)
      have step := Main.step_of_moves setup ⟨0, 0, 0⟩
        (.preloadFrame pc (Or.inl long) (by omega) room)
      refine ⟨_, _, .snoc run (.cpu _ step), pc, ?_, ?_, ?_, ?_, ?_⟩
      · rw [calls_append, List.length_append, made]
        rfl
      · rw [reads_append, List.length_append, taken]
        rfl
      · change (s.fread setup).file = _
        rw [left, file, List.drop_drop, Nat.mul_succ]
      · rw [delivered_append, arrived]
        exact List.append_nil _
      · rw [reads_append, List.forall_mem_append]
        exact ⟨whole, List.forall_mem_singleton.mpr copied⟩

/-- The preload reads one frame more than the ring holds before it stops. -/
theorem exists_leaving (enough : setup.format.frameSize * (ringSize + 1) ≤ stream.length) :
    ∃ trace mid s, Run (Main.Step setup) (Main.start fun _ => .zero) trace mid ∧
      mid.Moves setup ⟨0, 0, 0⟩ s [.fread (mid.fread setup).copied, .dmaEnable] ∧
      (calls trace).length = ringSize ∧ (reads trace).length = ringSize ∧
      s.file = ⟨stream.drop (setup.format.frameSize * (ringSize + 1)), false, false⟩ ∧
      delivered trace = stream ∧
      ∀ copied ∈ reads (trace ++ [.fread (mid.fread setup).copied, .dmaEnable]),
        copied.length = setup.format.frameSize := by
  rw [Nat.mul_succ] at enough
  obtain ⟨trace, s, run, pc, made, taken, file, arrived, whole⟩ :=
    exists_preload_run setup stream (fun _ => .zero) ringSize (Nat.le_refl _)
      ((Nat.le_add_right _ _).trans enough)
  have long : setup.format.frameSize ≤ s.file.pending.length := by
    rw [file, List.length_drop]
    exact Nat.le_sub_of_add_le' enough
  obtain ⟨copied, items, left⟩ := Main.fread_of_long long
  have complete : raspdifBufferCount ≤ s.bufferIndex := by
    have control := (Cursor.of_run run).control
    rw [pc, made] at control
    rw [control.2.1, ringSize, Nat.mul_div_cancel _ (Nat.zero_lt_succ _)]
  refine ⟨trace, s, _, run, .preloadDone pc (Or.inl long) (Or.inr complete), made, taken, ?_,
    arrived, ?_⟩
  · change (s.fread setup).file = _
    rw [left, file, List.drop_drop, Nat.mul_succ]
  · rw [reads_append, List.forall_mem_append]
    exact ⟨whole, List.forall_mem_singleton.mpr copied⟩

/-- Then the preload is complete. -/
theorem exists_preloaded (enough : setup.format.frameSize * (ringSize + 1) ≤ stream.length) :
    ∃ trace s, Preloaded setup trace s ∧ (reads trace).length = ringSize + 1 ∧
      s.file = ⟨stream.drop (setup.format.frameSize * (ringSize + 1)), false, false⟩ ∧
      delivered trace = stream ∧
      ∀ copied ∈ reads trace, copied.length = setup.format.frameSize := by
  obtain ⟨trace, mid, s, run, leave, made, taken, file, arrived, whole⟩ :=
    exists_leaving setup stream enough
  refine ⟨_, s, ⟨⟨_, trace, mid, _, _, run, Main.step_of_moves _ _ leave, rfl⟩, ?_⟩, ?_, file, ?_,
    whole⟩
  · rw [calls_append, List.length_append, made]
    rfl
  · rw [reads_append, List.length_append, taken]
    rfl
  · rw [delivered_append, arrived]
    exact List.append_nil _

end

/-- s16le silence, as much of it as a preload reads. -/
def silence : List UInt8 := (List.replicate (ringSize + 1) [0, 0, 0, 0]).flatten

theorem length_silence : silence.length = 4 * (ringSize + 1) := by
  simp [silence, Nat.mul_comm]

/-- The program for s16le input, without keep-alive. -/
def Setup.s16le : Setup := ⟨.s16le, false, 0⟩

/-- `main` for s16le input at the start of its read loop, with nothing more to read. -/
theorem exists_preloaded_silence :
    ∃ trace s, Preloaded .s16le trace s ∧ s.file = ⟨[], false, false⟩ := by
  obtain ⟨trace, s, preloaded, -, file, -⟩ := exists_preloaded .s16le silence length_silence.ge
  refine ⟨trace, s, preloaded, ?_⟩
  rw [file, List.drop_of_length_le]
  exact length_silence.le

end Raspdif
