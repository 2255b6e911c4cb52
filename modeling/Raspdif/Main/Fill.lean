import Raspdif.Main.Preload

/-!
# `raspdif_fill_buffers` runs to its end

The two inner loops of `raspdif_fill_buffers` store frames until a buffer is full, and the
outer one waits for the DMA to leave each buffer in turn.  `exists_fill`: whenever the DMA
is elsewhere at each test, the routine returns, having filled the rest of the current
buffer and three whole ones, and neither the input nor `main`'s `buffer_index` has changed.
Its return comes behind its last call (`FillsLast`).
-/

namespace Raspdif

open Trace

/-- What a stretch of `raspdif_fill_buffers` leaves alone, and the number of its calls. -/
structure Filling (count : Nat) (trace : List Event) (s s' : Main) : Prop where
  file : s'.file = s.file
  samples : s'.samples = s.samples
  bufferIndex : s'.bufferIndex = s.bufferIndex
  reads : reads trace = []
  delivered : delivered trace = []
  handed : handed trace = []
  noClose : Event.closed ∉ trace
  calls : (calls trace).length = count

theorem Filling.append {m n : Nat} {first second : List Event} {s mid s' : Main}
    (left : Filling m first s mid) (right : Filling n second mid s') :
    Filling (m + n) (first ++ second) s s' where
  file := right.file.trans left.file
  samples := right.samples.trans left.samples
  bufferIndex := right.bufferIndex.trans left.bufferIndex
  reads := by rw [reads_append, left.reads, right.reads, List.append_nil]
  delivered := by rw [delivered_append, left.delivered, right.delivered, List.append_nil]
  handed := by rw [handed_append, left.handed, right.handed, List.append_nil]
  noClose := by
    rw [List.mem_append]
    exact not_or.mpr ⟨left.noClose, right.noClose⟩
  calls := by rw [calls_append, List.length_append, left.calls, right.calls]

/-- The last event is the return of the fill, and the only one of its kind. -/
def FillsLast (trace : List Event) : Prop :=
  ∃ stores, trace = stores ++ [.filled] ∧ fills stores = 0

theorem FillsLast.fills_eq {trace : List Event} (last : FillsLast trace) : fills trace = 1 := by
  rcases last with ⟨stores, rfl, none⟩
  rw [fills_append, none]
  rfl

theorem FillsLast.append {first trace : List Event} (last : FillsLast trace)
    (none : fills first = 0) : FillsLast (first ++ trace) := by
  rcases last with ⟨stores, rfl, none'⟩
  refine ⟨first ++ stores, (List.append_assoc _ _ _).symm, ?_⟩
  rw [fills_append, none, none']

/-- No call comes behind the return. -/
theorem FillsLast.fills_before {before after : List Event} {c : Call}
    (last : FillsLast (before ++ .call c :: after)) : fills before = 0 := by
  rcases last with ⟨stores, split, none⟩
  rcases cons_split_of_append split.symm with ⟨part, rfl, -⟩ | ⟨part, rfl, tail⟩
  · rw [fills_append] at none
    exact Nat.eq_zero_of_add_eq_zero_right none
  · rcases part with - | ⟨e, part⟩
    · cases tail
    · cases part <;> cases tail

/-- `while (!raspdif_buffer_samples(…)) {}` as the two inner loops have it: it stays at
`here` until the buffer is full and goes on at `next`. -/
def FillLoop (setup : Setup) (here next : Pc) (index : Nat) : Prop :=
  ∀ (answers : Answers) (s : Main), s.pc = here → s.step setup answers =
    some ({ (s.bufferFill setup answers index).main with
        pc := if (s.bufferFill setup answers index).full then next else here },
      [.call (s.bufferFill setup answers index).call])

theorem fillLoop_remainder (setup : Setup) (index : Nat) :
    FillLoop setup (.fillRemainder index) (.fillAll ((index + 1) % raspdifBufferCount) 0) index :=
  fun _ _ pc => Main.step_of_moves _ _ (.fillRemainder index pc)

theorem fillLoop_buffer (setup : Setup) (index count : Nat) :
    FillLoop setup (.fillBuffer index count)
      (.fillAll ((index + 1) % raspdifBufferCount) (count + 1)) index :=
  fun _ _ pc => Main.step_of_moves _ _ (.fillBuffer index count pc)

section

variable {setup : Setup} {s : Main} {n : Nat}

/-- An inner loop stores what is missing to the end of the buffer. -/
theorem FillLoop.exists_run {here next : Pc} {index : Nat} (loop : FillLoop setup here next index)
    (pc : s.pc = here) (reached : EncoderAt n s.statics s.block) (missing : Nat)
    (pos : 0 < missing) (bound : missing ≤ raspdifBufferSize)
    (whole : (n + missing) % raspdifBufferSize = 0) :
    ∃ trace s', Run (Main.Step setup) s trace s' ∧ s'.pc = next ∧
      EncoderAt (n + missing) s'.statics s'.block ∧ Filling missing trace s s' ∧
      fills trace = 0 := by
  induction missing generalizing s n with
  | zero => exact absurd pos (Nat.lt_irrefl 0)
  | succ missing ih =>
      have full := Main.bufferFill_full setup reached ⟨0, 0, 0⟩ index
      have step := loop ⟨0, 0, 0⟩ s pc
      have one : Filling 1 [.call (s.bufferFill setup ⟨0, 0, 0⟩ index).call] s
          { (s.bufferFill setup ⟨0, 0, 0⟩ index).main with
            pc := if (s.bufferFill setup ⟨0, 0, 0⟩ index).full then next else here } :=
        ⟨rfl, rfl, rfl, rfl, rfl, handed_fill_call rfl, by simp, rfl⟩
      have after := Main.bufferSamples_encoder setup reached .fill index
        (fillSample setup.keepAlive 0) (fillSample setup.keepAlive 0)
      rcases Nat.eq_zero_or_pos missing with rfl | more
      · refine ⟨_, _, .single (.cpu _ step), ?_, after, one, rfl⟩
        exact if_pos (full.mpr whole)
      · have room : (n + 1) % raspdifBufferSize ≠ 0 := by
          simp only [raspdifBufferSize] at *
          omega
        obtain ⟨trace, s', run, pc', reached', rest, none⟩ := ih
          (s := { (s.bufferFill setup ⟨0, 0, 0⟩ index).main with
            pc := if (s.bufferFill setup ⟨0, 0, 0⟩ index).full then next else here })
          (if_neg (mt full.mp room)) after more (by omega)
          (by rw [← whole, Nat.add_assoc, Nat.add_comm 1])
        refine ⟨_, s', Run.append (.single (.cpu _ step)) run, pc', ?_, ?_, ?_⟩
        · rw [← Nat.add_assoc, Nat.add_right_comm]
          exact reached'
        · rw [Nat.add_comm]
          exact one.append rest
        · rw [fills_append, none]
          rfl

/-- A step that only moves on. -/
theorem Filling.of_pc (pc : Pc) : Filling 0 [] s { s with pc := pc } :=
  ⟨rfl, rfl, rfl, rfl, rfl, rfl, List.not_mem_nil, rfl⟩

/-- The outer loop fills one buffer a round. -/
theorem exists_fillAll {index count : Nat} (pc : s.pc = .fillAll index count)
    (inRing : index < raspdifBufferCount) (reached : EncoderAt n s.statics s.block)
    (start : n % raspdifBufferSize = 0) (rounds : Nat)
    (left : count + rounds = raspdifBufferCount) :
    ∃ trace s', Run (Main.Step setup) s trace s' ∧ s'.pc = .poll ∧
      EncoderAt (n + raspdifBufferSize * rounds) s'.statics s'.block ∧
      Filling (raspdifBufferSize * rounds) trace s s' ∧ FillsLast trace := by
  induction rounds generalizing s n index count with
  | zero =>
      have step := Main.step_of_moves setup ⟨0, 0, 0⟩
        (.fillReturn index count pc left.ge)
      exact ⟨_, _, .single (.cpu _ step), rfl, reached,
        ⟨rfl, rfl, rfl, rfl, rfl, rfl, by simp, rfl⟩, [], rfl, rfl⟩
  | succ rounds ih =>
      have more : count < raspdifBufferCount := by omega
      have next : (index + 1) % raspdifBufferCount < raspdifBufferCount :=
        Nat.mod_lt _ (Nat.zero_lt_succ _)
      have enter := Main.step_of_moves setup
        ⟨setup.controlBlock ((index + 1) % raspdifBufferCount), 0, 0⟩
        (.fillEnter index count pc more (setup.controlBlock_next_ne inRing))
      have whole : (n + raspdifBufferSize) % raspdifBufferSize = 0 := by
        rw [Nat.add_mod_right, start]
      obtain ⟨body, mid, run, pc', reached', one, none⟩ :=
        (fillLoop_buffer setup index count).exists_run
          (s := { s with pc := .fillBuffer index count })
          rfl reached raspdifBufferSize (Nat.zero_lt_succ _) (Nat.le_refl _) whole
      obtain ⟨rest, s', run', pc'', reached'', many, last⟩ := ih pc' next reached' whole (by omega)
      refine ⟨_, s', (Run.single (.cpu _ enter)).append (run.append run'), pc'', ?_, ?_,
        last.append none⟩
      · rw [Nat.mul_succ, Nat.add_comm (_ * _), ← Nat.add_assoc]
        exact reached''
      · rw [Nat.mul_succ, Nat.add_comm, ← Nat.zero_add (_ + _)]
        exact (Filling.of_pc _).append (one.append many)

/-- The calls of one fill that starts after `n` calls. -/
def fillCalls (n : Nat) : Nat :=
  (raspdifBufferSize - n % raspdifBufferSize) + raspdifBufferSize * raspdifBufferCount

theorem fillCalls_pos (n : Nat) : 0 < fillCalls n :=
  Nat.add_pos_right _ (Nat.mul_pos (Nat.zero_lt_succ _) (Nat.zero_lt_succ _))

/-- Whatever the slot of the underrun, the routine can return. -/
theorem exists_fillReturn (setup : Setup) {index : Nat} (pc : s.pc = .fillRemainder index)
    (reached : EncoderAt n s.statics s.block) :
    ∃ trace s', Run (Main.Step setup) s trace s' ∧ s'.pc = .poll ∧
      EncoderAt (n + fillCalls n) s'.statics s'.block ∧
      Filling (fillCalls n) trace s s' ∧ FillsLast trace := by
  have bound : n % raspdifBufferSize < raspdifBufferSize := Nat.mod_lt _ (Nat.zero_lt_succ _)
  have whole : (n + (raspdifBufferSize - n % raspdifBufferSize)) % raspdifBufferSize = 0 := by
    simp only [raspdifBufferSize] at *
    omega
  obtain ⟨first, mid, run, pc', reached', one, none⟩ :=
    (fillLoop_remainder setup index).exists_run pc reached
      (raspdifBufferSize - n % raspdifBufferSize) (by omega) (Nat.sub_le _ _) whole
  obtain ⟨rest, s', run', pc'', reached'', many, last⟩ :=
    exists_fillAll pc' (Nat.mod_lt _ (Nat.zero_lt_succ _)) reached' whole raspdifBufferCount
      (Nat.zero_add _)
  rw [Nat.add_assoc] at reached''
  exact ⟨_, s', run.append run', pc'', reached'', one.append many, last.append none⟩

/-- Then the read loop goes on. -/
theorem exists_fill (setup : Setup) {index : Nat} (pc : s.pc = .fillRemainder index)
    (reached : EncoderAt n s.statics s.block) :
    ∃ trace s', Run (Main.Step setup) s trace s' ∧ s'.pc = .readLoop ∧
      EncoderAt (n + fillCalls n) s'.statics s'.block ∧
      Filling (fillCalls n) trace s s' ∧ FillsLast trace := by
  obtain ⟨trace, s', run, pc', reached', filling, last⟩ := exists_fillReturn setup pc reached
  have resume := Main.step_of_moves setup ⟨0, 0, 0⟩ (.poll pc')
  rw [← List.append_nil trace] at last
  exact ⟨_, _, run.append (.single (.cpu _ resume)), rfl, reached',
    filling.append (Filling.of_pc _), last⟩

/-- A read of less than a frame takes what is left of the input. -/
theorem step_of_short (setup : Setup) {pending : List UInt8} (pc : s.pc = .readLoop)
    (file : s.file = ⟨pending, false, false⟩) (short : pending.length < setup.format.frameSize)
    (inRing : s.bufferIndex < raspdifBufferCount) :
    Main.Step setup s [.fread pending]
        { s.afterRead setup with pc := .fillRemainder s.bufferIndex } ∧
      (s.afterRead setup).file = ⟨[], false, false⟩ := by
  have all : (s.fread setup).copied = pending := by
    change s.file.pending.take _ = _
    rw [file]
    exact List.take_of_length_le short.le
  have left : (s.fread setup).file = ⟨[], false, false⟩ := by
    simp only [RaspdifFormat.frameSize] at short
    simp [Main.fread, File.fread, file, short.le]
  have partial_ : (s.fread setup).items ≠ 2 := by
    rw [Ne, Main.items_eq_two_iff, all]
    exact short.ne
  have step := Main.step_of_moves setup
    ⟨setup.controlBlock ((s.bufferIndex + 1) % raspdifBufferCount), 0, 0⟩
    (.underrun pc (setup.controlBlock_next_ne inRing) partial_ (by rw [left]))
  rw [all] at step
  exact ⟨.cpu _ step, left⟩

/-- An underrun: what is left of the input is read and silence is stored. -/
theorem exists_underrun (setup : Setup) {pending : List UInt8} (pc : s.pc = .readLoop)
    (file : s.file = ⟨pending, false, false⟩) (short : pending.length < setup.format.frameSize)
    (inRing : s.bufferIndex < raspdifBufferCount) (reached : EncoderAt n s.statics s.block) :
    ∃ trace s', Run (Main.Step setup) s ([.fread pending] ++ trace) s' ∧
      s'.Idle (n + fillCalls n) ∧
      Filling (fillCalls n) trace { s.afterRead setup with pc := .fillRemainder s.bufferIndex } s' ∧
      FillsLast trace := by
  rcases step_of_short setup pc file short inRing with ⟨step, left⟩
  obtain ⟨trace, s', run, pc', reached', filling, last⟩ := exists_fill setup
    (s := { s.afterRead setup with pc := .fillRemainder s.bufferIndex }) rfl reached
  have index : s'.bufferIndex = s.bufferIndex := filling.bufferIndex
  exact ⟨trace, s', (Run.single step).append run,
    ⟨pc', filling.file.trans left, index ▸ inRing, reached'⟩, filling, last⟩

/-- An underrun that finds no byte. -/
theorem exists_silence (setup : Setup) (idle : s.Idle n) :
    ∃ trace s', Run (Main.Step setup) s ([.fread []] ++ trace) s' ∧
      s'.Idle (n + fillCalls n) ∧
      Filling (fillCalls n) trace { s.afterRead setup with pc := .fillRemainder s.bufferIndex } s' ∧
      FillsLast trace :=
  exists_underrun setup idle.pc idle.file setup.format.frameSize_pos idle.inRing idle.encoder

/-- The same up to its `poll`. -/
theorem exists_polling (setup : Setup) (idle : s.Idle n) :
    ∃ trace s', Run (Main.Step setup) s trace s' ∧ s'.pc = .poll ∧
      s'.file = ⟨[], false, false⟩ := by
  rcases step_of_short setup idle.pc idle.file setup.format.frameSize_pos idle.inRing with
    ⟨step, left⟩
  obtain ⟨trace, s', run, pc, -, filling, -⟩ := exists_fillReturn setup
    (s := { s.afterRead setup with pc := .fillRemainder s.bufferIndex }) rfl idle.encoder
  exact ⟨_, s', (Run.single step).append run, pc, filling.file.trans left⟩

end

end Raspdif
