import Raspdif.Main.Phase

/-!
# What an underrun leaves to replay

While `main` waits for input the DMA reads the ring round and round, so the ring that
`raspdif_fill_buffers` leaves has to be a stream without a seam.  `FillProgress` follows
one call of it: it stores the rest of the current buffer and three whole buffers, from
fill samples only.  So the ring holds the last 6144 of its frames, 32 blocks that join at
both ends, wherever in its block the encoder stood at the underrun.
-/

namespace Raspdif

open Trace Ring

/-! ## One call of `raspdif_fill_buffers` -/

/-- The samples `FILL_SAMPLE` can give: zero, or quiet noise in keep-alive. -/
def IsFillSample (keepAlive : Bool) (sample : BitVec 32) : Prop :=
  if keepAlive then -5 ≤ sample.toInt ∧ sample.toInt ≤ 4 else sample = 0

theorem isFillSample_fillSample (keepAlive : Bool) (rand : Nat) :
    IsFillSample keepAlive (fillSample keepAlive rand) := by
  cases keepAlive with
  | false => rfl
  | true =>
      have small : rand % 10 < 10 := Nat.mod_lt _ (by decide)
      simp only [IsFillSample, fillSample, ite_true]
      generalize rand % 10 = digit at small
      revert digit
      decide

/-- A call of `raspdif_buffer_samples` by `raspdif_fill_buffers`. -/
structure Call.IsFill (setup : Setup) (c : Call) : Prop where
  source : c.source = .fill
  sampleA : IsFillSample setup.keepAlive c.sampleA
  sampleB : IsFillSample setup.keepAlive c.sampleB

theorem Main.bufferFill_isFill (setup : Setup) (answers : Answers) (s : Main) (index : Nat) :
    (s.bufferFill setup answers index).call.IsFill setup :=
  ⟨rfl, isFillSample_fillSample .., isFillSample_fillSample ..⟩

/-- How far `raspdif_fill_buffers` has come after `n` calls, when it was entered after
`entry` of them. -/
def Pc.Filling (entry n : Nat) : Pc → Prop
  | .fillRemainder _ => entry ≤ n ∧ n / raspdifBufferSize = entry / raspdifBufferSize
  | .fillAll _ count =>
      count ≤ raspdifBufferCount ∧ n = raspdifBufferSize * (entry / raspdifBufferSize + 1 + count)
  | .fillBuffer _ count =>
      count < raspdifBufferCount ∧
        n / raspdifBufferSize = entry / raspdifBufferSize + 1 + count
  | _ => False

/-- The calls after the return. -/
def filledTo (entry : Nat) : Nat :=
  raspdifBufferSize * (entry / raspdifBufferSize + 1 + raspdifBufferCount)

/-- Until `raspdif_fill_buffers` returns for the first time, and after that as long as
`main` polls, all calls are its own. -/
structure FillProgress (setup : Setup) (past trace : List Event) (s : Main) : Prop where
  running : fills trace = 0 → s.pc.Filling (calls past).length (calls (past ++ trace)).length
  returned : fills trace = 1 → s.pc = .poll →
    (calls (past ++ trace)).length = filledTo (calls past).length
  own : fills trace = 0 ∨ (fills trace = 1 ∧ s.pc = .poll) →
    ∀ before c after, trace = before ++ .call c :: after → c.IsFill setup ∧ fills before = 0

section

variable {setup : Setup} {past trace events : List Event} {s s' : Main}

/-- A step outside `raspdif_fill_buffers` that does not lead to the poll. -/
theorem FillProgress.beyond (progress : FillProgress setup past trace s)
    (noFill : fills events = 0) (outside : ∀ entry n, ¬ s.pc.Filling entry n)
    (noPoll : s'.pc ≠ .poll) : FillProgress setup past (trace ++ events) s' := by
  have some : fills (trace ++ events) ≠ 0 := by
    rw [fills_append, noFill]
    exact fun none => outside _ _ (progress.running none)
  exact ⟨fun none => absurd none some, fun _ pc => absurd pc noPoll,
    fun during => during.elim (fun none => absurd none some) fun done => absurd done.2 noPoll⟩

/-- A step that makes no call and does not return. -/
theorem FillProgress.quiet (progress : FillProgress setup past trace s)
    (silent : calls events = []) (noFill : fills events = 0)
    (running : ∀ entry n, s.pc.Filling entry n → s'.pc.Filling entry n)
    (poll : s'.pc = .poll → s.pc = .poll) : FillProgress setup past (trace ++ events) s' := by
  have count : fills (trace ++ events) = fills trace := by
    rw [fills_append, noFill, Nat.add_zero]
  have made : calls (past ++ (trace ++ events)) = calls (past ++ trace) := by
    rw [← List.append_assoc, calls_append, silent, List.append_nil]
  refine ⟨?_, ?_, ?_⟩
  · intro none
    rw [made]
    exact running _ _ (progress.running (count ▸ none))
  · intro one pc
    rw [made]
    exact progress.returned (count ▸ one) (poll pc)
  · intro during before c after split
    rw [count] at during
    rcases cons_split_of_append split with ⟨part, here, -⟩ | ⟨part, -, there⟩
    · exact progress.own (during.imp_right fun done => ⟨done.1, poll done.2⟩) before c part here
    · rw [there, calls_append] at silent
      simp [calls, Event.call?] at silent

/-- One of its own calls. -/
theorem FillProgress.store (progress : FillProgress setup past trace s) {c : Call}
    (fill : c.IsFill setup) (noPoll : s'.pc ≠ .poll)
    (running : ∀ entry n, s.pc.Filling entry n → n = (calls (past ++ trace)).length →
      s'.pc.Filling entry (n + 1)) :
    FillProgress setup past (trace ++ [.call c]) s' := by
  have count : fills (trace ++ [.call c]) = fills trace := fills_append ..
  refine ⟨?_, fun _ pc => absurd pc noPoll, ?_⟩
  · intro none
    have made : (calls (past ++ (trace ++ [.call c]))).length =
        (calls (past ++ trace)).length + 1 := by
      rw [← List.append_assoc, calls_append, List.length_append]
      rfl
    rw [made]
    exact running _ _ (progress.running (count ▸ none)) rfl
  · intro during before d after split
    have none : fills trace = 0 :=
      during.elim (count ▸ ·) fun done => absurd done.2 noPoll
    rcases cons_split_of_append split with ⟨part, here, -⟩ | ⟨part, rfl, there⟩
    · exact progress.own (Or.inl none) before d part here
    · cases part with
      | nil =>
          obtain rfl := Event.call.inj (List.cons.inj there).1
          rw [List.append_nil]
          exact ⟨fill, none⟩
      | cons e part => exact absurd (congrArg List.length there) (by simp)

/-- The return. -/
theorem FillProgress.return (progress : FillProgress setup past trace s) {index count : Nat}
    (pc : s.pc = .fillAll index count) (all : raspdifBufferCount ≤ count) :
    FillProgress setup past (trace ++ [.filled]) s' := by
  have more : fills (trace ++ [.filled]) = fills trace + 1 := fills_append ..
  refine ⟨fun none => absurd none (by omega), ?_, ?_⟩
  · intro one _
    have running := progress.running (by omega)
    rw [pc] at running
    obtain ⟨bound, reached⟩ := running
    obtain rfl : count = raspdifBufferCount := Nat.le_antisymm bound all
    rw [← List.append_assoc, calls_append, List.length_append, reached]
    rfl
  · intro during before c after split
    rcases cons_split_of_append split with ⟨part, here, -⟩ | ⟨part, -, there⟩
    · exact progress.own (Or.inl (by omega)) before c part here
    · cases part with
      | nil => cases there
      | cons e part => exact absurd (congrArg List.length there) (by simp)

theorem Pc.Filling.fillRemainder {entry n index : Nat} {full : Bool}
    (filling : (Pc.fillRemainder index).Filling entry n)
    (fills : full = true ↔ (n + 1) % raspdifBufferSize = 0) :
    (if full then Pc.fillAll ((index + 1) % raspdifBufferCount) 0
      else Pc.fillRemainder index).Filling entry (n + 1) := by
  obtain ⟨behind, same⟩ := filling
  split
  next last =>
    have whole := fills.mp last
    refine ⟨Nat.zero_le _, ?_⟩
    simp only [raspdifBufferSize] at *
    omega
  next room =>
    have part := mt fills.mpr room
    refine ⟨Nat.le_succ_of_le behind, ?_⟩
    simp only [raspdifBufferSize] at *
    omega

theorem Pc.Filling.fillBuffer {entry n index count : Nat} {full : Bool}
    (filling : (Pc.fillBuffer index count).Filling entry n)
    (fills : full = true ↔ (n + 1) % raspdifBufferSize = 0) :
    (if full then Pc.fillAll ((index + 1) % raspdifBufferCount) (count + 1)
      else Pc.fillBuffer index count).Filling entry (n + 1) := by
  obtain ⟨more, here⟩ := filling
  split
  next last =>
    have whole := fills.mp last
    refine ⟨more, ?_⟩
    simp only [raspdifBufferSize] at *
    omega
  next room =>
    have part := mt fills.mpr room
    refine ⟨more, ?_⟩
    simp only [raspdifBufferSize] at *
    omega

theorem Pc.Filling.fillEnter {entry n index count : Nat}
    (filling : (Pc.fillAll index count).Filling entry n) (more : count < raspdifBufferCount) :
    (Pc.fillBuffer index count).Filling entry n := by
  refine ⟨more, ?_⟩
  rw [filling.2]
  exact Nat.mul_div_cancel_left _ (by decide)

theorem FillProgress.moves {answers : Answers} (progress : FillProgress setup past trace s)
    (cursor : Cursor setup (past ++ trace) s) (moves : s.Moves setup answers s' events) :
    FillProgress setup past (trace ++ events) s' := by
  have reached := cursor.encoder
  cases moves with
  | preloadFrame pc =>
      refine progress.beyond rfl (fun _ _ filling => by rw [pc] at filling; exact filling) ?_
      change s.pc ≠ .poll
      rw [pc]
      exact Pc.noConfusion
  | preloadDone pc | finish pc | underrun pc | poll pc =>
      exact progress.beyond rfl (fun _ _ filling => by rw [pc] at filling; exact filling)
        Pc.noConfusion
  | readWait pc => exact progress.quiet rfl rfl (fun _ _ => id) id
  | readFrame pc =>
      refine progress.beyond rfl (fun _ _ filling => by rw [pc] at filling; exact filling) ?_
      change s.pc ≠ .poll
      rw [pc]
      exact Pc.noConfusion
  | fillRemainder index pc =>
      have full := Main.bufferFill_full setup reached answers index
      refine progress.store (Main.bufferFill_isFill setup answers s index) ?_ ?_
      · dsimp only
        split <;> exact Pc.noConfusion
      · rintro entry n filling rfl
        rw [pc] at filling
        exact filling.fillRemainder full
  | fillWait index count pc more here => exact progress.quiet rfl rfl (fun _ _ => id) id
  | fillEnter index count pc more away =>
      refine progress.quiet rfl rfl ?_ Pc.noConfusion
      intro entry n filling
      rw [pc] at filling
      exact filling.fillEnter more
  | fillReturn index count pc all => exact progress.return pc all
  | fillBuffer index count pc =>
      have full := Main.bufferFill_full setup reached answers index
      refine progress.store (Main.bufferFill_isFill setup answers s index) ?_ ?_
      · dsimp only
        split <;> exact Pc.noConfusion
      · rintro entry n filling rfl
        rw [pc] at filling
        exact filling.fillBuffer full

theorem FillProgress.step (progress : FillProgress setup past trace s)
    (cursor : Cursor setup (past ++ trace) s) (one : Main.Step setup s events s') :
    FillProgress setup past (trace ++ events) s' := by
  cases one with
  | cpu answers ran => exact progress.moves cursor (Main.step_moves ran)
  | deliver bytes _ => exact progress.quiet rfl rfl (fun _ _ => id) id
  | close => exact progress.quiet rfl rfl (fun _ _ => id) id

/-- From the entry on, the progress is followed by every run. -/
theorem FillProgress.of_run {start : Main} {index : Nat} (cursor : Cursor setup past start)
    (pc : start.pc = .fillRemainder index) (run : Run (Main.Step setup) start trace s) :
    FillProgress setup past trace s := by
  have initial : FillProgress setup past [] start := by
    refine ⟨fun _ => ?_, fun one => absurd one (by decide), fun _ before c after split => ?_⟩
    · rw [pc, List.append_nil]
      exact ⟨Nat.le_refl _, rfl⟩
    · exact absurd split (by simp)
  have both := run.invariant
    (fun trace s => Cursor setup (past ++ trace) s ∧ FillProgress setup past trace s)
    ⟨by rwa [List.append_nil], initial⟩
    fun {earlier events mid last} both one => by
      refine ⟨?_, both.2.step both.1 one⟩
      rw [← List.append_assoc]
      exact both.1.step one
  exact both.2

/-! ## The ring after the return -/

/-- A call of `raspdif_fill_buffers` that has returned: it was entered in `start` behind
the trace `past`, and `main` polls for the first time after it. -/
structure FillReturned (setup : Setup) (past : List Event) (start : Main) (trace : List Event)
    (s : Main) : Prop where
  reached : ∃ buffers, Run (Main.Step setup) (Main.start buffers) past start
  entered : ∃ index, start.pc = .fillRemainder index
  run : Run (Main.Step setup) start trace s
  once : fills trace = 1
  polls : s.pc = .poll

theorem FillReturned.progress {start : Main} (filled : FillReturned setup past start trace s) :
    Cursor setup past start ∧ Cursor setup (past ++ trace) s ∧ Shown (past ++ trace) s ∧
      FillProgress setup past trace s := by
  obtain ⟨buffers, reached⟩ := filled.reached
  obtain ⟨index, entered⟩ := filled.entered
  have whole := reached.append filled.run
  have cursor := Cursor.of_run reached
  exact ⟨cursor, .of_run whole, .of_run whole, .of_run cursor entered filled.run⟩

theorem FillReturned.length_calls {start : Main}
    (filled : FillReturned setup past start trace s) :
    (calls past).length + (calls trace).length = filledTo (calls past).length := by
  have made := filled.progress.2.2.2.returned filled.once filled.polls
  rwa [calls_append, List.length_append] at made

/-- The frame that the ring shows as number `k` is that of one of the calls, and its
number has the block position that `k` has from a fixed phase on. -/
theorem FillReturned.exists_call {start : Main} (filled : FillReturned setup past start trace s)
    (k : Nat) :
    ∃ c m, c ∈ calls trace ∧ c.IsFill setup ∧ (c.buffer, c.slot) = ringPlace k ∧
      c.IsNumber setup.format m ∧ s.played k = c.stored ∧
      (m + 2 * raspdifBufferSize * fills past) % ringSize = k % ringSize := by
  obtain ⟨-, cursor, shown, progress⟩ := filled.progress
  have own := progress.own (Or.inr ⟨filled.once, filled.polls⟩)
  have memory := shows_lastWrite_from past (fills past) cursor.placed
    fun before c after split => by rw [fills_append, (own before c after split).2, Nat.add_zero]
  have total := filled.length_calls
  -- One of the last 6144 calls has the place of `k`.
  obtain ⟨i, written, recent, same⟩ : ∃ i, i < (calls trace).length ∧
      (calls trace).length ≤ i + ringSize ∧
      ((calls past).length + i + 2 * raspdifBufferSize * fills past) % ringSize =
        k % ringSize := by
    have enough : ringSize ≤ (calls trace).length := by
      simp only [filledTo, ringSize, raspdifBufferCount, raspdifBufferSize] at *
      omega
    obtain ⟨m, below, recent, same⟩ := exists_recent
      ((calls past).length + (calls trace).length + 2 * raspdifBufferSize * fills past) k (by omega)
    refine ⟨m - ((calls past).length + 2 * raspdifBufferSize * fills past), ?_, ?_, ?_⟩
    · omega
    · omega
    · rw [← same]
      congr 1
      omega
  have at_ : (calls trace)[i]? = some (calls trace)[i] := List.getElem?_eq_getElem written
  obtain ⟨before, after, split, count⟩ := exists_split_of_getElem?_calls at_
  have fill := own before _ after split
  have placed : Placed setup.format (past ++ before) (.call (calls trace)[i]) :=
    atEach_iff.mp cursor.placed (past ++ before) _ after
      ((congrArg (past ++ ·) split).trans (List.append_assoc ..).symm)
  have number := (placed _ rfl).1
  have place := placed.place
  have length : (calls (past ++ before)).length = (calls past).length + i := by
    rw [calls_append, List.length_append, count]
  have steady : fills (past ++ before) = fills past := by
    rw [fills_append, fill.2, Nat.add_zero]
  rw [length] at number place
  rw [steady] at place
  have here : ringPlace ((calls past).length + i + 2 * raspdifBufferSize * fills past) =
      ringPlace k := ringPlace_eq_iff.mpr same
  have last := memory i (some (calls trace)[i]) (by rw [List.getElem?_map, at_]; rfl)
    (by rwa [List.length_map])
  refine ⟨_, _, List.getElem_mem written, fill.1, place.trans here, number, ?_, same⟩
  rw [placeFrom, here] at last
  exact shown _ _ last

/-- What a receiver finds in frame number `m` of the encoder. -/
theorem Call.IsNumber.receives {format : RaspdifFormat} {c : Call} {m : Nat}
    (number : c.IsNumber format m) :
    receiveSubframe false c.stored.a.cells = some (receivedSample (preambleA (blockPosition m))
        channelStatusA (blockPosition m) format c.sampleA) ∧
      receiveSubframe false c.stored.b.cells = some (receivedSample .w channelStatusB
        (blockPosition m) format c.sampleB) := by
  rw [number.stored, frameEntry_a_cells, frameEntry_b_cells, SubframeCall.receiveSubframe_code,
    SubframeCall.receiveSubframe_code, subframeCallA_received, subframeCallB_received]
  exact ⟨rfl, rfl⟩

/-- Frame `k` of the stream that reading the ring from buffer `j` on gives is one of
block position `(phase + k) % 192`. -/
def ReplaysFrom (s : Main) (j phase : Nat) : Prop :=
  ∀ k, ∃ a b, receiveSubframe false (s.played (raspdifBufferSize * j + k)).a.cells = some a ∧
    receiveSubframe false (s.played (raspdifBufferSize * j + k)).b.cells = some b ∧
    (a.preamble = .b ↔ (phase + k) % spdifFrameCount = 0) ∧ (a.preamble = .b ∨ a.preamble = .m) ∧
    b.preamble = .w ∧
    a.channelStatus = channelStatusA.bit (blockPosition (phase + k)) ∧
    b.channelStatus = channelStatusB.bit (blockPosition (phase + k))

theorem FillReturned.replaysFrom {start : Main} (filled : FillReturned setup past start trace s)
    (j : Nat) : ReplaysFrom s j ((raspdifBufferSize * j + 128 * fills past) % spdifFrameCount) := by
  intro k
  obtain ⟨c, m, -, -, -, number, played, same⟩ :=
    filled.exists_call (raspdifBufferSize * j + k)
  have position : blockPosition
      ((raspdifBufferSize * j + 128 * fills past) % spdifFrameCount + k) = blockPosition m := by
    apply Fin.ext
    simp only [blockPosition, ringSize, raspdifBufferCount, raspdifBufferSize,
      spdifFrameCount] at *
    omega
  obtain ⟨left, right⟩ := number.receives
  rw [played, position]
  refine ⟨_, _, left, right, ?_, ?_, rfl, rfl, rfl⟩
  · have number : ((raspdifBufferSize * j + 128 * fills past) % spdifFrameCount + k) %
        spdifFrameCount = (blockPosition m).val := congrArg Fin.val position
    rw [number]
    exact preambleA_eq_b_iff _
  · exact ite_eq_or_eq ..

/-- **Underrun leaves a ring that can be replayed.**  When `raspdif_fill_buffers` returns
it has made exactly the calls that are missing in the current buffer and three buffers
more, every slot holds a frame it made from fill samples, the slot position is 0, and the
ring read round and round from any buffer boundary is one stream of blocks. -/
theorem fill_leaves_replay {start : Main} (filled : FillReturned setup past start trace s) :
    (calls trace).length =
        (raspdifBufferSize - start.statics.slot) + 3 * raspdifBufferSize ∧
      (∀ j < raspdifBufferCount, ∀ p, ∃ c ∈ calls trace, c.buffer = j ∧ c.slot = p ∧
        c.IsFill setup ∧ (s.buffers j).sample p = c.stored ∧
        c.stored = frameEntry c.position setup.format c.sampleA c.sampleB) ∧
      s.statics.slot.val = 0 ∧
      ∀ j < raspdifBufferCount, ∃ phase < spdifFrameCount, ReplaysFrom s j phase := by
  have total := filled.length_calls
  have slot := filled.progress.1.encoder.slot
  have slot' := filled.progress.2.1.encoder.slot
  rw [calls_append, List.length_append] at slot'
  refine ⟨?_, ?_, ?_, ?_⟩
  · rw [slot]
    simp only [filledTo, raspdifBufferCount, raspdifBufferSize] at *
    omega
  · intro j inRing p
    obtain ⟨c, m, member, fill, place, number, played, -⟩ :=
      filled.exists_call (raspdifBufferSize * j + p)
    rw [ringPlace_slot inRing] at place
    obtain ⟨buffer, slot⟩ := Prod.mk.inj place
    rw [Main.played, ringPlace_slot inRing] at played
    refine ⟨c, member, buffer, slot, fill, played, ?_⟩
    rw [number.position]
    exact number.stored
  · rw [slot', total]
    exact Nat.mul_mod_right _ _
  · intro j _
    exact ⟨_, Nat.mod_lt _ (by decide), filled.replaysFrom j⟩

end

/-- An underrun at the start of the read loop, after a complete preload. -/
theorem exists_fillReturned :
    ∃ past start trace s, FillReturned .s16le past start trace s ∧ start.statics.slot.val = 0 := by
  obtain ⟨past, loop, preloaded, file⟩ := exists_preloaded_silence
  obtain ⟨pc, index⟩ := preloaded.loop
  obtain ⟨buffers, history⟩ := preloaded.run
  have nothing : (loop.fread .s16le).items ≠ 2 := by
    rw [Ne, Main.items_eq_two_iff]
    change ¬ (loop.file.pending.take _).length = _
    rw [file]
    decide
  have more : (loop.fread .s16le).file.eof = false := by
    simp [Main.fread, File.fread, file]
  have enter := Main.step_of_moves .s16le ⟨Setup.s16le.controlBlock 1, 0, 0⟩
    (.underrun pc (by rw [index]; decide) nothing more)
  have reached : EncoderAt (calls past).length
      { loop.afterRead .s16le with pc := .fillRemainder loop.bufferIndex }.statics
      { loop.afterRead .s16le with pc := .fillRemainder loop.bufferIndex }.block :=
    preloaded.cursor.encoder
  obtain ⟨trace, s, run, polls, -, -, last⟩ := exists_fillReturn .s16le rfl reached
  refine ⟨_, _, trace, s,
    ⟨⟨buffers, history.append (.single (.cpu _ enter))⟩, ⟨_, rfl⟩, run, last.fills_eq, polls⟩, ?_⟩
  rw [reached.slot, preloaded.complete]
  rfl

theorem fill_leaves_replay_silence :
    ∃ past start trace s, FillReturned .s16le past start trace s ∧
      (calls trace).length = 4 * raspdifBufferSize ∧ s.statics.slot.val = 0 := by
  obtain ⟨past, start, trace, s, filled, slot⟩ := exists_fillReturned
  obtain ⟨made, -, atStart, -⟩ := fill_leaves_replay filled
  rw [slot] at made
  exact ⟨past, start, trace, s, filled, made, atStart⟩

end Raspdif
