import Raspdif.Main.Fill
import Raspdif.Main.Memory

/-!
# Block phase of the ring

The DMA reads the three buffers round and round, 6144 frames that are 32 blocks, so the
stream has its B preambles in the right places when the frame in slot `p` of buffer `j`
is one of block position `(2048 * j + p) % 192`: `BlockPhase`.

`raspdif_fill_buffers` gets `buffer_index` by value.  It fills the rest of the current
buffer and three more and returns with the encoder at the next buffer, but `main` resumes
on the one it left.  From there on the ring is written 2048 frames out of phase, and 2048
is not a multiple of 192.  `block_phase_iff` says exactly when the phase is kept.
-/

namespace Raspdif

open Trace Ring

/-- The frame of the ring that the DMA reads as number `k` when it starts at buffer 0. -/
def Main.played (s : Main) (k : Nat) : RaspdifEntry :=
  (s.buffers (ringPlace k).1).sample (ringPlace k).2

/-- The frames of the ring have the block positions of their slots, and a receiver of
the ring read round and round finds the B preamble on exactly every 192nd frame. -/
structure BlockPhase (trace : List Event) (s : Main) : Prop where
  position : ∀ j < raspdifBufferCount, ∀ p : Fin raspdifBufferSize,
    ∃ c, lastWrite trace (j, p) = some c ∧
      c.position.val = (raspdifBufferSize * j + p) % spdifFrameCount
  preamble : ∀ k, ∃ r, receiveSubframe false (s.played k).a.cells = some r ∧
    (r.preamble = .b ↔ k % spdifFrameCount = 0)

section

variable {setup : Setup} {answers : Answers} {s s' : Main} {trace events : List Event}

/-! ## Runs in phase -/

/-- Every place of the ring was written by one of the last 6144 calls. -/
theorem exists_recent (n k : Nat) (full : ringSize ≤ n) :
    ∃ m, m < n ∧ n ≤ m + ringSize ∧ m % ringSize = k % ringSize := by
  refine ⟨n - 1 - (n - 1 + (ringSize - k % ringSize)) % ringSize, ?_⟩
  simp only [ringSize, raspdifBufferCount, raspdifBufferSize] at *
  omega

theorem exists_lastWrite (cursor : Cursor setup trace s) (inPhase : InPhase trace)
    (full : ringSize ≤ (calls trace).length) (k : Nat) :
    ∃ c m, lastWrite trace (ringPlace k) = some c ∧ c.IsNumber setup.format m ∧
      m % ringSize = k % ringSize := by
  obtain ⟨m, written, recent, same⟩ := exists_recent _ k full
  have at_ : (calls trace)[m]? = some (calls trace)[m] := List.getElem?_eq_getElem written
  obtain ⟨-, -, -, number, -⟩ := cursor.placed_getElem? at_
  refine ⟨_, m, ?_, number, same⟩
  rw [← ringPlace_eq_iff.mpr same]
  exact shows_lastWrite cursor.placed inPhase m _ (by rw [List.getElem?_map, at_]; rfl)
    (by rwa [List.length_map])

theorem preambleA_eq_b_iff (position : Fin spdifFrameCount) :
    preambleA position = .b ↔ position.val = 0 := by
  unfold preambleA
  split
  next zero => exact iff_of_true rfl zero
  next other => exact iff_of_false SpdifPreamble.noConfusion other

/-- What a receiver finds in the frame of a numbered call. -/
theorem Call.IsNumber.receive {c : Call} {m : Nat} (number : c.IsNumber setup.format m) :
    ∃ r, receiveSubframe false c.stored.a.cells = some r ∧
      (r.preamble = .b ↔ m % spdifFrameCount = 0) := by
  rw [number.stored, frameEntry_a_cells, SubframeCall.receiveSubframe_code,
    subframeCallA_received]
  exact ⟨_, rfl, preambleA_eq_b_iff _⟩

theorem mod_frameCount_of_mod_ringSize {m k : Nat} (same : m % ringSize = k % ringSize) :
    m % spdifFrameCount = k % spdifFrameCount := by
  simp only [ringSize, raspdifBufferCount, raspdifBufferSize, spdifFrameCount] at *
  omega

theorem BlockPhase.of_inPhase (cursor : Cursor setup trace s) (shown : Shown trace s)
    (inPhase : InPhase trace) (full : ringSize ≤ (calls trace).length) : BlockPhase trace s where
  position j inRing p := by
    obtain ⟨c, m, last, number, same⟩ :=
      exists_lastWrite cursor inPhase full (raspdifBufferSize * j + p)
    rw [ringPlace_slot inRing] at last
    refine ⟨c, last, ?_⟩
    rw [number.position]
    exact mod_frameCount_of_mod_ringSize same
  preamble k := by
    obtain ⟨c, m, last, number, same⟩ := exists_lastWrite cursor inPhase full k
    rw [← mod_frameCount_of_mod_ringSize same, Main.played, shown _ c last]
    exact number.receive

/-! ## Runs out of phase -/

/-- A call in the phase of its slot was made after a multiple of three fills. -/
theorem three_dvd_of_position {n u : Nat}
    (phase : n % spdifFrameCount =
      (raspdifBufferSize * ringIndex n u + n % raspdifBufferSize) % spdifFrameCount) :
    3 ∣ u := by
  simp only [ringIndex, raspdifBufferCount, raspdifBufferSize, spdifFrameCount] at phase
  omega

theorem BlockPhase.three_dvd {c : Call} (phase : BlockPhase (trace ++ [.call c]) s)
    (placed : Placed setup.format trace (.call c)) : 3 ∣ fills trace := by
  obtain ⟨number, buffer⟩ := placed c rfl
  obtain ⟨c', last, position⟩ := phase.position c.buffer (buffer ▸ ringIndex_lt _ _) c.slot
  rw [lastWrite_call, Function.update_self] at last
  obtain rfl := Option.some.inj last
  rw [number.position, buffer, number.slot] at position
  exact three_dvd_of_position position

theorem FillsLast.inPhase (last : FillsLast trace) : InPhase trace := by
  intro before c after split
  subst split
  exact ⟨0, last.fills_before⟩

theorem exists_call_of_calls {trace : List Event} (made : 0 < (calls trace).length) :
    ∃ before c after, trace = before ++ .call c :: after := by
  rcases List.exists_mem_of_length_pos made with ⟨c, member⟩
  rcases List.mem_filterMap.mp member with ⟨e, inside, named⟩
  rcases List.append_of_mem inside with ⟨before, after, rfl⟩
  cases e with
  | call c => exact ⟨before, c, after, rfl⟩
  | _ => cases named

/-- A fill that begins when the number of returned ones is not divisible by three stores out
of phase. -/
theorem Filling.not_inPhase {count : Nat} {before after : List Event}
    (filling : Filling count trace s s') (some_ : 0 < count) (last : FillsLast trace)
    (shifted : ¬ 3 ∣ fills before) : ¬ InPhase (before ++ trace ++ after) := by
  intro inPhase
  rw [← filling.calls] at some_
  obtain ⟨stores, c, rest, rfl⟩ := exists_call_of_calls some_
  have three := inPhase (before ++ stores) c (rest ++ after) (by simp)
  rw [fills_append, last.fills_before, Nat.add_zero] at three
  exact shifted three

end

/-- **Block phase of the ring.**  In every state of a run of the read loop the ring is in
phase exactly when no frame was stored while the number of returned
`raspdif_fill_buffers` calls was not a multiple of three. -/
theorem block_phase_iff {setup : Setup} {past trace : List Event} {start s : Main}
    (preloaded : Preloaded setup past start) (run : Run (Main.Step setup) start trace s) :
    (∀ first rest mid, trace = first ++ rest → Run (Main.Step setup) start first mid →
      Run (Main.Step setup) mid rest s → BlockPhase (past ++ first) mid) ↔ InPhase trace := by
  rcases preloaded.run with ⟨buffers, history⟩
  have whole {first : List Event} {mid : Main} (part : Run (Main.Step setup) start first mid) :
      Run (Main.Step setup) (Main.start buffers) (past ++ first) mid := history.append part
  constructor
  · intro phase before c after split
    subst split
    obtain ⟨mid, part, rest⟩ := run.cut Main.Step.call_last
    have here := phase _ after mid (by simp) part rest
    rw [← List.append_assoc] at here
    have placed := atEach_iff.mp (Cursor.of_run (whole part)).placed (past ++ before) (.call c) []
      (by simp)
    have three := here.three_dvd placed
    rwa [fills_append, preloaded.fills_eq, Nat.zero_add] at three
  · intro inPhase first rest mid split part _
    subst split
    refine BlockPhase.of_inPhase (Cursor.of_run (whole part)) (Shown.of_run (whole part)) ?_ ?_
    · intro before c after split
      rcases cons_split_of_append split with ⟨middle, rfl, -⟩ | ⟨middle, rfl, rfl⟩
      · exact inPhase_of_fills_eq_zero preloaded.fills_eq before c _ rfl
      · rw [fills_append, preloaded.fills_eq, Nat.zero_add]
        exact inPhase middle c (after ++ rest) (by simp)
    · rw [calls_append, List.length_append, preloaded.complete]
      exact Nat.le_add_right _ _

/-- One frame and an underrun leave the ring in phase at every moment.  Two underruns more do
not, although the number of returned fills is divisible by three behind them. -/
theorem block_phase_first_frame : ∃ past start first mid rest s, Preloaded .s16le past start ∧
    Run (Main.Step .s16le) start first mid ∧ delivered first = [1, 0, 2, 0] ∧ fills first = 1 ∧
      BlockPhase (past ++ first) mid ∧
    Run (Main.Step .s16le) mid rest s ∧ fills (first ++ rest) = 3 ∧
      ∃ before after m, first ++ rest = before ++ after ∧
        Run (Main.Step .s16le) start before m ∧ Run (Main.Step .s16le) m after s ∧
        ¬ BlockPhase (past ++ before) m := by
  rcases exists_preloaded_silence with ⟨past, start, preloaded, file⟩
  obtain ⟨c, stored, frame, idle, -⟩ :=
    exists_delivered_frame .s16le (preloaded.idle file) [1, 0, 2, 0] rfl
  obtain ⟨silent, mid, run, idle', filling, last⟩ := exists_silence .s16le idle
  obtain ⟨silent', m, run', idle'', filling', last'⟩ := exists_silence .s16le idle'
  obtain ⟨silent'', s, run'', -, filling'', last''⟩ := exists_silence .s16le idle''
  have first := frame.append run
  have rest := run'.append run''
  have returned : fills ([.delivered [1, 0, 2, 0], .fread [1, 0, 2, 0], .call c] ++
      ([.fread []] ++ silent)) = 1 := by
    simp only [fills_append, last.fills_eq]
    rfl
  have lost : ¬ InPhase (([.delivered [1, 0, 2, 0], .fread [1, 0, 2, 0], .call c] ++
      ([.fread []] ++ silent) ++ [.fread []]) ++ silent' ++ ([.fread []] ++ silent'')) :=
    filling'.not_inPhase (fillCalls_pos _) last' (by rw [fills_append, returned]; decide)
  refine ⟨past, start, _, mid, _, s, preloaded, first, ?_, returned, ?_, rest, ?_, ?_⟩
  · rw [delivered_append, delivered_append, filling.delivered]
    rfl
  · refine (block_phase_iff preloaded first).mpr ?_ _ [] mid (List.append_nil _).symm first .nil
    exact FillsLast.inPhase ((last.append rfl).append rfl)
  · simp only [fills_append, last.fills_eq, last'.fills_eq, last''.fills_eq]
    rfl
  · have broken := mt (block_phase_iff preloaded (first.append rest)).mp
      (by simpa only [List.append_assoc] using lost)
    push Not at broken
    rcases broken with ⟨before, after, m, split, left, right, lost⟩
    exact ⟨before, after, m, split, left, right, lost⟩

/-- An underrun on the first slot of the ring, and one frame: that frame has block
position 128 in a slot of block position 0. -/
theorem block_phase_lost : ∃ past start trace s c, Preloaded .s16le past start ∧
    Run (Main.Step .s16le) start trace s ∧ lastWrite (past ++ trace) (0, 0) = some c ∧
      c.position.val = 128 ∧ ¬ BlockPhase (past ++ trace) s := by
  rcases exists_preloaded_silence with ⟨past, start, preloaded, file⟩
  obtain ⟨silent, resumed, run, idle, filling, last⟩ :=
    exists_silence .s16le (preloaded.idle file)
  obtain ⟨c, s, run', -⟩ := exists_delivered_frame .s16le idle [1, 0, 2, 0] rfl
  rcases preloaded.run with ⟨buffers, history⟩
  let before := past ++ ([.fread []] ++ silent ++ [.delivered [1, 0, 2, 0], .fread [1, 0, 2, 0]])
  have split : past ++ ([.fread []] ++ silent ++
      [.delivered [1, 0, 2, 0], .fread [1, 0, 2, 0], .call c]) = before ++ [.call c] := by
    simp [before]
  have cursor := Cursor.of_run (history.append (run.append run'))
  obtain ⟨number, buffer⟩ := atEach_iff.mp cursor.placed before (.call c) [] split c rfl
  have count : (calls before).length = 14336 := by
    simp only [before, calls_append, List.length_append, filling.calls, preloaded.complete]
    rfl
  have fillsBefore : fills before = 1 := by
    simp only [before, fills_append, last.fills_eq, preloaded.fills_eq]
    rfl
  rw [count] at number buffer
  rw [fillsBefore] at buffer
  have place : ((0, 0) : Nat × Fin raspdifBufferSize) = (c.buffer, c.slot) :=
    Prod.ext buffer.symm (Fin.ext number.slot.symm)
  have written : lastWrite (before ++ [.call c]) (0, 0) = some c := by
    rw [lastWrite_call, place, Function.update_self]
  have shifted : c.position.val = 128 := by
    rw [number.position]
    rfl
  refine ⟨past, start, _, s, c, preloaded, run.append run', ?_, shifted, ?_⟩
  · rw [split, written]
  · intro phase
    rw [split] at phase
    obtain ⟨c', last', position⟩ := phase.position 0 (Nat.zero_lt_succ _) 0
    obtain rfl := Option.some.inj (written.symm.trans last')
    rw [shifted] at position
    cases position

end Raspdif
