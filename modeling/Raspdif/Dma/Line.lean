import Raspdif.Dma.Fifo
import Raspdif.Main.Handoff
import Raspdif.Spdif.Lock
import Raspdif.Writer.Stream

/-!
# What is on the line

The words that the engine copies are shifted out most significant bit first.  As long as
the program does not store into the buffer that the engine is reading, they are whole
frames, whatever else happens: a receiver takes every subframe of them, and the line has
no direct component (`line_valid`).  When there is no underrun either, they are the frames
of the input, and the receiver has the input samples back (`line_carries_input`).
-/

namespace Raspdif

open Trace BitString Disparity

/-! ## Rows of frames -/

/-- The half-cells of a row of words. -/
def cellsOf (words : List (BitVec 32)) : List Bool := words.flatMap msbFirst

theorem cellsOf_words (entry : RaspdifEntry) : cellsOf entry.words = entry.cells := by
  simp [cellsOf, RaspdifEntry.words, RaspdifEntry.cells, RaspdifSample.cells]

theorem cellsOf_append (first second : List (BitVec 32)) :
    cellsOf (first ++ second) = cellsOf first ++ cellsOf second :=
  List.flatMap_append

theorem cellsOf_flatMap_words (entries : List RaspdifEntry) :
    cellsOf (entries.flatMap RaspdifEntry.words) = entries.flatMap RaspdifEntry.cells := by
  rw [cellsOf, List.flatMap_assoc]
  exact congrArg (entries.flatMap ·) (funext cellsOf_words)

/-- A row that is cut off is cut off on the line. -/
theorem cellsOf_prefix {first words : List (BitVec 32)} (cut : first <+: words) :
    cellsOf first <+: cellsOf words := by
  obtain ⟨rest, rfl⟩ := cut
  rw [cellsOf_append]
  exact List.prefix_append _ _

theorem length_cellsOf (words : List (BitVec 32)) : (cellsOf words).length = 32 * words.length := by
  induction words with
  | nil => rfl
  | cons w words ih =>
      rw [cellsOf, List.flatMap_cons, List.length_append, length_msbFirst, List.length_cons]
      unfold cellsOf at ih
      omega

theorem take_cellsOf (words : List (BitVec 32)) (count : Nat) :
    (cellsOf words).take (32 * count) = cellsOf (words.take count) := by
  induction words generalizing count with
  | nil => simp [cellsOf]
  | cons w words ih =>
      cases count with
      | zero => simp [cellsOf]
      | succ count =>
          have cons (rest : List (BitVec 32)) : cellsOf (w :: rest) = msbFirst w ++ cellsOf rest :=
            List.flatMap_cons
          have rest : 32 * (count + 1) - 32 = 32 * count := by omega
          rw [cons, List.take_succ_cons, cons, List.take_append, length_msbFirst,
            List.take_of_length_le (by rw [length_msbFirst]; omega), rest, ih]

theorem getElem?_flatMap_words (entries : List RaspdifEntry) (n : Nat) :
    (entries.flatMap RaspdifEntry.words)[n]? =
      (entries[n / 4]?).bind fun entry => entry.words[n % 4]? := by
  induction entries generalizing n with
  | nil => rfl
  | cons entry entries ih =>
      have four : entry.words.length = 4 := rfl
      rw [List.flatMap_cons]
      rcases Nat.lt_or_ge n 4 with inside | beyond
      · rw [List.getElem?_append_left (by omega), Nat.div_eq_of_lt inside, Nat.mod_eq_of_lt inside]
        rfl
      · have quotient : n / 4 = (n - 4) / 4 + 1 := by omega
        have remainder : n % 4 = (n - 4) % 4 := by omega
        rw [List.getElem?_append_right (by omega), four, ih, quotient, remainder,
          List.getElem?_cons_succ]

/-- The next item of a list behind a prefix of it. -/
theorem prefix_concat {α : Type} {items whole : List α} {x : α} (before : items <+: whole)
    (next : whole[items.length]? = some x) : items ++ [x] <+: whole := by
  have longer : whole.take (items.length + 1) = items ++ [x] := by
    rw [List.take_add_one, ← List.prefix_iff_eq_take.mp before, next]
    rfl
  rw [← longer]
  exact List.take_prefix _ _

/-! ## Frames with any contents -/

/-- The entry is the code of some frame. -/
def RaspdifFormat.IsFrame (format : RaspdifFormat) (entry : RaspdifEntry) : Prop :=
  ∃ position sampleA sampleB, entry = frameEntry position format sampleA sampleB

/-- The calls of `spdif_build_subframe` that a row of frames comes from. -/
theorem exists_subframeCalls (format : RaspdifFormat) {entries : List RaspdifEntry}
    (frames : ∀ entry ∈ entries, format.IsFrame entry) :
    ∃ calls : List SubframeCall, entries.flatMap RaspdifEntry.cells = halfCells calls ∧
      ∀ (i : Nat) (call : SubframeCall), calls[i]? = some call →
        (call.preamble = .w ↔ i % 2 = 1) ∧ call.received.validity = false ∧
          call.received.userData = false ∧ call.received.evenParity = true := by
  induction entries with
  | nil => exact ⟨[], rfl, fun i call found => nomatch found⟩
  | cons entry entries ih =>
      obtain ⟨⟨position, sampleA, sampleB, rfl⟩, rest⟩ := List.forall_mem_cons.mp frames
      obtain ⟨calls, line, fields⟩ := ih rest
      refine ⟨subframeCallA position format sampleA :: subframeCallB position format sampleB ::
        calls, ?_, ?_⟩
      · rw [List.flatMap_cons, line, RaspdifEntry.cells, frameEntry_a_cells, frameEntry_b_cells,
          halfCells_cons, halfCells_cons, List.append_assoc]
      · intro i call found
        rcases i with _ | _ | i
        · obtain rfl := Option.some.inj found
          rw [subframeCallA_received]
          refine ⟨?_, rfl, rfl, rfl⟩
          change preambleA position = .w ↔ _
          rw [preambleA]
          split <;> simp
        · obtain rfl := Option.some.inj found
          rw [subframeCallB_received]
          exact ⟨⟨fun _ => rfl, fun _ => rfl⟩, rfl, rfl, rfl⟩
        · rw [show (i + 1 + 1) % 2 = i % 2 by omega]
          exact fields i call found

/-- A receiver that has heard some subframes of a row of frames. -/
theorem receive_take {line : List Bool} {calls : List SubframeCall}
    (sent : line <+: halfCells calls) {subframes : Nat} (heard : 64 * subframes ≤ line.length) :
    receive (line.take (64 * subframes)) =
        some ((calls.take subframes).map SubframeCall.received) ∧
      (calls.take subframes).length = subframes := by
  have same : line.take (64 * subframes) = halfCells (calls.take subframes) := by
    rw [← take_halfCells, List.prefix_iff_eq_take.mp sent, List.take_take, min_eq_left heard]
  refine ⟨by rw [same, receive_halfCells], ?_⟩
  have count := congrArg List.length same
  rw [length_halfCells, List.length_take_of_le heard] at count
  omega

/-! ## Every slot holds a frame -/

section

variable {setup : Setup} {past trace : List Event} {start : Main} {sys : System} {j : Nat}

/-- A complete preload has written every slot of the ring. -/
theorem Preloaded.exists_call (preloaded : Preloaded setup past start)
    (inRing : j < raspdifBufferCount) (p : Fin raspdifBufferSize) :
    ∃ c ∈ calls past, c.buffer = j ∧ c.slot = p := by
  have slot := p.isLt
  have bound : raspdifBufferSize * j + p < (calls past).length := by
    rw [preloaded.complete]
    simp only [ringSize, raspdifBufferCount, raspdifBufferSize] at *
    omega
  obtain ⟨before, after, split, number, buffer⟩ :=
    preloaded.cursor.placed_getElem? (List.getElem?_eq_getElem bound)
  have none : fills before = 0 := by
    have noFill := preloaded.fills_eq
    rw [split, fills_append] at noFill
    exact Nat.eq_zero_of_add_eq_zero_right noFill
  have place := number.slot
  rw [none] at buffer
  refine ⟨_, List.getElem_mem bound, ?_, Fin.ext ?_⟩
  · rw [buffer]
    simp only [ringIndex, raspdifBufferCount, raspdifBufferSize] at *
    omega
  · rw [place]
    simp only [raspdifBufferSize] at *
    omega

/-- Whatever has been stored since, every slot holds a frame. -/
theorem Rolling.isFrame (preloaded : Preloaded setup past start)
    (rolling : Rolling setup (past ++ trace) sys) (inRing : j < raspdifBufferCount)
    (p : Fin raspdifBufferSize) : setup.format.IsFrame ((sys.main.buffers j).sample p) := by
  obtain ⟨c, stored, here⟩ := preloaded.exists_call inRing p
  have member : c ∈ (calls (past ++ trace)).filter fun d => d.buffer = j ∧ d.slot = p := by
    rw [calls_append, List.filter_append, List.mem_append]
    exact Or.inl (List.mem_filter.mpr ⟨stored, decide_eq_true here⟩)
  have last := List.getLast?_eq_getLast_of_ne_nil (List.ne_nil_of_mem member)
  have shown := rolling.shown (j, p) _ last
  obtain ⟨n, bound, at_⟩ := List.getElem_of_mem
    (List.mem_of_mem_filter (List.getLast_mem (List.ne_nil_of_mem member)))
  obtain ⟨before, after, -, number, -⟩ :=
    rolling.circling.cursor.placed_getElem? (List.getElem?_eq_getElem bound)
  rw [shown, ← at_]
  exact ⟨_, _, _, number.stored⟩

end

/-! ## The program keeps clear of the engine -/

/-- The program stores nothing in the buffer that the engine is reading. -/
def Live.Clear (setup : Setup) (live : Live) (events : List LiveEvent) : Prop :=
  ∀ c ∈ calls (programEvents events), live.engine.conblkAd ≠ setup.controlBlock c.buffer

/-- A step that keeps clear of the engine. -/
def Live.ClearStep (setup : Setup) (allow : Main → Nat → Prop) (live : Live)
    (events : List LiveEvent) (live' : Live) : Prop :=
  Live.Step setup allow live events live' ∧ live.Clear setup events

/-- The words copied are those of whole frames and of the one that the engine is at. -/
def Whole (format : RaspdifFormat) (words : List (BitVec 32)) (reading : RaspdifBuffer) : Prop :=
  ∃ entries : List RaspdifEntry, (∀ entry ∈ entries, format.IsFrame entry) ∧
    words = entries.flatMap RaspdifEntry.words ++
      (reading.sample (slotOf words.length)).words.take (words.length % 4)

theorem Whole.copy {format : RaspdifFormat} {words : List (BitVec 32)} {reading : RaspdifBuffer}
    (whole : Whole format words reading) (frame : ∀ p, format.IsFrame (reading.sample p))
    {w : BitVec 32}
    (next : (reading.sample (slotOf words.length)).words[words.length % 4]? = some w) :
    Whole format (words ++ [w]) reading := by
  rcases whole with ⟨entries, frames, row⟩
  have four : words.length % 4 < 4 := Nat.mod_lt _ (Nat.zero_lt_succ _)
  have longer : words ++ [w] = entries.flatMap RaspdifEntry.words ++
      (reading.sample (slotOf words.length)).words.take (words.length % 4 + 1) := by
    rw [List.take_add_one, next, ← List.append_assoc, ← row]
    rfl
  have count : (words ++ [w]).length = words.length + 1 := List.length_append
  by_cases full : words.length % 4 + 1 = 4
  · refine ⟨entries ++ [reading.sample (slotOf words.length)], ?_, ?_⟩
    · exact List.forall_mem_append.mpr ⟨frames, List.forall_mem_singleton.mpr (frame _)⟩
    · have none : (words.length + 1) % 4 = 0 := by omega
      rw [count, none, longer, full, List.flatMap_append, List.flatMap_singleton,
        List.take_zero, List.append_nil]
      rfl
  · refine ⟨entries, frames, ?_⟩
    have same : slotOf (words.length + 1) = slotOf words.length := by
      apply Fin.ext
      have inside : (words.length + 1) / 4 = words.length / 4 := by omega
      exact congrArg (· % raspdifBufferSize) inside
    have rest : (words.length + 1) % 4 = words.length % 4 + 1 := by omega
    rw [count, same, rest, longer]

/-- Between two frames it does not matter which buffer is read. -/
theorem Whole.turn {format : RaspdifFormat} {words : List (BitVec 32)} {reading : RaspdifBuffer}
    (whole : Whole format words reading) (aligned : words.length % 4 = 0)
    (next : RaspdifBuffer) : Whole format words next := by
  rcases whole with ⟨entries, frames, row⟩
  rw [aligned, List.take_zero] at row
  refine ⟨entries, frames, ?_⟩
  rw [aligned, List.take_zero]
  exact row

section

variable {setup : Setup} {allow : Main → Nat → Prop} {past trace events : List Event}
  {start : Main} {sys sys' : System} {live live' : Live} {lived more : List LiveEvent}

/-- A step without a store in the DMA's buffer leaves it as it is. -/
theorem Cursor.buffers_eq {s s' : Main} {j : Nat} (cursor : Cursor setup trace s)
    (step : Main.Step setup s events s') (clear : ∀ c ∈ calls events, c.buffer ≠ j) :
    s'.buffers j = s.buffers j := by
  rcases cursor.memory_cases step with ⟨-, same⟩ | ⟨c, call, stores⟩
  · rw [same]
  · rw [call, List.forall_mem_singleton] at clear
    refine congrArg RaspdifBuffer.mk (funext fun p => ?_)
    rw [stores, if_neg fun here => clear here.1]

theorem Live.Plays.whole_step (preloaded : Preloaded setup past start)
    (plays : live.Plays setup past lived trace sys)
    (whole : Whole setup.format (transmitted lived) (sys.main.buffers sys.dma))
    (one : live.ClearStep setup allow more live') :
    ∃ events sys', live'.Plays setup past (lived ++ more) (trace ++ events) sys' ∧
      Whole setup.format (transmitted (lived ++ more)) (sys'.main.buffers sys'.dma) := by
  have cursor := plays.rolling.circling.cursor
  have inRing := plays.rolling.circling.inRing
  rw [transmitted_append]
  rcases plays.step_cases preloaded.visited_eq one.1 with
    ⟨silent, events, sys', taken, plays'⟩ | ⟨offset, inBlock, count, copied, plays'⟩
  · refine ⟨events, sys', plays', ?_⟩
    rw [silent, List.append_nil]
    have same : programEvents more = stays events := by
      have both := plays'.mirrors.events
      rw [stays_append, programEvents_append, plays.mirrors.events] at both
      exact (List.append_cancel_left both).symm
    have clear : ∀ c ∈ calls events, c.buffer ≠ sys.dma := by
      rcases plays.mirrors.place with ⟨offset, here, -⟩
      intro c stored sameBuffer
      rw [← calls_stays, ← same] at stored
      have away := one.2 c stored
      rw [sameBuffer, here.conblkAd] at away
      exact away rfl
    rcases plays.mirrors.place with ⟨offset, here, -, count⟩
    rcases plays'.mirrors.place with ⟨offset', here', -, count'⟩
    cases taken.acts inRing with
    | program _ _ step | deliver _ step | close step =>
        have kept := cursor.buffers_eq step clear
        dsimp only at kept ⊢
        rw [kept]
        exact whole
    | dma =>
        refine whole.turn ?_ _
        -- The engine has come to the end of its block.
        have inBlock := here.inBlock
        have one : (visited [Event.dmaMove sys.dma ((sys.dma + 1) % raspdifBufferCount)
          (sys.main.buffers sys.dma)]).length = 1 := rfl
        rw [transmitted_append, silent, List.append_nil, visited_append, List.length_append,
          one] at count'
        simp only [bufferWords, raspdifBufferSize] at *
        omega
  · refine ⟨[], sys, by rwa [List.append_nil], ?_⟩
    rw [copied]
    refine whole.copy (fun p => plays.rolling.isFrame preloaded inRing p) ?_
    have slot : slotOf (transmitted lived).length = slotOf offset := by
      apply Fin.ext
      change _ / 4 % raspdifBufferSize = offset / 4 % raspdifBufferSize
      rw [count]
      simp only [bufferWords, raspdifBufferSize]
      omega
    have word : (transmitted lived).length % 4 = offset % 4 := by
      rw [count]
      simp only [bufferWords, raspdifBufferSize]
      omega
    rw [slot, word]
    exact words_slotOf inBlock sys.main.buffers

theorem Live.Plays.whole_of_run (preloaded : Preloaded setup past start)
    {elsewhere : BitVec 32 → BitVec 32}
    (run : Run (Live.ClearStep setup allow) (Live.start setup elsewhere start) lived live) :
    ∃ trace sys, live.Plays setup past lived trace sys ∧
      Whole setup.format (transmitted lived) (sys.main.buffers sys.dma) := by
  induction run with
  | nil => exact ⟨[], _, .of_preloaded preloaded elsewhere, [], List.forall_mem_nil _, rfl⟩
  | snoc _ one ih =>
      rcases ih with ⟨trace, sys, plays, whole⟩
      obtain ⟨events, sys', plays', whole'⟩ := plays.whole_step preloaded whole one
      exact ⟨trace ++ events, sys', plays', whole'⟩

/-- The read loop keeps clear of the engine by its test. -/
theorem Live.Step.clear (one : Live.Step setup allow live more live')
    (loop : live.main.pc ≠ .preload) (input : ∀ c ∈ calls (programEvents more), c.source = .input) :
    live.Clear setup more ∧ live'.main.pc ≠ .preload := by
  cases one with
  | deliver | close | copy | load => exact ⟨fun c member => (nomatch member), loop⟩
  | cpu answers test ran =>
      have moves := Main.step_moves ran
      refine ⟨?_, (moves.later loop).2⟩
      unfold Live.Clear
      rw [programEvents_map] at input ⊢
      intro c member
      rw [← test]
      cases moves with
      | preloadFrame pc => exact absurd pc loop
      | preloadDone | finish | readWait | underrun | fillWait | fillEnter | fillReturn | poll =>
          cases member
      | fillRemainder | fillBuffer => cases input _ (List.mem_singleton_self _)
      | readFrame pc noEof away enough =>
          obtain rfl := List.mem_singleton.mp member
          exact away

/-- A run in which nothing is filled with silence keeps clear of the engine. -/
theorem Live.run_clear (loop : live.main.pc ≠ .preload)
    (run : Run (Live.Step setup allow) live lived live')
    (input : ∀ c ∈ calls (programEvents lived), c.source = .input) :
    Run (Live.ClearStep setup allow) live lived live' ∧ live'.main.pc ≠ .preload := by
  induction run with
  | nil => exact ⟨.nil, loop⟩
  | snoc _ one ih =>
      rw [programEvents_append, calls_append, List.forall_mem_append] at input
      obtain ⟨run, later⟩ := ih input.1
      obtain ⟨clear, later'⟩ := one.clear later input.2
      exact ⟨run.snoc ⟨one, clear⟩, later'⟩

end

/-- What is sent comes from calls of `spdif_build_subframe`, left and right in turn. -/
theorem exists_sent_calls {setup : Setup} {allow : Main → Nat → Prop} {past : List Event}
    {start : Main} (preloaded : Preloaded setup past start) {elsewhere : BitVec 32 → BitVec 32}
    {lived : List LiveEvent} {live : Live}
    (run : Run (Live.ClearStep setup allow) (Live.start setup elsewhere start) lived live) :
    ∃ calls : List SubframeCall, cellsOf (transmitted lived) <+: halfCells calls ∧
      ∀ (i : Nat) (call : SubframeCall), calls[i]? = some call →
        (call.preamble = .w ↔ i % 2 = 1) ∧ call.received.validity = false ∧
          call.received.userData = false ∧ call.received.evenParity = true := by
  obtain ⟨trace, sys, plays, entries, frames, row⟩ := Live.Plays.whole_of_run preloaded run
  -- The frame that the engine is at is one of the row too.
  have inRing := plays.rolling.circling.inRing
  obtain ⟨calls, line, fields⟩ := exists_subframeCalls setup.format
    (List.forall_mem_append.mpr ⟨frames, List.forall_mem_singleton.mpr
      (plays.rolling.isFrame preloaded inRing (slotOf (transmitted lived).length))⟩)
  refine ⟨calls, ?_, fields⟩
  have cut := List.take_prefix ((transmitted lived).length % 4)
    ((sys.main.buffers sys.dma).sample (slotOf (transmitted lived).length)).words
  rw [← line, List.flatMap_append, List.flatMap_singleton, ← cellsOf_flatMap_words,
    ← cellsOf_words, ← cellsOf_append]
  refine cellsOf_prefix ?_
  have longer := (List.prefix_append_right_inj (entries.flatMap RaspdifEntry.words)).mpr cut
  rwa [← row] at longer

/-- What a receiver makes of them. -/
theorem valid_of_sent {words : List (BitVec 32)} {calls : List SubframeCall}
    (sent : cellsOf words <+: halfCells calls)
    (fields : ∀ (i : Nat) (call : SubframeCall), calls[i]? = some call →
      (call.preamble = .w ↔ i % 2 = 1) ∧ call.received.validity = false ∧
        call.received.userData = false ∧ call.received.evenParity = true) :
    Within 0 3 0 (cellsOf words) ∧
      ∀ subframes, 2 * subframes ≤ words.length → ∃ received,
        receive (cellsOf (words.take (2 * subframes))) = some received ∧
        received.length = subframes ∧
        ∀ (i : Nat) (r : ReceivedSubframe), received[i]? = some r →
          (r.preamble = .w ↔ i % 2 = 1) ∧ r.validity = false ∧ r.userData = false ∧
            r.evenParity = true := by
  constructor
  · exact (within_halfCells calls).of_isPrefix sent
  · intro subframes enough
    have heard : 64 * subframes ≤ (cellsOf words).length := by
      rw [length_cellsOf]
      omega
    obtain ⟨decoded, count⟩ := receive_take sent heard
    rw [← take_cellsOf, show 32 * (2 * subframes) = 64 * subframes by omega]
    refine ⟨_, decoded, by rw [List.length_map, count], ?_⟩
    intro i r found
    obtain ⟨call, at_, rfl⟩ := Option.map_eq_some_iff.mp (List.getElem?_map.symm.trans found)
    have inside := (List.getElem?_eq_some_iff.mp at_).1
    rw [List.getElem?_take_of_lt (by omega)] at at_
    exact fields i call at_

/-- **A valid line.**  As long as the program stores nothing in the buffer that the engine
is reading, what is sent decodes: with any timing of the DMA, whatever is overrun, repeated
or filled with silence, a receiver takes each subframe that has gone out, left and right in
turn, with an even parity and marked as valid, and the running disparity of the line stays
within `0..3`. -/
theorem line_valid {setup : Setup} {allow : Main → Nat → Prop} {past : List Event} {start : Main}
    (preloaded : Preloaded setup past start) {elsewhere : BitVec 32 → BitVec 32}
    {lived : List LiveEvent} {live : Live}
    (run : Run (Live.ClearStep setup allow) (Live.start setup elsewhere start) lived live) :
    Within 0 3 0 (cellsOf (transmitted lived)) ∧
      ∀ subframes, 2 * subframes ≤ (transmitted lived).length → ∃ received,
        receive (cellsOf ((transmitted lived).take (2 * subframes))) = some received ∧
        received.length = subframes ∧
        ∀ (i : Nat) (r : ReceivedSubframe), received[i]? = some r →
          (r.preamble = .w ↔ i % 2 = 1) ∧ r.validity = false ∧ r.userData = false ∧
            r.evenParity = true := by
  obtain ⟨calls, sent, fields⟩ := exists_sent_calls preloaded run
  exact valid_of_sent sent fields

/-- A run of the system in which nothing is filled with silence is that of a program that
keeps clear of the engine. -/
theorem System.exists_clear {setup : Setup} {allow : Main → Nat → Prop} {past trace : List Event}
    {start : Main} {sys : System} (preloaded : Preloaded setup past start)
    (run : Run (System.Step setup allow) ⟨start, 0⟩ trace sys)
    (input : ∀ c ∈ calls trace, c.source = .input) :
    ∃ lived live, Run (Live.ClearStep setup allow) (Live.start setup (fun _ => 0) start) lived
      live ∧ live.Mirrors setup lived trace sys := by
  obtain ⟨lived, live, run', mirrors⟩ := System.exists_live (fun _ => 0) run
  have loop : (Live.start setup (fun _ => 0) start).main.pc ≠ .preload := by
    change start.pc ≠ _
    rw [preloaded.loop.1]
    exact Pc.noConfusion
  refine ⟨lived, live, (Live.run_clear loop run' ?_).1, mirrors⟩
  rw [← mirrors.events, calls_stays]
  exact input

/-- The engine sends buffer 0. -/
theorem line_valid_first_buffer : ∃ past start lived live received, Preloaded .s16le past start ∧
    Run (Live.ClearStep .s16le fun _ _ => True) (Live.start .s16le (fun _ => 0) start) lived live ∧
      receive (cellsOf ((transmitted lived).take (2 * 4096))) = some received ∧
      received.length = 4096 := by
  rcases exists_preloaded_silence with ⟨past, start, preloaded, -⟩
  have move : System.Step .s16le (fun _ _ => True) ⟨start, 0⟩ _ _ :=
    .move 0 1 (Nat.zero_lt_succ _) (Nat.one_lt_succ_succ _) rfl rfl trivial
  obtain ⟨lived, live, run, mirrors⟩ :=
    System.exists_clear preloaded (.single move) (List.forall_mem_nil _)
  rcases mirrors.place with ⟨offset, -, -, count⟩
  have one : (visited [Event.dmaMove 0 1 (start.buffers 0)]).length = 1 := rfl
  rw [one] at count
  have enough : 2 * 4096 ≤ (transmitted lived).length := by
    rw [count]
    exact Nat.le_add_right _ offset
  obtain ⟨-, sent⟩ := line_valid preloaded run
  obtain ⟨received, decoded, length, -⟩ := sent 4096 enough
  exact ⟨past, start, lived, live, received, preloaded, run, decoded, length⟩

/-- **Coming late.**  A receiver that is connected to the line at any half-cell, in either
polarity, finds the next subframe by itself: it has all the subframes of a receiver that was
there from the start but those that had begun before. -/
theorem late_receiver {setup : Setup} {allow : Main → Nat → Prop} {past : List Event}
    {start : Main} (preloaded : Preloaded setup past start) {elsewhere : BitVec 32 → BitVec 32}
    {lived : List LiveEvent} {live : Live}
    (run : Run (Live.ClearStep setup allow) (Live.start setup elsewhere start) lived live)
    (missed : Nat) (inverted : Bool) (enough : missed + 71 ≤ (cellsOf (transmitted lived)).length) :
    ∃ received, receive (cellsOf ((transmitted lived).take
        (2 * ((transmitted lived).length / 2)))) = some received ∧
      receiveLate (((cellsOf (transmitted lived)).map (inverted ^^ ·)).drop missed) =
        some (received.drop ((missed + 63) / 64)) := by
  obtain ⟨calls, sent, -⟩ := exists_sent_calls preloaded run
  have length := length_cellsOf (transmitted lived)
  have heard : 64 * ((transmitted lived).length / 2) ≤ (cellsOf (transmitted lived)).length := by
    rw [length]
    omega
  have whole : (cellsOf (transmitted lived)).length / 64 = (transmitted lived).length / 2 := by
    rw [length]
    omega
  have first : Framing.firstBlock 64 missed = (missed + 63) / 64 := rfl
  obtain ⟨decoded, -⟩ := receive_take sent heard
  have late := receiveLate_drop sent inverted enough
  rw [whole, first, List.map_drop] at late
  rw [← take_cellsOf, show 32 * (2 * ((transmitted lived).length / 2)) =
    64 * ((transmitted lived).length / 2) by omega]
  exact ⟨_, decoded, late⟩

/-- A receiver comes while the engine sends buffer 0, and the line is inverted. -/
theorem late_receiver_first_buffer : ∃ past start lived live, ∃ received : List ReceivedSubframe,
    Preloaded .s16le past start ∧
      Run (Live.ClearStep .s16le fun _ _ => True) (Live.start .s16le (fun _ => 0) start) lived
        live ∧
      receive (cellsOf ((transmitted lived).take (2 * ((transmitted lived).length / 2)))) =
        some received ∧
      receiveLate (((cellsOf (transmitted lived)).map (true ^^ ·)).drop 100) =
        some (received.drop 2) := by
  rcases exists_preloaded_silence with ⟨past, start, preloaded, -⟩
  have move : System.Step .s16le (fun _ _ => True) ⟨start, 0⟩ _ _ :=
    .move 0 1 (Nat.zero_lt_succ _) (Nat.one_lt_succ_succ _) rfl rfl trivial
  obtain ⟨lived, live, run, mirrors⟩ :=
    System.exists_clear preloaded (.single move) (List.forall_mem_nil _)
  rcases mirrors.place with ⟨offset, -, -, count⟩
  have one : (visited [Event.dmaMove 0 1 (start.buffers 0)]).length = 1 := rfl
  have enough : 100 + 71 ≤ (cellsOf (transmitted lived)).length := by
    rw [length_cellsOf, count, one]
    simp only [bufferWords, raspdifBufferSize]
    omega
  obtain ⟨received, decoded, late⟩ := late_receiver preloaded run 100 true enough
  exact ⟨past, start, lived, live, received, preloaded, run, decoded, late⟩

end Raspdif
