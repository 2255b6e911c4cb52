import Raspdif.Dma.System

/-!
# Playback in order

The read loop compares two buffer indices modulo 3, which does not tell a full ring from
an empty one.  Counted without wrapping, the program is one to three buffers ahead of the
DMA as long as no read is short and the DMA never moves into the buffer that the program
is filling: `Playback`.  So what the DMA reads, buffer by buffer, are the frames that were
handed to `raspdif_buffer_samples`, in order (`played_in_order`).
-/

namespace Raspdif

open Trace Ring

/-! ## What is played -/

/-- The frames of a buffer in the order of the DMA. -/
def RaspdifBuffer.frames (b : RaspdifBuffer) : List RaspdifEntry := List.ofFn b.sample

def Event.visited? : Event → Option RaspdifBuffer
  | .dmaMove _ _ contents => some contents
  | _ => none

/-- The buffers that the DMA has read, as it read them. -/
def visited (trace : List Event) : List RaspdifBuffer := trace.filterMap Event.visited?

@[simp] theorem visited_append (first second : List Event) :
    visited (first ++ second) = visited first ++ visited second :=
  List.filterMap_append

/-- The frames that `raspdif_buffer_samples` is to make of the samples handed to it. -/
def encodedFrames (format : RaspdifFormat) (samples : List (BitVec 32 × BitVec 32)) :
    List RaspdifEntry :=
  samples.mapIdx fun n frame => frameEntry (blockPosition n) format frame.1 frame.2

/-- The DMA must not come to the buffer that the program is still to fill. -/
def NotDue (s : Main) (next : Nat) : Prop := next ≠ s.bufferIndex

theorem RaspdifBuffer.frames_inj {b c : RaspdifBuffer} (same : b.frames = c.frames) : b = c := by
  rcases b with ⟨sample⟩
  exact congrArg RaspdifBuffer.mk (List.ofFn_injective same)

section

variable {setup : Setup} {s s' : Main} {sys sys' : System} {trace events : List Event}

/-- Buffer number `k`, counted without wrapping, reads as its stretch of the ring. -/
theorem Main.frames_buffers (s : Main) (k : Nat) :
    (s.buffers (k % raspdifBufferCount)).frames =
      (List.range raspdifBufferSize).map fun i =>
        s.memory (ringPlace (raspdifBufferSize * k + i)) := by
  apply List.ext_getElem
  · rw [RaspdifBuffer.frames, List.length_ofFn, List.length_map, List.length_range]
  · intro i inFrames inRange
    have inside : i < raspdifBufferSize := inFrames.trans_eq List.length_ofFn
    have place : ringPlace (raspdifBufferSize * k + i) = (k % raspdifBufferCount, ⟨i, inside⟩) := by
      refine Prod.ext ?_ (Fin.ext ?_)
      · change (raspdifBufferSize * k + i) / raspdifBufferSize % raspdifBufferCount = _
        rw [Nat.mul_add_div (Nat.zero_lt_succ _), Nat.div_eq_of_lt inside, Nat.add_zero]
      · exact (Nat.mul_add_mod _ _ _).trans (Nat.mod_eq_of_lt inside)
    simp only [RaspdifBuffer.frames, List.getElem_ofFn, List.getElem_map, List.getElem_range,
      place, Main.memory]

/-- When all calls come from the input, the stored frames are the ones handed over. -/
theorem Cursor.map_stored (cursor : Cursor setup trace s)
    (input : ∀ c ∈ calls trace, c.source = .input) :
    (calls trace).map Call.stored = encodedFrames setup.format (handed trace) := by
  have all : (calls trace).filter (fun c => c.source = .input) = calls trace :=
    List.filter_eq_self.mpr fun c member => decide_eq_true (input c member)
  rw [handed, all, encodedFrames]
  apply List.ext_getElem?
  intro n
  rw [List.getElem?_mapIdx, List.getElem?_map, List.getElem?_map]
  cases at_ : (calls trace)[n]? with
  | none => rfl
  | some c =>
      obtain ⟨-, -, -, number, -⟩ := cursor.placed_getElem? at_
      exact congrArg some number.stored

/-! ## The invariant -/

structure Playback (setup : Setup) (trace : List Event) (sys : System) : Prop where
  circling : Circling setup trace sys
  shown : Shown trace sys.main
  loop : sys.main.pc = .readLoop ∨ sys.main.pc = .finished
  turn : sys.main.bufferIndex = ringIndex (calls trace).length 0
  noFill : fills trace = 0
  input : ∀ c ∈ calls trace, c.source = .input
  begun : entered trace = (visited trace).length + 1
  /-- The buffer of the DMA is full. -/
  ready : raspdifBufferSize * ((visited trace).length + 1) ≤ (calls trace).length
  /-- The program has not come round to it again. -/
  room : (calls trace).length ≤ raspdifBufferSize * ((visited trace).length + 3)
  played : (visited trace).flatMap RaspdifBuffer.frames =
    ((calls trace).map Call.stored).take (raspdifBufferSize * (visited trace).length)

/-- The DMA's buffer holds the frames that are to be played next. -/
theorem Playback.current (playback : Playback setup trace sys) :
    (sys.main.buffers sys.dma).frames =
      (((calls trace).map Call.stored).drop (raspdifBufferSize * (visited trace).length)).take
        raspdifBufferSize := by
  have ready := playback.ready
  have room := playback.room
  have dma : sys.dma = (visited trace).length % raspdifBufferCount := by
    rw [playback.circling.dma, playback.begun]
    exact Nat.add_mod_right _ raspdifBufferCount
  rw [dma, Main.frames_buffers]
  have held := playback.shown.shows playback.circling.cursor
    (inPhase_of_fills_eq_zero playback.noFill)
  refine held.map_range ?_ ?_
  · rwa [List.length_map]
  · rw [List.length_map]
    simp only [ringSize, raspdifBufferCount, raspdifBufferSize] at *
    omega

/-- With the buffer the DMA is at, the frames played are the first ones stored. -/
theorem Playback.played_current (playback : Playback setup trace sys) :
    (visited trace).flatMap RaspdifBuffer.frames ++ (sys.main.buffers sys.dma).frames =
      ((calls trace).map Call.stored).take (raspdifBufferSize * ((visited trace).length + 1)) := by
  rw [playback.played, playback.current, Nat.mul_succ, List.take_add]

/-- A step that neither stores a frame nor moves the DMA. -/
theorem Playback.quiet (playback : Playback setup trace sys)
    (circling : Circling setup (trace ++ events) sys') (shown : Shown (trace ++ events) sys'.main)
    (loop : sys'.main.pc = .readLoop ∨ sys'.main.pc = .finished)
    (bufferIndex : sys'.main.bufferIndex = sys.main.bufferIndex) (silent : calls events = [])
    (noFill : fills events = 0) (noVisit : entered events = 0) (still : visited events = []) :
    Playback setup (trace ++ events) sys' := by
  have made : calls (trace ++ events) = calls trace := by
    rw [calls_append, silent, List.append_nil]
  have seen : visited (trace ++ events) = visited trace := by
    rw [visited_append, still, List.append_nil]
  refine ⟨circling, shown, loop, ?_, ?_, ?_, ?_, ?_, ?_, ?_⟩
  · rw [bufferIndex, made]
    exact playback.turn
  · rw [fills_append, noFill]
    exact playback.noFill
  · rw [made]
    exact playback.input
  · rw [entered_append, noVisit, seen]
    exact playback.begun
  · rw [seen, made]
    exact playback.ready
  · rw [seen, made]
    exact playback.room
  · rw [seen, made]
    exact playback.played

/-- A frame is stored while the DMA is at another buffer. -/
theorem Playback.store {c : Call} (playback : Playback setup trace sys) (quiet : List Event)
    (circling : Circling setup (trace ++ (quiet ++ [.call c])) sys')
    (shown : Shown (trace ++ (quiet ++ [.call c])) sys'.main)
    (loop : sys'.main.pc = .readLoop) (silent : calls quiet = []) (noFill : fills quiet = 0)
    (noVisit : entered quiet = 0) (still : visited quiet = []) (input : c.source = .input)
    (away : sys.dma ≠ sys.main.bufferIndex)
    (turn : sys'.main.bufferIndex = ringIndex ((calls trace).length + 1) 0) :
    Playback setup (trace ++ (quiet ++ [.call c])) sys' := by
  have made : calls (trace ++ (quiet ++ [.call c])) = calls trace ++ [c] := by
    rw [calls_append, calls_append, silent]
    rfl
  have count : (calls trace ++ [c]).length = (calls trace).length + 1 := List.length_append
  have seen : visited (trace ++ (quiet ++ [.call c])) = visited trace := by
    rw [visited_append, visited_append, still]
    exact List.append_nil _
  have ready := playback.ready
  have room := playback.room
  refine ⟨circling, shown, Or.inl loop, ?_, ?_, ?_, ?_, ?_, ?_, ?_⟩
  · rw [made, count]
    exact turn
  · rw [fills_append, fills_append, playback.noFill, noFill]
    rfl
  · rw [made, List.forall_mem_append, List.forall_mem_singleton]
    exact ⟨playback.input, input⟩
  · rw [entered_append, entered_append, noVisit, seen]
    exact playback.begun
  · rw [seen, made, count]
    exact ready.trans (Nat.le_succ _)
  · -- If the ring were full the DMA would be at the buffer that the program is to fill.
    have dma := playback.circling.dma
    rw [playback.begun] at dma
    rw [playback.turn, dma] at away
    rw [seen, made, count]
    simp only [ringIndex, raspdifBufferCount, raspdifBufferSize] at *
    omega
  · rw [seen, made, List.map_append, playback.played, List.take_append_of_le_length]
    rw [List.length_map]
    exact (Nat.mul_le_mul_left _ (Nat.le_succ _)).trans ready

/-- The DMA goes on to the next buffer, which is full. -/
theorem Playback.move (playback : Playback setup trace sys) {next : Nat}
    (circling : Circling setup
      (trace ++ [.dmaMove sys.dma next (sys.main.buffers sys.dma)]) ⟨sys.main, next⟩)
    (turns : next = (sys.dma + 1) % raspdifBufferCount) (notDue : NotDue sys.main next) :
    Playback setup (trace ++ [.dmaMove sys.dma next (sys.main.buffers sys.dma)])
      ⟨sys.main, next⟩ := by
  have made : calls (trace ++ [.dmaMove sys.dma next (sys.main.buffers sys.dma)]) =
      calls trace := by
    rw [calls_append]
    exact List.append_nil _
  have seen : visited (trace ++ [.dmaMove sys.dma next (sys.main.buffers sys.dma)]) =
      visited trace ++ [sys.main.buffers sys.dma] :=
    visited_append _ _
  have count : (visited trace ++ [sys.main.buffers sys.dma]).length =
      (visited trace).length + 1 := List.length_append
  have ready := playback.ready
  have room := playback.room
  refine ⟨circling, playback.shown.quiet rfl rfl, playback.loop, ?_, ?_, ?_, ?_, ?_, ?_, ?_⟩
  · rw [made]
    exact playback.turn
  · rw [fills_append, playback.noFill]
    rfl
  · rw [made]
    exact playback.input
  · rw [entered_append, seen, count, playback.begun]
    rfl
  · -- If the ring held this buffer alone the DMA would come to the one that is due.
    have dma := playback.circling.dma
    rw [playback.begun] at dma
    unfold NotDue at notDue
    rw [playback.turn, turns, dma] at notDue
    rw [made, seen, count]
    simp only [ringIndex, raspdifBufferCount, raspdifBufferSize] at *
    omega
  · rw [made, seen, count]
    exact room.trans (Nat.mul_le_mul_left _ (Nat.le_succ _))
  · rw [made, seen, count, List.flatMap_append, List.flatMap_singleton, playback.played_current]

/-- A step in which no read is short. -/
theorem Playback.step (playback : Playback setup trace sys)
    (one : System.Step setup NotDue sys events sys')
    (whole : ∀ copied ∈ reads events, copied.length = setup.format.frameSize) :
    Playback setup (trace ++ events) sys' := by
  have circling := playback.circling.step one
  have cursor := playback.circling.cursor
  cases one.acts playback.circling.inRing with
  | program answers here step moves =>
      have shown := playback.shown.step cursor step
      cases moves with
      | finish => exact playback.quiet circling shown (Or.inr rfl) rfl rfl rfl rfl rfl
      | readWait => exact playback.quiet circling shown playback.loop rfl rfl rfl rfl rfl
      | underrun pc away short =>
          exact absurd (Main.items_eq_two_iff.mpr (whole _ (List.mem_singleton_self _))) short
      | readFrame pc noEof away enough =>
          have input := Main.bufferInput_full setup (s := sys.main.afterRead setup) cursor.encoder
          refine playback.store [_] circling shown pc rfl rfl rfl rfl rfl ?_ ?_
          · intro same
            exact away (by rw [here, same])
          · change ite _ _ _ = _
            rw [playback.turn]
            split
            next full => rw [ringIndex_succ_of_full (input.mp full)]
            next room => rw [ringIndex_succ_of_not_full (mt input.mpr room)]
      | preloadFrame pc | preloadDone pc | fillRemainder _ pc | fillWait _ _ pc
      | fillEnter _ _ pc | fillReturn _ _ pc | fillBuffer _ _ pc | poll pc =>
          rcases playback.loop with loop | loop <;> rw [pc] at loop <;> cases loop
  | deliver bytes step =>
      have shown := playback.shown.step cursor step
      exact playback.quiet circling shown playback.loop rfl rfl rfl rfl rfl
  | close step =>
      have shown := playback.shown.step cursor step
      exact playback.quiet circling shown playback.loop rfl rfl rfl rfl rfl
  | dma allowed => exact playback.move circling rfl allowed

/-- The DMA has read a buffer only if it has come to the next one. -/
theorem length_visited_le (trace : List Event) : (visited trace).length ≤ entered trace := by
  rw [visited, List.length_filterMap_eq_countP]
  refine List.countP_mono_left fun e _ moved => ?_
  cases e with
  | dmaMove => rfl
  | _ => exact absurd moved Bool.false_ne_true

theorem Preloaded.visited_eq {start : Main} (preloaded : Preloaded setup trace start) :
    visited trace = [] := by
  rcases preloaded.visits with ⟨past, copied, rfl, noVisit, -⟩
  have few := length_visited_le past
  rw [noVisit, Nat.le_zero, List.length_eq_zero_iff] at few
  rw [visited_append, few]
  rfl

theorem Playback.of_preloaded {start : Main} (preloaded : Preloaded setup trace start) :
    Playback setup trace ⟨start, 0⟩ := by
  rcases preloaded.run with ⟨buffers, history⟩
  rcases preloaded.loop with ⟨loop, index⟩
  have complete := preloaded.complete
  have seen := preloaded.visited_eq
  rcases preloaded.visits with ⟨past, copied, split, noVisit, input⟩
  refine ⟨.of_preloaded preloaded, .of_run history, Or.inl loop, ?_, preloaded.fills_eq, input,
    ?_, ?_, ?_, ?_⟩
  · rw [complete]
    exact index
  · rw [seen, split, entered_append, noVisit]
    rfl
  · rw [seen, complete]
    exact Nat.le_mul_of_pos_left _ (Nat.zero_lt_succ _)
  · rw [seen, complete, Nat.mul_comm]
    exact Nat.le_refl _
  · rw [seen]
    rfl

theorem Playback.of_run {past : List Event} {start : Main} (preloaded : Preloaded setup past start)
    (run : Run (System.Step setup NotDue) ⟨start, 0⟩ trace sys)
    (whole : ∀ copied ∈ reads trace, copied.length = setup.format.frameSize) :
    Playback setup (past ++ trace) sys := by
  refine run.invariant (fun history now =>
    (∀ copied ∈ reads history, copied.length = setup.format.frameSize) →
      Playback setup (past ++ history) now)
    (fun _ => by rw [List.append_nil]; exact .of_preloaded preloaded) ?_ whole
  intro history events now next playback one whole
  rw [reads_append, List.forall_mem_append] at whole
  rw [← List.append_assoc]
  exact (playback whole.1).step one whole.2

/-- While the DMA stays at a buffer its frames stay the same. -/
theorem Playback.buffers_eq {middle : List Event} (playback : Playback setup trace sys)
    (later : Playback setup (trace ++ middle) sys') (still : visited middle = []) :
    sys'.dma = sys.dma ∧ sys'.main.buffers sys.dma = sys.main.buffers sys.dma := by
  have seen : visited (trace ++ middle) = visited trace := by
    rw [visited_append, still, List.append_nil]
  have same : sys'.dma = sys.dma := by
    rw [later.circling.dma, playback.circling.dma, later.begun, playback.begun, seen]
  refine ⟨same, RaspdifBuffer.frames_inj ?_⟩
  have ready := playback.ready
  rw [Nat.mul_succ] at ready
  have current := later.current
  rw [same, seen, calls_append, List.map_append, List.drop_append_of_le_length,
    List.take_append_of_le_length] at current
  · rw [current, playback.current]
  · rw [List.length_drop, List.length_map]
    exact Nat.le_sub_of_add_le' ready
  · rw [List.length_map]
    exact (Nat.le_add_right _ _).trans ready

end

/-- **Ring hand-over in order.**  In every run from a complete preload in which no read is
short and the DMA never moves into the buffer that the program is to fill, the buffers the
DMA has read, and the one it is at, make up a prefix of the frames handed to
`raspdif_buffer_samples`; and a buffer does not change while the DMA is at it. -/
theorem played_in_order {setup : Setup} {past trace : List Event} {start : Main} {s : System}
    (preloaded : Preloaded setup past start)
    (run : Run (System.Step setup NotDue) ⟨start, 0⟩ trace s)
    (whole : ∀ copied ∈ reads trace, copied.length = setup.format.frameSize) :
    (visited trace).flatMap RaspdifBuffer.frames ++ (s.main.buffers s.dma).frames <+:
        encodedFrames setup.format (handed (past ++ trace)) ∧
      ∀ first middle rest mid later, trace = first ++ middle ++ rest →
        Run (System.Step setup NotDue) ⟨start, 0⟩ first mid →
        Run (System.Step setup NotDue) mid middle later → visited middle = [] →
        later.dma = mid.dma ∧ later.main.buffers mid.dma = mid.main.buffers mid.dma := by
  have playback := Playback.of_run preloaded run whole
  constructor
  · have all := playback.played_current
    rw [visited_append, preloaded.visited_eq, List.nil_append] at all
    rw [all, ← playback.circling.cursor.map_stored playback.input]
    exact List.take_prefix _ _
  · intro first middle rest mid later split left right still
    rw [split, reads_append, List.forall_mem_append] at whole
    have both := Playback.of_run preloaded (left.append right) whole.1
    rw [reads_append, List.forall_mem_append] at whole
    rw [← List.append_assoc] at both
    exact (Playback.of_run preloaded left whole.1.1).buffers_eq both still

/-- The DMA has played buffer 0 and is at buffer 1 when the program stores a frame. -/
theorem played_in_order_first_move : ∃ past start trace s, Preloaded .s16le past start ∧
    Run (System.Step .s16le NotDue) ⟨start, 0⟩ trace s ∧ (visited trace).length = 1 ∧
      (visited trace).flatMap RaspdifBuffer.frames ++ (s.main.buffers s.dma).frames <+:
        encodedFrames .s16le (handed (past ++ trace)) := by
  rcases exists_preloaded_silence with ⟨past, start, preloaded, file⟩
  rcases preloaded.loop with ⟨pc, index⟩
  have notDue : NotDue start 1 := by
    unfold NotDue
    rw [index]
    exact one_ne_zero
  obtain ⟨c, main, run, -⟩ := System.exists_move_readFrame NotDue pc index file notDue
  refine ⟨past, start, _, _, preloaded, run, rfl, (played_in_order preloaded run ?_).1⟩
  intro copied member
  obtain rfl := List.mem_singleton.mp member
  rfl

end Raspdif
