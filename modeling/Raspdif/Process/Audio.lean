import Raspdif.Lib.Translation
import Raspdif.Process.Board

/-!
# From the process to the receiver

What the board sends comes from the process.  As long as the loops keep clear of the engine, all
of it decodes (`board_line_valid`).  When no read comes up short either and the engine keeps away
from the program, a receiver on the line has the samples of the frames that `main` has read, from
the first one on (`board_carries_input`).
-/

namespace Raspdif.Process

open Interaction Program Trace Disparity

/-! ## What was sent -/

/-- The preload stores what it reads. -/
theorem length_reads_preload {setup : Setup} {buffers : Nat → RaspdifBuffer} {past : List Event}
    {s : Main} (run : Run (Main.Step setup) (Main.start buffers) past s) :
    s.pc = .preload → (reads past).length = (calls past).length := by
  refine run.invariant (fun past s => s.pc = .preload → (reads past).length = (calls past).length)
    (fun _ => rfl) ?_
  intro past events s s' same one still
  rw [reads_append, calls_append, List.length_append, List.length_append]
  cases one with
  | deliver | close => exact same still
  | cpu answers ran =>
      have moves := Main.step_moves ran
      by_cases before : s.pc = .preload
      · rw [same before]
        cases moves with
        | preloadFrame => rfl
        | preloadDone => cases still
        | finish pc | readWait pc | underrun pc | readFrame pc | fillRemainder _ pc
        | fillWait _ _ pc | fillEnter _ _ pc | fillReturn _ _ pc | fillBuffer _ _ pc | poll pc =>
            exact Pc.noConfusion (before.symm.trans pc)
      · exact absurd still (moves.later before).2

theorem LeavesPreload.length_reads_le {setup : Setup} {past : List Event} {start : Main}
    (leaves : LeavesPreload setup past start) : (reads past).length ≤ ringSize + 1 := by
  rcases leaves with ⟨past, mid, answers, copied, run, last, rfl⟩
  have control := (Cursor.of_run run).control
  cases Main.step_moves last with
  | preloadDone pc =>
      rw [pc] at control
      rw [reads_append, List.length_append, length_reads_preload run pc]
      exact Nat.succ_le_succ control.1

/-- The preload was complete if its reads were. -/
theorem LeavesPreload.preloaded {setup : Setup} {past : List Event} {start : Main}
    (leaves : LeavesPreload setup past start)
    (whole : ∀ copied ∈ reads past, copied.length = setup.format.frameSize) :
    Preloaded setup past start := by
  rcases leaves with ⟨past, mid, answers, copied, run, last, rfl⟩
  refine ⟨⟨_, past, mid, answers, copied, run, last, rfl⟩, ?_⟩
  rw [reads_append, List.forall_mem_append] at whole
  have control := (Cursor.of_run run).control
  rw [calls_append, List.length_append]
  change (calls past).length + 0 = ringSize
  cases Main.step_moves last with
  | preloadDone pc ready done =>
      have items := Main.items_eq_two_iff.mpr (whole.2 _ (List.mem_singleton_self _))
      rw [pc] at control
      rcases control with ⟨bound, index, -⟩
      rw [items, index] at done
      simp only [ringSize, raspdifBufferCount, raspdifBufferSize] at *
      omega

section

variable {arguments : RaspdifArguments} {elsewhere : BitVec 32 → BitVec 32} {rounds : Nat}
  {allow : Main → Nat → Prop} {h : Hardware} {b : Board} {trace : List BoardEvent}

theorem sentWords_eq {lived : List LiveEvent} (accessed : accesses lived = channelAccesses trace) :
    sentWords trace = transmitted lived := by
  rw [sentWords, transmitted, accessed]

theorem sentWords_silent (silent : channelAccesses trace = []) : sentWords trace = [] := by
  rw [sentWords, silent]
  rfl

/-- **A valid line.**  Whatever the registers held, whenever signals arrive and whatever else
the environment answers: in every run of the board whose preload reads are not short, as long as
the program stores nothing in the buffer that the engine is reading, what is sent decodes,
whatever is overrun, repeated or filled with silence. -/
theorem board_line_valid (idle : h.started = false)
    (run : Run (Board.Step arguments elsewhere allow fun setup engine c =>
      engine.conblkAd ≠ setup.controlBlock c.buffer) (Board.start rounds arguments h) trace b)
    (whole : ∀ copied ∈ (reads b.loops.events).take (ringSize + 1),
      copied.length = arguments.format.frameSize) :
    Within 0 3 0 (cellsOf (sentWords trace)) ∧
      ∀ subframes, 2 * subframes ≤ (sentWords trace).length → ∃ received,
        receive (cellsOf ((sentWords trace).take (2 * subframes))) = some received ∧
        received.length = subframes ∧
        ∀ (i : Nat) (r : ReceivedSubframe), received[i]? = some r →
          (r.preamble = .w ↔ i % 2 = 1) ∧ r.validity = false ∧ r.userData = false ∧
            r.evenParity = true := by
  obtain ⟨-, alongside⟩ := Board.follows_of_run idle run
  cases channel : b.engine with
  | none =>
      rw [channel] at alongside
      rw [sentWords_silent (alongside.before rfl).1]
      have empty : cellsOf [] <+: halfCells [] := List.nil_prefix
      exact valid_of_sent empty fun _ _ found => nomatch found
  | some engine =>
      rw [channel] at alongside
      obtain ⟨past, start, lived, leaves, guarded, events, accessed⟩ := alongside.behind _ rfl
      have before : ∀ copied ∈ reads past, copied.length = arguments.format.frameSize := by
        intro copied member
        apply whole
        rw [← events, reads_append, List.take_append, List.take_of_length_le leaves.length_reads_le]
        exact List.mem_append_left _ member
      obtain ⟨calls, line, fields⟩ := exists_sent_calls (leaves.preloaded before) guarded
      rw [sentWords_eq accessed]
      exact valid_of_sent line fields

/-- **From the input to the line.**  Whatever the registers held, whenever signals arrive and
whatever else the environment answers: in every run of the board in which no read comes up
short and the engine never loads the buffer that the program is to fill, nothing is sent
before the channel is activated, what was read and what is pending is the input, and after any
number of subframes a receiver on the line has the samples of the frames read, in order, without
frame 6144. -/
theorem board_carries_input (idle : h.started = false)
    (run : Run (Board.Step arguments elsewhere NotDue fun _ _ _ => True)
      (Board.start rounds arguments h) trace b)
    (whole : ∀ copied ∈ reads b.loops.events, copied.length = arguments.format.frameSize) :
    (b.engine = none → sentWords trace = []) ∧
      (reads b.loops.events).flatten ++ b.loops.main.file.pending = delivered b.loops.events ∧
      ∀ subframes, 2 * subframes ≤ (sentWords trace).length → ∃ received,
        receive (cellsOf ((sentWords trace).take (2 * subframes))) = some received ∧
        received.length = subframes ∧
        received.map ReceivedSubframe.value24 =
          (((reads b.loops.events).eraseIdx ringSize).flatMap arguments.format.values).take
            subframes := by
  obtain ⟨-, alongside⟩ := Board.follows_of_run idle run
  refine ⟨fun none => sentWords_silent (alongside.before none).1, ?_⟩
  cases channel : b.engine with
  | none =>
      rw [channel] at alongside
      obtain ⟨silent, approaching⟩ := alongside.before rfl
      refine ⟨Fed.of_run approaching.run, fun subframes enough => ?_⟩
      rw [sentWords_silent silent] at enough ⊢
      obtain rfl : subframes = 0 := by
        have none : 2 * subframes ≤ 0 := enough
        omega
      exact ⟨[], rfl, rfl, rfl⟩
  | some engine =>
      rw [channel] at alongside
      obtain ⟨past, start, lived, leaves, guarded, events, accessed⟩ := alongside.behind _ rfl
      rw [sentWords_eq accessed]
      rw [← events] at whole ⊢
      have before : ∀ copied ∈ reads past, copied.length = arguments.format.frameSize := by
        rw [reads_append, List.forall_mem_append] at whole
        exact whole.1
      obtain ⟨trace, sys, carries⟩ := Live.Carries.of_run (leaves.preloaded before)
        (guarded.mono And.left) whole
      refine ⟨carries.taken, fun subframes enough => ?_⟩
      rw [carries.reads_eq] at whole ⊢
      exact carries.received whole enough

end

/-! ## A board that plays -/

/-- A frame arrives, and the DMA is at buffer 0. -/
def nextFrame : Outside := ⟨[1, 0, 2, 0], false, ⟨0xC4000000, 0, 0⟩⟩

/-- The preload after so many rounds that brought a frame each. -/
structure Brought (count : Nat) (l : Loops) : Prop where
  run : Run (Main.Step (RaspdifArguments.default.setup l.bus)) (Main.start fun _ => .zero)
    l.events l.main
  pc : l.main.pc = .preload
  file : l.main.file = ⟨[], false, false⟩
  made : (calls l.events).length = count
  taken : reads l.events = List.replicate count nextFrame.bytes

theorem fread_nextFrame :
    (File.mk nextFrame.bytes false false).fread RaspdifFormat.s16le.sampleSize 2 =
      ⟨2, nextFrame.bytes, ⟨[], false, false⟩⟩ := by
  simp [File.fread, nextFrame, RaspdifFormat.sampleSize]

/-- What the next round finds. -/
structure Arrived (count : Nat) (s : Main) : Prop where
  pc : s.pc = .preload
  ready : s.file.Ready RaspdifFormat.s16le.frameSize
  read (bus : BitVec 32) : s.fread (RaspdifArguments.default.setup bus) =
    ⟨2, nextFrame.bytes, ⟨[], false, false⟩⟩
  index : s.bufferIndex = count / raspdifBufferSize

theorem Brought.arrived {count : Nat} {l : Loops} (brought : Brought count l) :
    Arrived count (arrive l.main nextFrame) := by
  have control := (Cursor.of_run brought.run).control
  rw [brought.pc, brought.made] at control
  have opened : ¬ l.main.file.closed = true := by
    rw [brought.file]
    exact Bool.false_ne_true
  have file : (arrive l.main nextFrame).file = ⟨nextFrame.bytes, false, false⟩ := by
    rw [arrive, if_neg opened, brought.file]
    rfl
  refine ⟨?_, ?_, ?_, ?_⟩
  · rw [Access.arrive_pc, brought.pc]
  · rw [file]
    exact Or.inl (Nat.le_refl 4)
  · intro bus
    rw [Main.fread, file]
    exact fread_nextFrame
  · rw [arrive, if_neg opened]
    exact control.2.1

/-- A round of the preload stores its frame. -/
theorem Brought.step {count : Nat} {l : Loops} (brought : Brought count l)
    (room : count < ringSize) : ∃ next c,
      (arrive l.main nextFrame).step (RaspdifArguments.default.setup l.bus) nextFrame.answers =
          some (next, [.fread nextFrame.bytes, .call c]) ∧
        next.pc = .preload ∧ next.file = ⟨[], false, false⟩ := by
  have arrived := brought.arrived
  have read := arrived.read l.bus
  have step := Main.step_of_moves (RaspdifArguments.default.setup l.bus) nextFrame.answers
    (.preloadFrame arrived.pc arrived.ready ?_ ?_)
  · rw [read] at step
    refine ⟨_, _, step, arrived.pc, ?_⟩
    change ((arrive l.main nextFrame).fread _).file = _
    rw [read]
  · rw [read]
    exact Nat.two_pos
  · rw [arrived.index]
    simp only [ringSize, raspdifBufferCount, raspdifBufferSize] at *
    omega

/-- The round behind a complete one leaves it. -/
theorem Brought.last_step {l : Loops} (brought : Brought ringSize l) : ∃ next,
    (arrive l.main nextFrame).step (RaspdifArguments.default.setup l.bus) nextFrame.answers =
      some (next, [.fread nextFrame.bytes, .dmaEnable]) ∧ next.pc = .readLoop := by
  have arrived := brought.arrived
  have read := arrived.read l.bus
  have step := Main.step_of_moves (RaspdifArguments.default.setup l.bus) nextFrame.answers
    (.preloadDone arrived.pc arrived.ready (Or.inr ?_))
  · rw [read] at step
    exact ⟨_, step, rfl⟩
  · rw [arrived.index]
    exact Nat.le_refl 3

theorem Brought.events {count : Nat} {l : Loops} (brought : Brought count l) {next : Main}
    {events : List Event}
    (step : (arrive l.main nextFrame).step (RaspdifArguments.default.setup l.bus)
      nextFrame.answers = some (next, events)) :
    (l.round .default nextFrame).main = next ∧
      (l.round .default nextFrame).events = l.events ++ (.delivered nextFrame.bytes :: events) := by
  have opened : ¬ l.main.file.closed = true := by
    rw [brought.file]
    exact Bool.false_ne_true
  rw [Loops.round, Process.round, step, arrivalEvents, if_neg opened]
  exact ⟨rfl, rfl⟩

theorem Brought.next {count : Nat} {l : Loops} (brought : Brought count l)
    (room : count < ringSize) : Brought (count + 1) (l.round .default nextFrame) := by
  obtain ⟨next, c, step, pc, file⟩ := brought.step room
  obtain ⟨main, events⟩ := brought.events step
  have run := brought.run.append (run_round l nextFrame)
  refine ⟨run, ?_, ?_, ?_, ?_⟩
  · rw [main, pc]
  · rw [main, file]
  · rw [events, calls_append, List.length_append, brought.made]
    rfl
  · rw [events, reads_append, brought.taken, List.replicate_succ']
    rfl

/-- Such a round in the process. -/
theorem Brought.run_stream {count : Nat} {l : Loops} (brought : Brought count l) {next : Main}
    {events : List Event}
    (step : (arrive l.main nextFrame).step (RaspdifArguments.default.setup l.bus)
      nextFrame.answers = some (next, events)) (more : Nat) :
    Run Point.Step
      ⟨startup.2.state,
        stream (RaspdifArguments.default.setup l.bus) .default (1 + more) l.main⟩
      (⟨.outside, nextFrame⟩ :: stepEvents .preload next.pc)
      ⟨startup.2.state, stream (RaspdifArguments.default.setup l.bus) .default more next⟩ := by
  have running : l.main.pc ≠ .finished := by
    rw [brought.pc]
    exact Pc.noConfusion
  have pc := brought.arrived.pc
  have tests : position (arrive l.main nextFrame) = none := by rw [position, pc]
  have round := run_stream_round running step (by
    intro index some
    cases tests.symm.trans some) more
  rwa [pc] at round

/-- The rounds of the preload, in the program and beside it. -/
theorem Brought.rounds {l : Loops} (brought : Brought 0 l) (more : Nat) :
    ∀ count ≤ ringSize, ∃ l',
      (List.replicate count ⟨.outside, nextFrame⟩).foldl (Loops.record .default) l = l' ∧
        l'.bus = l.bus ∧ Brought count l' ∧
        Run Point.Step
          ⟨startup.2.state,
            stream (RaspdifArguments.default.setup l.bus) .default (count + more) l.main⟩
          (List.replicate count ⟨.outside, nextFrame⟩)
          ⟨startup.2.state,
            stream (RaspdifArguments.default.setup l.bus) .default more l'.main⟩ := by
  intro count
  induction count generalizing more with
  | zero =>
      intro _
      rw [Nat.zero_add]
      exact ⟨l, rfl, rfl, brought, .nil⟩
  | succ count ih =>
      intro room
      obtain ⟨l', fold, bus, brought', run⟩ := ih (1 + more) (by omega)
      obtain ⟨next, c, step, pc, file⟩ := brought'.step room
      obtain ⟨main, -⟩ := brought'.events step
      have round := brought'.run_stream step more
      have silent : stepEvents .preload .preload = [] :=
        stepEvents_eq_nil (fun left => Pc.noConfusion left.2) Pc.noConfusion
      rw [pc, silent, bus] at round
      refine ⟨l'.round .default nextFrame, ?_, bus, brought'.next room, ?_⟩
      · rw [List.replicate_succ', List.foldl_append, fold]
        rfl
      · rw [main, List.replicate_succ', Nat.add_assoc]
        exact run.append round

/-- Neither a round nor the activation of the DMA. -/
def outsideLoops : EnvCall → Bool
  | .outside | .dma _ (.csActive true) => false
  | _ => true

theorem foldl_outsideLoops (arguments : RaspdifArguments) (l : Loops) {calls : List EnvEvent}
    (away : ∀ e ∈ calls, outsideLoops e.op = true) :
    ∃ bus, calls.foldl (Loops.record arguments) l = { l with bus := bus } := by
  induction calls generalizing l with
  | nil => exact ⟨l.bus, rfl⟩
  | cons e calls ih =>
      obtain ⟨here, later⟩ := List.forall_mem_cons.mp away
      obtain ⟨bus, first⟩ : ∃ bus, l.record arguments e = { l with bus := bus } := by
        rcases e with ⟨own, answer⟩
        change ∃ bus, l.answered arguments own answer = { l with bus := bus }
        unfold Loops.answered
        split
        case h_1 => exact (ite_eq_or_eq _ _ _).elim (⟨_, ·⟩) (⟨l.bus, ·⟩)
        case h_2 | h_3 => cases here
        case h_4 => exact ⟨l.bus, rfl⟩
      obtain ⟨bus', rest⟩ := ih { l with bus := bus } later
      rw [List.foldl_cons, first]
      exact ⟨bus', rest⟩

theorem opened_outsideLoops : ∀ e ∈ opened.1, outsideLoops e.op = true := by decide +kernel

theorem fold_opened : opened.1.foldl (Loops.record .default) (.start 0) = .start 0xC4000000 := by
  obtain ⟨bus, fold⟩ := foldl_outsideLoops .default (.start 0) opened_outsideLoops
  have locked := bus_opened
  rw [fold] at locked ⊢
  obtain rfl : bus = 0xC4000000 := locked
  rfl

theorem Brought.start (bus : BitVec 32) : Brought 0 (.start bus) := ⟨.nil, rfl, rfl, rfl, rfl⟩

/-- The calls up to the end of the preload. -/
def preloading : List EnvEvent :=
  opened.1 ++ List.replicate (ringSize + 1) ⟨.outside, nextFrame⟩

theorem starts_preloading : ∀ e ∈ preloading, starts e.op = false := by
  rw [preloading, List.forall_mem_append]
  refine ⟨starts_opened, ?_⟩
  intro e member
  rw [List.eq_of_mem_replicate member]
  rfl

theorem reads_preloading :
    reads (preloading.foldl (Loops.record .default) (.start 0)).events =
      List.replicate (ringSize + 1) nextFrame.bytes := by
  obtain ⟨l, fold, -, brought, -⟩ :=
    (Brought.start 0xC4000000).rounds 0 ringSize (Nat.le_refl _)
  obtain ⟨next, step, -⟩ := brought.last_step
  rw [preloading, List.foldl_append, fold_opened, List.replicate_succ', List.foldl_append, fold]
  change reads (l.round .default nextFrame).events = _
  rw [(brought.events step).2, reads_append, brought.taken, List.replicate_succ']
  rfl

/-- The loops come to activate the channel. -/
theorem run_stream_preload : ∃ last, Run Point.Step
    ⟨startup.2.state, stream grantingSetup .default (ringSize + 1) (Main.start fun _ => .zero)⟩
    (List.replicate (ringSize + 1) ⟨.outside, nextFrame⟩ ++ activation :: transmitting) last := by
  obtain ⟨l, -, bus, brought, rounds⟩ :=
    (Brought.start 0xC4000000).rounds 1 ringSize (Nat.le_refl _)
  obtain ⟨next, step, pc⟩ := brought.last_step
  have round := brought.run_stream step 0
  rw [pc, stepEvents_leave, bus] at round
  rw [List.replicate_succ', ← List.append_cons]
  exact ⟨_, rounds.append round⟩

/-- And so does the process. -/
theorem exists_activation : ∃ m m',
    Run Machine.Step (Machine.start (ringSize + 1) .default) (preloading.map .call) m ∧
      Machine.Step m [.call activation] m' := by
  obtain ⟨last, looped⟩ := run_stream_preload
  have whole := Machine.run_frame
    ((run_opening _).append (Point.run_bind looped fun _ => raspdifShutdown)) none []
  rw [← List.append_assoc, List.map_append, List.map_cons] at whole
  obtain ⟨m, m', earlier, one, -⟩ := whole.exists_step alone_call
  exact ⟨m, m', earlier, one⟩

/-- The activation brings no input. -/
theorem events_activation (l : Loops) (calls : List EnvEvent) :
    ((loopMonitor .default).after l (calls ++ [activation])).events =
      (calls.foldl (Loops.record .default) l).events := by
  rw [Monitor.after, List.foldl_append]
  rfl

/-- The channel copies a subframe. -/
theorem exists_sending (allow : Main → Nat → Prop) (clear : Setup → Engine → Call → Prop) :
    ∃ trace b, Run (Board.Step .default (fun _ => 0) allow clear)
        (Board.start (ringSize + 1) .default .clear) trace b ∧
      (sentWords trace).length = 2 ∧
      reads b.loops.events = List.replicate (ringSize + 1) nextFrame.bytes := by
  obtain ⟨m, m', earlier, one⟩ := exists_activation
  have early : ∀ e ∈ envCalls (preloading.map .call), starts e.op = false := by
    rw [envCalls_map_call]
    exact starts_preloading
  obtain ⟨trace, b, run, -, -, made, two⟩ : ∃ trace b, Run
      (Board.Step .default (fun _ => 0) allow clear)
      (Board.start (ringSize + 1) .default .clear) trace b ∧ b.machine = m' ∧
      b.engine.isSome = true ∧
      occurrences trace = preloading.map .call ++ [.call activation] ∧
      (sentWords trace).length = 2 := exists_first_subframe rfl earlier early one
  refine ⟨trace, b, run, two, ?_⟩
  have calls : envCalls (occurrences trace) = preloading ++ [activation] := by
    rw [made, envCalls_append, envCalls_map_call]
    rfl
  rw [(Board.follows_of_run rfl run).1.loops, calls, events_activation]
  exact reads_preloading

/-- The first subframe of the input is on the line. -/
theorem board_line_valid_first_subframe : ∃ trace b received,
    Run (Board.Step .default (fun _ => 0) (fun _ _ => True) fun setup engine c =>
        engine.conblkAd ≠ setup.controlBlock c.buffer)
        (Board.start (ringSize + 1) .default .clear) trace b ∧
      (sentWords trace).length = 2 ∧
      receive (cellsOf ((sentWords trace).take 2)) = some received ∧ received.length = 1 := by
  obtain ⟨trace, b, run, two, heard⟩ := exists_sending (fun _ _ => True)
    fun setup engine c => engine.conblkAd ≠ setup.controlBlock c.buffer
  have whole : ∀ copied ∈ (reads b.loops.events).take (ringSize + 1),
      copied.length = RaspdifArguments.default.format.frameSize := by
    rw [heard]
    intro copied member
    rw [List.eq_of_mem_replicate (List.mem_of_mem_take member)]
    rfl
  obtain ⟨received, takes, one, -⟩ := (board_line_valid rfl run whole).2 1 two.ge
  exact ⟨trace, b, received, run, two, takes, one⟩

/-- And it has the first sample. -/
theorem board_carries_input_first_frame : ∃ trace b received,
    Run (Board.Step .default (fun _ => 0) NotDue fun _ _ _ => True)
        (Board.start (ringSize + 1) .default .clear) trace b ∧
      (sentWords trace).length = 2 ∧
      receive (cellsOf ((sentWords trace).take 2)) = some received ∧
      received.map ReceivedSubframe.value24 = [256] := by
  obtain ⟨trace, b, run, two, heard⟩ := exists_sending NotDue fun _ _ _ => True
  have whole : ∀ copied ∈ reads b.loops.events,
      copied.length = RaspdifArguments.default.format.frameSize := by
    rw [heard]
    intro copied member
    rw [List.eq_of_mem_replicate member]
    rfl
  obtain ⟨received, takes, -, values⟩ := (board_carries_input rfl run whole).2.2 1 two.ge
  refine ⟨trace, b, received, run, two, takes, ?_⟩
  have row : (List.replicate (ringSize + 1) nextFrame.bytes).eraseIdx ringSize =
      nextFrame.bytes :: List.replicate 6143 nextFrame.bytes := by
    rw [List.eraseIdx_replicate, if_pos (Nat.lt_succ_self _)]
    rfl
  have frame : RaspdifArguments.default.format.values nextFrame.bytes = [256, 512] := by decide
  rw [values, heard, row, List.flatMap_cons, frame]
  rfl

end Raspdif.Process
