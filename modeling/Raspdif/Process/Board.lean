import Raspdif.Dma.Audio
import Raspdif.Process.Mapped
import Raspdif.Process.Rounds

/-!
# The board

The process beside its DMA channel, from the start of `main` to its end.  The channel loads
the control block it was given when it is activated, and copies as long as it is active; each
round of the loops reads its `CONBLK_AD`.

Behind the activation this is the program beside the engine of `Raspdif/Dma/Live.lean`, with
the block of memory where the firmware has locked it (`board_live`).

What the process may do alone it may do on the board, up to the activation (`exists_board`), and
behind it too when each round finds the DMA in the ring (`Board.exists_follow`).
-/

namespace Raspdif.Process

open Interaction Trace

/-! ## Steps -/

structure Board where
  machine : Machine
  hardware : Hardware
  loops : Loops
  /-- The DMA channel, from its activation on. -/
  engine : Option Engine

def Board.start (rounds : Nat) (arguments : RaspdifArguments) (h : Hardware) : Board where
  machine := Machine.start rounds arguments
  hardware := h
  loops := .start h.bus
  engine := none

/-- The channel of the process is active. -/
def Hardware.Running (h : Hardware) : Prop :=
  ∃ channel, h.channel = some channel ∧ h.active channel = true

def Board.setup (arguments : RaspdifArguments) (b : Board) : Setup := arguments.setup b.loops.bus

/-- The memory that the DMA reads. -/
def Board.memory (arguments : RaspdifArguments) (b : Board) (elsewhere : BitVec 32 → BitVec 32) :
    BitVec 32 → BitVec 32 :=
  (b.setup arguments).image b.loops.main.buffers elsewhere

/-- The engine behind a call. -/
def Board.activated (arguments : RaspdifArguments) (elsewhere : BitVec 32 → BitVec 32) (b : Board) :
    EnvCall → Option Engine
  | .dma channel (.csActive true) =>
      some (Engine.load (b.memory arguments elsewhere) (b.hardware.conblkAd channel))
  | _ => b.engine

/-- The board behind a call that leaves the process like this. -/
def Board.answered (arguments : RaspdifArguments) (elsewhere : BitVec 32 → BitVec 32) (b : Board)
    (e : EnvEvent) (machine : Machine) : Board where
  machine := machine
  hardware := b.hardware.record e
  loops := b.loops.record arguments e
  engine := b.activated arguments elsewhere e.op

/-- A round reads where the engine is.  `clear` may bar it from storing some frames. -/
def Board.Agrees (arguments : RaspdifArguments) (clear : Setup → Engine → Call → Prop) (b : Board) :
    (call : EnvCall) → call.Answer → Prop
  | .outside, outside => ∀ engine, b.engine = some engine →
      outside.answers.conblkAd = engine.conblkAd ∧
        ∀ c ∈ calls (round (b.setup arguments) b.loops.main outside).2,
          clear (b.setup arguments) engine c
  | _, _ => True

inductive BoardEvent
  | process (occurrence : Occurrence)
  | dma (access : DmaAccess)

def BoardEvent.occurrence? : BoardEvent → Option Occurrence
  | .process occurrence => some occurrence
  | .dma _ => none

def BoardEvent.access? : BoardEvent → Option DmaAccess
  | .dma access => some access
  | .process _ => none

/-- What the process did. -/
def occurrences (trace : List BoardEvent) : List Occurrence :=
  trace.filterMap BoardEvent.occurrence?

/-- What the engine did. -/
def channelAccesses (trace : List BoardEvent) : List DmaAccess :=
  trace.filterMap BoardEvent.access?

/-- The words copied to the FIFO, in order. -/
def sentWords (trace : List BoardEvent) : List (BitVec 32) :=
  (copies (channelAccesses trace)).map DmaCopy.word

/-- Steps of the process, whatever signals arrive, and of the engine.  `allow` may bar the
engine from loading some control blocks. -/
inductive Board.Step (arguments : RaspdifArguments) (elsewhere : BitVec 32 → BitVec 32)
    (allow : Main → Nat → Prop) (clear : Setup → Engine → Call → Prop) :
    Board → List BoardEvent → Board → Prop
  | call {b : Board} {e : EnvEvent} {machine : Machine} :
    Machine.Step b.machine [.call e] machine → b.Agrees arguments clear e.op e.answer →
    Board.Step arguments elsewhere allow clear b [.process (.call e)]
      (b.answered arguments elsewhere e machine)
  | silent {b : Board} {events : List Occurrence} {machine : Machine} :
    Machine.Step b.machine events machine → envCalls events = [] →
    Board.Step arguments elsewhere allow clear b (events.map .process)
      { b with machine := machine }
  | copy {b : Board} {engine : Engine} (elsewhere' : BitVec 32 → BitVec 32) :
    b.engine = some engine → b.hardware.Running → 0 < engine.left →
    Board.Step arguments elsewhere allow clear b
      [.dma (.copy ⟨engine.source, engine.destination,
        b.memory arguments elsewhere' engine.source, b.loops.main.buffers⟩)]
      { b with engine := some engine.advance }
  | load {b : Board} {engine : Engine} (elsewhere' : BitVec 32 → BitVec 32) :
    b.engine = some engine → b.hardware.Running → engine.left = 0 →
    (∀ next < raspdifBufferCount, engine.next = (b.setup arguments).controlBlock next →
      allow b.loops.main next) →
    Board.Step arguments elsewhere allow clear b [.dma (.load engine.next)]
      { b with engine := some (Engine.load (b.memory arguments elsewhere') engine.next) }

section

variable {arguments : RaspdifArguments} {elsewhere : BitVec 32 → BitVec 32}
  {allow : Main → Nat → Prop} {clear : Setup → Engine → Call → Prop} {rounds : Nat} {h : Hardware}
  {b b' : Board} {trace events : List BoardEvent}

theorem occurrences_append (first second : List BoardEvent) :
    occurrences (first ++ second) = occurrences first ++ occurrences second :=
  List.filterMap_append

theorem channelAccesses_append (first second : List BoardEvent) :
    channelAccesses (first ++ second) = channelAccesses first ++ channelAccesses second :=
  List.filterMap_append

theorem occurrences_map (events : List Occurrence) :
    occurrences (events.map .process) = events := by
  induction events with
  | nil => rfl
  | cons e events ih => exact congrArg (e :: ·) ih

theorem channelAccesses_map (events : List Occurrence) :
    channelAccesses (events.map .process) = [] := by
  induction events with
  | nil => rfl
  | cons e events ih => exact ih

/-! ## The loops of the board -/

/-- The preload is left, and the DMA is to be enabled. -/
def LeavesPreload (setup : Setup) (trace : List Event) (s : Main) : Prop :=
  ∃ past mid answers copied, Run (Main.Step setup) (Main.start fun _ => .zero) past mid ∧
    mid.step setup answers = some (s, [.fread copied, .dmaEnable]) ∧
    trace = past ++ [.fread copied, .dmaEnable]

/-- The input of a round arrives. -/
theorem run_arrive (setup : Setup) (s : Main) (outside : Outside) :
    Run (Main.Step setup) s (arrivalEvents s outside) (arrive s outside) := by
  unfold arrive arrivalEvents
  split
  case isTrue => exact .nil
  case isFalse opened =>
    have opened := Bool.eq_false_iff.mpr opened
    have delivered := Run.single (Main.Step.deliver outside.bytes opened : Main.Step setup _ _ _)
    cases closed : outside.closed with
    | true => exact delivered.snoc .close
    | false =>
        rw [if_neg Bool.false_ne_true, ← opened]
        exact delivered

/-- A step of the program beside an engine, which stores no other frames than these. -/
def GuardedStep (setup : Setup) (allow : Main → Nat → Prop) (clear : Engine → Call → Prop)
    (live : Live) (events : List LiveEvent) (live' : Live) : Prop :=
  Live.Step setup allow live events live' ∧
    ∀ c ∈ calls (programEvents events), clear live.engine c

theorem live_arrive (setup : Setup) (allow : Main → Nat → Prop) (clear : Engine → Call → Prop)
    (s : Main) (engine : Engine) (outside : Outside) :
    Run (GuardedStep setup allow clear) ⟨s, engine⟩ ((arrivalEvents s outside).map .program)
      ⟨arrive s outside, engine⟩ := by
  have silent {e : LiveEvent} (none : calls (programEvents [e]) = []) :
      ∀ c ∈ calls (programEvents [e]), clear engine c := by
    rw [none]
    exact List.forall_mem_nil _
  unfold arrive arrivalEvents
  split
  case isTrue => exact .nil
  case isFalse opened =>
    have opened := Bool.eq_false_iff.mpr opened
    have delivered : Run (GuardedStep setup allow clear) ⟨s, engine⟩ _ _ :=
      .single ⟨Live.Step.deliver outside.bytes opened, silent rfl⟩
    cases closed : outside.closed with
    | true => exact delivered.snoc ⟨.close, silent rfl⟩
    | false =>
        rw [if_neg Bool.false_ne_true, ← opened]
        exact delivered

/-- A round of the loops beside the engine. -/
theorem live_round (l : Loops) (engine : Engine) (outside : Outside) {clear : Engine → Call → Prop}
    (here : outside.answers.conblkAd = engine.conblkAd)
    (guarded : ∀ c ∈ calls (round (arguments.setup l.bus) l.main outside).2, clear engine c) :
    Run (GuardedStep (arguments.setup l.bus) allow clear) ⟨l.main, engine⟩
      ((arrivalEvents l.main outside ++ (round (arguments.setup l.bus) l.main outside).2).map
        .program)
      ⟨(l.round arguments outside).main, engine⟩ := by
  have arrived := live_arrive (arguments.setup l.bus) allow clear l.main engine outside
  unfold Loops.round
  unfold round at guarded ⊢
  rw [List.map_append]
  cases ran : (arrive l.main outside).step (arguments.setup l.bus) outside.answers with
  | none => simpa only [ran, List.map_nil, List.append_nil] using arrived
  | some moved =>
      simp only [ran] at guarded ⊢
      refine arrived.snoc ⟨.cpu outside.answers here ran, ?_⟩
      rw [programEvents_map]
      exact guarded

/-- A round of the preload. -/
theorem run_round (l : Loops) (outside : Outside) :
    Run (Main.Step (arguments.setup l.bus)) l.main
      (arrivalEvents l.main outside ++ (round (arguments.setup l.bus) l.main outside).2)
      (l.round arguments outside).main := by
  have arrived := run_arrive (arguments.setup l.bus) l.main outside
  unfold Loops.round round
  cases ran : (arrive l.main outside).step (arguments.setup l.bus) outside.answers with
  | none => simpa only [ran, List.append_nil] using arrived
  | some moved =>
      exact arrived.snoc (.cpu outside.answers ran)

/-- Where the preload is left. -/
theorem leaves_of_round {l : Loops} {outside : Outside}
    (run : Run (Main.Step (arguments.setup l.bus)) (Main.start fun _ => .zero) l.events l.main)
    (preload : l.main.pc = .preload) (left : (l.round arguments outside).main.pc ≠ .preload) :
    LeavesPreload (arguments.setup l.bus) (l.round arguments outside).events
      (l.round arguments outside).main := by
  have arrived := run.append (run_arrive (arguments.setup l.bus) l.main outside)
  have pc : (arrive l.main outside).pc = .preload := by
    rw [Access.arrive_pc]
    exact preload
  unfold Loops.round round at left ⊢
  cases ran : (arrive l.main outside).step (arguments.setup l.bus) outside.answers with
  | none =>
      simp only [ran] at left
      exact absurd pc left
  | some moved =>
      obtain ⟨next, events⟩ := moved
      simp only [ran] at left ⊢
      cases Main.step_moves ran with
      | preloadFrame => exact absurd pc left
      | preloadDone => exact ⟨_, _, _, _, arrived, ran, (List.append_assoc _ _ _).symm⟩
      | finish pc' | readWait pc' | underrun pc' | readFrame pc' | fillRemainder _ pc'
      | fillWait _ _ pc' | fillEnter _ _ pc' | fillReturn _ _ pc' | fillBuffer _ _ pc' | poll pc' =>
          exact Pc.noConfusion (pc.symm.trans pc')

/-! ## The board follows the program beside the engine -/

/-- Before the activation: the preload, and the step that leaves it. -/
structure Approaching (setup : Setup) (l : Loops) : Prop where
  run : Run (Main.Step setup) (Main.start fun _ => .zero) l.events l.main
  left : l.main.pc ≠ .preload → LeavesPreload setup l.events l.main

/-- Behind it. -/
def Beside (setup : Setup) (elsewhere : BitVec 32 → BitVec 32) (allow : Main → Nat → Prop)
    (clear : Engine → Call → Prop) (l : Loops) (engine : Engine) (accessed : List DmaAccess) :
    Prop :=
  ∃ past start lived, LeavesPreload setup past start ∧
    Run (GuardedStep setup allow clear) (Live.start setup elsewhere start) lived
      ⟨l.main, engine⟩ ∧
    past ++ programEvents lived = l.events ∧ accesses lived = accessed

/-- How the loops and the engine stand to each other. -/
structure Alongside (arguments : RaspdifArguments) (elsewhere : BitVec 32 → BitVec 32)
    (allow : Main → Nat → Prop) (clear : Setup → Engine → Call → Prop) (l : Loops)
    (channel : Option Engine) (accessed : List DmaAccess) : Prop where
  early : l.begun = false → l.main = (Main.start fun _ => .zero) ∧ l.events = []
  idle : channel = none ↔ l.started = false
  looping : l.started = true → l.main.pc ≠ .preload
  before : channel = none → accessed = [] ∧ Approaching (arguments.setup l.bus) l
  behind : ∀ engine, channel = some engine → Beside (arguments.setup l.bus) elsewhere allow
    (clear (arguments.setup l.bus)) l engine accessed

section

variable {l : Loops} {engine : Engine} {channel : Option Engine} {accessed : List DmaAccess}

theorem Alongside.initial (bus : BitVec 32) :
    Alongside arguments elsewhere allow clear (.start bus) none [] where
  early _ := ⟨rfl, rfl⟩
  idle := ⟨fun _ => rfl, fun _ => rfl⟩
  looping started := absurd started Bool.false_ne_true
  before _ := ⟨rfl, .nil, fun loop => absurd rfl loop⟩
  behind _ impossible := nomatch impossible

/-- The block of memory is locked before the first round. -/
theorem Alongside.lock (alongside : Alongside arguments elsewhere allow clear l channel accessed)
    (first : l.begun = false) (bus : BitVec 32) :
    Alongside arguments elsewhere allow clear { l with bus := bus } channel accessed := by
  obtain ⟨main, events⟩ := alongside.early first
  have idle : l.started = false := Bool.eq_false_iff.mpr fun started => by
    have loop := alongside.looping started
    rw [main] at loop
    exact loop rfl
  have none := alongside.idle.mpr idle
  refine ⟨alongside.early, alongside.idle, alongside.looping, fun _ => ?_, ?_⟩
  · refine ⟨(alongside.before none).1, ?_, ?_⟩
    · dsimp only
      rw [main, events]
      exact .nil
    · intro loop
      dsimp only at loop
      rw [main] at loop
      exact absurd rfl loop
  · intro engine some
    exact nomatch none.symm.trans some

/-- The channel loads the first control block. -/
theorem Alongside.activate
    (alongside : Alongside arguments elsewhere allow clear l channel accessed)
    (idle : l.started = false) (left : l.main.pc ≠ .preload) :
    Alongside arguments elsewhere allow clear { l with started := true }
      (some (Live.start (arguments.setup l.bus) elsewhere l.main).engine) accessed := by
  obtain ⟨silent, approaching⟩ := alongside.before (alongside.idle.mpr idle)
  refine ⟨alongside.early, ⟨fun none => (nomatch none), fun started => (nomatch started)⟩,
    fun _ => left, fun none => (nomatch none), ?_⟩
  rintro engine ⟨rfl⟩
  exact ⟨l.events, l.main, [], approaching.left left, .nil, List.append_nil _, silent.symm⟩

theorem Alongside.round (alongside : Alongside arguments elsewhere allow clear l channel accessed)
    {outside : Outside} (begins : l.started = true ↔ l.main.pc ≠ .preload)
    (agrees : ∀ engine, channel = some engine → outside.answers.conblkAd = engine.conblkAd ∧
      ∀ c ∈ calls (round (arguments.setup l.bus) l.main outside).2,
        clear (arguments.setup l.bus) engine c) :
    Alongside arguments elsewhere allow clear (l.round arguments outside) channel accessed := by
  refine ⟨fun early => (nomatch early), alongside.idle, ?_, ?_, ?_⟩
  · intro started
    have loop := begins.mp started
    rw [← Access.arrive_pc l.main outside] at loop
    rcases round_cases (arguments.setup l.bus) l.main outside with
      ⟨-, same⟩ | ⟨s, events, moves, same⟩
    · change (Process.round _ _ _).1.pc ≠ _
      rw [same]
      exact loop
    · change (Process.round _ _ _).1.pc ≠ _
      rw [same]
      exact (moves.later loop).2
  · intro none
    obtain ⟨silent, approaching⟩ := alongside.before none
    have preload : l.main.pc = .preload := by
      by_contra loop
      exact nomatch (alongside.idle.mp none).symm.trans (begins.mpr loop)
    exact ⟨silent, approaching.run.append (run_round l outside),
      leaves_of_round approaching.run preload⟩
  · intro engine some
    obtain ⟨here, guarded⟩ := agrees engine some
    obtain ⟨past, start, lived, leaves, run, events, accesses_eq⟩ := alongside.behind engine some
    refine ⟨past, start, _, leaves, run.append (live_round l engine outside here guarded), ?_, ?_⟩
    · rw [programEvents_append, programEvents_map, ← List.append_assoc, events]
      rfl
    · rw [accesses_append, accesses_map_program, List.append_nil, accesses_eq]

theorem Alongside.copy
    (alongside : Alongside arguments elsewhere allow clear l (some engine) accessed)
    (elsewhere' : BitVec 32 → BitVec 32) (more : 0 < engine.left) :
    Alongside arguments elsewhere allow clear l (some engine.advance)
      (accessed ++ [.copy ⟨engine.source, engine.destination,
        (arguments.setup l.bus).image l.main.buffers elsewhere' engine.source,
        l.main.buffers⟩]) := by
  have started : l.started ≠ false := fun idle => nomatch alongside.idle.mpr idle
  refine ⟨alongside.early, ⟨fun none => (nomatch none), fun idle => absurd idle started⟩,
    alongside.looping, fun none => (nomatch none), ?_⟩
  rintro _ ⟨rfl⟩
  obtain ⟨past, start, lived, leaves, run, events, accesses_eq⟩ := alongside.behind engine rfl
  refine ⟨past, start, _, leaves, run.snoc ⟨.copy elsewhere' more, List.forall_mem_nil _⟩, ?_, ?_⟩
  · rw [programEvents_append, ← List.append_assoc, events]
    exact List.append_nil _
  · rw [accesses_append, accesses_eq]
    rfl

theorem Alongside.load
    (alongside : Alongside arguments elsewhere allow clear l (some engine) accessed)
    (elsewhere' : BitVec 32 → BitVec 32) (done : engine.left = 0)
    (allowed : ∀ next < raspdifBufferCount,
      engine.next = (arguments.setup l.bus).controlBlock next → allow l.main next) :
    Alongside arguments elsewhere allow clear l
      (some (Engine.load ((arguments.setup l.bus).image l.main.buffers elsewhere') engine.next))
      (accessed ++ [.load engine.next]) := by
  have started : l.started ≠ false := fun idle => nomatch alongside.idle.mpr idle
  refine ⟨alongside.early, ⟨fun none => (nomatch none), fun idle => absurd idle started⟩,
    alongside.looping, fun none => (nomatch none), ?_⟩
  rintro _ ⟨rfl⟩
  obtain ⟨past, start, lived, leaves, run, events, accesses_eq⟩ := alongside.behind engine rfl
  refine ⟨past, start, _, leaves,
    run.snoc ⟨.load elsewhere' done allowed, List.forall_mem_nil _⟩, ?_, ?_⟩
  · rw [programEvents_append, ← List.append_assoc, events]
    exact List.append_nil _
  · rw [accesses_append, accesses_eq]
    rfl

end

/-! ## The activation -/

theorem started_record (l : Loops) (e : EnvEvent) :
    (l.record arguments e).started = (l.started || starts e.op) := by
  rcases e with ⟨own, answer⟩
  change (l.answered arguments own answer).started = (l.started || starts own)
  cases own with
  | dma channel store =>
      cases store with
      | csActive enable =>
          cases enable with
          | true => exact (Bool.or_true _).symm
          | false => exact (Bool.or_false _).symm
      | _ => exact (Bool.or_false _).symm
  | ioctl message =>
      cases message with
      | lockMemory handle =>
          change (ite _ _ _ : Loops).started = (l.started || false)
          rw [Bool.or_false]
          split <;> rfl
      | _ => exact (Bool.or_false _).symm
  | _ => exact (Bool.or_false _).symm

/-- It comes once at most. -/
theorem countP_starts {bus : BitVec 32} {calls : List EnvEvent}
    (allowed : (loopMonitor arguments).AllowsEach (.start bus) calls) :
    calls.countP (fun e => starts e.op) =
      ((loopMonitor arguments).after (.start bus) calls).started.toNat := by
  induction calls using List.reverseRecOn with
  | nil => rfl
  | append_singleton calls e ih =>
      obtain ⟨before, here⟩ := atEach_append.mp allowed
      have next : (loopMonitor arguments).after (.start bus) (calls ++ [e]) =
          ((loopMonitor arguments).after (.start bus) calls).record arguments e :=
        List.foldl_append
      rw [List.countP_append, ih before, next, started_record, List.countP_singleton]
      cases kind : starts e.op with
      | false => rw [Bool.or_false, if_neg Bool.false_ne_true, Nat.add_zero]
      | true =>
          have first : ((loopMonitor arguments).after (.start bus) calls).started = false := by
            have one := here.1
            dsimp only at one
            rw [List.append_nil] at one
            unfold starts at kind
            split at kind
            case h_2 => cases kind
            case h_1 same =>
              rw [same] at one
              exact one.1
          rw [first]
          rfl

/-! ## Runs of the board -/

/-- A run of the board is one of the process. -/
structure Board.Traced (arguments : RaspdifArguments) (rounds : Nat) (h : Hardware)
    (trace : List BoardEvent) (b : Board) : Prop where
  machine : Run Machine.Step (Machine.start rounds arguments) (occurrences trace) b.machine
  hardware : b.hardware = h.after (envCalls (occurrences trace))
  loops : b.loops =
    (loopMonitor arguments).after (.start h.bus) (envCalls (occurrences trace))

/-- Both have heard of the lock. -/
theorem bus_record {l : Loops} (same : h.bus = l.bus) (e : EnvEvent) :
    (h.record e).bus = (l.record arguments e).bus := by
  obtain ⟨own, answer⟩ := e
  cases own with
  | ioctl message =>
      cases message with
      | lockMemory handle =>
          change (if MailboxReply.Granted answer then { h with bus := answer.value } else h).bus =
            (if MailboxReply.Granted answer then { l with bus := answer.value } else l).bus
          split
          · rfl
          · exact same
      | allocateMemory | unlockMemory | releaseMemory => exact same
  | dma channel store =>
      cases store with
      | csActive enable => cases enable <;> exact same
      | _ => exact same
  | mmap | writeClockControl | writeClockDivisor =>
      change (ite _ _ _ : Hardware).bus = l.bus
      split <;> exact same
  | _ => exact same

theorem bus_foldl {l : Loops} (same : h.bus = l.bus) (calls : List EnvEvent) :
    (calls.foldl Hardware.record h).bus = (calls.foldl (Loops.record arguments) l).bus := by
  induction calls generalizing h l with
  | nil => exact same
  | cons e calls ih => exact ih (bus_record same e)

theorem Board.Traced.bus (traced : b.Traced arguments rounds h trace) :
    b.hardware.bus = b.loops.bus := by
  rw [traced.hardware, traced.loops]
  exact bus_foldl rfl _

theorem started_foldl {l : Loops} (same : h.started = l.started) (calls : List EnvEvent) :
    (calls.foldl Hardware.record h).started =
      (calls.foldl (Loops.record arguments) l).started := by
  induction calls generalizing h l with
  | nil => exact same
  | cons e calls ih =>
      refine ih ?_
      rw [h.started_record, started_record, same]

theorem Board.Traced.started (traced : b.Traced arguments rounds h trace)
    (idle : h.started = false) : b.hardware.started = b.loops.started := by
  rw [traced.hardware, traced.loops]
  exact started_foldl idle _

theorem Board.Traced.call (traced : b.Traced arguments rounds h trace) {e : EnvEvent}
    {machine : Machine} (one : Machine.Step b.machine [.call e] machine) :
    (b.answered arguments elsewhere e machine).Traced arguments rounds h
      (trace ++ [.process (.call e)]) := by
  have calls : envCalls (occurrences (trace ++ [.process (.call e)])) =
      envCalls (occurrences trace) ++ [e] := by
    rw [occurrences_append, envCalls_append]
    rfl
  refine ⟨?_, ?_, ?_⟩
  · rw [occurrences_append]
    exact traced.machine.snoc one
  · rw [calls, Hardware.after, List.foldl_append]
    exact congrArg (Hardware.record · e) traced.hardware
  · rw [calls, Monitor.after, List.foldl_append]
    exact congrArg (Loops.record arguments · e) traced.loops

theorem Board.Traced.silent (traced : b.Traced arguments rounds h trace)
    {events : List Occurrence} {machine : Machine} (one : Machine.Step b.machine events machine)
    (none : envCalls events = []) :
    Board.Traced arguments rounds h (trace ++ events.map .process)
      { b with machine := machine } := by
  have calls : envCalls (occurrences (trace ++ events.map .process)) =
      envCalls (occurrences trace) := by
    rw [occurrences_append, envCalls_append, occurrences_map, none, List.append_nil]
  refine ⟨?_, ?_, ?_⟩
  · rw [occurrences_append, occurrences_map]
    exact traced.machine.snoc one
  · rw [calls]
    exact traced.hardware
  · rw [calls]
    exact traced.loops

theorem Board.Traced.dma (traced : b.Traced arguments rounds h trace) (access : DmaAccess)
    (engine : Engine) :
    Board.Traced arguments rounds h (trace ++ [.dma access]) { b with engine := some engine } := by
  have same : occurrences (trace ++ [.dma access]) = occurrences trace := by
    rw [occurrences_append]
    exact List.append_nil _
  refine ⟨?_, ?_, ?_⟩
  · rw [same]
    exact traced.machine
  · rw [same]
    exact traced.hardware
  · rw [same]
    exact traced.loops

/-- What is known of the next call. -/
theorem Board.Traced.allowed (traced : b.Traced arguments rounds h trace)
    (idle : h.started = false) {e : EnvEvent} {machine : Machine}
    (one : Machine.Step b.machine [.call e] machine) :
    b.hardware.Allows arguments e.op ∧ b.loops.Allows e.op := by
  have run := traced.machine.snoc one
  have calls : envCalls (occurrences trace ++ [.call e]) =
      envCalls (occurrences trace) ++ [e] := envCalls_append _ _
  have accesses := (Regime.Kept.of_run Access.handles_accessRegime
    (Access.meets_mainRegistered idle) run).accesses.1
  have belongs := callsAllowed run h.bus
  rw [calls] at accesses belongs
  have first := (atEach_append.mp accesses).2.1
  have second := (atEach_append.mp belongs).2.1
  dsimp only at first second
  rw [List.append_nil] at first second
  rw [traced.hardware, traced.loops]
  exact ⟨first, second⟩

/-- The channel is to load the first control block. -/
theorem Board.Traced.first_block (traced : b.Traced arguments rounds h trace) {channel : Nat}
    (ready : b.hardware.Ready arguments channel) :
    b.hardware.conblkAd channel = (b.setup arguments).controlBlock 0 := by
  rw [ready.conblkAd, traced.bus]
  exact (BitVec.add_zero _).symm

theorem Board.Traced.alongside_call (traced : b.Traced arguments rounds h trace)
    (idle : h.started = false) {accessed : List DmaAccess}
    (alongside : Alongside arguments elsewhere allow clear b.loops b.engine accessed)
    {e : EnvEvent} {machine : Machine} (one : Machine.Step b.machine [.call e] machine)
    (agrees : b.Agrees arguments clear e.op e.answer) :
    Alongside arguments elsewhere allow clear (b.loops.record arguments e)
      (b.activated arguments elsewhere e.op) accessed := by
  obtain ⟨allowed, belongs⟩ := traced.allowed idle one
  obtain ⟨own, answer⟩ := e
  cases own with
  | outside => exact alongside.round belongs agrees
  | ioctl message =>
      cases message with
      | lockMemory handle =>
          change Alongside arguments elsewhere allow clear
            (if MailboxReply.Granted answer then { b.loops with bus := answer.value } else b.loops)
            b.engine accessed
          split
          · exact alongside.lock belongs _
          · exact alongside
      | allocateMemory | unlockMemory | releaseMemory => exact alongside
  | dma channel store =>
      cases store with
      | csActive enable =>
          cases enable with
          | true =>
              have started := alongside.activate belongs.1 belongs.2
              change Alongside arguments elsewhere allow clear { b.loops with started := true }
                (some (Engine.load (b.memory arguments elsewhere) (b.hardware.conblkAd channel)))
                accessed
              rw [traced.first_block allowed.2]
              exact started
          | false => exact alongside
      | _ => exact alongside
  | _ => exact alongside

theorem Board.follows_of_run (idle : h.started = false)
    (run : Run (Board.Step arguments elsewhere allow clear) (Board.start rounds arguments h) trace
      b) :
    b.Traced arguments rounds h trace ∧
      Alongside arguments elsewhere allow clear b.loops b.engine (channelAccesses trace) := by
  refine run.invariant (fun past b => b.Traced arguments rounds h past ∧
    Alongside arguments elsewhere allow clear b.loops b.engine (channelAccesses past))
    ⟨⟨.nil, rfl, rfl⟩, .initial h.bus⟩ ?_
  rintro past events b b' ⟨traced, alongside⟩ one
  rw [channelAccesses_append]
  cases one with
  | call one agrees =>
      refine ⟨traced.call one, ?_⟩
      have same := traced.alongside_call idle alongside one agrees
      rwa [← List.append_nil (channelAccesses past)] at same
  | silent one none =>
      refine ⟨traced.silent one none, ?_⟩
      rwa [channelAccesses_map, List.append_nil]
  | copy elsewhere' engine running more =>
      refine ⟨traced.dma _ _, ?_⟩
      rw [engine] at alongside
      exact alongside.copy elsewhere' more
  | load elsewhere' engine running done allowed =>
      refine ⟨traced.dma _ _, ?_⟩
      rw [engine] at alongside
      exact alongside.load elsewhere' done allowed

/-- **The process drives the engine.**  Whatever the registers held, whenever signals arrive and
whatever else the environment answers: a DMA channel is activated once at most; until then nothing
is copied and `main` is in its preload, or has just left it; and from then on the board is the
program beside the engine, begun where the preload was left, with the same frames stored, the
same buffers and the same words copied. -/
theorem board_live (idle : h.started = false)
    (run : Run (Board.Step arguments elsewhere allow clear) (Board.start rounds arguments h) trace
      b) :
    (envCalls (occurrences trace)).countP (fun e => starts e.op) = b.engine.isSome.toNat ∧
      (b.engine = none → channelAccesses trace = [] ∧
        Run (Main.Step (b.setup arguments)) (Main.start fun _ => .zero) b.loops.events
          b.loops.main ∧
        (b.loops.main.pc ≠ .preload →
          LeavesPreload (b.setup arguments) b.loops.events b.loops.main)) ∧
      ∀ engine, b.engine = some engine → ∃ past start lived,
        LeavesPreload (b.setup arguments) past start ∧
          Run (GuardedStep (b.setup arguments) allow (clear (b.setup arguments)))
            (Live.start (b.setup arguments) elsewhere start) lived ⟨b.loops.main, engine⟩ ∧
          past ++ programEvents lived = b.loops.events ∧
          accesses lived = channelAccesses trace := by
  obtain ⟨traced, alongside⟩ := Board.follows_of_run idle run
  refine ⟨?_, ?_, ?_⟩
  · rw [countP_starts (callsAllowed traced.machine h.bus), ← traced.loops]
    cases channel : b.engine with
    | none =>
        rw [alongside.idle.mp channel]
        rfl
    | some engine =>
        have started : b.loops.started = true := by
          by_contra idle
          exact nomatch (alongside.idle.mpr (Bool.eq_false_iff.mpr idle)).symm.trans channel
        rw [started]
        rfl
  · intro none
    obtain ⟨silent, approaching⟩ := alongside.before none
    exact ⟨silent, approaching.run, approaching.left⟩
  · intro engine some
    exact alongside.behind engine some

/-! ## A board that sends -/

theorem Machine.Step.call_or_silent {m m' : Machine} {events : List Occurrence}
    (one : Machine.Step m events m') : (∃ e, events = [.call e]) ∨ envCalls events = [] := by
  cases one with
  | run one =>
      cases one with
      | read => exact Or.inr rfl
      | write => exact Or.inr rfl
      | call op next answer => exact Or.inl ⟨⟨op, answer⟩, rfl⟩
  | signal | abort | killed | handlerReturn | mainReturn | exit => exact Or.inr rfl

/-- Up to the activation the process may do on the board what it does alone. -/
theorem exists_board {past : List Occurrence} {m : Machine}
    (run : Run Machine.Step (Machine.start rounds arguments) past m)
    (idle : ∀ e ∈ envCalls past, starts e.op = false) :
    ∃ b, Run (Board.Step arguments elsewhere allow clear) (Board.start rounds arguments h)
      (past.map .process) b ∧ b.machine = m ∧ b.engine = none := by
  induction run with
  | nil => exact ⟨_, .nil, rfl, rfl⟩
  | snoc _ one ih =>
      rw [envCalls_append, List.forall_mem_append] at idle
      obtain ⟨b, run, rfl, none⟩ := ih idle.1
      rw [List.map_append]
      rcases one.call_or_silent with ⟨e, rfl⟩ | silent
      · have away : starts e.op = false := idle.2 e (List.mem_singleton_self e)
        refine ⟨_, run.snoc (.call one ?_), rfl, ?_⟩
        · unfold Board.Agrees
          split
          · intro engine some
            exact nomatch none.symm.trans some
          · trivial
        · change b.activated arguments elsewhere e.op = .none
          unfold Board.activated
          split
          case h_1 same =>
            rw [same] at away
            cases away
          case h_2 => exact none
      · exact ⟨_, run.snoc (.silent one silent), rfl, none⟩

/-- Then the channel may be activated and copy a subframe. -/
theorem exists_first_subframe (idle : h.started = false) {past : List Occurrence} {m m' : Machine}
    {channel : Nat} (earlier : Run Machine.Step (Machine.start rounds arguments) past m)
    (early : ∀ e ∈ envCalls past, starts e.op = false)
    (one : Machine.Step m [.call ⟨.dma channel (.csActive true), ()⟩] m') :
    ∃ trace b, Run (Board.Step arguments elsewhere allow clear) (Board.start rounds arguments h)
        trace b ∧ b.machine = m' ∧ b.engine.isSome = true ∧
      occurrences trace = past ++ [.call ⟨.dma channel (.csActive true), ()⟩] ∧
      (sentWords trace).length = 2 := by
  obtain ⟨b, run, rfl, -⟩ : ∃ b, Run (Board.Step arguments elsewhere allow clear)
      (Board.start rounds arguments h) (past.map .process) b ∧ b.machine = m ∧
        b.engine = .none := exists_board earlier early
  obtain ⟨traced, -⟩ := Board.follows_of_run idle run
  have allowed := (traced.allowed idle one).1
  have active : (b.answered arguments elsewhere ⟨.dma channel (.csActive true), ()⟩
      m').hardware.Running := by
    refine ⟨channel, allowed.1, ?_⟩
    change Function.update b.hardware.active channel true channel = true
    exact Function.update_self _ _ _
  have here : (Engine.load (b.memory arguments elsewhere) (b.hardware.conblkAd channel)).At
      (b.setup arguments) 0 0 := by
    rw [traced.first_block allowed.2]
    exact Engine.at_load _ _ (Nat.zero_lt_succ _)
  have first := Nat.lt_of_lt_of_eq (show 0 < 4 * (bufferWords - 0) by decide) here.left.symm
  have second := Nat.lt_of_lt_of_eq (show 0 < 4 * (bufferWords - 1) by decide)
    (here.advance first).left.symm
  have sent := ((run.snoc (.call one trivial)).snoc (.copy (fun _ => 0) rfl active first)).snoc
    (.copy (fun _ => 0) rfl active second)
  refine ⟨_, _, sent, rfl, rfl, ?_, ?_⟩
  · rw [occurrences_append, occurrences_append, occurrences_append, occurrences_map]
    exact (List.append_nil _).trans (List.append_nil _)
  · rw [sentWords, channelAccesses_append, channelAccesses_append, channelAccesses_append,
      channelAccesses_map]
    rfl

/-- The engine is in some block. -/
theorem Board.exists_at (idle : h.started = false)
    (run : Run (Board.Step arguments elsewhere allow clear) (Board.start rounds arguments h) trace
      b) {engine : Engine} (on : b.engine = some engine) :
    ∃ i offset, engine.At (b.setup arguments) i offset := by
  obtain ⟨-, alongside⟩ := Board.follows_of_run idle run
  obtain ⟨past, start, lived, -, guarded, -⟩ := alongside.behind engine on
  obtain ⟨trace', sys, -, mirrors⟩ := Live.exists_system (guarded.mono And.left)
  rcases mirrors.place with ⟨offset, here, -⟩
  exact ⟨_, offset, here⟩

/-- It may copy what is left of it. -/
theorem Board.exists_copied {engine : Engine} {i offset : Nat} (running : b.hardware.Running)
    (here : engine.At (b.setup arguments) i offset) :
    ∃ events engine', Run (Board.Step arguments elsewhere allow clear)
        { b with engine := some engine } events { b with engine := some engine' } ∧
      engine'.At (b.setup arguments) i bufferWords ∧ occurrences events = [] := by
  have none : occurrences [] = [] := rfl
  exact here.exists_rest (fun engine => { b with engine := some engine })
    (fun past _ => occurrences past = []) none fun {past engine} silent more => by
      have one : Board.Step arguments elsewhere allow clear { b with engine := some engine } _ _ :=
        .copy (fun _ => 0) rfl running more
      refine ⟨_, one, ?_⟩
      rw [occurrences_append, silent]
      rfl

/-- And go on to other blocks. -/
theorem Board.exists_turn {engine : Engine} {i offset : Nat} (running : b.hardware.Running)
    (here : engine.At (b.setup arguments) i offset) (turns : Nat) :
    ∃ events engine' offset', Run (Board.Step arguments elsewhere (fun _ _ => True) clear)
        { b with engine := some engine } events { b with engine := some engine' } ∧
      engine'.At (b.setup arguments) ((i + turns) % raspdifBufferCount) offset' ∧
      occurrences events = [] := by
  induction turns with
  | zero =>
      rw [Nat.add_zero, Nat.mod_eq_of_lt here.inRing]
      exact ⟨[], engine, offset, .nil, here, rfl⟩
  | succ turns ih =>
      obtain ⟨events, last, offset', run, there, silent⟩ := ih
      obtain ⟨rest, last, copied, full, silent'⟩ : ∃ rest e, Run
          (Board.Step arguments elsewhere (fun _ _ => True) clear) { b with engine := some last }
            rest { b with engine := some e } ∧ e.At (b.setup arguments) _ bufferWords ∧
          occurrences rest = [] := Board.exists_copied running there
      have load : Board.Step arguments elsewhere (fun _ _ => True) clear
          { b with engine := some last } _ _ :=
        .load (fun _ => 0) rfl running (full.left_eq_zero.mpr rfl) fun _ _ _ => trivial
      rw [full.next, Nat.mod_add_mod] at load
      refine ⟨_, _, 0, (run.append copied).snoc load, ?_, ?_⟩
      · exact Engine.at_load _ _ (Nat.mod_lt _ (Nat.zero_lt_succ _))
      · rw [occurrences_append, occurrences_append, silent, silent']
        rfl

theorem Board.agrees_of_aside {call : EnvCall} (aside : Rounds.Aside call = true)
    (answer : call.Answer) : b.Agrees arguments clear call answer := by
  cases call with
  | outside => cases aside
  | _ => trivial

theorem Board.activated_of_aside {call : EnvCall} (aside : Rounds.Aside call = true) :
    b.activated arguments elsewhere call = b.engine := by
  unfold Board.activated
  split
  case h_1 => cases aside
  case h_2 => rfl

/-- The board gets from `b` to `b'`, with nothing barred, while the process does this. -/
structure Board.Does (arguments : RaspdifArguments) (elsewhere : BitVec 32 → BitVec 32)
    (b : Board) (done : List Occurrence) (b' : Board) : Prop where
  run : ∃ events, Run (Board.Step arguments elsewhere (fun _ _ => True) fun _ _ _ => True) b
    events b' ∧ occurrences events = done
  on : b'.engine.isSome = true
  setup : b'.setup arguments = b.setup arguments

theorem Board.Does.append {b'' : Board} {first later : List Occurrence}
    (does : b.Does arguments elsewhere first b') (next : b'.Does arguments elsewhere later b'') :
    b.Does arguments elsewhere (first ++ later) b'' where
  run := by
    rcases does.run with ⟨events, run, made⟩
    rcases next.run with ⟨events', run', made'⟩
    exact ⟨_, run.append run', by rw [occurrences_append, made, made']⟩
  on := next.on
  setup := next.setup.trans does.setup

theorem Board.does_aside (on : b.engine.isSome = true) {e : EnvEvent} {machine : Machine}
    (one : Machine.Step b.machine [.call e] machine) (aside : Rounds.Aside e.op = true) :
    b.Does arguments elsewhere [.call e] (b.answered arguments elsewhere e machine) where
  run := ⟨_, .single (.call one (Board.agrees_of_aside aside e.answer)), rfl⟩
  on := (congrArg Option.isSome (Board.activated_of_aside aside)).trans on
  setup := congrArg (fun l : Loops => arguments.setup l.bus)
    (Rounds.aside_answered aside arguments b.loops e.answer)

/-- Behind the activation the board may make a call of the process, when the engine has got to
where a round finds it. -/
theorem Board.exists_call (idle : h.started = false)
    (reached : Run (Board.Step arguments elsewhere (fun _ _ => True) fun _ _ _ => True)
      (Board.start rounds arguments h) trace b) (on : b.engine.isSome = true)
    {e : EnvEvent} {machine : Machine} (one : Machine.Step b.machine [.call e] machine)
    (kind : Rounds.Aside e.op = true ∨ Located (b.setup arguments) e) :
    ∃ b', b.Does arguments elsewhere [.call e] b' ∧ b'.machine = machine := by
  obtain ⟨traced, alongside⟩ := Board.follows_of_run idle reached
  rcases kind with aside | located
  · exact ⟨_, Board.does_aside on one aside, rfl⟩
  cases located with
  | poll => exact ⟨_, Board.does_aside on one rfl, rfl⟩
  | @round outside i inRing reads =>
      obtain ⟨engine, here⟩ := Option.isSome_iff_exists.mp on
      have started : b.hardware.started = true := by
        rw [traced.started idle]
        by_contra none
        exact nomatch here.symm.trans (alongside.idle.mpr (Bool.eq_false_iff.mpr none))
      obtain ⟨channel, same, fed, -⟩ := (traced.allowed idle one).1 started
      have running : b.hardware.Running := ⟨channel, same, fed.active⟩
      obtain ⟨j, offset, place⟩ := Board.exists_at idle reached here
      obtain ⟨events, engine', offset', turned, there, silent⟩ : ∃ events engine' offset',
          Run (Board.Step arguments elsewhere (fun _ _ => True) fun _ _ _ => True)
            { b with engine := some engine } events { b with engine := some engine' } ∧
            engine'.At (b.setup arguments) ((j + (i + raspdifBufferCount - j)) %
              raspdifBufferCount) offset' ∧ occurrences events = [] :=
        Board.exists_turn running place _
      have found : (j + (i + raspdifBufferCount - j)) % raspdifBufferCount = i := by
        have inRing' := place.inRing
        rw [Nat.add_sub_cancel' (by omega), Nat.add_mod_right, Nat.mod_eq_of_lt inRing]
      rw [found] at there
      rw [← here] at turned
      have agrees : Board.Agrees arguments (fun _ _ _ => True) { b with engine := some engine' }
          .outside outside := by
        rintro _ ⟨rfl⟩
        exact ⟨reads.trans there.conblkAd.symm, fun _ _ => trivial⟩
      refine ⟨_, ⟨⟨_, turned.snoc (.call one agrees), ?_⟩, rfl, rfl⟩, rfl⟩
      rw [occurrences_append, silent]
      rfl

/-- And so whatever the process does. -/
theorem Board.exists_follow (idle : h.started = false)
    (reached : Run (Board.Step arguments elsewhere (fun _ _ => True) fun _ _ _ => True)
      (Board.start rounds arguments h) trace b) (on : b.engine.isSome = true)
    {more : List Occurrence} {m : Machine} (run : Run Machine.Step b.machine more m)
    (kinds : ∀ e ∈ envCalls more, Rounds.Aside e.op = true ∨ Located (b.setup arguments) e) :
    ∃ b', b.Does arguments elsewhere more b' ∧ b'.machine = m := by
  induction run with
  | nil => exact ⟨b, ⟨⟨[], .nil, rfl⟩, on, rfl⟩, rfl⟩
  | snoc _ one ih =>
      rw [envCalls_append, List.forall_mem_append] at kinds
      obtain ⟨b', does, rfl⟩ := ih kinds.1
      rcases one.call_or_silent with ⟨e, rfl⟩ | silent
      · have kind := kinds.2 e (List.mem_singleton_self e)
        rw [← does.setup] at kind
        rcases does.run with ⟨events, followed, -⟩
        obtain ⟨b'', next, same⟩ :=
          Board.exists_call idle (reached.append followed) does.on one kind
        exact ⟨b'', does.append next, same⟩
      · refine ⟨_, does.append ⟨⟨_, .single (.silent one silent), occurrences_map _⟩, ?_, ?_⟩, rfl⟩
        · exact does.on
        · rfl

theorem sentWords_append (first second : List BoardEvent) :
    sentWords (first ++ second) = sentWords first ++ sentWords second := by
  rw [sentWords, channelAccesses_append, copies_append, List.map_append]
  rfl

/-- The loops lock nothing. -/
theorem bus_foldl_located {setup : Setup} {l : Loops} {calls : List EnvEvent}
    (located : ∀ e ∈ calls, Located setup e) :
    (calls.foldl (Loops.record arguments) l).bus = l.bus := by
  induction calls generalizing l with
  | nil => rfl
  | cons e calls ih =>
      rw [List.foldl_cons, ih fun e member => located e (List.mem_cons_of_mem _ member)]
      cases located e List.mem_cons_self with
      | round | poll => rfl

end

theorem bus_opened : (opened.1.foldl (Loops.record .default) (.start 0)).bus = 0xC4000000 := by
  decide +kernel

theorem starts_opened : ∀ e ∈ opened.1, starts e.op = false := by decide +kernel

theorem aside_transmitting : ∀ e ∈ transmitting, Rounds.Aside e.op = true := by decide +kernel

theorem aside_handling : ∀ e ∈ handling.1, Rounds.Aside e.op = true := by decide +kernel

/-- The process with an underrun and a signal on the board, up to its end. -/
theorem board_live_interrupted : ∃ rounds trace b engine past start lived,
    Run (Board.Step .default (fun _ => 0) (fun _ _ => True) fun _ _ _ => True)
        (Board.start rounds .default .clear) trace b ∧
      ⟨.poll, ()⟩ ∈ envCalls (occurrences trace) ∧
      .signal .term startup.2.state.memory ∈ occurrences trace ∧ .ended ∈ occurrences trace ∧
      (envCalls (occurrences trace)).countP (fun e => starts e.op) = 1 ∧
      b.engine = some engine ∧ 2 ≤ (sentWords trace).length ∧
      LeavesPreload (b.setup .default) past start ∧
      Run (GuardedStep (b.setup .default) (fun _ _ => True) fun _ _ => True)
        (Live.start (b.setup .default) (fun _ => 0) start) lived ⟨b.loops.main, engine⟩ ∧
      past ++ programEvents lived = b.loops.events ∧ accesses lived = channelAccesses trace := by
  obtain ⟨rounds, before, later, last, whole, located, located'⟩ := exists_interrupted
  obtain ⟨m, m', earlier, one, ended⟩ := whole.exists_step alone_call
  have early : ∀ e ∈ envCalls ((opened.1 ++ before).map .call), starts e.op = false := by
    rw [envCalls_map_call, List.forall_mem_append]
    refine ⟨starts_opened, fun e member => ?_⟩
    cases located e member with
    | round | poll => rfl
  obtain ⟨trace, b, run, rfl, on, made, two⟩ : ∃ trace b, Run
      (Board.Step .default (fun _ => 0) (fun _ _ => True) fun _ _ _ => True)
      (Board.start rounds .default .clear) trace b ∧ b.machine = m' ∧ b.engine.isSome = true ∧
      occurrences trace = (opened.1 ++ before).map .call ++ [.call activation] ∧
      (sentWords trace).length = 2 := exists_first_subframe rfl earlier early one
  have place : b.setup .default = grantingSetup := by
    have loops := (Board.follows_of_run rfl run).1.loops
    rw [made, envCalls_append, envCalls_map_call, Monitor.after, List.foldl_append,
      List.foldl_append] at loops
    have bus := congrArg Loops.bus loops
    exact congrArg (RaspdifArguments.setup .default)
      (bus.trans ((bus_foldl_located located).trans bus_opened))
  have kinds : ∀ e ∈ envCalls (underrunRest later),
      Rounds.Aside e.op = true ∨ Located (b.setup .default) e := by
    rw [place, envCalls_underrunRest, List.forall_mem_append, List.forall_mem_append,
      List.forall_mem_cons]
    refine ⟨⟨?_, ?_⟩, Or.inr .poll, ?_⟩
    · exact fun e member => Or.inl (aside_transmitting e member)
    · exact fun e member => Or.inr (located' e member)
    · exact fun e member => Or.inl (aside_handling e member)
  obtain ⟨b', does, -⟩ := Board.exists_follow rfl run on ended kinds
  rcases does.run with ⟨events, followed, rest⟩
  obtain ⟨engine, here⟩ := Option.isSome_iff_exists.mp does.on
  have all : occurrences (trace ++ events) = underrunTrace before later := by
    rw [occurrences_append, made, rest, List.append_assoc]
    rfl
  have played := run.append followed
  obtain ⟨once, -, behind⟩ := board_live rfl played
  obtain ⟨past, start, lived, leaves, ran, stored, accessed⟩ := behind engine here
  rw [here] at once
  refine ⟨rounds, _, b', engine, past, start, lived, played, ?_, ?_, ?_, once, here, ?_, leaves,
    ran, stored, accessed⟩
  · rw [all, envCalls_underrunTrace]
    exact List.mem_append_right _ (List.mem_cons_of_mem _
      (List.mem_append_right _ List.mem_cons_self))
  · rw [all]
    exact signal_mem_underrunTrace before later
  · rw [all]
    exact ended_mem_underrunTrace before later
  · rw [sentWords_append, List.length_append, two]
    exact Nat.le_add_right 2 _

end Raspdif.Process
