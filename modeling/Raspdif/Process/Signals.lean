import Raspdif.Process.Release

/-!
# Shutting down on a signal

`main` from the return of `register_signal_handler` on, and the signals that interrupt it
between any two steps.  A handler runs on top of what it interrupts, may be interrupted
itself by another signal, and a failed assertion raises `SIGABRT` where it fails.

`signal_handler` never returns, so only the innermost frame counts.  It relies on what
`raspdif_init` has saved, and on nothing having been unlocked yet: `shutdown_safe` holds for
the runs in which every signal arrives in between.
-/

namespace Raspdif.Process

open Interaction Trace

/-! ## The machine -/

/-- `main`, or the handler of a signal. -/
structure Frame where
  signal : Option Signal
  rest : Prog Unit

/-- The frames, innermost first; none is left when the process has ended. -/
structure Machine where
  globals : Globals
  frames : List Frame

def Machine.start (rounds : Nat) (arguments : RaspdifArguments) : Machine where
  globals := .initial
  frames := [⟨none, mainRegistered rounds arguments⟩]

/-- A signal is masked while its own handler runs. -/
def Machine.Masked (m : Machine) (signal : Signal) : Prop :=
  ∃ frame ∈ m.frames, frame.signal = some signal

inductive Occurrence
  | call (e : EnvEvent)
  /-- With what `raspdif.memory` holds. -/
  | signal (signal : Signal) (memory : MemoryPhysical)
  /-- It raises `SIGABRT`. -/
  | assertFailed (memory : MemoryPhysical)
  /-- The process ends. -/
  | ended

def Occurrence.call? : Occurrence → Option EnvEvent
  | .call e => some e
  | _ => none

/-- What `raspdif.memory` holds when a handler is entered. -/
def Occurrence.interrupted : Occurrence → Option MemoryPhysical
  | .signal _ memory | .assertFailed memory => some memory
  | _ => none

inductive Machine.Step : Machine → List Occurrence → Machine → Prop
  | run {g g' : Globals} {signal : Option Signal} {rest rest' : Prog Unit} {below : List Frame}
    {events : List EnvEvent} : Point.Step ⟨g, rest⟩ events ⟨g', rest'⟩ →
    Machine.Step ⟨g, ⟨signal, rest⟩ :: below⟩ (events.map .call) ⟨g', ⟨signal, rest'⟩ :: below⟩
  | signal {m : Machine} (signal : Signal) : m.frames ≠ [] → ¬ m.Masked signal →
    Machine.Step m [.signal signal m.globals.memory]
      ⟨m.globals, ⟨some signal, signalHandler⟩ :: m.frames⟩
  /-- `abort` gets its signal delivered in any case. -/
  | abort {g : Globals} {signal : Option Signal} {below : List Frame} :
    Machine.Step ⟨g, ⟨signal, .fail⟩ :: below⟩ [.assertFailed g.memory]
      ⟨g, ⟨some .abrt, signalHandler⟩ :: ⟨signal, .fail⟩ :: below⟩
  /-- Or the process is killed, when the signal is masked. -/
  | killed {g : Globals} {signal : Option Signal} {below : List Frame} :
    Machine.Masked ⟨g, ⟨signal, .fail⟩ :: below⟩ .abrt →
    Machine.Step ⟨g, ⟨signal, .fail⟩ :: below⟩ [.assertFailed g.memory, .ended] ⟨g, []⟩
  | handlerReturn {g : Globals} (signal : Signal) {below : List Frame} :
    Machine.Step ⟨g, ⟨some signal, .done ()⟩ :: below⟩ [] ⟨g, below⟩
  | mainReturn {g : Globals} {below : List Frame} :
    Machine.Step ⟨g, ⟨none, .done ()⟩ :: below⟩ [.ended] ⟨g, []⟩
  | exit {g : Globals} {signal : Option Signal} {below : List Frame} :
    Machine.Step ⟨g, ⟨signal, .exit⟩ :: below⟩ [.ended] ⟨g, []⟩

/-! ## Safety -/

/-- The calls of a run, from all frames. -/
def envCalls (trace : List Occurrence) : List EnvEvent := trace.filterMap Occurrence.call?

/-- What the calls of a run have brought about. -/
def account (trace : List Occurrence) : Ledger := ledger (envCalls trace)

/-- **Shutdown is safe.** -/
structure ShutdownSafe (trace : List Occurrence) : Prop where
  /-- No assertion fails once `raspdif_shutdown` is entered. -/
  assertions : AtEach (fun before e _ => ∀ memory, e = .assertFailed memory →
    (account before).shutdown = false) trace
  /-- The DMA channels that are disabled are the one that `raspdif_init` got. -/
  channel : ∀ channel ∈ (account trace).disabled, (account trace).channel = some channel
  unlocks : ∀ handle, (account trace).unlocks.count handle ≤ 1
  releases : ∀ handle, (account trace).releases.count handle ≤ 1
  allocated : (account trace).strays = []
  freed : .ended ∈ trace → ∀ handle ∈ (account trace).granted,
    (account trace).unlocks.count handle = 1 ∧ (account trace).releases.count handle = 1

/-- Nothing fails behind the allocation, and handlers are entered only while `raspdif.memory`
holds the handle of an allocated block and no request to unlock a block has been granted. -/
structure Timely (trace : List Occurrence) : Prop where
  firmware : ∀ e ∈ envCalls trace, Promised e
  nothingFails : NothingFails (envCalls trace)
  handlers : AtEach (fun before e _ => ∀ memory, e.interrupted = some memory →
    memory.handle ∈ (account before).granted ∧ (account before).unlocks = []) trace

theorem envCalls_append (first second : List Occurrence) :
    envCalls (first ++ second) = envCalls first ++ envCalls second :=
  List.filterMap_append

theorem envCalls_map_call (events : List EnvEvent) : envCalls (events.map .call) = events := by
  induction events with
  | nil => rfl
  | cons e events ih => exact congrArg (e :: ·) ih

theorem account_append (past events : List Occurrence) :
    account (past ++ events) = (envCalls events).foldl Ledger.after (account past) := by
  rw [account, envCalls_append, ledger, List.foldl_append]
  rfl

section

variable {past events : List Occurrence} {m m' : Machine}

theorem Timely.before (timely : Timely (past ++ events)) : Timely past where
  firmware e member := timely.firmware e (by
    rw [envCalls_append]
    exact List.mem_append_left _ member)
  nothingFails := by
    have nothingFails := timely.nothingFails
    rw [envCalls_append] at nothingFails
    exact (atEach_append.mp nothingFails).1
  handlers := (atEach_append.mp timely.handlers).1

theorem Timely.ok (timely : Timely past) : (account past).failed = false :=
  (failed_ledger _).mpr timely.nothingFails

/-! ## The innermost frame -/

/-- Where the program of a frame returns: a handler never does. -/
def Frame.Returned (frame : Frame) (value : Unit) (l : Ledger) (g : Globals) : Prop :=
  frame.signal = none ∧ Process.Returned value l g

/-- The invariant of the machine. -/
structure Safe (past : List Occurrence) (m : Machine) : Prop where
  orderly : (account past).Orderly
  assertions : AtEach (fun before e _ => ∀ memory, e = .assertFailed memory →
    (account before).shutdown = false) past
  ended : .ended ∈ past → m.frames = [] ∧ (account past).Freed
  main : ∀ frame below, m.frames = frame :: below → frame.signal = none → below = []
  /-- The innermost frame keeps the contract, and only `main` may fail an assertion. -/
  innermost : ∀ frame below, m.frames = frame :: below →
    frame.rest.Meets (contract (frame.signal = none)) frame.Returned (account past) m.globals

theorem account_append_quiet {e : Occurrence} (quiet : e.call? = none) :
    account (past ++ [e]) = account past := by
  have none : envCalls [e] = [] := List.filterMap_cons_none quiet
  rw [account_append, none]
  rfl

theorem Safe.during (safe : Safe past m) {frame : Frame} {below : List Frame}
    (frames : m.frames = frame :: below) : During (account past) m.globals :=
  (safe.innermost frame below frames).during fun _ _ _ returned => returned.2.1

theorem Safe.not_ended (safe : Safe past m) (running : m.frames ≠ []) : .ended ∉ past :=
  fun ended => running (safe.ended ended).1

/-- Nothing but the call of a handler happens. -/
theorem Safe.interrupt (safe : Safe past m) {e : Occurrence} {memory : MemoryPhysical}
    (timely : Timely (past ++ [e])) (interrupted : e.interrupted = some memory)
    (here : memory = m.globals.memory) (running : m.frames ≠ [])
    (assertion : ∀ memory, e = .assertFailed memory → (account past).shutdown = false)
    (signal : Signal) :
    Safe (past ++ [e]) ⟨m.globals, ⟨some signal, signalHandler⟩ :: m.frames⟩ := by
  have quiet : e.call? = none ∧ e ≠ .ended := by
    cases e with
    | call | ended => cases interrupted
    | signal | assertFailed => exact ⟨rfl, Occurrence.noConfusion⟩
  obtain ⟨frame, below, frames⟩ := List.exists_cons_of_ne_nil running
  have during := safe.during frames
  have handlers := (atEach_append.mp timely.handlers).2.1 memory interrupted
  rw [List.append_nil, here] at handlers
  have holding := during.2 handlers.1 handlers.2
  refine ⟨?_, ?_, ?_, ?_, ?_⟩
  · rw [account_append_quiet quiet.1]
    exact safe.orderly
  · refine atEach_append.mpr ⟨safe.assertions, ?_, atEach_nil⟩
    dsimp only
    rw [List.append_nil]
    exact assertion
  · intro ended
    rcases List.mem_append.mp ended with before | last
    · exact absurd before (safe.not_ended running)
    · exact absurd (List.mem_singleton.mp last).symm quiet.2
  · intro top rest same none
    cases same
    cases none
  · intro top rest same
    cases same
    rw [account_append_quiet quiet.1]
    exact holding.meets_signalHandler timely.before.ok

/-- The process ends where its innermost program does. -/
theorem Safe.finish (safe : Safe past m) (timely : Timely past)
    (settled : (account past).Settled) : Safe (past ++ [.ended]) ⟨m.globals, []⟩ := by
  refine ⟨?_, ?_, ?_, ?_, ?_⟩
  · rw [account_append_quiet rfl]
    exact safe.orderly
  · refine atEach_append.mpr ⟨safe.assertions, ?_, atEach_nil⟩
    intro memory failed
    cases failed
  · intro _
    rw [account_append_quiet rfl]
    exact ⟨rfl, settled.freed timely.ok⟩
  · intro frame below frames
    cases frames
  · intro frame below frames
    cases frames

theorem Safe.step (safe : Safe past m) (one : Machine.Step m events m')
    (timely : Timely (past ++ events)) : Safe (past ++ events) m' := by
  have before := timely.before
  cases one with
  | @run g g' signal rest rest' below events one =>
      have promised := timely.firmware
      rw [envCalls_append, envCalls_map_call, List.forall_mem_append] at promised
      have met := (safe.innermost _ _ rfl).step one promised.2
      have now : account (past ++ events.map .call) = events.foldl Ledger.after (account past) := by
        rw [account_append, envCalls_map_call]
      change Program.Meets _ _ _ (events.foldl Ledger.after (account past)) g' at met
      rw [← now] at met
      refine ⟨?_, ?_, ?_, ?_, ?_⟩
      · exact (met.during fun _ _ _ returned => returned.2.1).1
      · refine atEach_append.mpr ⟨safe.assertions, atEach_iff.mpr ?_⟩
        intro early e late split memory failed
        have member : e ∈ events.map Occurrence.call := by simp [split]
        rw [failed] at member
        simp at member
      · intro ended
        rcases List.mem_append.mp ended with early | late
        · exact absurd early (safe.not_ended (List.cons_ne_nil _ _))
        · simp at late
      · intro frame below' same none
        cases same
        exact safe.main _ _ rfl none
      · intro frame below' same
        cases same
        exact met
  | signal signal running =>
      refine safe.interrupt timely rfl rfl running ?_ signal
      intro memory failed
      cases failed
  | abort =>
      refine safe.interrupt timely rfl rfl (List.cons_ne_nil _ _) ?_ .abrt
      intro _ _
      exact (safe.innermost _ _ rfl).2.2
  | @killed g signal below masked =>
      -- Only `main` fails an assertion, and below it there is no handler.
      have main := (safe.innermost _ _ rfl).2.1
      obtain rfl := safe.main _ _ rfl main
      obtain ⟨frame, member, handles⟩ := masked
      obtain rfl := List.mem_singleton.mp member
      exact absurd (main.symm.trans handles) (Option.some_ne_none _).symm
  | handlerReturn signal =>
      have returned := safe.innermost _ _ rfl
      exact absurd returned.1 (Option.some_ne_none signal)
  | mainReturn =>
      have returned := safe.innermost _ _ rfl
      exact safe.finish before returned.2.2
  | exit =>
      have exited := safe.innermost _ _ rfl
      exact safe.finish before exited.2

theorem Safe.start (rounds : Nat) (arguments : RaspdifArguments) :
    Safe [] (Machine.start rounds arguments) := by
  refine ⟨(during_idle none Globals.initial).1, atEach_nil, ?_, ?_, ?_⟩
  · intro ended
    cases ended
  · intro frame below frames _
    cases frames
    rfl
  · intro frame below frames
    cases frames
    dsimp only
    rw [eq_self]
    exact fresh_initial.meets_mainRegistered.mono fun _ _ _ returned => ⟨rfl, returned⟩

theorem Safe.of_run {rounds : Nat} {arguments : RaspdifArguments} {trace : List Occurrence}
    (run : Run Machine.Step (Machine.start rounds arguments) trace m) (timely : Timely trace) :
    Safe trace m := by
  refine run.invariant (fun past m => Timely past → Safe past m)
    (fun _ => Safe.start rounds arguments) ?_ timely
  intro past events m m' earlier one timely
  exact (earlier timely.before).step one timely

end

/-- **Shutdown is safe** in every run whose handlers are entered in time. -/
theorem shutdown_safe {rounds : Nat} {arguments : RaspdifArguments} {trace : List Occurrence}
    {m : Machine} (run : Run Machine.Step (Machine.start rounds arguments) trace m)
    (timely : Timely trace) : ShutdownSafe trace := by
  have safe := Safe.of_run run timely
  refine ⟨safe.assertions, safe.orderly.disabled, safe.orderly.unlocks, safe.orderly.releases,
    safe.orderly.strays, ?_⟩
  intro ended handle granted
  have freed := (safe.ended ended).2
  exact ⟨freed.unlocks handle granted, freed.releases handle granted⟩

/-! ## Runs -/

/-- A frame runs on top of others as it does alone. -/
theorem Machine.run_frame {a b : Point Globals environment Unit} {events : List EnvEvent}
    (run : Run Point.Step a events b) (signal : Option Signal) (below : List Frame) :
    Run Machine.Step ⟨a.state, ⟨signal, a.rest⟩ :: below⟩ (events.map .call)
      ⟨b.state, ⟨signal, b.rest⟩ :: below⟩ := by
  induction run with
  | nil => exact .nil
  | snoc _ one ih =>
      rw [List.map_append]
      exact ih.snoc (.run one)

/-- An environment where all goes well. -/
def granting : (call : EnvCall) → call.Answer := answers ⟨0, 0x80000000, 0x80000004, 0xC4000000⟩

/-- `main` up to its loops. -/
def startup : List EnvEvent × Point Globals environment Unit :=
  (mainRegistered 0 .default).exec granting Globals.initial

/-- The handler of a signal that arrives then. -/
def handling : List EnvEvent × Point Globals environment Unit :=
  signalHandler.exec granting startup.2.state

theorem state_startup : startup.2.state =
    { minLevel := .info
      virtualBase := 0x76000000
      clock := 0x76101000
      gpio := 0x76200000
      dma := 0x76007000
      pcm := 0x76203000
      memory := ⟨7, 0xC4000000⟩
      dmaChannel := 13
      controlBus := 0xC4000000
      controlVirtual := 0x76000000 } := by decide +kernel

theorem ledger_startup : ledger startup.1 =
    { Ledger.idle (some 13) with
      granted := [7]
      locked := [7]
      clock := true } := by decide +kernel

theorem rest_handling : handling.2.rest = .exit := by
  rw [handling, state_startup]
  rfl

theorem ledger_handling : ledger (startup.1 ++ handling.1) =
    { Ledger.idle (some 13) with
      granted := [7]
      locked := [7]
      unlocks := [7]
      releases := [7]
      disabled := [13]
      shutdown := true } := by decide +kernel

/-- Calls interrupt nothing. -/
theorem handlers_map_call (P : List Occurrence → MemoryPhysical → Prop) (events : List EnvEvent) :
    AtEach (fun before e _ => ∀ memory, e.interrupted = some memory → P before memory)
      (events.map .call) := by
  refine atEach_iff.mpr ?_
  intro before e after split memory interrupted
  have member : e ∈ events.map Occurrence.call := by simp [split]
  obtain ⟨call, _, rfl⟩ := List.mem_map.mp member
  cases interrupted

/-- A signal during the loops, and its handler to the end. -/
def interruptedTrace : List Occurrence :=
  (startup.1.map .call ++ [.signal .term startup.2.state.memory]) ++
    (handling.1.map .call ++ [.ended])

theorem envCalls_interruptedTrace : envCalls interruptedTrace = startup.1 ++ handling.1 := by
  simp only [interruptedTrace, envCalls_append, envCalls_map_call]
  change (startup.1 ++ []) ++ (handling.1 ++ []) = _
  rw [List.append_nil, List.append_nil]

/-- A signal that arrives while `main` does something, and its handler to the end. -/
theorem exists_interrupt (rest : Prog Unit) : ∃ m, Run Machine.Step
    ⟨startup.2.state, [⟨none, rest⟩]⟩
    ([.signal .term startup.2.state.memory] ++ (handling.1.map .call ++ [.ended])) m := by
  have unmasked : ¬ Machine.Masked ⟨startup.2.state, [⟨none, rest⟩]⟩ .term := by
    rintro ⟨frame, member, masked⟩
    cases List.mem_singleton.mp member
    cases masked
  have signalled : Run Machine.Step ⟨startup.2.state, [⟨none, rest⟩]⟩ _ _ :=
    .single (.signal .term (List.cons_ne_nil _ _) unmasked)
  have handled : Run Machine.Step
      ⟨startup.2.state, [⟨some .term, signalHandler⟩, ⟨none, rest⟩]⟩
      (handling.1.map .call)
      ⟨handling.2.state, [⟨some .term, handling.2.rest⟩, ⟨none, rest⟩]⟩ :=
    Machine.run_frame
      (Program.run_exec (I := environment) granting signalHandler startup.2.state) (some .term) _
  rw [rest_handling] at handled
  exact ⟨_, signalled.append (handled.snoc .exit)⟩

theorem run_interruptedTrace :
    ∃ m, Run Machine.Step (Machine.start 0 .default) interruptedTrace m := by
  have started := Machine.run_frame
    (Program.run_exec (I := environment) granting (mainRegistered 0 .default) Globals.initial)
    none []
  rcases exists_interrupt startup.2.rest with ⟨m, interrupted⟩
  have whole := started.append interrupted
  rw [← List.append_assoc] at whole
  exact ⟨m, whole⟩

theorem timely_interruptedTrace : Timely interruptedTrace where
  firmware := by
    rw [envCalls_interruptedTrace]
    decide +kernel
  nothingFails := by
    rw [envCalls_interruptedTrace, ← failed_ledger, ledger_handling]
    rfl
  handlers := by
    refine atEach_append.mpr ⟨atEach_append.mpr ⟨handlers_map_call _ _, ?_, atEach_nil⟩, ?_⟩
    · intro memory interrupted
      cases interrupted
      rw [List.append_nil, account, envCalls_map_call, ledger_startup, state_startup]
      exact ⟨List.mem_singleton_self 7, rfl⟩
    · refine atEach_append.mpr ⟨handlers_map_call _ _, ?_, atEach_nil⟩
      intro memory interrupted
      cases interrupted

/-- The shutdown of a signal that arrives in the loops. -/
theorem shutdown_safe_interrupted :
    ∃ trace m, Run Machine.Step (Machine.start 0 .default) trace m ∧ Timely trace ∧
      .ended ∈ trace ∧ (account trace).granted = [7] ∧ ShutdownSafe trace := by
  obtain ⟨m, run⟩ := run_interruptedTrace
  refine ⟨_, m, run, timely_interruptedTrace, by simp [interruptedTrace], ?_,
    shutdown_safe run timely_interruptedTrace⟩
  rw [account, envCalls_interruptedTrace, ledger_handling]

/-- A signal before the first step: the assertion on `pcm` fails in the handler. -/
theorem early_signal_aborts :
    ∃ trace m, Run Machine.Step (Machine.start 0 .default) trace m ∧
      (∀ e ∈ envCalls trace, Promised e) ∧ NothingFails (envCalls trace) ∧
      ¬ ShutdownSafe trace := by
  have unmasked : ¬ (Machine.start 0 .default).Masked .term := by
    rintro ⟨frame, member, masked⟩
    cases List.mem_singleton.mp member
    cases masked
  have handled : Run Machine.Step
      ⟨.initial, ⟨some .term, signalHandler⟩ :: (Machine.start 0 .default).frames⟩
      [.call ⟨.raspdifShutdown, ()⟩]
      ⟨.initial, ⟨some .term, .fail⟩ :: (Machine.start 0 .default).frames⟩ :=
    Machine.run_frame
      (Program.run_exec (I := environment) granting signalHandler .initial) (some .term) _
  have signalled := Run.single (Machine.Step.signal .term (List.cons_ne_nil _ _) unmasked)
  refine ⟨_, _, (signalled.append handled).snoc .abort, ?_, ?_, ?_⟩
  · intro e member
    cases List.mem_singleton.mp member
    rfl
  · refine (failed_ledger _).mp rfl
  · intro safe
    have shutdown := (atEach_append.mp safe.assertions).2.1 _ rfl
    cases shutdown

end Raspdif.Process
