import Raspdif.Lib.Translation
import Raspdif.Main.Fill
import Raspdif.Process.Liveness
import Raspdif.Process.Signals

/-!
# Runs of the process

Every run of the program that does not leave the preload is one of the loops, but for its waits:
each round brings the input that has arrived, and finds the DMA in a buffer that the program does
not wait for (`exists_course`).

`exists_interrupted` has a whole process of such parts: `main` up to its loops, the preload, the
activation of the DMA, an underrun up to its `poll`, and a signal with its handler.
-/

namespace Raspdif.Process

open Interaction Program Trace

/-! ## Where the DMA may be -/

section

variable {setup : Setup} {answers : Answers} {s s' : Main} {events : List Event}

/-- A buffer that is not this one. -/
theorem exists_elsewhere (setup : Setup) (tested : Option Nat) :
    ∃ i < raspdifBufferCount, ∀ index, tested = some index →
      setup.controlBlock i ≠ setup.controlBlock index := by
  rcases tested with - | index
  · exact ⟨0, by decide, nofun⟩
  · have apart : setup.controlBlock 0 ≠ setup.controlBlock 1 :=
      mt (setup.controlBlock_inj (by decide) (by decide)).mp (by decide)
    by_cases here : setup.controlBlock 0 = setup.controlBlock index
    · refine ⟨1, by decide, fun other same => ?_⟩
      obtain rfl := Option.some.inj same
      rw [← here]
      exact apart.symm
    · refine ⟨0, by decide, fun other same => ?_⟩
      obtain rfl := Option.some.inj same
      exact here

/-- A step that does not wait for the DMA may be made while the DMA is at some other buffer. -/
theorem moves_elsewhere (moves : s.Moves setup answers s' events) :
    s' = s ∧ events = [] ∨ ∃ i < raspdifBufferCount,
      s.Moves setup ⟨setup.controlBlock i, answers.randA, answers.randB⟩ s' events ∧
        ∀ index, position s = some index → setup.controlBlock i ≠ setup.controlBlock index := by
  obtain ⟨i, inRing, away⟩ := exists_elsewhere setup (position s)
  cases moves with
  | readWait | fillWait => exact Or.inl ⟨rfl, rfl⟩
  | preloadFrame pc ready items room =>
      exact Or.inr ⟨i, inRing, .preloadFrame pc ready items room, away⟩
  | preloadDone pc ready done => exact Or.inr ⟨i, inRing, .preloadDone pc ready done, away⟩
  | finish pc eof => exact Or.inr ⟨i, inRing, .finish pc eof, away⟩
  | underrun pc _ short noEof =>
      have before : s.file.eof = false := (Bool.or_eq_false_iff.mp noEof).1
      have tests : position s = some s.bufferIndex := by simp [position, pc, before]
      exact Or.inr ⟨i, inRing, .underrun pc (away _ tests) short noEof, away⟩
  | readFrame pc noEof _ enough =>
      have tests : position s = some s.bufferIndex := by simp [position, pc, noEof]
      exact Or.inr ⟨i, inRing, .readFrame pc noEof (away _ tests) enough, away⟩
  | fillRemainder index pc => exact Or.inr ⟨i, inRing, .fillRemainder index pc, away⟩
  | fillEnter index count pc more _ =>
      have tests : position s = some index := by simp [position, pc, more]
      exact Or.inr ⟨i, inRing, .fillEnter index count pc more (away _ tests), away⟩
  | fillReturn index count pc all => exact Or.inr ⟨i, inRing, .fillReturn index count pc all, away⟩
  | fillBuffer index count pc => exact Or.inr ⟨i, inRing, .fillBuffer index count pc, away⟩
  | poll pc => exact Or.inr ⟨i, inRing, .poll pc, away⟩

end

/-! ## One round -/

/-- The calls of a round that need not wait. -/
theorem exec_testPosition (setup : Setup) (sampleRate : ℚ) (answers : Answers) (tested : Option Nat)
    (away : ∀ index, tested = some index → answers.conblkAd ≠ setup.controlBlock index) :
    (testPosition setup sampleRate answers tested).exec granting startup.2.state =
      ([], ⟨startup.2.state, .done ()⟩) := by
  rcases tested with - | index
  · rfl
  · rw [state_startup]
    change Program.exec (I := environment) granting
      (when (answers.conblkAd = setup.controlBlock index) _) _ = _
    rw [when, if_neg (away index rfl)]
    rfl

/-- The calls behind the step of a round. -/
def stepEvents (pc next : Pc) : List EnvEvent :=
  ((stepCalls false pc next).exec granting startup.2.state).1

theorem exec_stepCalls (pc next : Pc) :
    (stepCalls false pc next).exec granting startup.2.state =
      (stepEvents pc next, ⟨startup.2.state, .done ()⟩) := by
  refine Prod.ext rfl ?_
  rw [state_startup]
  unfold stepCalls when
  split <;> split <;> rfl

theorem stepEvents_poll (next : Pc) : stepEvents .poll next = [⟨.poll, ()⟩] := by
  rw [stepEvents, state_startup]
  rfl

theorem stepEvents_eq_nil {pc next : Pc} (stays : ¬ (pc = .preload ∧ next = .readLoop))
    (notPoll : pc ≠ .poll) : stepEvents pc next = [] := by
  rw [stepEvents, stepCalls, when, if_neg stays, when, if_neg notPoll]
  rfl

section

variable {setup : Setup} {s next : Main} {outside : Outside} {events : List Event}

/-- A round that need not wait. -/
theorem run_stream_round (running : s.pc ≠ .finished)
    (step : (arrive s outside).step setup outside.answers = some (next, events))
    (away : ∀ index, position (arrive s outside) = some index →
      outside.answers.conblkAd ≠ setup.controlBlock index) (more : Nat) :
    Run Point.Step ⟨startup.2.state, stream setup .default (1 + more) s⟩
      (⟨.outside, outside⟩ :: stepEvents (arrive s outside).pc next.pc)
      ⟨startup.2.state, stream setup .default more next⟩ := by
  let rest := fun _ : Unit =>
    stepCalls false (arrive s outside).pc next.pc >>= fun _ => stream setup .default more next
  obtain ⟨body, whole, after⟩ : ∃ body : Outside → Prog Unit,
      stream setup .default (more + 1) s = .call EnvCall.outside body ∧
        body outside = testPosition setup RaspdifArguments.default.sampleRate outside.answers
          (position (arrive s outside)) >>= rest := by
    refine ⟨_, if_neg running, ?_⟩
    change (testPosition setup RaspdifArguments.default.sampleRate outside.answers
      (position (arrive s outside)) >>= fun _ => _) = _
    simp only [step]
    rfl
  have first := Program.run_exec_bind (exec_testPosition setup
    RaspdifArguments.default.sampleRate outside.answers (position (arrive s outside)) away) rest
  have second := Program.run_exec_bind (exec_stepCalls (arrive s outside).pc next.pc)
    fun _ => stream setup .default more next
  have ask := Point.Step.call (I := environment) (s := startup.2.state) EnvCall.outside body outside
  rw [after] at ask
  rw [Nat.add_comm, whole]
  exact (Run.single ask).append (first.append second)

end

/-! ## Any number of rounds -/

/-- A call of the loops, but for those that start the output: a round, with the DMA in some
buffer, or `poll`. -/
inductive Located (setup : Setup) : EnvEvent → Prop
  | round {outside : Outside} {i : Nat} : i < raspdifBufferCount →
    outside.answers.conblkAd = setup.controlBlock i → Located setup ⟨.outside, outside⟩
  | poll : Located setup ⟨.poll, ()⟩

/-- The process gets from one state of the loops to another by these calls. -/
structure Course (setup : Setup) (s : Main) (calls : List EnvEvent) (here : Main) : Prop where
  run : ∃ rounds, ∀ more, Run Point.Step
    ⟨startup.2.state, stream setup .default (rounds + more) s⟩ calls
    ⟨startup.2.state, stream setup .default more here⟩
  located : ∀ e ∈ calls, Located setup e

/-- The next round brings these bytes, and with them the loops are at `s`. -/
structure Lags (here : Main) (bytes : List UInt8) (s : Main) : Prop where
  opened : here.file.closed = false
  arrives : ∀ answers, arrive here ⟨bytes, false, answers⟩ = s

section

variable {setup : Setup} {s s' here : Main} {calls later : List EnvEvent} {bytes : List UInt8}
  {trace events : List Event}

theorem Course.nil (setup : Setup) (s : Main) : Course setup s [] s where
  run := ⟨0, fun more => by
    rw [Nat.zero_add]
    exact .nil⟩
  located := List.forall_mem_nil _

theorem Course.append (first : Course setup s calls here) (second : Course setup here later s') :
    Course setup s (calls ++ later) s' where
  run := by
    rcases first.run with ⟨m, earlier⟩
    rcases second.run with ⟨n, rest⟩
    refine ⟨m + n, fun more => ?_⟩
    rw [Nat.add_assoc]
    exact (earlier (n + more)).append (rest more)
  located := List.forall_mem_append.mpr ⟨first.located, second.located⟩

theorem Lags.nil (opened : s.file.closed = false) : Lags s [] s where
  opened := opened
  arrives answers := by
    rw [arrive, if_neg (by rw [opened]; exact Bool.false_ne_true), List.append_nil, ← opened]

theorem Lags.pc (lags : Lags here bytes s) : here.pc = s.pc := by
  rw [← lags.arrives ⟨0, 0, 0⟩]
  unfold arrive
  split <;> rfl

theorem Lags.not_closed (lags : Lags here bytes s) : ¬ here.file.closed = true := by
  rw [lags.opened]
  exact Bool.false_ne_true

theorem Lags.closed (lags : Lags here bytes s) : s.file.closed = false := by
  rw [← lags.arrives ⟨0, 0, 0⟩, arrive, if_neg lags.not_closed]

theorem Lags.deliver (lags : Lags here bytes s) (more : List UInt8) :
    Lags here (bytes ++ more) { s with file := { s.file with pending := s.file.pending ++ more } }
    where
  opened := lags.opened
  arrives answers := by
    rw [← lags.arrives answers]
    simp only [arrive, if_neg lags.not_closed, List.append_assoc]

/-- A step that does not wait is a round. -/
theorem Lags.exists_round (lags : Lags here bytes s) {answers : Answers}
    (moves : s.Moves setup answers s' events) :
    s' = s ∧ events = [] ∨ ∃ outside i, i < raspdifBufferCount ∧
      outside.answers.conblkAd = setup.controlBlock i ∧ Lags s' [] s' ∧
      ∀ more, Run Point.Step ⟨startup.2.state, stream setup .default (1 + more) here⟩
        (⟨.outside, outside⟩ :: stepEvents s.pc s'.pc)
        ⟨startup.2.state, stream setup .default more s'⟩ := by
  rcases moves_elsewhere moves with waits | ⟨i, inRing, moves, away⟩
  · exact Or.inl waits
  · let outside : Outside := ⟨bytes, false, ⟨setup.controlBlock i, answers.randA, answers.randB⟩⟩
    have arrives : arrive here outside = s := lags.arrives _
    have running : here.pc ≠ .finished := by
      rw [lags.pc]
      exact pc_ne_finished moves
    have still : s'.file.closed = false := (fed_moves moves).2.trans lags.closed
    refine Or.inr ⟨outside, i, inRing, rfl, .nil still, fun more => ?_⟩
    have step := Main.step_of_moves _ _ moves
    rw [← arrives] at step away ⊢
    exact run_stream_round running step away more

/-- Every run of the loops that does not leave the preload is one of the process, up to its
waits. -/
theorem exists_course (run : Run (Main.Step setup) s trace s') (opened : s'.file.closed = false)
    (stays : entered trace = 0) :
    ∃ calls here bytes, Course setup s calls here ∧ Lags here bytes s' := by
  induction run with
  | nil => exact ⟨[], s, [], .nil setup s, .nil opened⟩
  | @snoc trace events mid last _ one ih =>
      rw [entered_append] at stays
      have before := Nat.eq_zero_of_add_eq_zero_right stays
      have here := Nat.eq_zero_of_add_eq_zero_left stays
      cases one with
      | deliver more _ =>
          obtain ⟨calls, here, bytes, course, lags⟩ := ih opened before
          exact ⟨calls, here, _, course, lags.deliver more⟩
      | close => cases opened
      | cpu answers ran =>
          have moves := Main.step_moves ran
          obtain ⟨calls, there, bytes, course, lags⟩ :=
            ih ((fed_moves moves).2.symm.trans opened) before
          rcases lags.exists_round moves with ⟨rfl, -⟩ | ⟨outside, i, inRing, located, next, round⟩
          · exact ⟨calls, there, bytes, course, lags⟩
          · refine ⟨_, last, [], course.append ⟨⟨1, round⟩, ?_⟩, next⟩
            refine List.forall_mem_cons.mpr ⟨.round inRing located, ?_⟩
            by_cases poll : mid.pc = .poll
            · rw [poll, stepEvents_poll]
              exact List.forall_mem_singleton.mpr .poll
            · rw [stepEvents_eq_nil ?_ poll]
              · exact List.forall_mem_nil _
              · rintro ⟨preload, left⟩
                cases moves with
                | preloadFrame => cases preload.symm.trans left
                | preloadDone => cases here
                | finish pc | readWait pc | underrun pc | readFrame pc | fillRemainder _ pc
                | fillWait _ _ pc | fillEnter _ _ pc | fillReturn _ _ pc | fillBuffer _ _ pc
                | poll pc => cases preload.symm.trans pc

end

/-- The loops do not get back to the preload. -/
theorem entered_eq_zero_of_run {setup : Setup} {s s' : Main} {trace : List Event}
    (run : Run (Main.Step setup) s trace s') (loop : s.pc ≠ .preload) : entered trace = 0 := by
  refine (run.invariant (fun past m => entered past = 0 ∧ m.pc ≠ .preload) ⟨rfl, loop⟩ ?_).1
  rintro past events m m' ⟨none, loop⟩ one
  rw [entered_append, none, Nat.zero_add]
  cases one with
  | cpu answers ran => exact (Main.step_moves ran).later loop
  | deliver | close => exact ⟨rfl, loop⟩

/-! ## A run with an underrun -/

/-- `main` up to its loops. -/
def opening (arguments : RaspdifArguments) : Prog Unit := do
  when (arguments.verbose = true) (logSetLevel .debug)
  let pi4 ← ask .bcmHostIsModelPi4
  raspdifInit (if pi4 then 5 else 13) arguments.sampleRate
  let opened ← ask (.openInput arguments.file)
  when (opened = false) (logPrint .fatal)
  logPrint .info
  logPrint .info

theorem mainRegistered_eq_bind (rounds : Nat) (arguments : RaspdifArguments) :
    mainRegistered rounds arguments = opening arguments >>= fun _ => getState >>= fun g =>
      stream ⟨arguments.format, arguments.keepAlive, g.controlBus⟩ arguments rounds
        (Main.start fun _ => .zero) >>= fun _ => raspdifShutdown := by
  simp only [mainRegistered, opening, bind_assoc]

def opened : List EnvEvent × Point Globals environment Unit :=
  (opening .default).exec granting Globals.initial

theorem value_opened : opened.2.rest.value? = some () := by decide +kernel

theorem state_opened : opened.2.state = startup.2.state := by decide +kernel

theorem returns_opened :
    (opening .default).exec granting Globals.initial = (opened.1, ⟨startup.2.state, .done ()⟩) :=
  Prod.ext rfl (Point.eq_done state_opened value_opened)

/-- The loops of `main` with the default options, where the block is locked like that. -/
def grantingSetup : Setup :=
  ⟨RaspdifArguments.default.format, RaspdifArguments.default.keepAlive, 0xC4000000⟩

/-- `main` comes to its loops. -/
theorem run_opening (rounds : Nat) : Run Point.Step ⟨.initial, mainRegistered rounds .default⟩
    opened.1 ⟨startup.2.state, stream grantingSetup .default rounds (Main.start fun _ => .zero) >>=
      fun _ => raspdifShutdown⟩ := by
  have place : startup.2.state.controlBus = 0xC4000000 := by rw [state_startup]
  have begun := Program.run_exec_bind returns_opened fun _ => getState >>= fun g =>
    stream ⟨RaspdifArguments.default.format, RaspdifArguments.default.keepAlive, g.controlBus⟩
      .default rounds (Main.start fun _ => .zero) >>= fun _ => raspdifShutdown
  rw [← mainRegistered_eq_bind] at begun
  have entered := begun.snoc (.read _)
  change Run Point.Step _ _ ⟨startup.2.state, stream ⟨RaspdifArguments.default.format,
    RaspdifArguments.default.keepAlive, startup.2.state.controlBus⟩ .default rounds
      (Main.start fun _ => .zero) >>= fun _ => raspdifShutdown⟩ at entered
  rw [place, List.append_nil] at entered
  exact entered

/-- The DMA channel of the older boards is activated. -/
def activation : EnvEvent := ⟨.dma 13 (.csActive true), ()⟩

/-- What follows it before the first round. -/
def transmitting : List EnvEvent := (stepEvents .preload .readLoop).tail

theorem stepEvents_leave : stepEvents .preload .readLoop = activation :: transmitting := by
  rw [transmitting, stepEvents, state_startup]
  rfl

/-- The loops with an underrun: the preload, the activation of the DMA, and a fill up to its
`poll`. -/
theorem exists_underrun_rounds : ∃ rounds before later rest,
    Run Point.Step
      ⟨startup.2.state, stream grantingSetup .default rounds (Main.start fun _ => .zero)⟩
      (before ++ activation :: (transmitting ++ later ++ [⟨.poll, ()⟩])) ⟨startup.2.state, rest⟩ ∧
    (∀ e ∈ before, Located grantingSetup e) ∧ ∀ e ∈ later, Located grantingSetup e := by
  obtain ⟨past, mid, s, run, leave, made, -, file, -⟩ :=
    exists_leaving grantingSetup silence length_silence.ge
  have all : silence.length ≤ grantingSetup.format.frameSize * (ringSize + 1) :=
    length_silence.le
  rw [List.drop_of_length_le all] at file
  have preload : mid.pc = .preload ∧ s.pc = .readLoop := by
    cases leave with
    | preloadDone pc => exact ⟨pc, rfl⟩
  have preloaded : Preloaded grantingSetup (past ++ [.fread _, .dmaEnable]) s :=
    ⟨⟨_, past, mid, _, _, run, Main.step_of_moves _ _ leave, rfl⟩, by
      rw [calls_append, List.length_append, made]
      rfl⟩
  obtain ⟨trace, s', run', poll, file'⟩ := exists_polling grantingSetup (preloaded.idle file)
  have resume : s'.Moves grantingSetup ⟨0, 0, 0⟩ _ _ := .poll poll
  obtain ⟨calls, here, bytes, course, lags⟩ := exists_course run
    ((fed_moves leave).2.symm.trans (by rw [file])) (preload_calls run preload.1).1
  obtain ⟨calls', here', bytes', course', lags'⟩ := exists_course run' (by rw [file'])
    (entered_eq_zero_of_run run' (by rw [preload.2]; exact Pc.noConfusion))
  rcases lags.exists_round leave with ⟨-, none⟩ | ⟨outside, i, inRing, located, -, round⟩
  · cases none
  rcases lags'.exists_round resume with ⟨same, -⟩ | ⟨outside', i', inRing', located', -, round'⟩
  · cases (congrArg Main.pc same).trans poll
  rw [preload.1, preload.2, stepEvents_leave] at round
  rw [poll, stepEvents_poll] at round'
  rcases course.run with ⟨m, first⟩
  rcases course'.run with ⟨n, second⟩
  have whole := (first _).append ((round _).append ((second _).append (round' 0)))
  rw [List.cons_append, List.append_cons, List.cons_append, List.append_cons calls',
    ← List.append_assoc transmitting] at whole
  refine ⟨_, _, _, _, whole, ?_, ?_⟩
  · exact List.forall_mem_append.mpr
      ⟨course.located, List.forall_mem_singleton.mpr (.round inRing located)⟩
  · exact List.forall_mem_append.mpr
      ⟨course'.located, List.forall_mem_singleton.mpr (.round inRing' located')⟩

/-- An underrun behind the activation, up to its `poll`, and a signal then. -/
def underrunRest (later : List EnvEvent) : List Occurrence :=
  (transmitting ++ later ++ [⟨.poll, ()⟩] : List EnvEvent).map .call ++
    ([.signal .term startup.2.state.memory] ++ (handling.1.map .call ++ [.ended]))

theorem envCalls_underrunRest (later : List EnvEvent) :
    envCalls (underrunRest later) = transmitting ++ later ++ ⟨.poll, ()⟩ :: handling.1 := by
  rw [underrunRest, envCalls_append, envCalls_append, envCalls_append, envCalls_map_call,
    envCalls_map_call, ← List.append_cons]
  exact congrArg (transmitting ++ later ++ ⟨.poll, ()⟩ :: ·) (List.append_nil handling.1)

/-- The process with the underrun. -/
def underrunTrace (before later : List EnvEvent) : List Occurrence :=
  (opened.1 ++ before).map .call ++ .call activation :: underrunRest later

theorem envCalls_underrunTrace (before later : List EnvEvent) :
    envCalls (underrunTrace before later) = opened.1 ++ before ++ activation ::
      (transmitting ++ later ++ ⟨.poll, ()⟩ :: handling.1) := by
  rw [underrunTrace, envCalls_append, envCalls_map_call]
  exact congrArg (_ ++ activation :: ·) (envCalls_underrunRest later)

theorem signal_mem_underrunTrace (before later : List EnvEvent) :
    .signal .term startup.2.state.memory ∈ underrunTrace before later := by
  simp [underrunTrace, underrunRest]

theorem ended_mem_underrunTrace (before later : List EnvEvent) :
    .ended ∈ underrunTrace before later := by
  simp [underrunTrace, underrunRest]

theorem exists_interrupted : ∃ rounds before later m,
    Run Machine.Step (Machine.start rounds .default) (underrunTrace before later) m ∧
    (∀ e ∈ before, Located grantingSetup e) ∧ ∀ e ∈ later, Located grantingSetup e := by
  obtain ⟨rounds, before, later, rest, looped, early, late⟩ := exists_underrun_rounds
  have whole := (run_opening rounds).append (Point.run_bind looped fun _ => raspdifShutdown)
  rw [← List.append_assoc] at whole
  obtain ⟨m, interrupted⟩ := exists_interrupt (rest >>= fun _ => raspdifShutdown)
  have ended := (Machine.run_frame whole none []).append interrupted
  rw [List.map_append, List.append_assoc, List.map_cons, List.cons_append] at ended
  exact ⟨rounds, before, later, m, ended, early, late⟩

end Raspdif.Process
