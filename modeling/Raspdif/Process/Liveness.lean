import Raspdif.Lib.Fairness
import Raspdif.Main.EndOfInput
import Raspdif.Process.Startup

/-!
# The loops get on

What `main` does with an environment that goes on for ever: in each round some input arrives,
or the end of it, and the program makes a step, as `stream` has it.  The only waits of the
read loop and of `raspdif_fill_buffers` are those for the DMA to leave a buffer.  As long as
it does so again and again, `main` ends once its input has ended, with all of the input read
(`main_terminates`), and no whole frame is left pending for ever (`input_not_starved`).
-/

namespace Raspdif.Process

open Trace Fairness Interaction Program

/-! ## Rounds -/

/-- A round of `stream`. -/
def round (setup : Setup) (s : Main) (outside : Outside) : Main × List Event :=
  match (arrive s outside).step setup outside.answers with
  | none => (arrive s outside, [])
  | some (next, events) => (next, events)

/-- The state before round `n`. -/
def rounds (setup : Setup) (s : Main) (outside : Nat → Outside) : Nat → Main
  | 0 => s
  | n + 1 => (round setup (rounds setup s outside n) (outside n)).1

/-- The DMA leaves every buffer again and again. -/
def KeepsMoving (setup : Setup) (outside : Nat → Outside) : Prop :=
  Recurs fun index n => (outside n).answers.conblkAd ≠ setup.controlBlock index

/-- What the program records in the rounds before round `n`. -/
def recorded (setup : Setup) (s : Main) (outside : Nat → Outside) : Nat → List Event
  | 0 => []
  | n + 1 => recorded setup s outside n ++ (round setup (rounds setup s outside n) (outside n)).2

/-- The bytes that arrive before round `n`. -/
def arrivals (setup : Setup) (s : Main) (outside : Nat → Outside) : Nat → List UInt8
  | 0 => []
  | n + 1 =>
      arrivals setup s outside n ++
        if (rounds setup s outside n).file.closed then [] else (outside n).bytes

section

variable {setup : Setup} {s : Main} {outside : Nat → Outside}

theorem rounds_add (n m : Nat) :
    rounds setup s outside (n + m) =
      rounds setup (rounds setup s outside n) (fun k => outside (n + k)) m := by
  induction m with
  | zero => rfl
  | succ m ih => rw [← Nat.add_assoc, rounds, rounds, ih]

theorem recorded_add (n m : Nat) :
    recorded setup s outside (n + m) =
      recorded setup s outside n ++
        recorded setup (rounds setup s outside n) (fun k => outside (n + k)) m := by
  induction m with
  | zero => exact (List.append_nil _).symm
  | succ m ih => rw [← Nat.add_assoc, recorded, recorded, ih, rounds_add, List.append_assoc]

theorem KeepsMoving.later (moving : KeepsMoving setup outside) (n : Nat) :
    KeepsMoving setup fun k => outside (n + k) := by
  intro index k
  obtain ⟨m, after, away⟩ := moving index (n + k)
  obtain ⟨gap, rfl⟩ := Nat.exists_eq_add_of_le (Nat.le_trans (Nat.le_add_right n k) after)
  exact ⟨gap, Nat.le_of_add_le_add_left after, away⟩

end

section

variable {setup : Setup} {answers : Answers} {s s' : Main} {events : List Event}
  {outside : Outside}

/-! ## One round -/

/-- Only a blocking `fread`, or the end, keeps the program from a step. -/
theorem Main.step_eq_none (stuck : s.step setup answers = none) :
    s.pc = .finished ∨ s.pc = .preload ∧ ¬ s.file.Ready setup.format.frameSize := by
  unfold Main.step at stuck
  split at stuck
  next pc =>
    split at stuck
    next => dsimp only at stuck; split at stuck <;> cases stuck
    next waits => exact Or.inr ⟨pc, waits⟩
  next =>
    split at stuck
    next => cases stuck
    next =>
      split at stuck
      next => cases stuck
      next => dsimp only at stuck; split at stuck <;> cases stuck
  next => cases stuck
  next =>
    split at stuck
    next => split at stuck <;> cases stuck
    next => cases stuck
  next => cases stuck
  next => cases stuck
  next pc => exact Or.inl pc

theorem round_cases (setup : Setup) (s : Main) (outside : Outside) :
    (arrive s outside).step setup outside.answers = none ∧
        round setup s outside = (arrive s outside, []) ∨
      ∃ s' events, (arrive s outside).Moves setup outside.answers s' events ∧
        round setup s outside = (s', events) := by
  unfold round
  cases ran : (arrive s outside).step setup outside.answers with
  | none => exact Or.inl ⟨rfl, rfl⟩
  | some result =>
      obtain ⟨s', events⟩ := result
      exact Or.inr ⟨s', events, Main.step_moves ran, rfl⟩

/-- What is pending at a step of a round. -/
theorem arrive_pending (s : Main) (outside : Outside) :
    (arrive s outside).file.pending =
      s.file.pending ++ if s.file.closed then [] else outside.bytes := by
  unfold arrive
  split
  next => exact (List.append_nil _).symm
  next => rfl

theorem arrive_eq_of_closed (closed : s.file.closed = true) : arrive s outside = s :=
  if_pos closed

/-- The program reads, and delivers nothing. -/
theorem fed_moves (moves : s.Moves setup answers s' events) :
    (reads events).flatten ++ s'.file.pending = s.file.pending ∧
      s'.file.closed = s.file.closed := by
  have fed := (Fed.nil s).step (.cpu answers (Main.step_of_moves _ _ moves))
  unfold Fed at fed
  rw [List.nil_append] at fed
  cases moves <;> exact ⟨fed.trans (List.append_nil _), rfl⟩

theorem fed_round (setup : Setup) (s : Main) (outside : Outside) :
    (reads (round setup s outside).2).flatten ++ (round setup s outside).1.file.pending =
        s.file.pending ++ (if s.file.closed then [] else outside.bytes) ∧
      (round setup s outside).1.file.closed = (s.file.closed || outside.closed) := by
  have closed : (arrive s outside).file.closed = (s.file.closed || outside.closed) := by
    unfold arrive
    split
    next closed => rw [closed, Bool.true_or]
    next opened => rw [Bool.eq_false_iff.mpr opened, Bool.false_or]
  rw [← arrive_pending, ← closed]
  rcases round_cases setup s outside with ⟨-, stays⟩ | ⟨s', events, moves, goes⟩
  · rw [stays]
    exact ⟨rfl, rfl⟩
  · rw [goes]
    exact fed_moves moves

/-! ## Ranks -/

/-- The calls of `raspdif_buffer_samples` that are missing to the end of the buffer. -/
def slotsLeft (statics : Statics) : Nat := raspdifBufferSize - statics.slot

/-- What is left to be done by `raspdif_fill_buffers`, and after it. -/
def stage (statics : Statics) : Pc → Nat
  | .finished => 0
  | .readLoop => 1
  | .preload | .poll => 2
  | .fillAll _ count => 3 + (raspdifBufferCount - count) * (raspdifBufferSize + 2)
  | .fillBuffer _ count =>
      3 + (raspdifBufferCount - (count + 1)) * (raspdifBufferSize + 2) + slotsLeft statics
  | .fillRemainder _ => 3 + raspdifBufferCount * (raspdifBufferSize + 2) + slotsLeft statics

/-- The buffer whose DMA position is tested. -/
def waitsFor (s : Main) : Nat :=
  match s.pc with
  | .fillAll index _ => index
  | _ => s.bufferIndex

theorem slotsLeft_bounds (statics : Statics) :
    0 < slotsLeft statics ∧ slotsLeft statics ≤ raspdifBufferSize := by
  have inside := statics.slot.isLt
  unfold slotsLeft
  omega

/-- A call that does not fill the buffer leaves one slot less. -/
theorem slotsLeft_next {statics : Statics} (notFull : ¬ (statics.next.slot.val == 0) = true) :
    slotsLeft statics.next < slotsLeft statics := by
  have next := statics.slot_next
  have inside := statics.slot.isLt
  rw [beq_iff_eq] at notFull
  unfold slotsLeft
  simp only [raspdifBufferSize] at *
  omega

theorem slotsLeft_bufferFill {index : Nat}
    (notFull : ¬ (s.bufferFill setup answers index).full = true) :
    slotsLeft (s.bufferFill setup answers index).main.statics < slotsLeft s.statics := by
  unfold Main.bufferFill Main.bufferSamples at *
  dsimp only at *
  rw [raspdifBufferSamples_full] at notFull
  rw [raspdifBufferSamples_statics]
  exact slotsLeft_next notFull

theorem pc_ne_finished (moves : s.Moves setup answers s' events) : s.pc ≠ .finished := by
  intro ended
  cases moves with
  | preloadFrame pc | preloadDone pc | finish pc | readWait pc | underrun pc | readFrame pc
  | fillRemainder _ pc | fillWait _ _ pc | fillEnter _ _ pc | fillReturn _ _ pc
  | fillBuffer _ _ pc | poll pc => cases ended.symm.trans pc

/-- In `raspdif_fill_buffers` a step waits or lowers the stage, and it hands nothing over. -/
structure FillMove (setup : Setup) (answers : Answers) (s s' : Main) (events : List Event) :
    Prop where
  file : s'.file = s.file
  running : s'.pc ≠ .preload ∧ s'.pc ≠ .finished
  nothing : handed events = []
  progress : stage s'.statics s'.pc < stage s.statics s.pc ∨
    s' = s ∧ answers.conblkAd = setup.controlBlock (waitsFor s)

theorem FillMove.of_moves (moves : s.Moves setup answers s' events)
    (running : s.pc ≠ .preload ∧ s.pc ≠ .finished) (notReadLoop : s.pc ≠ .readLoop) :
    FillMove setup answers s s' events := by
  have bounds := slotsLeft_bounds s.statics
  cases moves with
  | preloadFrame pc => exact absurd pc running.1
  | preloadDone pc => exact absurd pc running.1
  | finish pc => exact absurd pc notReadLoop
  | readWait pc => exact absurd pc notReadLoop
  | underrun pc => exact absurd pc notReadLoop
  | readFrame pc => exact absurd pc notReadLoop
  | fillRemainder index pc =>
      refine ⟨rfl, ?_, handed_fill_call rfl, Or.inl ?_⟩
      · dsimp only
        split <;> exact ⟨Pc.noConfusion, Pc.noConfusion⟩
      · dsimp only
        rw [pc]
        split
        next => simp only [stage, raspdifBufferCount, raspdifBufferSize] at *; omega
        next notFull =>
          have less := slotsLeft_bufferFill notFull
          simp only [stage]
          omega
  | fillWait index count pc more here =>
      refine ⟨rfl, running, rfl, Or.inr ⟨rfl, ?_⟩⟩
      rw [waitsFor, pc]
      exact here
  | fillEnter index count pc more away =>
      refine ⟨rfl, ⟨Pc.noConfusion, Pc.noConfusion⟩, rfl, Or.inl ?_⟩
      dsimp only
      rw [pc]
      simp only [stage, raspdifBufferCount, raspdifBufferSize] at *
      omega
  | fillReturn index count pc all =>
      refine ⟨rfl, ⟨Pc.noConfusion, Pc.noConfusion⟩, rfl, Or.inl ?_⟩
      dsimp only
      rw [pc]
      simp only [stage]
      omega
  | fillBuffer index count pc =>
      refine ⟨rfl, ?_, handed_fill_call rfl, Or.inl ?_⟩
      · dsimp only
        split <;> exact ⟨Pc.noConfusion, Pc.noConfusion⟩
      · dsimp only
        rw [pc]
        split
        next => simp only [stage]; omega
        next notFull =>
          have less := slotsLeft_bufferFill notFull
          simp only [stage]
          omega
  | poll pc =>
      refine ⟨rfl, ⟨Pc.noConfusion, Pc.noConfusion⟩, rfl, Or.inl ?_⟩
      dsimp only
      rw [pc]
      exact Nat.lt_succ_self 1

/-! ## The end of the input -/

/-- The indicator is set by a read that has met the end. -/
structure AtEnd (s : Main) : Prop where
  eof : s.file.eof = true → s.file.closed = true ∧ s.file.pending = []
  finished : s.pc = .finished → s.file.eof = true

theorem AtEnd.afterRead (atEnd : AtEnd s) (setup : Setup)
    (eof : (s.fread setup).file.eof = true) :
    (s.fread setup).file.closed = true ∧ (s.fread setup).file.pending = [] := by
  rcases Bool.or_eq_true_iff.mp eof with before | here
  · obtain ⟨closed, empty⟩ := atEnd.eof before
    refine ⟨closed, ?_⟩
    change s.file.pending.drop _ = []
    rw [empty, List.drop_nil]
  · obtain ⟨closed, short⟩ := Bool.and_eq_true_iff.mp here
    exact ⟨closed, List.drop_of_length_le (decide_eq_true_iff.mp short).le⟩

theorem AtEnd.moves (atEnd : AtEnd s) (moves : s.Moves setup answers s' events) : AtEnd s' := by
  cases moves with
  | preloadFrame pc =>
      exact ⟨atEnd.afterRead setup, fun ended => absurd (pc.symm.trans ended) Pc.noConfusion⟩
  | preloadDone => exact ⟨atEnd.afterRead setup, nofun⟩
  | finish pc eof => exact ⟨atEnd.eof, fun _ => eof⟩
  | readWait => exact atEnd
  | underrun => exact ⟨atEnd.afterRead setup, nofun⟩
  | readFrame pc =>
      exact ⟨atEnd.afterRead setup, fun ended => absurd (pc.symm.trans ended) Pc.noConfusion⟩
  | fillRemainder | fillBuffer =>
      refine ⟨atEnd.eof, fun ended => ?_⟩
      dsimp only at ended
      split at ended <;> cases ended
  | fillWait => exact atEnd
  | fillEnter | fillReturn | poll => exact ⟨atEnd.eof, nofun⟩

theorem AtEnd.step (atEnd : AtEnd s) (setup : Setup) (outside : Outside) :
    AtEnd (round setup s outside).1 := by
  have arrived : AtEnd (arrive s outside) := by
    unfold arrive
    split
    next => exact atEnd
    next opened =>
      exact ⟨fun eof => absurd (atEnd.eof eof).1 opened, atEnd.finished⟩
  rcases round_cases setup s outside with ⟨-, stays⟩ | ⟨s', events, moves, goes⟩
  · rw [stays]
    exact arrived
  · rw [goes]
    exact arrived.moves moves

/-- What the reads of a closed file have still to do. -/
def unread (file : File) : Nat := file.pending.length + if file.eof then 0 else 1

theorem fread_pending_le (s : Main) (setup : Setup) :
    (s.fread setup).file.pending.length ≤ s.file.pending.length := by
  change (s.file.pending.drop _).length ≤ _
  rw [List.length_drop]
  exact Nat.sub_le _ _

theorem unread_le (s : Main) (setup : Setup) : unread (s.fread setup).file ≤ unread s.file := by
  have shorter := fread_pending_le s setup
  have kept : s.file.eof = true → (s.fread setup).file.eof = true := fun eof =>
    Bool.or_eq_true_iff.mpr (Or.inl eof)
  unfold unread
  split
  next => omega
  next notYet =>
    rw [if_neg (mt kept notYet)]
    omega

/-- A read that meets the end of a closed file. -/
theorem fread_eof (closed : s.file.closed = true)
    (short : ¬ setup.format.frameSize ≤ s.file.pending.length) :
    (s.fread setup).file.eof = true :=
  Bool.or_eq_true_iff.mpr
    (Or.inr (Bool.and_eq_true_iff.mpr ⟨closed, decide_eq_true (Nat.not_le.mp short)⟩))

/-- A read at the end of the input takes something or sets the indicator. -/
theorem unread_lt (setup : Setup) (closed : s.file.closed = true) (noEof : s.file.eof = false) :
    unread (s.fread setup).file < unread s.file := by
  have pos := setup.format.frameSize_pos
  have shorter := fread_pending_le s setup
  by_cases long : setup.format.frameSize ≤ s.file.pending.length
  · rw [(Main.fread_of_long long).2.2]
    unfold unread
    dsimp only
    rw [List.length_drop]
    omega
  · unfold unread
    rw [fread_eof closed long, noEof]
    exact Nat.lt_succ_of_le shorter

def remaining (s : Main) : Nat := stage s.statics s.pc + unread s.file

/-- Once the input has ended, a step waits or lowers what remains. -/
theorem remaining_moves (atEnd : AtEnd s) (closed : s.file.closed = true)
    (moves : s.Moves setup answers s' events) :
    remaining s' < remaining s ∨ s' = s ∧ answers.conblkAd = setup.controlBlock (waitsFor s) := by
  by_cases preload : s.pc = .preload
  · refine Or.inl ?_
    unfold remaining
    cases moves with
    | preloadFrame _ _ items =>
        have noEof : s.file.eof = false := by
          refine Bool.eq_false_iff.mpr fun eof => ?_
          have none : (s.fread setup).items = 0 := by
            rw [Main.fread, File.fread]
            dsimp only
            rw [(atEnd.eof eof).2, List.take_nil]
            exact Nat.zero_div _
          rw [none] at items
          exact Nat.lt_irrefl 0 items
        have less := unread_lt setup closed noEof
        change stage _ s.pc + unread (s.fread setup).file < _
        rw [preload]
        simp only [stage]
        omega
    | preloadDone =>
        have less := unread_le s setup
        change 1 + unread (s.fread setup).file < _
        rw [preload]
        simp only [stage]
        omega
    | finish pc | readWait pc | underrun pc | readFrame pc | fillRemainder _ pc
    | fillWait _ _ pc | fillEnter _ _ pc | fillReturn _ _ pc | fillBuffer _ _ pc | poll pc =>
        rw [preload] at pc
        cases pc
  · by_cases readLoop : s.pc = .readLoop
    · cases moves with
      | finish =>
          refine Or.inl ?_
          unfold remaining
          dsimp only
          rw [readLoop]
          simp only [stage]
          omega
      | readWait _ _ here =>
          refine Or.inr ⟨rfl, ?_⟩
          rw [waitsFor, readLoop]
          exact here
      | underrun _ _ short noEof =>
          -- Behind the end of the input a short read sets the indicator.
          have long : setup.format.frameSize ≤ s.file.pending.length := by
            by_contra few
            exact Bool.eq_false_iff.mp noEof (fread_eof closed few)
          exact absurd (Main.fread_of_long long).2.1 short
      | readFrame _ noEof =>
          have less := unread_lt setup closed noEof
          refine Or.inl ?_
          unfold remaining
          change stage _ s.pc + unread (s.fread setup).file < _
          rw [readLoop]
          simp only [stage]
          omega
      | preloadFrame pc | preloadDone pc | fillRemainder _ pc
      | fillWait _ _ pc | fillEnter _ _ pc | fillReturn _ _ pc | fillBuffer _ _ pc | poll pc =>
          rw [readLoop] at pc
          cases pc
    · have notFinished : s.pc ≠ .finished := pc_ne_finished moves
      have fill := FillMove.of_moves moves ⟨preload, notFinished⟩ readLoop
      rcases fill.progress with lower | waits
      · refine Or.inl ?_
        unfold remaining
        rw [fill.file]
        omega
      · exact Or.inr waits

end

/-! ## The rounds of the process -/

/-- The answer to `outside`. -/
def EnvCall.outside? : (call : EnvCall) → call.Answer → List Outside
  | .outside, arrived => [arrived]
  | _, _ => []

/-- What the outside has answered, round by round. -/
def outsides (trace : List EnvEvent) : List Outside :=
  trace.flatMap fun e => e.op.outside? e.answer

/-- The contract that only so many rounds are made. -/
def roundsContract (few : List Outside → Prop) : Contract Globals (List Outside) environment where
  record answered e := answered ++ e.op.outside? e.answer
  promised _ := True
  during answered _ := few answered
  exited _ _ := True
  failed _ _ := True

/-- The program makes no round. -/
structure Unnoticed {α : Type} (p : Prog α) : Prop where
  meets : ∀ {few : List Outside → Prop} {post : α → List Outside → Globals → Prop}
    {answered : List Outside} {g : Globals}, few answered → (∀ value g, post value answered g) →
    p.Meets (roundsContract few) post answered g

section

variable {α β : Type} {p : Prog α}

theorem Unnoticed.bind {next : α → Prog β} (first : Unnoticed p)
    (then_ : ∀ value, Unnoticed (next value)) : Unnoticed (p >>= next) where
  meets here met := meets_bind.mpr (first.meets here fun value _ => (then_ value).meets here met)

theorem Unnoticed.when {P : Prop} [Decidable P] {p : Prog Unit} (quiet : Unnoticed p) :
    Unnoticed (Program.when P p) where
  meets here met := meets_when.mpr ⟨fun _ => quiet.meets here met, fun _ => met () _⟩

theorem Unnoticed.pure (value : α) : Unnoticed (Pure.pure value : Prog α) where
  meets _ met := met value _

theorem unnoticed_exit : Unnoticed (.exit : Prog α) where
  meets here _ := ⟨here, trivial⟩

theorem unnoticed_fail : Unnoticed (.fail : Prog α) where
  meets here _ := ⟨here, trivial⟩

theorem unnoticed_getState : Unnoticed (Program.getState : Prog Globals) where
  meets here met := ⟨here, met _ _⟩

theorem unnoticed_assert (P : Prop) [Decidable P] : Unnoticed (Program.assert P : Prog Unit) := by
  unfold Program.assert
  split
  next => exact .pure ()
  next => exact unnoticed_fail

theorem unnoticed_ask {call : EnvCall} (other : ∀ answer, call.outside? answer = []) :
    Unnoticed (ask call) where
  meets {few post answered g} here met := by
    refine meets_perform.mpr ⟨here, fun answer _ => ?_⟩
    change post answer (answered ++ call.outside? answer) g
    rw [other, List.append_nil]
    exact met answer g

theorem unnoticed_pcmStores (stores : List PcmStore) : Unnoticed (pcmStores stores) := by
  induction stores with
  | nil => exact .pure ()
  | cons store stores ih =>
      exact Unnoticed.bind (p := ask (.pcm store)) (unnoticed_ask fun _ => rfl) fun _ => ih

theorem unnoticed_logPrint (level : LogLevel) : Unnoticed (logPrint level) := by
  refine unnoticed_getState.bind fun g => ?_
  split
  next => exact .pure ()
  next =>
    split
    next => exact unnoticed_exit
    next => exact .pure ()

theorem unnoticed_microsleep (microseconds : BitVec 32) : Unnoticed (microsleep microseconds) := by
  unfold microsleep
  split
  next => exact unnoticed_ask fun _ => rfl
  next => exact unnoticed_fail

theorem unnoticed_bcm283xDmaGetChannel (channel : Nat) :
    Unnoticed (bcm283xDmaGetChannel channel) :=
  unnoticed_getState.bind fun _ => (unnoticed_assert _).bind fun _ => unnoticed_assert _

theorem unnoticed_testPosition (setup : Setup) (rate : ℚ) (answers : Answers)
    (index : Option Nat) : Unnoticed (testPosition setup rate answers index) := by
  cases index with
  | none => exact .pure ()
  | some index =>
      refine unnoticed_getState.bind fun g => ?_
      refine (unnoticed_bcm283xDmaGetChannel _).bind fun _ => .when ?_
      cases perSample rate (bufferDelay rate) with
      | some microseconds => exact unnoticed_microsleep microseconds
      | none => exact (unnoticed_ask fun _ => rfl).bind unnoticed_microsleep

theorem unnoticed_stepCalls (pcmDisable : Bool) (pc next : Pc) :
    Unnoticed (stepCalls pcmDisable pc next) := by
  have pcmEnable (transmit receive : Bool) : Unnoticed (bcm283xPcmEnable transmit receive) :=
    unnoticed_pcmStores _
  have log := unnoticed_logPrint
  refine (Unnoticed.when ?_).bind fun _ => .when ?_
  · refine (log _).bind fun _ => unnoticed_getState.bind fun g => ?_
    refine ((unnoticed_bcm283xDmaGetChannel _).bind fun _ => unnoticed_ask fun _ => rfl).bind
      fun _ => ?_
    exact (pcmEnable _ _).bind fun _ => unnoticed_ask fun _ => rfl
  · refine (Unnoticed.when ((pcmEnable _ _).bind fun _ => log _)).bind fun _ => ?_
    refine (unnoticed_ask fun _ => rfl).bind fun _ => ?_
    exact (Unnoticed.when ((pcmEnable _ _).bind fun _ => log _)).bind fun _ => log _

end

section

variable {setup : Setup} {start s : Main} {outside : Nat → Outside} {n last : Nat}

/-- Up to now the outside has answered as it was said to. -/
def Follows (outside : Nat → Outside) (answered : List Outside) : Prop :=
  answered = (List.range answered.length).map outside

theorem Follows.left {answered : List Outside} {next : Outside}
    (follows : Follows outside (answered ++ [next])) :
    Follows outside answered ∧ next = outside answered.length := by
  unfold Follows at *
  rw [List.length_append, List.length_singleton, List.range_succ, List.map_append] at follows
  exact ⟨List.append_inj_left' follows rfl,
    List.singleton_inj.mp (List.append_inj_right' follows rfl)⟩

/-- The loops make no more rounds than they need. -/
theorem meets_stream (ended : (rounds setup start outside n).pc = .finished)
    (arguments : RaspdifArguments) (most : Nat) {answered : List Outside} {g : Globals}
    (stands : Follows outside answered →
      answered.length ≤ n ∧ s = rounds setup start outside answered.length) :
    (stream setup arguments most s).Meets
      (roundsContract fun answered => Follows outside answered → answered.length ≤ n)
      (fun _ answered _ => Follows outside answered → answered.length ≤ n) answered g := by
  induction most generalizing s answered g with
  | zero => exact fun follows => (stands follows).1
  | succ most ih =>
      refine meets_ite.mpr ⟨fun _ follows => (stands follows).1, fun running => ?_⟩
      refine meets_bind.mpr (meets_perform.mpr
        ⟨fun follows => (stands follows).1, fun next _ => ?_⟩)
      change Program.Meets _ _ _ (answered ++ [next]) g
      have moved : Follows outside (answered ++ [next]) →
          (answered ++ [next]).length ≤ n ∧
            (round setup s next).1 = rounds setup start outside (answered ++ [next]).length := by
        intro follows
        obtain ⟨before, rfl⟩ := follows.left
        obtain ⟨few, rfl⟩ := stands before
        rw [List.length_append, List.length_singleton]
        refine ⟨Nat.lt_of_le_of_ne few ?_, rfl⟩
        intro all
        rw [all] at running
        exact running ended
      have few : Follows outside (answered ++ [next]) → (answered ++ [next]).length ≤ n :=
        fun follows => (moved follows).1
      refine meets_bind.mpr ((unnoticed_testPosition ..).meets few fun _ g => ?_)
      unfold round at moved
      generalize (arrive s next).step setup next.answers = step at moved ⊢
      cases step with
      | none => exact ih moved
      | some result =>
          exact meets_bind.mpr ((unnoticed_stepCalls ..).meets few fun _ g => ih moved)

theorem outsides_eq (trace : List EnvEvent) (answered : List Outside)
    (few : List Outside → Prop) :
    trace.foldl (roundsContract few).record answered = answered ++ outsides trace := by
  induction trace generalizing answered with
  | nil => exact (List.append_nil _).symm
  | cons e trace ih =>
      rw [List.foldl_cons, ih]
      exact List.append_assoc ..

/-! ## Termination -/

theorem rounds_closed (opened : start.file.closed = false)
    (open_ : ∀ k < last, (outside k).closed = false) (closes : (outside last).closed = true) :
    (rounds setup start outside n).file.closed = decide (last < n) := by
  induction n with
  | zero => exact opened
  | succ n ih =>
      rw [rounds, (fed_round ..).2, ih]
      rcases Nat.lt_trichotomy n last with before | rfl | after
      · rw [open_ n before, decide_eq_false (by omega), decide_eq_false (by omega), Bool.or_false]
      · rw [closes, Bool.or_true, decide_eq_true (Nat.lt_succ_self n)]
      · rw [decide_eq_true after, decide_eq_true (by omega), Bool.true_or]

theorem fed_rounds (setup : Setup) (start : Main) (outside : Nat → Outside) (n : Nat) :
    (reads (recorded setup start outside n)).flatten ++
        (rounds setup start outside n).file.pending =
      start.file.pending ++ arrivals setup start outside n := by
  induction n with
  | zero => exact (List.append_nil _).symm
  | succ n ih =>
      rw [recorded, rounds, arrivals, reads_append, List.flatten_append, List.append_assoc,
        (fed_round ..).1, ← List.append_assoc, ih, List.append_assoc]

theorem arrivals_eq (opened : start.file.closed = false)
    (open_ : ∀ k < last, (outside k).closed = false) (closes : (outside last).closed = true)
    (n : Nat) :
    arrivals setup start outside n =
      (List.range (min n (last + 1))).flatMap fun k => (outside k).bytes := by
  induction n with
  | zero => rw [Nat.zero_min]; rfl
  | succ n ih =>
      rw [arrivals, ih, rounds_closed opened open_ closes]
      by_cases after : last < n
      · rw [decide_eq_true after, if_pos rfl, List.append_nil,
          Nat.min_eq_right (Nat.succ_le_of_lt after), Nat.min_eq_right (by omega)]
      · rw [decide_eq_false after, if_neg (by decide), Nat.min_eq_left (by omega),
          Nat.min_eq_left (by omega), List.range_succ, List.flatMap_append, List.flatMap_singleton]

theorem atEnd_rounds (setup : Setup) (outside : Nat → Outside) (atEnd : AtEnd start) (n : Nat) :
    AtEnd (rounds setup start outside n) := by
  induction n with
  | zero => exact atEnd
  | succ n ih => exact ih.step setup (outside n)

/-- Once the input has ended, the program ends. -/
theorem advances_closed (atEnd : AtEnd start) :
    Advances (rounds setup start outside) remaining waitsFor
      (fun index n => (outside n).answers.conblkAd ≠ setup.controlBlock index)
      (fun n => (rounds setup start outside n).file.closed = true)
      (fun n => (rounds setup start outside n).pc = .finished) := by
  refine ⟨fun n closed => ?_⟩
  have here := atEnd_rounds setup outside atEnd n
  have still := (fed_round setup (rounds setup start outside n) (outside n)).2
  rw [closed, Bool.true_or] at still
  have arrived : arrive (rounds setup start outside n) (outside n) = rounds setup start outside n :=
    arrive_eq_of_closed closed
  rcases round_cases setup (rounds setup start outside n) (outside n) with
    ⟨stuck, -⟩ | ⟨s', events, moves, goes⟩
  · rw [arrived] at stuck
    rcases Main.step_eq_none stuck with ended | ⟨-, waits⟩
    · exact Or.inl ended
    · exact absurd (Or.inr closed) waits
  · rw [arrived] at moves
    have next : rounds setup start outside (n + 1) = s' := congrArg Prod.fst goes
    refine Or.inr ⟨still, ?_⟩
    rw [next]
    rcases remaining_moves here closed moves with lower | ⟨rfl, waits⟩
    · exact Or.inl lower
    · exact Or.inr ⟨rfl, rfl, fun away => away waits⟩

/-- When the input comes to an end and the DMA keeps moving, `main` gets to the end of its
loops, with every byte of the input read; the process makes no round beyond that. -/
theorem main_terminates (setup : Setup) (buffers : Nat → RaspdifBuffer)
    (outside : Nat → Outside) (last : Nat) (moving : KeepsMoving setup outside)
    (open_ : ∀ k < last, (outside k).closed = false) (closes : (outside last).closed = true) :
    ∃ n, (rounds setup (Main.start buffers) outside n).pc = .finished ∧
      (reads (recorded setup (Main.start buffers) outside n)).flatten =
        ((List.range (last + 1)).flatMap fun k => (outside k).bytes) ∧
      ∀ arguments most g trace point,
        Run Point.Step ⟨g, stream setup arguments most (Main.start buffers)⟩ trace point →
        Follows outside (outsides trace) → (outsides trace).length ≤ n := by
  have atEnd : AtEnd (Main.start buffers) := ⟨fun eof => absurd eof Bool.false_ne_true, nofun⟩
  have closed (n : Nat) :
      (rounds setup (Main.start buffers) outside n).file.closed = decide (last < n) :=
    rounds_closed rfl open_ closes
  obtain ⟨n, -, ended⟩ := (advances_closed atEnd).eventually moving
    ((closed (last + 1)).trans (decide_eq_true (Nat.lt_succ_self last)))
  have there := atEnd_rounds setup outside atEnd n
  obtain ⟨isClosed, empty⟩ := there.eof (there.finished ended)
  rw [closed, decide_eq_true_iff] at isClosed
  refine ⟨n, ended, ?_, fun arguments most g trace point run follows => ?_⟩
  · have fed := fed_rounds setup (Main.start buffers) outside n
    rw [empty, List.append_nil, arrivals_eq rfl open_ closes,
      Nat.min_eq_right (Nat.succ_le_of_lt isClosed)] at fed
    exact fed
  · have starts : Follows outside [] → ([] : List Outside).length ≤ n ∧
        Main.start buffers = rounds setup (Main.start buffers) outside 0 :=
      fun _ => ⟨Nat.zero_le n, rfl⟩
    have met := (meets_stream ended arguments most (g := g) starts).run run fun _ _ => trivial
    have during := met.during fun _ _ _ few => few
    rw [outsides_eq, List.nil_append] at during
    exact during follows

/-! ## No input is starved -/

theorem exists_arrive_file (s : Main) (outside : Outside) :
    ∃ file : File, arrive s outside = { s with file := file } ∧
      s.file.pending <+: file.pending ∧ file.eof = s.file.eof := by
  unfold arrive
  split
  next => exact ⟨s.file, rfl, List.prefix_refl _, rfl⟩
  next => exact ⟨_, rfl, List.prefix_append _ _, rfl⟩

/-- These bytes are the next to be read, and nothing was handed over meanwhile. -/
structure Waiting (bytes : List UInt8) (s : Main) (events : List Event) : Prop where
  pending : bytes <+: s.file.pending
  noEof : s.file.eof = false
  running : s.pc ≠ .preload ∧ s.pc ≠ .finished
  nothing : handed events = []

/-- A round waits, gets nearer to the next read, or is it. -/
theorem Waiting.step {bytes : List UInt8} {events : List Event} (waiting : Waiting bytes s events)
    (setup : Setup) (outside : Outside) :
    s.pc = .readLoop ∧ outside.answers.conblkAd ≠ setup.controlBlock s.bufferIndex ∨
      Waiting bytes (round setup s outside).1 (events ++ (round setup s outside).2) ∧
        (stage (round setup s outside).1.statics (round setup s outside).1.pc <
            stage s.statics s.pc ∨
          (round setup s outside).1 = arrive s outside ∧
            outside.answers.conblkAd = setup.controlBlock (waitsFor s)) := by
  obtain ⟨file, same, more, eof⟩ := exists_arrive_file s outside
  have noEof : file.eof = false := eof.trans waiting.noEof
  rcases round_cases setup s outside with ⟨stuck, -⟩ | ⟨s', made, moves, goes⟩
  · rw [same] at stuck
    rcases Main.step_eq_none stuck with ended | ⟨preload, -⟩
    · exact absurd ended waiting.running.2
    · exact absurd preload waiting.running.1
  · rw [goes, same]
    rw [same] at moves
    have goesOn (kept : s'.file = file) (running : s'.pc ≠ .preload ∧ s'.pc ≠ .finished)
        (nothing : handed made = []) : Waiting bytes s' (events ++ made) := by
      refine ⟨?_, ?_, running, ?_⟩
      · rw [kept]
        exact waiting.pending.trans more
      · rw [kept, noEof]
      · rw [handed_append, waiting.nothing, nothing]
        rfl
    by_cases readLoop : s.pc = .readLoop
    · by_cases here : outside.answers.conblkAd = setup.controlBlock s.bufferIndex
      · refine Or.inr ?_
        cases moves with
        | readWait =>
            refine ⟨goesOn rfl waiting.running rfl, Or.inr ⟨rfl, ?_⟩⟩
            rw [waitsFor, readLoop]
            exact here
        | finish _ eof => exact absurd eof (Bool.eq_false_iff.mp noEof)
        | underrun _ away | readFrame _ _ away => exact absurd here away
        | preloadFrame pc | preloadDone pc | fillRemainder _ pc | fillWait _ _ pc
        | fillEnter _ _ pc | fillReturn _ _ pc | fillBuffer _ _ pc | poll pc =>
            cases readLoop.symm.trans pc
      · exact Or.inl ⟨readLoop, here⟩
    · have fill := FillMove.of_moves moves waiting.running readLoop
      exact Or.inr ⟨goesOn fill.file fill.running fill.nothing, fill.progress⟩

/-- Where the frame is not read yet, a step waits or gets nearer to reading it. -/
theorem advances_waiting (setup : Setup) (start : Main) (outside : Nat → Outside)
    (bytes : List UInt8) :
    Advances (rounds setup start outside) (fun s => stage s.statics s.pc) waitsFor
      (fun index n => (outside n).answers.conblkAd ≠ setup.controlBlock index)
      (fun n => Waiting bytes (rounds setup start outside n) (recorded setup start outside n))
      (fun n => Waiting bytes (rounds setup start outside n) (recorded setup start outside n) ∧
        (rounds setup start outside n).pc = .readLoop ∧
        (outside n).answers.conblkAd ≠
          setup.controlBlock (rounds setup start outside n).bufferIndex) := by
  refine ⟨fun n waiting => ?_⟩
  rcases waiting.step setup (outside n) with reads | ⟨still, lower | ⟨stays, waits⟩⟩
  · exact Or.inl ⟨waiting, reads⟩
  · exact Or.inr ⟨still, Or.inl lower⟩
  · obtain ⟨file, same, -⟩ := exists_arrive_file (rounds setup start outside n) (outside n)
    have next : rounds setup start outside (n + 1) =
        { rounds setup start outside n with file := file } := stays.trans same
    refine Or.inr ⟨still, Or.inr ⟨?_, ?_, fun away => away waits⟩⟩
    · rw [next]
    · rw [next]
      rfl

/-- The round that reads. -/
theorem Waiting.read {bytes : List UInt8} {events : List Event} {outside : Outside}
    (waiting : Waiting bytes s events) (readLoop : s.pc = .readLoop)
    (away : outside.answers.conblkAd ≠ setup.controlBlock s.bufferIndex)
    (whole : setup.format.frameSize ≤ bytes.length) :
    Waiting (bytes.drop setup.format.frameSize) (round setup s outside).1 [] ∧
      handed (round setup s outside).2 =
        [setup.format.parseFrame (bytes.take setup.format.frameSize)] := by
  obtain ⟨file, same, more, eof⟩ := exists_arrive_file s outside
  have noEof : file.eof = false := eof.trans waiting.noEof
  obtain ⟨rest, all⟩ := waiting.pending.trans more
  have long : setup.format.frameSize ≤ file.pending.length := by
    rw [← all, List.length_append]
    omega
  have read := Main.fread_of_long (s := { s with file := file }) long
  have first : file.pending.take setup.format.frameSize = bytes.take setup.format.frameSize := by
    rw [← all, List.take_append_of_le_length whole]
  have left : file.pending.drop setup.format.frameSize =
      bytes.drop setup.format.frameSize ++ rest := by
    rw [← all, List.drop_append_of_le_length whole]
  rcases round_cases setup s outside with ⟨stuck, -⟩ | ⟨s', made, moves, goes⟩
  · rw [same] at stuck
    rcases Main.step_eq_none stuck with ended | ⟨preload, -⟩
    · exact absurd ended waiting.running.2
    · exact absurd preload waiting.running.1
  · rw [goes]
    rw [same] at moves
    cases moves with
    | readFrame =>
        have parsed := Main.parseFrame_afterRead read.1
        refine ⟨⟨?_, ?_, waiting.running, rfl⟩, ?_⟩
        · change bytes.drop _ <+: (Main.fread { s with file := file } setup).file.pending
          rw [read.2.2, left]
          exact List.prefix_append _ _
        · change (Main.fread { s with file := file } setup).file.eof = false
          rw [read.2.2]
          exact noEof
        · rw [handed_read_call rfl, ← first]
          exact congrArg (fun frame => [frame]) parsed
    | finish _ eof => exact absurd eof (Bool.eq_false_iff.mp noEof)
    | readWait _ _ here => exact absurd here away
    | underrun _ _ short => exact absurd read.2.1 short
    | preloadFrame pc | preloadDone pc | fillRemainder _ pc | fillWait _ _ pc
    | fillEnter _ _ pc | fillReturn _ _ pc | fillBuffer _ _ pc | poll pc =>
        cases readLoop.symm.trans pc

theorem Waiting.exists_handed {bytes : List UInt8} (waiting : Waiting bytes s [])
    (moving : KeepsMoving setup outside) :
    ∃ n, handed (recorded setup s outside n) = setup.format.frames bytes := by
  generalize size : bytes.length = length
  induction length using Nat.strongRecOn generalizing bytes s outside with
  | ind length ih =>
      by_cases whole : setup.format.frameSize ≤ bytes.length
      · obtain ⟨n, -, still, readLoop, away⟩ :=
          (advances_waiting setup s outside bytes).eventually moving (n := 0) waiting
        obtain ⟨next, first⟩ := still.read readLoop away whole
        have pos := setup.format.frameSize_pos
        have shorter : (bytes.drop setup.format.frameSize).length < length := by
          rw [List.length_drop]
          omega
        obtain ⟨m, rest⟩ := ih _ shorter next (moving.later (n + 1)) rfl
        have split := RaspdifFormat.frames_append (List.length_take_of_le whole)
          (bytes.drop setup.format.frameSize)
        rw [List.take_append_drop] at split
        refine ⟨n + 1 + m, ?_⟩
        rw [recorded_add, handed_append, recorded, handed_append, still.nothing, first, split]
        exact congrArg _ rest
      · refine ⟨0, ?_⟩
        rw [RaspdifFormat.frames, Nat.div_eq_of_lt (Nat.not_le.mp whole)]
        rfl

/-- As long as the DMA keeps moving, every whole frame that is pending at some moment is handed
over to the encoder, in order and with nothing else in between. -/
theorem input_not_starved (setup : Setup) (s : Main) (outside : Nat → Outside)
    (moving : KeepsMoving setup outside) (noEof : s.file.eof = false)
    (running : s.pc ≠ .preload ∧ s.pc ≠ .finished) :
    ∃ n, handed (recorded setup s outside n) = setup.format.frames s.file.pending :=
  Waiting.exists_handed ⟨List.prefix_refl _, noEof, running, rfl⟩ moving

end

/-! ## An input behind the preload -/

/-- The DMA goes round its three control blocks.  The first bytes arrive at once, a frame and a
part of the next after 7000 rounds, and the end of the input after 9000. -/
def cycling (first : List UInt8) (k : Nat) : Outside where
  bytes := if k = 0 then first else if k = 7000 then [1, 0, 2, 0, 3] else []
  closed := decide (k = 9000)
  answers := ⟨Setup.s16le.controlBlock (k % 3), 0, 0⟩

section

variable {first : List UInt8}

theorem cycling_moving (first : List UInt8) : KeepsMoving .s16le (cycling first) := by
  intro index n
  by_cases here : (cycling first n).answers.conblkAd = Setup.s16le.controlBlock index
  · refine ⟨n + 1, Nat.le_succ n, fun still => ?_⟩
    have turned : n % 3 ≠ (n + 1) % 3 := by omega
    have inRing (k : Nat) : k % 3 < raspdifBufferCount := Nat.mod_lt k (by decide)
    exact turned ((Setup.s16le.controlBlock_inj (inRing _) (inRing _)).mp (here.trans still.symm))
  · exact ⟨n, Nat.le_refl n, here⟩

theorem cycling_bytes {k : Nat} (later : 0 < k) (other : k ≠ 7000) :
    (cycling first k).bytes = [] := by
  change ite _ _ (ite _ _ _) = _
  rw [if_neg later.ne', if_neg other]

/-- Before anything else arrives. -/
theorem arrive_cycling {s : Main} {k : Nat} (later : 0 < k) (early : k < 7000)
    (opened : s.file.closed = false) : arrive s (cycling first k) = s := by
  have closed : (cycling first k).closed = false := decide_eq_false (by omega)
  rw [arrive, if_neg (by rw [opened]; exact Bool.false_ne_true), cycling_bytes later early.ne,
    closed, List.append_nil, ← opened]

theorem round_of_moves {setup : Setup} {s here s' : Main} {outside : Outside} {events : List Event}
    (arrives : arrive s outside = here) (moves : here.Moves setup outside.answers s' events) :
    round setup s outside = (s', events) := by
  rw [round, arrives, Main.step_of_moves _ _ moves]

/-- The rounds of the preload. -/
theorem exists_preloading {count : Nat} (enough : 4 * (ringSize + 1) ≤ first.length)
    (room : count ≤ ringSize) : ∃ trace s,
      arrive (rounds .s16le (Main.start fun _ => .zero) (cycling first) count)
        (cycling first count) = s ∧
      Run (Main.Step .s16le) (Main.start fun _ => .zero) trace s ∧ s.pc = .preload ∧
      (calls trace).length = count ∧ s.file = ⟨first.drop (4 * count), false, false⟩ := by
  induction count with
  | zero => exact ⟨_, _, rfl, .single (.deliver first rfl), rfl, rfl, rfl⟩
  | succ count ih =>
      obtain ⟨trace, s, arrives, run, pc, made, file⟩ := ih (by omega)
      have long : Setup.s16le.format.frameSize ≤ s.file.pending.length := by
        rw [file, List.length_drop]
        change 4 ≤ _
        omega
      obtain ⟨-, items, left⟩ := Main.fread_of_long long
      have here : s.bufferIndex < raspdifBufferCount := by
        have control := (Cursor.of_run run).control
        rw [pc, made] at control
        rw [control.2.1]
        exact Nat.div_lt_of_lt_mul (by rw [Nat.mul_comm]; exact room)
      have moves : s.Moves .s16le (cycling first count).answers _ _ :=
        .preloadFrame pc (Or.inl long) (by omega) here
      have next := round_of_moves arrives moves
      have drop : (s.fread .s16le).file = ⟨first.drop (4 * (count + 1)), false, false⟩ := by
        rw [left, file, List.drop_drop]
        rfl
      refine ⟨_, _, ?_, run.snoc (.cpu _ (Main.step_of_moves _ _ moves)), pc, ?_, drop⟩
      · rw [rounds, next]
        refine arrive_cycling (Nat.zero_lt_succ _) ?_ ?_
        · simp only [ringSize, raspdifBufferCount, raspdifBufferSize] at room
          omega
        · change (s.fread .s16le).file.closed = false
          rw [drop]
      · rw [calls_append, List.length_append, made]
        rfl

/-- Behind the preload nothing is pending. -/
theorem preload_left (enough : first.length = 4 * (ringSize + 1)) :
    (rounds .s16le (Main.start fun _ => .zero) (cycling first) (ringSize + 1)).pc = .readLoop ∧
      (rounds .s16le (Main.start fun _ => .zero) (cycling first) (ringSize + 1)).bufferIndex = 0 ∧
      (rounds .s16le (Main.start fun _ => .zero) (cycling first) (ringSize + 1)).file =
        ⟨[], false, false⟩ := by
  obtain ⟨trace, s, arrives, run, pc, made, file⟩ :=
    exists_preloading enough.ge (Nat.le_refl ringSize)
  have long : Setup.s16le.format.frameSize ≤ s.file.pending.length := by
    rw [file, List.length_drop, enough]
    change 4 ≤ _
    omega
  obtain ⟨-, items, left⟩ := Main.fread_of_long long
  have complete : raspdifBufferCount ≤ s.bufferIndex := by
    have control := (Cursor.of_run run).control
    rw [pc, made] at control
    rw [control.2.1, ringSize, Nat.mul_div_cancel _ (Nat.zero_lt_succ _)]
  have done : s.Moves .s16le (cycling first ringSize).answers _ _ :=
    .preloadDone pc (Or.inl long) (Or.inr complete)
  have all : first.length ≤ 4 * ringSize + Setup.s16le.format.frameSize := enough.le
  rw [rounds, round_of_moves arrives done]
  refine ⟨rfl, rfl, ?_⟩
  change (s.fread .s16le).file = _
  rw [left, file, List.drop_drop, List.drop_of_length_le all]

/-- Then a read finds nothing, while the DMA is elsewhere. -/
theorem round_of_underrun (first : List UInt8) {s : Main} {k : Nat} (pc : s.pc = .readLoop)
    (index : s.bufferIndex = 0)
    (file : s.file = ⟨[], false, false⟩) (later : 0 < k) (early : k < 7000) (away : k % 3 ≠ 0) :
    (round .s16le s (cycling first k)).1.pc = .fillRemainder 0 ∧
      (round .s16le s (cycling first k)).2 = [.fread []] := by
  have inRing : k % 3 < raspdifBufferCount := Nat.mod_lt k (by decide)
  have nothing : (s.fread .s16le).copied = [] := by
    change s.file.pending.take _ = []
    rw [file, List.take_nil]
  have moves : s.Moves .s16le (cycling first k).answers _ _ :=
    .underrun pc (by rw [index]; exact mt (Setup.s16le.controlBlock_inj inRing (by decide)).mp away)
      (by rw [Ne, Main.items_eq_two_iff, nothing]; decide)
      (by simp [Main.fread, File.fread, file])
  rw [round_of_moves (arrive_cycling later early (by rw [file])) moves, nothing, index]
  exact ⟨rfl, rfl⟩

/-- No round before that ends the loops. -/
theorem not_finished_early (enough : first.length = 4 * (ringSize + 1)) {n : Nat}
    (early : n ≤ ringSize + 1) :
    (rounds .s16le (Main.start fun _ => .zero) (cycling first) n).pc ≠ .finished := by
  rcases Nat.lt_or_eq_of_le early with before | rfl
  · obtain ⟨trace, s, arrives, -, pc, -⟩ :=
      exists_preloading enough.ge (Nat.le_of_lt_succ before)
    rw [← arrives] at pc
    obtain ⟨file, same, -⟩ := exists_arrive_file
      (rounds .s16le (Main.start fun _ => .zero) (cycling first) n) (cycling first n)
    rw [same] at pc
    intro ended
    cases ended.symm.trans pc
  · rw [(preload_left enough).1]
    exact Pc.noConfusion

end

theorem flatMap_range_of_nil {α : Type} {f : Nat → List α} {a : Nat} (b : Nat)
    (none : ∀ k < b, f (a + k) = []) :
    (List.range (a + b)).flatMap f = (List.range a).flatMap f := by
  induction b with
  | zero => rfl
  | succ b ih =>
      rw [← Nat.add_assoc, List.range_succ, List.flatMap_append, List.flatMap_singleton,
        none b (Nat.lt_succ_self b), List.append_nil]
      exact ih fun k before => none k (Nat.lt_succ_of_lt before)

theorem cycling_input (first : List UInt8) :
    ((List.range (9000 + 1)).flatMap fun k => (cycling first k).bytes) =
      first ++ [1, 0, 2, 0, 3] := by
  have late := flatMap_range_of_nil (f := fun k => (cycling first k).bytes) (a := 7001) 2000
    fun k _ => cycling_bytes (by omega) (by omega)
  have early := flatMap_range_of_nil (f := fun k => (cycling first k).bytes) (a := 1) 6999
    fun k before => cycling_bytes (by omega) (by omega)
  have zero : ((List.range 1).flatMap fun k => (cycling first k).bytes) = first :=
    List.append_nil first
  rw [show 9000 + 1 = 7001 + 2000 from rfl, late, List.range_succ, List.flatMap_append,
    show 7000 = 1 + 6999 from rfl, early, zero]
  rfl

/-- `main_terminates` at an input whose preload is followed by an underrun, a frame and a part of
one more, while the DMA goes round. -/
theorem main_terminates_one_frame :
    ∃ n, (rounds .s16le (Main.start fun _ => .zero) (cycling silence) n).pc = .finished ∧
      (reads (recorded .s16le (Main.start fun _ => .zero) (cycling silence) n)).flatten =
        silence ++ [1, 0, 2, 0, 3] ∧
      [] ∈ reads (recorded .s16le (Main.start fun _ => .zero) (cycling silence) n) := by
  obtain ⟨n, ended, read, -⟩ := main_terminates .s16le (fun _ => .zero) (cycling silence) 9000
    (cycling_moving silence) (fun k before => decide_eq_false before.ne) rfl
  rw [cycling_input] at read
  refine ⟨n, ended, read, ?_⟩
  have late : ringSize + 2 ≤ n := by
    by_contra early
    exact not_finished_early length_silence (by omega) ended
  obtain ⟨m, rfl⟩ := Nat.exists_eq_add_of_le late
  obtain ⟨pc, index, file⟩ := preload_left length_silence
  have underrun := (round_of_underrun silence pc index file (Nat.zero_lt_succ ringSize)
    (by decide) (by decide)).2
  rw [recorded_add, recorded, underrun, reads_append, reads_append]
  simp [reads, Event.read?]

/-- `input_not_starved` in the middle of a fill, with two frames and a part of one pending. -/
theorem input_not_starved_one_frame :
    ∃ n, handed (recorded .s16le
      { Main.start (fun _ => .zero) with
        pc := .fillBuffer 1 0
        file := ⟨[1, 0, 2, 0, 3, 0, 4, 0, 5], false, false⟩ }
      (cycling silence) n) = [(1, 2), (3, 4)] :=
  input_not_starved .s16le _ (cycling silence) (cycling_moving silence) rfl
    ⟨Pc.noConfusion, Pc.noConfusion⟩

end Raspdif.Process
