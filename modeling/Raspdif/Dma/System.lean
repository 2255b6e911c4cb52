import Raspdif.Main.Memory

/-!
# The program and the DMA

`raspdif_generate_dma_control_blocks` links one control block for each buffer into a
circle.  The DMA works through a control block, which is one whole buffer, and goes on to
the next one; `CONBLK_AD` holds the address of the block it is at.

A `System` is the program with the DMA.  They take steps in any order, the program's tests
see the address of the DMA's block, and `allow` may bar the DMA from some moves.
-/

namespace Raspdif

open Trace

/-! ## Control blocks -/

/-- The transfer flags that are set. -/
structure DmaTransferInformation where
  waitResp : Bool
  destDreq : Bool
  srcInc : Bool
  permap : BitVec 5
  noWideBursts : Bool
  deriving DecidableEq, Repr

structure DmaControlBlock where
  transferInformation : DmaTransferInformation
  sourceAddress : BitVec 32
  destinationAddress : BitVec 32
  xlength : BitVec 16
  nextControlBlock : BitVec 32
  deriving DecidableEq, Repr

/-- `sizeof(raspdif_buffer_t)`: four words for each sample. -/
abbrev sizeofBuffer : Nat := 16 * raspdifBufferSize

/-- `&raspdif.control.bus->buffers[i]`, behind the control blocks. -/
def Setup.bufferAddress (setup : Setup) (i : Nat) : BitVec 32 :=
  setup.bus + BitVec.ofNat 32 (32 * raspdifBufferCount + sizeofBuffer * i)

/-- `&b_pcm->FIFO_A`. -/
def pcmFifo : BitVec 32 := 0x7E000000 + 0x00203000 + 4

def raspdifGenerateDmaControlBlocks (setup : Setup) (i : Nat) : DmaControlBlock where
  transferInformation :=
    { waitResp := true
      destDreq := true
      srcInc := true
      permap := 2
      noWideBursts := true }
  sourceAddress := setup.bufferAddress i
  destinationAddress := pcmFifo
  xlength := BitVec.ofNat 16 sizeofBuffer
  nextControlBlock := setup.controlBlock ((i + 1) % raspdifBufferCount)

/-- The buffers of the ring have different addresses. -/
theorem Setup.bufferAddress_inj (setup : Setup) {i j : Nat} (first : i < raspdifBufferCount)
    (second : j < raspdifBufferCount) :
    setup.bufferAddress i = setup.bufferAddress j ↔ i = j := by
  rw [Setup.bufferAddress, Setup.bufferAddress, BitVec.add_right_inj, ← BitVec.toNat_inj,
    BitVec.toNat_ofNat, BitVec.toNat_ofNat]
  simp only [sizeofBuffer, raspdifBufferCount, raspdifBufferSize] at *
  omega

/-! ## Steps -/

/-- The program, and the buffer whose control block the DMA is at. -/
structure System where
  main : Main
  dma : Nat

/-- Steps of the program, of its input and of the DMA.  The DMA reads the buffer that its
block has as source and moves to the block that it links to. -/
inductive System.Step (setup : Setup) (allow : Main → Nat → Prop) :
    System → List Event → System → Prop
  | cpu {s : System} {main : Main} {events : List Event} (answers : Answers) :
    answers.conblkAd = setup.controlBlock s.dma →
    s.main.step setup answers = some (main, events) →
    System.Step setup allow s events ⟨main, s.dma⟩
  | deliver {s : System} (bytes : List UInt8) : s.main.file.closed = false →
    System.Step setup allow s [.delivered bytes]
      ⟨{ s.main with file := { s.main.file with pending := s.main.file.pending ++ bytes } }, s.dma⟩
  | close {s : System} :
    System.Step setup allow s [.closed]
      ⟨{ s.main with file := { s.main.file with closed := true } }, s.dma⟩
  | move {s : System} (source next : Nat) : source < raspdifBufferCount →
    next < raspdifBufferCount →
    (raspdifGenerateDmaControlBlocks setup s.dma).sourceAddress = setup.bufferAddress source →
    (raspdifGenerateDmaControlBlocks setup s.dma).nextControlBlock = setup.controlBlock next →
    allow s.main next →
    System.Step setup allow s [.dmaMove s.dma next (s.main.buffers source)] ⟨s.main, next⟩

/-! ## Visits of the DMA -/

/-- The buffer that the DMA comes to. -/
def Event.enters : Event → Option Nat
  | .dmaEnable => some 0
  | .dmaMove _ next _ => some next
  | _ => none

/-- The buffer that the DMA has finished. -/
def Event.leaves : Event → Option Nat
  | .dmaMove left _ _ => some left
  | _ => none

/-- How many visits of a buffer the DMA has begun. -/
def entered (trace : List Event) : Nat := trace.countP fun e => e.enters.isSome

@[simp] theorem entered_append (first second : List Event) :
    entered (first ++ second) = entered first + entered second :=
  List.countP_append

/-- The beginning of visit number `k`. -/
theorem exists_enter (trace : List Event) {k : Nat} (enough : k < entered trace) :
    ∃ before e after i, trace = before ++ e :: after ∧ e.enters = some i ∧
      entered before = k := by
  rcases exists_split_of_lt_countP enough with ⟨before, e, after, split, begins, count⟩
  obtain ⟨i, enters⟩ := Option.isSome_iff_exists.mp begins
  exact ⟨before, e, after, i, split, enters, count⟩

theorem entered_cons {e : Event} {i : Nat} (enters : e.enters = some i) (rest : List Event) :
    entered (e :: rest) = entered rest + 1 :=
  List.countP_cons_of_pos (by rw [enters]; rfl)

/-- The DMA goes round the ring: visit number `n` is one of buffer `n % 3`, and it begins
when the visit before it ends. -/
def VisitOrder (before : List Event) (e : Event) : Prop :=
  ∀ j, e.enters = some j → j = entered before % raspdifBufferCount ∧
    (0 < entered before → e.leaves = some ((entered before + 2) % raspdifBufferCount))

/-- What a step of the system is: one of the program, which sees the DMA where it is, an
arrival of input, or a move of the DMA round the ring. -/
inductive System.Acts (setup : Setup) (allow : Main → Nat → Prop) (s : System) :
    System → List Event → Prop
  | program {main : Main} {events : List Event} (answers : Answers)
    (here : answers.conblkAd = setup.controlBlock s.dma)
    (step : Main.Step setup s.main events main)
    (moves : s.main.Moves setup answers main events) :
    System.Acts setup allow s ⟨main, s.dma⟩ events
  | deliver {file : File} (bytes : List UInt8)
    (step : Main.Step setup s.main [.delivered bytes] { s.main with file := file }) :
    System.Acts setup allow s ⟨{ s.main with file := file }, s.dma⟩ [.delivered bytes]
  | close {file : File} (step : Main.Step setup s.main [.closed] { s.main with file := file }) :
    System.Acts setup allow s ⟨{ s.main with file := file }, s.dma⟩ [.closed]
  | dma (allowed : allow s.main ((s.dma + 1) % raspdifBufferCount)) :
    System.Acts setup allow s ⟨s.main, (s.dma + 1) % raspdifBufferCount⟩
      [.dmaMove s.dma ((s.dma + 1) % raspdifBufferCount) (s.main.buffers s.dma)]

section

variable {setup : Setup} {allow : Main → Nat → Prop} {s s' : System} {trace events : List Event}

theorem System.Step.acts (one : System.Step setup allow s events s')
    (inRing : s.dma < raspdifBufferCount) : s.Acts setup allow s' events := by
  cases one with
  | cpu answers here ran => exact .program answers here (.cpu answers ran) (Main.step_moves ran)
  | deliver bytes opened => exact .deliver bytes (.deliver bytes opened)
  | close => exact .close .close
  | move source next first second reads links allowed =>
      obtain rfl : s.dma = source := (setup.bufferAddress_inj inRing first).mp reads
      obtain rfl := (setup.controlBlock_inj (Nat.mod_lt _ (Nat.zero_lt_succ _)) second).mp links
      exact .dma allowed

/-- The invariant of the system: the program's, and the DMA on its way round the ring. -/
structure Circling (setup : Setup) (trace : List Event) (s : System) : Prop where
  cursor : Cursor setup trace s.main
  loop : s.main.pc ≠ .preload
  begun : 0 < entered trace
  dma : s.dma = (entered trace + 2) % raspdifBufferCount
  order : AtEach (fun before e _ => VisitOrder before e) trace

theorem Circling.inRing (circling : Circling setup trace s) : s.dma < raspdifBufferCount := by
  rw [circling.dma]
  exact Nat.mod_lt _ (Nat.zero_lt_succ _)

theorem visitOrder_of_entered_eq_zero (past : List Event) (noVisit : entered events = 0) :
    AtEach (fun before e _ => VisitOrder (past ++ before) e) events := by
  rw [atEach_iff]
  intro before e after split j enters
  have none := List.countP_eq_zero.mp noVisit e (by rw [split]; simp)
  rw [enters] at none
  exact absurd rfl none

/-- A step of the program in one of its later loops does not start a visit and does not
lead back to the preload. -/
theorem Main.Moves.later {m m' : Main} {answers : Answers} (moves : m.Moves setup answers m' events)
    (loop : m.pc ≠ .preload) : entered events = 0 ∧ m'.pc ≠ .preload := by
  cases moves with
  | preloadFrame pc => exact absurd pc loop
  | preloadDone pc => exact absurd pc loop
  | readWait | readFrame | fillWait => exact ⟨rfl, loop⟩
  | finish | underrun | fillEnter | fillReturn | poll => exact ⟨rfl, Pc.noConfusion⟩
  | fillRemainder | fillBuffer =>
      refine ⟨rfl, ?_⟩
      change ite _ _ _ ≠ _
      split <;> exact Pc.noConfusion

/-- A step of the program or of its input in which no visit begins. -/
theorem Circling.still {main : Main} (circling : Circling setup trace s)
    (step : Main.Step setup s.main events main) (noVisit : entered events = 0)
    (loop : main.pc ≠ .preload) : Circling setup (trace ++ events) ⟨main, s.dma⟩ where
  cursor := circling.cursor.step step
  loop := loop
  begun := by
    rw [entered_append, noVisit]
    exact circling.begun
  dma := by
    rw [entered_append, noVisit]
    exact circling.dma
  order := atEach_append.mpr ⟨circling.order, visitOrder_of_entered_eq_zero _ noVisit⟩

theorem Circling.acts (circling : Circling setup trace s) (acts : s.Acts setup allow s' events) :
    Circling setup (trace ++ events) s' := by
  cases acts with
  | program answers here step moves =>
      obtain ⟨noVisit, loop⟩ := moves.later circling.loop
      exact circling.still step noVisit loop
  | deliver bytes step => exact circling.still step rfl circling.loop
  | close step => exact circling.still step rfl circling.loop
  | dma allowed =>
      have begun := circling.begun
      have dma := circling.dma
      have next : (s.dma + 1) % raspdifBufferCount = entered trace % raspdifBufferCount := by
        simp only [raspdifBufferCount] at *
        omega
      refine ⟨circling.cursor.quiet rfl rfl rfl circling.cursor.control, circling.loop, ?_, ?_, ?_⟩
      · rw [entered_append]
        exact Nat.add_pos_left begun _
      · change (s.dma + 1) % raspdifBufferCount = _
        rw [next, entered_append]
        exact (Nat.add_mod_right (entered trace) raspdifBufferCount).symm
      · refine atEach_append.mpr ⟨circling.order, ?_⟩
        rw [atEach_cons, List.append_nil]
        refine ⟨?_, atEach_nil⟩
        intro j enters
        obtain rfl := Option.some.inj enters
        exact ⟨next, fun _ => congrArg some dma⟩

theorem Circling.step (circling : Circling setup trace s)
    (one : System.Step setup allow s events s') : Circling setup (trace ++ events) s' :=
  circling.acts (one.acts circling.inRing)

/-- During the preload no visit begins and every call is one of the input. -/
theorem preload_calls {buffers : Nat → RaspdifBuffer} {m : Main}
    (run : Run (Main.Step setup) (Main.start buffers) trace m) :
    m.pc = .preload → entered trace = 0 ∧ ∀ c ∈ calls trace, c.source = .input := by
  refine run.invariant (fun past m => m.pc = .preload →
    entered past = 0 ∧ ∀ c ∈ calls past, c.source = .input) (fun _ => ⟨rfl, by simp [calls]⟩) ?_
  intro past events m m' earlier one pc
  cases one with
  | cpu answers ran =>
      have moves := Main.step_moves ran
      by_cases loop : m.pc = .preload
      · obtain ⟨noVisit, input⟩ := earlier loop
        rw [entered_append, calls_append, List.forall_mem_append, noVisit]
        cases moves with
        | preloadFrame => exact ⟨rfl, input, List.forall_mem_singleton.mpr rfl⟩
        | preloadDone => cases pc
        | readWait pc' | fillWait _ _ pc' | finish pc' | underrun pc' | readFrame pc'
        | fillRemainder _ pc' | fillEnter _ _ pc' | fillReturn _ _ pc' | fillBuffer _ _ pc'
        | poll pc' => rw [loop] at pc'; cases pc'
      · exact absurd pc (moves.later loop).2
  | deliver | close =>
      rcases earlier pc with ⟨noVisit, input⟩
      rw [entered_append, calls_append, List.forall_mem_append, noVisit]
      exact ⟨rfl, input, by simp [calls, Event.call?]⟩

/-- The trace of a complete preload, up to its last step. -/
theorem Preloaded.visits {start : Main} (preloaded : Preloaded setup trace start) :
    ∃ past copied, trace = past ++ [.fread copied, .dmaEnable] ∧ entered past = 0 ∧
      ∀ c ∈ calls trace, c.source = .input := by
  rcases preloaded.ends with ⟨buffers, past, mid, answers, copied, run, last, rfl⟩
  have pc : mid.pc = .preload := by
    cases Main.step_moves last with
    | preloadDone pc => exact pc
  obtain ⟨noVisit, input⟩ := preload_calls run pc
  refine ⟨past, copied, rfl, noVisit, ?_⟩
  rw [calls_append]
  exact List.forall_mem_append.mpr ⟨input, by simp [calls, Event.call?]⟩

/-- The invariant holds when the DMA is enabled at buffer 0. -/
theorem Circling.of_preloaded {start : Main} (preloaded : Preloaded setup trace start) :
    Circling setup trace ⟨start, 0⟩ := by
  have cursor := preloaded.cursor
  have loop := preloaded.loop.1
  rcases preloaded.visits with ⟨past, copied, rfl, none, -⟩
  have one : entered (past ++ [.fread copied, .dmaEnable]) = 1 := by
    rw [entered_append, none]
    rfl
  refine ⟨cursor, by rw [loop]; exact Pc.noConfusion, by rw [one]; exact Nat.one_pos, ?_, ?_⟩
  · rw [one]
    rfl
  · refine atEach_append.mpr ⟨?_, ?_⟩
    · exact visitOrder_of_entered_eq_zero [] none
    · rw [atEach_cons, atEach_cons]
      refine ⟨?_, ?_, atEach_nil⟩
      · intro j enters
        cases enters
      · intro j enters
        obtain rfl := Option.some.inj enters
        rw [entered_append, none]
        exact ⟨rfl, fun begun => absurd begun (Nat.lt_irrefl 0)⟩

theorem Circling.of_run {past : List Event} {start : Main} (preloaded : Preloaded setup past start)
    (run : Run (System.Step setup allow) ⟨start, 0⟩ trace s) :
    Circling setup (past ++ trace) s :=
  run.invariant_from (Circling setup) (Circling.of_preloaded preloaded) Circling.step

/-- The program stores a frame while the DMA is at another buffer. -/
theorem System.exists_readFrame (setup : Setup) (allow : Main → Nat → Prop) {s : System}
    (pc : s.main.pc = .readLoop) (noEof : s.main.file.eof = false)
    (here : s.dma < raspdifBufferCount) (inRing : s.main.bufferIndex < raspdifBufferCount)
    (away : s.dma ≠ s.main.bufferIndex)
    (long : setup.format.frameSize ≤ s.main.file.pending.length) :
    ∃ main, System.Step setup allow s [.fread (s.main.fread setup).copied,
      .call ((s.main.afterRead setup).bufferInput setup).call] ⟨main, s.dma⟩ :=
  ⟨_, .cpu ⟨setup.controlBlock s.dma, 0, 0⟩ rfl (Main.step_of_moves _ _ (.readFrame pc noEof
    (mt (setup.controlBlock_inj here inRing).mp away) (Or.inl (Main.fread_of_long long).2.1)))⟩

/-- The DMA goes on to buffer 1, a frame arrives, and the program stores it in buffer 0. -/
theorem System.exists_move_readFrame (allow : Main → Nat → Prop) {start : Main}
    (pc : start.pc = .readLoop) (index : start.bufferIndex = 0)
    (file : start.file = ⟨[], false, false⟩) (allowed : allow start 1) :
    ∃ c main, Run (System.Step .s16le allow) ⟨start, 0⟩
      [.dmaMove 0 1 (start.buffers 0), .delivered [1, 0, 2, 0], .fread [1, 0, 2, 0], .call c]
        ⟨main, 1⟩ ∧ c.source = .input ∧ c.buffer = 0 ∧ c.slot = start.statics.slot := by
  let arrived : Main := { start with file := ⟨[1, 0, 2, 0], false, false⟩ }
  have move : System.Step .s16le allow ⟨start, 0⟩ _ _ :=
    .move 0 1 (Nat.zero_lt_succ _) (Nat.one_lt_succ_succ _) rfl rfl allowed
  have deliver : System.Step .s16le allow ⟨start, 1⟩ [.delivered [1, 0, 2, 0]] ⟨arrived, 1⟩ := by
    have step : System.Step .s16le allow ⟨start, 1⟩ _ _ := .deliver [1, 0, 2, 0] (by rw [file])
    rw [file] at step
    exact step
  obtain ⟨main, store⟩ := System.exists_readFrame .s16le allow (s := ⟨arrived, 1⟩) pc rfl
    (Nat.one_lt_succ_succ _) (index.trans_lt (Nat.zero_lt_succ _))
    (fun same => one_ne_zero (same.trans index)) (Nat.le_refl 4)
  exact ⟨_, main, ((Run.single move).append (.single deliver)).append (.single store), rfl, index,
    rfl⟩

end

end Raspdif
