import Raspdif.Main.File
import Raspdif.Writer.BlockStructure

/-!
# The program

`main` from its preload loop on, with `raspdif_fill_buffers`, as a state machine.  A
`Pc` is a place where the program tests a loop condition; `Main.step` runs it from there
to the next such place.  What a step asks of the outside, the DMA's `CONBLK_AD` register
and `rand`, is its argument `Answers`; the input arrives through `Main.Step.deliver`.

A step records events: what every `fread` copied, every call of `raspdif_buffer_samples`
with its arguments and the frame it stored, and the enabling of the DMA.

The DMA may move at any time between two steps.  The read loop tests the DMA position and
writes one frame in one step, while `raspdif_fill_buffers` tests in one step and writes
the buffer in later ones.
-/

namespace Raspdif

/-! ## State -/

/-- The arguments of the program, and the bus address of its control structure. -/
structure Setup where
  format : RaspdifFormat
  keepAlive : Bool
  bus : BitVec 32

/-- `&raspdif.control.bus->control_blocks[i]`; a control block has 32 bytes. -/
def Setup.controlBlock (setup : Setup) (i : Nat) : BitVec 32 :=
  setup.bus + BitVec.ofNat 32 (32 * i)

/-- The control blocks of the ring have different addresses. -/
theorem Setup.controlBlock_inj (setup : Setup) {i j : Nat} (first : i < raspdifBufferCount)
    (second : j < raspdifBufferCount) :
    setup.controlBlock i = setup.controlBlock j ↔ i = j := by
  rw [Setup.controlBlock, Setup.controlBlock, BitVec.add_right_inj, ← BitVec.toNat_inj,
    BitVec.toNat_ofNat, BitVec.toNat_ofNat]
  simp only [raspdifBufferCount] at first second
  omega

theorem Setup.controlBlock_next_ne (setup : Setup) {i : Nat} (inRing : i < raspdifBufferCount) :
    setup.controlBlock ((i + 1) % raspdifBufferCount) ≠ setup.controlBlock i := by
  rw [Ne, setup.controlBlock_inj (Nat.mod_lt _ (Nat.zero_lt_succ _)) inRing]
  simp only [raspdifBufferCount] at *
  omega

/-- What the outside answers during a step: `bcm283x_dma_get_control_block` reads a
register, and each of the two `FILL_SAMPLE`s may call `rand`. -/
structure Answers where
  conblkAd : BitVec 32
  randA : Nat
  randB : Nat

/-- `FILL_SAMPLE`. -/
def fillSample (keepAlive : Bool) (rand : Nat) : BitVec 32 :=
  if keepAlive then BitVec.ofNat 32 (rand % 10) - 5 else 0

/-- The loops a frame is stored from. -/
inductive Source
  | input
  | fill
  deriving DecidableEq, Repr

/-- A call of `raspdif_buffer_samples` on `buffers[buffer]`: the slot and the block
position it used, its samples and the frame it left in the slot. -/
structure Call where
  source : Source
  buffer : Nat
  slot : Fin raspdifBufferSize
  position : Fin spdifFrameCount
  sampleA : BitVec 32
  sampleB : BitVec 32
  stored : RaspdifEntry

inductive Event
  /-- Input bytes arrived. -/
  | delivered (bytes : List UInt8)
  | closed
  | fread (copied : List UInt8)
  | call (c : Call)
  | dmaEnable
  /-- `raspdif_fill_buffers` returned. -/
  | filled
  /-- The DMA has read all of a buffer and goes on to the next one. -/
  | dmaMove (left next : Nat) (contents : RaspdifBuffer)

/-- The next loop test to run.  In `raspdif_fill_buffers` the arguments are its own
`buffer_index` and `fill_count`. -/
inductive Pc
  | preload
  | readLoop
  | fillRemainder (bufferIndex : Nat)
  | fillAll (bufferIndex fillCount : Nat)
  | fillBuffer (bufferIndex fillCount : Nat)
  | poll
  | finished
  deriving DecidableEq, Repr

structure Main where
  pc : Pc
  file : File
  samples : List UInt8
  bufferIndex : Nat
  statics : Statics
  block : SpdifBlock
  /-- `raspdif.control.virtual->buffers`. -/
  buffers : Nat → RaspdifBuffer

/-- `main` at its preload loop.  The memory of the buffers is what it happens to be. -/
def Main.start (buffers : Nat → RaspdifBuffer) : Main where
  pc := .preload
  file := { pending := [], closed := false, eof := false }
  samples := List.replicate 8 0
  bufferIndex := 0
  statics := Statics.initial
  block := initialBlock
  buffers := buffers

/-! ## Steps of the program -/

/-- `fread(samples, sample_size, 2, file)`. -/
def Main.fread (s : Main) (setup : Setup) : FileRead := s.file.fread setup.format.sampleSize 2

def Main.afterRead (s : Main) (setup : Setup) : Main :=
  let read := s.fread setup
  { s with
    file := read.file
    samples := read.copied ++ s.samples.drop read.copied.length }

structure Stored where
  full : Bool
  call : Call
  main : Main

/-- `raspdif_buffer_samples(&buffers[index], &block, format, sampleA, sampleB)`. -/
def Main.bufferSamples (s : Main) (setup : Setup) (source : Source) (index : Nat)
    (sampleA sampleB : BitVec 32) : Stored :=
  let done := raspdifBufferSamples s.statics (s.buffers index) s.block setup.format sampleA sampleB
  { full := done.full
    call :=
      { source := source
        buffer := index
        slot := s.statics.slot
        position := s.statics.position
        sampleA := sampleA
        sampleB := sampleB
        stored := done.buffer.sample s.statics.slot }
    main :=
      { s with
        statics := done.statics
        block := done.block
        buffers := Function.update s.buffers index done.buffer } }

/-- The samples just read, parsed and stored in the current buffer. -/
def Main.bufferInput (s : Main) (setup : Setup) : Stored :=
  s.bufferSamples setup .input s.bufferIndex (setup.format.parseFrame s.samples).1
    (setup.format.parseFrame s.samples).2

/-- One pass of `while (!raspdif_buffer_samples(buffer, …, FILL_SAMPLE, FILL_SAMPLE))`. -/
def Main.bufferFill (s : Main) (setup : Setup) (answers : Answers) (index : Nat) : Stored :=
  s.bufferSamples setup .fill index (fillSample setup.keepAlive answers.randA)
    (fillSample setup.keepAlive answers.randB)

def Main.step (setup : Setup) (answers : Answers) (s : Main) : Option (Main × List Event) :=
  match s.pc with
  | .preload =>
      if s.file.Ready setup.format.frameSize then
        let read := s.fread setup
        let s := s.afterRead setup
        if 0 < read.items ∧ s.bufferIndex < raspdifBufferCount then
          let stored := s.bufferInput setup
          let index := if stored.full then s.bufferIndex + 1 else s.bufferIndex
          some ({ stored.main with bufferIndex := index },
            [.fread read.copied, .call stored.call])
        else
          some ({ s with pc := .readLoop, bufferIndex := 0 }, [.fread read.copied, .dmaEnable])
      else
        none
  | .readLoop =>
      if s.file.eof then
        some ({ s with pc := .finished }, [])
      else if answers.conblkAd = setup.controlBlock s.bufferIndex then
        some (s, [])
      else
        let read := s.fread setup
        let s := s.afterRead setup
        if read.items ≠ 2 ∧ s.file.eof = false then
          some ({ s with pc := .fillRemainder s.bufferIndex }, [.fread read.copied])
        else
          let stored := s.bufferInput setup
          let index :=
            if stored.full then (s.bufferIndex + 1) % raspdifBufferCount else s.bufferIndex
          some ({ stored.main with bufferIndex := index },
            [.fread read.copied, .call stored.call])
  | .fillRemainder index =>
      let stored := s.bufferFill setup answers index
      let pc :=
        if stored.full then .fillAll ((index + 1) % raspdifBufferCount) 0
        else .fillRemainder index
      some ({ stored.main with pc := pc }, [.call stored.call])
  | .fillAll index count =>
      if count < raspdifBufferCount then
        if answers.conblkAd = setup.controlBlock index then
          some (s, [])
        else
          some ({ s with pc := .fillBuffer index count }, [])
      else
        some ({ s with pc := .poll }, [.filled])
  | .fillBuffer index count =>
      let stored := s.bufferFill setup answers index
      let pc :=
        if stored.full then .fillAll ((index + 1) % raspdifBufferCount) (count + 1)
        else .fillBuffer index count
      some ({ stored.main with pc := pc }, [.call stored.call])
  | .poll => some ({ s with pc := .readLoop }, [])
  | .finished => none

/-- The program or its input moves. -/
inductive Main.Step (setup : Setup) : Main → List Event → Main → Prop
  | cpu {s s' : Main} {events : List Event} (answers : Answers) :
    s.step setup answers = some (s', events) → Main.Step setup s events s'
  | deliver {s : Main} (bytes : List UInt8) : s.file.closed = false →
    Main.Step setup s [.delivered bytes]
      { s with file := { s.file with pending := s.file.pending ++ bytes } }
  | close {s : Main} :
    Main.Step setup s [.closed] { s with file := { s.file with closed := true } }

/-! ## What a step can do -/

/-- `Main.step`, one constructor for each way through it. -/
inductive Main.Moves (setup : Setup) (answers : Answers) (s : Main) :
    Main → List Event → Prop
  | preloadFrame (pc : s.pc = .preload) (ready : s.file.Ready setup.format.frameSize)
    (items : 0 < (s.fread setup).items) (room : s.bufferIndex < raspdifBufferCount) :
    Main.Moves setup answers s
      { ((s.afterRead setup).bufferInput setup).main with
        bufferIndex :=
          if ((s.afterRead setup).bufferInput setup).full then s.bufferIndex + 1
          else s.bufferIndex }
      [.fread (s.fread setup).copied, .call ((s.afterRead setup).bufferInput setup).call]
  | preloadDone (pc : s.pc = .preload) (ready : s.file.Ready setup.format.frameSize)
    (done : (s.fread setup).items = 0 ∨ raspdifBufferCount ≤ s.bufferIndex) :
    Main.Moves setup answers s { s.afterRead setup with pc := .readLoop, bufferIndex := 0 }
      [.fread (s.fread setup).copied, .dmaEnable]
  | finish (pc : s.pc = .readLoop) (eof : s.file.eof = true) :
    Main.Moves setup answers s { s with pc := .finished } []
  | readWait (pc : s.pc = .readLoop) (noEof : s.file.eof = false)
    (here : answers.conblkAd = setup.controlBlock s.bufferIndex) :
    Main.Moves setup answers s s []
  | underrun (pc : s.pc = .readLoop)
    (away : answers.conblkAd ≠ setup.controlBlock s.bufferIndex)
    (short : (s.fread setup).items ≠ 2) (noEof : (s.fread setup).file.eof = false) :
    Main.Moves setup answers s { s.afterRead setup with pc := .fillRemainder s.bufferIndex }
      [.fread (s.fread setup).copied]
  | readFrame (pc : s.pc = .readLoop) (noEof : s.file.eof = false)
    (away : answers.conblkAd ≠ setup.controlBlock s.bufferIndex)
    (enough : (s.fread setup).items = 2 ∨ (s.fread setup).file.eof = true) :
    Main.Moves setup answers s
      { ((s.afterRead setup).bufferInput setup).main with
        bufferIndex :=
          if ((s.afterRead setup).bufferInput setup).full then
            (s.bufferIndex + 1) % raspdifBufferCount
          else s.bufferIndex }
      [.fread (s.fread setup).copied, .call ((s.afterRead setup).bufferInput setup).call]
  | fillRemainder (index : Nat) (pc : s.pc = .fillRemainder index) :
    Main.Moves setup answers s
      { (s.bufferFill setup answers index).main with
        pc :=
          if (s.bufferFill setup answers index).full then
            .fillAll ((index + 1) % raspdifBufferCount) 0
          else .fillRemainder index }
      [.call (s.bufferFill setup answers index).call]
  | fillWait (index count : Nat) (pc : s.pc = .fillAll index count)
    (more : count < raspdifBufferCount) (here : answers.conblkAd = setup.controlBlock index) :
    Main.Moves setup answers s s []
  | fillEnter (index count : Nat) (pc : s.pc = .fillAll index count)
    (more : count < raspdifBufferCount) (away : answers.conblkAd ≠ setup.controlBlock index) :
    Main.Moves setup answers s { s with pc := .fillBuffer index count } []
  | fillReturn (index count : Nat) (pc : s.pc = .fillAll index count)
    (all : raspdifBufferCount ≤ count) :
    Main.Moves setup answers s { s with pc := .poll } [.filled]
  | fillBuffer (index count : Nat) (pc : s.pc = .fillBuffer index count) :
    Main.Moves setup answers s
      { (s.bufferFill setup answers index).main with
        pc :=
          if (s.bufferFill setup answers index).full then
            .fillAll ((index + 1) % raspdifBufferCount) (count + 1)
          else .fillBuffer index count }
      [.call (s.bufferFill setup answers index).call]
  | poll (pc : s.pc = .poll) : Main.Moves setup answers s { s with pc := .readLoop } []

theorem Main.step_moves {setup : Setup} {answers : Answers} {s s' : Main} {events : List Event}
    (ran : s.step setup answers = some (s', events)) : s.Moves setup answers s' events := by
  unfold Main.step at ran
  split at ran
  next pc =>
    split at ran
    next ready =>
      dsimp only at ran
      split at ran
      next more => cases ran; exact .preloadFrame pc ready more.1 more.2
      next done =>
        cases ran
        refine .preloadDone pc ready ?_
        have bufferIndex : (s.afterRead setup).bufferIndex = s.bufferIndex := rfl
        rw [bufferIndex] at done
        omega
    next => cases ran
  next pc =>
    split at ran
    next eof => cases ran; exact .finish pc eof
    next noEof =>
      split at ran
      next here => cases ran; exact .readWait pc (Bool.eq_false_iff.mpr noEof) here
      next away =>
        dsimp only at ran
        split at ran
        next short => cases ran; exact .underrun pc away short.1 short.2
        next enough =>
          cases ran
          refine .readFrame pc (Bool.eq_false_iff.mpr noEof) away ?_
          have eof : (s.afterRead setup).file.eof = (s.fread setup).file.eof := rfl
          rw [eof] at enough
          by_cases two : (s.fread setup).items = 2
          · exact Or.inl two
          · exact Or.inr (by simpa [two] using enough)
  next index pc => cases ran; exact .fillRemainder index pc
  next index count pc =>
    split at ran
    next more =>
      split at ran
      next here => cases ran; exact .fillWait index count pc more here
      next away => cases ran; exact .fillEnter index count pc more away
    next all => cases ran; exact .fillReturn index count pc (Nat.not_lt.mp all)
  next index count pc => cases ran; exact .fillBuffer index count pc
  next pc => cases ran; exact .poll pc
  next pc => cases ran

/-- Each of these ways is taken when its conditions hold. -/
theorem Main.step_of_moves (setup : Setup) (answers : Answers) {s s' : Main}
    {events : List Event} (moves : s.Moves setup answers s' events) :
    s.step setup answers = some (s', events) := by
  cases moves with
  | preloadFrame pc ready items room =>
      have more : 0 < (s.fread setup).items ∧
          (s.afterRead setup).bufferIndex < raspdifBufferCount :=
        ⟨items, room⟩
      simp only [Main.step, pc, if_pos ready, if_pos more]
      rfl
  | preloadDone pc ready done =>
      have stop : ¬ (0 < (s.fread setup).items ∧
          (s.afterRead setup).bufferIndex < raspdifBufferCount) := by
        rintro ⟨items, room⟩
        exact done.elim items.ne' (Nat.not_le.mpr room)
      simp only [Main.step, pc, if_pos ready, if_neg stop]
  | finish pc eof => simp only [Main.step, pc, if_pos eof]
  | readWait pc noEof here => simp [Main.step, pc, noEof, here]
  | underrun pc away short noEof =>
      have before : s.file.eof = false := (Bool.or_eq_false_iff.mp noEof).1
      have under : (s.fread setup).items ≠ 2 ∧ (s.afterRead setup).file.eof = false :=
        ⟨short, noEof⟩
      simp only [Main.step, pc, before, if_neg away, if_pos under, Bool.false_eq_true, ite_false]
      rfl
  | readFrame pc noEof away enough =>
      have whole : ¬ ((s.fread setup).items ≠ 2 ∧ (s.afterRead setup).file.eof = false) := by
        rintro ⟨short, open_⟩
        exact enough.elim short (Bool.eq_false_iff.mp open_)
      simp only [Main.step, pc, noEof, if_neg away, if_neg whole, Bool.false_eq_true, ite_false]
      rfl
  | fillRemainder index pc => simp only [Main.step, pc]
  | fillWait index count pc more here => simp only [Main.step, pc, if_pos more, if_pos here]
  | fillEnter index count pc more away => simp only [Main.step, pc, if_pos more, if_neg away]
  | fillReturn index count pc all =>
      simp only [Main.step, pc, if_neg (Nat.not_lt.mpr all)]
  | fillBuffer index count pc => simp only [Main.step, pc]
  | poll pc => simp only [Main.step, pc]

end Raspdif
