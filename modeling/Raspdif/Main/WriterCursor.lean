import Raspdif.Dma.System
import Raspdif.Main.Fill
import Raspdif.Main.Memory

/-!
# The cursor of the writer

The slot that `raspdif_buffer_samples` writes next is its own `sample_count`, modulo the
size of a buffer.  Which buffer it is in is up to its callers: the preload loop, the read
loop and `raspdif_fill_buffers` each keep an index, and none of them sees the counter.
`WriterMove` is what one step can do to the two; `writer_cursor`, that they stay in step
in every run whose preload fills the ring.
-/

namespace Raspdif

open Trace

/-! ## Buffer and slot -/

/-- The buffer that the loop at this place writes to.  The preload loop and
`raspdif_fill_buffers` end with an index that is not used again: `main` resets the one
and never sees the other. -/
def Pc.writing (bufferIndex : Nat) : Pc → Option Nat
  | .preload => if bufferIndex < raspdifBufferCount then some bufferIndex else none
  | .fillRemainder index => some index
  | .fillAll index count => if count < raspdifBufferCount then some index else none
  | .fillBuffer index _ => some index
  | .readLoop | .poll | .finished => some bufferIndex

def Main.writing (s : Main) : Option Nat := s.pc.writing s.bufferIndex

/-- Where the call wrote: the buffer and the slot. -/
def Call.place (c : Call) : Nat × Nat := (c.buffer, c.slot.val)

/-- The first `count` slots of a buffer, in order. -/
def slots (buffer count : Nat) : List (Nat × Nat) := (List.range count).map fun p => (buffer, p)

theorem slots_succ (buffer count : Nat) :
    slots buffer (count + 1) = slots buffer count ++ [(buffer, count)] := by
  unfold slots
  rw [List.range_succ, List.map_append, List.map_singleton]

/-- The DMA is enabled with all three buffers full. -/
def PreloadFills (trace : List Event) : Prop :=
  AtEach (fun before e _ => e = .dmaEnable → (calls before).length = ringSize) trace

theorem PreloadFills.past {first second : List Event} (filled : PreloadFills (first ++ second)) :
    PreloadFills first :=
  (atEach_append.mp filled).1

/-- What one step does to the buffer and the slot that are written next. -/
inductive WriterMove (s : Main) (events : List Event) (s' : Main) : Prop
  | idle (silent : calls events = []) (statics : s'.statics = s.statics)
    (buffer : s'.writing = s.writing) (index : s'.bufferIndex = s.bufferIndex)
  /-- A loop that is done with its last buffer hands over to the read loop. -/
  | resume (silent : calls events = []) (statics : s'.statics = s.statics)
    (away : s.writing = none) (turn : s.statics.slot.val = 0)
  | store (c : Call) (j : Nat) (one : calls events = [c])
    (place : c.place = (j, s.statics.slot.val)) (here : s.writing = some j)
    (statics : s'.statics = s.statics.next)
    (turns : s'.statics.slot.val = 0 → s'.writing ≠ some j)
    (stays : s'.statics.slot.val ≠ 0 → s'.writing = some j ∧ s'.bufferIndex = s.bufferIndex)

/-! ## The indices and the counter -/

/-- The invariant of a run whose preload fills the ring: the read loop has the right
index also when it is entered with the end of the file reached. -/
structure InStep (setup : Setup) (trace : List Event) (s : Main) : Prop where
  cursor : Cursor setup trace s
  index : s.pc = .readLoop ∨ s.pc = .finished →
    s.bufferIndex = ringIndex (calls trace).length (fills trace)

section

variable {setup : Setup} {answers : Answers} {s s' : Main} {trace events : List Event}

theorem InStep.start (setup : Setup) (buffers : Nat → RaspdifBuffer) :
    InStep setup [] (Main.start buffers) := by
  refine ⟨Cursor.start setup buffers, ?_⟩
  rintro (pc | pc) <;> cases pc

theorem PreloadFills.done {copied : List UInt8}
    (filled : PreloadFills (trace ++ [.fread copied, .dmaEnable])) :
    (calls trace).length = ringSize := by
  have enabled := atEach_iff.mp filled (trace ++ [.fread copied]) .dmaEnable [] (by simp) rfl
  rwa [calls_append, show calls [.fread copied] = [] from rfl, List.append_nil] at enabled

theorem InStep.moves (inStep : InStep setup trace s) (moves : s.Moves setup answers s' events)
    (filled : PreloadFills (trace ++ events)) : InStep setup (trace ++ events) s' := by
  have cursor := inStep.cursor.moves moves
  refine ⟨cursor, fun pc' => ?_⟩
  rw [calls_append, List.length_append, fills_append]
  have control := inStep.cursor.control
  cases moves with
  | preloadFrame pc => rcases pc' with pc' | pc' <;> cases pc.symm.trans pc'
  | preloadDone pc =>
      rw [pc] at control
      rw [filled.done, control.2.2]
      change 0 = ringIndex ringSize 0
      decide
  | finish pc => exact inStep.index (Or.inl pc)
  | readWait pc => exact inStep.index (Or.inl pc)
  | readFrame pc =>
      -- here the index is right whether or not the file is at its end
      have full := Main.bufferInput_full setup (s := s.afterRead setup) inStep.cursor.encoder
      have turned := Pc.At.readFrame (inStep.index (Or.inl pc)) full false
      exact turned.resolve_left Bool.false_ne_true
  | fillRemainder | fillBuffer =>
      dsimp only at pc'
      split at pc' <;> rcases pc' with pc' | pc' <;> cases pc'
  | poll pc =>
      rw [pc] at control
      exact control
  | underrun | fillEnter | fillReturn => rcases pc' with pc' | pc' <;> cases pc'
  | fillWait index count pc => rcases pc' with pc' | pc' <;> cases pc.symm.trans pc'

theorem InStep.step (inStep : InStep setup trace s) (one : Main.Step setup s events s')
    (filled : PreloadFills (trace ++ events)) : InStep setup (trace ++ events) s' := by
  cases one with
  | cpu answers ran => exact inStep.moves (Main.step_moves ran) filled
  | deliver | close =>
      refine ⟨inStep.cursor.quiet rfl rfl rfl inStep.cursor.control, ?_⟩
      rw [calls_append, List.length_append, fills_append]
      exact inStep.index

theorem InStep.of_run {buffers : Nat → RaspdifBuffer}
    (run : Run (Main.Step setup) (Main.start buffers) trace s) (filled : PreloadFills trace) :
    InStep setup trace s := by
  refine run.invariant (fun past m => PreloadFills past → InStep setup past m)
    (fun _ => InStep.start setup buffers) ?_ filled
  intro past events m m' inStep one filled
  exact (inStep filled.past).step one filled

/-! ## What a step does -/

theorem next_ne (i : Nat) : (i + 1) % raspdifBufferCount ≠ i := by
  unfold raspdifBufferCount
  omega

/-- `raspdif_fill_buffers` goes on to another buffer, or to none. -/
theorem fillAll_writing_ne (i : Nat) {count bufferIndex : Nat} :
    (Pc.fillAll ((i + 1) % raspdifBufferCount) count).writing bufferIndex ≠ some i := by
  intro same
  rcases Option.ite_none_right_eq_some.mp same with ⟨-, same⟩
  exact next_ne i (Option.some.inj same)

/-- A call moves the slot on.  The loop that made it must go on to another buffer when the
call says that this one is full, and stay otherwise. -/
theorem WriterMove.of_store {mid : Main} (quiet : List Event) {source : Source} {j : Nat}
    {sampleA sampleB : BitVec 32} (silent : calls quiet = []) (before : mid.statics = s.statics)
    (here : s.writing = some j)
    (after : s'.statics = (mid.bufferSamples setup source j sampleA sampleB).main.statics)
    (turns : (mid.bufferSamples setup source j sampleA sampleB).full = true → s'.writing ≠ some j)
    (stays : (mid.bufferSamples setup source j sampleA sampleB).full ≠ true →
      s'.writing = some j ∧ s'.bufferIndex = s.bufferIndex) :
    WriterMove s (quiet ++ [.call (mid.bufferSamples setup source j sampleA sampleB).call]) s' := by
  have full : (mid.bufferSamples setup source j sampleA sampleB).full = true ↔
      s'.statics.slot.val = 0 := by
    rw [after]
    exact beq_iff_eq
  refine .store (mid.bufferSamples setup source j sampleA sampleB).call j ?_ ?_ here ?_
    (fun last => turns (full.mpr last)) (fun room => stays (mt full.mp room))
  · rw [calls_append, silent]
    rfl
  · rw [← before]
    rfl
  · rw [after, ← before]
    rfl

/-- The preload loop and the read loop store a frame of the input. -/
theorem WriterMove.of_input {copied : List UInt8} {next : Nat}
    (here : s.writing = some s.bufferIndex)
    (turns : s.pc.writing next ≠ some s.bufferIndex) :
    WriterMove s [.fread copied, .call ((s.afterRead setup).bufferInput setup).call]
      { ((s.afterRead setup).bufferInput setup).main with
        bufferIndex :=
          if ((s.afterRead setup).bufferInput setup).full then next else s.bufferIndex } := by
  refine .of_store [_] rfl rfl here rfl ?_ ?_
  · intro (full : ((s.afterRead setup).bufferInput setup).full = true)
    change Pc.writing (ite _ _ _) s.pc ≠ _
    rwa [if_pos full]
  · intro (room : ((s.afterRead setup).bufferInput setup).full ≠ true)
    change Pc.writing (ite _ _ _) s.pc = _ ∧ ite _ _ _ = _
    rw [if_neg room]
    exact ⟨here, rfl⟩

/-- The inner loops of `raspdif_fill_buffers` store a frame of silence. -/
theorem WriterMove.of_fill {index : Nat} {stay next : Pc} (pc : s.pc = stay)
    (here : stay.writing s.bufferIndex = some index)
    (turns : next.writing s.bufferIndex ≠ some index) :
    WriterMove s [.call (s.bufferFill setup answers index).call]
      { (s.bufferFill setup answers index).main with
        pc := if (s.bufferFill setup answers index).full then next else stay } := by
  subst pc
  refine .of_store [] rfl rfl here rfl ?_ ?_
  · intro (full : (s.bufferFill setup answers index).full = true)
    change Pc.writing _ (ite _ _ _) ≠ _
    rwa [if_pos full]
  · intro (room : (s.bufferFill setup answers index).full ≠ true)
    change Pc.writing _ (ite _ _ _) = _ ∧ _ = _
    rw [if_neg room]
    exact ⟨here, rfl⟩

theorem WriterMove.of_quiet {pc : Pc} (silent : calls events = []) (now : s.pc = pc)
    (statics : s'.statics = s.statics) (index : s'.bufferIndex = s.bufferIndex)
    (same : s'.pc.writing s.bufferIndex = pc.writing s.bufferIndex) : WriterMove s events s' := by
  refine .idle silent statics ?_ index
  rw [Main.writing, Main.writing, index, now]
  exact same

theorem InStep.writerMove (inStep : InStep setup trace s) (one : Main.Step setup s events s')
    (filled : PreloadFills (trace ++ events)) : WriterMove s events s' := by
  have control := inStep.cursor.control
  have slot := inStep.cursor.encoder.slot
  cases one with
  | deliver | close => exact .idle rfl rfl rfl rfl
  | cpu answers ran =>
      cases Main.step_moves ran with
      | preloadFrame pc ready items room =>
          have here : s.writing = some s.bufferIndex := by
            rw [Main.writing, pc]
            exact if_pos room
          refine .of_input here ?_
          rw [pc]
          intro same
          rcases Option.ite_none_right_eq_some.mp same with ⟨-, same⟩
          exact Nat.succ_ne_self _ (Option.some.inj same)
      | preloadDone pc =>
          -- the index stands at 3, behind the ring, and `main` resets it
          rw [pc] at control
          rcases control with ⟨-, count, -⟩
          rw [filled.done] at count slot
          refine .resume rfl rfl ?_ slot
          rw [Main.writing, pc, count]
          rfl
      | readFrame pc =>
          have here : s.writing = some s.bufferIndex := by
            rw [Main.writing, pc]
            rfl
          refine .of_input here ?_
          rw [pc]
          exact fun same => next_ne _ (Option.some.inj same)
      | fillRemainder index pc => exact .of_fill pc rfl (fillAll_writing_ne index)
      | fillBuffer index count pc => exact .of_fill pc rfl (fillAll_writing_ne index)
      | fillReturn index count pc all =>
          -- the copy of the index is dropped, and `main` goes on with its own
          rw [pc] at control
          refine .resume rfl rfl ?_ (slot.trans control.1)
          rw [Main.writing, pc]
          exact if_neg (Nat.not_lt.mpr all)
      | fillEnter index count pc more => exact .of_quiet rfl pc rfl rfl (if_pos more).symm
      | finish pc | underrun pc | poll pc => exact .of_quiet rfl pc rfl rfl rfl
      | readWait | fillWait => exact .idle rfl rfl rfl rfl

/-! ## Since the writer entered a buffer -/

/-- The cursor stands at slot 0 after the step. -/
def AtFirstSlot (_ s : Main) : Prop := s.statics.slot.val = 0

/-- The step brings the writer to buffer `j`. -/
def Enters (j : Nat) (s s' : Main) : Prop := s.writing ≠ some j ∧ s'.writing = some j

/-- The buffer and the index change on a buffer boundary only. -/
theorem WriterMove.turn (move : WriterMove s events s')
    (turned : s'.bufferIndex ≠ s.bufferIndex ∨ s'.writing ≠ s.writing) :
    s'.statics.slot.val = 0 := by
  cases move with
  | idle _ _ buffer index =>
      rcases turned with moved | moved
      · exact absurd index moved
      · exact absurd buffer moved
  | resume _ statics _ turn => rwa [statics]
  | store c j _ _ here _ _ stays =>
      by_contra room
      rcases stays room with ⟨buffer, index⟩
      rcases turned with moved | moved
      · exact moved index
      · exact moved (buffer.trans here.symm)

/-- One more step in the same buffer writes at most the slot of the cursor. -/
theorem WriterMove.stays_written {j : Nat} {since : List Event} (move : WriterMove s events s')
    (before : s.writing = some j) (here : s'.writing = some j)
    (written : (calls since).map Call.place = slots j s.statics.slot) :
    (calls (since ++ events)).map Call.place = slots j s'.statics.slot := by
  rw [calls_append, List.map_append, written]
  cases move with
  | idle silent statics => rw [silent, statics, List.map_nil, List.append_nil]
  | resume _ _ away => cases before.symm.trans away
  | store c i one place here' statics turns _ =>
      obtain rfl : j = i := Option.some.inj (before.symm.trans here')
      have next : s'.statics.slot.val = s.statics.slot.val + 1 := by
        have bound := s.statics.slot.isLt
        have moved := s.statics.slot_next
        have room := mt turns (not_not.mpr here)
        rw [← statics] at moved
        simp only [raspdifBufferSize] at bound moved
        omega
      rw [one, List.map_singleton, place, next, slots_succ]

/-- The step that leaves a buffer has written its last slot. -/
theorem WriterMove.left_written {j : Nat} {since : List Event} (move : WriterMove s events s')
    (before : s.writing = some j) (left : s'.writing ≠ some j)
    (written : (calls since).map Call.place = slots j s.statics.slot) :
    (calls (since ++ events)).map Call.place = slots j raspdifBufferSize := by
  rw [calls_append, List.map_append, written]
  cases move with
  | idle _ _ buffer => exact absurd (buffer.trans before) left
  | resume _ _ away => cases before.symm.trans away
  | store c i one place here statics _ stays =>
      obtain rfl : j = i := Option.some.inj (before.symm.trans here)
      have last : s.statics.slot.val + 1 = raspdifBufferSize := by
        have bound := s.statics.slot.isLt
        have moved := s.statics.slot_next
        have turn : s'.statics.slot.val = 0 := by
          by_contra room
          exact left (stays room).1
        rw [← statics, turn] at moved
        simp only [raspdifBufferSize] at bound moved ⊢
        omega
      rw [one, List.map_singleton, place, ← slots_succ, last]

section

variable {buffers : Nat → RaspdifBuffer} {past since : List Event} {j : Nat}

/-- The slots of the running buffer that were written since a step of one kind, when that
kind covers the ways into the buffer and these start at slot 0. -/
theorem slots_since {mark : Main → Main → Prop}
    (first : ∀ {m m' : Main} {events : List Event}, WriterMove m events m' → mark m m' →
      m'.writing = some j → m'.statics.slot.val = 0)
    (stays : ∀ {m m' : Main} {events : List Event}, WriterMove m events m' → ¬ mark m m' →
      m'.writing = some j → m.writing = some j)
    (split : Since (Main.Step setup) (Main.start buffers) mark past since s)
    (filled : PreloadFills (past ++ since)) (here : s.writing = some j) :
    (calls since).map Call.place = slots j s.statics.slot := by
  induction split with
  | start => rfl
  | marked earlier one marked =>
      rw [List.append_nil] at filled
      have move := (InStep.of_run earlier filled.past).writerMove one filled
      rw [first move marked here]
      rfl
  | later earlier one unmarked ih =>
      -- the invariant is that of the whole run so far, `past` included
      rw [← List.append_assoc] at filled
      have move := (InStep.of_run earlier.run filled.past).writerMove one filled
      have before := stays move unmarked here
      exact move.stays_written before here (ih filled.past before)

theorem slots_since_firstSlot
    (split : Since (Main.Step setup) (Main.start buffers) AtFirstSlot past since s)
    (filled : PreloadFills (past ++ since)) (here : s.writing = some j) :
    (calls since).map Call.place = slots j s.statics.slot := by
  refine slots_since (fun _ marked _ => marked) ?_ split filled here
  intro m m' events move inside here
  by_contra other
  exact inside (move.turn (Or.inr fun same => other (same.symm.trans here)))

theorem slots_since_enters
    (split : Since (Main.Step setup) (Main.start buffers) (Enters j) past since s)
    (filled : PreloadFills (past ++ since)) (here : s.writing = some j) :
    (calls since).map Call.place = slots j s.statics.slot := by
  refine slots_since ?_ ?_ split filled here
  · intro m m' events move enters here
    exact move.turn (Or.inr fun same => enters.1 (same.symm.trans here))
  · intro m m' events move stayed here
    by_contra other
    exact stayed ⟨other, here⟩

end

/-! ## Nothing outside the ring -/

/-- Whichever loop runs, it writes to the buffer whose turn it is. -/
theorem Pc.At.writing_eq {pc : Pc} {n u i j : Nat} {eof : Bool} (at_ : pc.At n u i eof)
    (index : pc = .readLoop ∨ pc = .finished → i = ringIndex n u)
    (here : pc.writing i = some j) : j = ringIndex n u := by
  cases pc with
  | preload =>
      rcases at_ with ⟨-, count, none⟩
      rcases Option.ite_none_right_eq_some.mp here with ⟨room, same⟩
      cases same
      rw [none, ringIndex_of_preload (count ▸ room)]
      exact count
  | readLoop =>
      cases here
      exact index (Or.inl rfl)
  | finished =>
      cases here
      exact index (Or.inr rfl)
  | fillRemainder =>
      cases here
      exact at_.2
  | fillAll =>
      rcases Option.ite_none_right_eq_some.mp here with ⟨-, same⟩
      cases same
      exact at_.2.2.1
  | fillBuffer =>
      cases here
      exact at_.2.1
  | poll =>
      cases here
      exact at_

theorem InStep.writing_lt (inStep : InStep setup trace s) {j : Nat} (here : s.writing = some j) :
    j < raspdifBufferCount := by
  rw [inStep.cursor.control.writing_eq inStep.index here]
  exact ringIndex_lt _ _

/-- The index of `main` is one of the ring, also while `raspdif_fill_buffers` runs. -/
theorem InStep.bufferIndex_lt (inStep : InStep setup trace s) (loop : s.pc ≠ .preload) :
    s.bufferIndex < raspdifBufferCount := by
  have control := inStep.cursor.control
  have index := inStep.index
  have bound (i : Nat) : i % raspdifBufferCount < raspdifBufferCount :=
    Nat.mod_lt _ (Nat.zero_lt_succ _)
  cases pc : s.pc with
  | preload => exact absurd pc loop
  | readLoop =>
      rw [index (Or.inl pc)]
      exact ringIndex_lt _ _
  | finished =>
      rw [index (Or.inr pc)]
      exact ringIndex_lt _ _
  | fillRemainder =>
      rw [pc] at control
      rcases control with ⟨same, turn⟩
      rw [← same, turn]
      exact ringIndex_lt _ _
  | fillAll =>
      rw [pc] at control
      rcases control with ⟨-, -, -, behind⟩
      rw [behind]
      exact bound _
  | fillBuffer =>
      rw [pc] at control
      rcases control with ⟨-, -, behind⟩
      rw [behind]
      exact bound _
  | poll =>
      rw [pc] at control
      exact control.trans_lt (ringIndex_lt _ _)

theorem Cursor.buffer_lt (cursor : Cursor setup trace s) {c : Call} (made : c ∈ calls trace) :
    c.buffer < raspdifBufferCount := by
  rcases List.getElem?_of_mem made with ⟨n, at_⟩
  rcases cursor.placed_getElem? at_ with ⟨before, after, -, -, turn⟩
  rw [turn]
  exact ringIndex_lt _ _

/-- What no call has written is as it was. -/
theorem Kept.buffers_eq {buffers : Nat → RaspdifBuffer} {j : Nat} (kept : Kept buffers trace s)
    (unwritten : ∀ c ∈ calls trace, c.buffer ≠ j) : s.buffers j = buffers j := by
  have same : (s.buffers j).sample = (buffers j).sample :=
    funext fun p => kept j p fun c made here => absurd here (unwritten c made)
  exact congrArg RaspdifBuffer.mk same

end

/-! ## The invariant of the writer -/

/-- The buffer index and the counter of `raspdif_buffer_samples` at the end of a run. -/
structure WriterCursor (setup : Setup) (buffers : Nat → RaspdifBuffer) (trace : List Event)
    (s : Main) : Prop where
  index : s.pc ≠ .preload → s.bufferIndex < raspdifBufferCount
  inRing : ∀ j, s.writing = some j → j < raspdifBufferCount
  readLoop : s.pc = .readLoop → s.writing = some s.bufferIndex
  /-- A run can be cut where the cursor last stood at slot 0. -/
  stood : ∃ past since, trace = past ++ since ∧
    Since (Main.Step setup) (Main.start buffers) AtFirstSlot past since s
  /-- As many slots as the counter says, from slot 0 on and in order, all in this buffer. -/
  written : ∀ past since j, trace = past ++ since →
    Since (Main.Step setup) (Main.start buffers) AtFirstSlot past since s →
    s.writing = some j → (calls since).map Call.place = slots j s.statics.slot
  /-- The last step changed an index only on a buffer boundary. -/
  turned : ∀ past events m, trace = past ++ events →
    Run (Main.Step setup) (Main.start buffers) past m → Main.Step setup m events s →
    s.bufferIndex ≠ m.bufferIndex ∨ s.writing ≠ m.writing → s.statics.slot.val = 0
  /-- When the last step left a buffer, its slots were all written once since it was entered. -/
  left : ∀ past since events m j, trace = past ++ since ++ events →
    Since (Main.Step setup) (Main.start buffers) (Enters j) past since m →
    Main.Step setup m events s → m.writing = some j → s.writing ≠ some j →
    (calls (since ++ events)).map Call.place = slots j raspdifBufferSize
  outside : (∀ c ∈ calls trace, c.buffer < raspdifBufferCount) ∧
    ∀ j, raspdifBufferCount ≤ j → s.buffers j = buffers j

/-- **The writer keeps its cursor.**  In every run whose preload fills the ring, whatever
underruns and wraps of the counter it has, the slots behind the cursor are those that were
written to the running buffer, every buffer is left full, and nothing else is written. -/
theorem writer_cursor {setup : Setup} {buffers : Nat → RaspdifBuffer} {trace : List Event}
    {s : Main} (run : Run (Main.Step setup) (Main.start buffers) trace s)
    (filled : PreloadFills trace) : WriterCursor setup buffers trace s := by
  have inStep := InStep.of_run run filled
  have inside : ∀ c ∈ calls trace, c.buffer < raspdifBufferCount :=
    fun c made => inStep.cursor.buffer_lt made
  refine ⟨inStep.bufferIndex_lt, fun j here => inStep.writing_lt here, ?_,
    run.exists_since AtFirstSlot, ?_, ?_, ?_, inside, ?_⟩
  · intro pc
    rw [Main.writing, pc]
    rfl
  · rintro past since j rfl split here
    exact slots_since_firstSlot split filled here
  · rintro past events m rfl earlier one moved
    exact ((InStep.of_run earlier filled.past).writerMove one filled).turn moved
  · rintro past since events m j rfl split one before after
    have move := (InStep.of_run split.run filled.past).writerMove one filled
    exact move.left_written before after (slots_since_enters split filled.past before)
  · intro j outside
    refine (Kept.of_run run).buffers_eq fun c made same => ?_
    rw [← same] at outside
    exact Nat.not_lt.mpr outside (inside c made)

/-! ## Runs of the read loop -/

section

variable {setup : Setup} {past trace : List Event} {start s : Main}

theorem not_enabled_of_entered_eq_zero {events : List Event} (noVisit : entered events = 0)
    (past : List Event) :
    AtEach (fun before e _ => e = .dmaEnable → (calls (past ++ before)).length = ringSize)
      events := by
  rw [atEach_iff]
  intro before e after split enable
  have none := List.countP_eq_zero.mp noVisit e (by rw [split]; simp)
  rw [enable] at none
  exact absurd rfl none

/-- The DMA is enabled once, when the preload is complete. -/
theorem Preloaded.preloadFills (preloaded : Preloaded setup past start)
    (run : Run (Main.Step setup) start trace s) : PreloadFills (past ++ trace) := by
  have filled : PreloadFills past := by
    have complete := preloaded.complete
    rcases preloaded.visits with ⟨before, copied, rfl, noVisit, -⟩
    refine atEach_append.mpr ⟨not_enabled_of_entered_eq_zero noVisit [], ?_⟩
    rw [atEach_cons, atEach_cons]
    refine ⟨Event.noConfusion, fun _ => ?_, atEach_nil⟩
    rw [calls_append, List.length_append] at complete ⊢
    exact complete
  have loop : start.pc ≠ .preload := by
    rw [preloaded.loop.1]
    exact Pc.noConfusion
  have both := run.invariant_from (fun past m => m.pc ≠ .preload ∧ PreloadFills past)
    ⟨loop, filled⟩ ?_
  · exact both.2
  · intro past events m m' both one
    rcases both with ⟨loop, filled⟩
    have still : entered events = 0 ∧ m'.pc ≠ .preload := by
      cases one with
      | cpu answers ran => exact (Main.step_moves ran).later loop
      | deliver | close => exact ⟨rfl, loop⟩
    exact ⟨still.2, atEach_append.mpr ⟨filled, not_enabled_of_entered_eq_zero still.1 past⟩⟩

end

/-- A preload, an underrun on the first slot of the ring, and one frame more. -/
theorem writer_cursor_underrun : ∃ buffers trace s,
    Run (Main.Step .s16le) (Main.start buffers) trace s ∧ fills trace = 1 ∧
      (calls trace).length = 14337 ∧ WriterCursor .s16le buffers trace s := by
  rcases exists_preloaded_silence with ⟨past, start, preloaded, file⟩
  obtain ⟨silent, resumed, run, idle, filling, last⟩ :=
    exists_silence .s16le (preloaded.idle file)
  obtain ⟨c, s, run', -⟩ := exists_delivered_frame .s16le idle [1, 0, 2, 0] rfl
  rcases preloaded.run with ⟨buffers, history⟩
  have later := run.append run'
  refine ⟨buffers, _, s, history.append later, ?_, ?_,
    writer_cursor (history.append later) (preloaded.preloadFills later)⟩
  · simp only [fills_append, preloaded.fills_eq, last.fills_eq]
    rfl
  · have read : (calls [.fread []]).length = 0 := rfl
    have frame : (calls [.delivered [1, 0, 2, 0], .fread [1, 0, 2, 0], .call c]).length = 1 := rfl
    simp only [calls_append, List.length_append, filling.calls, preloaded.complete, read, frame]
    rfl

end Raspdif
