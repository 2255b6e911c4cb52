import Raspdif.Dma.System

/-!
# Audio is played before it is overwritten

A frame of the input is stored in a buffer that the DMA is not at, so the DMA's next
visit of that buffer is still to come: it is visit number `nextVisit`, one of the next
three.  A slot may be written again when that visit is over.

`Pc.Guard` is the invariant: for a slot that holds an input frame it bounds that visit by
the number of visits begun so far, according to the place of the slot in the ring and the
loop that the program is in.  Each test of the DMA position moves the bounds on by one,
and the stores that follow need no test of their own: that is why the rest of the current
buffer may be filled without one.
-/

namespace Raspdif

open Trace

/-- The first visit of buffer `j` after `now` visits have begun. -/
def nextVisit (now j : Nat) : Nat := now + 1 + (j + 2 * now) % raspdifBufferCount

theorem lt_nextVisit (now j : Nat) : now < nextVisit now j := by
  unfold nextVisit
  omega

theorem nextVisit_mod (now : Nat) {j : Nat} (inRing : j < raspdifBufferCount) :
    (nextVisit now j + 2) % raspdifBufferCount = j := by
  simp only [nextVisit, raspdifBufferCount] at *
  omega

/-! ## The invariant -/

/-- What holds of the visit that will play the input frame in slot `q` of buffer `j`, when
`now` visits have begun and the next call writes to `slot`. -/
def Pc.Guard (bufferIndex slot now j q visit : Nat) : Pc → Prop
  | .readLoop =>
      visit ≤ now + 2 ∧ (j = (bufferIndex + 1) % raspdifBufferCount → visit ≤ now + 1) ∧
        (j = bufferIndex → slot ≤ q → visit ≤ now)
  | .fillRemainder i =>
      visit ≤ now + 2 ∧ (j = (i + 2) % raspdifBufferCount → visit ≤ now + 1) ∧
        (j = (i + 1) % raspdifBufferCount → visit ≤ now) ∧
        (j = i → slot ≤ q → visit + 1 ≤ now)
  -- The `count` buffers before buffer `i` hold nothing but silence.
  | .fillAll i count =>
      visit ≤ now + 2 ∧ (j = (i + 2) % raspdifBufferCount → count = 0) ∧
        (j = (i + 1) % raspdifBufferCount → count ≤ 1 ∧ visit ≤ now + 1) ∧
        (j = i → count ≤ 2 ∧ visit ≤ now)
  | .fillBuffer i count =>
      visit ≤ now + 2 ∧ (j = (i + 2) % raspdifBufferCount → count = 0 ∧ visit ≤ now + 1) ∧
        (j = (i + 1) % raspdifBufferCount → count ≤ 1 ∧ visit ≤ now) ∧
        (j = i → slot ≤ q ∧ visit + 1 ≤ now)
  | .poll => False
  | .preload | .finished => True

/-- The guard of a state after `n` calls and `now` visits. -/
def Main.Guard (s : Main) (n now j q visit : Nat) : Prop :=
  s.pc.Guard s.bufferIndex (n % raspdifBufferSize) now j q visit

/-! ## How the guard moves -/

section

variable {i count n now j q visit : Nat} {full : Bool}

/-- More visits only help. -/
theorem Pc.Guard.mono {pc : Pc} {bufferIndex slot : Nat}
    (guard : pc.Guard bufferIndex slot now j q visit) :
    pc.Guard bufferIndex slot (now + 1) j q visit := by
  cases pc with
  | preload | finished => trivial
  | poll => exact guard
  | readLoop | fillRemainder | fillAll | fillBuffer =>
      simp only [Pc.Guard] at guard ⊢
      omega

/-- The DMA is not at buffer `i`: no visit of it is going on, and the next one is not of
the buffer behind it. -/
theorem Pc.Guard.underrun {slot : Nat} (guard : Pc.readLoop.Guard i slot now j q visit)
    (inRing : i < raspdifBufferCount) (away : (now + 2) % raspdifBufferCount ≠ i)
    (plays : (visit + 2) % raspdifBufferCount = j) :
    (Pc.fillRemainder i).Guard i slot now j q visit := by
  simp only [Pc.Guard, raspdifBufferCount] at *
  omega

theorem Pc.Guard.readFrame (guard : Pc.readLoop.Guard i (n % raspdifBufferSize) now j q visit)
    (fills : full = true ↔ (n + 1) % raspdifBufferSize = 0) (inRing : i < raspdifBufferCount)
    (away : (now + 2) % raspdifBufferCount ≠ i) (plays : (visit + 2) % raspdifBufferCount = j)
    (inBuffer : q < raspdifBufferSize) (other : ¬ (j = i ∧ q = n % raspdifBufferSize)) :
    Pc.readLoop.Guard (if full then (i + 1) % raspdifBufferCount else i)
      ((n + 1) % raspdifBufferSize) now j q visit := by
  split
  next turn =>
    rw [fills] at turn
    simp only [Pc.Guard, raspdifBufferCount, raspdifBufferSize] at *
    omega
  next stay =>
    rw [fills] at stay
    simp only [Pc.Guard, raspdifBufferCount, raspdifBufferSize] at *
    omega

/-- The frame just stored is played by the visit after next at the latest. -/
theorem Pc.guard_stored (fills : full = true ↔ (n + 1) % raspdifBufferSize = 0)
    (inRing : i < raspdifBufferCount) (away : (now + 2) % raspdifBufferCount ≠ i) :
    Pc.readLoop.Guard (if full then (i + 1) % raspdifBufferCount else i)
      ((n + 1) % raspdifBufferSize) now i (n % raspdifBufferSize) (nextVisit now i) := by
  split
  next turn =>
    rw [fills] at turn
    simp only [Pc.Guard, nextVisit, raspdifBufferCount, raspdifBufferSize] at *
    omega
  next stay =>
    rw [fills] at stay
    simp only [Pc.Guard, nextVisit, raspdifBufferCount, raspdifBufferSize] at *
    omega

theorem Pc.Guard.fillRemainder {bufferIndex : Nat}
    (guard : (Pc.fillRemainder i).Guard bufferIndex (n % raspdifBufferSize) now j q visit)
    (fills : full = true ↔ (n + 1) % raspdifBufferSize = 0) (inRing : i < raspdifBufferCount)
    (other : ¬ (j = i ∧ q = n % raspdifBufferSize)) (inBuffer : q < raspdifBufferSize) :
    (if full then Pc.fillAll ((i + 1) % raspdifBufferCount) 0 else Pc.fillRemainder i).Guard
      bufferIndex ((n + 1) % raspdifBufferSize) now j q visit := by
  split
  next turn =>
    rw [fills] at turn
    simp only [Pc.Guard, raspdifBufferCount, raspdifBufferSize, implies_true, true_and] at *
    omega
  next stay =>
    rw [fills] at stay
    simp only [Pc.Guard, raspdifBufferCount, raspdifBufferSize] at *
    omega

theorem Pc.Guard.fillEnter {bufferIndex slot : Nat}
    (guard : (Pc.fillAll i count).Guard bufferIndex slot now j q visit)
    (inRing : i < raspdifBufferCount) (away : (now + 2) % raspdifBufferCount ≠ i)
    (plays : (visit + 2) % raspdifBufferCount = j) (start : slot = 0) :
    (Pc.fillBuffer i count).Guard bufferIndex slot now j q visit := by
  simp only [Pc.Guard, raspdifBufferCount] at *
  omega

theorem Pc.Guard.fillBuffer {bufferIndex : Nat}
    (guard : (Pc.fillBuffer i count).Guard bufferIndex (n % raspdifBufferSize) now j q visit)
    (fills : full = true ↔ (n + 1) % raspdifBufferSize = 0) (inRing : i < raspdifBufferCount)
    (other : ¬ (j = i ∧ q = n % raspdifBufferSize)) (inBuffer : q < raspdifBufferSize) :
    (if full then Pc.fillAll ((i + 1) % raspdifBufferCount) (count + 1)
      else Pc.fillBuffer i count).Guard
      bufferIndex ((n + 1) % raspdifBufferSize) now j q visit := by
  split
  next turn =>
    rw [fills] at turn
    simp only [Pc.Guard, raspdifBufferCount, raspdifBufferSize] at *
    omega
  next stay =>
    rw [fills] at stay
    simp only [Pc.Guard, raspdifBufferCount, raspdifBufferSize] at *
    omega

/-- After three buffers of silence no input frame is left. -/
theorem Pc.Guard.fillReturn {bufferIndex slot : Nat}
    (guard : (Pc.fillAll i count).Guard bufferIndex slot now j q visit)
    (all : raspdifBufferCount ≤ count) (inRing : i < raspdifBufferCount)
    (plays : j < raspdifBufferCount) : False := by
  simp only [Pc.Guard, raspdifBufferCount] at *
  omega

end

/-- Two calls write to the same slot. -/
def SameSlot (c d : Call) : Prop := c.buffer = d.buffer ∧ c.slot = d.slot

/-- A property of the input frames that no later call has overwritten. -/
def Holding (P : Nat → Call → Prop) (before : List Event) (e : Event) (after : List Event) :
    Prop :=
  ∀ c, e = .call c → c.source = .input → (∀ d ∈ calls after, ¬ SameSlot d c) →
    P (entered before) c

/-- A call overwrites input frames only after they were played. -/
def PlayedFirst (before : List Event) (e : Event) : Prop :=
  ∀ d, e = .call d →
    AtEach (Holding fun now c => SameSlot d c → nextVisit now c.buffer + 1 ≤ entered before) before

structure Protected (trace : List Event) (s : Main) : Prop where
  guarded : AtEach (Holding fun now c => s.Guard (calls trace).length (entered trace) c.buffer
    c.slot.val (nextVisit now c.buffer)) trace
  played : AtEach (fun before e _ => PlayedFirst before e) trace

section

variable {setup : Setup} {allow : Main → Nat → Prop} {s s' : Main} {trace events : List Event}

theorem Holding.weaken {P Q : Nat → Call → Prop} {before after : List Event} {e : Event}
    (holding : Holding P before e after) (later : List Event)
    (weaken : ∀ c, e = .call c → (∀ d ∈ calls later, ¬ SameSlot d c) →
      P (entered before) c → Q (entered before) c) :
    Holding Q before e (after ++ later) := by
  intro c call input kept
  rw [calls_append, List.forall_mem_append] at kept
  exact weaken c call kept.2 (holding c call input kept.1)

theorem Holding.vacuous {P : Nat → Call → Prop} {before after : List Event} {e : Event}
    (other : ∀ c, e ≠ .call c) : Holding P before e after :=
  fun c call => absurd call (other c)

theorem PlayedFirst.vacuous {before : List Event} {e : Event} (other : ∀ c, e ≠ .call c) :
    PlayedFirst before e :=
  fun c call => absurd call (other c)

/-- The guards of the frames held so far, in a later state. -/
theorem Protected.guarded_later {Q : Nat → Call → Prop} (protected_ : Protected trace s)
    (cursor : Cursor setup trace s)
    (later : ∀ now c, c.buffer < raspdifBufferCount → (∀ d ∈ calls events, ¬ SameSlot d c) →
      s.Guard (calls trace).length (entered trace) c.buffer c.slot.val (nextVisit now c.buffer) →
      Q now c) :
    AtEach (fun before e after => Holding Q before e (after ++ events)) trace := by
  rw [atEach_iff]
  intro before e after split
  refine (atEach_iff.mp protected_.guarded before e after split).weaken events ?_
  intro c call none guard
  obtain ⟨-, buffer⟩ := atEach_iff.mp cursor.placed before e after split c call
  exact later _ c (buffer ▸ ringIndex_lt _ _) none guard

/-- A step without a call, in which so many visits begin. -/
theorem Protected.quiet (protected_ : Protected trace s) (cursor : Cursor setup trace s)
    (visits : Nat) (begun : entered events = visits) (silent : calls events = [])
    (guard : ∀ j q visit, (visit + 2) % raspdifBufferCount = j → j < raspdifBufferCount →
      s.Guard (calls trace).length (entered trace) j q visit →
      s'.Guard (calls trace).length (entered trace + visits) j q visit) :
    Protected (trace ++ events) s' where
  guarded := by
    rw [calls_append, silent, List.append_nil, entered_append, begun]
    refine atEach_append.mpr ⟨protected_.guarded_later cursor ?_,
      atEach_of_calls_nil silent fun _ _ _ => Holding.vacuous⟩
    intro now c inRing none held
    exact guard _ _ _ (nextVisit_mod now inRing) inRing held
  played := atEach_append.mpr ⟨protected_.played,
    atEach_of_calls_nil silent fun _ _ _ => PlayedFirst.vacuous⟩

/-- A step that ends in a call `d`: what `d` overwrites was played, the other frames stay
guarded, and so is `d` itself when it is input. -/
theorem Protected.store (protected_ : Protected trace s) (cursor : Cursor setup trace s)
    (quiet : List Event) {d : Call} (silent : calls quiet = []) (noVisit : entered quiet = 0)
    (due : ∀ visit, (visit + 2) % raspdifBufferCount = d.buffer →
      s.Guard (calls trace).length (entered trace) d.buffer d.slot.val visit →
      visit + 1 ≤ entered trace)
    (others : ∀ j q visit, (visit + 2) % raspdifBufferCount = j → j < raspdifBufferCount →
      q < raspdifBufferSize → ¬ (j = d.buffer ∧ q = d.slot.val) →
      s.Guard (calls trace).length (entered trace) j q visit →
      s'.Guard ((calls trace).length + 1) (entered trace) j q visit)
    (own : d.source = .input →
      s'.Guard ((calls trace).length + 1) (entered trace) d.buffer d.slot.val
        (nextVisit (entered trace) d.buffer)) :
    Protected (trace ++ (quiet ++ [.call d])) s' where
  guarded := by
    have one : calls [.call d] = [d] := rfl
    have none : entered [.call d] = 0 := rfl
    rw [calls_append, calls_append, silent, List.nil_append, one, List.length_append,
      List.length_singleton, entered_append, entered_append, noVisit, none, Nat.add_zero]
    refine atEach_append.mpr ⟨protected_.guarded_later cursor ?_, atEach_append.mpr
      ⟨atEach_of_calls_nil silent fun _ _ _ => Holding.vacuous, ?_⟩⟩
    · intro now c inRing kept held
      rw [calls_append, silent, List.nil_append, one, List.forall_mem_singleton] at kept
      refine others _ _ _ (nextVisit_mod now inRing) inRing c.slot.isLt ?_ held
      exact fun same => kept ⟨same.1.symm, Fin.ext same.2.symm⟩
    · rw [atEach_cons, List.append_nil]
      refine ⟨?_, atEach_nil⟩
      intro c call input _
      obtain rfl := Event.call.inj call
      rw [entered_append, noVisit, Nat.add_zero]
      exact own input
  played := by
    refine atEach_append.mpr ⟨protected_.played, atEach_append.mpr
      ⟨atEach_of_calls_nil silent fun _ _ _ => PlayedFirst.vacuous, ?_⟩⟩
    rw [atEach_cons, List.append_nil]
    refine ⟨?_, atEach_nil⟩
    intro c call
    obtain rfl := Event.call.inj call
    refine atEach_append.mpr ⟨protected_.guarded_later cursor ?_,
      atEach_of_calls_nil silent fun _ _ _ => Holding.vacuous⟩
    intro now c inRing _ held same
    rw [entered_append, noVisit, Nat.add_zero]
    rw [← same.1, same.2.symm] at held
    rw [← same.1]
    exact due _ (nextVisit_mod now (same.1.trans_lt inRing)) held

/-- A test that finds the DMA elsewhere. -/
theorem Circling.dma_ne {sys : System} {answers : Answers} {i : Nat}
    (circling : Circling setup trace sys) (here : answers.conblkAd = setup.controlBlock sys.dma)
    (away : answers.conblkAd ≠ setup.controlBlock i) :
    (entered trace + 2) % raspdifBufferCount ≠ i := by
  rintro rfl
  rw [here, circling.dma] at away
  exact away rfl

theorem Protected.readFrame (protected_ : Protected trace s) (cursor : Cursor setup trace s)
    (pc : s.pc = .readLoop) (noEof : s.file.eof = false)
    (away : (entered trace + 2) % raspdifBufferCount ≠ s.bufferIndex)
    (after : s' = { ((s.afterRead setup).bufferInput setup).main with
      bufferIndex :=
        if ((s.afterRead setup).bufferInput setup).full then
          (s.bufferIndex + 1) % raspdifBufferCount
        else s.bufferIndex }) :
    Protected (trace ++ [.fread (s.fread setup).copied,
      .call ((s.afterRead setup).bufferInput setup).call]) s' := by
  have control := cursor.control
  have input := Main.bufferInput_full setup (s := s.afterRead setup) cursor.encoder
  have slot : s.statics.slot.val = _ := cursor.encoder.slot
  rw [pc] at control
  have bound := ringIndex_lt (calls trace).length (fills trace)
  rw [← control.resolve_left (by simp [noEof])] at bound
  have pc' : s'.pc = .readLoop := by
    rw [after]
    exact pc
  refine protected_.store cursor [_] rfl rfl ?_ ?_ ?_
  · intro visit plays guard
    unfold Main.Guard at guard
    rw [pc] at guard
    have begun : visit ≤ entered trace := guard.2.2 rfl slot.ge
    change (visit + 2) % raspdifBufferCount = s.bufferIndex at plays
    simp only [raspdifBufferCount] at *
    omega
  · intro j q visit plays inRing inBuffer other guard
    unfold Main.Guard at guard ⊢
    rw [pc] at guard
    rw [pc', after]
    change ¬ (j = s.bufferIndex ∧ q = s.statics.slot.val) at other
    rw [slot] at other
    exact guard.readFrame input bound away plays inBuffer other
  · intro _
    unfold Main.Guard
    rw [pc', after]
    change Pc.readLoop.Guard _ _ _ _ s.statics.slot.val _
    rw [slot]
    exact Pc.guard_stored input bound away

theorem Protected.program {sys : System} {answers : Answers}
    (protected_ : Protected trace sys.main) (circling : Circling setup trace sys)
    (here : answers.conblkAd = setup.controlBlock sys.dma)
    (moves : sys.main.Moves setup answers s' events) : Protected (trace ++ events) s' := by
  have cursor := circling.cursor
  have control := cursor.control
  have slot : sys.main.statics.slot.val = _ := cursor.encoder.slot
  have bound := ringIndex_lt (calls trace).length (fills trace)
  cases moves with
  | preloadFrame pc => exact absurd pc circling.loop
  | preloadDone pc => exact absurd pc circling.loop
  | finish pc eof => exact protected_.quiet cursor 0 rfl rfl fun _ _ _ _ _ _ => trivial
  | readWait pc => exact protected_.quiet cursor 0 rfl rfl fun _ _ _ _ _ guard => guard
  | underrun pc away short noEof =>
      rw [pc] at control
      have before : sys.main.file.eof = false := (Bool.or_eq_false_iff.mp noEof).1
      rw [← control.resolve_left (by simp [before])] at bound
      refine protected_.quiet cursor 0 rfl rfl fun j q visit plays inRing guard => ?_
      unfold Main.Guard at guard ⊢
      rw [pc] at guard
      exact guard.underrun bound (circling.dma_ne here away) plays
  | readFrame pc noEof away enough =>
      exact protected_.readFrame cursor pc noEof (circling.dma_ne here away) rfl
  | fillRemainder index pc =>
      have fill := Main.bufferFill_full setup cursor.encoder answers index
      rw [pc] at control
      rw [← control.2] at bound
      refine protected_.store cursor [] rfl rfl ?_ ?_ fun input => nomatch input
      · intro visit plays guard
        unfold Main.Guard at guard
        rw [pc] at guard
        exact guard.2.2.2 rfl slot.ge
      · intro j q visit plays inRing inBuffer other guard
        unfold Main.Guard at guard ⊢
        rw [pc] at guard
        change ¬ (j = index ∧ q = sys.main.statics.slot.val) at other
        rw [slot] at other
        exact guard.fillRemainder fill bound other inBuffer
  | fillWait index count pc more =>
      exact protected_.quiet cursor 0 rfl rfl fun _ _ _ _ _ guard => guard
  | fillEnter index count pc more away =>
      rw [pc] at control
      rcases control with ⟨start, -, turn, -⟩
      rw [← turn] at bound
      refine protected_.quiet cursor 0 rfl rfl fun j q visit plays inRing guard => ?_
      unfold Main.Guard at guard ⊢
      rw [pc] at guard
      exact guard.fillEnter bound (circling.dma_ne here away) plays start
  | fillReturn index count pc all =>
      rw [pc] at control
      rcases control with ⟨-, -, turn, -⟩
      rw [← turn] at bound
      refine protected_.quiet cursor 0 rfl rfl fun j q visit plays inRing guard => ?_
      unfold Main.Guard at guard
      rw [pc] at guard
      exact (guard.fillReturn all bound inRing).elim
  | fillBuffer index count pc =>
      have fill := Main.bufferFill_full setup cursor.encoder answers index
      rw [pc] at control
      rcases control with ⟨more, turn, -⟩
      rw [← turn] at bound
      refine protected_.store cursor [] rfl rfl ?_ ?_ fun input => nomatch input
      · intro visit plays guard
        unfold Main.Guard at guard
        rw [pc] at guard
        exact (guard.2.2.2 rfl).2
      · intro j q visit plays inRing inBuffer other guard
        unfold Main.Guard at guard ⊢
        rw [pc] at guard
        change ¬ (j = index ∧ q = sys.main.statics.slot.val) at other
        rw [slot] at other
        exact guard.fillBuffer fill bound other inBuffer
  | poll pc =>
      refine protected_.quiet cursor 0 rfl rfl fun j q visit plays inRing guard => ?_
      unfold Main.Guard at guard
      rw [pc] at guard
      exact guard.elim

theorem Protected.step {sys sys' : System} (protected_ : Protected trace sys.main)
    (circling : Circling setup trace sys) (one : System.Step setup allow sys events sys') :
    Protected (trace ++ events) sys'.main := by
  cases one.acts circling.inRing with
  | program answers here step moves => exact protected_.program circling here moves
  | deliver | close =>
      exact protected_.quiet circling.cursor 0 rfl rfl fun _ _ _ _ _ guard => guard
  | dma allowed =>
      exact protected_.quiet circling.cursor 1 rfl rfl fun _ _ _ _ _ guard => guard.mono

/-! ## The preloaded frames -/

/-- No slot is written twice during the preload. -/
theorem Preloaded.slots_distinct {start : Main} (preloaded : Preloaded setup trace start)
    {before middle after : List Event} {c d : Call}
    (split : trace = before ++ .call c :: (middle ++ .call d :: after)) : ¬ SameSlot d c := by
  rintro ⟨buffer, slot⟩
  have placed := preloaded.cursor.placed
  have noFill := preloaded.fills_eq
  have complete := preloaded.complete
  have split' : trace = (before ++ [.call c] ++ middle) ++ .call d :: after := by
    rw [split]
    simp
  have first := atEach_iff.mp placed _ _ _ split
  have second := atEach_iff.mp placed _ _ _ split'
  have cOne : calls [.call c] = [c] := rfl
  have dOne : calls (.call d :: after) = d :: calls after := rfl
  rw [split', fills_append, fills_append, fills_append] at noFill
  rw [split', calls_append, calls_append, calls_append, cOne, dOne] at complete
  simp only [List.length_append, List.length_cons, List.length_nil] at complete
  have cPlace := first.ringPlace ⟨0, by omega⟩
  have dPlace := second.ringPlace ⟨0, by rw [fills_append, fills_append]; omega⟩
  rw [buffer, slot, cPlace, calls_append, calls_append, cOne] at dPlace
  refine spread_ringPlace _ _ ?_ ?_ dPlace
  all_goals
    simp only [List.length_append, List.length_cons, List.length_nil]
    omega

theorem Protected.of_preloaded {start : Main} (preloaded : Preloaded setup trace start) :
    Protected trace start where
  guarded := by
    have cursor := preloaded.cursor
    rcases preloaded.loop with ⟨loop, index⟩
    have complete := preloaded.complete
    rcases preloaded.visits with ⟨past, copied, split, noVisit, -⟩
    have begun : entered trace = 1 := by
      rw [split, entered_append, noVisit]
      rfl
    rw [atEach_iff]
    intro before e after here c call _ _
    obtain ⟨-, buffer⟩ := atEach_iff.mp cursor.placed before e after here c call
    have none : entered before = 0 := by
      subst call
      rcases cons_split_of_append (split.symm.trans here) with ⟨part, rfl, -⟩ | ⟨part, -, rest⟩
      · rw [entered_append] at noVisit
        exact Nat.eq_zero_of_add_eq_zero_right noVisit
      · rcases part with _ | ⟨f, _ | ⟨g, part⟩⟩ <;> simp at rest
    have bound := ringIndex_lt (calls before).length (fills before)
    rw [← buffer] at bound
    unfold Main.Guard
    rw [loop, index, complete, begun, none]
    simp only [Pc.Guard, nextVisit, raspdifBufferCount, raspdifBufferSize] at *
    omega
  played := by
    rw [atEach_iff]
    intro before e after split d call
    subst call
    rw [atEach_iff]
    intro earlier f middle here c call _ _ same
    subst call here
    have split' : trace = earlier ++ .call c :: (middle ++ .call d :: after) := by
      rw [split, List.append_assoc, List.cons_append]
    exact absurd same (preloaded.slots_distinct split')

theorem Protected.of_run {past : List Event} {start : Main} {sys : System}
    (preloaded : Preloaded setup past start)
    (run : Run (System.Step setup allow) ⟨start, 0⟩ trace sys) :
    Protected (past ++ trace) sys.main := by
  have both := run.invariant_from
    (fun history m => Circling setup history m ∧ Protected history m.main)
    ⟨Circling.of_preloaded preloaded, Protected.of_preloaded preloaded⟩
    fun both one => ⟨both.1.step one, both.2.step both.1 one⟩
  exact both.2

/-- The visits in a stretch of the trace: number `visit` is one of buffer `j`, and the next
one ends it. -/
theorem exists_visit (before middle after : List Event) {j visit : Nat}
    (order : AtEach (fun before e _ => VisitOrder before e) (before ++ middle ++ after))
    (first : entered before < visit) (second : visit + 1 ≤ entered before + entered middle)
    (plays : (visit + 2) % raspdifBufferCount = j) :
    ∃ earlier enter stay leave rest, middle = earlier ++ enter :: (stay ++ leave :: rest) ∧
      enter.enters = some j ∧ entered stay = 0 ∧ leave.leaves = some j := by
  obtain ⟨earlier, enter, later, i, rfl, enters, count⟩ :=
    exists_enter middle (k := visit - 1 - entered before) (by omega)
  rw [entered_append, entered_cons enters] at second
  obtain ⟨stay, leave, rest, l, rfl, ends, none⟩ := exists_enter later (k := 0) (by omega)
  have enterOrder := atEach_iff.mp order (before ++ earlier) enter
    (stay ++ leave :: rest ++ after) (by simp) i enters
  have leaveOrder := atEach_iff.mp order (before ++ (earlier ++ enter :: stay)) leave
    (rest ++ after) (by simp) l ends
  rw [entered_append] at enterOrder
  rw [entered_append, entered_append, entered_cons enters] at leaveOrder
  refine ⟨earlier, enter, stay, leave, rest, rfl, ?_, none, ?_⟩
  · rw [enters, enterOrder.1]
    refine congrArg some ?_
    simp only [raspdifBufferCount] at *
    omega
  · rw [leaveOrder.2 (by omega), ← plays]
    congr 2
    omega

end

/-- **Real audio is played before it is overwritten.**  In every run of the system that
starts at a complete preload, with the DMA at buffer 0 and free to move at any time, when
call `d` writes to the slot of input frame `c`, which no call in between has written to,
the DMA has come to that buffer and left it since. -/
theorem played_before_overwritten {setup : Setup} {past trace : List Event} {start : Main}
    {s : System} (preloaded : Preloaded setup past start)
    (run : Run (System.Step setup fun _ _ => True) ⟨start, 0⟩ trace s)
    {before middle after : List Event} {c d : Call}
    (split : past ++ trace = before ++ .call c :: (middle ++ .call d :: after))
    (input : c.source = .input) (same : SameSlot d c)
    (between : ∀ other ∈ calls middle, ¬ SameSlot other c) :
    ∃ earlier enter stay leave rest, middle = earlier ++ enter :: (stay ++ leave :: rest) ∧
      enter.enters = some c.buffer ∧ entered stay = 0 ∧ leave.leaves = some c.buffer := by
  have circling := Circling.of_run preloaded run
  have protected_ := Protected.of_run preloaded run
  have split' : past ++ trace = (before ++ .call c :: middle) ++ .call d :: after := by
    rw [split, List.append_assoc, List.cons_append]
  have played := atEach_iff.mp (atEach_iff.mp protected_.played _ _ _ split' d rfl) before
    (.call c) middle rfl c rfl input between same
  obtain ⟨-, buffer⟩ := atEach_iff.mp circling.cursor.placed before _ _ split c rfl
  have inRing := ringIndex_lt (calls before).length (fills before)
  rw [← buffer] at inRing
  have none : entered [.call c] = 0 := rfl
  have order := circling.order
  rw [split', List.append_cons before (.call c) middle] at order
  have count : entered (before ++ [.call c]) = entered before := by
    rw [entered_append, none, Nat.add_zero]
  rw [List.append_cons, entered_append, count] at played
  refine exists_visit (before ++ [.call c]) middle (.call d :: after) order ?_ ?_
    (nextVisit_mod (entered before) inRing)
  · rw [count]
    exact lt_nextVisit _ _
  · rw [count]
    exact played

theorem exists_split_of_mem_calls {trace : List Event} {c : Call} (member : c ∈ calls trace) :
    ∃ before after, trace = before ++ .call c :: after := by
  obtain ⟨n, bound, rfl⟩ := List.getElem_of_mem member
  obtain ⟨before, after, split, -⟩ :=
    exists_split_of_getElem?_calls (List.getElem?_eq_getElem bound)
  exact ⟨before, after, split⟩

/-- The call that stored the first frame of a complete preload. -/
theorem Preloaded.first_call {setup : Setup} {trace : List Event} {start : Main}
    (preloaded : Preloaded setup trace start) :
    ∃ before c after, trace = before ++ .call c :: after ∧ c.source = .input ∧
      (c.buffer, c.slot) = ringPlace 0 := by
  have bound : 0 < (calls trace).length := by
    rw [preloaded.complete]
    exact Nat.zero_lt_succ _
  have first : (calls trace)[0]? = some (calls trace)[0] := List.getElem?_eq_getElem bound
  rcases preloaded.visits with ⟨-, -, -, -, input⟩
  obtain ⟨before, after, split, count⟩ := exists_split_of_getElem?_calls first
  have noFill : fills before = 0 := by
    have all := preloaded.fills_eq
    rw [split, fills_append] at all
    exact Nat.eq_zero_of_add_eq_zero_right all
  have place := (atEach_iff.mp preloaded.cursor.placed before _ after split).ringPlace
    ⟨0, noFill⟩
  rw [count] at place
  exact ⟨before, _, after, split, input _ (List.getElem_mem bound), place⟩

/-- One move of the DMA after a complete preload lets the first slot be written again:
it was played by then. -/
theorem played_before_first_overwrite : ∃ past start trace s before c middle d,
    Preloaded .s16le past start ∧
      Run (System.Step .s16le fun _ _ => True) ⟨start, 0⟩ trace s ∧
      past ++ trace = before ++ .call c :: (middle ++ [.call d]) ∧ SameSlot d c ∧
      ∃ earlier enter stay leave rest, middle = earlier ++ enter :: (stay ++ leave :: rest) ∧
        enter.enters = some c.buffer ∧ entered stay = 0 ∧ leave.leaves = some c.buffer := by
  rcases exists_preloaded_silence with ⟨past, start, preloaded, file⟩
  rcases preloaded.loop with ⟨pc, index⟩
  rcases preloaded.first_call with ⟨before, c, after, split, input, place⟩
  obtain ⟨d, main, run, -, turn, same⟩ :=
    System.exists_move_readFrame (fun _ _ => True) pc index file trivial
  have slot := preloaded.cursor.encoder.slot
  rw [preloaded.complete] at slot
  obtain ⟨buffer, slot'⟩ := Prod.ext_iff.mp place
  have onSame : SameSlot d c :=
    ⟨turn.trans buffer.symm, same.trans (Fin.ext (slot.trans (Fin.val_eq_of_eq slot').symm))⟩
  have split' : past ++ [.dmaMove 0 1 (start.buffers 0), .delivered [1, 0, 2, 0],
      .fread [1, 0, 2, 0], .call d] =
      before ++ .call c :: ((after ++ [.dmaMove 0 1 (start.buffers 0), .delivered [1, 0, 2, 0],
        .fread [1, 0, 2, 0]]) ++ [.call d]) := by
    rw [split]
    simp
  refine ⟨past, start, _, _, before, c, _, d, preloaded, run, split', onSame, ?_⟩
  refine played_before_overwritten preloaded run split' input onSame ?_
  have none : calls [.dmaMove 0 1 (start.buffers 0), .delivered [1, 0, 2, 0],
      .fread [1, 0, 2, 0]] = [] := rfl
  rw [calls_append, none, List.append_nil]
  intro other member
  rcases exists_split_of_mem_calls member with ⟨first, rest, here⟩
  rw [here] at split
  exact preloaded.slots_distinct split

end Raspdif
