import Raspdif.Dma.Playback
import Raspdif.Dma.Walk
import Raspdif.Lib.Simulation

/-!
# The program beside the DMA engine

`Live` is the program with the engine of `Raspdif/Dma/Walk.lean`.  Between any two steps
of the program the engine copies any number of words to the PCM FIFO, each as the buffers
hold it at that moment, and the program's tests read the engine's `CONBLK_AD`.

`System` is what is left of this when only whole buffers count.  Each of the two has the
runs of the other: `Live.exists_system` and `System.exists_live`.
-/

namespace Raspdif

open Trace

structure Live where
  main : Main
  engine : Engine

inductive LiveEvent
  | program (e : Event)
  | dma (access : DmaAccess)

def LiveEvent.program? : LiveEvent → Option Event
  | .program e => some e
  | .dma _ => none

def LiveEvent.access? : LiveEvent → Option DmaAccess
  | .dma access => some access
  | .program _ => none

/-- What the program and its input did. -/
def programEvents (trace : List LiveEvent) : List Event := trace.filterMap LiveEvent.program?

/-- What the engine did. -/
def accesses (trace : List LiveEvent) : List DmaAccess := trace.filterMap LiveEvent.access?

/-- The words copied to the FIFO, in order. -/
def transmitted (trace : List LiveEvent) : List (BitVec 32) :=
  (copies (accesses trace)).map DmaCopy.word

@[simp] theorem programEvents_append (first second : List LiveEvent) :
    programEvents (first ++ second) = programEvents first ++ programEvents second :=
  List.filterMap_append

@[simp] theorem accesses_append (first second : List LiveEvent) :
    accesses (first ++ second) = accesses first ++ accesses second :=
  List.filterMap_append

@[simp] theorem transmitted_append (first second : List LiveEvent) :
    transmitted (first ++ second) = transmitted first ++ transmitted second := by
  rw [transmitted, accesses_append, copies_append, List.map_append]
  rfl

theorem programEvents_map (events : List Event) :
    programEvents (events.map .program) = events := by
  induction events with
  | nil => rfl
  | cons e events ih => exact congrArg (e :: ·) ih

theorem accesses_map_program (events : List Event) : accesses (events.map .program) = [] := by
  induction events with
  | nil => rfl
  | cons e events ih => exact ih

/-- Steps of the program, of its input and of the engine.  `allow` may bar the engine from
loading some control blocks. -/
inductive Live.Step (setup : Setup) (allow : Main → Nat → Prop) :
    Live → List LiveEvent → Live → Prop
  | cpu {s : Live} {main : Main} {events : List Event} (answers : Answers) :
    answers.conblkAd = s.engine.conblkAd →
    s.main.step setup answers = some (main, events) →
    Live.Step setup allow s (events.map .program) ⟨main, s.engine⟩
  | deliver {s : Live} (bytes : List UInt8) : s.main.file.closed = false →
    Live.Step setup allow s [.program (.delivered bytes)]
      ⟨{ s.main with file := { s.main.file with pending := s.main.file.pending ++ bytes } },
        s.engine⟩
  | close {s : Live} :
    Live.Step setup allow s [.program .closed]
      ⟨{ s.main with file := { s.main.file with closed := true } }, s.engine⟩
  | copy {s : Live} (elsewhere : BitVec 32 → BitVec 32) : 0 < s.engine.left →
    Live.Step setup allow s
      [.dma (.copy ⟨s.engine.source, s.engine.destination,
        setup.image s.main.buffers elsewhere s.engine.source, s.main.buffers⟩)]
      ⟨s.main, s.engine.advance⟩
  | load {s : Live} (elsewhere : BitVec 32 → BitVec 32) : s.engine.left = 0 →
    (∀ next < raspdifBufferCount, s.engine.next = setup.controlBlock next →
      allow s.main next) →
    Live.Step setup allow s [.dma (.load s.engine.next)]
      ⟨s.main, Engine.load (setup.image s.main.buffers elsewhere) s.engine.next⟩

/-- The engine as it is enabled: it loads the first control block. -/
def Live.start (setup : Setup) (elsewhere : BitVec 32 → BitVec 32) (main : Main) : Live where
  main := main
  engine := Engine.load (setup.image main.buffers elsewhere) (setup.controlBlock 0)

/-! ## The same run, buffer by buffer -/

def Event.isMove : Event → Bool
  | .dmaMove _ _ _ => true
  | _ => false

/-- The events of the program and its input in a trace of the system. -/
def stays (trace : List Event) : List Event := trace.filter fun e => !e.isMove

@[simp] theorem stays_append (first second : List Event) :
    stays (first ++ second) = stays first ++ stays second :=
  List.filter_append ..

/-- Moves of the DMA neither read nor store anything. -/
theorem filterMap_stays {α : Type} {kind : Event → Option α}
    (other : ∀ e, e.isMove = true → kind e = none) (trace : List Event) :
    (stays trace).filterMap kind = trace.filterMap kind := by
  rw [stays, List.filterMap_filter]
  congr 1
  funext e
  cases move : e.isMove with
  | true => exact (other e move).symm
  | false => rfl

theorem calls_stays (trace : List Event) : calls (stays trace) = calls trace :=
  filterMap_stays (fun e move => by cases e <;> first | rfl | cases move) trace

theorem reads_stays (trace : List Event) : reads (stays trace) = reads trace :=
  filterMap_stays (fun e move => by cases e <;> first | rfl | cases move) trace

theorem delivered_stays (trace : List Event) : delivered (stays trace) = delivered trace := by
  induction trace with
  | nil => rfl
  | cons e trace ih =>
      have split : stays (e :: trace) = stays [e] ++ stays trace := stays_append [e] trace
      have split' : delivered (e :: trace) = delivered [e] ++ delivered trace :=
        delivered_append [e] trace
      have one : delivered (stays [e]) = delivered [e] := by cases e <;> rfl
      rw [split, delivered_append, one, ih, split']

/-- A run of the system and one of the program beside the engine are at the same point. -/
structure Live.Mirrors (setup : Setup) (trace : List LiveEvent) (live : Live)
    (trace' : List Event) (sys : System) : Prop where
  main : sys.main = live.main
  events : stays trace' = programEvents trace
  /-- Each load is a move, and the words copied are those of whole buffers and of the
  part of the present one that the engine has behind it. -/
  place : ∃ offset, live.engine.At setup sys.dma offset ∧
    (visited trace').length = (loads (accesses trace)).length ∧
    (transmitted trace).length = bufferWords * (visited trace').length + offset

section

variable {setup : Setup} {allow : Main → Nat → Prop} {answers : Answers} {s s' : Main}
  {live live' : Live} {sys sys' : System} {trace : List LiveEvent} {trace' events : List Event}

theorem Main.Moves.stays_eq (moves : s.Moves setup answers s' events) :
    stays events = events ∧ visited events = [] := by
  cases moves <;> exact ⟨rfl, rfl⟩

theorem Live.Mirrors.start (setup : Setup) (elsewhere : BitVec 32 → BitVec 32) (main : Main) :
    Live.Mirrors setup [] (Live.start setup elsewhere main) [] ⟨main, 0⟩ :=
  ⟨rfl, rfl, 0, Engine.at_load _ elsewhere (Nat.zero_lt_succ _), rfl, rfl⟩

theorem Live.Mirrors.program {main : Main} (mirrors : live.Mirrors setup trace trace' sys)
    (events : List Event) (silent : stays events = events ∧ visited events = []) :
    Live.Mirrors setup (trace ++ events.map .program) ⟨main, live.engine⟩ (trace' ++ events)
      ⟨main, sys.dma⟩ where
  main := rfl
  events := by
    rw [stays_append, mirrors.events, silent.1, programEvents_append, programEvents_map]
  place := by
    rcases mirrors.place with ⟨offset, here, loaded, count⟩
    have none : transmitted (events.map .program) = [] := by
      rw [transmitted, accesses_map_program]
      rfl
    refine ⟨offset, here, ?_, ?_⟩
    · rw [visited_append, silent.2, accesses_append, accesses_map_program, List.append_nil,
        List.append_nil]
      exact loaded
    · rw [visited_append, silent.2, transmitted_append, none, List.append_nil, List.append_nil]
      exact count

theorem Live.Mirrors.copy (mirrors : live.Mirrors setup trace trace' sys)
    (elsewhere : BitVec 32 → BitVec 32) (more : 0 < live.engine.left) :
    Live.Mirrors setup
      (trace ++ [.dma (.copy ⟨live.engine.source, live.engine.destination,
        setup.image live.main.buffers elsewhere live.engine.source, live.main.buffers⟩)])
      ⟨live.main, live.engine.advance⟩ trace' sys where
  main := mirrors.main
  events := by
    rw [programEvents_append, mirrors.events]
    exact (List.append_nil _).symm
  place := by
    rcases mirrors.place with ⟨offset, here, loaded, count⟩
    refine ⟨offset + 1, here.advance more, ?_, ?_⟩
    · rw [loaded, accesses_append, loads_append]
      exact congrArg List.length (List.append_nil _).symm
    · rw [transmitted_append, List.length_append, count]
      rfl

theorem Live.Mirrors.load (mirrors : live.Mirrors setup trace trace' sys)
    (elsewhere : BitVec 32 → BitVec 32) (done : live.engine.left = 0) :
    Live.Mirrors setup (trace ++ [.dma (.load live.engine.next)])
      ⟨live.main, Engine.load (setup.image live.main.buffers elsewhere) live.engine.next⟩
      (trace' ++ [.dmaMove sys.dma ((sys.dma + 1) % raspdifBufferCount)
        (sys.main.buffers sys.dma)])
      ⟨sys.main, (sys.dma + 1) % raspdifBufferCount⟩ where
  main := mirrors.main
  events := by
    rw [stays_append, programEvents_append, mirrors.events]
    rfl
  place := by
    rcases mirrors.place with ⟨offset, here, loaded, count⟩
    refine ⟨0, ?_, ?_, ?_⟩
    · rw [here.next]
      exact Engine.at_load _ elsewhere (Nat.mod_lt _ (Nat.zero_lt_succ _))
    · rw [visited_append, accesses_append, loads_append, List.length_append, List.length_append,
        loaded]
      rfl
    · have none : transmitted [.dma (.load live.engine.next)] = [] := rfl
      have one : (visited [Event.dmaMove sys.dma ((sys.dma + 1) % raspdifBufferCount)
        (sys.main.buffers sys.dma)]).length = 1 := rfl
      rw [transmitted_append, none, List.append_nil, visited_append, List.length_append, one,
        count, here.left_eq_zero.mp done, Nat.add_zero, Nat.mul_succ]

/-- The load is a move that the system may make. -/
theorem Live.Mirrors.move (mirrors : live.Mirrors setup trace trace' sys)
    (allowed : ∀ next < raspdifBufferCount, live.engine.next = setup.controlBlock next →
      allow live.main next) :
    System.Step setup allow sys [.dmaMove sys.dma ((sys.dma + 1) % raspdifBufferCount)
      (sys.main.buffers sys.dma)] ⟨sys.main, (sys.dma + 1) % raspdifBufferCount⟩ := by
  rcases mirrors.place with ⟨offset, here, -⟩
  have next : (sys.dma + 1) % raspdifBufferCount < raspdifBufferCount :=
    Nat.mod_lt _ (Nat.zero_lt_succ _)
  have may := allowed _ next here.next
  rw [← mirrors.main] at may
  exact .move sys.dma _ here.inRing next rfl rfl may

/-- The program and the engine take a step that the system takes too, or the engine copies
the next word of the DMA's buffer and the system does nothing. -/
theorem Live.Mirrors.step_cases {events : List LiveEvent}
    (mirrors : live.Mirrors setup trace trace' sys)
    (one : Live.Step setup allow live events live') :
    (transmitted events = [] ∧ ∃ events' sys', System.Step setup allow sys events' sys' ∧
        live'.Mirrors setup (trace ++ events) (trace' ++ events') sys') ∨
      ∃ offset < bufferWords,
        (transmitted trace).length = bufferWords * (visited trace').length + offset ∧
        transmitted events = [(ringWord (bufferWords * sys.dma + offset)).read sys.main.buffers] ∧
        live'.Mirrors setup (trace ++ events) trace' sys := by
  rcases mirrors.place with ⟨offset, here, -, count⟩
  have same := mirrors.main
  rcases sys with ⟨main, dma⟩
  cases same
  cases one with
  | cpu answers test ran =>
      refine Or.inl ⟨?_, _, _, .cpu answers (test.trans here.conblkAd) ran,
        mirrors.program _ (Main.step_moves ran).stays_eq⟩
      rw [transmitted, accesses_map_program]
      rfl
  | deliver bytes opened =>
      exact Or.inl ⟨rfl, _, _, .deliver bytes opened, mirrors.program [_] ⟨rfl, rfl⟩⟩
  | close => exact Or.inl ⟨rfl, _, _, .close, mirrors.program [_] ⟨rfl, rfl⟩⟩
  | load elsewhere done allowed =>
      exact Or.inl ⟨rfl, _, _, mirrors.move allowed, mirrors.load elsewhere done⟩
  | copy elsewhere more =>
      have left := here.left
      have inRing : bufferWords * dma + offset < ringWords := by
        have dmaRing : dma < raspdifBufferCount := here.inRing
        simp only [ringWords, bufferWords, raspdifBufferCount, raspdifBufferSize] at *
        omega
      refine Or.inr ⟨offset, by omega, count, ?_, mirrors.copy elsewhere more⟩
      rw [← image_wordAddress live.main.buffers elsewhere inRing, ← here.source]
      rfl

/-- The engine copies the rest of its block while the program does nothing. -/
theorem Live.Mirrors.exists_copies (allow : Main → Nat → Prop)
    (mirrors : live.Mirrors setup trace trace' sys) :
    ∃ events live', Run (Live.Step setup allow) live events live' ∧
      live'.Mirrors setup (trace ++ events) trace' sys ∧ live'.engine.left = 0 := by
  rcases mirrors.place with ⟨offset, here, -⟩
  obtain ⟨events, e, run, full, mirrors'⟩ := here.exists_rest (Live.mk live.main)
    (fun past e => Live.Mirrors setup past ⟨live.main, e⟩ trace' sys) mirrors
    fun {past e} mirrors more => by
      have one : Live.Step setup allow ⟨live.main, e⟩ _ _ := .copy (fun _ => 0) more
      exact ⟨_, one, mirrors.copy (fun _ => 0) more⟩
  exact ⟨events, _, run, mirrors', full.left_eq_zero.mpr rfl⟩

/-- What the program and the engine do while the system takes a step. -/
theorem Live.Mirrors.step_back (mirrors : live.Mirrors setup trace trace' sys)
    (one : System.Step setup allow sys events sys') :
    ∃ more live', Run (Live.Step setup allow) live more live' ∧
      live'.Mirrors setup (trace ++ more) (trace' ++ events) sys' := by
  rcases mirrors.place with ⟨offset, here, -⟩
  have same := mirrors.main
  rcases sys with ⟨main, dma⟩
  cases same
  cases one with
  | cpu answers test ran =>
      refine ⟨_, _, .single (.cpu answers (test.trans here.conblkAd.symm) ran), ?_⟩
      exact mirrors.program _ (Main.step_moves ran).stays_eq
  | deliver bytes opened =>
      exact ⟨_, _, .single (.deliver bytes opened), mirrors.program [_] ⟨rfl, rfl⟩⟩
  | close => exact ⟨_, _, .single .close, mirrors.program [_] ⟨rfl, rfl⟩⟩
  | move source next first second reads links allowed =>
      obtain rfl : dma = source := (setup.bufferAddress_inj here.inRing first).mp reads
      obtain rfl := (setup.controlBlock_inj (Nat.mod_lt _ (Nat.zero_lt_succ _)) second).mp links
      obtain ⟨copied, live', run, mirrors', done⟩ := mirrors.exists_copies allow
      rcases mirrors'.place with ⟨offset', here', -⟩
      have may : ∀ i < raspdifBufferCount, live'.engine.next = setup.controlBlock i →
          allow live'.main i := by
        intro i inRing loads
        rw [here'.next, setup.controlBlock_inj second inRing] at loads
        rwa [← loads, ← mirrors'.main]
      refine ⟨_, _, run.snoc (.load (fun _ => 0) done may), ?_⟩
      have loaded := mirrors'.load (fun _ => 0) done
      rwa [List.append_assoc] at loaded

/-- Every run of the program beside the engine is a run of the system. -/
theorem Live.exists_system {elsewhere : BitVec 32 → BitVec 32} {start : Main}
    (run : Run (Live.Step setup allow) (Live.start setup elsewhere start) trace live) :
    ∃ trace' sys, Run (System.Step setup allow) ⟨start, 0⟩ trace' sys ∧
      live.Mirrors setup trace trace' sys :=
  run.simulate (fun past s past' t => s.Mirrors setup past past' t)
    (Live.Mirrors.start setup elsewhere start) fun _ _ mirrors one => by
      rcases mirrors.step_cases one with ⟨-, events', sys', step, mirrors'⟩ | ⟨_, _, _, _, mirrors'⟩
      · exact ⟨events', sys', .single step, mirrors'⟩
      · exact ⟨[], _, .nil, by rwa [List.append_nil]⟩

/-- Every run of the system is that of a program beside the engine. -/
theorem System.exists_live (elsewhere : BitVec 32 → BitVec 32) {start : Main}
    (run : Run (System.Step setup allow) ⟨start, 0⟩ trace' sys) :
    ∃ trace live, Run (Live.Step setup allow) (Live.start setup elsewhere start) trace live ∧
      live.Mirrors setup trace trace' sys :=
  run.simulate (fun past' t past s => Live.Mirrors setup past s past' t)
    (Live.Mirrors.start setup elsewhere start) fun _ _ mirrors one => mirrors.step_back one

end

/-- **The engine seen through whole buffers.**  The program beside the engine, which
fetches its control blocks from memory and copies word by word, has exactly the behaviour
that it has in the system: the same states, the same events of the program and its input
and as many control blocks gone through. -/
theorem live_behaviour_iff (setup : Setup) (allow : Main → Nat → Prop)
    (elsewhere : BitVec 32 → BitVec 32) (start last : Main) (events : List Event) (blocks : Nat) :
    (∃ trace live, Run (Live.Step setup allow) (Live.start setup elsewhere start) trace live ∧
        live.main = last ∧ programEvents trace = events ∧
        (loads (accesses trace)).length = blocks) ↔
      ∃ trace sys, Run (System.Step setup allow) ⟨start, 0⟩ trace sys ∧
        sys.main = last ∧ stays trace = events ∧ (visited trace).length = blocks := by
  constructor
  · rintro ⟨trace, live, run, rfl, rfl, rfl⟩
    obtain ⟨trace', sys, run', mirrors⟩ := Live.exists_system run
    rcases mirrors.place with ⟨offset, -, loaded, -⟩
    exact ⟨trace', sys, run', mirrors.main, mirrors.events, loaded⟩
  · rintro ⟨trace', sys, run', rfl, rfl, rfl⟩
    obtain ⟨trace, live, run, mirrors⟩ := System.exists_live elsewhere run'
    rcases mirrors.place with ⟨offset, -, loaded, -⟩
    exact ⟨trace, live, run, mirrors.main.symm, mirrors.events.symm, loaded.symm⟩

end Raspdif
