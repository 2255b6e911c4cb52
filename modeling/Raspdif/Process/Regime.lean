import Raspdif.Lib.Monitor
import Raspdif.Process.Signals

/-!
# What `main` and its handlers keep to together

A `Regime` is a contract for the frames of the machine, whatever the signals.  Where every
handler keeps it from any point of `main` or of another handler on, and `main` keeps it when
nothing interrupts it, then every run keeps it (`Regime.Kept.of_run`): no handler returns,
so nothing that it has interrupted goes on.
-/

namespace Raspdif.Process

open Interaction Trace

variable {γ : Type}

/-- `during` holds at every point, `exited` where a program ends, and `aborted` where an
assertion of a handler fails; `main` may fail one anywhere. -/
structure Regime (γ : Type) where
  record : γ → EnvEvent → γ
  during : γ → Globals → Prop
  exited : γ → Globals → Prop
  aborted : γ → Globals → Prop

namespace Regime

variable (R : Regime γ)

/-- The contract of a frame. -/
def contract (inMain : Prop) : Contract Globals γ environment where
  record := R.record
  promised _ := True
  during := R.during
  exited := R.exited
  failed l g := inMain ∨ R.aborted l g

/-- What is known from the calls of all frames. -/
def after (start : γ) (trace : List Occurrence) : γ := (envCalls trace).foldl R.record start

/-- Where the program of a frame returns: a handler never does. -/
def Returned (frame : Frame) (_ : Unit) (l : γ) (g : Globals) : Prop :=
  frame.signal = none ∧ R.during l g ∧ R.exited l g

/-- Every handler keeps the contract, wherever it is entered. -/
def Handles : Prop :=
  ∀ {l : γ} {g : Globals}, R.during l g →
    signalHandler.Meets (R.contract False) (fun _ _ _ => False) l g

/-- The invariant of the machine. -/
structure Kept (start : γ) (past : List Occurrence) (m : Machine) : Prop where
  during : R.during (R.after start past) m.globals
  main : ∀ frame below, m.frames = frame :: below → frame.signal = none → below = []
  innermost : ∀ frame below, m.frames = frame :: below →
    frame.rest.Meets (R.contract (frame.signal = none)) (R.Returned frame) (R.after start past)
      m.globals
  ended : .ended ∈ past → m.frames = [] ∧
    (R.exited (R.after start past) m.globals ∨ R.aborted (R.after start past) m.globals)

theorem after_append (start : γ) (past events : List Occurrence) :
    R.after start (past ++ events) = (envCalls events).foldl R.record (R.after start past) := by
  rw [after, envCalls_append, List.foldl_append]
  rfl

theorem after_append_quiet (start : γ) (past : List Occurrence) {e : Occurrence}
    (quiet : e.call? = none) : R.after start (past ++ [e]) = R.after start past := by
  have none : envCalls [e] = [] := List.filterMap_cons_none quiet
  rw [after_append, none]
  rfl

variable {R} {start : γ} {past events : List Occurrence} {m m' : Machine}

theorem Kept.not_ended (kept : R.Kept start past m) (running : m.frames ≠ []) : .ended ∉ past :=
  fun ended => running (kept.ended ended).1

/-- A handler is entered. -/
theorem Kept.interrupt (kept : R.Kept start past m) (handles : R.Handles) {e : Occurrence}
    (quiet : e.call? = none) (goesOn : e ≠ .ended) (running : m.frames ≠ []) (signal : Signal) :
    R.Kept start (past ++ [e]) ⟨m.globals, ⟨some signal, signalHandler⟩ :: m.frames⟩ := by
  refine ⟨?_, ?_, ?_, ?_⟩
  · rw [after_append_quiet R start past quiet]
    exact kept.during
  · rintro frame below ⟨rfl⟩ none
    cases none
  · rintro frame below ⟨rfl⟩
    rw [after_append_quiet R start past quiet, eq_false (Option.some_ne_none signal)]
    exact (handles kept.during).mono fun _ _ _ returned => returned.elim
  · intro ended
    rcases List.mem_append.mp ended with before | last
    · exact absurd before (kept.not_ended running)
    · exact absurd (List.mem_singleton.mp last).symm goesOn

/-- The process ends where it may. -/
theorem Kept.finish (kept : R.Kept start past m) {e : List Occurrence}
    (quiet : R.after start (past ++ e) = R.after start past)
    (settled : R.exited (R.after start past) m.globals ∨
      R.aborted (R.after start past) m.globals) :
    R.Kept start (past ++ e) ⟨m.globals, []⟩ := by
  refine ⟨?_, ?_, ?_, fun _ => ⟨rfl, ?_⟩⟩
  · rw [quiet]
    exact kept.during
  · intro frame below frames
    cases frames
  · intro frame below frames
    cases frames
  · rw [quiet]
    exact settled

theorem Kept.step (kept : R.Kept start past m) (handles : R.Handles)
    (one : Machine.Step m events m') : R.Kept start (past ++ events) m' := by
  cases one with
  | @run g g' signal rest rest' below events one =>
      have met := (kept.innermost _ _ rfl).step one fun _ _ => trivial
      have now : R.after start (past ++ events.map .call) =
          events.foldl R.record (R.after start past) := by
        rw [after_append, envCalls_map_call]
      change Program.Meets _ _ _ (events.foldl R.record (R.after start past)) g' at met
      rw [← now] at met
      refine ⟨met.during fun _ _ _ returned => returned.2.1, ?_, ?_, ?_⟩
      · rintro frame below' ⟨rfl⟩ none
        exact kept.main _ _ rfl none
      · rintro frame below' ⟨rfl⟩
        exact met
      · intro ended
        rcases List.mem_append.mp ended with early | late
        · exact absurd early (kept.not_ended (List.cons_ne_nil _ _))
        · simp at late
  | signal signal running =>
      exact kept.interrupt handles rfl Occurrence.noConfusion running signal
  | abort =>
      exact kept.interrupt handles rfl Occurrence.noConfusion (List.cons_ne_nil _ _) .abrt
  | @killed g signal below masked =>
      rcases (kept.innermost _ _ rfl).2 with main | aborted
      · -- Below `main` there is no handler that could mask the signal.
        obtain rfl := kept.main _ _ rfl main
        obtain ⟨frame, member, handling⟩ := masked
        obtain rfl := List.mem_singleton.mp member
        exact absurd (main.symm.trans handling) (Option.some_ne_none _).symm
      · refine kept.finish ?_ (Or.inr aborted)
        rw [after_append]
        rfl
  | handlerReturn signal =>
      have returned := kept.innermost _ _ rfl
      exact absurd returned.1 (Option.some_ne_none signal)
  | mainReturn =>
      have returned := kept.innermost _ _ rfl
      exact kept.finish (after_append_quiet R start past rfl) (Or.inl returned.2.2)
  | exit =>
      have exited := kept.innermost _ _ rfl
      exact kept.finish (after_append_quiet R start past rfl) (Or.inl exited.2)

theorem Kept.initial {rounds : Nat} {arguments : RaspdifArguments}
    (main : (mainRegistered rounds arguments).Meets (R.contract True)
      (fun _ l g => R.during l g ∧ R.exited l g) start .initial) :
    R.Kept start [] (Machine.start rounds arguments) := by
  refine ⟨main.during fun _ _ _ returned => returned.1, ?_, ?_, ?_⟩
  · rintro frame below ⟨rfl⟩ _
    rfl
  · rintro frame below ⟨rfl⟩
    dsimp only
    rw [eq_self]
    exact main.mono fun _ _ _ returned => ⟨rfl, returned⟩
  · intro ended
    cases ended

/-- **The rule for signals.** -/
theorem Kept.of_run {rounds : Nat} {arguments : RaspdifArguments} (handles : R.Handles)
    (main : (mainRegistered rounds arguments).Meets (R.contract True)
      (fun _ l g => R.during l g ∧ R.exited l g) start .initial)
    (run : Run Machine.Step (Machine.start rounds arguments) past m) : R.Kept start past m :=
  run.invariant (R.Kept start) (.initial main) fun earlier one => earlier.step handles one

end Regime

end Raspdif.Process
