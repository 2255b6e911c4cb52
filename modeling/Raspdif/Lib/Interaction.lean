import Raspdif.Lib.Trace

/-!
# Programs that call their environment

A `Program` reads and writes a global state, calls an environment that answers as it
likes, and may end the process or fail an assertion at any depth.  It runs step by step
(`Point.Step`), and a step that calls records the call with its answer.

What the calls of a run amount to is kept in a ghost value, a `Contract` says how.
`Program.Meets` follows all ways through a program: `during` holds at every point of it,
`exited` and `failed` hold where it ends early, and a postcondition where it returns.  It
unfolds along `>>=` (`meets_bind`), so that each function of a program needs one lemma,
and it is sound for the runs (`Program.Meets.run`).
-/

namespace Interaction

open Trace

/-- The calls that can be made, and what each may be answered. -/
structure Interface where
  Op : Type
  Answer : Op → Type

/-- A call with its answer. -/
structure Exchange (I : Interface) where
  op : I.Op
  answer : I.Answer op

/-- A program with global state `σ` that returns an `α`. -/
inductive Program (σ : Type) (I : Interface) (α : Type)
  | done (value : α)
  /-- The process ends, whoever called this. -/
  | exit
  /-- A failed assertion. -/
  | fail
  /-- A loop that is not followed any further. -/
  | cut
  | read (next : σ → Program σ I α)
  | write (f : σ → σ) (next : Program σ I α)
  | call (op : I.Op) (next : I.Answer op → Program σ I α)

variable {σ γ : Type} {I : Interface} {α β : Type}

namespace Program

def bind : Program σ I α → (α → Program σ I β) → Program σ I β
  | .done value, next => next value
  | .exit, _ => .exit
  | .fail, _ => .fail
  | .cut, _ => .cut
  | .read first, next => .read fun s => (first s).bind next
  | .write f first, next => .write f (first.bind next)
  | .call op first, next => .call op fun answer => (first answer).bind next

instance : Monad (Program σ I) where
  pure := .done
  bind := .bind

def getState : Program σ I σ := .read .done

def update (f : σ → σ) : Program σ I Unit := .write f (.done ())

def perform (op : I.Op) : Program σ I (I.Answer op) := .call op .done

def assert (P : Prop) [Decidable P] : Program σ I Unit := if P then .done () else .fail

def when (P : Prop) [Decidable P] (p : Program σ I Unit) : Program σ I Unit :=
  if P then p else .done ()

/-- Calls whose answers do not matter. -/
def performAll : List I.Op → Program σ I Unit
  | [] => .done ()
  | op :: ops => .call op fun _ => performAll ops

/-- The process has ended, and not by a failed assertion. -/
def ended : Program σ I α → Bool
  | .done _ | .exit => true
  | _ => false

/-- What the program has returned. -/
def value? : Program σ I α → Option α
  | .done value => some value
  | _ => none

end Program

/-! ## Runs -/

/-- Where a program stands. -/
structure Point (σ : Type) (I : Interface) (α : Type) where
  state : σ
  rest : Program σ I α

inductive Point.Step : Point σ I α → List (Exchange I) → Point σ I α → Prop
  | read {s : σ} (next : σ → Program σ I α) : Point.Step ⟨s, .read next⟩ [] ⟨s, next s⟩
  | write {s : σ} (f : σ → σ) (next : Program σ I α) : Point.Step ⟨s, .write f next⟩ [] ⟨f s, next⟩
  | call {s : σ} (op : I.Op) (next : I.Answer op → Program σ I α) (answer : I.Answer op) :
    Point.Step ⟨s, .call op next⟩ [⟨op, answer⟩] ⟨s, next answer⟩

/-- The run in which every call is answered as the oracle says. -/
def Program.exec (oracle : ∀ op, I.Answer op) :
    Program σ I α → σ → List (Exchange I) × Point σ I α
  | .read next, s => (next s).exec oracle s
  | .write f next, s => next.exec oracle (f s)
  | .call op next, s =>
      let rest := (next (oracle op)).exec oracle s
      (⟨op, oracle op⟩ :: rest.1, rest.2)
  | .done value, s => ([], ⟨s, .done value⟩)
  | .exit, s => ([], ⟨s, .exit⟩)
  | .fail, s => ([], ⟨s, .fail⟩)
  | .cut, s => ([], ⟨s, .cut⟩)

theorem Program.run_exec (oracle : ∀ op, I.Answer op) (p : Program σ I α) (s : σ) :
    Run Point.Step ⟨s, p⟩ (p.exec oracle s).1 (p.exec oracle s).2 := by
  induction p generalizing s with
  | done | exit | fail | cut => exact .nil
  | read next ih => exact (Run.single (.read next)).append (ih s s)
  | write f next ih => exact (Run.single (.write f next)).append (ih (f s))
  | call op next ih => exact (Run.single (.call op next (oracle op))).append (ih (oracle op) s)

theorem Point.Step.bind {a b : Point σ I α} {events : List (Exchange I)}
    (one : Point.Step a events b) (next : α → Program σ I β) :
    Point.Step ⟨a.state, a.rest >>= next⟩ events ⟨b.state, b.rest >>= next⟩ := by
  cases one with
  | read first => exact .read fun s => (first s).bind next
  | write f first => exact .write f (first.bind next)
  | call op first answer => exact .call op (fun answer => (first answer).bind next) answer

/-- A program runs before another as it does alone. -/
theorem Point.run_bind {a b : Point σ I α} {trace : List (Exchange I)}
    (run : Run Point.Step a trace b) (next : α → Program σ I β) :
    Run Point.Step ⟨a.state, a.rest >>= next⟩ trace ⟨b.state, b.rest >>= next⟩ := by
  induction run with
  | nil => exact .nil
  | snoc _ one ih => exact ih.snoc (one.bind next)

/-- A program that returns makes way for the next. -/
theorem Program.run_exec_bind {oracle : ∀ op, I.Answer op} {p : Program σ I α} {s s' : σ}
    {value : α} {trace : List (Exchange I)}
    (returns : p.exec oracle s = (trace, ⟨s', .done value⟩)) (next : α → Program σ I β) :
    Run Point.Step ⟨s, p >>= next⟩ trace ⟨s', next value⟩ := by
  have run := Point.run_bind (p.run_exec oracle s) next
  rw [returns] at run
  exact run

/-- Where it ends, from its parts. -/
theorem Point.eq_done {last : Point σ I α} {s : σ} {value : α} (state : last.state = s)
    (returns : last.rest.value? = some value) : last = ⟨s, .done value⟩ := by
  obtain ⟨state', rest⟩ := last
  obtain rfl : state' = s := state
  cases rest with
  | done =>
      cases returns
      rfl
  | exit | fail | cut | read | write | call => cases returns

/-- What comes behind the answer to a call. -/
theorem Point.run_call {s : σ} {op : I.Op} {next : I.Answer op → Program σ I α}
    {answer : I.Answer op} {trace : List (Exchange I)} {last : Point σ I α}
    (run : Run Point.Step ⟨s, .call op next⟩ (⟨op, answer⟩ :: trace) last) :
    Run Point.Step ⟨s, next answer⟩ trace last := by
  have split := run.invariant (fun past last => (past = [] ∧ last = ⟨s, .call op next⟩) ∨
    ∃ answer later, past = ⟨op, answer⟩ :: later ∧ Run Point.Step ⟨s, next answer⟩ later last)
    (Or.inl ⟨rfl, rfl⟩) (by
      rintro past events a b (⟨rfl, rfl⟩ | ⟨answer, later, rfl, run⟩) one
      · cases one
        exact Or.inr ⟨_, [], rfl, .nil⟩
      · exact Or.inr ⟨answer, later ++ events, rfl, run.snoc one⟩)
  rcases split with ⟨none, -⟩ | ⟨answer', later, same, run⟩
  · cases none
  · cases same
    exact run

/-! ## Programs that only read -/

/-- The program reads and does nothing else, until it returns this, or ends the process. -/
def Program.Silent (outcome : Option α) : Program σ I α → σ → Prop
  | .done value, _ => outcome = some value
  | .exit, _ => outcome = none
  | .read next, s => (next s).Silent outcome s
  | .fail, _ | .cut, _ | .write _ _, _ | .call _ _, _ => False

/-- Behind the end of the process comes nothing. -/
theorem Program.Silent.bind_none {p : Program σ I α} {s : σ} {next : α → Program σ I β}
    (silent : p.Silent none s) : (p >>= next).Silent none s := by
  change (p.bind next).Silent none s
  induction p with
  | done value => cases silent
  | exit => rfl
  | read first ih => exact ih s silent
  | fail | cut | write | call => exact silent.elim

/-- Behind a silent program comes the next. -/
theorem Program.Silent.run {p : Program σ I α} {s : σ} {outcome : Option α}
    {next : α → Program σ I β} {trace : List (Exchange I)} {last : Point σ I β}
    (silent : p.Silent outcome s) (run : Run Point.Step ⟨s, p >>= next⟩ trace last) :
    (trace = [] ∧ last.state = s) ∨
      ∃ value, outcome = some value ∧ Run Point.Step ⟨s, next value⟩ trace last := by
  have kept : (trace = [] ∧ ∃ q : Program σ I α, q.Silent outcome s ∧ last = ⟨s, q.bind next⟩) ∨
      ∃ value, outcome = some value ∧ Run Point.Step ⟨s, next value⟩ trace last := by
    refine run.invariant (fun trace last =>
      (trace = [] ∧ ∃ q : Program σ I α, q.Silent outcome s ∧ last = ⟨s, q.bind next⟩) ∨
        ∃ value, outcome = some value ∧ Run Point.Step ⟨s, next value⟩ trace last)
      (Or.inl ⟨rfl, p, silent, rfl⟩) ?_
    rintro past events a b (⟨rfl, q, silent, rfl⟩ | ⟨value, returned, run⟩) one
    · cases q with
      | done value => exact Or.inr ⟨value, silent, .single one⟩
      | exit => cases one
      | read first =>
          cases one
          exact Or.inl ⟨rfl, first s, silent, rfl⟩
      | fail | cut | write | call => exact silent.elim
    · exact Or.inr ⟨value, returned, run.snoc one⟩
  rcases kept with ⟨rfl, q, -, rfl⟩ | later
  · exact Or.inl ⟨rfl, rfl⟩
  · exact Or.inr later

/-- It returns, if it does not end the process. -/
theorem Program.Silent.exists_run {p : Program σ I α} {s : σ} {value : α}
    (silent : p.Silent (some value) s) (next : α → Program σ I β) :
    Run Point.Step ⟨s, p >>= next⟩ [] ⟨s, next value⟩ := by
  change Run Point.Step ⟨s, p.bind next⟩ [] ⟨s, next value⟩
  induction p with
  | done value =>
      obtain rfl := Option.some.inj silent
      exact .nil
  | read first ih => exact (Run.single (.read fun s => (first s).bind next)).append (ih s silent)
  | exit => cases silent
  | fail | cut | write | call => exact silent.elim

/-! ## Contracts -/

/-- What is asked of a program whose calls are recorded in a ghost value. -/
structure Contract (σ γ : Type) (I : Interface) where
  record : γ → Exchange I → γ
  /-- What the environment promises of its answers. -/
  promised : Exchange I → Prop
  during : γ → σ → Prop
  exited : γ → σ → Prop
  failed : γ → σ → Prop

/-- Every way through the program keeps the contract, and `post` holds where it returns. -/
def Program.Meets (C : Contract σ γ I) (post : α → γ → σ → Prop) : Program σ I α → γ → σ → Prop
  | .done value, l, s => post value l s
  | .exit, l, s => C.during l s ∧ C.exited l s
  | .fail, l, s => C.during l s ∧ C.failed l s
  | .cut, l, s => C.during l s
  | .read next, l, s => C.during l s ∧ (next s).Meets C post l s
  | .write f next, l, s => C.during l s ∧ next.Meets C post l (f s)
  | .call op next, l, s => C.during l s ∧ ∀ answer, C.promised ⟨op, answer⟩ →
      (next answer).Meets C post (C.record l ⟨op, answer⟩) s

section

variable {C : Contract σ γ I} {post post' : α → γ → σ → Prop} {p : Program σ I α}
  {l : γ} {s : σ}

/-! ## Rules -/

@[simp] theorem meets_exit :
    (Program.exit : Program σ I α).Meets C post l s ↔ C.during l s ∧ C.exited l s := Iff.rfl

@[simp] theorem meets_getState {post : σ → γ → σ → Prop} :
    (Program.getState : Program σ I σ).Meets C post l s ↔ C.during l s ∧ post s l s := Iff.rfl

@[simp] theorem meets_update {f : σ → σ} {post : Unit → γ → σ → Prop} :
    (Program.update f : Program σ I Unit).Meets C post l s ↔
      C.during l s ∧ post () l (f s) := Iff.rfl

@[simp] theorem meets_perform {op : I.Op} {post : I.Answer op → γ → σ → Prop} :
    (Program.perform op : Program σ I _).Meets C post l s ↔
      C.during l s ∧ ∀ answer, C.promised ⟨op, answer⟩ →
        post answer (C.record l ⟨op, answer⟩) s := Iff.rfl

theorem meets_assert {P : Prop} [Decidable P] {post : Unit → γ → σ → Prop} :
    (Program.assert P : Program σ I Unit).Meets C post l s ↔
      (P → post () l s) ∧ (¬ P → C.during l s ∧ C.failed l s) := by
  unfold Program.assert
  split
  case isTrue holds => exact ⟨fun met => ⟨fun _ => met, fun fails => absurd holds fails⟩,
    fun both => both.1 holds⟩
  case isFalse fails => exact ⟨fun met => ⟨fun holds => absurd holds fails, fun _ => met⟩,
    fun both => both.2 fails⟩

/-- An assertion that holds. -/
theorem meets_assert_of {P : Prop} [Decidable P] {post : Unit → γ → σ → Prop} (holds : P)
    (met : post () l s) : (Program.assert P : Program σ I Unit).Meets C post l s :=
  meets_assert.mpr ⟨fun _ => met, fun fails => absurd holds fails⟩

theorem meets_ite {P : Prop} [Decidable P] {q : Program σ I α} :
    (if P then p else q).Meets C post l s ↔
      (P → p.Meets C post l s) ∧ (¬ P → q.Meets C post l s) := by
  split
  case isTrue holds => simp [holds]
  case isFalse fails => simp [fails]

theorem meets_when {P : Prop} [Decidable P] {p : Program σ I Unit} {post : Unit → γ → σ → Prop} :
    (Program.when P p).Meets C post l s ↔ (P → p.Meets C post l s) ∧ (¬ P → post () l s) :=
  meets_ite

@[simp] theorem meets_bind {next : α → Program σ I β} {post : β → γ → σ → Prop} :
    (p >>= next).Meets C post l s ↔
      p.Meets C (fun value l s => (next value).Meets C post l s) l s := by
  change (p.bind next).Meets C post l s ↔ _
  induction p generalizing l s with
  | done | exit | fail | cut => rfl
  | read first ih => exact and_congr_right fun _ => ih s
  | write f first ih => exact and_congr_right fun _ => ih
  | call op first ih =>
      exact and_congr_right fun _ => forall_congr' fun answer => imp_congr_right fun _ => ih answer

theorem Program.Meets.mono (met : p.Meets C post l s)
    (weaker : ∀ value l s, post value l s → post' value l s) : p.Meets C post' l s := by
  induction p generalizing l s with
  | done value => exact weaker value l s met
  | exit | fail | cut => exact met
  | read next ih => exact ⟨met.1, ih s met.2⟩
  | write f next ih => exact ⟨met.1, ih met.2⟩
  | call op next ih =>
      exact ⟨met.1, fun answer promised => ih answer (met.2 answer promised)⟩

/-- Calls that leave no mark. -/
theorem meets_performAll {ops : List I.Op} {post : Unit → γ → σ → Prop} (during : C.during l s)
    (quiet : ∀ op ∈ ops, ∀ answer, C.record l ⟨op, answer⟩ = l) (met : post () l s) :
    (Program.performAll ops : Program σ I Unit).Meets C post l s := by
  induction ops with
  | nil => exact met
  | cons op ops ih =>
      refine ⟨during, fun answer _ => ?_⟩
      rw [quiet op List.mem_cons_self]
      exact ih fun op' later => quiet op' (List.mem_cons_of_mem op later)

/-- What holds at an end. -/
theorem Program.Meets.ended {P : γ → σ → Prop} (met : p.Meets C post l s) (ends : p.ended = true)
    (exited : ∀ l s, C.exited l s → P l s) (returned : ∀ value l s, post value l s → P l s) :
    P l s := by
  cases p with
  | done value => exact returned value l s met
  | exit => exact exited l s met.2
  | fail | cut | read | write | call => cases ends

/-! ## Soundness -/

theorem Program.Meets.during (met : p.Meets C post l s)
    (returned : ∀ value l s, post value l s → C.during l s) : C.during l s := by
  cases p with
  | done value => exact returned value l s met
  | cut => exact met
  | exit | fail | read | write | call => exact met.1

theorem Program.Meets.step {a b : Point σ I α} {events : List (Exchange I)}
    (met : a.rest.Meets C post l a.state) (one : Point.Step a events b)
    (promised : ∀ e ∈ events, C.promised e) :
    b.rest.Meets C post (events.foldl C.record l) b.state := by
  cases one with
  | read next => exact met.2
  | write f next => exact met.2
  | call op next answer => exact met.2 answer (promised _ List.mem_cons_self)

theorem Program.Meets.run {a b : Point σ I α} {trace : List (Exchange I)}
    (met : a.rest.Meets C post l a.state) (run : Run Point.Step a trace b)
    (promised : ∀ e ∈ trace, C.promised e) :
    b.rest.Meets C post (trace.foldl C.record l) b.state := by
  induction run with
  | nil => exact met
  | snoc _ one ih =>
      rw [List.forall_mem_append] at promised
      rw [List.foldl_append]
      exact (ih promised.1).step one promised.2

end

end Interaction
