import Mathlib.Data.List.Basic

/-!
# Runs of a labelled step relation

A step carries the list of events it records; the trace of a run is all of them in
order.  An invariant may speak of the trace so far as well as of the state
(`Run.invariant_from`).

`AtEach P trace` says `P before e after` of every event `e` of a trace, with the events
on either side.  It unfolds along `++`, which is how an invariant of this form is
carried over one more step.

`Since mark past since s` cuts the trace of a run at its last step of one kind: an
invariant may speak of what happened since the run last entered some set of states.
-/

namespace Trace

universe u v

variable {σ : Type u} {ε : Type v} {step : σ → List ε → σ → Prop}

/-- `Run step start trace last`: some steps lead from `start` to `last`. -/
inductive Run (step : σ → List ε → σ → Prop) (start : σ) : List ε → σ → Prop
  | nil : Run step start [] start
  | snoc {trace events : List ε} {mid last : σ} :
    Run step start trace mid → step mid events last →
    Run step start (trace ++ events) last

theorem Run.single {start last : σ} {events : List ε} (one : step start events last) :
    Run step start events last :=
  .snoc .nil one

theorem Run.append {start mid last : σ} {first second : List ε}
    (left : Run step start first mid) (right : Run step mid second last) :
    Run step start (first ++ second) last := by
  induction right with
  | nil => rwa [List.append_nil]
  | snoc _ one ih =>
      rw [← List.append_assoc]
      exact .snoc ih one

/-- A run is one of a relation with more steps, too. -/
theorem Run.mono {step' : σ → List ε → σ → Prop} {start last : σ} {trace : List ε}
    (run : Run step start trace last)
    (weaker : ∀ {s s' : σ} {events : List ε}, step s events s' → step' s events s') :
    Run step' start trace last := by
  induction run with
  | nil => exact .nil
  | snoc _ one ih => exact ih.snoc (weaker one)

/-- What holds at the start and is kept by every step holds after every run. -/
theorem Run.invariant_from (Inv : List ε → σ → Prop) {start last : σ} {history trace : List ε}
    (run : Run step start trace last) (initial : Inv history start)
    (keep : ∀ {past events : List ε} {s s' : σ}, Inv past s → step s events s' →
      Inv (past ++ events) s') :
    Inv (history ++ trace) last := by
  induction run with
  | nil => rwa [List.append_nil]
  | snoc _ one ih =>
      rw [← List.append_assoc]
      exact keep ih one

theorem Run.invariant (Inv : List ε → σ → Prop) {start last : σ} {trace : List ε}
    (run : Run step start trace last) (initial : Inv [] start)
    (keep : ∀ {past events : List ε} {s s' : σ}, Inv past s → step s events s' →
      Inv (past ++ events) s') :
    Inv trace last :=
  run.invariant_from Inv initial keep

/-! ## Events and what surrounds them -/

/-- `P before e after` for every event `e` of the trace. -/
def AtEach (P : List ε → ε → List ε → Prop) : List ε → Prop
  | [] => True
  | e :: rest => P [] e rest ∧ AtEach (fun before f after => P (e :: before) f after) rest

variable {P : List ε → ε → List ε → Prop}

@[simp] theorem atEach_nil : AtEach P [] := trivial

@[simp] theorem atEach_cons {e : ε} {rest : List ε} :
    AtEach P (e :: rest) ↔
      P [] e rest ∧ AtEach (fun before f after => P (e :: before) f after) rest :=
  Iff.rfl

theorem atEach_append {first second : List ε} :
    AtEach P (first ++ second) ↔
      AtEach (fun before e after => P before e (after ++ second)) first ∧
        AtEach (fun before e after => P (first ++ before) e after) second := by
  induction first generalizing P with
  | nil => simp
  | cons e first ih => simp only [List.cons_append, atEach_cons, ih, and_assoc]

theorem atEach_iff {trace : List ε} :
    AtEach P trace ↔
      ∀ before e after, trace = before ++ e :: after → P before e after := by
  constructor
  · intro each before e after split
    subst split
    rw [atEach_append, atEach_cons, List.append_nil] at each
    exact each.2.1
  · intro each
    induction trace generalizing P with
    | nil => trivial
    | cons e rest ih =>
        refine ⟨each [] e rest rfl, ih fun before f after split => ?_⟩
        exact each (e :: before) f after (congrArg (e :: ·) split)

/-- Of the events of one kind, number `k` with what lies around it. -/
theorem exists_split_of_lt_countP {p : ε → Bool} {trace : List ε} {k : Nat}
    (enough : k < trace.countP p) :
    ∃ before e after, trace = before ++ e :: after ∧ p e = true ∧ before.countP p = k := by
  induction trace generalizing k with
  | nil => exact absurd enough (Nat.not_lt_zero k)
  | cons f trace ih =>
      by_cases kind : p f = true
      · rw [List.countP_cons_of_pos kind] at enough
        cases k with
        | zero => exact ⟨[], f, trace, rfl, kind, rfl⟩
        | succ k =>
            obtain ⟨before, e, after, rfl, here, count⟩ := ih (Nat.lt_of_succ_lt_succ enough)
            refine ⟨f :: before, e, after, rfl, here, ?_⟩
            rw [List.countP_cons_of_pos kind, count]
      · rw [List.countP_cons_of_neg kind] at enough
        obtain ⟨before, e, after, rfl, here, count⟩ := ih enough
        refine ⟨f :: before, e, after, rfl, here, ?_⟩
        rw [List.countP_cons_of_neg kind, count]

/-! ## Cutting a run at an event -/

/-- An event of a trace in two parts lies in the one or in the other. -/
theorem cons_split_of_append {first second before after : List ε} {e : ε}
    (split : first ++ second = before ++ e :: after) :
    (∃ part, first = before ++ e :: part ∧ after = part ++ second) ∨
      ∃ part, before = first ++ part ∧ second = part ++ e :: after := by
  rcases List.append_eq_append_iff.mp split with ⟨part, rfl, tail⟩ | ⟨part, rfl, tail⟩
  · exact Or.inr ⟨part, rfl, tail⟩
  · cases part with
    | nil => exact Or.inr ⟨[], by simp, tail.symm⟩
    | cons f part =>
        obtain ⟨rfl, rfl⟩ := List.cons.inj tail
        exact Or.inl ⟨part, rfl, rfl⟩

/-- When an event of this kind is always the last that its step records, a run may be
cut right behind it. -/
theorem Run.cut {start last : σ} {before after : List ε} {e : ε}
    (final : ∀ {s s' : σ} {first second : List ε}, step s (first ++ e :: second) s' → second = [])
    (run : Run step start (before ++ e :: after) last) :
    ∃ mid, Run step start (before ++ [e]) mid ∧ Run step mid after last := by
  generalize whole : before ++ e :: after = trace at run
  induction run generalizing after with
  | nil => exact absurd whole (by simp)
  | @snoc trace events mid last earlier one ih =>
      rcases cons_split_of_append whole.symm with ⟨part, rfl, rfl⟩ | ⟨part, rfl, rfl⟩
      · obtain ⟨cut, left, right⟩ := ih rfl
        exact ⟨cut, left, .snoc right one⟩
      · obtain rfl := final one
        refine ⟨last, ?_, .nil⟩
        rw [List.append_assoc]
        exact .snoc earlier one

/-- Where an event is always the only one that its step records, a run may be cut on both
sides of that step. -/
theorem Run.exists_step {start last : σ} {before after : List ε} {e : ε}
    (alone : ∀ {s s' : σ} {first second : List ε}, step s (first ++ e :: second) s' →
      first = [] ∧ second = [])
    (run : Run step start (before ++ e :: after) last) :
    ∃ mid next, Run step start before mid ∧ step mid [e] next ∧ Run step next after last := by
  generalize whole : before ++ e :: after = trace at run
  induction run generalizing after with
  | nil => exact absurd whole (by simp)
  | @snoc trace events mid last earlier one ih =>
      rcases cons_split_of_append whole.symm with ⟨part, rfl, rfl⟩ | ⟨part, rfl, rfl⟩
      · obtain ⟨m, next, left, here, right⟩ := ih rfl
        exact ⟨m, next, left, here, right.snoc one⟩
      · obtain ⟨rfl, rfl⟩ := alone one
        rw [List.append_nil]
        exact ⟨mid, last, earlier, one, .nil⟩

/-! ## Since the last step of a kind -/

/-- `Since mark past since s`: some run to `s` records `past` up to its last step
`mark m m'`, that step included, and `since` after it.  Where no step is marked, `since`
goes back to the start. -/
inductive Since (step : σ → List ε → σ → Prop) (start : σ) (mark : σ → σ → Prop) :
    List ε → List ε → σ → Prop
  | start : Since step start mark [] [] start
  | marked {past events : List ε} {m s : σ} :
    Run step start past m → step m events s → mark m s →
    Since step start mark (past ++ events) [] s
  | later {past since events : List ε} {m s : σ} :
    Since step start mark past since m → step m events s → ¬ mark m s →
    Since step start mark past (since ++ events) s

section

variable {start s : σ} {mark : σ → σ → Prop} {past since : List ε}

theorem Since.run (split : Since step start mark past since s) :
    Run step start (past ++ since) s := by
  induction split with
  | start => exact .nil
  | marked earlier one _ =>
      rw [List.append_nil]
      exact .snoc earlier one
  | later _ one _ ih =>
      rw [← List.append_assoc]
      exact .snoc ih one

theorem Run.exists_since {trace : List ε} (run : Run step start trace s) (mark : σ → σ → Prop) :
    ∃ past since, trace = past ++ since ∧ Since step start mark past since s := by
  induction run with
  | nil => exact ⟨[], [], rfl, .start⟩
  | @snoc trace events mid last earlier one ih =>
      by_cases marked : mark mid last
      · exact ⟨trace ++ events, [], (List.append_nil _).symm, .marked earlier one marked⟩
      · rcases ih with ⟨past, since, rfl, split⟩
        exact ⟨past, since ++ events, List.append_assoc _ _ _, .later split one marked⟩

end

end Trace
