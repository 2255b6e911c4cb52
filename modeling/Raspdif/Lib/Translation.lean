import Mathlib.Data.List.Forall2
import Raspdif.Lib.Interaction

/-!
# Programs over another interface

A `Translation` makes each call of one interface by a call of another, and reads what that
is answered.  A program that is translated call by call behaves as before: its runs are those
of the program itself, with each exchange carried over (`run_translate`).
-/

namespace Interaction

open Trace

variable {σ : Type} {I J : Interface} {α β γ : Type}

structure Translation (I J : Interface) where
  call : I.Op → J.Op
  answer : ∀ op, J.Answer (call op) → I.Answer op

namespace Translation

variable (T : Translation I J)

/-- One exchange is the translation of the other. -/
inductive Carries : Exchange I → Exchange J → Prop
  | mk (op : I.Op) (answer : J.Answer (T.call op)) :
    Carries ⟨op, T.answer op answer⟩ ⟨T.call op, answer⟩

end Translation

def Program.translate (T : Translation I J) : Program σ I α → Program σ J α
  | .done value => .done value
  | .exit => .exit
  | .fail => .fail
  | .cut => .cut
  | .read next => .read fun s => (next s).translate T
  | .write f next => .write f (next.translate T)
  | .call op next => .call (T.call op) fun answer => (next (T.answer op answer)).translate T

/-! ## Translating part by part -/

variable {T : Translation I J}

theorem Program.bind_done (p : Program σ I α) : p.bind .done = p := by
  induction p with
  | done | exit | fail | cut => rfl
  | read next ih => exact congrArg Program.read (funext ih)
  | write update next ih => exact congrArg (Program.write update) ih
  | call op next ih => exact congrArg (Program.call op) (funext ih)

theorem Program.bind_bind (p : Program σ I α) (f : α → Program σ I β) (g : β → Program σ I γ) :
    (p.bind f).bind g = p.bind fun value => (f value).bind g := by
  induction p with
  | done | exit | fail | cut => rfl
  | read next ih => exact congrArg Program.read (funext ih)
  | write update next ih => exact congrArg (Program.write update) ih
  | call op next ih => exact congrArg (Program.call op) (funext ih)

instance : LawfulMonad (Program σ I) :=
  LawfulMonad.mk' (Program σ I) Program.bind_done (fun _ _ => rfl) Program.bind_bind

theorem translate_bind (p : Program σ I α) (next : α → Program σ I β) :
    (p >>= next).translate T = p.translate T >>= fun value => (next value).translate T := by
  change (p.bind next).translate T = (p.translate T).bind fun value => (next value).translate T
  induction p with
  | done | exit | fail | cut => rfl
  | read first ih => exact congrArg Program.read (funext ih)
  | write update first ih => exact congrArg (Program.write update) ih
  | call op first ih =>
      exact congrArg (Program.call (T.call op)) (funext fun answer => ih (T.answer op answer))

theorem translate_ite {P : Prop} [Decidable P] (p q : Program σ I α) :
    (if P then p else q).translate T = if P then p.translate T else q.translate T := by
  split <;> rfl

theorem translate_when {P : Prop} [Decidable P] (p : Program σ I Unit) :
    (Program.when P p).translate T = Program.when P (p.translate T) :=
  translate_ite p (.done ())

/-! ## Runs -/

theorem step_translate {s : σ} {p : Program σ I α} {events : List (Exchange J)}
    {b : Point σ J α} :
    Point.Step ⟨s, p.translate T⟩ events b ↔
      ∃ own s' rest, Point.Step ⟨s, p⟩ own ⟨s', rest⟩ ∧ List.Forall₂ T.Carries own events ∧
        b = ⟨s', rest.translate T⟩ := by
  constructor
  · intro one
    cases p with
    | done | exit | fail | cut => cases one
    | read next =>
        cases one
        exact ⟨[], s, next s, .read next, .nil, rfl⟩
    | write f next =>
        cases one
        exact ⟨[], f s, next, .write f next, .nil, rfl⟩
    | call op next =>
        rcases one with _ | _ | ⟨_, _, answer⟩
        exact ⟨_, s, _, .call op next (T.answer op answer), .cons (.mk op answer) .nil, rfl⟩
  · rintro ⟨own, s', rest, one, carried, rfl⟩
    cases one with
    | read next =>
        cases carried
        exact .read _
    | write f next =>
        cases carried
        exact .write f _
    | call op next answer =>
        rcases carried with _ | ⟨⟨_, answer⟩, ⟨⟩⟩
        exact .call (T.call op) _ answer

/-- **A translated program behaves as before.** -/
theorem run_translate {s : σ} {p : Program σ I α} {trace : List (Exchange J)} {b : Point σ J α} :
    Run Point.Step ⟨s, p.translate T⟩ trace b ↔
      ∃ own s' rest, Run Point.Step ⟨s, p⟩ own ⟨s', rest⟩ ∧ List.Forall₂ T.Carries own trace ∧
        b = ⟨s', rest.translate T⟩ := by
  constructor
  · intro run
    induction run with
    | nil => exact ⟨[], s, p, .nil, .nil, rfl⟩
    | snoc _ one ih =>
        obtain ⟨own, s', rest, earlier, carried, rfl⟩ := ih
        obtain ⟨own', s'', rest', last, carried', rfl⟩ := step_translate.mp one
        exact ⟨own ++ own', s'', rest', earlier.snoc last,
          List.rel_append carried carried', rfl⟩
  · rintro ⟨own, s', rest, run, carried, rfl⟩
    generalize there : (⟨s', rest⟩ : Point σ I α) = last at run
    induction run generalizing s' rest trace with
    | nil =>
        cases there
        cases carried
        exact .nil
    | @snoc earlier events mid last run one ih =>
        cases there
        rw [← List.take_append_drop earlier.length trace]
        have first := List.forall₂_take earlier.length carried
        have second := List.forall₂_drop earlier.length carried
        rw [List.take_left] at first
        rw [List.drop_left] at second
        exact (ih mid.state mid.rest first rfl).snoc
          (step_translate.mpr ⟨events, s', rest, one, second, rfl⟩)

end Interaction
