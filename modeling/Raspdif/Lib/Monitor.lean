import Raspdif.Lib.Interaction

/-!
# Monitors

A `Monitor` follows the calls of a program in a value of its own and says, by that value,
which calls may be made.  The ghost value `Watched` keeps both: what the monitor knows and
whether every call was allowed when it was made, so that a contract that asks for this at
every point says of every run that each of its calls was allowed (`Monitor.foldl_watch`).

`Program.Only` is for the programs that such a contract need not follow: they make calls
of some kind and write nothing.  `Program.Makes` is the same for programs that may fail an
assertion, and that may write as long as a view of the state stays as it is.
-/

namespace Interaction

open Trace

variable {σ γ : Type} {I : Interface} {α β : Type}

/-- What is known from the calls so far, and which calls it allows. -/
structure Monitor (γ : Type) (I : Interface) where
  record : γ → Exchange I → γ
  Allows : γ → I.Op → Prop

/-- What a monitor knows, and whether every call was allowed when it was made. -/
structure Watched (γ : Type) where
  value : γ
  kept : Prop

namespace Monitor

variable (M : Monitor γ I)

def watch (watched : Watched γ) (e : Exchange I) : Watched γ where
  value := M.record watched.value e
  kept := watched.kept ∧ M.Allows watched.value e.op

/-- What is known after some calls. -/
def after (value : γ) (trace : List (Exchange I)) : γ := trace.foldl M.record value

/-- Every call of the trace was allowed when it was made. -/
def AllowsEach (value : γ) (trace : List (Exchange I)) : Prop :=
  AtEach (fun before e _ => M.Allows (M.after value before) e.op) trace

theorem foldl_watch (watched : Watched γ) (trace : List (Exchange I)) :
    trace.foldl M.watch watched =
      ⟨M.after watched.value trace, watched.kept ∧ M.AllowsEach watched.value trace⟩ := by
  induction trace generalizing watched with
  | nil => rw [AllowsEach, List.foldl_nil, eq_true atEach_nil, and_true, after, List.foldl_nil]
  | cons e trace ih =>
      rw [List.foldl_cons, ih, AllowsEach, AllowsEach, atEach_cons, ← and_assoc]
      rfl

/-- The contract that every call is allowed. -/
def contract (during exited failed : γ → σ → Prop) : Contract σ (Watched γ) I where
  record := M.watch
  promised _ := True
  during watched s := watched.kept ∧ during watched.value s
  exited watched s := exited watched.value s
  failed watched s := failed watched.value s

variable {M} {during exited failed : γ → σ → Prop} {value : γ} {s : σ}

theorem meets_perform {op : I.Op} {post : I.Answer op → Watched γ → σ → Prop}
    (here : during value s) (allowed : M.Allows value op)
    (met : ∀ answer, post answer ⟨M.record value ⟨op, answer⟩, True⟩ s) :
    (Program.perform op).Meets (M.contract during exited failed) post ⟨value, True⟩ s := by
  refine Interaction.meets_perform.mpr ⟨⟨trivial, here⟩, fun answer _ => ?_⟩
  have still : M.watch ⟨value, True⟩ ⟨op, answer⟩ = ⟨M.record value ⟨op, answer⟩, True⟩ :=
    congrArg (Watched.mk _) (eq_true ⟨trivial, allowed⟩)
  change post answer (M.watch ⟨value, True⟩ ⟨op, answer⟩) s
  rw [still]
  exact met answer

end Monitor

/-! ## Programs that make calls of one kind -/

/-- The program makes such calls only, writes nothing and fails no assertion. -/
def Program.Only (kind : I.Op → Prop) : Program σ I α → Prop
  | .done _ | .exit | .cut => True
  | .fail | .write _ _ => False
  | .read next => ∀ s, (next s).Only kind
  | .call op next => kind op ∧ ∀ answer, (next answer).Only kind

section

variable {kind : I.Op → Prop} {p : Program σ I α}

theorem only_bind {next : α → Program σ I β} (first : p.Only kind)
    (then_ : ∀ value, (next value).Only kind) : (p >>= next).Only kind := by
  change (p.bind next).Only kind
  induction p with
  | done value => exact then_ value
  | exit | cut => trivial
  | fail | write => exact first.elim
  | read first' ih => exact fun s => ih s (first s)
  | call op first' ih => exact ⟨first.1, fun answer => ih answer (first.2 answer)⟩

theorem only_ite {P : Prop} [Decidable P] {q : Program σ I α} (yes : P → p.Only kind)
    (no : ¬ P → q.Only kind) : (if P then p else q).Only kind := by
  split
  case isTrue holds => exact yes holds
  case isFalse fails => exact no fails

theorem only_when {P : Prop} [Decidable P] {p : Program σ I Unit} (only : p.Only kind) :
    (Program.when P p).Only kind :=
  only_ite (fun _ => only) fun _ => trivial

theorem only_perform {op : I.Op} (of_kind : kind op) :
    (Program.perform op : Program σ I _).Only kind :=
  ⟨of_kind, fun _ => trivial⟩

/-- Calls that nobody takes note of. -/
theorem meets_of_only {C : Contract σ γ I} {post : α → γ → σ → Prop} {l : γ} {s : σ}
    (only : p.Only kind) (during : C.during l s) (exited : C.exited l s)
    (quiet : ∀ op, kind op → ∀ answer, C.record l ⟨op, answer⟩ = l)
    (met : ∀ value, post value l s) : p.Meets C post l s := by
  induction p with
  | done value => exact met value
  | exit => exact ⟨during, exited⟩
  | cut => exact during
  | fail | write => exact only.elim
  | read next ih => exact ⟨during, ih s (only s)⟩
  | call op next ih =>
      refine ⟨during, fun answer _ => ?_⟩
      rw [quiet op only.1]
      exact ih answer (only.2 answer)

end

/-! ## Programs that keep a view of the state -/

/-- The program makes such calls only, and what it writes leaves `view` as it is. -/
def Program.Makes {τ : Type} (kind : I.Op → Prop) (view : σ → τ) : Program σ I α → Prop
  | .done _ | .exit | .fail | .cut => True
  | .read next => ∀ s, (next s).Makes kind view
  | .write f next => (∀ s, view (f s) = view s) ∧ next.Makes kind view
  | .call op next => kind op ∧ ∀ answer, (next answer).Makes kind view

section

variable {τ : Type} {kind : I.Op → Prop} {view : σ → τ} {p : Program σ I α}

theorem makes_pure (value : α) : (pure value : Program σ I α).Makes kind view := trivial

theorem makes_exit : (Program.exit : Program σ I α).Makes kind view := trivial

theorem makes_bind {next : α → Program σ I β} (first : p.Makes kind view)
    (later : ∀ value, (next value).Makes kind view) : (p >>= next).Makes kind view := by
  change (p.bind next).Makes kind view
  induction p with
  | done value => exact later value
  | exit | fail | cut => trivial
  | read first' ih => exact fun s => ih s (first s)
  | write f first' ih => exact ⟨first.1, ih first.2⟩
  | call op first' ih => exact ⟨first.1, fun answer => ih answer (first.2 answer)⟩

theorem makes_ite {P : Prop} [Decidable P] {q : Program σ I α} (yes : P → p.Makes kind view)
    (no : ¬ P → q.Makes kind view) : (if P then p else q).Makes kind view := by
  split
  case isTrue holds => exact yes holds
  case isFalse fails => exact no fails

theorem makes_when {P : Prop} [Decidable P] {p : Program σ I Unit} (makes : p.Makes kind view) :
    (Program.when P p).Makes kind view :=
  makes_ite (fun _ => makes) fun _ => makes_pure ()

theorem makes_assert {P : Prop} [Decidable P] :
    (Program.assert P : Program σ I Unit).Makes kind view :=
  makes_ite (fun _ => trivial) fun _ => trivial

theorem makes_getState : (Program.getState : Program σ I σ).Makes kind view := fun _ => trivial

theorem makes_update {f : σ → σ} (same : ∀ s, view (f s) = view s) :
    (Program.update f : Program σ I Unit).Makes kind view :=
  ⟨same, trivial⟩

theorem makes_perform {op : I.Op} (of_kind : kind op) :
    (Program.perform op : Program σ I _).Makes kind view :=
  ⟨of_kind, fun _ => trivial⟩

theorem makes_performAll {ops : List I.Op} (of_kind : ∀ op ∈ ops, kind op) :
    (Program.performAll ops : Program σ I Unit).Makes kind view := by
  induction ops with
  | nil => trivial
  | cons op ops ih =>
      obtain ⟨here, later⟩ := List.forall_mem_cons.mp of_kind
      exact ⟨here, fun _ => ih later⟩

/-- Where nobody takes note of the calls and of what is written, only the view counts. -/
theorem meets_of_makes {C : Contract σ γ I} {post : α → γ → σ → Prop} {l : γ} {s : σ}
    (makes : p.Makes kind view) (during : ∀ s', view s' = view s → C.during l s')
    (exited : ∀ s', view s' = view s → C.exited l s')
    (failed : ∀ s', view s' = view s → C.failed l s')
    (quiet : ∀ op, kind op → ∀ answer, C.record l ⟨op, answer⟩ = l)
    (met : ∀ value s', view s' = view s → post value l s') : p.Meets C post l s := by
  induction p generalizing s with
  | done value => exact met value s rfl
  | exit => exact ⟨during s rfl, exited s rfl⟩
  | fail => exact ⟨during s rfl, failed s rfl⟩
  | cut => exact during s rfl
  | read next ih => exact ⟨during s rfl, ih s (makes s) during exited failed met⟩
  | write f next ih =>
      have same := makes.1 s
      refine ⟨during s rfl, ih makes.2 ?_ ?_ ?_ ?_⟩
      · exact fun s' viewed => during s' (viewed.trans same)
      · exact fun s' viewed => exited s' (viewed.trans same)
      · exact fun s' viewed => failed s' (viewed.trans same)
      · exact fun value s' viewed => met value s' (viewed.trans same)
  | call op next ih =>
      refine ⟨during s rfl, fun answer _ => ?_⟩
      rw [quiet op makes.1]
      exact ih answer (makes.2 answer) during exited failed met

end

end Interaction
