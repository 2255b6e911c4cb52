import Raspdif.Lib.Trace

/-!
# Simulation of runs

One labelled step relation follows another: whatever step the first takes from states
related by `Rel`, the second has a run, of no step, one or many, that leads to related
states again.  `Rel` may speak of both traces, so it also says which events of the two
correspond.
-/

namespace Trace

universe u v

variable {σ τ : Type u} {ε δ : Type v}

/-- A relation that some run of the second system restores after each step of the first
leads through every run of the first. -/
theorem Run.simulate {step : σ → List ε → σ → Prop} {step' : τ → List δ → τ → Prop}
    (Rel : List ε → σ → List δ → τ → Prop) {start last : σ} {start' : τ} {trace : List ε}
    (run : Run step start trace last) (initial : Rel [] start [] start')
    (follow : ∀ {past events : List ε} {s s' : σ} {past' : List δ} {t : τ},
      Run step start past s → Run step' start' past' t → Rel past s past' t →
      step s events s' → ∃ events' t', Run step' t events' t' ∧
        Rel (past ++ events) s' (past' ++ events') t') :
    ∃ trace' last', Run step' start' trace' last' ∧ Rel trace last trace' last' := by
  induction run with
  | nil => exact ⟨[], start', .nil, initial⟩
  | snoc earlier one ih =>
      rcases ih with ⟨past', t, run', related⟩
      obtain ⟨events', t', more, related'⟩ := follow earlier run' related one
      exact ⟨past' ++ events', t', run'.append more, related'⟩

end Trace
