import Mathlib.Order.Basic

/-!
# Getting there, in executions that wait

A step of an infinite execution either advances, which lowers a rank, or waits for
something that happens outside of it.  Where what is waited for happens again and again, the
execution reaches its goal (`Advances.eventually`).
-/

namespace Fairness

universe u v

variable {σ : Type u} {κ : Type v} {states : Nat → σ} {rank : σ → Nat} {key : σ → κ}
  {happens : κ → Nat → Prop} {region goal : Nat → Prop}

/-- Whatever is waited for happens again after any step. -/
def Recurs (happens : κ → Nat → Prop) : Prop :=
  ∀ k n, ∃ m, n ≤ m ∧ happens k m

/-- Step `n` reaches the goal, or it lowers the rank, or it waits: what state `n` waits for,
its key, does not happen now and is waited for again. -/
structure Advances (states : Nat → σ) (rank : σ → Nat) (key : σ → κ) (happens : κ → Nat → Prop)
    (region goal : Nat → Prop) : Prop where
  step : ∀ n, region n → goal n ∨ region (n + 1) ∧
    (rank (states (n + 1)) < rank (states n) ∨
      rank (states (n + 1)) = rank (states n) ∧ key (states (n + 1)) = key (states n) ∧
        ¬ happens (key (states n)) n)

/-- Waiting comes to an end. -/
theorem Advances.exists_lower (advances : Advances states rank key happens region goal)
    {n m : Nat} (inside : region n) (later : n ≤ m) (now : happens (key (states n)) m) :
    ∃ k, n ≤ k ∧ (goal k ∨ region (k + 1) ∧ rank (states (k + 1)) < rank (states n)) := by
  obtain ⟨gap, rfl⟩ := Nat.exists_eq_add_of_le later
  clear later
  induction gap generalizing n with
  | zero =>
      refine ⟨n, Nat.le_refl n, ?_⟩
      rcases advances.step n inside with reached | ⟨still, lower | ⟨-, -, notYet⟩⟩
      · exact Or.inl reached
      · exact Or.inr ⟨still, lower⟩
      · exact absurd now notYet
  | succ gap ih =>
      rcases advances.step n inside with reached | ⟨still, lower | ⟨same, waits, -⟩⟩
      · exact ⟨n, Nat.le_refl n, Or.inl reached⟩
      · exact ⟨n, Nat.le_refl n, Or.inr ⟨still, lower⟩⟩
      · rw [← waits, show n + (gap + 1) = n + 1 + gap by omega] at now
        obtain ⟨k, beyond, lower⟩ := ih still now
        rw [same] at lower
        exact ⟨k, Nat.le_of_succ_le beyond, lower⟩

/-- The goal is reached. -/
theorem Advances.eventually (advances : Advances states rank key happens region goal)
    (recurs : Recurs happens) {n : Nat} (inside : region n) : ∃ m, n ≤ m ∧ goal m := by
  generalize height : rank (states n) = r
  induction r using Nat.strongRecOn generalizing n with
  | ind r ih =>
      obtain ⟨m, later, now⟩ := recurs (key (states n)) n
      obtain ⟨k, beyond, reached | ⟨still, lower⟩⟩ := advances.exists_lower inside later now
      · exact ⟨k, beyond, reached⟩
      · rw [height] at lower
        obtain ⟨m, after, reached⟩ := ih _ lower still rfl
        exact ⟨m, Nat.le_trans beyond (Nat.le_of_succ_le after), reached⟩

end Fairness
