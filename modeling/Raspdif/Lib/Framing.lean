import Mathlib.Data.List.Basic

/-!
# Framing of a stream

A stream of blocks of one size, and a recogniser for the start of a block that looks at
what follows.  A receiver that comes late scans for the first start that it recognises.
Where the recogniser never finds a start inside of a block, this is the next block that
begins (`lock_drop`).
-/

namespace Framing

universe u v

variable {α : Type u} {β : Type v} {start : List α → Option β} {cells : List α} {found : β}

/-- The first place where a block starts, with what was recognised there. -/
def lock (start : List α → Option β) : List α → Option (Nat × β)
  | [] => none
  | cell :: rest =>
      if let some found := start (cell :: rest) then some (0, found)
      else (lock start rest).map (Prod.map Nat.succ id)

theorem lock_eq_some {n : Nat} (before : ∀ i < n, start (cells.drop i) = none)
    (here : start (cells.drop n) = some found) (inside : n < cells.length) :
    lock start cells = some (n, found) := by
  induction n generalizing cells with
  | zero =>
      cases cells with
      | nil => exact absurd inside (Nat.not_lt_zero 0)
      | cons cell rest =>
          rw [List.drop_zero] at here
          rw [lock, here]
  | succ n ih =>
      cases cells with
      | nil => exact absurd inside (Nat.not_lt_zero _)
      | cons cell rest =>
          have first := before 0 (Nat.zero_lt_succ n)
          rw [List.drop_zero] at first
          have later := ih (fun i bound => before (i + 1) (Nat.succ_lt_succ bound)) here
            (Nat.lt_of_succ_lt_succ inside)
          rw [lock, first, later]
          rfl

/-- The number of the first block that begins behind what was missed. -/
def firstBlock (size missed : Nat) : Nat := (missed + size - 1) / size

theorem le_mul_firstBlock {size : Nat} (pos : 0 < size) (missed : Nat) :
    missed ≤ size * firstBlock size missed ∧ size * firstBlock size missed < missed + size := by
  have split := Nat.div_add_mod (missed + size - 1) size
  have bound := Nat.mod_lt (missed + size - 1) pos
  unfold firstBlock
  omega

/-- A receiver that has missed some of the stream locks to the next block. -/
theorem lock_drop {size missed : Nat} (pos : 0 < size)
    (inside : ∀ i, ¬ size ∣ i → start (cells.drop i) = none)
    (here : start (cells.drop (size * firstBlock size missed)) = some found)
    (long : size * firstBlock size missed < cells.length) :
    lock start (cells.drop missed) = some (size * firstBlock size missed - missed, found) := by
  obtain ⟨behind, near⟩ := le_mul_firstBlock pos missed
  apply lock_eq_some
  · intro i bound
    rw [List.drop_drop]
    refine inside _ ?_
    rintro ⟨block, begins⟩
    -- A block that begins there lies between two that follow each other.
    have below : block < firstBlock size missed :=
      Nat.lt_of_mul_lt_mul_left (a := size) (by omega)
    have above := Nat.mul_le_mul_left size (Nat.succ_le_of_lt below)
    rw [Nat.mul_succ] at above
    omega
  · rw [List.drop_drop, Nat.add_sub_cancel' behind]
    exact here
  · rw [List.length_drop]
    omega

end Framing
