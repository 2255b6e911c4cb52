import Raspdif.Lib.BiphaseMark

/-!
# Running disparity of a line

A line that is high as often as it is low has no direct component.  The disparity of
a stretch of the line counts its high half-cells minus its low ones, and
`Within low high start` follows the running disparity from `start` through every
half-cell of the stretch.

A biphase-mark code is balanced through its level: from a low line the running
disparity stays in `0..2` and is `0` again whenever the line is low again
(`disparity_encode`, `within_encode`).
-/

namespace Disparity

/-- High half-cells minus low half-cells. -/
def disparity : List Bool → Int
  | [] => 0
  | cell :: cells => (if cell then 1 else -1) + disparity cells

@[simp] theorem disparity_nil : disparity [] = 0 := rfl

@[simp] theorem disparity_cons (cell : Bool) (cells : List Bool) :
    disparity (cell :: cells) = (if cell then 1 else -1) + disparity cells := rfl

theorem disparity_append (first second : List Bool) :
    disparity (first ++ second) = disparity first + disparity second := by
  induction first with
  | nil => simp
  | cons cell cells ih =>
      rw [List.cons_append, disparity_cons, disparity_cons, ih, Int.add_assoc]

/-- On a line whose disparity was `start`, the running disparity stays between `low`
and `high` before and after every one of `cells`. -/
def Within (low high start : Int) (cells : List Bool) : Prop :=
  ∀ count, low ≤ start + disparity (cells.take count) ∧
    start + disparity (cells.take count) ≤ high

variable {low high start : Int}

theorem Within.nil (above : low ≤ start) (below : start ≤ high) : Within low high start [] := by
  intro count
  simpa using ⟨above, below⟩

theorem Within.cons {cell : Bool} {cells : List Bool} (above : low ≤ start)
    (below : start ≤ high) (rest : Within low high (start + if cell then 1 else -1) cells) :
    Within low high start (cell :: cells) := by
  intro count
  cases count with
  | zero => simpa using ⟨above, below⟩
  | succ count =>
      rw [List.take_succ_cons, disparity_cons, ← Int.add_assoc]
      exact rest count

/-- Stretches that keep the bounds one after the other keep them together. -/
theorem Within.append {first second : List Bool} (head : Within low high start first)
    (tail : Within low high (start + disparity first) second) :
    Within low high start (first ++ second) := by
  intro count
  rw [List.take_append, disparity_append, ← Int.add_assoc]
  rcases Nat.lt_or_ge count first.length with inside | past
  · rw [Nat.sub_eq_zero_of_le inside.le, List.take_zero, disparity_nil, Int.add_zero]
    exact head count
  · rw [List.take_of_length_le past]
    exact tail (count - first.length)

/-- Wider bounds hold too. -/
theorem Within.mono {low' high' : Int} {cells : List Bool}
    (within : Within low high start cells) (lower : low' ≤ low) (higher : high ≤ high') :
    Within low' high' start cells :=
  fun count => ⟨lower.trans (within count).1, (within count).2.trans higher⟩

/-- A line that is cut off has kept the bounds so far. -/
theorem Within.of_isPrefix {first cells : List Bool} (within : Within low high start cells)
    (cut : first <+: cells) : Within low high start first := by
  intro count
  rw [List.prefix_iff_eq_take.mp cut, List.take_take]
  exact within _

/-! ## Biphase-mark code -/

/-- The disparity a biphase-mark line carries at `level`, when it is `0` at level 0. -/
def atLevel (level : Bool) : Int := if level then 2 else 0

/-- A zero moves the disparity across and a one brings it back. -/
theorem disparity_encode (level : Bool) (bits : List Bool) :
    atLevel level + disparity (BiphaseMark.encode level bits) =
      atLevel (BiphaseMark.endLevel level bits) := by
  induction bits generalizing level with
  | nil => simp [BiphaseMark.encode, BiphaseMark.endLevel]
  | cons bit bits ih =>
      rw [BiphaseMark.encode, BiphaseMark.endLevel, ← ih, disparity_cons, disparity_cons,
        ← Int.add_assoc, ← Int.add_assoc]
      cases level <;> cases bit <;> rfl

/-- The running disparity never leaves the span between the two levels. -/
theorem within_encode (level : Bool) (bits : List Bool) :
    Within 0 2 (atLevel level) (BiphaseMark.encode level bits) := by
  induction bits generalizing level with
  | nil => cases level <;> exact Within.nil (by decide) (by decide)
  | cons bit bits ih =>
      have cell : atLevel level + (if !level then 1 else -1) +
          (if !level ^^ bit then 1 else -1) = atLevel (!level ^^ bit) := by
        cases level <;> cases bit <;> rfl
      apply Within.cons
      · cases level <;> decide
      · cases level <;> decide
      apply Within.cons
      · cases level <;> decide
      · cases level <;> decide
      rw [cell]
      exact ih _

end Disparity
