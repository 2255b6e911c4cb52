import Mathlib.Data.Rat.Floor
import Mathlib.Tactic.Linarith

/-!
# C floating point in exact arithmetic

`modf`, `round` and the conversion of a `double` to an unsigned integer, on rationals.
A conversion is undefined in C when the truncated value does not fit; here it has no
result.

On values that are not negative, truncation is the floor, the fraction that `modf`
leaves is `Int.fract`, and `round` adds a half before it (`trunc_of_nonneg`,
`modf_of_nonneg`, `round_of_nonneg`).
-/

namespace CDouble

/-- `trunc`: the integer part, towards zero. -/
def trunc (x : ℚ) : ℤ := if 0 ≤ x then ⌊x⌋ else ⌈x⌉

/-- `modf`: the integer part and the signed fraction. -/
def modf (x : ℚ) : ℤ × ℚ := (trunc x, x - trunc x)

/-- `round`: to the nearest integer, half-way cases away from zero. -/
def round (x : ℚ) : ℤ := if 0 ≤ x then ⌊x + 1 / 2⌋ else ⌈x - 1 / 2⌉

/-- Conversion to an unsigned integer of `w` bits, where C defines it. -/
def toUnsigned (w : Nat) (x : ℚ) : Option (BitVec w) :=
  if 0 ≤ trunc x ∧ trunc x < 2 ^ w then some (BitVec.ofInt w (trunc x)) else none

variable {x : ℚ}

theorem trunc_of_nonneg (nonneg : 0 ≤ x) : trunc x = ⌊x⌋ := if_pos nonneg

theorem modf_of_nonneg (nonneg : 0 ≤ x) : modf x = (⌊x⌋, Int.fract x) := by
  rw [modf, trunc_of_nonneg nonneg]
  rfl

theorem round_of_nonneg (nonneg : 0 ≤ x) : round x = ⌊x + 1 / 2⌋ := if_pos nonneg

/-- Rounding moves a value by half a unit at most. -/
theorem abs_round_sub_le (nonneg : 0 ≤ x) : |(round x : ℚ) - x| ≤ 1 / 2 := by
  have below := Int.floor_le (x + 1 / 2)
  have above := Int.lt_floor_add_one (x + 1 / 2)
  rw [round_of_nonneg nonneg, abs_le]
  constructor <;> linarith

/-- A value that fits is converted to its integer part. -/
theorem toUnsigned_of_lt {w : Nat} (nonneg : 0 ≤ x) (small : x < 2 ^ w) :
    ∃ value, toUnsigned w x = some value ∧ (value.toNat : ℤ) = ⌊x⌋ := by
  have low : 0 ≤ trunc x := by
    rw [trunc_of_nonneg nonneg]
    exact Int.floor_nonneg.mpr nonneg
  have high : trunc x < 2 ^ w := by
    rw [trunc_of_nonneg nonneg, Int.floor_lt]
    exact_mod_cast small
  refine ⟨_, if_pos ⟨low, high⟩, ?_⟩
  rw [BitVec.toNat_ofInt, ← trunc_of_nonneg nonneg]
  rw [Int.toNat_of_nonneg (Int.emod_nonneg _ (by positivity))]
  exact Int.emod_eq_of_lt low (by exact_mod_cast high)

end CDouble
