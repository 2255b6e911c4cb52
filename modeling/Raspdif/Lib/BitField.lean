import Mathlib.Algebra.Group.Nat.Defs
import Mathlib.Data.Nat.Basic

/-!
# Bit fields of a register

A field is `width` bits of a word from bit `offset` on.  Reading it gives a number;
writing it truncates the number to the field and leaves every other bit as it was, as
an assignment to a C bit field does.

`get_set` and `get_set_of_apart` say what a read sees of a write, `set_comm` that
writes to fields that lie apart commute, and `getLsbD_set` gives the word a write leaves
bit by bit.
-/

namespace BitField

variable {w : Nat}

/-- The bits `offset` to `offset + width - 1` of a word of `w` bits. -/
structure Field (w : Nat) where
  offset : Nat
  width : Nat
  fits : offset + width ≤ w
  deriving DecidableEq

namespace Field

/-- Neither field has a bit of the other. -/
def Apart (f g : Field w) : Prop :=
  f.offset + f.width ≤ g.offset ∨ g.offset + g.width ≤ f.offset

instance (f g : Field w) : Decidable (f.Apart g) := inferInstanceAs (Decidable (_ ∨ _))

theorem Apart.symm {f g : Field w} (apart : f.Apart g) : g.Apart f := Or.symm apart

/-- The word whose ones are the bits of the field. -/
def mask (f : Field w) : BitVec w := (BitVec.allOnes f.width).setWidth w <<< f.offset

/-- The number the field holds. -/
def get (f : Field w) (word : BitVec w) : Nat := (word.extractLsb' f.offset f.width).toNat

/-- `word` with the field assigned. -/
def set (f : Field w) (word : BitVec w) (value : Nat) : BitVec w :=
  word &&& ~~~f.mask ||| (BitVec.ofNat f.width value).setWidth w <<< f.offset

variable {f g : Field w} {word : BitVec w} {value : Nat}

theorem getLsbD_mask (f : Field w) (i : Nat) :
    f.mask.getLsbD i = decide (f.offset ≤ i ∧ i < f.offset + f.width) := by
  have fits := f.fits
  simp only [mask, BitVec.getLsbD_shiftLeft, BitVec.getLsbD_setWidth, BitVec.getLsbD_allOnes]
  by_cases inside : f.offset ≤ i ∧ i < f.offset + f.width
  · simp [inside, show i < w by omega, show i - f.offset < w by omega,
      show i - f.offset < f.width by omega, show ¬ i < f.offset by omega]
  · rcases Nat.lt_or_ge i f.offset with below | above
    · simp [below, show ¬ f.offset ≤ i by omega]
    · simp [inside, show ¬ i - f.offset < f.width by omega]

/-- The word a write leaves, bit by bit. -/
theorem getLsbD_set (f : Field w) (word : BitVec w) (value i : Nat) :
    (f.set word value).getLsbD i =
      if f.offset ≤ i ∧ i < f.offset + f.width then value.testBit (i - f.offset)
      else word.getLsbD i := by
  have fits := f.fits
  simp only [set, BitVec.getLsbD_or, BitVec.getLsbD_and, BitVec.getLsbD_not, getLsbD_mask,
    BitVec.getLsbD_shiftLeft, BitVec.getLsbD_setWidth, BitVec.getLsbD_ofNat]
  by_cases inside : f.offset ≤ i ∧ i < f.offset + f.width
  · simp [inside, show i < w by omega, show i - f.offset < w by omega,
      show i - f.offset < f.width by omega, show ¬ i < f.offset by omega]
  · rcases Nat.lt_or_ge i w with bound | past
    · rcases Nat.lt_or_ge i f.offset with below | above
      · simp [bound, below, show ¬ f.offset ≤ i by omega]
      · simp [bound, inside, show ¬ i - f.offset < f.width by omega]
    · simp [inside, BitVec.getLsbD_of_ge word i past, show ¬ i < w by omega]

theorem testBit_get (f : Field w) (word : BitVec w) (i : Nat) :
    (f.get word).testBit i = (decide (i < f.width) && word.getLsbD (f.offset + i)) := by
  rw [get, ← BitVec.getLsbD, BitVec.getLsbD_extractLsb']

/-- A field is read as it was written, up to its width. -/
theorem get_set (f : Field w) (word : BitVec w) (value : Nat) :
    f.get (f.set word value) = value % 2 ^ f.width := by
  apply Nat.eq_of_testBit_eq
  intro i
  rw [testBit_get, getLsbD_set, Nat.testBit_mod_two_pow]
  by_cases inside : i < f.width
  · simp [inside]
  · simp [inside]

theorem get_set_of_lt (small : value < 2 ^ f.width) : f.get (f.set word value) = value := by
  rw [get_set, Nat.mod_eq_of_lt small]

/-- A write is not seen by a field apart from it. -/
theorem get_set_of_apart (apart : f.Apart g) : f.get (g.set word value) = f.get word := by
  apply Nat.eq_of_testBit_eq
  intro i
  rw [testBit_get, testBit_get, getLsbD_set]
  by_cases inside : i < f.width
  · rw [if_neg]
    rcases apart with before | after
    · omega
    · omega
  · simp [inside]

/-- Two writes to fields that lie apart commute. -/
theorem set_comm {first second : Nat} (apart : f.Apart g) :
    f.set (g.set word second) first = g.set (f.set word first) second := by
  apply BitVec.eq_of_getLsbD_eq
  intro i _
  simp only [getLsbD_set]
  rcases apart with before | after
  · by_cases inside : f.offset ≤ i ∧ i < f.offset + f.width
    · simp [inside, show ¬ (g.offset ≤ i ∧ i < g.offset + g.width) by omega]
    · simp [inside]
  · by_cases inside : f.offset ≤ i ∧ i < f.offset + f.width
    · simp [inside, show ¬ (g.offset ≤ i ∧ i < g.offset + g.width) by omega]
    · simp [inside]

/-- The last of two writes to a field counts. -/
theorem set_set {first second : Nat} : f.set (f.set word first) second = f.set word second := by
  apply BitVec.eq_of_getLsbD_eq
  intro i _
  simp only [getLsbD_set]
  by_cases inside : f.offset ≤ i ∧ i < f.offset + f.width <;> simp [inside]

end Field

end BitField
