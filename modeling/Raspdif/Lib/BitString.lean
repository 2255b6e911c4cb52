import Mathlib.Data.List.OfFn

/-!
# Words as bit strings

A word leaves a shift register one bit at a time.  This module reads a `BitVec`
in the two orders hardware uses, most significant bit first and least
significant bit first, and rebuilds a word from its bits.  Concatenating words
concatenates their bit strings, so a statement about a long bit stream splits into
statements about the words it was assembled from.
-/

namespace BitString

variable {v w : Nat}

/-- The bits of a word, most significant first. -/
def msbFirst (x : BitVec w) : List Bool :=
  List.ofFn fun i : Fin w => x.getMsbD i

/-- The bits of a word, least significant first. -/
def lsbFirst (x : BitVec w) : List Bool :=
  List.ofFn fun i : Fin w => x.getLsbD i

/-- The word of width `w` whose bits, least significant first, are `bits`. -/
def ofLsbFirst (w : Nat) (bits : List Bool) : BitVec w :=
  (BitVec.ofBoolListLE bits).setWidth w

@[simp] theorem length_msbFirst (x : BitVec w) : (msbFirst x).length = w := by
  simp [msbFirst]

@[simp] theorem length_lsbFirst (x : BitVec w) : (lsbFirst x).length = w := by
  simp [lsbFirst]

theorem getElem?_msbFirst (x : BitVec w) (i : Nat) :
    (msbFirst x)[i]? = if i < w then some (x.getMsbD i) else none := by
  by_cases bound : i < w <;> simp [msbFirst, bound]

theorem getElem?_lsbFirst (x : BitVec w) (i : Nat) :
    (lsbFirst x)[i]? = if i < w then some (x.getLsbD i) else none := by
  by_cases bound : i < w <;> simp [lsbFirst, bound]

/-- The least significant bit leaves last. -/
theorem getLastD_msbFirst (x : BitVec (w + 1)) (before : Bool) :
    (msbFirst x).getLastD before = x.getLsbD 0 := by
  rw [List.getLastD_eq_getLast?, List.getLast?_eq_getElem?, length_msbFirst,
    Nat.add_sub_cancel, getElem?_msbFirst, if_pos (Nat.lt_succ_self w), BitVec.getMsbD_eq_getLsbD]
  simp

/-- The high word of a concatenation leaves first. -/
theorem msbFirst_append (x : BitVec v) (y : BitVec w) :
    msbFirst (x ++ y) = msbFirst x ++ msbFirst y := by
  apply List.ext_getElem?
  intro i
  rw [List.getElem?_append, getElem?_msbFirst, getElem?_msbFirst, getElem?_msbFirst,
    length_msbFirst, BitVec.getMsbD_append]
  by_cases low : i < v
  · simp [low, show i < v + w by omega]
  · simp [low, show (i < v + w) = (i - v < w) by simp; omega, show v ≤ i by omega]

/-- The low word of a concatenation leaves first. -/
theorem lsbFirst_append (x : BitVec v) (y : BitVec w) :
    lsbFirst (x ++ y) = lsbFirst y ++ lsbFirst x := by
  apply List.ext_getElem?
  intro i
  rw [List.getElem?_append, getElem?_lsbFirst, getElem?_lsbFirst, getElem?_lsbFirst,
    length_lsbFirst, BitVec.getLsbD_append]
  by_cases low : i < w
  · simp [low, show i < v + w by omega]
  · simp [low, show (i < v + w) = (i - w < v) by simp; omega]

/-- Reversing a word swaps the two orders. -/
theorem msbFirst_reverse (x : BitVec w) : msbFirst x.reverse = lsbFirst x := by
  simp [msbFirst, lsbFirst, BitVec.getMsbD_reverse]

@[simp] theorem lsbFirst_one (x : BitVec 1) : lsbFirst x = [x.getLsbD 0] := by
  simp [lsbFirst]

/-- The tail of a word that starts at bit `s + k`, split into the `k` bits above
bit `s` and the bits below it. -/
theorem drop_msbFirst (x : BitVec w) {s k : Nat} (fits : s + k ≤ w) :
    (msbFirst x).drop (w - (s + k)) =
      msbFirst ((x >>> s).setWidth k) ++ (msbFirst x).drop (w - s) := by
  apply List.ext_getElem?
  intro i
  rw [List.getElem?_append, List.getElem?_drop, List.getElem?_drop, getElem?_msbFirst,
    getElem?_msbFirst, getElem?_msbFirst, length_msbFirst]
  by_cases inside : i < k
  · simp only [inside, ↓reduceIte, show w - (s + k) + i < w by omega]
    congr 1
    simp only [BitVec.getMsbD_eq_getLsbD, BitVec.getLsbD_setWidth, BitVec.getLsbD_ushiftRight,
      inside, show w - (s + k) + i < w by omega, show k - 1 - i < k by omega, decide_true,
      Bool.true_and]
    congr 1
    omega
  · simp only [inside, ↓reduceIte, show w - (s + k) + i = w - s + (i - k) by omega]

/-- Joining two words with a shift and an or, in a register of any width. -/
theorem shiftLeft_or_eq_append (high : BitVec v) (low : BitVec w) (width : Nat) :
    high.setWidth width <<< w ||| low.setWidth width = (high ++ low).setWidth width := by
  apply BitVec.eq_of_getLsbD_eq
  intro i bound
  simp only [BitVec.getLsbD_or, BitVec.getLsbD_shiftLeft, BitVec.getLsbD_setWidth,
    BitVec.getLsbD_append, bound, decide_true, Bool.true_and]
  by_cases inLow : i < w
  · simp [inLow]
  · simp [inLow, BitVec.getLsbD_of_ge low i (by omega), show i - w < width by omega]

/-- A word is rebuilt from its own bits, whatever follows them. -/
theorem ofLsbFirst_lsbFirst_append (x : BitVec w) (rest : List Bool) :
    ofLsbFirst w (lsbFirst x ++ rest) = x := by
  apply BitVec.eq_of_getLsbD_eq
  intro i bound
  have bit : (lsbFirst x ++ rest).getD i false = x.getLsbD i := by
    rw [List.getD_eq_getElem?_getD, List.getElem?_append_left (by simpa using bound),
      getElem?_lsbFirst, if_pos bound]
    rfl
  rw [ofLsbFirst, BitVec.getLsbD_setWidth, BitVec.getLsbD_ofBoolListLE, bit]
  simp [bound]

end BitString
