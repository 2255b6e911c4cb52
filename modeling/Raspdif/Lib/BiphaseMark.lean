import Mathlib.Data.Bool.Count
import Mathlib.Algebra.Group.Nat.Even

/-!
# Biphase-mark line code

A biphase-mark transmitter carries one line level.  Each bit takes two half-cells:
the first is the opposite of the level before it, the second is flipped again
exactly when the bit is one.  The line therefore turns at every cell boundary,
whatever the data, and a receiver recovers both the clock and the bits.

* `encode level bits`: the half-cells a transmitter emits from line level `level`.
* `endLevel level bits`: the level it leaves behind; it depends only on the parity
  of the number of zeros (`endLevel_eq`).
* `decode level cells`: a receiver that knows only the level before the first cell
  and refuses a cell boundary without a transition; `decode_encode`.
-/

namespace BiphaseMark

/-- The half-cells emitted for `bits` by a transmitter at line level `level`. -/
def encode (level : Bool) : List Bool → List Bool
  | [] => []
  | bit :: bits => (!level) :: (!level ^^ bit) :: encode (!level ^^ bit) bits

/-- The line level after `bits` have been emitted. -/
def endLevel (level : Bool) : List Bool → Bool
  | [] => level
  | bit :: bits => endLevel (!level ^^ bit) bits

/-- Recover the bits from half-cells, given the level before them.  A first
half-cell that repeats the level before it is a code violation. -/
def decode (level : Bool) : List Bool → Option (List Bool)
  | [] => some []
  | [_] => none
  | first :: second :: cells =>
      if first = level then none else (decode second cells).map ((first ^^ second) :: ·)

@[simp] theorem length_encode (level : Bool) (bits : List Bool) :
    (encode level bits).length = 2 * bits.length := by
  induction bits generalizing level with
  | nil => rfl
  | cons bit bits ih =>
      simp only [encode, List.length_cons, ih]
      omega

/-- A transmitter may be stopped and resumed at the level it reached. -/
theorem encode_append (level : Bool) (bits rest : List Bool) :
    encode level (bits ++ rest) =
      encode level bits ++ encode (endLevel level bits) rest := by
  induction bits generalizing level with
  | nil => rfl
  | cons bit bits ih => simp only [List.cons_append, encode, endLevel, ih]

/-- A zero turns the line once and a one turns it twice, so only the zeros count. -/
theorem endLevel_eq (level : Bool) (bits : List Bool) :
    endLevel level bits = (level ^^ decide (bits.count false % 2 = 1)) := by
  induction bits generalizing level with
  | nil => simp [endLevel]
  | cons bit bits ih =>
      rw [endLevel, ih]
      rcases Nat.mod_two_eq_zero_or_one (bits.count false) with even | odd
      · cases bit <;> cases level <;> simp [Nat.add_mod, even]
      · cases bit <;> cases level <;> simp [Nat.add_mod, odd]

/-- An even number of ones among an even number of bits brings the line back. -/
theorem endLevel_of_even {level : Bool} {bits : List Bool}
    (length : Even bits.length) (ones : Even (bits.count true)) :
    endLevel level bits = level := by
  have total : bits.count true + bits.count false = bits.length :=
    List.count_true_add_count_false bits
  have zeros : bits.count false % 2 = 0 := by
    rw [Nat.even_iff] at length ones
    omega
  simp [endLevel_eq, zeros]

/-- The level left behind is the last half-cell on the line. -/
theorem getLastD_encode (level : Bool) (bits : List Bool) :
    (encode level bits).getLastD level = endLevel level bits := by
  induction bits generalizing level with
  | nil => rfl
  | cons bit bits ih =>
      rw [encode, endLevel, List.getLastD_cons, List.getLastD_cons, ih]

/-- Starting from the opposite level complements every half-cell. -/
theorem encode_not (level : Bool) (bits : List Bool) :
    encode (!level) bits = (encode level bits).map (!·) := by
  induction bits generalizing level with
  | nil => rfl
  | cons bit bits ih =>
      have flipped : (!!level ^^ bit) = !(!level ^^ bit) := by
        cases level <;> cases bit <;> rfl
      simp only [encode, List.map_cons, flipped, ih]

/-- The receiver recovers the transmitted bits. -/
theorem decode_encode (level : Bool) (bits : List Bool) :
    decode level (encode level bits) = some bits := by
  induction bits generalizing level with
  | nil => rfl
  | cons bit bits ih =>
      simp [encode, decode, ih]

/-- A receiver that takes the line for its complement recovers them too. -/
theorem decode_not (level : Bool) (cells : List Bool) :
    decode (!level) (cells.map (!·)) = decode level cells := by
  fun_induction decode level cells with
  | case1 => rfl
  | case2 => rfl
  | case3 level second cells =>
      rw [List.map_cons, List.map_cons, decode, if_pos rfl]
  | case4 level first second cells turns ih =>
      have turns' : ¬ (!first) = !level := mt Bool.not_inj turns
      rw [List.map_cons, List.map_cons, decode, if_neg turns', ih, Bool.not_xor_not]

/-! ## Transitions -/

/-- Every cell opens with a transition: on the line that shows the level before the
first cell and then the cells, half-cell `2 * i + 1` is the opposite of the one
before it. -/
theorem encode_turns {level : Bool} {bits : List Bool} {i : Nat} (bound : i < bits.length) :
    ∃ before, (level :: encode level bits)[2 * i]? = some before ∧
      (level :: encode level bits)[2 * i + 1]? = some (!before) := by
  induction bits generalizing level i with
  | nil => simp at bound
  | cons bit bits ih =>
      cases i with
      | zero => exact ⟨level, rfl, rfl⟩
      | succ i =>
          obtain ⟨before, here, next⟩ :=
            @ih (!level ^^ bit) i (by simpa using bound)
          refine ⟨before, ?_, ?_⟩
          · simpa [encode, Nat.mul_add] using here
          · simpa [encode, Nat.mul_add, Nat.add_right_comm] using next

/-- The last half-cell shows the level left behind. -/
theorem getElem?_encode_last (level : Bool) (bits : List Bool) :
    (level :: encode level bits)[2 * bits.length]? = some (endLevel level bits) := by
  induction bits generalizing level with
  | nil => rfl
  | cons bit bits ih =>
      rw [encode, endLevel, ← ih, List.length_cons, Nat.mul_succ, List.getElem?_cons_succ,
        List.getElem?_cons_succ]

end BiphaseMark
