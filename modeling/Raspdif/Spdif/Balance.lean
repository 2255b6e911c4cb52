import Raspdif.Lib.Disparity
import Raspdif.Spdif.LineCode

/-!
# The line is balanced

Each preamble has four high and four low half-cells and is high first, and the 28
cells behind it start and end on level 0.  So every subframe leaves the running
disparity where it was, and between two subframe boundaries it moves within `0..3`.
-/

namespace Raspdif

open BitString Disparity

theorem SpdifPreamble.disparity_cells (preamble : SpdifPreamble) :
    disparity preamble.cells = 0 := by
  cases preamble <;> decide

/-- The third high half-cell of a preamble is the highest point of the line. -/
theorem SpdifPreamble.within_cells (preamble : SpdifPreamble) :
    Within 0 3 0 preamble.cells := by
  have nine (count : Nat) : preamble.cells.take count = preamble.cells.take (min count 8) := by
    rw [show 8 = preamble.cells.length by cases preamble <;> rfl, ← List.take_eq_take_min]
  intro count
  rw [nine]
  have few : min count 8 < 9 := by omega
  generalize min count 8 = prefixLength at few
  revert few prefixLength
  cases preamble <;> decide

theorem SubframeCall.disparity_code (call : SubframeCall) :
    disparity (msbFirst call.code) = 0 := by
  have cells := disparity_encode false call.updated.dataBits
  rw [show BiphaseMark.endLevel false call.updated.dataBits = false from
    endLevel_spdifBuildSubframe call.clear ..] at cells
  rw [call.msbFirst_code, disparity_append, call.preamble.disparity_cells]
  simpa [atLevel] using cells

theorem SubframeCall.within_code (call : SubframeCall) :
    Within 0 3 0 (msbFirst call.code) := by
  rw [call.msbFirst_code]
  apply Within.append call.preamble.within_cells
  rw [call.preamble.disparity_cells]
  exact (within_encode false call.updated.dataBits).mono (by decide) (by decide)

theorem disparity_halfCells (calls : List SubframeCall) : disparity (halfCells calls) = 0 := by
  induction calls with
  | nil => rfl
  | cons call calls ih =>
      rw [halfCells_cons, disparity_append, call.disparity_code, ih, Int.add_zero]

theorem within_halfCells (calls : List SubframeCall) : Within 0 3 0 (halfCells calls) := by
  induction calls with
  | nil => exact Within.nil (by decide) (by decide)
  | cons call calls ih =>
      rw [halfCells_cons]
      apply Within.append call.within_code
      rw [call.disparity_code]
      exact ih

/-- A subframe boundary of the stream is the end of the calls before it. -/
theorem take_halfCells (calls : List SubframeCall) (count : Nat) :
    (halfCells calls).take (64 * count) = halfCells (calls.take count) := by
  induction calls generalizing count with
  | nil => simp
  | cons call calls ih =>
      cases count with
      | zero => simp
      | succ count =>
          rw [halfCells_cons, List.take_succ_cons, halfCells_cons, ← ih, List.take_append,
            length_msbFirst, List.take_of_length_le (by rw [length_msbFirst]; omega),
            show 64 * (count + 1) - 64 = 64 * count by omega]

/-- **The line carries no direct component.**  For every stream of codes the running
disparity is 0 at every subframe boundary and stays within `0..3` after every
half-cell. -/
theorem halfCells_balanced (calls : List SubframeCall) :
    (∀ count, disparity ((halfCells calls).take (64 * count)) = 0) ∧
      ∀ count, 0 ≤ disparity ((halfCells calls).take count) ∧
        disparity ((halfCells calls).take count) ≤ 3 := by
  constructor
  · intro count
    rw [take_halfCells, disparity_halfCells]
  · intro count
    simpa using within_halfCells calls count

end Raspdif
