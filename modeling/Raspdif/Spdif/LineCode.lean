import Raspdif.Spdif.Build

/-!
# The table-driven encoder refines a running-level encoder

The specification is a transmitter that carries the line level through the whole
stream: `referenceStream` inverts a preamble that follows level 1 and codes bits 4
to 31 of each subframe word cell by cell.  The code instead looks nibbles up in a
table of codes from level 0 and never inverts a preamble.  The two emit the same
half-cells (`halfCells_eq_referenceStream`), because the parity bit brings the line
back to level 0 before the next subframe.
-/

namespace Raspdif

open BitString

/-! ## The reference encoder -/

/-- The half-cells of a preamble that follows line level 0. -/
def SpdifPreamble.cells : SpdifPreamble → List Bool
  | .b => [true, true, true, false, true, false, false, false]
  | .m => [true, true, true, false, false, false, true, false]
  | .w => [true, true, true, false, false, true, false, false]

/-- The line level after `cells`, on a line that stood at `level` before them. -/
def lineLevel (level : Bool) (cells : List Bool) : Bool := cells.getLastD level

theorem lineLevel_append (level : Bool) (first second : List Bool) :
    lineLevel level (first ++ second) = lineLevel (lineLevel level first) second := by
  induction first generalizing level with
  | nil => rfl
  | cons cell cells ih =>
      simp only [lineLevel, List.cons_append, List.getLastD_cons] at ih ⊢
      exact ih cell

/-- One subframe, emitted by a transmitter at line level `level`. -/
def referenceSubframe (level : Bool) (preamble : SpdifPreamble) (word : BitVec 32) : List Bool :=
  let head := preamble.cells.map (level ^^ ·)
  head ++ BiphaseMark.encode (lineLevel level head) ((lsbFirst word).drop 4)

/-- A stream of subframes, the line level carried from each to the next. -/
def referenceStream (level : Bool) : List (SpdifPreamble × BitVec 32) → List Bool
  | [] => []
  | (preamble, word) :: rest =>
      let cells := referenceSubframe level preamble word
      cells ++ referenceStream (lineLevel level cells) rest

/-! ## Calls of `spdif_build_subframe` -/

/-- The arguments of one call.  The callers pass a subframe of a block that was
zeroed and whose preamble nibble nothing writes. -/
structure SubframeCall where
  subframe : SpdifSubframe
  preamble : SpdifPreamble
  depth : SpdifSampleDepth
  sample : BitVec 32
  clear : subframe.preamble = 0

/-- The subframe as the call leaves it. -/
def SubframeCall.updated (call : SubframeCall) : SpdifSubframe :=
  (spdifBuildSubframe call.subframe call.preamble call.depth call.sample).1

/-- The code the call returns. -/
def SubframeCall.code (call : SubframeCall) : BitVec 64 :=
  (spdifBuildSubframe call.subframe call.preamble call.depth call.sample).2

/-- The codes of successive calls as the PCM peripheral shifts them out, most
significant bit first. -/
def halfCells (calls : List SubframeCall) : List Bool :=
  calls.flatMap fun call => msbFirst call.code

@[simp] theorem halfCells_nil : halfCells [] = [] := rfl

@[simp] theorem halfCells_cons (call : SubframeCall) (calls : List SubframeCall) :
    halfCells (call :: calls) = msbFirst call.code ++ halfCells calls := by
  simp [halfCells]

theorem msbFirst_preamble_code (preamble : SpdifPreamble) :
    msbFirst preamble.code = preamble.cells := by
  cases preamble <;> decide

theorem SubframeCall.msbFirst_code (call : SubframeCall) :
    msbFirst call.code =
      call.preamble.cells ++ BiphaseMark.encode false call.updated.dataBits := by
  rw [← msbFirst_preamble_code]
  exact msbFirst_spdifBuildSubframe ..

/-- Every preamble ends on level 0. -/
theorem lineLevel_preamble (preamble : SpdifPreamble) (level : Bool) :
    lineLevel level preamble.cells = false := by
  cases preamble <;> rfl

/-- The hard-coded preamble and the first table lookup are those of a reference
transmitter at level 0. -/
theorem SubframeCall.msbFirst_code_eq_reference (call : SubframeCall) :
    msbFirst call.code = referenceSubframe false call.preamble call.updated.raw := by
  have head : call.preamble.cells.map (false ^^ ·) = call.preamble.cells := by simp
  rw [call.msbFirst_code, referenceSubframe, head, lineLevel_preamble]
  rfl

/-- A call leaves the line at level 0. -/
theorem SubframeCall.lineLevel_code (call : SubframeCall) (level : Bool) :
    lineLevel level (msbFirst call.code) = false := by
  rw [call.msbFirst_code, lineLevel_append, lineLevel_preamble, lineLevel,
    BiphaseMark.getLastD_encode]
  exact endLevel_spdifBuildSubframe call.clear ..

/-- The line is at level 0 after any number of calls. -/
theorem lineLevel_halfCells (calls : List SubframeCall) :
    lineLevel false (halfCells calls) = false := by
  induction calls with
  | nil => rfl
  | cons call calls ih =>
      rw [halfCells_cons, lineLevel_append, call.lineLevel_code, ih]

/-- **The encoder refines the reference encoder.**  On every finite sequence of
calls the codes are the half-cells of the running-level encoder started at level 0,
and the line is at level 0 at every subframe boundary. -/
theorem halfCells_eq_referenceStream (calls : List SubframeCall) :
    halfCells calls =
        referenceStream false (calls.map fun call => (call.preamble, call.updated.raw)) ∧
      ∀ count, lineLevel false (halfCells (calls.take count)) = false := by
  refine ⟨?_, fun count => lineLevel_halfCells _⟩
  induction calls with
  | nil => rfl
  | cons call calls ih =>
      rw [halfCells_cons, List.map_cons, referenceStream, ih, ← call.msbFirst_code_eq_reference,
        call.lineLevel_code]

end Raspdif
