import Raspdif.Spdif.LineCode

/-!
# Unambiguous synchronisation

A receiver that knows nothing of the stream looks at eight consecutive half-cells
and takes them for a subframe start when they are a preamble or its complement.
`window_eq_preamble_iff`: on every stream of codes that happens at the subframe
starts only, uncomplemented, and with the preamble that was sent.

Every preamble opens with three equal half-cells, while the data turns at each cell
boundary, so a false start can only lie inside a preamble (`window_inside_head`).
-/

namespace Raspdif

open BitString

/-- The eight half-cells a receiver sees from half-cell `offset` on. -/
def window (cells : List Bool) (offset : Nat) : List Bool := (cells.drop offset).take 8

theorem window_append (first second : List Bool) (offset : Nat) :
    window (first ++ second) (first.length + offset) = window second offset := by
  rw [window, window, List.drop_append, List.drop_of_length_le (by omega)]
  simp

theorem window_append_left {first second : List Bool} {offset : Nat}
    (inside : offset + 8 ≤ first.length) :
    window (first ++ second) offset = window first offset := by
  rw [window, window, List.drop_append_of_le_length (by omega),
    List.take_append_of_le_length (by rw [List.length_drop]; omega)]

theorem getElem?_of_window {cells pattern : List Bool} {offset : Nat}
    (seen : window cells offset = pattern) {i : Nat} (bound : i < 8) :
    cells[offset + i]? = pattern[i]? := by
  rw [← seen, window, List.getElem?_take, if_pos bound, List.getElem?_drop]

/-- The three half-cells every preamble opens with, complemented or not. -/
theorem getElem?_preamble (preamble : SpdifPreamble) (inverted : Bool) {i : Nat} (bound : i < 3) :
    (preamble.cells.map (inverted ^^ ·))[i]? = some !inverted := by
  obtain rfl | rfl | rfl : i = 0 ∨ i = 1 ∨ i = 2 := by omega
  all_goals cases preamble <;> simp [SpdifPreamble.cells]

/-! ## One subframe and what follows it -/

/-- A preamble and the first cells of any data: nothing in there but the start itself
looks like a start. -/
theorem window_inside_head (sent seen : SpdifPreamble) :
    ∀ (second fourth inverted : Bool) (offset : Fin 5),
      window (sent.cells ++ [true, second, !second, fourth, !fourth]) (offset + 1) ≠
        seen.cells.map (inverted ^^ ·) := by
  cases sent <;> cases seen <;> decide

/-- A code opens with its preamble and three cells whose first halves follow from
the level before them. -/
theorem SubframeCall.code_head (call : SubframeCall) :
    ∃ (second fourth : Bool) (rest : List Bool),
      msbFirst call.code =
        (call.preamble.cells ++ [true, second, !second, fourth, !fourth]) ++ rest := by
  have long := call.updated.length_dataBits
  rw [call.msbFirst_code]
  generalize call.updated.dataBits = bits at long
  rcases bits with _ | ⟨bit0, _ | ⟨bit1, _ | ⟨bit2, bits⟩⟩⟩
  · cases long
  · cases long
  · cases long
  · simp only [BiphaseMark.encode, List.append_assoc, List.cons_append, List.nil_append]
    exact ⟨_, _, _, rfl⟩

/-- From the last half-cell of the preamble on, the line turns at every cell
boundary, the one before the next preamble included. -/
theorem SubframeCall.turns (call : SubframeCall) {following : List Bool}
    (opens : following[0]? = none ∨ following[0]? = some true) {i : Nat} (bound : i ≤ 28)
    (present : 8 + 2 * i < (msbFirst call.code ++ following).length) :
    ∃ before, (msbFirst call.code ++ following)[7 + 2 * i]? = some before ∧
      (msbFirst call.code ++ following)[8 + 2 * i]? = some (!before) := by
  have head : call.preamble.cells = call.preamble.cells.take 7 ++ [false] := by
    cases call.preamble <;> rfl
  have seven : (call.preamble.cells.take 7).length = 7 := by cases call.preamble <;> rfl
  have line : msbFirst call.code ++ following = call.preamble.cells.take 7 ++
      ((false :: BiphaseMark.encode false call.updated.dataBits) ++ following) := by
    rw [call.msbFirst_code, head, List.take_left' seven]
    simp
  have shift (n : Nat) : (msbFirst call.code ++ following)[7 + n]? =
      ((false :: BiphaseMark.encode false call.updated.dataBits) ++ following)[n]? := by
    rw [line, List.getElem?_append_right (by omega), seven, Nat.add_sub_cancel_left]
  have length : (false :: BiphaseMark.encode false call.updated.dataBits).length = 57 := by simp
  rw [show 8 + 2 * i = 7 + (2 * i + 1) by omega, shift, shift]
  rcases Nat.lt_or_eq_of_le bound with inside | rfl
  · rw [List.getElem?_append_left (by omega), List.getElem?_append_left (by omega)]
    exact BiphaseMark.encode_turns (by simpa using inside)
  · -- The last boundary: the subframe ends on level 0, the next preamble opens on 1.
    have last : (false :: BiphaseMark.encode false call.updated.dataBits)[2 * 28]? =
        some false := by
      rw [← call.updated.length_dataBits, BiphaseMark.getElem?_encode_last]
      exact congrArg some (endLevel_spdifBuildSubframe call.clear ..)
    have next : following[0]? = some true := by
      refine opens.resolve_left fun absent => ?_
      rw [List.getElem?_eq_none_iff] at absent
      rw [List.length_append, length_msbFirst] at present
      omega
    refine ⟨false, ?_, ?_⟩
    · rw [List.getElem?_append_left (by omega), last]
    · rw [List.getElem?_append_right (by omega), length]
      exact next

/-- No window that starts strictly inside a subframe looks like a subframe start. -/
theorem SubframeCall.window_ne (call : SubframeCall) {following : List Bool}
    (opens : following[0]? = none ∨ following[0]? = some true) {offset : Nat}
    (pos : 0 < offset) (bound : offset < 64)
    (present : offset + 8 ≤ (msbFirst call.code ++ following).length)
    (seen : SpdifPreamble) (inverted : Bool) :
    window (msbFirst call.code ++ following) offset ≠ seen.cells.map (inverted ^^ ·) := by
  intro match_
  by_cases early : offset ≤ 5
  · obtain ⟨second, fourth, rest, code⟩ := call.code_head
    have length :
        (call.preamble.cells ++ [true, second, !second, fourth, !fourth]).length = 13 := by
      cases call.preamble <;> rfl
    rw [code, List.append_assoc, window_append_left (by omega)] at match_
    obtain ⟨offset, rfl⟩ : ∃ before, offset = before + 1 := ⟨offset - 1, by omega⟩
    exact window_inside_head call.preamble seen second fourth inverted ⟨offset, by omega⟩ match_
  · -- Three equal half-cells reach across a cell boundary.
    have first := (getElem?_of_window match_ (i := 0) (by decide)).trans
      (getElem?_preamble seen inverted (by decide))
    have second := (getElem?_of_window match_ (i := 1) (by decide)).trans
      (getElem?_preamble seen inverted (by decide))
    have third := (getElem?_of_window match_ (i := 2) (by decide)).trans
      (getElem?_preamble seen inverted (by decide))
    rcases Nat.even_or_odd' offset with ⟨half, rfl | rfl⟩
    · obtain ⟨before, left, right⟩ := call.turns opens (i := half - 3) (by omega) (by omega)
      rw [show 7 + 2 * (half - 3) = 2 * half + 1 by omega, second] at left
      rw [show 8 + 2 * (half - 3) = 2 * half + 2 by omega, third] at right
      simp_all
    · obtain ⟨before, left, right⟩ := call.turns opens (i := half - 3) (by omega) (by omega)
      rw [show 7 + 2 * (half - 3) = 2 * half + 1 + 0 by omega, first] at left
      rw [show 8 + 2 * (half - 3) = 2 * half + 1 + 1 by omega, second] at right
      simp_all

/-! ## Whole streams -/

/-- What follows a subframe is nothing or the first half-cell of a preamble. -/
theorem halfCells_opens (calls : List SubframeCall) :
    (halfCells calls)[0]? = none ∨ (halfCells calls)[0]? = some true := by
  cases calls with
  | nil => exact Or.inl rfl
  | cons call calls =>
      right
      rw [halfCells_cons, call.msbFirst_code]
      cases call.preamble <;> rfl

theorem window_zero (call : SubframeCall) (following : List Bool) :
    window (msbFirst call.code ++ following) 0 = call.preamble.cells := by
  rw [call.msbFirst_code]
  cases call.preamble <;> rfl

theorem map_xor_cells_inj {sent seen : SpdifPreamble} {inverted : Bool} :
    sent.cells = seen.cells.map (inverted ^^ ·) ↔ sent = seen ∧ inverted = false := by
  cases sent <;> cases seen <;> cases inverted <;> decide

/-- **Unambiguous synchronisation.**  Wherever eight half-cells of the stream exist,
they equal a preamble pattern or its complement exactly at the start of a subframe,
uncomplemented, and the pattern is that of the preamble sent there. -/
theorem window_eq_preamble_iff (calls : List SubframeCall) (offset : Nat)
    (present : offset + 8 ≤ (halfCells calls).length) (seen : SpdifPreamble) (inverted : Bool) :
    window (halfCells calls) offset = seen.cells.map (inverted ^^ ·) ↔
      64 ∣ offset ∧ inverted = false ∧
        (calls[offset / 64]?).map SubframeCall.preamble = some seen := by
  induction calls generalizing offset with
  | nil => simp at present
  | cons call calls ih =>
      rw [halfCells_cons] at present ⊢
      rcases Nat.lt_or_ge offset 64 with here | later
      · rcases Nat.eq_zero_or_pos offset with rfl | pos
        · rw [window_zero, map_xor_cells_inj]
          simp [and_comm]
        · have inside : ¬ 64 ∣ offset := Nat.not_dvd_of_pos_of_lt pos here
          simp only [inside, false_and, iff_false]
          exact call.window_ne (halfCells_opens calls) pos here present seen inverted
      · obtain ⟨offset, rfl⟩ := Nat.exists_eq_add_of_le later
        have shift : window (msbFirst call.code ++ halfCells calls) (64 + offset) =
            window (halfCells calls) offset := by
          simpa using window_append (msbFirst call.code) (halfCells calls) offset
        rw [shift, ih offset (by simpa [Nat.add_assoc] using present)]
        have divides : 64 ∣ 64 + offset ↔ 64 ∣ offset := by omega
        rw [divides, show (64 + offset) / 64 = offset / 64 + 1 by omega,
          List.getElem?_cons_succ]

/-- Two silent subframes, one behind a B and one behind a W preamble. -/
def silentPair : List SubframeCall :=
  [⟨(SpdifBlock.zero.frames 0).a, .b, .depth16, 0, rfl⟩,
    ⟨(SpdifBlock.zero.frames 0).b, .w, .depth16, 0, rfl⟩]

/-- A receiver that looks at half-cell 64 of them sees a W. -/
theorem window_silentPair :
    window (halfCells silentPair) 64 = SpdifPreamble.w.cells.map (false ^^ ·) :=
  (window_eq_preamble_iff silentPair 64 (by simp [silentPair]) .w false).mpr
    ⟨by decide, rfl, rfl⟩

end Raspdif
