import Raspdif.Lib.Framing
import Raspdif.Spdif.Balance
import Raspdif.Spdif.Receiver
import Raspdif.Spdif.Sync

/-!
# A receiver that comes late

A receiver that is connected at some moment knows neither where a subframe begins nor the
polarity of the line.  It scans for eight half-cells that are a preamble or the complement of
one and decodes from there on.  On every stream of codes it has lost no more than the
subframe that it came into (`receiveLate_drop`).
-/

namespace Raspdif

open BitString Framing

/-! ## The receiver -/

/-- The level before these half-cells, if they are those of a preamble. -/
def receivePolarity (cells : List Bool) : Option Bool :=
  [false, true].find? fun level => (receivePreamble level cells).isSome

/-- The half-cells from here on begin a subframe. -/
def subframeStart (cells : List Bool) : Option Bool := receivePolarity (cells.take 8)

/-- Whole subframes from the first preamble on that there is. -/
def receiveLate (cells : List Bool) : Option (List ReceivedSubframe) := do
  let start ← lock subframeStart cells
  receiveSubframes start.2 ((cells.length - start.1) / 64) (cells.drop start.1)

/-! ## Polarity -/

theorem map_xor_xor (inverted level : Bool) (cells : List Bool) :
    (cells.map (level ^^ ·)).map (inverted ^^ ·) = cells.map ((inverted ^^ level) ^^ ·) := by
  rw [List.map_map]
  exact List.map_congr_left fun cell _ => (Bool.xor_assoc ..).symm

theorem map_xor_inj (inverted : Bool) {first second : List Bool} :
    first.map (inverted ^^ ·) = second.map (inverted ^^ ·) ↔ first = second := by
  constructor
  · intro same
    have again := congrArg (List.map (inverted ^^ ·)) same
    rw [map_xor_xor, map_xor_xor, Bool.xor_self] at again
    simpa using again
  · exact congrArg _

theorem receivePreamble_map (inverted level : Bool) (cells : List Bool) :
    receivePreamble (inverted ^^ level) (cells.map (inverted ^^ ·)) =
      receivePreamble level cells := by
  have same (preamble : SpdifPreamble) :
      (preamble.cells.map ((inverted ^^ level) ^^ ·) == cells.map (inverted ^^ ·)) =
        (preamble.cells.map (level ^^ ·) == cells) := by
    rw [← map_xor_xor, Bool.eq_iff_iff, beq_iff_eq, beq_iff_eq, map_xor_inj]
  unfold receivePreamble
  rw [funext same]

theorem lineLevel_map (inverted level : Bool) (cells : List Bool) :
    lineLevel (inverted ^^ level) (cells.map (inverted ^^ ·)) =
      (inverted ^^ lineLevel level cells) := by
  unfold lineLevel
  induction cells generalizing level with
  | nil => rfl
  | cons cell cells ih => rw [List.map_cons, List.getLastD_cons, List.getLastD_cons, ih]

theorem decode_map (inverted level : Bool) (cells : List Bool) :
    BiphaseMark.decode (inverted ^^ level) (cells.map (inverted ^^ ·)) =
      BiphaseMark.decode level cells := by
  cases inverted with
  | false => simp
  | true => simpa using BiphaseMark.decode_not level cells

theorem receiveSubframe_map (inverted level : Bool) (cells : List Bool) :
    receiveSubframe (inverted ^^ level) (cells.map (inverted ^^ ·)) =
      receiveSubframe level cells := by
  unfold receiveSubframe
  rw [← List.map_take, ← List.map_drop, receivePreamble_map, lineLevel_map, decode_map]

/-- The polarity of the line does not matter to a receiver that knows it. -/
theorem receiveSubframes_map (inverted level : Bool) (count : Nat) (cells : List Bool) :
    receiveSubframes (inverted ^^ level) count (cells.map (inverted ^^ ·)) =
      receiveSubframes level count cells := by
  induction count generalizing level cells with
  | zero => rfl
  | succ count ih =>
      rw [receiveSubframes, receiveSubframes, ← List.map_take, ← List.map_drop,
        receiveSubframe_map, lineLevel_map, ih]

/-! ## Where a subframe begins -/

theorem receivePolarity_eq_none {cells : List Bool}
    (other : ∀ (preamble : SpdifPreamble) (level : Bool), cells ≠ preamble.cells.map (level ^^ ·)) :
    receivePolarity cells = none := by
  refine List.find?_eq_none.mpr fun level _ found => ?_
  obtain ⟨preamble, -, same⟩ := List.find?_isSome.mp found
  exact other preamble level (beq_iff_eq.mp same).symm

theorem receivePolarity_preamble (preamble : SpdifPreamble) (inverted : Bool) :
    receivePolarity (preamble.cells.map (inverted ^^ ·)) = some inverted := by
  cases preamble <;> cases inverted <;> decide

/-- Inside a subframe nothing looks like the start of one. -/
theorem window_halfCells_ne (calls : List SubframeCall) {offset : Nat} (inside : ¬ 64 ∣ offset)
    (present : offset + 8 ≤ (halfCells calls).length) (seen : SpdifPreamble) (inverted : Bool) :
    window (halfCells calls) offset ≠ seen.cells.map (inverted ^^ ·) := by
  induction calls generalizing offset with
  | nil => simp at present
  | cons call calls ih =>
      rw [halfCells_cons] at present ⊢
      rcases Nat.lt_or_ge offset 64 with here | later
      · have pos : 0 < offset := Nat.pos_of_ne_zero fun zero => inside (zero ▸ Nat.dvd_zero 64)
        exact call.window_ne (halfCells_opens calls) pos here present seen inverted
      · obtain ⟨offset, rfl⟩ := Nat.exists_eq_add_of_le later
        have whole : (msbFirst call.code).length = 64 := length_msbFirst _
        rw [List.length_append, whole] at present
        have shift := window_append (msbFirst call.code) (halfCells calls) offset
        rw [whole] at shift
        rw [shift]
        exact ih (by omega) (by omega)

section

variable {calls : List SubframeCall} {line : List Bool} {offset count missed : Nat}

theorem drop_halfCells (calls : List SubframeCall) (count : Nat) :
    (halfCells calls).drop (64 * count) = halfCells (calls.drop count) := by
  have split : halfCells (calls.take count) ++ halfCells (calls.drop count) = halfCells calls := by
    rw [halfCells, halfCells, halfCells, ← List.flatMap_append, List.take_append_drop]
  rw [← take_halfCells] at split
  exact List.append_cancel_left (((halfCells calls).take_append_drop (64 * count)).trans split.symm)

theorem window_of_isPrefix (sent : line <+: halfCells calls) (bound : offset + 8 ≤ line.length) :
    window line offset = window (halfCells calls) offset := by
  obtain ⟨rest, whole⟩ := sent
  rw [← whole, window_append_left bound]

/-- Inside a subframe of either polarity nothing is taken for the start of one. -/
theorem subframeStart_inside (sent : line <+: halfCells calls) (inverted : Bool)
    (inside : ¬ 64 ∣ offset) :
    subframeStart ((line.map (inverted ^^ ·)).drop offset) = none := by
  refine receivePolarity_eq_none fun seen level same => ?_
  rw [← List.map_drop, ← List.map_take] at same
  have eight : offset + 8 ≤ line.length := by
    have length := congrArg List.length same
    have cells : seen.cells.length = 8 := by cases seen <;> rfl
    rw [List.length_map, List.length_map, List.length_take, List.length_drop, cells] at length
    omega
  have seen' : window line offset = seen.cells.map ((inverted ^^ level) ^^ ·) := by
    rw [← map_xor_inj inverted, map_xor_xor, ← Bool.xor_assoc, Bool.xor_self,
      Bool.false_xor]
    exact same
  rw [window_of_isPrefix sent eight] at seen'
  obtain ⟨rest, whole⟩ := sent
  refine window_halfCells_ne calls inside ?_ seen _ seen'
  rw [← whole, List.length_append]
  omega

/-- At the start of a subframe its polarity is found. -/
theorem subframeStart_boundary (sent : line <+: halfCells calls) (inverted : Bool) (count : Nat)
    (bound : 64 * count + 8 ≤ line.length) :
    subframeStart ((line.map (inverted ^^ ·)).drop (64 * count)) = some inverted := by
  have here : window line (64 * count) = window (halfCells (calls.drop count)) 0 := by
    rw [window_of_isPrefix sent bound, window, drop_halfCells]
    rfl
  obtain ⟨rest, whole⟩ := sent
  unfold subframeStart
  rw [← List.map_drop, ← List.map_take]
  change receivePolarity ((window line (64 * count)).map (inverted ^^ ·)) = some inverted
  rw [here]
  cases left : calls.drop count with
  | nil =>
      -- There is no such subframe.
      have none := congrArg List.length (drop_halfCells calls count)
      have length := congrArg List.length whole
      rw [left, halfCells_nil, List.length_nil, List.length_drop] at none
      rw [List.length_append] at length
      omega
  | cons call calls =>
      rw [halfCells_cons, window_zero]
      exact receivePolarity_preamble call.preamble inverted

/-! ## What is received -/

/-- From the start of a stream on. -/
theorem receiveSubframes_of_isPrefix (sent : line <+: halfCells calls) (count : Nat)
    (heard : 64 * count ≤ line.length) :
    receiveSubframes false count line = some ((calls.take count).map SubframeCall.received) := by
  induction count generalizing calls line with
  | zero => rw [List.take_zero]; rfl
  | succ count ih =>
      obtain ⟨rest, whole⟩ := sent
      cases calls with
      | nil =>
          have length := congrArg List.length whole
          rw [halfCells_nil, List.length_append, List.length_nil] at length
          omega
      | cons call calls =>
          have first : (msbFirst call.code).length = 64 := length_msbFirst _
          rw [halfCells_cons] at whole
          have head : line.take 64 = msbFirst call.code := by
            have both := congrArg (List.take 64) whole
            rwa [List.take_append_of_le_length (by omega), List.take_left' first] at both
          have tail : line.drop 64 <+: halfCells calls := by
            have both := congrArg (List.drop 64) whole
            rw [List.drop_append_of_le_length (by omega), List.drop_left' first] at both
            exact ⟨rest, both⟩
          have more := ih tail (by rw [List.length_drop]; omega)
          rw [receiveSubframes, head, call.receiveSubframe_code, call.lineLevel_code, more]
          rfl

/-- A receiver that comes late has all subframes but the ones that had begun. -/
theorem receiveLate_drop (sent : line <+: halfCells calls) (inverted : Bool)
    (enough : missed + 71 ≤ line.length) :
    receiveLate ((line.map (inverted ^^ ·)).drop missed) =
      some (((calls.take (line.length / 64)).drop (firstBlock 64 missed)).map
        SubframeCall.received) := by
  have pos : 0 < 64 := Nat.zero_lt_succ 63
  obtain ⟨behind, near⟩ := le_mul_firstBlock pos missed
  have locked := lock_drop pos
    (fun i inside => subframeStart_inside sent inverted inside)
    (subframeStart_boundary sent inverted (firstBlock 64 missed) (by omega))
    (by rw [List.length_map]; omega)
  generalize firstBlock 64 missed = first at behind near locked ⊢
  have rest : ((line.map (inverted ^^ ·)).drop missed).drop (64 * first - missed) =
      (line.drop (64 * first)).map (inverted ^^ ·) := by
    rw [List.drop_drop, Nat.add_sub_cancel' behind, List.map_drop]
  have left : (((line.map (inverted ^^ ·)).drop missed).length - (64 * first - missed)) / 64 =
      line.length / 64 - first := by
    rw [List.length_drop, List.length_map]
    omega
  have later : line.drop (64 * first) <+: halfCells (calls.drop first) := by
    rw [← drop_halfCells]
    obtain ⟨more, whole⟩ := sent
    rw [← whole, List.drop_append_of_le_length (by omega)]
    exact List.prefix_append _ _
  have heard := receiveSubframes_of_isPrefix later (line.length / 64 - first)
    (by rw [List.length_drop]; omega)
  rw [receiveLate, locked]
  change receiveSubframes inverted (_ / 64) (((line.map (inverted ^^ ·)).drop missed).drop _) = _
  have same := receiveSubframes_map inverted false (line.length / 64 - first)
    (line.drop (64 * first))
  rw [Bool.xor_false] at same
  rw [rest, left, same, heard, List.drop_take]

end

end Raspdif
