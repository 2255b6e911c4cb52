import Raspdif.Spdif.LineCode

/-!
# An IEC 60958 receiver

A receiver written against the interface standard, not against the encoder: it
matches a preamble at the current line level, decodes the 28 bit cells behind it and
reports the fields and whether the parity came out even.  It refuses an unknown
preamble and a cell boundary without a transition.

`receive_halfCells`: from line level 0 it recovers, call by call, the preamble and
the fields of the subframe word that `spdif_build_subframe` encoded.
-/

namespace Raspdif

open BitString

structure ReceivedSubframe where
  preamble : SpdifPreamble
  aux : BitVec 4
  sample : BitVec 20
  validity : Bool
  userData : Bool
  channelStatus : Bool
  /-- Bits 4 to 31 hold an even number of ones. -/
  evenParity : Bool
  deriving DecidableEq, Repr

/-- The audio sample in 24 bits, the aux nibble as its four low bits. -/
def ReceivedSubframe.value24 (r : ReceivedSubframe) : Int := (r.sample ++ r.aux).toInt

/-- The audio sample of a receiver that takes no audio from the aux nibble, at the
same scale. -/
def ReceivedSubframe.value20 (r : ReceivedSubframe) : Int := (r.sample ++ 0#4).toInt

/-- The preamble whose half-cells follow line level `level`, if `cells` are one's. -/
def receivePreamble (level : Bool) (cells : List Bool) : Option SpdifPreamble :=
  [SpdifPreamble.b, .m, .w].find? fun preamble => preamble.cells.map (level ^^ ·) == cells

/-- One subframe of 64 half-cells on a line that stood at `level` before it. -/
def receiveSubframe (level : Bool) (cells : List Bool) : Option ReceivedSubframe := do
  let preamble ← receivePreamble level (cells.take 8)
  let bits ← BiphaseMark.decode (lineLevel level (cells.take 8)) (cells.drop 8)
  if bits.length = 28 then
    some
      { preamble
        aux := ofLsbFirst 4 bits
        sample := ofLsbFirst 20 (bits.drop 4)
        validity := bits.getD 24 false
        userData := bits.getD 25 false
        channelStatus := bits.getD 26 false
        evenParity := bits.count true % 2 == 0 }
  else
    none

/-- `count` subframes, the line level carried from each to the next. -/
def receiveSubframes (level : Bool) : Nat → List Bool → Option (List ReceivedSubframe)
  | 0, _ => some []
  | count + 1, cells => do
      let subframe ← receiveSubframe level (cells.take 64)
      let rest ← receiveSubframes (lineLevel level (cells.take 64)) count (cells.drop 64)
      some (subframe :: rest)

/-- A whole stream, on a line that stands at level 0 before it. -/
def receive (cells : List Bool) : Option (List ReceivedSubframe) :=
  if cells.length % 64 = 0 then receiveSubframes false (cells.length / 64) cells else none

/-! ## What is received of an encoded stream -/

/-- What there is to receive of a subframe word sent behind `preamble`. -/
def SpdifSubframe.received (s : SpdifSubframe) (preamble : SpdifPreamble) : ReceivedSubframe where
  preamble := preamble
  aux := s.aux
  sample := s.sample
  validity := s.validity.getLsbD 0
  userData := s.userData.getLsbD 0
  channelStatus := s.channelStatus.getLsbD 0
  evenParity := s.dataBits.count true % 2 == 0

theorem receivePreamble_cells (preamble : SpdifPreamble) :
    receivePreamble false preamble.cells = some preamble := by
  cases preamble <;> decide

/-- The receiver recovers every field of an encoded subframe word. -/
theorem receiveSubframe_encode (preamble : SpdifPreamble) (s : SpdifSubframe) :
    receiveSubframe false (preamble.cells ++ BiphaseMark.encode false s.dataBits) =
      some (s.received preamble) := by
  have eight : preamble.cells.length = 8 := by cases preamble <;> rfl
  have aux : ofLsbFirst 4 s.dataBits = s.aux := by
    rw [s.dataBits_eq]
    exact ofLsbFirst_lsbFirst_append ..
  have sample : ofLsbFirst 20 (s.dataBits.drop 4) = s.sample := by
    rw [s.dataBits_eq, List.drop_left' (length_lsbFirst s.aux)]
    exact ofLsbFirst_lsbFirst_append ..
  have flag (k : Nat) : s.dataBits.getD (24 + k) false =
      [s.validity.getLsbD 0, s.userData.getLsbD 0, s.channelStatus.getLsbD 0,
        s.parity.getLsbD 0].getD k false := by
    rw [s.dataBits_eq, ← List.append_assoc, List.getD_eq_getElem?_getD,
      List.getElem?_append_right (by simp), ← List.getD_eq_getElem?_getD]
    simp
  unfold receiveSubframe
  rw [List.take_left' eight, List.drop_left' eight, receivePreamble_cells, lineLevel_preamble,
    BiphaseMark.decode_encode]
  simp only [Option.bind_eq_bind, Option.bind_some, s.length_dataBits, ↓reduceIte, aux, sample,
    flag 0, flag 1, flag 2, SpdifSubframe.received, List.getD_cons_zero, List.getD_cons_succ]

/-- What there is to receive of one call. -/
def SubframeCall.received (call : SubframeCall) : ReceivedSubframe :=
  call.updated.received call.preamble

theorem SubframeCall.receiveSubframe_code (call : SubframeCall) :
    receiveSubframe false (msbFirst call.code) = some call.received := by
  rw [call.msbFirst_code]
  exact receiveSubframe_encode ..

theorem length_halfCells (calls : List SubframeCall) :
    (halfCells calls).length = 64 * calls.length := by
  induction calls with
  | nil => rfl
  | cons call calls ih =>
      rw [halfCells_cons, List.length_append, length_msbFirst, ih, List.length_cons]
      omega

/-- The receiver recovers every subframe of every stream of codes. -/
theorem receive_halfCells (calls : List SubframeCall) :
    receive (halfCells calls) = some (calls.map SubframeCall.received) := by
  rw [receive, length_halfCells, if_pos (by omega), Nat.mul_div_cancel_left _ (by decide)]
  induction calls with
  | nil => rfl
  | cons call calls ih =>
      have whole : (msbFirst call.code).length = 64 := length_msbFirst _
      rw [halfCells_cons, List.length_cons, receiveSubframes, List.take_left' whole,
        List.drop_left' whole, call.receiveSubframe_code, call.lineLevel_code, ih]
      rfl

end Raspdif
