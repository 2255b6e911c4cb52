import Mathlib.Tactic.NormNum
import Raspdif.Lib.BitField
import Raspdif.Lib.CDouble

/-!
# The PCM clock

`raspdif_init` derives the divisor of the PCM clock from the sample rate, in exact
arithmetic here, and `bcm283x_clock_configure` checks and programs it.

The divisor is split first and only its fraction is rounded.  A fraction from 4095.5
units of 1/4096 on rounds to 4096, which has no place in `DIVF` and is not carried into
`DIVI`; the assertion on `divf` then fails.  Every other divisor in range is programmed
to within half a unit (`clock_divisor_nearest_iff`).
-/

namespace Raspdif

open BitField CDouble

/-! ## Registers -/

namespace ClockControl

-- The fields of `clock_control_t`.

def src : Field 32 := ⟨0, 4, by decide⟩
def enab : Field 32 := ⟨4, 1, by decide⟩
def flip : Field 32 := ⟨8, 1, by decide⟩
def mash : Field 32 := ⟨9, 2, by decide⟩
def passwd : Field 32 := ⟨24, 8, by decide⟩

end ClockControl

namespace ClockDivisor

-- The fields of `clock_divisor_t`.

def divf : Field 32 := ⟨0, 12, by decide⟩
def divi : Field 32 := ⟨12, 12, by decide⟩
def passwd : Field 32 := ⟨24, 8, by decide⟩

end ClockDivisor

/-- `bcm283x_clock_t`. -/
structure Bcm283xClock where
  ctl : BitVec 32
  div : BitVec 32
  deriving DecidableEq

/-- `CLOCK_MANAGER_PASSWORD`. -/
def clockManagerPassword : Nat := 0x5A

/-! ## Configuration -/

inductive ClockSource
  | ground
  | oscillator
  | plla
  | pllc
  | plld
  | hdmiAux
  deriving DecidableEq, Repr

/-- The value of the enumerator. -/
def ClockSource.code : ClockSource → Nat
  | .ground => 0
  | .oscillator => 1
  | .plla => 4
  | .pllc => 5
  | .plld => 6
  | .hdmiAux => 7

inductive ClockMashFilter
  | none
  | stage1
  | stage2
  | stage3
  deriving DecidableEq, Repr

/-- The value of the enumerator. -/
def ClockMashFilter.code : ClockMashFilter → Nat
  | .none => 0
  | .stage1 => 1
  | .stage2 => 2
  | .stage3 => 3

/-- `clock_configuration_t`. -/
structure ClockConfiguration where
  source : ClockSource
  mash : ClockMashFilter
  invert : Bool
  divi : BitVec 16
  divf : BitVec 16
  deriving DecidableEq

/-- The assertions of `bcm283x_clock_configure` on the divisor. -/
def ClockConfiguration.DivisorOk (config : ClockConfiguration) : Prop :=
  (0 < config.divi.toNat ∧ config.divi.toNat < 4096) ∧
    (0 ≤ config.divf.toNat ∧ config.divf.toNat < 4096)

instance (config : ClockConfiguration) : Decidable config.DivisorOk :=
  inferInstanceAs (Decidable (_ ∧ _))

/-- `bcm283x_clock_configure`.  No result is a failed assertion. -/
def bcm283xClockConfigure (config : ClockConfiguration) (clock : Bcm283xClock) :
    Option Bcm283xClock :=
  if config.DivisorOk then
    let control := ClockControl.passwd.set clock.ctl clockManagerPassword
    let control := ClockControl.enab.set control 0
    let clock := { clock with ctl := control }
    -- The hardware clears `BUSY` here; what follows does not depend on the old registers.
    let control := ClockControl.passwd.set 0 clockManagerPassword
    let control := ClockControl.src.set control config.source.code
    let control := ClockControl.mash.set control config.mash.code
    let control := ClockControl.flip.set control config.invert.toNat
    let divisor := ClockDivisor.passwd.set 0 clockManagerPassword
    let divisor := ClockDivisor.divi.set divisor config.divi.toNat
    let divisor := ClockDivisor.divf.set divisor config.divf.toNat
    some { clock with ctl := control, div := divisor }
  else
    none

/-- `pll_freq_hz`. -/
def pllFreqHz (pi4 : Bool) : ℚ := if pi4 then 750000000 else 500000000

/-- `divisor`. -/
def clockDivisor (pi4 : Bool) (sampleRateHz : ℚ) : ℚ := pllFreqHz pi4 / (sampleRateHz * 64 * 2)

/-- The clock configuration of `raspdif_init`.  No result is an undefined conversion. -/
def raspdifClockConfiguration (pi4 : Bool) (sampleRateHz : ℚ) : Option ClockConfiguration := do
  let parts := modf (clockDivisor pi4 sampleRateHz)
  let divf := CDouble.round (4096 * parts.2)
  let divi ← toUnsigned 16 parts.1
  let divf ← toUnsigned 16 divf
  some { source := .plld, mash := .stage1, invert := false, divi := divi, divf := divf }

/-! ## What is programmed -/

/-- The divisor the two fields stand for. -/
def Bcm283xClock.divisor (clock : Bcm283xClock) : ℚ :=
  ClockDivisor.divi.get clock.div + ClockDivisor.divf.get clock.div / 4096

/-- The divisor passes the assertions, and the fields are programmed with it as it is. -/
theorem bcm283xClockConfigure_divisor {config : ClockConfiguration} (ok : config.DivisorOk)
    (clock : Bcm283xClock) :
    ∃ after, bcm283xClockConfigure config clock = some after ∧
      after.divisor = config.divi.toNat + config.divf.toNat / 4096 := by
  refine ⟨_, if_pos ok, ?_⟩
  obtain ⟨⟨-, divi⟩, -, divf⟩ := ok
  simp only [Bcm283xClock.divisor]
  rw [Field.get_set_of_apart (f := ClockDivisor.divi) (by decide),
    Field.get_set_of_lt (f := ClockDivisor.divi) divi,
    Field.get_set_of_lt (f := ClockDivisor.divf) divf]

/-- What `raspdif_init` computes from a divisor below the range of its fields. -/
theorem raspdifClockConfiguration_of_lt {pi4 : Bool} {rate : ℚ}
    (nonneg : 0 ≤ clockDivisor pi4 rate) (small : clockDivisor pi4 rate < 65536) :
    ∃ config, raspdifClockConfiguration pi4 rate = some config ∧
      (config.divi.toNat : ℤ) = ⌊clockDivisor pi4 rate⌋ ∧
      (config.divf.toNat : ℤ) = ⌊4096 * Int.fract (clockDivisor pi4 rate) + 1 / 2⌋ := by
  have floorNonneg : (0 : ℚ) ≤ ⌊clockDivisor pi4 rate⌋ := by
    exact_mod_cast Int.floor_nonneg.mpr nonneg
  have floorSmall : (⌊clockDivisor pi4 rate⌋ : ℚ) < 2 ^ 16 :=
    (Int.floor_le _).trans_lt (by norm_num; exact small)
  have fractNonneg := Int.fract_nonneg (clockDivisor pi4 rate)
  have fractSmall := Int.fract_lt_one (clockDivisor pi4 rate)
  have scaled : CDouble.round (4096 * Int.fract (clockDivisor pi4 rate)) =
      ⌊4096 * Int.fract (clockDivisor pi4 rate) + 1 / 2⌋ :=
    round_of_nonneg (by linarith)
  have divfNonneg : (0 : ℚ) ≤ ⌊4096 * Int.fract (clockDivisor pi4 rate) + 1 / 2⌋ := by
    exact_mod_cast Int.floor_nonneg.mpr (by linarith)
  have divfSmall : (⌊4096 * Int.fract (clockDivisor pi4 rate) + 1 / 2⌋ : ℚ) < 2 ^ 16 :=
    (Int.floor_le _).trans_lt (by norm_num; linarith)
  obtain ⟨divi, converted, diviValue⟩ := toUnsigned_of_lt floorNonneg floorSmall
  obtain ⟨divf, convertedFraction, divfValue⟩ := toUnsigned_of_lt divfNonneg divfSmall
  rw [Int.floor_intCast] at diviValue divfValue
  refine ⟨⟨.plld, .stage1, false, divi, divf⟩, ?_, diviValue, divfValue⟩
  simp only [raspdifClockConfiguration, modf_of_nonneg nonneg, scaled, converted,
    convertedFraction, Option.bind_eq_bind, Option.bind_some]

/-- The divisor that is computed passes the assertions and is programmed to within half
a unit of `DIVF`. -/
def NearestProgrammed (pi4 : Bool) (sampleRateHz : ℚ) (clock : Bcm283xClock) : Prop :=
  ∃ config, raspdifClockConfiguration pi4 sampleRateHz = some config ∧ config.DivisorOk ∧
    ∃ after, bcm283xClockConfigure config clock = some after ∧
      |after.divisor - clockDivisor pi4 sampleRateHz| ≤ 1 / 8192

/-- A fraction rounds to 4096 units exactly from half a unit below them on. -/
theorem floor_fraction_lt_iff (x : ℚ) : ⌊4096 * x + 1 / 2⌋ < 4096 ↔ x < 8191 / 8192 := by
  rw [Int.floor_lt]
  constructor
  · intro below
    push_cast at below
    linarith
  · intro below
    push_cast
    linarith

/-- **The divisor is the nearest one that can be programmed.**  Over the range of the
two fields, which only a positive rate reaches, this holds exactly when the fraction of the
divisor is below 8191/8192. -/
theorem clock_divisor_nearest_iff (pi4 : Bool) {rate : ℚ} (low : 1 ≤ clockDivisor pi4 rate)
    (high : clockDivisor pi4 rate ≤ 4095 + 4095 / 4096)
    (clock : Bcm283xClock) :
    NearestProgrammed pi4 rate clock ↔ Int.fract (clockDivisor pi4 rate) < 8191 / 8192 := by
  obtain ⟨config, computed, divi, divf⟩ :=
    @raspdifClockConfiguration_of_lt pi4 rate (by linarith) (by linarith)
  unfold NearestProgrammed
  generalize clockDivisor pi4 rate = d at *
  constructor
  · rintro ⟨config', computed', ok, -⟩
    cases computed.symm.trans computed'
    rw [← floor_fraction_lt_iff, ← divf]
    exact_mod_cast ok.2.2
  · intro fraction
    have diviLow : 1 ≤ ⌊d⌋ := Int.le_floor.mpr (by exact_mod_cast low)
    have diviHigh : ⌊d⌋ < 4096 := Int.floor_lt.mpr (by push_cast; linarith)
    have divfHigh := (floor_fraction_lt_iff _).mpr fraction
    have ok : config.DivisorOk := by
      unfold ClockConfiguration.DivisorOk
      omega
    obtain ⟨after, programmed, divisor⟩ := bcm283xClockConfigure_divisor ok clock
    refine ⟨config, computed, ok, after, programmed, ?_⟩
    have nonneg : 0 ≤ 4096 * Int.fract d := by
      have := Int.fract_nonneg d
      linarith
    have error := abs_round_sub_le nonneg
    rw [round_of_nonneg nonneg, ← divf, abs_le] at error
    have whole : (config.divi.toNat : ℚ) = d - Int.fract d := by
      rw [Int.self_sub_fract]
      exact_mod_cast divi
    push_cast at error
    obtain ⟨errorLow, errorHigh⟩ := error
    rw [divisor, whole, abs_le]
    constructor <;> linarith

theorem clock_divisor_nearest_cd : NearestProgrammed false 44100 ⟨0, 0⟩ := by
  have divisor : clockDivisor false 44100 = 500000000 / 5644800 := by
    norm_num [clockDivisor, pllFreqHz]
  refine (clock_divisor_nearest_iff false ?_ ?_ ⟨0, 0⟩).mpr ?_
  · norm_num [divisor]
  · norm_num [divisor]
  · norm_num [divisor]

/-- At 43890.5 Hz the divisor is 88.9999 and the fraction rounds up to a whole unit. -/
theorem clock_divisor_not_nearest :
    1 ≤ clockDivisor false (87781 / 2) ∧ clockDivisor false (87781 / 2) ≤ 4095 + 4095 / 4096 ∧
      raspdifClockConfiguration false (87781 / 2) = some ⟨.plld, .stage1, false, 88, 4096⟩ ∧
      bcm283xClockConfigure ⟨.plld, .stage1, false, 88, 4096⟩ ⟨0, 0⟩ = none ∧
      ¬ NearestProgrammed false (87781 / 2) ⟨0, 0⟩ := by
  have computed : raspdifClockConfiguration false (87781 / 2) =
      some ⟨.plld, .stage1, false, 88, 4096⟩ := by decide +kernel
  refine ⟨?_, ?_, computed, by decide, ?_⟩
  · norm_num [clockDivisor, pllFreqHz]
  · norm_num [clockDivisor, pllFreqHz]
  · rintro ⟨config, computed', ok, -⟩
    cases computed.symm.trans computed'
    exact absurd ok (by decide)

end Raspdif
