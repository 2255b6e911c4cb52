import Raspdif.Main.Preload
import Raspdif.Peripheral.Clock

/-!
# Waiting for the DMA

Both loops wait by sleeping for about the time a buffer lasts, a delay that shrinks as
the sample rate grows.  `microsleep` asserts that it is below a second, which holds
exactly for rates above 2048 Hz, while the clock divisor admits rates down to 954 Hz.

`accepted_delays_safe_iff`: an accepted rate is safe for the whole run exactly when it is
above 2048 Hz.
-/

namespace Raspdif

open CDouble Trace

/-- `struct timespec`. -/
structure Timespec where
  tvSec : ℤ
  tvNsec : ℤ
  deriving DecidableEq

/-- The delay `microsleep` passes to `nanosleep`.  No result is a failed assertion. -/
def microsleep (microseconds : BitVec 32) : Option Timespec :=
  if microseconds.toNat < 1000000 then
    some { tvSec := 0, tvNsec := trunc (1000 * microseconds.toNat) }
  else
    none

/-- The argument `1e6 * (RASPDIF_BUFFER_SIZE / sample_rate)` of both calls. -/
def bufferDelay (sampleRate : ℚ) : Option (BitVec 32) :=
  toUnsigned 32 (1000000 * (raspdifBufferSize / sampleRate))

/-- The next step finds the DMA on the buffer it wants to write, and sleeps. -/
def Main.Waits (setup : Setup) (answers : Answers) (s : Main) : Prop :=
  match s.pc with
  | .readLoop => s.file.eof = false ∧ answers.conblkAd = setup.controlBlock s.bufferIndex
  | .fillAll index count =>
      count < raspdifBufferCount ∧ answers.conblkAd = setup.controlBlock index
  | _ => False

/-- The sleep of one wait: it passes the assertion, and the nanoseconds are the product
and stay below a second. -/
def DelaySafe (sampleRate : ℚ) : Prop :=
  ∃ microseconds delay, bufferDelay sampleRate = some microseconds ∧
    microsleep microseconds = some delay ∧ delay.tvSec = 0 ∧
    delay.tvNsec = 1000 * microseconds.toNat ∧ delay.tvNsec < 1000000000

theorem microsleep_of_lt {microseconds : BitVec 32} (short : microseconds.toNat < 1000000) :
    microsleep microseconds = some ⟨0, 1000 * microseconds.toNat⟩ := by
  have whole : trunc (1000 * microseconds.toNat) = 1000 * microseconds.toNat := by
    rw [trunc_of_nonneg (by positivity)]
    exact_mod_cast Int.floor_natCast (1000 * microseconds.toNat)
  rw [microsleep, if_pos short, whole]

/-- A wait is safe exactly above 2048 Hz, where a buffer lasts less than a second. -/
theorem delaySafe_iff {rate : ℚ} (positive : 0 < rate) : DelaySafe rate ↔ 2048 < rate := by
  have nonneg : 0 ≤ 1000000 * (2048 / rate) := by positivity
  have short : 1000000 * (2048 / rate) < 1000000 ↔ 2048 < rate := by
    rw [mul_lt_iff_lt_one_right (by norm_num), div_lt_one positive]
  have size : ((raspdifBufferSize : Nat) : ℚ) = 2048 := by norm_num [raspdifBufferSize]
  rw [DelaySafe, bufferDelay, size]
  constructor
  · rintro ⟨microseconds, delay, converted, slept, -⟩
    have passed : microseconds.toNat < 1000000 := by
      by_contra long
      rw [microsleep, if_neg long] at slept
      cases slept
    by_contra slow
    -- A delay that C defines and that is a second or more would have been refused.
    have small : 1000000 * (2048 / rate) < 2 ^ 32 := by
      by_contra large
      rw [toUnsigned, trunc_of_nonneg nonneg, if_neg] at converted
      · cases converted
      · rintro ⟨-, below⟩
        rw [Int.floor_lt] at below
        exact large (by exact_mod_cast below)
    obtain ⟨value, same, floor⟩ := toUnsigned_of_lt (w := 32) nonneg small
    cases same.symm.trans converted
    have below : ⌊1000000 * (2048 / rate)⌋ < 1000000 := by omega
    rw [Int.floor_lt] at below
    exact slow (short.mp (by exact_mod_cast below))
  · intro fast
    have below := short.mpr fast
    obtain ⟨microseconds, converted, floor⟩ :=
      toUnsigned_of_lt (w := 32) nonneg (below.trans (by norm_num))
    have passed : microseconds.toNat < 1000000 := by
      have := Int.floor_lt.mpr (show 1000000 * (2048 / rate) < ((1000000 : ℤ) : ℚ) by
        exact_mod_cast below)
      omega
    refine ⟨microseconds, _, converted, microsleep_of_lt passed, rfl, rfl, ?_⟩
    dsimp only
    omega

/-- `raspdif_init` passes the assertions of `bcm283x_clock_configure`. -/
def RateAccepted (pi4 : Bool) (sampleRate : ℚ) : Prop :=
  ∃ config, raspdifClockConfiguration pi4 sampleRate = some config ∧ config.DivisorOk

/-- No wait of any run from the start of the preload on violates the assertion. -/
def DelaysSafe (sampleRate : ℚ) : Prop :=
  ∀ setup buffers trace s answers,
    Run (Main.Step setup) (Main.start buffers) trace s → s.Waits setup answers →
    DelaySafe sampleRate

/-- There is a run that waits: the DMA reads buffer 0 when the read loop starts. -/
theorem exists_waits :
    ∃ setup buffers trace s answers,
      Run (Main.Step setup) (Main.start buffers) trace s ∧ s.Waits setup answers := by
  obtain ⟨trace, s, preloaded, file⟩ := exists_preloaded_silence
  obtain ⟨buffers, run⟩ := preloaded.run
  refine ⟨.s16le, buffers, trace, s, ⟨Setup.s16le.controlBlock 0, 0, 0⟩, run, ?_⟩
  rw [Main.Waits, preloaded.loop.1, preloaded.loop.2]
  exact ⟨by rw [file], rfl⟩

/-- **Which accepted rates are safe for the whole run.** -/
theorem accepted_delays_safe_iff (pi4 : Bool) {rate : ℚ} (positive : 0 < rate) :
    (RateAccepted pi4 rate → DelaysSafe rate) ↔ (RateAccepted pi4 rate → 2048 < rate) := by
  apply forall_congr'
  intro _
  rw [← delaySafe_iff positive]
  constructor
  · intro safe
    obtain ⟨setup, buffers, trace, s, answers, run, waits⟩ := exists_waits
    exact safe setup buffers trace s answers run waits
  · intro safe setup buffers trace s answers _ _
    exact safe

theorem accepted_delays_safe_cd : DelaysSafe 44100 := by
  have accepted : RateAccepted false 44100 :=
    ⟨⟨.plld, .stage1, false, 88, 2364⟩, by decide +kernel, by decide⟩
  exact (accepted_delays_safe_iff false (by norm_num)).mpr (fun _ => by norm_num) accepted

/-- 2000 Hz is accepted, and the first wait for the DMA fails. -/
theorem slow_rate_aborts : RateAccepted false 2000 ∧ ¬ DelaysSafe 2000 := by
  refine ⟨⟨⟨.plld, .stage1, false, 1953, 512⟩, by decide +kernel, by decide⟩, ?_⟩
  intro safe
  obtain ⟨setup, buffers, trace, s, answers, run, waits⟩ := exists_waits
  have slow := safe setup buffers trace s answers run waits
  rw [delaySafe_iff (by norm_num)] at slow
  norm_num at slow

end Raspdif
