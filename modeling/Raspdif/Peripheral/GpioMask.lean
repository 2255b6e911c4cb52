import Raspdif.Peripheral.Gpio

/-!
# Configuring a group of pins

`bcm283x_gpio_configure_mask` shifts the mask down and configures a pin for every one
that falls out.  The step is `configured_configurePin`; `Configured.append` joins the
steps, and the loop has done exactly what the mask says (`configureMaskLoop_configured`).

`bcm283xGpioConfigureMask_exact` reads the result pin by pin.
-/

namespace Raspdif

open BitField

/-- The loop of `bcm283x_gpio_configure_mask`. -/
def configureMaskLoop (config : GpioConfiguration) (pin mask : BitVec 32) (gpio : Gpio) :
    Option Gpio :=
  if _done : mask = 0 then some gpio
  else
    (if mask &&& 1 ≠ 0 then bcm283xGpioConfigure pin config gpio else some gpio).bind fun gpio =>
      configureMaskLoop config (pin + 1) (mask >>> 1) gpio
termination_by mask.toNat
decreasing_by
  have positive : 0 < mask.toNat := by
    rw [Nat.pos_iff_ne_zero]
    intro zero
    exact _done (BitVec.eq_of_toNat_eq zero)
  rw [BitVec.toNat_ushiftRight, Nat.shiftRight_eq_div_pow]
  exact Nat.div_lt_self positive (by decide)

/-- `bcm283x_gpio_configure_mask`.  No result is a failed assertion. -/
def bcm283xGpioConfigureMask (mask : BitVec 32) (config : GpioConfiguration) (gpio : Gpio) :
    Option Gpio :=
  configureMaskLoop config 0 mask gpio

/-! ## The loop -/

section

variable {config : GpioConfiguration} {first second : BitVec 32} {before middle after : Gpio}

theorem Configured.zero (config : GpioConfiguration) (gpio : Gpio) :
    Configured config 0 gpio gpio where
  function := by simp
  enables := by simp
  others _ _ _ _ _ := rfl
  pullClock := by simp
  pulses := ⟨[], by simp⟩

/-- Configuring one group of pins and then another configures both. -/
theorem Configured.append (head : Configured config first before middle)
    (tail : Configured config second middle after) :
    Configured config (first ||| second) before after where
  function := by
    intro i bit
    rw [tail.function, head.function, BitVec.getLsbD_or]
    by_cases small : bit < 30
    · cases first.getLsbD (10 * i + bit / 3) <;> cases second.getLsbD (10 * i + bit / 3) <;>
        simp [small]
    · simp [small]
  enables := by
    intro register isEnable bit
    rw [tail.enables register isEnable, head.enables register isEnable, BitVec.getLsbD_or]
    cases first.getLsbD bit <;> cases second.getLsbD bit <;> rfl
  others := by
    intro register noSelect noEnable noMode noClock
    rw [tail.others register noSelect noEnable noMode noClock,
      head.others register noSelect noEnable noMode noClock]
  pullClock := by
    intro bit
    rw [tail.pullClock, head.pullClock, BitVec.getLsbD_or]
    by_cases change : config.pull ≠ .noChange
    · cases first.getLsbD bit <;> cases second.getLsbD bit <;> simp [change]
    · simp [change]
  pulses := by
    obtain ⟨early, earlyHistory, earlyOutside, earlyPulse⟩ := head.pulses
    obtain ⟨late, lateHistory, lateOutside, latePulse⟩ := tail.pulses
    refine ⟨early ++ late, ?_, ?_, ?_⟩
    · rw [lateHistory, earlyHistory, List.append_assoc]
    · intro registers member bit outside
      rw [BitVec.getLsbD_or, Bool.or_eq_true, or_and_right, not_or] at outside
      rcases List.mem_append.mp member with inEarly | inLate
      · exact earlyOutside registers inEarly bit outside.1
      · rw [lateOutside registers inLate bit outside.2, head.pullClock, if_neg outside.1]
    · intro change bit inMask
      rw [BitVec.getLsbD_or, Bool.or_eq_true] at inMask
      rcases inMask with inFirst | inSecond
      · obtain ⟨registers, member, pulse⟩ := earlyPulse change bit inFirst
        exact ⟨registers, List.mem_append_left _ member, pulse⟩
      · obtain ⟨registers, member, pulse⟩ := latePulse change bit inSecond
        exact ⟨registers, List.mem_append_right _ member, pulse⟩

end

/-- The bits of `mask` from bit `low` on. -/
def maskFrom (mask : BitVec 32) (low : Nat) : BitVec 32 := mask >>> low <<< low

theorem getLsbD_maskFrom (mask : BitVec 32) (low bit : Nat) :
    (maskFrom mask low).getLsbD bit = (decide (low ≤ bit) && mask.getLsbD bit) := by
  rw [maskFrom, BitVec.getLsbD_shiftLeft, BitVec.getLsbD_ushiftRight]
  rcases Nat.lt_or_ge bit 32 with small | large
  · by_cases below : bit < low
    · simp [small, below, show ¬ low ≤ bit by omega]
    · simp [small, below, show low ≤ bit by omega, show low + (bit - low) = bit by omega]
  · simp [BitVec.getLsbD_of_ge mask bit large, show ¬ bit < 32 by omega]

/-- What the loop has still to do, with the pin it has reached taken out. -/
theorem maskFrom_step (mask : BitVec 32) (pin : Fin 32) :
    maskFrom mask pin =
      (if mask.getLsbD pin then gpioMask pin else 0) ||| maskFrom mask (pin + 1) := by
  apply BitVec.eq_of_getLsbD_eq
  intro bit _
  rw [BitVec.getLsbD_or, getLsbD_maskFrom, getLsbD_maskFrom]
  have inMask : (if mask.getLsbD pin then gpioMask pin else 0).getLsbD bit =
      (mask.getLsbD pin && decide (bit = pin)) := by
    cases mask.getLsbD pin
    · simp
    · simp [getLsbD_gpioMask]
  rw [inMask]
  rcases Nat.lt_trichotomy bit pin with below | here | above
  · simp [show ¬ pin.val ≤ bit by omega, show ¬ bit = pin.val by omega,
      show ¬ pin.val + 1 ≤ bit by omega]
  · simp [here]
  · simp [show pin.val ≤ bit by omega, show ¬ bit = pin.val by omega,
      show pin.val + 1 ≤ bit by omega]

/-- The test `mask & 0x01` of the pass for `pin`. -/
theorem lowBit_iff (mask : BitVec 32) (pin : Nat) :
    mask >>> pin &&& 1 ≠ 0 ↔ mask.getLsbD pin = true := by
  have low : (mask >>> pin &&& 1).getLsbD 0 = mask.getLsbD pin := by simp
  constructor
  · intro odd
    by_contra clear
    apply odd
    apply BitVec.eq_of_getLsbD_eq
    intro bit _
    cases bit with
    | zero =>
        rw [low, Bool.eq_false_iff.mpr clear]
        rfl
    | succ bit => simp
  · intro set zero
    rw [zero, set] at low
    cases low

/-- From any pass on, the loop configures the pins that are left in the mask. -/
theorem configureMaskLoop_configured (config : GpioConfiguration) (mask : BitVec 32)
    {pin left : Nat} (position : pin + left = 32) (gpio : Gpio) :
    ∃ after, configureMaskLoop config (BitVec.ofNat 32 pin) (mask >>> pin) gpio = some after ∧
      Configured config (maskFrom mask pin) gpio after := by
  induction left generalizing pin gpio with
  | zero =>
      have shifted : mask >>> pin = 0 := BitVec.ushiftRight_eq_zero (by omega)
      refine ⟨gpio, ?_, ?_⟩
      · rw [configureMaskLoop, dif_pos shifted]
      · rw [maskFrom, shifted]
        simpa using Configured.zero config gpio
  | succ left ih =>
      by_cases done : mask >>> pin = 0
      · refine ⟨gpio, ?_, ?_⟩
        · rw [configureMaskLoop, dif_pos done]
        · rw [maskFrom, done]
          simpa using Configured.zero config gpio
      · have valid : pin < 32 := by omega
        have number : (BitVec.ofNat 32 pin).toNat = pin := by
          rw [BitVec.toNat_ofNat, Nat.mod_eq_of_lt (by omega)]
        have next : BitVec.ofNat 32 pin + 1 = BitVec.ofNat 32 (pin + 1) := by
          rw [BitVec.ofNat_add]
          rfl
        have shift : mask >>> pin >>> 1 = mask >>> (pin + 1) := (BitVec.shiftRight_add ..).symm
        rw [configureMaskLoop, dif_neg done, next, shift]
        have split := maskFrom_step mask ⟨pin, valid⟩
        dsimp only at split
        by_cases inMask : mask.getLsbD pin = true
        · have call : bcm283xGpioConfigure (BitVec.ofNat 32 pin) config gpio =
              some (configurePin ⟨pin, valid⟩ config gpio) := by
            simp only [bcm283xGpioConfigure, number, valid, gpioPinCount, dite_true]
          obtain ⟨after, ran, rest⟩ := ih (by omega : pin + 1 + left = 32)
            (configurePin ⟨pin, valid⟩ config gpio)
          refine ⟨after, ?_, ?_⟩
          · rw [if_pos ((lowBit_iff mask pin).mpr inMask), call, Option.bind_some, ran]
          · rw [split, if_pos inMask]
            exact (configured_configurePin ⟨pin, valid⟩ config gpio).append rest
        · obtain ⟨after, ran, rest⟩ := ih (by omega : pin + 1 + left = 32) gpio
          refine ⟨after, ?_, ?_⟩
          · rw [if_neg (fun odd => inMask ((lowBit_iff mask pin).mp odd)), Option.bind_some, ran]
          · rw [split, if_neg inMask]
            exact BitVec.zero_or ▸ rest

theorem bcm283xGpioConfigureMask_configured (mask : BitVec 32) (config : GpioConfiguration)
    (gpio : Gpio) :
    ∃ after, bcm283xGpioConfigureMask mask config gpio = some after ∧
      Configured config mask gpio after := by
  have whole : maskFrom mask 0 = mask := by simp [maskFrom]
  have start := configureMaskLoop_configured config mask (rfl : 0 + 32 = 32) gpio
  rw [whole] at start
  exact start

/-! ## Pin by pin -/

/-- The function the select field of a pin holds; the chip has 54 pins. -/
def pinFunction (registers : GpioRegisters) (pin : Fin 54) : Nat :=
  (GpioFunctionSelect.fselx ⟨pin % 10, by omega⟩).get (registers (.gpfsel ⟨pin / 10, by omega⟩))

/-- The registers of a bank of 32 pins. -/
def GpioRegister.inBank (bank : Fin 2) : GpioRegister → Bool
  | .gpset b | .gpclr b | .gplev b | .gpeds b | .gpren b | .gpfen b | .gphen b | .gplen b
  | .gparen b | .gpafen b | .gppudclk b => b == bank
  | _ => false

/-- The pins of `mask` are configured, and nothing else has changed. -/
structure TouchesExactly (config : GpioConfiguration) (mask : BitVec 32) (before after : Gpio) :
    Prop where
  function : ∀ pin : Fin 32, mask.getLsbD pin = true →
    pinFunction after.registers (pin.castLE (by decide)) = config.function.code
  enables : ∀ pin : Fin 32, mask.getLsbD pin = true → ∀ register,
    register.enablesIn 0 = true →
    (after.registers register).getLsbD pin = config.eventDetect.names register
  otherFunction : ∀ pin : Fin 54, mask.getLsbD pin = false →
    pinFunction after.registers pin = pinFunction before.registers pin
  otherEnables : ∀ pin : Fin 54, mask.getLsbD pin = false → ∀ register,
    register.enablesIn ⟨pin / 32, by omega⟩ = true →
    (after.registers register).getLsbD (pin % 32) =
      (before.registers register).getLsbD (pin % 32)
  bank1 : ∀ register, register.inBank 1 = true →
    after.registers register = before.registers register
  reserved : ∀ i, after.registers (.reserved i) = before.registers (.reserved i)
  pullClock : config.pull ≠ .noChange → ∀ bit, mask.getLsbD bit = true →
    (after.registers (.gppudclk 0)).getLsbD bit = false
  otherPullClock : ∀ bit, mask.getLsbD bit = false →
    (after.registers (.gppudclk 0)).getLsbD bit = (before.registers (.gppudclk 0)).getLsbD bit
  /-- After every write on the way the pull clock of the other pins is as it was, and
  that of each pin of the mask is set once the pull is selected. -/
  pulses : ∃ states, after.history = before.history ++ states ∧
    (∀ registers ∈ states, ∀ bit, mask.getLsbD bit = false →
      (registers (.gppudclk 0)).getLsbD bit = (before.registers (.gppudclk 0)).getLsbD bit) ∧
    (config.pull ≠ .noChange → ∀ bit, mask.getLsbD bit = true → ∃ registers ∈ states,
      GpioPullUpDown.pud.get (registers .gppud) = config.pull.code ∧
        (registers (.gppudclk 0)).getLsbD bit = true)

section

variable {config otherConfig : GpioConfiguration} {mask other : BitVec 32}
  {before middle after : Gpio}

/-- The bits of a select field are those of a pin in the mask or not, all together. -/
theorem Configured.pinFunction_eq (configured : Configured config mask before after)
    (pin : Fin 54) :
    pinFunction after.registers pin =
      if mask.getLsbD pin then config.function.code else pinFunction before.registers pin := by
  have code : config.function.code < 2 ^ 3 := by cases config.function <;> decide
  apply Nat.eq_of_testBit_eq
  intro bit
  rw [pinFunction, Field.testBit_get, configured.function]
  simp only [GpioFunctionSelect.fselx]
  by_cases inside : bit < 3
  · have here : 10 * (pin.val / 10) + (3 * (pin.val % 10) + bit) / 3 = pin.val := by omega
    have place : (3 * (pin.val % 10) + bit) % 3 = bit := by omega
    simp only [inside, decide_true, Bool.true_and, here, place,
      show 3 * (pin.val % 10) + bit < 30 by omega, true_and]
    split
    · rfl
    · rw [pinFunction, Field.testBit_get]
      simp [GpioFunctionSelect.fselx, inside]
  · have high : config.function.code.testBit bit = false :=
      Nat.testBit_lt_two_pow
        (Nat.lt_of_lt_of_le code (Nat.pow_le_pow_right (by decide) (by omega)))
    by_cases inMask : mask.getLsbD pin = true
    · simp [inside, inMask, high]
    · rw [if_neg inMask, pinFunction, Field.testBit_get]
      simp [GpioFunctionSelect.fselx, inside]

theorem GpioRegister.inBank_of_enablesIn {bank : Fin 2} {register : GpioRegister}
    (isEnable : register.enablesIn bank = true) : register.inBank bank = true := by
  cases register with
  | gpren b | gpfen b | gphen b | gplen b | gparen b | gpafen b => exact isEnable
  | _ => cases isEnable

/-- Pins 32 and up are left alone. -/
theorem Configured.bank1 (configured : Configured config mask before after)
    {register : GpioRegister} (inBank : register.inBank 1 = true) :
    after.registers register = before.registers register := by
  rw [configured.others]
  · rintro i rfl
    cases inBank
  · cases register with
    | gpren b | gpfen b | gphen b | gplen b | gparen b | gpafen b =>
        cases eq_of_beq inBank
        rfl
    | _ => rfl
  · rintro rfl
    cases inBank
  · rintro rfl
    cases inBank

theorem Configured.touchesExactly (configured : Configured config mask before after) :
    TouchesExactly config mask before after where
  function pin inMask := by
    rw [configured.pinFunction_eq]
    exact if_pos inMask
  enables pin inMask register isEnable := by
    rw [configured.enables register isEnable, if_pos inMask]
  otherFunction pin outside := by
    rw [configured.pinFunction_eq, if_neg (by simp [outside])]
  otherEnables pin outside register isEnable := by
    rcases Nat.lt_or_ge pin 32 with low | high
    · have bank : (⟨pin / 32, by omega⟩ : Fin 2) = 0 := Fin.ext (Nat.div_eq_of_lt low)
      rw [bank] at isEnable
      rw [configured.enables register isEnable, Nat.mod_eq_of_lt low, if_neg (by simp [outside])]
    · have bank : (⟨pin / 32, by omega⟩ : Fin 2) = 1 :=
        Fin.ext (by dsimp only; omega)
      rw [bank] at isEnable
      rw [configured.bank1 (GpioRegister.inBank_of_enablesIn isEnable)]
  bank1 _ inBank := configured.bank1 inBank
  reserved i := configured.others _ (by simp) rfl (by simp) (by simp)
  pullClock change bit inMask := by
    rw [configured.pullClock, if_pos ⟨inMask, change⟩]
  otherPullClock bit outside := by
    rw [configured.pullClock, if_neg (by simp [outside])]
  pulses := by
    obtain ⟨states, history, still, pulse⟩ := configured.pulses
    exact ⟨states, history,
      fun registers member bit outside => still registers member bit (by simp [outside]), pulse⟩

/-- Two calls on masks without a common pin leave the same function and enable registers
in either order. -/
theorem Configured.comm {middle' after' : Gpio} (apart : mask &&& other = 0)
    (first : Configured config mask before middle)
    (second : Configured otherConfig other middle after)
    (second' : Configured otherConfig other before middle')
    (first' : Configured config mask middle' after') :
    (∀ i, after.registers (.gpfsel i) = after'.registers (.gpfsel i)) ∧
      ∀ register bank, register.enablesIn bank = true →
        after.registers register = after'.registers register := by
  have disjoint (bit : Nat) : ¬ (mask.getLsbD bit = true ∧ other.getLsbD bit = true) := by
    rw [← Bool.and_eq_true, ← BitVec.getLsbD_and, apart]
    simp
  constructor
  · intro i
    apply BitVec.eq_of_getLsbD_eq
    intro bit _
    rw [second.function, first.function, first'.function, second'.function]
    have one := disjoint (10 * i + bit / 3)
    by_cases inMask : bit < 30 ∧ mask.getLsbD (10 * i + bit / 3) = true
    · rw [if_pos inMask, if_pos inMask, if_neg fun inOther => one ⟨inMask.2, inOther.2⟩]
    · rw [if_neg inMask, if_neg inMask]
  · intro register bank isEnable
    have zeroOrOne : bank = 0 ∨ bank = 1 := by omega
    rcases zeroOrOne with rfl | rfl
    · apply BitVec.eq_of_getLsbD_eq
      intro bit _
      rw [second.enables register isEnable, first.enables register isEnable,
        first'.enables register isEnable, second'.enables register isEnable]
      have one := disjoint bit
      cases inMask : mask.getLsbD bit <;> cases inOther : other.getLsbD bit <;>
        simp_all
    · have inBank := GpioRegister.inBank_of_enablesIn isEnable
      rw [second.bank1 inBank, first.bank1 inBank, first'.bank1 inBank, second'.bank1 inBank]

end

/-- **`bcm283x_gpio_configure_mask` touches exactly the masked pins.**  It passes every
assertion, and calls on masks without a common pin commute on the function and the
event-enable registers. -/
theorem bcm283xGpioConfigureMask_exact (mask : BitVec 32) (config : GpioConfiguration)
    (gpio : Gpio) :
    (∃ after, bcm283xGpioConfigureMask mask config gpio = some after ∧
      TouchesExactly config mask gpio after) ∧
    ∀ other otherConfig, mask &&& other = 0 → ∃ first second,
      (bcm283xGpioConfigureMask mask config gpio).bind
        (bcm283xGpioConfigureMask other otherConfig) = some first ∧
      (bcm283xGpioConfigureMask other otherConfig gpio).bind
        (bcm283xGpioConfigureMask mask config) = some second ∧
      (∀ i, first.registers (.gpfsel i) = second.registers (.gpfsel i)) ∧
      ∀ register bank, register.enablesIn bank = true →
        first.registers register = second.registers register := by
  obtain ⟨middle, ran, configured⟩ := bcm283xGpioConfigureMask_configured mask config gpio
  refine ⟨⟨middle, ran, configured.touchesExactly⟩, ?_⟩
  intro other otherConfig apart
  obtain ⟨first, ranFirst, configuredFirst⟩ :=
    bcm283xGpioConfigureMask_configured other otherConfig middle
  obtain ⟨middle', ran', configured'⟩ :=
    bcm283xGpioConfigureMask_configured other otherConfig gpio
  obtain ⟨second, ranSecond, configuredSecond⟩ :=
    bcm283xGpioConfigureMask_configured mask config middle'
  refine ⟨first, second, ?_, ?_,
    configured.comm apart configuredFirst configured' configuredSecond⟩
  · rw [ran, Option.bind_some, ranFirst]
  · rw [ran', Option.bind_some, ranSecond]

end Raspdif
