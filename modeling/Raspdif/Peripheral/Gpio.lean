import Mathlib.Logic.Function.Basic
import Raspdif.Lib.BitField

/-!
# Configuring a GPIO pin

The registers of `bcm283x_gpio_t` as plain storage, in the default build with 32 pins,
and `bcm283x_gpio_configure`.  `Gpio.history` keeps the registers as they were after each
write, since a pull is changed by a clock bit that is set and cleared again.

`Configured` is what one call does to the registers and, joined over pins, what any
number of calls with one configuration does.
-/

namespace Raspdif

open BitField

/-! ## Registers -/

/-- The words of `bcm283x_gpio_t`; a register with a bank for 32 pins each has two. -/
inductive GpioRegister
  | gpfsel (i : Fin 6)
  | gpset (bank : Fin 2)
  | gpclr (bank : Fin 2)
  | gplev (bank : Fin 2)
  | gpeds (bank : Fin 2)
  | gpren (bank : Fin 2)
  | gpfen (bank : Fin 2)
  | gphen (bank : Fin 2)
  | gplen (bank : Fin 2)
  | gparen (bank : Fin 2)
  | gpafen (bank : Fin 2)
  | gppud
  | gppudclk (bank : Fin 2)
  /-- `_reserved` to `_reserved11`, and the four words of `_reserved12`. -/
  | reserved (i : Fin 15)
  | test
  deriving DecidableEq

abbrev GpioRegisters := GpioRegister → BitVec 32

structure Gpio where
  registers : GpioRegisters
  /-- The registers after each write, the last write last. -/
  history : List GpioRegisters

/-- `*register = f(*register)`. -/
def Gpio.modify (gpio : Gpio) (register : GpioRegister) (f : BitVec 32 → BitVec 32) : Gpio :=
  let registers := Function.update gpio.registers register (f (gpio.registers register))
  { registers := registers, history := gpio.history ++ [registers] }

/-- `FSELx0` to `FSELx9` of `gpio_function_select_x_t`. -/
def GpioFunctionSelect.fselx (k : Fin 10) : Field 32 := ⟨3 * k, 3, by omega⟩

/-- `PUD` of `gpio_pull_up_down_t`. -/
def GpioPullUpDown.pud : Field 32 := ⟨0, 2, by decide⟩

/-! ## Configuration -/

/-- `GPIO_PIN_COUNT` of the default build. -/
abbrev gpioPinCount : Nat := 32

inductive GpioPull
  | none
  | down
  | up
  | noChange
  deriving DecidableEq, Repr

/-- The value of the enumerator. -/
def GpioPull.code : GpioPull → Nat
  | .none => 0
  | .down => 1
  | .up => 2
  | .noChange => 3

inductive GpioFunction
  | input
  | output
  | af0
  | af1
  | af2
  | af3
  | af4
  | af5
  deriving DecidableEq, Repr

/-- The value of the enumerator. -/
def GpioFunction.code : GpioFunction → Nat
  | .input => 0
  | .output => 1
  | .af0 => 4
  | .af1 => 5
  | .af2 => 6
  | .af3 => 7
  | .af4 => 3
  | .af5 => 2

inductive GpioEventDetect
  | none
  | risingEdge
  | fallingEdge
  | anyEdge
  | highLevel
  | lowLevel
  | risingEdgeAsync
  | fallingEdgeAsync
  deriving DecidableEq, Repr

/-- `gpio_configuration_t`. -/
structure GpioConfiguration where
  function : GpioFunction
  pull : GpioPull
  eventDetect : GpioEventDetect
  deriving DecidableEq

/-! ## The driver -/

/-- `bcm283x_gpio_set_function`. -/
def bcm283xGpioSetFunction (pin : Fin 32) (function : GpioFunction) (gpio : Gpio) :
    Gpio :=
  gpio.modify (.gpfsel ⟨pin / 10, by omega⟩) fun word =>
    (GpioFunctionSelect.fselx ⟨pin % 10, by omega⟩).set word function.code

/-- `bank`. -/
def gpioBank (pin : Fin 32) : Fin 2 := ⟨pin / 32, by omega⟩

/-- `mask`. -/
def gpioMask (pin : Fin 32) : BitVec 32 := 1#32 <<< (pin.val % 32)

/-- "Clear all event registers". -/
def clearEvents (bank : Fin 2) (mask : BitVec 32) (gpio : Gpio) : Gpio :=
  let gpio := gpio.modify (.gpren bank) (· &&& ~~~mask)
  let gpio := gpio.modify (.gpfen bank) (· &&& ~~~mask)
  let gpio := gpio.modify (.gphen bank) (· &&& ~~~mask)
  let gpio := gpio.modify (.gplen bank) (· &&& ~~~mask)
  let gpio := gpio.modify (.gparen bank) (· &&& ~~~mask)
  gpio.modify (.gpafen bank) (· &&& ~~~mask)

/-- The switch on `config->event_detect`. -/
def enableEvents (eventDetect : GpioEventDetect) (bank : Fin 2) (mask : BitVec 32)
    (gpio : Gpio) : Gpio :=
  match eventDetect with
  | .none => gpio
  | .risingEdge => gpio.modify (.gpren bank) (· ||| mask)
  | .fallingEdge => gpio.modify (.gpfen bank) (· ||| mask)
  | .anyEdge =>
      let gpio := gpio.modify (.gpren bank) (· ||| mask)
      gpio.modify (.gpfen bank) (· ||| mask)
  | .highLevel => gpio.modify (.gphen bank) (· ||| mask)
  | .lowLevel => gpio.modify (.gplen bank) (· ||| mask)
  | .risingEdgeAsync => gpio.modify (.gparen bank) (· ||| mask)
  | .fallingEdgeAsync => gpio.modify (.gpafen bank) (· ||| mask)

/-- The pull change at the end. -/
def changePull (pull : GpioPull) (bank : Fin 2) (mask : BitVec 32) (gpio : Gpio) : Gpio :=
  if pull ≠ .noChange then
    let gpio := gpio.modify .gppud fun word => GpioPullUpDown.pud.set word pull.code
    let gpio := gpio.modify (.gppudclk bank) (· ||| mask)
    gpio.modify (.gppudclk bank) (· &&& ~~~mask)
  else
    gpio

/-- `bcm283x_gpio_configure` on a pin that passes its assertion. -/
def configurePin (pin : Fin 32) (config : GpioConfiguration) (gpio : Gpio) : Gpio :=
  let gpio := bcm283xGpioSetFunction pin config.function gpio
  let bank := gpioBank pin
  let mask := gpioMask pin
  let gpio := clearEvents bank mask gpio
  let gpio := enableEvents config.eventDetect bank mask gpio
  changePull config.pull bank mask gpio

/-- `bcm283x_gpio_configure`.  No result is a failed assertion. -/
def bcm283xGpioConfigure (pin : BitVec 32) (config : GpioConfiguration) (gpio : Gpio) :
    Option Gpio :=
  if valid : pin.toNat < gpioPinCount then
    some (configurePin ⟨pin.toNat, valid⟩ config gpio)
  else
    none

/-! ## What the registers mean -/

/-- The event-detect enable registers of a bank. -/
def GpioRegister.enablesIn (bank : Fin 2) : GpioRegister → Bool
  | .gpren b | .gpfen b | .gphen b | .gplen b | .gparen b | .gpafen b => b == bank
  | _ => false

/-- The enables a configuration names. -/
def GpioEventDetect.names : GpioEventDetect → GpioRegister → Bool
  | .risingEdge, .gpren _ => true
  | .fallingEdge, .gpfen _ => true
  | .anyEdge, .gpren _ => true
  | .anyEdge, .gpfen _ => true
  | .highLevel, .gphen _ => true
  | .lowLevel, .gplen _ => true
  | .risingEdgeAsync, .gparen _ => true
  | .fallingEdgeAsync, .gpafen _ => true
  | _, _ => false

/-- What calls with configuration `config` on the pins of `mask` have done.  The clauses
give the registers bit by bit; pin `p` has bits `3 * (p % 10)` on of `GPFSELx[p / 10]`. -/
structure Configured (config : GpioConfiguration) (mask : BitVec 32) (before after : Gpio) :
    Prop where
  function : ∀ i bit, (after.registers (.gpfsel i)).getLsbD bit =
    if bit < 30 ∧ mask.getLsbD (10 * i + bit / 3) = true then
      config.function.code.testBit (bit % 3)
    else (before.registers (.gpfsel i)).getLsbD bit
  enables : ∀ register, register.enablesIn 0 = true → ∀ bit,
    (after.registers register).getLsbD bit =
      if mask.getLsbD bit then config.eventDetect.names register
      else (before.registers register).getLsbD bit
  others : ∀ register, (∀ i, register ≠ .gpfsel i) → register.enablesIn 0 = false →
    register ≠ .gppud → register ≠ .gppudclk 0 →
    after.registers register = before.registers register
  pullClock : ∀ bit, (after.registers (.gppudclk 0)).getLsbD bit =
    if mask.getLsbD bit = true ∧ config.pull ≠ .noChange then false
    else (before.registers (.gppudclk 0)).getLsbD bit
  /-- The writes in between move the pull clock of these pins only, and each of them
  sees its clock set while the pull is selected. -/
  pulses : ∃ states, after.history = before.history ++ states ∧
    (∀ registers ∈ states, ∀ bit, ¬ (mask.getLsbD bit = true ∧ config.pull ≠ .noChange) →
      (registers (.gppudclk 0)).getLsbD bit = (before.registers (.gppudclk 0)).getLsbD bit) ∧
    (config.pull ≠ .noChange → ∀ bit, mask.getLsbD bit = true → ∃ registers ∈ states,
      GpioPullUpDown.pud.get (registers .gppud) = config.pull.code ∧
        (registers (.gppudclk 0)).getLsbD bit = true)

/-! ## One pin -/

@[simp] theorem Gpio.registers_modify (gpio : Gpio) (register : GpioRegister)
    (f : BitVec 32 → BitVec 32) :
    (gpio.modify register f).registers =
      Function.update gpio.registers register (f (gpio.registers register)) := rfl

@[simp] theorem Gpio.history_modify (gpio : Gpio) (register : GpioRegister)
    (f : BitVec 32 → BitVec 32) :
    (gpio.modify register f).history =
      gpio.history ++ [(gpio.modify register f).registers] := rfl

theorem gpioBank_eq (pin : Fin 32) : gpioBank pin = 0 := by
  apply Fin.ext
  exact Nat.div_eq_of_lt pin.isLt

theorem getLsbD_gpioMask (pin : Fin 32) (bit : Nat) :
    (gpioMask pin).getLsbD bit = decide (bit = pin) := by
  have inside := pin.isLt
  rw [gpioMask, Nat.mod_eq_of_lt inside, BitVec.getLsbD_shiftLeft, BitVec.getLsbD_one]
  by_cases same : bit = pin
  · simp [same]
  · simp [same]
    omega

theorem getLsbD_or_gpioMask (word : BitVec 32) (pin : Fin 32) (bit : Nat) :
    (word ||| gpioMask pin).getLsbD bit = (word.getLsbD bit || decide (bit = pin)) := by
  rw [BitVec.getLsbD_or, getLsbD_gpioMask]

theorem getLsbD_and_not_gpioMask (word : BitVec 32) (pin : Fin 32) (bit : Nat) :
    (word &&& ~~~gpioMask pin).getLsbD bit = (word.getLsbD bit && !decide (bit = pin)) := by
  rw [BitVec.getLsbD_and, BitVec.getLsbD_not, getLsbD_gpioMask]
  rcases Nat.lt_or_ge bit 32 with small | large
  · simp [small]
  · simp [BitVec.getLsbD_of_ge word bit large]

theorem registers_bcm283xGpioSetFunction (pin : Fin 32) (function : GpioFunction) (gpio : Gpio)
    (i : Fin 6) (bit : Nat) :
    ((bcm283xGpioSetFunction pin function gpio).registers (.gpfsel i)).getLsbD bit =
      if bit < 30 ∧ (gpioMask pin).getLsbD (10 * i + bit / 3) = true then
        function.code.testBit (bit % 3)
      else (gpio.registers (.gpfsel i)).getLsbD bit := by
  rw [bcm283xGpioSetFunction, Gpio.registers_modify, getLsbD_gpioMask]
  simp only [decide_eq_true_eq]
  by_cases here : i = ⟨pin / 10, by omega⟩
  · subst here
    rw [Function.update_self, Field.getLsbD_set]
    have field : (3 * (pin.val % 10) ≤ bit ∧ bit < 3 * (pin.val % 10) + 3) ↔
        (bit < 30 ∧ 10 * (pin.val / 10) + bit / 3 = pin.val) := by omega
    simp only [GpioFunctionSelect.fselx, field]
    by_cases inside : bit < 30 ∧ 10 * (pin.val / 10) + bit / 3 = pin.val
    · rw [if_pos inside, if_pos inside]
      congr 1
      omega
    · rw [if_neg inside, if_neg inside]
  · rw [Function.update_of_ne (by simpa using here), if_neg]
    rintro ⟨small, at_⟩
    apply here
    apply Fin.ext
    dsimp only
    omega

theorem registers_clearEvents (bank : Fin 2) (mask : BitVec 32) (gpio : Gpio)
    (register : GpioRegister) :
    (clearEvents bank mask gpio).registers register =
      if register.enablesIn bank then gpio.registers register &&& ~~~mask
      else gpio.registers register := by
  cases register with
  | gpren b | gpfen b | gphen b | gplen b | gparen b | gpafen b =>
      by_cases same : b = bank
      · simp [clearEvents, GpioRegister.enablesIn, same]
      · simp [clearEvents, GpioRegister.enablesIn, same]
  | _ => simp [clearEvents, GpioRegister.enablesIn]

theorem registers_enableEvents (eventDetect : GpioEventDetect) (bank : Fin 2)
    (mask : BitVec 32) (gpio : Gpio) (register : GpioRegister) :
    (enableEvents eventDetect bank mask gpio).registers register =
      if register.enablesIn bank && eventDetect.names register then
        gpio.registers register ||| mask
      else gpio.registers register := by
  cases register with
  | gpren b | gpfen b | gphen b | gplen b | gparen b | gpafen b =>
      by_cases same : b = bank
      · cases eventDetect <;>
          simp [enableEvents, GpioRegister.enablesIn, GpioEventDetect.names, same]
      · cases eventDetect <;> simp [enableEvents, GpioRegister.enablesIn, same]
  | _ => cases eventDetect <;> simp [enableEvents, GpioRegister.enablesIn]

/-- The event switch, register by register. -/
theorem registers_switchEvents (eventDetect : GpioEventDetect) (bank : Fin 2)
    (mask : BitVec 32) (gpio : Gpio) (register : GpioRegister) :
    (enableEvents eventDetect bank mask (clearEvents bank mask gpio)).registers register =
      if register.enablesIn bank then
        if eventDetect.names register then gpio.registers register &&& ~~~mask ||| mask
        else gpio.registers register &&& ~~~mask
      else gpio.registers register := by
  rw [registers_enableEvents, registers_clearEvents]
  cases register.enablesIn bank <;> rfl

/-- The registers a pull is changed through. -/
def GpioRegister.pulls : GpioRegister → Bool
  | .gppud | .gppudclk _ => true
  | _ => false

/-- From `before` to `after` nothing was written to the pull registers. -/
structure PullKept (before after : Gpio) : Prop where
  now : ∀ register, register.pulls = true →
    after.registers register = before.registers register
  written : ∃ states, after.history = before.history ++ states ∧
    ∀ registers ∈ states, ∀ register, register.pulls = true →
      registers register = before.registers register

theorem PullKept.refl (gpio : Gpio) : PullKept gpio gpio where
  now _ _ := rfl
  written := ⟨[], (List.append_nil _).symm, by simp⟩

theorem PullKept.modify {before after : Gpio} (kept : PullKept before after)
    {register : GpioRegister} (other : register.pulls = false) (f : BitVec 32 → BitVec 32) :
    PullKept before (after.modify register f) := by
  have now : ∀ pull : GpioRegister, pull.pulls = true →
      (after.modify register f).registers pull = before.registers pull := by
    intro pull isPull
    rw [Gpio.registers_modify, Function.update_of_ne, kept.now pull isPull]
    rintro rfl
    rw [isPull] at other
    cases other
  obtain ⟨states, history, written⟩ := kept.written
  refine ⟨now, states ++ [(after.modify register f).registers], ?_, ?_⟩
  · rw [Gpio.history_modify, history, List.append_assoc]
  · intro registers member
    rw [List.mem_append, List.mem_singleton] at member
    rcases member with earlier | rfl
    · exact written registers earlier
    · exact now

/-- Selecting the function and the events does not touch the pull registers. -/
theorem pullKept_enableEvents (pin : Fin 32) (function : GpioFunction)
    (eventDetect : GpioEventDetect) (bank : Fin 2) (mask : BitVec 32) (gpio : Gpio) :
    PullKept gpio (enableEvents eventDetect bank mask
      (clearEvents bank mask (bcm283xGpioSetFunction pin function gpio))) := by
  have selected : PullKept gpio (bcm283xGpioSetFunction pin function gpio) :=
    (PullKept.refl gpio).modify rfl _
  have cleared : PullKept gpio
      (clearEvents bank mask (bcm283xGpioSetFunction pin function gpio)) := by
    unfold clearEvents
    iterate 6 refine PullKept.modify ?_ rfl _
    exact selected
  unfold enableEvents
  cases eventDetect with
  | none => exact cleared
  | anyEdge =>
      iterate 2 refine PullKept.modify ?_ rfl _
      exact cleared
  | risingEdge | fallingEdge | highLevel | lowLevel | risingEdgeAsync | fallingEdgeAsync =>
      refine PullKept.modify ?_ rfl _
      exact cleared

/-- Changing the pull does not touch any other register. -/
theorem registers_changePull (pull : GpioPull) (bank : Fin 2) (mask : BitVec 32) (gpio : Gpio)
    {register : GpioRegister} (noMode : register ≠ .gppud) (noClock : register ≠ .gppudclk bank) :
    (changePull pull bank mask gpio).registers register = gpio.registers register := by
  unfold changePull
  split
  · simp [noMode, noClock]
  · rfl

theorem getLsbD_pullClock (pin : Fin 32) (pull : GpioPull) (gpio : Gpio) (bit : Nat) :
    ((changePull pull 0 (gpioMask pin) gpio).registers (.gppudclk 0)).getLsbD bit =
      if (gpioMask pin).getLsbD bit = true ∧ pull ≠ .noChange then false
      else (gpio.registers (.gppudclk 0)).getLsbD bit := by
  unfold changePull
  by_cases change : pull ≠ .noChange
  · rw [if_pos change]
    dsimp only
    rw [Gpio.registers_modify, Function.update_self, getLsbD_and_not_gpioMask,
      Gpio.registers_modify, Function.update_self, getLsbD_or_gpioMask, getLsbD_gpioMask,
      Gpio.registers_modify, Function.update_of_ne (by simp)]
    by_cases here : bit = pin <;> simp [change, here]
  · simp [change]

/-- The states a pull change goes through. -/
theorem pulses_changePull (pin : Fin 32) (pull : GpioPull) (gpio : Gpio) :
    ∃ states, (changePull pull 0 (gpioMask pin) gpio).history = gpio.history ++ states ∧
      (∀ registers ∈ states, ∀ bit,
        ¬ ((gpioMask pin).getLsbD bit = true ∧ pull ≠ .noChange) →
        (registers (.gppudclk 0)).getLsbD bit =
          (gpio.registers (.gppudclk 0)).getLsbD bit) ∧
      (pull ≠ .noChange → ∃ registers ∈ states,
        GpioPullUpDown.pud.get (registers .gppud) = pull.code ∧
          (registers (.gppudclk 0)).getLsbD pin = true) := by
  by_cases change : pull ≠ .noChange
  · let selected := gpio.modify .gppud fun word => GpioPullUpDown.pud.set word pull.code
    let clocked := selected.modify (.gppudclk 0) (· ||| gpioMask pin)
    have ended : changePull pull 0 (gpioMask pin) gpio =
        clocked.modify (.gppudclk 0) (· &&& ~~~gpioMask pin) := if_pos change
    have final := getLsbD_pullClock pin pull gpio
    refine ⟨[selected.registers, clocked.registers,
      (changePull pull 0 (gpioMask pin) gpio).registers], ?_, ?_, ?_⟩
    · rw [ended]
      simp only [Gpio.history_modify, clocked, selected, List.append_assoc, List.cons_append,
        List.nil_append]
    · intro registers member bit outside
      have apart : (gpioMask pin).getLsbD bit = false := by simpa [change] using outside
      simp only [List.mem_cons, List.not_mem_nil, or_false] at member
      rcases member with rfl | rfl | rfl
      · simp [selected]
      · simp [clocked, selected, apart]
      · rw [final, if_neg outside]
    · intro _
      refine ⟨clocked.registers, by simp, ?_, ?_⟩
      · have code : pull.code < 2 ^ 2 := by cases pull <;> decide
        simp only [clocked, selected, Gpio.registers_modify, ne_eq, reduceCtorEq,
          not_false_eq_true, Function.update_of_ne, Function.update_self]
        exact Field.get_set_of_lt code
      · simp [clocked, selected, getLsbD_gpioMask]
  · refine ⟨[], ?_, by simp, fun change' => absurd change' change⟩
    rw [changePull, if_neg change, List.append_nil]

/-- What a call on one pin does. -/
theorem configured_configurePin (pin : Fin 32) (config : GpioConfiguration) (gpio : Gpio) :
    Configured config (gpioMask pin) gpio (configurePin pin config gpio) := by
  have kept := pullKept_enableEvents pin config.function config.eventDetect 0 (gpioMask pin) gpio
  have ended : configurePin pin config gpio = changePull config.pull 0 (gpioMask pin)
      (enableEvents config.eventDetect 0 (gpioMask pin)
        (clearEvents 0 (gpioMask pin) (bcm283xGpioSetFunction pin config.function gpio))) := by
    rw [configurePin, gpioBank_eq]
  generalize middle : enableEvents config.eventDetect 0 (gpioMask pin)
    (clearEvents 0 (gpioMask pin) (bcm283xGpioSetFunction pin config.function gpio)) = events
    at kept ended
  have event (reg : GpioRegister) : events.registers reg =
      if reg.enablesIn 0 then
        if config.eventDetect.names reg then
          (bcm283xGpioSetFunction pin config.function gpio).registers reg &&& ~~~gpioMask pin |||
            gpioMask pin
        else (bcm283xGpioSetFunction pin config.function gpio).registers reg &&& ~~~gpioMask pin
      else (bcm283xGpioSetFunction pin config.function gpio).registers reg := by
    rw [← middle, registers_switchEvents]
  rw [ended]
  constructor
  case function =>
    intro i bit
    rw [registers_changePull _ _ _ _ (by simp) (by simp), event,
      ← registers_bcm283xGpioSetFunction]
    rfl
  case enables =>
    intro reg isEnable bit
    have unselected : (bcm283xGpioSetFunction pin config.function gpio).registers reg =
        gpio.registers reg := by
      rw [bcm283xGpioSetFunction, Gpio.registers_modify, Function.update_of_ne]
      rintro rfl
      cases isEnable
    rw [registers_changePull _ _ _ _ (by rintro rfl; cases isEnable)
      (by rintro rfl; cases isEnable), event, if_pos isEnable, unselected]
    rw [getLsbD_gpioMask]
    by_cases named : config.eventDetect.names reg = true
    · rw [if_pos named, getLsbD_or_gpioMask, getLsbD_and_not_gpioMask, named]
      by_cases here : bit = pin <;> simp [here]
    · rw [if_neg named, getLsbD_and_not_gpioMask, Bool.eq_false_iff.mpr named]
      by_cases here : bit = pin <;> simp [here]
  case others =>
    intro reg noSelect noEnable noMode noClock
    rw [registers_changePull _ _ _ _ noMode noClock, event, if_neg (by simp [noEnable]),
      bcm283xGpioSetFunction, Gpio.registers_modify, Function.update_of_ne (noSelect _)]
  case pullClock =>
    intro bit
    rw [getLsbD_pullClock, kept.now _ rfl]
  case pulses =>
    obtain ⟨before, historyBefore, still⟩ := kept.written
    obtain ⟨states, history, outside, pulse⟩ := pulses_changePull pin config.pull events
    refine ⟨before ++ states, ?_, ?_, ?_⟩
    · rw [history, historyBefore, List.append_assoc]
    · intro registers member bit apart
      rcases List.mem_append.mp member with early | late
      · rw [still registers early _ rfl]
      · rw [outside registers late bit apart, kept.now _ rfl]
    · intro change bit inMask
      rw [getLsbD_gpioMask, decide_eq_true_iff] at inMask
      subst inMask
      obtain ⟨registers, member, selected, clock⟩ := pulse change
      exact ⟨registers, List.mem_append_right _ member, selected, clock⟩

end Raspdif
