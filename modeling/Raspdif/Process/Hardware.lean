import Raspdif.Peripheral.GpioMask
import Raspdif.Process.Regime

/-!
# The peripherals under the process

`Hardware` is what the accesses of a run leave in the registers of the peripherals, which
may hold anything at first, with what the firmware and the kernel have said of the block of
memory.  `Hardware.Ready` says that all is programmed for the output, `Hardware.Allows` which
accesses are in order, and `Hardware.Quiet` that nothing is sent any more.
-/

namespace Raspdif.Process

open Interaction BitField

/-! ## Registers -/

structure Hardware where
  pcm : Bcm283xPcm
  /-- Of `clock_peripheral_pcm`. -/
  clock : Bcm283xClock
  /-- `BUSY` was found clear, and the clock not enabled since then. -/
  clockIdle : Bool
  gpio : Gpio
  /-- `CONBLK_AD` of the DMA channels. -/
  conblkAd : Nat → BitVec 32
  /-- `CS.ACTIVE` of the DMA channels. -/
  active : Nat → Bool
  /-- The channel that was passed to `raspdif_init`. -/
  channel : Option Nat
  /-- What `bcm_host_is_model_pi4` said last. -/
  pi4 : Bool
  /-- Where the block of memory was locked, as a bus address. -/
  bus : BitVec 32
  /-- `bcm_host_get_sdram_address()`. -/
  sdram : BitVec 32
  /-- What was mapped last of physical memory: its offset and its length. -/
  mapped : BitVec 32 × BitVec 32
  /-- A DMA channel was activated. -/
  started : Bool

/-- What an access leaves behind. -/
def Hardware.answered (h : Hardware) : (call : EnvCall) → call.Answer → Hardware
  | .bcmHostIsModelPi4, pi4 => { h with pi4 := pi4 }
  | .bcmHostGetSdramAddress, address => { h with sdram := address }
  | .mmap offset length, address =>
      if address = none then h else { h with mapped := (offset, length) }
  | .ioctl (.lockMemory _), reply => if reply.Granted then { h with bus := reply.value } else h
  | .writeClockControl word, _ =>
      if ClockControl.passwd.get word = clockManagerPassword then
        { h with
          clock := { h.clock with ctl := word }
          clockIdle := h.clockIdle && decide (ClockControl.enab.get word = 0) }
      else h
  | .clockIdle, _ => { h with clockIdle := true }
  | .writeClockDivisor word, _ =>
      if ClockDivisor.passwd.get word = clockManagerPassword then
        { h with clock := { h.clock with div := word } }
      else h
  | .pcm store, _ => { h with pcm := store.apply h.pcm }
  | .dma channel .csReset, _ => { h with active := Function.update h.active channel false }
  | .dma channel (.conblkAd address), _ =>
      { h with conblkAd := Function.update h.conblkAd channel address }
  | .dma channel (.csActive enable), _ =>
      { h with
        active := Function.update h.active channel enable
        started := h.started || enable }
  | .gpioConfigureMask mask config, _ =>
      { h with gpio := (Raspdif.bcm283xGpioConfigureMask mask config h.gpio).getD h.gpio }
  | .raspdifInit channel, _ => { h with channel := some channel }
  | _, _ => h

def Hardware.record (h : Hardware) (e : EnvEvent) : Hardware := h.answered e.op e.answer

/-- What some accesses leave behind. -/
def Hardware.after (h : Hardware) (trace : List EnvEvent) : Hardware :=
  trace.foldl Hardware.record h

/-- The activation of a DMA channel. -/
def starts : EnvCall → Bool
  | .dma _ (.csActive true) => true
  | _ => false

theorem Hardware.started_record (h : Hardware) (e : EnvEvent) :
    (h.record e).started = (h.started || starts e.op) := by
  rcases e with ⟨own, answer⟩
  change (h.answered own answer).started = (h.started || starts own)
  cases own with
  | dma channel store =>
      cases store with
      | csActive enable => cases enable <;> rfl
      | _ => exact (Bool.or_false _).symm
  | ioctl message =>
      cases message with
      | lockMemory handle =>
          change (ite _ _ _ : Hardware).started = (h.started || false)
          rw [Bool.or_false]
          split <;> rfl
      | _ => exact (Bool.or_false _).symm
  | mmap | writeClockControl | writeClockDivisor =>
      change (ite _ _ _ : Hardware).started = (h.started || false)
      rw [Bool.or_false]
      split <;> rfl
  | _ => exact (Bool.or_false _).symm

theorem Hardware.started_after (h : Hardware) (calls : List EnvEvent) :
    (h.after calls).started = (h.started || calls.any fun e => starts e.op) := by
  induction calls generalizing h with
  | nil => exact (Bool.or_false _).symm
  | cons e calls ih =>
      rw [List.any_cons, ← Bool.or_assoc, ← h.started_record e]
      exact ih (h.record e)

/-! ## What is asked of them -/

/-- `TXON`. -/
def transmits (pcm : Bcm283xPcm) : Prop := PcmControlStatus.txon.get pcm.csA = 1

instance (pcm : Bcm283xPcm) : Decidable (transmits pcm) := inferInstanceAs (Decidable (_ = _))

/-- The PCM peripheral takes one word of 32 bits for each frame, by the DMA. -/
structure PcmReady (pcm : Bcm283xPcm) : Prop where
  configuration : pcm.decode = raspdifPcmConfiguration
  enabled : PcmControlStatus.en.get pcm.csA = 1
  dma : PcmControlStatus.dmaen.get pcm.csA = 1
  threshold : PcmDmaRequest.tx.get pcm.dreqA = 32
  panic : PcmDmaRequest.txPanic.get pcm.dreqA = 16
  channel1 : PcmTxRxConfig.ch1en.get pcm.txcA = 1
  position : PcmTxRxConfig.ch1pos.get pcm.txcA = 0
  width : 16 * PcmTxRxConfig.ch1wex.get pcm.txcA + PcmTxRxConfig.ch1wid.get pcm.txcA + 8 = 32
  channel2 : PcmTxRxConfig.ch2en.get pcm.txcA = 0

/-- The clock is enabled, with the divisor of the sample rate. -/
structure ClockReady (pi4 : Bool) (sampleRate : ℚ) (clock : Bcm283xClock) : Prop where
  enabled : ClockControl.enab.get clock.ctl = 1
  divides : 0 < ClockDivisor.divi.get clock.div
  divisor : sampleRate ≠ 0 → ∀ config, raspdifClockConfiguration pi4 sampleRate = some config →
    ClockDivisor.divi.get clock.div = config.divi.toNat ∧
      ClockDivisor.divf.get clock.div = config.divf.toNat

/-- The output is programmed, for this DMA channel. -/
structure Hardware.Ready (arguments : RaspdifArguments) (h : Hardware) (channel : Nat) : Prop where
  pcm : PcmReady h.pcm
  clock : ClockReady h.pi4 arguments.sampleRate h.clock
  /-- Pin 21 has its function. -/
  pin : pinFunction h.gpio.registers 21 = GpioFunction.af0.code
  /-- The channel is to load the first control block at the start of the block. -/
  conblkAd : h.conblkAd channel = h.bus
  aligned : h.bus &&& 0x1F = 0
  some_bus : h.bus ≠ 0
  /-- The program sees the same memory as the DMA. -/
  mapped : h.mapped = (h.bus - h.sdram, BitVec.ofNat 32 sizeofControl)

/-- The output is programmed and fed by the DMA. -/
structure Hardware.Fed (arguments : RaspdifArguments) (h : Hardware) (channel : Nat) : Prop where
  ready : h.Ready arguments channel
  started : h.started = true
  active : h.active channel = true

/-- The accesses that are in order. -/
def Hardware.Allows (arguments : RaspdifArguments) (h : Hardware) : EnvCall → Prop
  /- Transmission begins only when the output is programmed and fed. -/
  | .pcm store => transmits (store.apply h.pcm) → ¬ transmits h.pcm →
      ∃ channel, h.channel = some channel ∧ h.Fed arguments channel
  | .dma channel (.csActive true) => h.channel = some channel ∧ h.Ready arguments channel
  | .dma channel (.csActive false) => h.started = true → h.channel = some channel
  | .dma channel _ => h.channel = some channel ∧ h.started = false
  /- The divisor is changed only while the clock is disabled and idle. -/
  | .writeClockDivisor _ =>
      ClockControl.enab.get h.clock.ctl = 0 ∧ h.clockIdle = true ∧ h.started = false
  | .gpioConfigureMask mask _ => mask = 1 <<< 21 ∧ h.started = false
  /- A round of the loops. -/
  | .outside => h.started = true →
      ∃ channel, h.channel = some channel ∧ h.Fed arguments channel ∧ transmits h.pcm
  | .poll => ∃ channel, h.channel = some channel ∧ h.Fed arguments channel ∧
      (transmits h.pcm ↔ arguments.pcmDisable = false)
  /- The DMA does not read what is given back. -/
  | .ioctl (.unlockMemory _) | .ioctl (.releaseMemory _) => h.started = true →
      ∀ channel, h.channel = some channel → h.active channel = false
  | _ => True

/-- Nothing is sent, and nothing runs that could be. -/
structure Hardware.Quiet (h : Hardware) : Prop where
  enabled : PcmControlStatus.en.get h.pcm.csA = 0
  silent : ¬ transmits h.pcm
  clock : ClockControl.enab.get h.clock.ctl = 0
  dma : ∀ channel, h.channel = some channel → h.active channel = false

/-- The accesses in order. -/
def accessMonitor (arguments : RaspdifArguments) : Monitor Hardware environment where
  record := Hardware.record
  Allows := Hardware.Allows arguments

/-! ## The regime -/

/-- `raspdif_shutdown` passes its assertions, and disables this channel. -/
structure Stops (channel : Option Nat) (g : Globals) : Prop where
  channel : channel = some g.dmaChannel
  valid : g.dmaChannel < dmaChannelMax
  clock : g.clock ≠ 0
  dma : g.dma ≠ 0
  pcm : g.pcm ≠ 0

/-- Every access is in order; once the output has been started it can be stopped at any
point, and when the process ends it is. -/
def accessRegime (arguments : RaspdifArguments) : Regime (Watched Hardware) where
  record := (accessMonitor arguments).watch
  during w g := w.kept ∧ (w.value.started = true → Stops w.value.channel g)
  exited w _ := w.value.started = true → w.value.Quiet
  aborted w _ := w.value.started = false

end Raspdif.Process
