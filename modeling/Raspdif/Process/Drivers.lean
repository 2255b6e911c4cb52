import Raspdif.Process.Calls

/-!
# Log, mailbox, memory and drivers

The functions of `log.c`, `mailbox.c`, `memory.c` and `bcm283x` that the process goes
through, as programs over its global variables.  What the PCM driver writes is the same
as in the model of its registers (`foldl_pcmResetStores`, `foldl_pcmConfigureStores`).
-/

namespace Raspdif.Process

open Interaction Program BitField

/-! ## Log -/

def logSetLevel (level : LogLevel) : Prog Unit := update fun g => { g with minLevel := level }

/-- `log_print`. -/
def logPrint (level : LogLevel) : Prog Unit := do
  let g ← getState
  if level.code < g.minLevel.code then pure ()
  else if level = .fatal then .exit
  else pure ()

/-! ## Mailbox -/

/-- `mailbox_send`, with the buffer it leaves behind. -/
def mailboxSend (message : MailboxMessage) : Prog MailboxReply := do
  let mbox ← ask (.openVcio message)
  if mbox < 0 then do
    logPrint .fatal
    pure ⟨-1, 0, 0, 0⟩
  else do
    let reply ← ask (.ioctl message)
    when (reply.result < 0) (logPrint .error)
    let closed ← ask .close
    when (closed < 0) (logPrint .error)
    pure reply

/-- The four requests differ in their message and in what they return on an error. -/
def mailboxRequest (message : MailboxMessage) (error : BitVec 32) : Prog (BitVec 32) := do
  let response ← mailboxSend message
  if response.result < 0 then pure error
  else if response.code &&& mailboxCodeSuccess ≠ mailboxCodeSuccess then pure error
  else if response.tagCode &&& mailboxCodeSuccess ≠ mailboxCodeSuccess then pure error
  else pure response.value

def mailboxAllocateMemory (size alignment flags : BitVec 32) : Prog (BitVec 32) :=
  mailboxRequest (.allocateMemory size alignment flags) (-1)

def mailboxLockMemory (handle : BitVec 32) : Prog (BitVec 32) :=
  mailboxRequest (.lockMemory handle) 0

def mailboxUnlockMemory (handle : BitVec 32) : Prog (BitVec 32) :=
  mailboxRequest (.unlockMemory handle) (-1)

def mailboxReleaseMemory (handle : BitVec 32) : Prog (BitVec 32) :=
  mailboxRequest (.releaseMemory handle) (-1)

/-! ## Memory -/

def memoryMapPhysical (offset length : BitVec 32) : Prog Nat := do
  let file ← ask .openMem
  if file = -1 then do
    logPrint .fatal
    pure 0
  else do
    let mapped ← ask (.mmap offset length)
    match mapped with
    | none => do
        logPrint .fatal
        pure 0
    | some virtual => do
        let result ← ask .close
        when (result = -1) (logPrint .error)
        logPrint .debug
        pure virtual

/-- `MAILBOX_MEM_FLAG_DIRECT | MAILBOX_MEM_FLAG_ZERO_INIT`. -/
def memoryFlags : BitVec 32 := 1 <<< 2 ||| 1 <<< 4

def memoryAllocatePhysical (length : BitVec 32) : Prog MemoryPhysical := do
  let pageSize ← ask .sysconfPageSize
  let handle ← mailboxAllocateMemory length pageSize memoryFlags
  if handle.toInt < 0 then do
    logPrint .error
    pure ⟨handle, 0⟩
  else do
    let address ← mailboxLockMemory handle
    if address = 0 then do
      logPrint .error
      pure ⟨handle, address⟩
    else do
      logPrint .debug
      pure ⟨handle, address⟩

def memoryReleasePhysical (memory : MemoryPhysical) : Prog (BitVec 32) := do
  let result ← mailboxUnlockMemory memory.handle
  if result.toInt < 0 then do
    logPrint .error
    pure result
  else do
    let result ← mailboxReleaseMemory memory.handle
    if result.toInt < 0 then do
      logPrint .error
      pure result
    else pure 0

/-! ## Clock -/

/-- The drivers save the base address of their registers in the same way. -/
def driverInit (saved : Globals → Nat) (save : Globals → Globals) (base : Nat) : Prog Unit := do
  assert (base ≠ 0)
  let g ← getState
  assert (saved g = 0)
  update save

def bcm283xClockInit (base : Nat) : Prog Unit :=
  driverInit Globals.clock (fun g => { g with clock := base }) base

/-- `bcm283x_clock_get_peripheral_clock` for `clock_peripheral_pcm`, with the assertion its
callers make. -/
def bcm283xClockGetPeripheralClock : Prog Unit := do
  let g ← getState
  assert (g.clock ≠ 0)
  assert (g.clock + 0x98 ≠ 0)

/-- `bcm283x_clock_enable` for `clock_peripheral_pcm`. -/
def bcm283xClockEnable (enable : Bool) : Prog Unit := do
  bcm283xClockGetPeripheralClock
  let control ← ask .readClockControl
  ask (.writeClockControl (ClockControl.enab.set
    (ClockControl.passwd.set control clockManagerPassword) enable.toNat))

/-- `bcm283x_clock_configure` for `clock_peripheral_pcm`. -/
def bcm283xClockConfigure (config : ClockConfiguration) : Prog Unit := do
  assert config.DivisorOk
  bcm283xClockGetPeripheralClock
  let control ← ask .readClockControl
  ask (.writeClockControl (ClockControl.enab.set
    (ClockControl.passwd.set control clockManagerPassword) 0))
  ask .clockIdle
  let control := ClockControl.passwd.set 0 clockManagerPassword
  let control := ClockControl.src.set control config.source.code
  let control := ClockControl.mash.set control config.mash.code
  let control := ClockControl.flip.set control config.invert.toNat
  let divisor := ClockDivisor.passwd.set 0 clockManagerPassword
  let divisor := ClockDivisor.divi.set divisor config.divi.toNat
  let divisor := ClockDivisor.divf.set divisor config.divf.toNat
  ask (.writeClockControl control)
  ask (.writeClockDivisor divisor)

/-! ## DMA -/

/-- `dma_channel_max`. -/
abbrev dmaChannelMax : Nat := 15

def bcm283xDmaInit (base : Nat) : Prog Unit :=
  driverInit Globals.dma (fun g => { g with dma := base }) base

/-- The assertions of `bcm283x_dma_get_channel`. -/
def bcm283xDmaGetChannel (channel : Nat) : Prog Unit := do
  let g ← getState
  assert (g.dma ≠ 0)
  assert (channel < dmaChannelMax)

def bcm283xDmaReset (channel : Nat) : Prog Unit := do
  bcm283xDmaGetChannel channel
  askAll ([.csReset, .csInt, .csEnd, .debugReadError, .debugFifoError,
    .debugReadLastNotSetError].map (EnvCall.dma channel))

def bcm283xDmaSetControlBlock (channel : Nat) (control : BitVec 32) : Prog Unit := do
  assert (control &&& 0x1F = 0)
  bcm283xDmaGetChannel channel
  ask (.dma channel (.conblkAd control))

def bcm283xDmaEnable (channel : Nat) (enable : Bool) : Prog Unit := do
  bcm283xDmaGetChannel channel
  ask (.dma channel (.csActive enable))

/-! ## GPIO -/

def bcm283xGpioInit (base : Nat) : Prog Unit :=
  driverInit Globals.gpio (fun g => { g with gpio := base }) base

/-- The pointer is tested for every pin of the mask. -/
def bcm283xGpioConfigureMask (mask : BitVec 32) (config : GpioConfiguration) : Prog Unit := do
  let g ← getState
  assert (mask ≠ 0 → g.gpio ≠ 0)
  ask (.gpioConfigureMask mask config)

/-! ## PCM -/

namespace PcmControlStatus

-- More fields of `pcm_control_status_t`.

def dmaen : Field 32 := ⟨9, 1, (by decide : 9 < 32)⟩
def sync : Field 32 := ⟨24, 1, (by decide : 24 < 32)⟩

end PcmControlStatus

namespace PcmTxRxConfig

-- The fields of `pcm_tx_rx_config_t`.

def ch2wid : Field 32 := ⟨0, 4, (by decide : 4 ≤ 32)⟩
def ch2pos : Field 32 := ⟨4, 10, by decide⟩
def ch2en : Field 32 := ⟨14, 1, (by decide : 14 < 32)⟩
def ch2wex : Field 32 := ⟨15, 1, (by decide : 15 < 32)⟩
def ch1wid : Field 32 := ⟨16, 4, by decide⟩
def ch1pos : Field 32 := ⟨20, 10, by decide⟩
def ch1en : Field 32 := ⟨30, 1, (by decide : 30 < 32)⟩
def ch1wex : Field 32 := ⟨31, 1, (by decide : 31 < 32)⟩

end PcmTxRxConfig

def pcmStores (stores : List PcmStore) : Prog Unit := askAll (stores.map EnvCall.pcm)

def microsleep (microseconds : BitVec 32) : Prog Unit :=
  match Raspdif.microsleep microseconds with
  | some delay => ask (.nanosleep delay)
  | none => .fail

def bcm283xDelayMicroseconds (microseconds : BitVec 32) : Prog Unit := microsleep microseconds

def bcm283xPcmInit (base : Nat) : Prog Unit :=
  driverInit Globals.pcm (fun g => { g with pcm := base }) base

/-- Whether the pointer is set. -/
def assertPcm : Prog Unit := do
  let g ← getState
  assert (g.pcm ≠ 0)

/-- What `bcm283x_pcm_reset` writes behind its delay. -/
def pcmResetStores : List PcmStore :=
  [.word .csA 0, .field .csA PcmControlStatus.txclr 1, .field .csA PcmControlStatus.rxclr 1,
    .field .csA PcmControlStatus.txerr 1, .field .csA PcmControlStatus.rxerr 1,
    .word .modeA 0, .word .rxcA 0, .word .txcA 0,
    .field .dreqA PcmDmaRequest.txPanic 0x10, .field .dreqA PcmDmaRequest.rxPanic 0x30,
    .field .dreqA PcmDmaRequest.tx 0x30, .field .dreqA PcmDmaRequest.rx 0x20,
    .word .intenA 0, .word .intstcA 0, .word .gray 0]

def bcm283xPcmReset : Prog Unit := do
  assertPcm
  pcmStores [.field .csA PcmControlStatus.en 0]
  bcm283xDelayMicroseconds 10
  pcmStores pcmResetStores

/-- `bcm283x_pcm_sync`. -/
def bcm283xPcmSync : Prog Unit := do
  assertPcm
  pcmStores [.field .csA PcmControlStatus.sync 0]
  ask (.pcmSynced 0)
  pcmStores [.field .csA PcmControlStatus.sync 1]
  ask (.pcmSynced 1)

def bcm283xPcmClearFifos : Prog Unit := do
  assertPcm
  pcmStores [.field .csA PcmControlStatus.txclr 1, .field .csA PcmControlStatus.rxclr 1]
  bcm283xPcmSync

/-- `pcm_dma_config_t`. -/
structure PcmDmaConfig where
  txThreshold : BitVec 8
  txPanic : BitVec 8
  rxThreshold : BitVec 8
  rxPanic : BitVec 8

def bcm283xPcmConfigureDma (enable : Bool) (config : PcmDmaConfig) : Prog Unit := do
  assertPcm
  assert (config.txThreshold.toNat ≤ 64)
  assert (config.rxThreshold.toNat ≤ 64)
  assert (config.txPanic.toNat ≤ 64)
  assert (config.rxPanic.toNat ≤ 64)
  pcmStores
    [.field .csA PcmControlStatus.dmaen enable.toNat,
      .field .dreqA PcmDmaRequest.txPanic config.txPanic.toNat,
      .field .dreqA PcmDmaRequest.tx config.txThreshold.toNat,
      .field .dreqA PcmDmaRequest.rxPanic config.rxPanic.toNat,
      .field .dreqA PcmDmaRequest.rx config.rxThreshold.toNat]

/-- `pcm_channel_config_t`. -/
structure PcmChannelConfig where
  width : BitVec 8
  position : BitVec 8

/-- One channel in `bcm283x_pcm_configure_channels`; nothing disables it. -/
def pcmChannelStores (register : PcmRegister) (en pos wid wex : Field 32) :
    Option PcmChannelConfig → List PcmStore
  | none => [.field register en 0]
  | some channel =>
      [.field register en 1, .field register pos channel.position.toNat,
        .field register wid ((channel.width - 8) &&& 0xF).toNat,
        .field register wex (decide (24 ≤ channel.width.toNat)).toNat]

def bcm283xPcmConfigureTransmitChannels (channel1 channel2 : Option PcmChannelConfig) :
    Prog Unit := do
  assertPcm
  pcmStores (pcmChannelStores .txcA PcmTxRxConfig.ch1en PcmTxRxConfig.ch1pos PcmTxRxConfig.ch1wid
    PcmTxRxConfig.ch1wex channel1)
  pcmStores (pcmChannelStores .txcA PcmTxRxConfig.ch2en PcmTxRxConfig.ch2pos PcmTxRxConfig.ch2wid
    PcmTxRxConfig.ch2wex channel2)

/-- What `bcm283x_pcm_configure` writes before its first delay. -/
def pcmConfigureStores : List PcmStore :=
  [.field .csA PcmControlStatus.en 1, .field .csA PcmControlStatus.stby 1,
    .field .csA PcmControlStatus.txon 0, .field .csA PcmControlStatus.rxon 0]

/-- What it writes between its delays. -/
def pcmConfigureModeStores (config : PcmConfiguration) : List PcmStore :=
  [.field .modeA PcmMode.flen (config.frame.length - 1).toNat,
    .field .modeA PcmMode.fslen config.frameSync.length.toNat,
    .field .modeA PcmMode.fsi config.frameSync.invert.toNat,
    .field .modeA PcmMode.fsm config.frameSync.mode.bit,
    .field .modeA PcmMode.clki config.clock.invert.toNat,
    .field .modeA PcmMode.clkm config.clock.mode.bit,
    .field .modeA PcmMode.ftxp config.frame.txMode.bit,
    .field .modeA PcmMode.ftxp config.frame.rxMode.bit,
    .field .modeA PcmMode.pdme 0, .field .modeA PcmMode.pdmn 0, .field .modeA PcmMode.clkDis 0,
    .field .csA PcmControlStatus.txthr config.fifo.txThreshold.code,
    .field .csA PcmControlStatus.rxthr config.fifo.rxThreshold.code]

def bcm283xPcmConfigure (config : PcmConfiguration) : Prog Unit := do
  assertPcm
  pcmStores pcmConfigureStores
  bcm283xDelayMicroseconds 10
  pcmStores (pcmConfigureModeStores config)
  bcm283xDelayMicroseconds 10

/-- No assertion here. -/
def bcm283xPcmEnable (transmit receive : Bool) : Prog Unit :=
  pcmStores [.field .csA PcmControlStatus.en 1,
    .field .csA PcmControlStatus.txon transmit.toNat,
    .field .csA PcmControlStatus.rxon receive.toNat]

/-- A word of the registers changed. -/
def PcmRegister.modify (f : BitVec 32 → BitVec 32) (pcm : Bcm283xPcm) : PcmRegister → Bcm283xPcm
  | .csA => { pcm with csA := f pcm.csA }
  | .modeA => { pcm with modeA := f pcm.modeA }
  | .rxcA => { pcm with rxcA := f pcm.rxcA }
  | .txcA => { pcm with txcA := f pcm.txcA }
  | .dreqA => { pcm with dreqA := f pcm.dreqA }
  | .intenA => { pcm with intenA := f pcm.intenA }
  | .intstcA => { pcm with intstcA := f pcm.intstcA }
  | .gray => { pcm with gray := f pcm.gray }

def PcmStore.apply (pcm : Bcm283xPcm) : PcmStore → Bcm283xPcm
  | .word register value => register.modify (fun _ => value) pcm
  | .field register bits value => register.modify (bits.set · value) pcm

theorem foldl_pcmResetStores (pcm : Bcm283xPcm) :
    (.field .csA PcmControlStatus.en 0 :: pcmResetStores).foldl PcmStore.apply pcm =
      Raspdif.bcm283xPcmReset pcm := rfl

theorem foldl_pcmConfigureStores (config : PcmConfiguration) (pcm : Bcm283xPcm) :
    (pcmConfigureStores ++ pcmConfigureModeStores config).foldl PcmStore.apply pcm =
      Raspdif.bcm283xPcmConfigure config pcm := by
  simp only [pcmConfigureStores, pcmConfigureModeStores, List.cons_append, List.nil_append,
    List.foldl_cons, List.foldl_nil, PcmStore.apply, PcmRegister.modify,
    Raspdif.bcm283xPcmConfigure, bcm283xPcmConfigureMode]

end Raspdif.Process
