import Raspdif.Lib.Interaction
import Raspdif.Main.Delay
import Raspdif.Peripheral.Gpio
import Raspdif.Peripheral.Pcm

/-!
# The process and its environment

What raspdif calls while it starts, runs and shuts down: the command line, `/dev/mem`,
the VideoCore mailbox, the peripherals and the input file.  The environment may answer
every call as it likes.

A `Ledger` says what the calls of a run have brought about: the blocks of VideoCore memory,
the PCM clock and the DMA channels.
-/

namespace Raspdif.Process

open Interaction BitField

/-! ## Types of the calls -/

/-- `log_level_t`. -/
inductive LogLevel
  | debug
  | info
  | warn
  | error
  | fatal
  deriving DecidableEq, Repr

/-- The value of the enumerator. -/
def LogLevel.code : LogLevel → Nat
  | .debug => 0
  | .info => 1
  | .warn => 2
  | .error => 3
  | .fatal => 4

/-- The signals that `register_signal_handler` registers. -/
inductive Signal
  | hup
  | int
  | quit
  | ill
  | abrt
  | fpe
  | segv
  | pipe
  | alrm
  | term
  | bus
  deriving DecidableEq, Repr

def registeredSignals : List Signal :=
  [.hup, .int, .quit, .ill, .abrt, .fpe, .segv, .pipe, .alrm, .term, .bus]

/-- `raspdif_arguments_t`. -/
structure RaspdifArguments where
  file : Option String
  verbose : Bool
  keepAlive : Bool
  pcmDisable : Bool
  sampleRate : ℚ
  format : RaspdifFormat

/-- The requests of `mailbox.c` that deal with memory. -/
inductive MailboxMessage
  | allocateMemory (size alignment flags : BitVec 32)
  | lockMemory (handle : BitVec 32)
  | unlockMemory (handle : BitVec 32)
  | releaseMemory (handle : BitVec 32)
  deriving DecidableEq, Repr

/-- What `ioctl` returns, and the response it leaves in the buffer. -/
structure MailboxReply where
  result : Int
  /-- `header.code`. -/
  code : BitVec 32
  /-- `tag.header.code`. -/
  tagCode : BitVec 32
  /-- The handle, the bus address or the status. -/
  value : BitVec 32
  deriving DecidableEq, Repr

/-- `MAILBOX_CODE_SUCCESS`. -/
def mailboxCodeSuccess : BitVec 32 := 0x80000000

/-- The firmware has done what was asked. -/
def MailboxReply.Granted (reply : MailboxReply) : Prop :=
  0 ≤ reply.result ∧ reply.code &&& mailboxCodeSuccess = mailboxCodeSuccess ∧
    reply.tagCode &&& mailboxCodeSuccess = mailboxCodeSuccess

instance (reply : MailboxReply) : Decidable reply.Granted :=
  inferInstanceAs (Decidable (_ ∧ _))

/-- The registers of `bcm283x_pcm_t` that are written. -/
inductive PcmRegister
  | csA
  | modeA
  | rxcA
  | txcA
  | dreqA
  | intenA
  | intstcA
  | gray
  deriving DecidableEq, Repr

/-- An assignment to a register or to a field of one. -/
inductive PcmStore
  | word (register : PcmRegister) (value : BitVec 32)
  | field (register : PcmRegister) (field : Field 32) (value : Nat)

/-- An assignment to a register of a DMA channel or to a field of one. -/
inductive DmaStore
  | csReset
  | csInt
  | csEnd
  | debugReadError
  | debugFifoError
  | debugReadLastNotSetError
  | conblkAd (address : BitVec 32)
  | csActive (enable : Bool)
  deriving DecidableEq, Repr

/-- Before a step of the loops of `main`: input that arrived, and what the step reads. -/
structure Outside where
  bytes : List UInt8
  closed : Bool
  answers : Answers

/-! ## Calls -/

inductive EnvCall
  | argpParse
  | sigaction (signal : Signal)
  | bcmHostIsModelPi4
  | bcmHostGetPeripheralAddress
  | bcmHostGetPeripheralSize
  | bcmHostGetSdramAddress
  | openMem
  | mmap (offset length : BitVec 32)
  | close
  | sysconfPageSize
  /-- `open("/dev/vcio")`, for the message that is to be sent. -/
  | openVcio (message : MailboxMessage)
  | ioctl (message : MailboxMessage)
  | nanosleep (delay : Timespec)
  | readClockControl
  | writeClockControl (word : BitVec 32)
  | writeClockDivisor (word : BitVec 32)
  /-- `while (clock->CTL.BUSY)`, at its end. -/
  | clockIdle
  | pcm (store : PcmStore)
  /-- `while (pcm->CS_A.SYNC != value)`, at its end. -/
  | pcmSynced (value : Nat)
  | dma (channel : Nat) (store : DmaStore)
  | gpioConfigureMask (mask : BitVec 32) (config : GpioConfiguration)
  /-- `fopen` of the file, or `freopen` of standard input. -/
  | openInput (file : Option String)
  | fcntl
  | outside
  | poll
  /-- No call: a conversion to an unsigned type that C leaves undefined. -/
  | undefinedConversion
  /-- No call: `raspdif_init` is entered with this channel. -/
  | raspdifInit (channel : Nat)
  /-- No call: `raspdif_shutdown` is entered. -/
  | raspdifShutdown

@[reducible] def EnvCall.Answer : EnvCall → Type
  /- Nothing when `argp_parse` has ended the process. -/
  | .argpParse => Option RaspdifArguments
  | .bcmHostIsModelPi4 => Bool
  | .bcmHostGetPeripheralAddress => BitVec 32
  | .bcmHostGetPeripheralSize => BitVec 32
  | .bcmHostGetSdramAddress => BitVec 32
  | .openMem => Int
  /- `MAP_FAILED`, or an address that may be `NULL`. -/
  | .mmap _ _ => Option Nat
  | .close => Int
  | .sysconfPageSize => BitVec 32
  | .openVcio _ => Int
  | .ioctl _ => MailboxReply
  | .readClockControl => BitVec 32
  /- Whether it is not `NULL`. -/
  | .openInput _ => Bool
  | .outside => Outside
  | .undefinedConversion => BitVec 32
  | _ => Unit

@[reducible] def environment : Interface where
  Op := EnvCall
  Answer := EnvCall.Answer

abbrev EnvEvent := Exchange environment

/-! ## Global variables -/

/-- `memory_physical_t`; the handle is an `int32_t`. -/
structure MemoryPhysical where
  handle : BitVec 32
  address : BitVec 32
  deriving DecidableEq, Repr

/-- The `static` variables outside the loops of `main`.  Pointers are numbers, 0 is `NULL`. -/
structure Globals where
  minLevel : LogLevel
  /-- `virtual_base` of `bcm283x_init`. -/
  virtualBase : Nat
  clock : Nat
  gpio : Nat
  dma : Nat
  pcm : Nat
  /-- `raspdif.memory`. -/
  memory : MemoryPhysical
  /-- `raspdif.dma_channel`. -/
  dmaChannel : Nat
  /-- `raspdif.control.bus`. -/
  controlBus : BitVec 32
  /-- `raspdif.control.virtual`. -/
  controlVirtual : Nat
  deriving DecidableEq, Repr

def Globals.initial : Globals where
  minLevel := .info
  virtualBase := 0
  clock := 0
  gpio := 0
  dma := 0
  pcm := 0
  memory := ⟨0, 0⟩
  dmaChannel := 0
  controlBus := 0
  controlVirtual := 0

abbrev Prog := Program Globals environment

def ask (call : EnvCall) : Prog call.Answer := Program.perform (I := environment) call

def askAll (calls : List EnvCall) : Prog Unit := Program.performAll (I := environment) calls

/-! ## What the calls have brought about -/

structure Ledger where
  /-- The handles of the blocks that the firmware has allocated. -/
  granted : List (BitVec 32)
  locked : List (BitVec 32)
  unlocks : List (BitVec 32)
  releases : List (BitVec 32)
  /-- Handles that were to be unlocked or released and had not been allocated. -/
  strays : List (BitVec 32)
  /-- The PCM clock is enabled. -/
  clock : Bool
  /-- The active DMA channels. -/
  dma : List Nat
  /-- The DMA channels that were disabled. -/
  disabled : List Nat
  /-- The channel that was passed to `raspdif_init`. -/
  channel : Option Nat
  /-- `raspdif_shutdown` was entered. -/
  shutdown : Bool
  /-- The firmware gave a block a handle that is negative as `int32_t`, or behind the
  allocation of a block a device, a lock, a mapping or the input file failed. -/
  failed : Bool
  deriving DecidableEq, Repr

def Ledger.empty : Ledger where
  granted := []
  locked := []
  unlocks := []
  releases := []
  strays := []
  clock := false
  dma := []
  disabled := []
  channel := none
  shutdown := false
  failed := false

/-- Something failed. -/
def Ledger.fail (l : Ledger) : Ledger := { l with failed := l.failed || !l.granted.isEmpty }

def Ledger.stray (l : Ledger) (handle : BitVec 32) : Ledger :=
  { l with strays := if handle ∈ l.granted then l.strays else l.strays ++ [handle] }

/-- What an answer brings about. -/
def Ledger.answered (l : Ledger) : (call : EnvCall) → call.Answer → Ledger
  | .openMem, file => if file = -1 then l.fail else l
  | .openVcio _, mbox => if mbox < 0 then l.fail else l
  | .mmap _ _, address => if address = none then l.fail else l
  | .openInput _, opened => if opened then l else l.fail
  | .ioctl (.allocateMemory _ _ _), reply =>
      if reply.Granted then
        { l with granted := l.granted ++ [reply.value], failed := l.failed || reply.value.msb }
      else l
  | .ioctl (.lockMemory handle), reply =>
      if reply.Granted then
        let l := { l with locked := l.locked ++ [handle] }
        if reply.value = 0 then l.fail else l
      else l.fail
  | .ioctl (.unlockMemory handle), reply =>
      let l := l.stray handle
      if reply.Granted then { l with unlocks := l.unlocks ++ [handle] } else l
  | .ioctl (.releaseMemory handle), reply =>
      let l := l.stray handle
      if reply.Granted then { l with releases := l.releases ++ [handle] } else l
  | .writeClockControl word, _ =>
      if ClockControl.passwd.get word = clockManagerPassword then
        { l with clock := ClockControl.enab.get word == 1 }
      else l
  | .dma channel (.csActive true), _ => { l with dma := channel :: l.dma }
  | .dma channel (.csActive false), _ =>
      { l with dma := l.dma.filter (· ≠ channel), disabled := l.disabled ++ [channel] }
  | .raspdifInit channel, _ => { l with channel := some channel }
  | .raspdifShutdown, _ => { l with shutdown := true }
  | _, _ => l

def Ledger.after (l : Ledger) (e : EnvEvent) : Ledger := l.answered e.op e.answer

def ledger (trace : List EnvEvent) : Ledger := trace.foldl Ledger.after .empty

/-- The block has been unlocked if it was locked, and released once. -/
def Ledger.Returned (l : Ledger) (handle : BitVec 32) : Prop :=
  (handle ∈ l.locked → l.unlocks.count handle = 1) ∧ l.releases.count handle = 1

instance (l : Ledger) (handle : BitVec 32) : Decidable (l.Returned handle) :=
  inferInstanceAs (Decidable (_ ∧ _))

/-- Every block has been returned, and the PCM clock and the DMA are off. -/
def Ledger.Clean (l : Ledger) : Prop :=
  (∀ handle ∈ l.granted, l.Returned handle) ∧ l.clock = false ∧ l.dma = []

instance (l : Ledger) : Decidable l.Clean :=
  @instDecidableAnd _ _ (List.decidableBAll l.Returned l.granted) inferInstance

/-- The firmware unlocks and releases when it is asked to. -/
def EnvCall.promised : (call : EnvCall) → call.Answer → Bool
  | .openVcio (.unlockMemory _), mbox | .openVcio (.releaseMemory _), mbox => decide (0 ≤ mbox)
  | .ioctl (.unlockMemory _), reply | .ioctl (.releaseMemory _), reply =>
      decide (reply.Granted ∧ reply.value = 0)
  | _, _ => true

def Promised (e : EnvEvent) : Prop := e.op.promised e.answer = true

instance (e : EnvEvent) : Decidable (Promised e) := inferInstanceAs (Decidable (_ = true))

end Raspdif.Process
