import Raspdif.Dma.Walk
import Raspdif.Process.Drivers

/-!
# The process from start to end

`main` with `raspdif_init`, `raspdif_shutdown` and `signal_handler`.  The loops of `main`
are the machine of `Main.step`, here with the calls it makes beside the input and the
buffers; `stream` follows them for any number of steps (`exists_round`).
-/

namespace Raspdif.Process

open Interaction Program Trace

/-! ## Start -/

def bcm283xInit : Prog Unit := do
  let g ← getState
  if g.virtualBase ≠ 0 then
    logPrint .warn
  else do
    let physicalBase ← ask .bcmHostGetPeripheralAddress
    let length ← ask .bcmHostGetPeripheralSize
    let virtualBase ← memoryMapPhysical physicalBase length
    update fun g => { g with virtualBase := virtualBase }
    if virtualBase = 0 then
      logPrint .fatal
    else do
      bcm283xClockInit (virtualBase + 0x00101000)
      bcm283xGpioInit (virtualBase + 0x00200000)
      bcm283xDmaInit (virtualBase + 0x00007000)
      bcm283xPcmInit (virtualBase + 0x00203000)

/-- What is computed from a quotient by the sample rate: by zero it is infinite, and its
conversion undefined. -/
def perSample {α : Type} (sampleRate : ℚ) (converted : Option α) : Option α :=
  if sampleRate = 0 then none else converted

/-- The configuration of the clock, which two conversions may leave undefined. -/
def convertDivisor : Option ClockConfiguration → Prog ClockConfiguration
  | some config => pure config
  | none => do
      let divi ← ask .undefinedConversion
      let divf ← ask .undefinedConversion
      pure ⟨.plld, .stage1, false, divi.setWidth 16, divf.setWidth 16⟩

/-- `raspdif_init`, from `bcm283x_clock_configure` on. -/
def configureOutput (config : ClockConfiguration) : Prog Unit := do
  bcm283xClockConfigure config
  bcm283xClockEnable true
  bcm283xPcmReset
  bcm283xPcmConfigure raspdifPcmConfiguration
  bcm283xPcmConfigureDma true ⟨32, 16, 0, 0⟩
  bcm283xPcmConfigureTransmitChannels (some ⟨32, 0⟩) none
  bcm283xPcmClearFifos
  bcm283xGpioConfigureMask (1 <<< 21) ⟨.af0, .noChange, .none⟩

/-- `raspdif_init`, from `bcm283x_dma_reset` on. -/
def configurePeripherals (bus : BitVec 32) (sampleRateHz : ℚ) : Prog Unit := do
  let g ← getState
  bcm283xDmaReset g.dmaChannel
  let g ← getState
  bcm283xDmaSetControlBlock g.dmaChannel bus
  logPrint .debug
  let pi4 ← ask .bcmHostIsModelPi4
  let config ← convertDivisor (perSample sampleRateHz (raspdifClockConfiguration pi4 sampleRateHz))
  logPrint .debug
  configureOutput config

def raspdifInit (dmaChannel : Nat) (sampleRateHz : ℚ) : Prog Unit := do
  ask (.raspdifInit dmaChannel)
  bcm283xInit
  update fun g => { g with dmaChannel := dmaChannel }
  logPrint .debug
  let memory ← memoryAllocatePhysical (BitVec.ofNat 32 sizeofControl)
  when (memory.address = 0) (logPrint .fatal)
  update fun g => { g with memory := memory }
  let sdram ← ask .bcmHostGetSdramAddress
  let virtualBase ← memoryMapPhysical (memory.address - sdram) (BitVec.ofNat 32 sizeofControl)
  when (virtualBase = 0) do
    let _ ← memoryReleasePhysical memory
    logPrint .fatal
  -- The assertion of `raspdif_generate_dma_control_blocks`; the blocks depend on nothing else.
  let control : Setup := { format := .s16le, keepAlive := true, bus := memory.address }
  assert ((raspdifGenerateDmaControlBlocks control (raspdifBufferCount - 1)).nextControlBlock =
    control.controlBlock 0)
  update fun g => { g with controlBus := memory.address, controlVirtual := virtualBase }
  configurePeripherals memory.address sampleRateHz

/-! ## End -/

def raspdifShutdown : Prog Unit := do
  ask .raspdifShutdown
  bcm283xPcmReset
  bcm283xClockEnable false
  let g ← getState
  bcm283xDmaEnable g.dmaChannel false
  let g ← getState
  let _ ← memoryReleasePhysical g.memory
  pure ()

/-- `signal_handler`, for any signal. -/
def signalHandler : Prog Unit := do
  logPrint .warn
  raspdifShutdown
  .exit

def registerSignalHandler : Prog Unit := askAll (registeredSignals.map EnvCall.sigaction)

/-! ## Loops -/

/-- Input arrives. -/
def arrive (s : Main) (outside : Outside) : Main :=
  if s.file.closed then s
  else
    { s with
      file :=
        { s.file with
          pending := s.file.pending ++ outside.bytes
          closed := outside.closed } }

theorem exists_arrive (setup : Setup) (s : Main) (outside : Outside) :
    ∃ trace, Run (Main.Step setup) s trace (arrive s outside) := by
  rw [arrive]
  split
  case isTrue => exact ⟨[], .nil⟩
  case isFalse opened =>
    have opened := Bool.eq_false_iff.mpr opened
    have delivered := Run.single (Main.Step.deliver outside.bytes opened : Main.Step setup _ _ _)
    cases closed : outside.closed with
    | true => exact ⟨_, delivered.snoc .close⟩
    | false =>
        rw [← opened]
        exact ⟨_, delivered⟩

/-- A step of `stream` is one of `Main`, behind the arrival of its input. -/
theorem exists_round (setup : Setup) {s next : Main} {outside : Outside} {events : List Event}
    (step : (arrive s outside).step setup outside.answers = some (next, events)) :
    ∃ trace, Run (Main.Step setup) s trace next := by
  obtain ⟨trace, run⟩ := exists_arrive setup s outside
  exact ⟨_, run.snoc (.cpu outside.answers step)⟩

/-- The next step reads the position of the DMA, for this buffer. -/
def position (s : Main) : Option Nat :=
  match s.pc with
  | .readLoop => if s.file.eof then none else some s.bufferIndex
  | .fillAll index count => if count < raspdifBufferCount then some index else none
  | _ => none

/-- `microsleep` for the time of a buffer, whose conversion may be undefined. -/
def delay : Option (BitVec 32) → Prog Unit
  | some microseconds => microsleep microseconds
  | none => do
      let microseconds ← ask .undefinedConversion
      microsleep microseconds

/-- `bcm283x_dma_get_control_block`, and the delay when the DMA is at the buffer. -/
def testPosition (setup : Setup) (sampleRate : ℚ) (answers : Answers) : Option Nat → Prog Unit
  | none => pure ()
  | some index => do
      let g ← getState
      bcm283xDmaGetChannel g.dmaChannel
      when (answers.conblkAd = setup.controlBlock index)
        (delay (perSample sampleRate (bufferDelay sampleRate)))

/-- Between the preload and the read loop. -/
def startTransmit : Prog Unit := do
  logPrint .info
  let g ← getState
  bcm283xDmaEnable g.dmaChannel true
  bcm283xPcmEnable true false
  ask .fcntl

/-- Behind `raspdif_fill_buffers`. -/
def waitForInput (pcmDisable : Bool) : Prog Unit := do
  when (pcmDisable = true) do
    bcm283xPcmEnable false false
    logPrint .debug
  ask .poll
  when (pcmDisable = true) do
    bcm283xPcmEnable true false
    logPrint .debug
  logPrint .debug

/-- The calls of a step that leaves `pc` for `next`. -/
def stepCalls (pcmDisable : Bool) (pc next : Pc) : Prog Unit := do
  when (pc = .preload ∧ next = .readLoop) startTransmit
  when (pc = .poll) (waitForInput pcmDisable)

/-- The loops of `main`, for so many steps at most. -/
def stream (setup : Setup) (arguments : RaspdifArguments) : Nat → Main → Prog Unit
  | 0, _ => .cut
  | rounds + 1, s =>
      if s.pc = .finished then pure ()
      else do
        let outside ← ask .outside
        let here := arrive s outside
        testPosition setup arguments.sampleRate outside.answers (position here)
        match here.step setup outside.answers with
        -- A blocking `fread` is still waiting.
        | none => stream setup arguments rounds here
        | some (next, _) => do
            stepCalls arguments.pcmDisable here.pc next.pc
            stream setup arguments rounds next

/-! ## The program -/

/-- `main`, from the return of `register_signal_handler` on. -/
def mainRegistered (rounds : Nat) (arguments : RaspdifArguments) : Prog Unit := do
  when (arguments.verbose = true) (logSetLevel .debug)
  let pi4 ← ask .bcmHostIsModelPi4
  raspdifInit (if pi4 then 5 else 13) arguments.sampleRate
  let opened ← ask (.openInput arguments.file)
  when (opened = false) (logPrint .fatal)
  logPrint .info
  logPrint .info
  let g ← getState
  -- The firmware was asked to fill the block with zeros.
  stream ⟨arguments.format, arguments.keepAlive, g.controlBus⟩ arguments rounds
    (Main.start fun _ => .zero)
  raspdifShutdown

def main (rounds : Nat) : Prog Unit := do
  let parsed ← ask .argpParse
  match parsed with
  | none => .exit
  | some arguments => do
      registerSignalHandler
      mainRegistered rounds arguments

end Raspdif.Process
