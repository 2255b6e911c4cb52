import Raspdif.Process.Liveness
import Raspdif.Process.Transmission

/-!
# The rounds of the loops

What the loops of `main` have come to is determined by the answers that the process has had:
`Loops` follows them.  `Loops.Allows` says which calls belong where, and every run keeps to
it (`callsAllowed`): the block of memory is locked before the first round, and the DMA is
activated once, behind the round in which the preload is left.
-/

namespace Raspdif.Process

open Interaction Program Trace

/-! ## Loops -/

structure Loops where
  /-- Where the block of memory was locked last, as a bus address. -/
  bus : BitVec 32
  main : Main
  /-- Of the program and its input. -/
  events : List Event
  /-- There was a round. -/
  begun : Bool
  /-- A DMA channel was activated. -/
  started : Bool

def Loops.start (bus : BitVec 32) : Loops where
  bus := bus
  main := Main.start fun _ => .zero
  events := []
  begun := false
  started := false

def RaspdifArguments.setup (arguments : RaspdifArguments) (bus : BitVec 32) : Setup where
  format := arguments.format
  keepAlive := arguments.keepAlive
  bus := bus

/-- The events of `arrive`. -/
def arrivalEvents (s : Main) (outside : Outside) : List Event :=
  if s.file.closed then []
  else .delivered outside.bytes :: if outside.closed then [.closed] else []

def Loops.round (arguments : RaspdifArguments) (l : Loops) (outside : Outside) : Loops :=
  let moved := Process.round (arguments.setup l.bus) l.main outside
  { l with
    main := moved.1
    events := l.events ++ (arrivalEvents l.main outside ++ moved.2)
    begun := true }

def Loops.answered (arguments : RaspdifArguments) (l : Loops) :
    (call : EnvCall) → call.Answer → Loops
  | .ioctl (.lockMemory _), reply => if reply.Granted then { l with bus := reply.value } else l
  | .dma _ (.csActive true), _ => { l with started := true }
  | .outside, outside => l.round arguments outside
  | _, _ => l

def Loops.record (arguments : RaspdifArguments) (l : Loops) (e : EnvEvent) : Loops :=
  l.answered arguments e.op e.answer

/-- The calls that belong here. -/
def Loops.Allows (l : Loops) : EnvCall → Prop
  | .ioctl (.lockMemory _) => l.begun = false
  | .dma _ (.csActive true) => l.started = false ∧ l.main.pc ≠ .preload
  | .outside => l.started = true ↔ l.main.pc ≠ .preload
  | _ => True

def loopMonitor (arguments : RaspdifArguments) : Monitor Loops environment where
  record := Loops.record arguments
  Allows := Loops.Allows

def loopRegime (arguments : RaspdifArguments) : Regime (Watched Loops) where
  record := (loopMonitor arguments).watch
  during w _ := w.kept
  exited _ _ := True
  aborted _ _ := True

/-! ## Calls that the loops do not see -/

namespace Rounds

def Aside : EnvCall → Bool
  | .outside | .ioctl (.lockMemory _) | .dma _ (.csActive true) => false
  | _ => true

theorem aside_answered {call : EnvCall} (aside : Aside call = true) (arguments : RaspdifArguments)
    (l : Loops) (answer : call.Answer) : l.answered arguments call answer = l := by
  unfold Loops.answered
  split
  case h_1 | h_2 | h_3 => cases aside
  case h_4 => rfl

theorem aside_allows {call : EnvCall} (aside : Aside call = true) (l : Loops) : l.Allows call := by
  unfold Loops.Allows
  split
  case h_1 | h_2 | h_3 => cases aside
  case h_4 => trivial

section

variable {τ : Type} {view : Globals → τ}

theorem makes_ask {call : EnvCall} (aside : Aside call = true) :
    (ask call).Makes (I := environment) (Aside ·) view :=
  makes_perform aside

theorem makes_logPrint (level : LogLevel) :
    (logPrint level).Makes (I := environment) (Aside ·) view := by
  apply makes_bind makes_getState
  intro g
  apply makes_ite
  · exact fun _ => makes_pure _
  · exact fun _ => makes_ite (fun _ => makes_exit) fun _ => makes_pure _

theorem makes_mailboxRequest {message : MailboxMessage} (error : BitVec 32)
    (aside : Aside (.ioctl message) = true) :
    (mailboxRequest message error).Makes (I := environment) (Aside ·) view := by
  have send : (mailboxSend message).Makes (I := environment) (Aside ·) view := by
    apply makes_bind (makes_ask rfl)
    intro mbox
    apply makes_ite
    · exact fun _ => makes_bind (makes_logPrint _) fun _ => makes_pure _
    intro _
    apply makes_bind (makes_ask aside)
    intro reply
    apply makes_bind (makes_when (makes_logPrint _))
    intro _
    apply makes_bind (makes_ask rfl)
    intro closed
    exact makes_bind (makes_when (makes_logPrint _)) fun _ => makes_pure _
  apply makes_bind send
  intro response
  apply makes_ite fun _ => makes_pure _
  intro _
  apply makes_ite fun _ => makes_pure _
  intro _
  exact makes_ite (fun _ => makes_pure _) fun _ => makes_pure _

theorem makes_memoryReleasePhysical (memory : MemoryPhysical) :
    (memoryReleasePhysical memory).Makes (I := environment) (Aside ·) view := by
  apply makes_bind (makes_mailboxRequest _ rfl)
  intro result
  apply makes_ite
  · exact fun _ => makes_bind (makes_logPrint _) fun _ => makes_pure _
  intro _
  apply makes_bind (makes_mailboxRequest _ rfl)
  intro result
  apply makes_ite
  · exact fun _ => makes_bind (makes_logPrint _) fun _ => makes_pure _
  · exact fun _ => makes_pure _

theorem makes_memoryMapPhysical (offset length : BitVec 32) :
    (memoryMapPhysical offset length).Makes (I := environment) (Aside ·) view := by
  have gaveUp : (logPrint .fatal >>= fun _ => pure 0 : Prog Nat).Makes (I := environment)
      (Aside ·) view :=
    makes_bind (makes_logPrint _) fun _ => makes_pure _
  apply makes_bind (makes_ask rfl)
  intro file
  apply makes_ite fun _ => gaveUp
  intro _
  apply makes_bind (makes_ask rfl)
  intro mapped
  cases mapped with
  | none => exact gaveUp
  | some virtual =>
      apply makes_bind (makes_ask rfl)
      intro result
      apply makes_bind (makes_when (makes_logPrint _))
      intro _
      exact makes_bind (makes_logPrint _) fun _ => makes_pure _

/-! ## Drivers -/

theorem makes_bcm283xClockGetPeripheralClock :
    bcm283xClockGetPeripheralClock.Makes (I := environment) (Aside ·) view := by
  apply makes_bind makes_getState
  intro g
  exact makes_bind makes_assert fun _ => makes_assert

theorem makes_bcm283xClockEnable (enable : Bool) :
    (bcm283xClockEnable enable).Makes (I := environment) (Aside ·) view := by
  apply makes_bind makes_bcm283xClockGetPeripheralClock
  intro _
  exact makes_bind (makes_ask rfl) fun control => makes_ask rfl

theorem makes_bcm283xClockConfigure (config : ClockConfiguration) :
    (bcm283xClockConfigure config).Makes (I := environment) (Aside ·) view := by
  apply makes_bind makes_assert
  intro _
  apply makes_bind makes_bcm283xClockGetPeripheralClock
  intro _
  apply makes_bind (makes_ask rfl)
  intro control
  apply makes_bind (makes_ask rfl)
  intro _
  apply makes_bind (makes_ask rfl)
  intro _
  exact makes_bind (makes_ask rfl) fun _ => makes_ask rfl

theorem makes_bcm283xDmaGetChannel (channel : Nat) :
    (bcm283xDmaGetChannel channel).Makes (I := environment) (Aside ·) view := by
  apply makes_bind makes_getState
  intro g
  exact makes_bind makes_assert fun _ => makes_assert

theorem makes_bcm283xDmaReset (channel : Nat) :
    (bcm283xDmaReset channel).Makes (I := environment) (Aside ·) view := by
  apply makes_bind (makes_bcm283xDmaGetChannel channel)
  intro _
  apply makes_performAll
  intro own member
  simp only [List.map_cons, List.map_nil, List.mem_cons, List.not_mem_nil, or_false] at member
  rcases member with rfl | rfl | rfl | rfl | rfl | rfl <;> trivial

theorem makes_bcm283xDmaSetControlBlock (channel : Nat) (control : BitVec 32) :
    (bcm283xDmaSetControlBlock channel control).Makes (I := environment) (Aside ·) view := by
  apply makes_bind makes_assert
  intro _
  exact makes_bind (makes_bcm283xDmaGetChannel channel) fun _ => makes_ask rfl

theorem makes_bcm283xDmaDisable (channel : Nat) :
    (bcm283xDmaEnable channel false).Makes (I := environment) (Aside ·) view :=
  makes_bind (makes_bcm283xDmaGetChannel channel) fun _ => makes_ask rfl

theorem makes_bcm283xGpioConfigureMask (mask : BitVec 32) (config : GpioConfiguration) :
    (bcm283xGpioConfigureMask mask config).Makes (I := environment) (Aside ·) view := by
  apply makes_bind makes_getState
  intro g
  exact makes_bind makes_assert fun _ => makes_ask rfl

theorem makes_pcmStores (stores : List PcmStore) :
    (pcmStores stores).Makes (I := environment) (Aside ·) view := by
  apply makes_performAll
  intro own member
  obtain ⟨store, -, rfl⟩ := List.mem_map.mp member
  trivial

theorem makes_microsleep (microseconds : BitVec 32) :
    (microsleep microseconds).Makes (I := environment) (Aside ·) view := by
  unfold microsleep
  cases Raspdif.microsleep microseconds with
  | some delay => exact makes_ask rfl
  | none => trivial

theorem makes_assertPcm : assertPcm.Makes (I := environment) (Aside ·) view :=
  makes_bind makes_getState fun _ => makes_assert

theorem makes_bcm283xPcmReset : bcm283xPcmReset.Makes (I := environment) (Aside ·) view := by
  apply makes_bind makes_assertPcm
  intro _
  apply makes_bind (makes_pcmStores _)
  intro _
  exact makes_bind (makes_microsleep _) fun _ => makes_pcmStores _

theorem makes_bcm283xPcmClearFifos :
    bcm283xPcmClearFifos.Makes (I := environment) (Aside ·) view := by
  apply makes_bind makes_assertPcm
  intro _
  apply makes_bind (makes_pcmStores _)
  intro _
  apply makes_bind makes_assertPcm
  intro _
  apply makes_bind (makes_pcmStores _)
  intro _
  apply makes_bind (makes_ask rfl)
  intro _
  exact makes_bind (makes_pcmStores _) fun _ => makes_ask rfl

theorem makes_bcm283xPcmConfigureDma (enable : Bool) (config : PcmDmaConfig) :
    (bcm283xPcmConfigureDma enable config).Makes (I := environment) (Aside ·) view := by
  apply makes_bind makes_assertPcm
  intro _
  apply makes_bind makes_assert
  intro _
  apply makes_bind makes_assert
  intro _
  apply makes_bind makes_assert
  intro _
  exact makes_bind makes_assert fun _ => makes_pcmStores _

theorem makes_bcm283xPcmConfigureTransmitChannels (channel1 channel2 : Option PcmChannelConfig) :
    (bcm283xPcmConfigureTransmitChannels channel1 channel2).Makes (I := environment) (Aside ·)
      view := by
  apply makes_bind makes_assertPcm
  intro _
  exact makes_bind (makes_pcmStores _) fun _ => makes_pcmStores _

theorem makes_bcm283xPcmConfigure (config : PcmConfiguration) :
    (bcm283xPcmConfigure config).Makes (I := environment) (Aside ·) view := by
  apply makes_bind makes_assertPcm
  intro _
  apply makes_bind (makes_pcmStores _)
  intro _
  apply makes_bind (makes_microsleep _)
  intro _
  exact makes_bind (makes_pcmStores _) fun _ => makes_microsleep _

theorem makes_driverInit {saved : Globals → Nat} {save : Globals → Globals} (base : Nat)
    (same : ∀ g, view (save g) = view g) :
    (driverInit saved save base).Makes (I := environment) (Aside ·) view := by
  apply makes_bind makes_assert
  intro _
  apply makes_bind makes_getState
  intro g
  exact makes_bind makes_assert fun _ => makes_update same

/-! ## Start and end -/

/-- The control block is not touched. -/
theorem makes_bcm283xInit : bcm283xInit.Makes (I := environment) (Aside ·) Globals.controlBus := by
  apply makes_bind makes_getState
  intro g
  apply makes_ite fun _ => makes_logPrint _
  intro _
  apply makes_bind (makes_ask rfl)
  intro physicalBase
  apply makes_bind (makes_ask rfl)
  intro length
  apply makes_bind (makes_memoryMapPhysical _ _)
  intro virtualBase
  apply makes_bind
  · exact makes_update fun _ => rfl
  intro _
  apply makes_ite fun _ => makes_logPrint _
  intro _
  apply makes_bind
  · exact makes_driverInit _ fun _ => rfl
  intro _
  apply makes_bind
  · exact makes_driverInit _ fun _ => rfl
  intro _
  apply makes_bind
  · exact makes_driverInit _ fun _ => rfl
  intro _
  exact makes_driverInit _ fun _ => rfl

theorem makes_configurePeripherals (bus : BitVec 32) (sampleRateHz : ℚ) :
    (configurePeripherals bus sampleRateHz).Makes (I := environment) (Aside ·) view := by
  have converted (config : Option ClockConfiguration) :
      (convertDivisor config).Makes (I := environment) (Aside ·) view := by
    cases config with
    | some config => exact makes_pure config
    | none =>
        apply makes_bind (makes_ask rfl)
        intro divi
        exact makes_bind (makes_ask rfl) fun divf => makes_pure _
  apply makes_bind makes_getState
  intro g
  apply makes_bind (makes_bcm283xDmaReset _)
  intro _
  apply makes_bind makes_getState
  intro g
  apply makes_bind (makes_bcm283xDmaSetControlBlock _ _)
  intro _
  apply makes_bind (makes_logPrint _)
  intro _
  apply makes_bind (makes_ask rfl)
  intro pi4
  apply makes_bind (converted _)
  intro config
  apply makes_bind (makes_logPrint _)
  intro _
  apply makes_bind (makes_bcm283xClockConfigure _)
  intro _
  apply makes_bind (makes_bcm283xClockEnable _)
  intro _
  apply makes_bind makes_bcm283xPcmReset
  intro _
  apply makes_bind (makes_bcm283xPcmConfigure _)
  intro _
  apply makes_bind (makes_bcm283xPcmConfigureDma _ _)
  intro _
  apply makes_bind (makes_bcm283xPcmConfigureTransmitChannels _ _)
  intro _
  exact makes_bind makes_bcm283xPcmClearFifos fun _ => makes_bcm283xGpioConfigureMask _ _

theorem makes_raspdifShutdown : raspdifShutdown.Makes (I := environment) (Aside ·) view := by
  apply makes_bind (makes_ask rfl)
  intro _
  apply makes_bind makes_bcm283xPcmReset
  intro _
  apply makes_bind (makes_bcm283xClockEnable _)
  intro _
  apply makes_bind makes_getState
  intro g
  apply makes_bind (makes_bcm283xDmaDisable _)
  intro _
  apply makes_bind makes_getState
  intro g
  exact makes_bind (makes_memoryReleasePhysical _) fun _ => makes_pure _

/-! ## Loops -/

theorem makes_testPosition (setup : Setup) (sampleRate : ℚ) (answers : Answers)
    (index : Option Nat) :
    (testPosition setup sampleRate answers index).Makes (I := environment) (Aside ·) view := by
  have delayed (computed : Option (BitVec 32)) :
      (delay computed).Makes (I := environment) (Aside ·) view := by
    cases computed with
    | some microseconds => exact makes_microsleep microseconds
    | none => exact makes_bind (makes_ask rfl) fun microseconds => makes_microsleep _
  cases index with
  | none => trivial
  | some index =>
      apply makes_bind makes_getState
      intro g
      exact makes_bind (makes_bcm283xDmaGetChannel _) fun _ => makes_when (delayed _)

theorem makes_waitForInput (pcmDisable : Bool) :
    (waitForInput pcmDisable).Makes (I := environment) (Aside ·) view := by
  have switched (transmit : Bool) : (do
      bcm283xPcmEnable transmit false
      logPrint .debug : Prog Unit).Makes (I := environment) (Aside ·) view :=
    makes_bind (makes_pcmStores _) fun _ => makes_logPrint _
  apply makes_bind (makes_when (switched false))
  intro _
  apply makes_bind (makes_ask rfl)
  intro _
  exact makes_bind (makes_when (switched true)) fun _ => makes_logPrint _

end

/-! ## What `main` keeps to -/

section

variable {arguments : RaspdifArguments} {inMain : Prop} {l : Loops} {g : Globals} {α : Type}

theorem meets_aside {τ : Type} {view : Globals → τ} {p : Prog α}
    {post : α → Watched Loops → Globals → Prop}
    (makes : p.Makes (I := environment) (Aside ·) view)
    (met : ∀ value g', view g' = view g → post value ⟨l, True⟩ g') :
    p.Meets ((loopRegime arguments).contract inMain) post ⟨l, True⟩ g := by
  refine meets_of_makes makes (fun _ _ => trivial) (fun _ _ => trivial)
    (fun _ _ => Or.inr trivial) (fun call aside answer => ?_) met
  have same : l.answered arguments call answer = l := aside_answered aside arguments l answer
  have kept : True ∧ l.Allows call := ⟨trivial, aside_allows aside l⟩
  change (⟨l.answered arguments call answer, True ∧ l.Allows call⟩ : Watched Loops) = _
  rw [same, eq_true kept]

/-- A program that writes nothing either. -/
theorem meets_still {p : Prog α} {post : α → Watched Loops → Globals → Prop}
    (makes : p.Makes (I := environment) (Aside ·) id) (met : ∀ value, post value ⟨l, True⟩ g) :
    p.Meets ((loopRegime arguments).contract inMain) post ⟨l, True⟩ g := by
  apply meets_aside makes
  intro value g' same
  obtain rfl : g' = g := same
  exact met value

theorem meets_allowed {call : EnvCall} {post : call.Answer → Watched Loops → Globals → Prop}
    (allowed : l.Allows call)
    (met : ∀ answer, post answer ⟨l.answered arguments call answer, True⟩ g) :
    (ask call).Meets ((loopRegime arguments).contract inMain) post ⟨l, True⟩ g := by
  refine meets_perform.mpr ⟨trivial, fun answer _ => ?_⟩
  have kept : True ∧ l.Allows call := ⟨trivial, allowed⟩
  change post answer ⟨l.answered arguments call answer, True ∧ l.Allows call⟩ g
  rw [eq_true kept]
  exact met answer

/-- `LOGF` does not return. -/
theorem meets_fatal {post : Unit → Watched Loops → Globals → Prop} :
    (logPrint .fatal).Meets ((loopRegime arguments).contract inMain) post ⟨l, True⟩ g := by
  apply meets_bind.mpr
  refine meets_getState.mpr ⟨trivial, ?_⟩
  rw [if_neg, if_pos rfl]
  · exact ⟨trivial, trivial⟩
  · cases g.minLevel <;> decide

theorem meets_mailboxLockMemory {handle : BitVec 32}
    {post : BitVec 32 → Watched Loops → Globals → Prop} (early : l.begun = false)
    (met : ∀ value bus, value = 0 ∨ value = bus → post value ⟨{ l with bus := bus }, True⟩ g) :
    (mailboxLockMemory handle).Meets ((loopRegime arguments).contract inMain) post
      ⟨l, True⟩ g := by
  apply meets_bind.mpr
  apply meets_bind.mpr
  apply meets_still (makes_ask rfl)
  intro mbox
  apply meets_ite.mpr
  constructor
  · intro failed
    apply meets_bind.mpr
    apply meets_still (makes_logPrint _)
    intro _
    exact meets_ite.mpr ⟨fun _ => met 0 l.bus (Or.inl rfl),
      fun impossible => absurd (by decide) impossible⟩
  intro opened
  apply meets_bind.mpr
  have allowed : l.Allows (.ioctl (.lockMemory handle)) := early
  apply meets_allowed allowed
  intro reply
  obtain ⟨bus, locked, granted⟩ : ∃ bus,
      l.answered arguments (.ioctl (.lockMemory handle)) reply = { l with bus := bus } ∧
        (reply.Granted → reply.value = bus) := by
    by_cases granted : reply.Granted
    · exact ⟨reply.value, if_pos granted, fun _ => rfl⟩
    · exact ⟨l.bus, if_neg granted, fun yes => absurd yes granted⟩
  rw [locked]
  apply meets_bind.mpr
  apply meets_still (makes_when (makes_logPrint _))
  intro _
  apply meets_bind.mpr
  apply meets_still (makes_ask rfl)
  intro closed
  apply meets_bind.mpr
  apply meets_still (makes_when (makes_logPrint _))
  intro _
  refine meets_ite.mpr ⟨fun _ => met 0 bus (Or.inl rfl), fun ok => ?_⟩
  refine meets_ite.mpr ⟨fun _ => met 0 bus (Or.inl rfl), fun code => ?_⟩
  refine meets_ite.mpr ⟨fun _ => met 0 bus (Or.inl rfl), fun tagCode => ?_⟩
  have value := granted ⟨Int.not_lt.mp ok, not_not.mp code, not_not.mp tagCode⟩
  exact met reply.value bus (Or.inr value)

theorem meets_memoryAllocatePhysical {length : BitVec 32}
    {post : MemoryPhysical → Watched Loops → Globals → Prop} (early : l.begun = false)
    (met : ∀ memory bus, memory.address = 0 ∨ memory.address = bus →
      post memory ⟨{ l with bus := bus }, True⟩ g) :
    (memoryAllocatePhysical length).Meets ((loopRegime arguments).contract inMain) post
      ⟨l, True⟩ g := by
  apply meets_bind.mpr
  apply meets_still (makes_ask rfl)
  intro pageSize
  apply meets_bind.mpr
  apply meets_still (makes_mailboxRequest _ rfl)
  intro handle
  apply meets_ite.mpr
  constructor
  · intro failed
    apply meets_bind.mpr
    apply meets_still (makes_logPrint _)
    exact fun _ => met ⟨handle, 0⟩ l.bus (Or.inl rfl)
  intro allocated
  apply meets_bind.mpr
  apply meets_mailboxLockMemory early
  intro address bus located
  have logged (level : LogLevel) :
      (logPrint level >>= fun _ => pure (MemoryPhysical.mk handle address)).Meets
        ((loopRegime arguments).contract inMain) post ⟨{ l with bus := bus }, True⟩ g := by
    apply meets_bind.mpr
    apply meets_still (makes_logPrint _)
    exact fun _ => met ⟨handle, address⟩ bus located
  exact meets_ite.mpr ⟨fun _ => logged _, fun _ => logged _⟩

/-- The control structure is where the block was locked. -/
theorem meets_raspdifInit {channel : Nat} {sampleRateHz : ℚ}
    {post : Unit → Watched Loops → Globals → Prop} (early : l.begun = false)
    (met : ∀ g bus, g.controlBus = bus → post () ⟨{ l with bus := bus }, True⟩ g) :
    (raspdifInit channel sampleRateHz).Meets ((loopRegime arguments).contract True) post
      ⟨l, True⟩ g := by
  apply meets_bind.mpr
  apply meets_still (makes_ask rfl)
  intro _
  apply meets_bind.mpr
  apply meets_aside makes_bcm283xInit
  intro _ g₁ _
  apply meets_bind.mpr
  refine meets_update.mpr ⟨trivial, ?_⟩
  apply meets_bind.mpr
  apply meets_still (makes_logPrint _)
  intro _
  apply meets_bind.mpr
  apply meets_memoryAllocatePhysical early
  intro memory bus located
  apply meets_bind.mpr
  refine meets_when.mpr ⟨fun _ => meets_fatal, fun some_address => ?_⟩
  obtain rfl := located.resolve_left some_address
  apply meets_bind.mpr
  refine meets_update.mpr ⟨trivial, ?_⟩
  apply meets_bind.mpr
  apply meets_still (makes_ask rfl)
  intro sdram
  apply meets_bind.mpr
  apply meets_still (makes_memoryMapPhysical _ _)
  intro virtualBase
  apply meets_bind.mpr
  apply meets_still (makes_when (makes_bind (makes_memoryReleasePhysical _) fun _ =>
    makes_logPrint _))
  intro _
  apply meets_bind.mpr
  refine meets_assert.mpr ⟨fun _ => ?_, fun _ => ⟨trivial, Or.inl trivial⟩⟩
  apply meets_bind.mpr
  refine meets_update.mpr ⟨trivial, ?_⟩
  apply meets_still (makes_configurePeripherals _ _)
  exact fun _ => met _ memory.address rfl

/-- The DMA is activated behind the round in which the preload is left. -/
theorem meets_startTransmit {post : Unit → Watched Loops → Globals → Prop}
    (idle : l.started = false) (left : l.main.pc ≠ .preload)
    (met : post () ⟨{ l with started := true }, True⟩ g) :
    startTransmit.Meets ((loopRegime arguments).contract inMain) post ⟨l, True⟩ g := by
  apply meets_bind.mpr
  apply meets_still (makes_logPrint _)
  intro _
  apply meets_bind.mpr
  refine meets_getState.mpr ⟨trivial, ?_⟩
  apply meets_bind.mpr
  apply meets_bind.mpr
  apply meets_still (makes_bcm283xDmaGetChannel _)
  intro _
  have allowed : l.Allows (.dma g.dmaChannel (.csActive true)) := ⟨idle, left⟩
  apply meets_allowed allowed
  intro _
  apply meets_bind.mpr
  apply meets_still (makes_pcmStores _)
  intro _
  apply meets_still (makes_ask rfl)
  exact fun _ => met

theorem meets_stepCalls {pcmDisable : Bool} {pc next : Pc}
    {post : Unit → Watched Loops → Globals → Prop} (here : l.main.pc = next)
    (begins : l.started = true ↔ pc ≠ .preload)
    (leaves : pc = .preload → next = .preload ∨ next = .readLoop)
    (later : pc ≠ .preload → next ≠ .preload)
    (met : ∀ started, (started = true ↔ next ≠ .preload) →
      post () ⟨{ l with started := started }, True⟩ g) :
    (stepCalls pcmDisable pc next).Meets ((loopRegime arguments).contract inMain) post
      ⟨l, True⟩ g := by
  apply meets_bind.mpr
  apply meets_when.mpr
  constructor
  · rintro ⟨rfl, rfl⟩
    have idle : l.started = false := Bool.eq_false_iff.mpr fun started => begins.mp started rfl
    have left : l.main.pc ≠ .preload := by
      rw [here]
      exact Pc.noConfusion
    apply meets_startTransmit idle left
    apply meets_still (makes_when (makes_waitForInput _))
    exact fun _ => met true ⟨fun _ => Pc.noConfusion, fun _ => rfl⟩
  · intro stays
    apply meets_still (makes_when (makes_waitForInput _))
    intro _
    refine met l.started ⟨fun started => later (begins.mp started), fun loops => ?_⟩
    apply begins.mpr
    intro preload
    rcases leaves preload with again | reads
    · exact loops again
    · exact stays ⟨preload, reads⟩

theorem meets_stream {rounds : Nat} {post : Unit → Watched Loops → Globals → Prop}
    (begins : l.started = true ↔ l.main.pc ≠ .preload) (met : ∀ l, post () ⟨l, True⟩ g) :
    (stream (arguments.setup l.bus) arguments rounds l.main).Meets
      ((loopRegime arguments).contract True) post ⟨l, True⟩ g := by
  induction rounds generalizing l with
  | zero => trivial
  | succ rounds ih =>
      apply meets_ite.mpr
      refine ⟨fun _ => met l, fun _ => ?_⟩
      apply meets_bind.mpr
      have allowed : l.Allows .outside := begins
      apply meets_allowed allowed
      intro outside
      apply meets_bind.mpr
      apply meets_still (makes_testPosition _ _ _ _)
      intro _
      have pc : (arrive l.main outside).pc = l.main.pc := Access.arrive_pc l.main outside
      change Meets _ _ _ (⟨l.round arguments outside, True⟩ : Watched Loops) g
      cases ran : (arrive l.main outside).step (arguments.setup l.bus) outside.answers with
      | none =>
          have here : (l.round arguments outside).main = arrive l.main outside := by
            simp only [Loops.round, Process.round, ran]
          rw [← pc, ← here] at begins
          have stays := ih (l := l.round arguments outside) begins
          rw [here] at stays
          exact stays
      | some moved =>
          have here : (l.round arguments outside).main = moved.1 := by
            simp only [Loops.round, Process.round, ran]
          obtain ⟨leaves, later⟩ := Access.pc_of_step ran
          rw [← pc] at begins
          apply meets_bind.mpr
          apply meets_stepCalls (congrArg Main.pc here) begins leaves later
          intro started begins'
          rw [← here] at begins' ⊢
          exact ih (l := { l.round arguments outside with started := started }) begins'

end

theorem handles_loopRegime {arguments : RaspdifArguments} : (loopRegime arguments).Handles := by
  intro w g during
  obtain ⟨l, kept⟩ := w
  obtain rfl := eq_true during
  apply meets_bind.mpr
  apply meets_still (makes_logPrint _)
  intro _
  apply meets_bind.mpr
  apply meets_still makes_raspdifShutdown
  exact fun _ => ⟨trivial, trivial⟩

theorem meets_mainRegistered (rounds : Nat) (arguments : RaspdifArguments) (bus : BitVec 32) :
    (mainRegistered rounds arguments).Meets ((loopRegime arguments).contract True)
      (fun _ w g => (loopRegime arguments).during w g ∧ (loopRegime arguments).exited w g)
      ⟨.start bus, True⟩ .initial := by
  apply meets_bind.mpr
  have verbose : (when (arguments.verbose = true) (logSetLevel .debug)).Makes (I := environment)
      (Aside ·) Globals.controlBus := by
    apply makes_when
    exact makes_update fun _ => rfl
  apply meets_aside verbose
  intro _ g _
  apply meets_bind.mpr
  apply meets_still (makes_ask rfl)
  intro pi4
  apply meets_bind.mpr
  apply meets_raspdifInit rfl
  rintro g bus rfl
  apply meets_bind.mpr
  apply meets_still (makes_ask rfl)
  intro opened
  apply meets_bind.mpr
  apply meets_still (makes_when (makes_logPrint _))
  intro _
  apply meets_bind.mpr
  apply meets_still (makes_logPrint _)
  intro _
  apply meets_bind.mpr
  apply meets_still (makes_logPrint _)
  intro _
  apply meets_bind.mpr
  refine meets_getState.mpr ⟨trivial, ?_⟩
  apply meets_bind.mpr
  apply meets_stream (l := .start g.controlBus)
  · exact ⟨fun started => absurd started Bool.false_ne_true, fun loop => absurd rfl loop⟩
  intro l
  apply meets_still makes_raspdifShutdown
  exact fun _ => ⟨trivial, trivial⟩

end Rounds

/-! ## Runs -/

/-- In every run each call belongs where it is made. -/
theorem callsAllowed {rounds : Nat} {arguments : RaspdifArguments} {trace : List Occurrence}
    {m : Machine} (run : Run Machine.Step (Machine.start rounds arguments) trace m)
    (bus : BitVec 32) :
    (loopMonitor arguments).AllowsEach (.start bus) (envCalls trace) := by
  have kept := Regime.Kept.of_run Rounds.handles_loopRegime
    (Rounds.meets_mainRegistered rounds arguments bus) run
  have during := kept.during
  have after : (loopRegime arguments).after ⟨.start bus, True⟩ trace =
      ⟨(loopMonitor arguments).after (.start bus) (envCalls trace),
        True ∧ (loopMonitor arguments).AllowsEach (.start bus) (envCalls trace)⟩ :=
    (loopMonitor arguments).foldl_watch ⟨.start bus, True⟩ (envCalls trace)
  rw [after] at during
  exact during.2

end Raspdif.Process
