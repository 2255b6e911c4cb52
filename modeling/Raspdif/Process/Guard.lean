import Raspdif.Process.Hardware

/-!
# What each function does to the peripherals

One lemma for each function of the process, under `accessRegime`: its accesses are allowed,
and it returns with the registers that the lemma names.
-/

namespace Raspdif.Process.Access

open Interaction Program BitField

/-! ## Calls that change no peripheral -/

/-- A call that tells nothing of them. -/
def Harmless : EnvCall → Prop
  | .pcm _ | .dma _ _ | .writeClockControl _ | .writeClockDivisor _ | .clockIdle
  | .gpioConfigureMask _ _ | .outside | .poll | .bcmHostIsModelPi4 | .bcmHostGetSdramAddress
  | .mmap _ _ | .ioctl (.lockMemory _) | .raspdifInit _ => False
  | _ => True

/-- It gives nothing back either, so that it is always allowed. -/
def Neutral : EnvCall → Prop
  | .ioctl (.unlockMemory _) | .ioctl (.releaseMemory _) => False
  | other => Harmless other

theorem harmless_answered {call : EnvCall} (harmless : Harmless call) (h : Hardware)
    (answer : call.Answer) : h.answered call answer = h := by
  cases call with
  | ioctl message =>
      cases message with
      | lockMemory => exact harmless.elim
      | _ => rfl
  | _ => first | exact harmless.elim | rfl

theorem harmless_allows {call : EnvCall} (harmless : Harmless call) (arguments : RaspdifArguments)
    {h : Hardware} (quiet : h.started = true → h.Quiet) : h.Allows arguments call := by
  cases call with
  | ioctl message =>
      cases message with
      | lockMemory => exact harmless.elim
      | allocateMemory => trivial
      | unlockMemory | releaseMemory => exact fun started => (quiet started).dma
  | _ => first | exact harmless.elim | trivial

theorem neutral_harmless {call : EnvCall} (neutral : Neutral call) : Harmless call := by
  cases call with
  | ioctl message => cases message <;> first | exact neutral.elim | exact neutral
  | _ => exact neutral

theorem neutral_allows {call : EnvCall} (neutral : Neutral call) (arguments : RaspdifArguments)
    (h : Hardware) : h.Allows arguments call := by
  cases call with
  | ioctl message => cases message <;> first | exact neutral.elim | trivial
  | _ => first | exact neutral.elim | trivial

theorem only_ask {call : EnvCall} (harmless : Harmless call) :
    (ask call).Only (I := environment) Harmless :=
  only_perform harmless

theorem only_logPrint (level : LogLevel) :
    (logPrint level).Only (I := environment) Harmless :=
  only_bind (fun _ => trivial) fun _ =>
    only_ite (fun _ => trivial) fun _ => only_ite (fun _ => trivial) fun _ => trivial

theorem only_mailboxRequest {message : MailboxMessage} (error : BitVec 32)
    (harmless : Harmless (.ioctl message)) :
    (mailboxRequest message error).Only (I := environment) Harmless := by
  have send : (mailboxSend message).Only (I := environment) Harmless := by
    refine only_bind (only_ask trivial) fun mbox => only_ite (fun _ => ?_) fun _ => ?_
    · exact only_bind (only_logPrint _) fun _ => trivial
    · refine only_bind (only_ask harmless) fun reply => ?_
      refine only_bind (only_when (only_logPrint _)) fun _ => ?_
      refine only_bind (only_ask trivial) fun closed => ?_
      exact only_bind (only_when (only_logPrint _)) fun _ => trivial
  refine only_bind send fun response => ?_
  exact only_ite (fun _ => trivial) fun _ => only_ite (fun _ => trivial) fun _ =>
    only_ite (fun _ => trivial) fun _ => trivial

theorem only_memoryReleasePhysical (memory : MemoryPhysical) :
    (memoryReleasePhysical memory).Only (I := environment) Harmless := by
  refine only_bind (only_mailboxRequest _ trivial) fun result => only_ite (fun _ => ?_) fun _ => ?_
  · exact only_bind (only_logPrint _) fun _ => trivial
  · refine only_bind (only_mailboxRequest _ trivial) fun result => only_ite (fun _ => ?_) fun _ =>
      trivial
    exact only_bind (only_logPrint _) fun _ => trivial

section

variable {arguments : RaspdifArguments} {inMain : Prop} {h : Hardware} {g : Globals} {α : Type}
  {post : Unit → Watched Hardware → Globals → Prop}

theorem meets_access {call : EnvCall} {post : call.Answer → Watched Hardware → Globals → Prop}
    (stops : h.started = true → Stops h.channel g) (allowed : h.Allows arguments call)
    (met : ∀ answer, post answer ⟨h.answered call answer, True⟩ g) :
    (ask call).Meets ((accessRegime arguments).contract inMain) post ⟨h, True⟩ g := by
  change Meets ((accessMonitor arguments).contract
    (fun h g => h.started = true → Stops h.channel g) (fun h _ => h.started = true → h.Quiet)
    fun h _ => inMain ∨ h.started = false) post (ask call) ⟨h, True⟩ g
  exact Monitor.meets_perform stops allowed met

theorem meets_harmless {p : Prog α} {post : α → Watched Hardware → Globals → Prop}
    (only : p.Only (I := environment) Harmless) (stops : h.started = true → Stops h.channel g)
    (quiet : h.started = true → h.Quiet) (met : ∀ value, post value ⟨h, True⟩ g) :
    p.Meets ((accessRegime arguments).contract inMain) post ⟨h, True⟩ g := by
  refine meets_of_only only ⟨trivial, stops⟩ quiet (fun call harmless answer => ?_) met
  have value : h.answered call answer = h := harmless_answered harmless h answer
  have kept : True ∧ h.Allows arguments call := ⟨trivial, harmless_allows harmless _ quiet⟩
  change (⟨h.answered call answer, True ∧ h.Allows arguments call⟩ : Watched Hardware) = _
  rw [value, eq_true kept]

theorem meets_ask_neutral {call : EnvCall} {post : call.Answer → Watched Hardware → Globals → Prop}
    (neutral : Neutral call) (stops : h.started = true → Stops h.channel g)
    (met : ∀ answer, post answer ⟨h, True⟩ g) :
    (ask call).Meets ((accessRegime arguments).contract inMain) post ⟨h, True⟩ g := by
  refine meets_access stops (neutral_allows neutral _ _) fun answer => ?_
  rw [harmless_answered (neutral_harmless neutral)]
  exact met answer

/-- `LOGF` aside. -/
theorem meets_log {level : LogLevel} (notFatal : level ≠ .fatal)
    (stops : h.started = true → Stops h.channel g) (met : post () ⟨h, True⟩ g) :
    (logPrint level).Meets ((accessRegime arguments).contract inMain) post ⟨h, True⟩ g := by
  refine meets_bind.mpr (meets_getState.mpr ⟨⟨trivial, stops⟩, ?_⟩)
  rw [if_neg notFatal, ite_self]
  exact met

/-- `LOGF`. -/
theorem meets_fatal (stops : h.started = true → Stops h.channel g)
    (quiet : h.started = true → h.Quiet) :
    (logPrint .fatal).Meets ((accessRegime arguments).contract inMain) post ⟨h, True⟩ g := by
  refine meets_bind.mpr (meets_getState.mpr ⟨⟨trivial, stops⟩, ?_⟩)
  rw [if_neg, if_pos rfl]
  · exact ⟨⟨trivial, stops⟩, quiet⟩
  · cases g.minLevel <;> decide

/-- Before the start nothing is asked. -/
theorem of_idle {P : Prop} (idle : h.started = false) (started : h.started = true) : P :=
  absurd (idle.symm.trans started) Bool.false_ne_true

theorem meets_idle {p : Prog α} {post : α → Watched Hardware → Globals → Prop}
    (only : p.Only (I := environment) Harmless) (idle : h.started = false)
    (met : ∀ value, post value ⟨h, True⟩ g) :
    p.Meets ((accessRegime arguments).contract inMain) post ⟨h, True⟩ g :=
  meets_harmless only (of_idle idle) (of_idle idle) met

/-! ## Memory -/

theorem meets_mailboxLockMemory {handle : BitVec 32}
    {post : BitVec 32 → Watched Hardware → Globals → Prop} (idle : h.started = false)
    (failed : ∀ bus, post 0 ⟨{ h with bus := bus }, True⟩ g)
    (met : ∀ bus, post bus ⟨{ h with bus := bus }, True⟩ g) :
    (mailboxLockMemory handle).Meets ((accessRegime arguments).contract inMain) post
      ⟨h, True⟩ g := by
  refine meets_bind.mpr (meets_bind.mpr ?_)
  refine meets_ask_neutral trivial (of_idle idle) fun mbox => ?_
  refine meets_ite.mpr ⟨fun _ => ?_, fun _ => ?_⟩
  · refine meets_bind.mpr (meets_idle (only_logPrint _) idle fun _ => ?_)
    exact meets_ite.mpr ⟨fun _ => failed h.bus, fun impossible => absurd (by decide) impossible⟩
  · refine meets_bind.mpr (meets_access (of_idle idle) trivial fun reply => ?_)
    obtain ⟨bus, locked, granted⟩ : ∃ bus,
        h.answered (.ioctl (.lockMemory handle)) reply = { h with bus := bus } ∧
          (reply.Granted → bus = reply.value) := by
      by_cases granted : reply.Granted
      · exact ⟨reply.value, if_pos granted, fun _ => rfl⟩
      · exact ⟨h.bus, if_neg granted, fun yes => absurd yes granted⟩
    rw [locked]
    have idle' : { h with bus := bus }.started = false := idle
    refine meets_bind.mpr (meets_idle (only_when (only_logPrint _)) idle' fun _ => ?_)
    refine meets_bind.mpr (meets_ask_neutral trivial (of_idle idle') fun closed => ?_)
    refine meets_bind.mpr (meets_idle (only_when (only_logPrint _)) idle' fun _ => ?_)
    refine meets_ite.mpr ⟨fun _ => failed bus, fun ok => ?_⟩
    refine meets_ite.mpr ⟨fun _ => failed bus, fun code => ?_⟩
    refine meets_ite.mpr ⟨fun _ => failed bus, fun tagCode => ?_⟩
    have value : bus = reply.value :=
      granted ⟨Int.not_lt.mp ok, not_not.mp code, not_not.mp tagCode⟩
    rw [← value]
    exact met bus

theorem meets_memoryAllocatePhysical {length : BitVec 32}
    {post : MemoryPhysical → Watched Hardware → Globals → Prop} (idle : h.started = false)
    (failed : ∀ handle bus, post ⟨handle, 0⟩ ⟨{ h with bus := bus }, True⟩ g)
    (met : ∀ handle bus, post ⟨handle, bus⟩ ⟨{ h with bus := bus }, True⟩ g) :
    (memoryAllocatePhysical length).Meets ((accessRegime arguments).contract inMain) post
      ⟨h, True⟩ g := by
  refine meets_bind.mpr (meets_ask_neutral trivial (of_idle idle) fun pageSize => ?_)
  refine meets_bind.mpr (meets_idle (only_mailboxRequest _ trivial) idle fun handle => ?_)
  have returned (h : Hardware) (idle : h.started = false) (memory : MemoryPhysical)
      (level : LogLevel) (met : post memory ⟨h, True⟩ g) :
      (logPrint level >>= fun _ => pure memory).Meets ((accessRegime arguments).contract inMain)
        post ⟨h, True⟩ g :=
    meets_bind.mpr (meets_idle (only_logPrint _) idle fun _ => met)
  refine meets_ite.mpr ⟨fun _ => returned _ idle _ _ (failed handle h.bus), fun _ => ?_⟩
  refine meets_bind.mpr (meets_mailboxLockMemory idle (fun bus => ?_) fun bus => ?_)
  · exact meets_ite.mpr ⟨fun _ => returned { h with bus := bus } idle _ _ (failed handle bus),
      fun some => absurd rfl some⟩
  · have locked (level : LogLevel) :=
      returned { h with bus := bus } idle ⟨handle, bus⟩ level (met handle bus)
    exact meets_ite.mpr ⟨fun _ => locked _, fun _ => locked _⟩

theorem meets_memoryMapPhysical {offset length : BitVec 32}
    {post : Nat → Watched Hardware → Globals → Prop} (idle : h.started = false)
    (failed : post 0 ⟨h, True⟩ g)
    (met : ∀ virtual, post virtual ⟨{ h with mapped := (offset, length) }, True⟩ g) :
    (memoryMapPhysical offset length).Meets ((accessRegime arguments).contract inMain) post
      ⟨h, True⟩ g := by
  have gaveUp : (logPrint .fatal >>= fun _ => pure 0).Meets
      ((accessRegime arguments).contract inMain) post ⟨h, True⟩ g :=
    meets_bind.mpr (meets_idle (only_logPrint _) idle fun _ => failed)
  refine meets_bind.mpr (meets_ask_neutral trivial (of_idle idle) fun file => ?_)
  refine meets_ite.mpr ⟨fun _ => gaveUp, fun _ => ?_⟩
  refine meets_bind.mpr (meets_access (of_idle idle) trivial fun mapped => ?_)
  cases mapped with
  | none => exact gaveUp
  | some virtual =>
      have idle' : { h with mapped := (offset, length) }.started = false := idle
      refine meets_bind.mpr (meets_ask_neutral trivial (of_idle idle') fun result => ?_)
      refine meets_bind.mpr (meets_idle (only_when (only_logPrint _)) idle' fun _ => ?_)
      exact meets_bind.mpr (meets_idle (only_logPrint _) idle' fun _ => met virtual)

/-! ## Several calls -/

theorem meets_askAll_cons {call : EnvCall} {calls : List EnvCall}
    (met : (ask call).Meets ((accessRegime arguments).contract inMain)
      (fun _ w g => (askAll calls).Meets ((accessRegime arguments).contract inMain) post w g)
      ⟨h, True⟩ g) :
    (askAll (call :: calls)).Meets ((accessRegime arguments).contract inMain) post ⟨h, True⟩ g :=
  met

/-- Calls that change nothing here. -/
theorem meets_askAll_still {calls : List EnvCall} (stops : h.started = true → Stops h.channel g)
    (still : ∀ call ∈ calls, h.Allows arguments call ∧ ∀ answer, h.answered call answer = h)
    (met : post () ⟨h, True⟩ g) :
    (askAll calls).Meets ((accessRegime arguments).contract inMain) post ⟨h, True⟩ g := by
  induction calls with
  | nil => exact met
  | cons call calls ih =>
      obtain ⟨⟨allowed, same⟩, later⟩ := List.forall_mem_cons.mp still
      refine meets_askAll_cons (meets_access stops allowed fun answer => ?_)
      rw [same]
      exact ih later

/-! ## Assertions -/

/-- An assertion that holds once the output is started. -/
theorem meets_assert_started {P : Prop} [Decidable P] (stops : h.started = true → Stops h.channel g)
    (holds : Stops h.channel g → P) (met : P → post () ⟨h, True⟩ g) :
    (assert P).Meets ((accessRegime arguments).contract inMain) post ⟨h, True⟩ g := by
  refine meets_assert.mpr ⟨met, fun fails => ⟨⟨trivial, stops⟩, Or.inr ?_⟩⟩
  exact Bool.eq_false_iff.mpr fun started => fails (holds (stops started))

/-- An assertion of `main`. -/
theorem meets_assert_main {P : Prop} [Decidable P] (stops : h.started = true → Stops h.channel g)
    (met : P → post () ⟨h, True⟩ g) :
    (assert P).Meets ((accessRegime arguments).contract True) post ⟨h, True⟩ g :=
  meets_assert.mpr ⟨met, fun _ => ⟨⟨trivial, stops⟩, Or.inl trivial⟩⟩

/-! ## Clock -/

theorem meets_bcm283xClockGetPeripheralClock (stops : h.started = true → Stops h.channel g)
    (met : g.clock ≠ 0 → post () ⟨h, True⟩ g) :
    bcm283xClockGetPeripheralClock.Meets ((accessRegime arguments).contract inMain) post
      ⟨h, True⟩ g := by
  refine meets_bind.mpr (meets_getState.mpr ⟨⟨trivial, stops⟩, ?_⟩)
  refine meets_bind.mpr (meets_assert_started stops Stops.clock fun clock => ?_)
  exact meets_assert_of (Nat.succ_ne_zero _) (met clock)

theorem meets_writeClockControl {word : BitVec 32} (stops : h.started = true → Stops h.channel g)
    (password : ClockControl.passwd.get word = clockManagerPassword)
    (met : post () ⟨{ h with
      clock := { h.clock with ctl := word }
      clockIdle := h.clockIdle && decide (ClockControl.enab.get word = 0) }, True⟩ g) :
    (ask (.writeClockControl word)).Meets ((accessRegime arguments).contract inMain) post
      ⟨h, True⟩ g := by
  refine meets_access stops trivial fun _ => ?_
  rw [Hardware.answered, if_pos password]
  exact met

theorem meets_writeClockDivisor {word : BitVec 32} (idle : h.started = false)
    (disabled : ClockControl.enab.get h.clock.ctl = 0) (waited : h.clockIdle = true)
    (password : ClockDivisor.passwd.get word = clockManagerPassword)
    (met : post () ⟨{ h with clock := { h.clock with div := word } }, True⟩ g) :
    (ask (.writeClockDivisor word)).Meets ((accessRegime arguments).contract inMain) post
      ⟨h, True⟩ g := by
  refine meets_access (of_idle idle) ⟨disabled, waited, idle⟩ fun _ => ?_
  rw [Hardware.answered, if_pos password]
  exact met

/-- A read of the control register that is written back with another `ENAB`. -/
theorem enableWord_password (control : BitVec 32) (enable : Nat) :
    ClockControl.passwd.get (ClockControl.enab.set
      (ClockControl.passwd.set control clockManagerPassword) enable) = clockManagerPassword := by
  have apart : ClockControl.passwd.Apart ClockControl.enab := by decide
  rw [Field.get_set_of_apart apart, Field.get_set_of_lt (by decide)]

theorem meets_bcm283xClockEnable {enable : Bool} (stops : h.started = true → Stops h.channel g)
    (met : g.clock ≠ 0 → ∀ ctl idle, ClockControl.enab.get ctl = enable.toNat →
      post () ⟨{ h with clock := { h.clock with ctl := ctl }, clockIdle := idle }, True⟩ g) :
    (bcm283xClockEnable enable).Meets ((accessRegime arguments).contract inMain) post
      ⟨h, True⟩ g := by
  refine meets_bind.mpr (meets_bcm283xClockGetPeripheralClock stops fun clock => ?_)
  refine meets_bind.mpr (meets_ask_neutral trivial stops fun control => ?_)
  refine meets_writeClockControl stops (enableWord_password control _) (met clock _ _ ?_)
  cases enable <;> exact Field.get_set_of_lt (by decide)

/-- The divisor is written while the clock is disabled and idle. -/
theorem meets_bcm283xClockConfigure {config : ClockConfiguration} (idle : h.started = false)
    (met : config.DivisorOk → ∀ (clock : Bcm283xClock) idle,
      ClockDivisor.divi.get clock.div = config.divi.toNat →
      ClockDivisor.divf.get clock.div = config.divf.toNat →
      post () ⟨{ h with clock := clock, clockIdle := idle }, True⟩ g) :
    (bcm283xClockConfigure config).Meets ((accessRegime arguments).contract True) post
      ⟨h, True⟩ g := by
  have stops : h.started = true → Stops h.channel g := of_idle idle
  refine meets_bind.mpr (meets_assert_main stops fun ok => ?_)
  refine meets_bind.mpr (meets_bcm283xClockGetPeripheralClock stops fun _ => ?_)
  refine meets_bind.mpr (meets_ask_neutral trivial stops fun control => ?_)
  refine meets_bind.mpr (meets_writeClockControl stops (enableWord_password control 0) ?_)
  refine meets_bind.mpr (meets_access stops trivial fun _ => ?_)
  refine meets_bind.mpr (meets_writeClockControl stops ?_ ?_)
  · simp (disch := decide) only [Field.get_set_of_apart, Field.get_set_of_lt]
  have disabled : ClockControl.enab.get (ClockControl.flip.set (ClockControl.mash.set
      (ClockControl.src.set (ClockControl.passwd.set 0 clockManagerPassword) config.source.code)
      config.mash.code) config.invert.toNat) = 0 := by
    simp (disch := decide) only [Field.get_set_of_apart]
    rfl
  refine meets_writeClockDivisor idle disabled (decide_eq_true disabled) ?_ (met ok _ _ ?_ ?_)
  · simp (disch := decide) only [Field.get_set_of_apart, Field.get_set_of_lt]
  · exact (Field.get_set_of_apart (by decide)).trans (Field.get_set_of_lt ok.1.2)
  · exact Field.get_set_of_lt ok.2.2

/-! ## DMA -/

theorem meets_bcm283xDmaGetChannel (stops : h.started = true → Stops h.channel g)
    (met : g.dma ≠ 0 → g.dmaChannel < dmaChannelMax → post () ⟨h, True⟩ g) :
    (bcm283xDmaGetChannel g.dmaChannel).Meets ((accessRegime arguments).contract inMain) post
      ⟨h, True⟩ g := by
  refine meets_bind.mpr (meets_getState.mpr ⟨⟨trivial, stops⟩, ?_⟩)
  refine meets_bind.mpr (meets_assert_started stops Stops.dma fun dma => ?_)
  exact meets_assert_started stops Stops.valid fun valid => met dma valid

theorem meets_bcm283xDmaReset (idle : h.started = false) (own : h.channel = some g.dmaChannel)
    (met : post () ⟨{ h with active := Function.update h.active g.dmaChannel false }, True⟩ g) :
    (bcm283xDmaReset g.dmaChannel).Meets ((accessRegime arguments).contract inMain) post
      ⟨h, True⟩ g := by
  refine meets_bind.mpr (meets_bcm283xDmaGetChannel (of_idle idle) fun _ _ => ?_)
  refine meets_askAll_cons (meets_access (of_idle idle) ⟨own, idle⟩ fun _ => ?_)
  refine meets_askAll_still (of_idle idle) ?_ met
  intro call member
  obtain ⟨store, other, rfl⟩ := List.mem_map.mp member
  simp only [List.mem_cons, List.not_mem_nil, or_false] at other
  rcases other with rfl | rfl | rfl | rfl | rfl <;> exact ⟨⟨own, idle⟩, fun _ => rfl⟩

theorem meets_bcm283xDmaSetControlBlock {control : BitVec 32} (idle : h.started = false)
    (own : h.channel = some g.dmaChannel)
    (met : control &&& 0x1F = 0 → g.dma ≠ 0 → g.dmaChannel < dmaChannelMax →
      post () ⟨{ h with conblkAd := Function.update h.conblkAd g.dmaChannel control }, True⟩ g) :
    (bcm283xDmaSetControlBlock g.dmaChannel control).Meets
      ((accessRegime arguments).contract True) post ⟨h, True⟩ g := by
  refine meets_bind.mpr (meets_assert_main (of_idle idle) fun aligned => ?_)
  refine meets_bind.mpr (meets_bcm283xDmaGetChannel (of_idle idle) fun dma valid => ?_)
  exact meets_access (of_idle idle) ⟨own, idle⟩ fun _ => met aligned dma valid

/-- The channel is disabled. -/
theorem meets_bcm283xDmaDisable (stops : h.started = true → Stops h.channel g)
    (met : post () ⟨{ h with active := Function.update h.active g.dmaChannel false }, True⟩ g) :
    (bcm283xDmaEnable g.dmaChannel false).Meets ((accessRegime arguments).contract inMain) post
      ⟨h, True⟩ g := by
  refine meets_bind.mpr (meets_bcm283xDmaGetChannel stops fun _ _ => ?_)
  refine meets_access stops (fun started => (stops started).channel) fun _ => ?_
  rw [Hardware.answered, Bool.or_false]
  exact met

/-! ## PCM -/

/-- A store that does not set `TXON`. -/
def calm : PcmStore → Bool
  | .word .csA value => PcmControlStatus.txon.get value == 0
  | .field .csA bits value =>
      decide (PcmControlStatus.txon.Apart bits) || bits == PcmControlStatus.txon && value == 0
  | _ => true

theorem transmits_of_calm {store : PcmStore} (isCalm : calm store = true) {pcm : Bcm283xPcm}
    (after : transmits (store.apply pcm)) : transmits pcm := by
  cases store with
  | word register value =>
      cases register with
      | csA =>
          have silent : PcmControlStatus.txon.get value = 0 := eq_of_beq isCalm
          exact absurd (silent.symm.trans after) Nat.zero_ne_one
      | _ => exact after
  | field register bits value =>
      cases register with
      | csA =>
          change PcmControlStatus.txon.get (bits.set pcm.csA value) = 1 at after
          simp only [calm, Bool.or_eq_true, Bool.and_eq_true, decide_eq_true_eq, beq_iff_eq]
            at isCalm
          rcases isCalm with apart | ⟨rfl, rfl⟩
          · rwa [Field.get_set_of_apart apart] at after
          · rw [Field.get_set] at after
            exact absurd after Nat.zero_ne_one
      | _ => exact after

theorem meets_pcmStores {stores : List PcmStore} (stops : h.started = true → Stops h.channel g)
    (allCalm : ∀ store ∈ stores, calm store = true)
    (met : post () ⟨{ h with pcm := stores.foldl PcmStore.apply h.pcm }, True⟩ g) :
    (pcmStores stores).Meets ((accessRegime arguments).contract inMain) post ⟨h, True⟩ g := by
  induction stores generalizing h with
  | nil => exact met
  | cons store stores ih =>
      obtain ⟨isCalm, later⟩ := List.forall_mem_cons.mp allCalm
      refine meets_askAll_cons (meets_access stops ?_ fun _ => ?_)
      · exact fun after silent => absurd (transmits_of_calm isCalm after) silent
      · exact ih (h := { h with pcm := store.apply h.pcm }) stops later met

theorem meets_assertPcm (stops : h.started = true → Stops h.channel g)
    (met : g.pcm ≠ 0 → post () ⟨h, True⟩ g) :
    assertPcm.Meets ((accessRegime arguments).contract inMain) post ⟨h, True⟩ g :=
  meets_bind.mpr (meets_getState.mpr
    ⟨⟨trivial, stops⟩, meets_assert_started stops Stops.pcm met⟩)

theorem meets_delayMicroseconds (stops : h.started = true → Stops h.channel g)
    (met : post () ⟨h, True⟩ g) :
    (bcm283xDelayMicroseconds 10).Meets ((accessRegime arguments).contract inMain) post
      ⟨h, True⟩ g := by
  change (ask (.nanosleep ⟨0, 10000⟩)).Meets ((accessRegime arguments).contract inMain) post
    ⟨h, True⟩ g
  exact meets_ask_neutral trivial stops fun _ => met

theorem meets_bcm283xPcmReset (stops : h.started = true → Stops h.channel g)
    (met : g.pcm ≠ 0 → post () ⟨{ h with pcm := Raspdif.bcm283xPcmReset h.pcm }, True⟩ g) :
    bcm283xPcmReset.Meets ((accessRegime arguments).contract inMain) post ⟨h, True⟩ g := by
  refine meets_bind.mpr (meets_assertPcm stops fun pcm => ?_)
  refine meets_bind.mpr (meets_pcmStores stops (by decide) ?_)
  refine meets_bind.mpr (meets_delayMicroseconds stops ?_)
  exact meets_pcmStores stops (by decide) (met pcm)

theorem meets_bcm283xPcmConfigure (stops : h.started = true → Stops h.channel g)
    (met : post () ⟨{ h with
      pcm := Raspdif.bcm283xPcmConfigure raspdifPcmConfiguration h.pcm }, True⟩ g) :
    (bcm283xPcmConfigure raspdifPcmConfiguration).Meets ((accessRegime arguments).contract inMain)
      post ⟨h, True⟩ g := by
  rw [← foldl_pcmConfigureStores, List.foldl_append] at met
  refine meets_bind.mpr (meets_assertPcm stops fun _ => ?_)
  refine meets_bind.mpr (meets_pcmStores stops (by decide) ?_)
  refine meets_bind.mpr (meets_delayMicroseconds stops ?_)
  refine meets_bind.mpr (meets_pcmStores stops (by decide) ?_)
  exact meets_delayMicroseconds stops met

/-- What `raspdif_init` writes to the PCM registers behind `bcm283x_pcm_configure`. -/
def outputStores : List PcmStore :=
  [.field .csA PcmControlStatus.dmaen 1, .field .dreqA PcmDmaRequest.txPanic 16,
    .field .dreqA PcmDmaRequest.tx 32, .field .dreqA PcmDmaRequest.rxPanic 0,
    .field .dreqA PcmDmaRequest.rx 0,
    .field .txcA PcmTxRxConfig.ch1en 1, .field .txcA PcmTxRxConfig.ch1pos 0,
    .field .txcA PcmTxRxConfig.ch1wid 8, .field .txcA PcmTxRxConfig.ch1wex 1,
    .field .txcA PcmTxRxConfig.ch2en 0,
    .field .csA PcmControlStatus.txclr 1, .field .csA PcmControlStatus.rxclr 1,
    .field .csA PcmControlStatus.sync 0, .field .csA PcmControlStatus.sync 1]

/-- The PCM registers that `raspdif_init` leaves. -/
def outputPcm (pcm : Bcm283xPcm) : Bcm283xPcm :=
  outputStores.foldl PcmStore.apply
    (Raspdif.bcm283xPcmConfigure raspdifPcmConfiguration (Raspdif.bcm283xPcmReset pcm))

/-- But for the reserved bits of `DREQ_A` nothing is left of what was there. -/
theorem outputPcm_eq (pcm : Bcm283xPcm) :
    (outputPcm pcm).csA = (outputPcm .clear).csA ∧
      (outputPcm pcm).modeA = (outputPcm .clear).modeA ∧
      (outputPcm pcm).txcA = (outputPcm .clear).txcA := by
  unfold outputPcm outputStores Raspdif.bcm283xPcmConfigure Raspdif.bcm283xPcmReset
  simp only [List.foldl_cons, List.foldl_nil, PcmStore.apply, PcmRegister.modify, and_self]

theorem pcmReady_outputPcm (pcm : Bcm283xPcm) :
    PcmReady (outputPcm pcm) ∧ ¬ transmits (outputPcm pcm) := by
  obtain ⟨csA, modeA, txcA⟩ := outputPcm_eq pcm
  have dreqA : (outputPcm pcm).dreqA = PcmDmaRequest.rx.set (PcmDmaRequest.rxPanic.set
      (PcmDmaRequest.tx.set (PcmDmaRequest.txPanic.set
        (Raspdif.bcm283xPcmReset pcm).dreqA 16) 32) 0) 0 := rfl
  have decoded : (outputPcm pcm).decode = (outputPcm .clear).decode := by
    unfold Bcm283xPcm.decode
    rw [csA, modeA]
  unfold transmits
  rw [csA]
  refine ⟨⟨?_, ?_, ?_, ?_, ?_, ?_, ?_, ?_, ?_⟩, by decide +kernel⟩
  · rw [decoded]
    decide +kernel
  · rw [csA]
    decide +kernel
  · rw [csA]
    decide +kernel
  · simp (disch := decide) only [dreqA, Field.get_set_of_apart, Field.get_set_of_lt]
  · simp (disch := decide) only [dreqA, Field.get_set_of_apart, Field.get_set_of_lt]
  all_goals
    rw [txcA]
    decide +kernel

theorem meets_bcm283xPcmConfigureDma (stops : h.started = true → Stops h.channel g)
    (met : post () ⟨{ h with
      pcm := (outputStores.take 5).foldl PcmStore.apply h.pcm }, True⟩ g) :
    (bcm283xPcmConfigureDma true ⟨32, 16, 0, 0⟩).Meets ((accessRegime arguments).contract inMain)
      post ⟨h, True⟩ g := by
  refine meets_bind.mpr (meets_assertPcm stops fun _ => ?_)
  refine meets_bind.mpr (meets_assert_of (by decide) ?_)
  refine meets_bind.mpr (meets_assert_of (by decide) ?_)
  refine meets_bind.mpr (meets_assert_of (by decide) ?_)
  refine meets_bind.mpr (meets_assert_of (by decide) ?_)
  exact meets_pcmStores stops (by decide) met

theorem meets_bcm283xPcmConfigureTransmitChannels (stops : h.started = true → Stops h.channel g)
    (met : post () ⟨{ h with
      pcm := ((outputStores.drop 5).take 5).foldl PcmStore.apply h.pcm }, True⟩ g) :
    (bcm283xPcmConfigureTransmitChannels (some ⟨32, 0⟩) none).Meets
      ((accessRegime arguments).contract inMain) post ⟨h, True⟩ g := by
  refine meets_bind.mpr (meets_assertPcm stops fun _ => ?_)
  refine meets_bind.mpr (meets_pcmStores stops (by decide) ?_)
  exact meets_pcmStores stops (by decide) met

theorem meets_bcm283xPcmClearFifos (stops : h.started = true → Stops h.channel g)
    (met : post () ⟨{ h with
      pcm := (outputStores.drop 10).foldl PcmStore.apply h.pcm }, True⟩ g) :
    bcm283xPcmClearFifos.Meets ((accessRegime arguments).contract inMain) post ⟨h, True⟩ g := by
  refine meets_bind.mpr (meets_assertPcm stops fun _ => ?_)
  refine meets_bind.mpr (meets_pcmStores stops (by decide) ?_)
  refine meets_bind.mpr (meets_assertPcm stops fun _ => ?_)
  refine meets_bind.mpr (meets_pcmStores stops (by decide) ?_)
  refine meets_bind.mpr (meets_ask_neutral trivial stops fun _ => ?_)
  refine meets_bind.mpr (meets_pcmStores stops (by decide) ?_)
  exact meets_ask_neutral trivial stops fun _ => met

/-! ## GPIO -/

theorem meets_bcm283xGpioConfigureMask (idle : h.started = false)
    (met : ∀ gpio : Gpio, pinFunction gpio.registers 21 = GpioFunction.af0.code →
      post () ⟨{ h with gpio := gpio }, True⟩ g) :
    (bcm283xGpioConfigureMask (1 <<< 21) ⟨.af0, .noChange, .none⟩).Meets
      ((accessRegime arguments).contract True) post ⟨h, True⟩ g := by
  refine meets_bind.mpr (meets_getState.mpr ⟨⟨trivial, of_idle idle⟩, ?_⟩)
  refine meets_bind.mpr (meets_assert_main (of_idle idle) fun _ => ?_)
  obtain ⟨gpio, ran, configured⟩ :=
    bcm283xGpioConfigureMask_configured (1 <<< 21) ⟨.af0, .noChange, .none⟩ h.gpio
  refine meets_access (of_idle idle) ⟨rfl, idle⟩ fun _ => ?_
  rw [Hardware.answered, ran]
  refine met gpio ?_
  rw [configured.pinFunction_eq, if_pos (by decide)]

/-! ## Configuration -/

/-- `raspdif_init` from `bcm283x_clock_configure` on. -/
theorem meets_configureOutput {config : ClockConfiguration} (idle : h.started = false)
    (met : g.pcm ≠ 0 → g.clock ≠ 0 → config.DivisorOk → ∀ (clock : Bcm283xClock) idle (gpio : Gpio),
      ClockControl.enab.get clock.ctl = 1 →
      ClockDivisor.divi.get clock.div = config.divi.toNat →
      ClockDivisor.divf.get clock.div = config.divf.toNat →
      pinFunction gpio.registers 21 = GpioFunction.af0.code →
      post () ⟨{ h with
        clock := clock
        clockIdle := idle
        pcm := outputPcm h.pcm
        gpio := gpio }, True⟩ g) :
    (configureOutput config).Meets ((accessRegime arguments).contract True) post ⟨h, True⟩ g := by
  have stops : h.started = true → Stops h.channel g := of_idle idle
  refine meets_bind.mpr (meets_bcm283xClockConfigure idle fun ok clock _ divi divf => ?_)
  refine meets_bind.mpr (meets_bcm283xClockEnable stops fun some ctl waits enabled => ?_)
  refine meets_bind.mpr (meets_bcm283xPcmReset stops fun pcm => ?_)
  refine meets_bind.mpr (meets_bcm283xPcmConfigure stops ?_)
  refine meets_bind.mpr (meets_bcm283xPcmConfigureDma stops ?_)
  refine meets_bind.mpr (meets_bcm283xPcmConfigureTransmitChannels stops ?_)
  refine meets_bind.mpr (meets_bcm283xPcmClearFifos stops ?_)
  refine meets_bcm283xGpioConfigureMask idle fun gpio pin => ?_
  exact met pcm some ok ⟨ctl, clock.div⟩ waits gpio enabled divi divf pin

end

end Raspdif.Process.Access
