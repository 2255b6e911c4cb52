import Raspdif.Process.Course
import Raspdif.Process.Guard

/-!
# When the output runs

The accesses of `main` and its handlers over whole runs, with signals at any point: what is
configured before the output starts, what stays so while it runs, and what is left when the
process has ended.
-/

namespace Raspdif.Process

open Interaction Program BitField Trace

namespace Access

section

variable {arguments : RaspdifArguments} {inMain : Prop} {h : Hardware} {g : Globals}
  {post : Unit → Watched Hardware → Globals → Prop}

/-! ## Initialization -/

/-- `raspdif_init` has returned. -/
structure Prepared (arguments : RaspdifArguments) (h : Hardware) (g : Globals) : Prop where
  idle : h.started = false
  ready : h.Ready arguments g.dmaChannel
  stops : Stops h.channel g
  silent : ¬ transmits h.pcm

theorem meets_convertDivisor {computed : Option ClockConfiguration}
    {post : ClockConfiguration → Watched Hardware → Globals → Prop} (idle : h.started = false)
    (met : ∀ config, (∀ exact, computed = some exact → config = exact) →
      post config ⟨h, True⟩ g) :
    (convertDivisor computed).Meets ((accessRegime arguments).contract inMain) post
      ⟨h, True⟩ g := by
  cases computed with
  | some config => exact met config fun exact same => Option.some.inj same
  | none =>
      refine meets_bind.mpr (meets_ask_neutral trivial (of_idle idle) fun divi => ?_)
      refine meets_bind.mpr (meets_ask_neutral trivial (of_idle idle) fun divf => ?_)
      exact met _ fun exact impossible => nomatch impossible

/-- `raspdif_init` from `bcm283x_dma_reset` on. -/
theorem meets_configurePeripherals (idle : h.started = false)
    (own : h.channel = some g.dmaChannel) (some_bus : h.bus ≠ 0)
    (mapped : h.mapped = (h.bus - h.sdram, BitVec.ofNat 32 sizeofControl))
    (met : ∀ h, Prepared arguments h g → post () ⟨h, True⟩ g) :
    (configurePeripherals h.bus arguments.sampleRate).Meets
      ((accessRegime arguments).contract True) post ⟨h, True⟩ g := by
  have stops : h.started = true → Stops h.channel g := of_idle idle
  refine meets_bind.mpr (meets_getState.mpr ⟨⟨trivial, stops⟩, ?_⟩)
  refine meets_bind.mpr (meets_bcm283xDmaReset idle own ?_)
  refine meets_bind.mpr (meets_getState.mpr ⟨⟨trivial, stops⟩, ?_⟩)
  refine meets_bind.mpr (meets_bcm283xDmaSetControlBlock idle own fun aligned dma valid => ?_)
  refine meets_bind.mpr (meets_idle (only_logPrint _) idle fun _ => ?_)
  refine meets_bind.mpr (meets_access stops trivial fun pi4 => ?_)
  refine meets_bind.mpr (meets_convertDivisor idle fun config computed => ?_)
  refine meets_bind.mpr (meets_idle (only_logPrint _) idle fun _ => ?_)
  refine meets_configureOutput idle fun pcm clocked ok clock _ gpio enabled divi divf pin => ?_
  obtain ⟨ready, silent⟩ := pcmReady_outputPcm h.pcm
  have divisor (exact : ClockConfiguration)
      (same : perSample arguments.sampleRate
        (raspdifClockConfiguration pi4 arguments.sampleRate) = some exact) :
      ClockDivisor.divi.get clock.div = exact.divi.toNat ∧
        ClockDivisor.divf.get clock.div = exact.divf.toNat := by
    rw [← computed exact same]
    exact ⟨divi, divf⟩
  refine met _ ⟨idle, ⟨ready, ⟨enabled, ?_, fun rate exact same => ?_⟩, pin, ?_, aligned, some_bus,
    mapped⟩, ⟨own, valid, clocked, dma, pcm⟩, silent⟩
  · rw [divi]
    exact ok.1.1
  · exact divisor exact ((if_neg rate).trans same)
  · exact Function.update_self _ _ _

theorem meets_driverInit {saved : Globals → Nat} {save : Globals → Globals} {base : Nat}
    (idle : h.started = false) (met : ∀ g, post () ⟨h, True⟩ g) :
    (driverInit saved save base).Meets ((accessRegime arguments).contract True) post
      ⟨h, True⟩ g := by
  refine meets_bind.mpr (meets_assert_main (of_idle idle) fun _ => ?_)
  refine meets_bind.mpr (meets_getState.mpr ⟨⟨trivial, of_idle idle⟩, ?_⟩)
  refine meets_bind.mpr (meets_assert_main (of_idle idle) fun _ => ?_)
  exact meets_update.mpr ⟨⟨trivial, of_idle idle⟩, met _⟩

theorem meets_bcm283xInit (idle : h.started = false)
    (met : ∀ mapped g, post () ⟨{ h with mapped := mapped }, True⟩ g) :
    bcm283xInit.Meets ((accessRegime arguments).contract True) post ⟨h, True⟩ g := by
  have drivers (mapped : BitVec 32 × BitVec 32) (virtualBase : Nat) (g : Globals) :
      Meets ((accessRegime arguments).contract True) post
        (if virtualBase = 0 then logPrint .fatal
        else do
          bcm283xClockInit (virtualBase + 0x00101000)
          bcm283xGpioInit (virtualBase + 0x00200000)
          bcm283xDmaInit (virtualBase + 0x00007000)
          bcm283xPcmInit (virtualBase + 0x00203000))
        ⟨{ h with mapped := mapped }, True⟩ g := by
    have idle' : { h with mapped := mapped }.started = false := idle
    refine meets_ite.mpr ⟨fun _ => meets_fatal (of_idle idle') (of_idle idle'), fun _ => ?_⟩
    refine meets_bind.mpr (meets_driverInit idle' fun _ => ?_)
    refine meets_bind.mpr (meets_driverInit idle' fun _ => ?_)
    refine meets_bind.mpr (meets_driverInit idle' fun _ => ?_)
    exact meets_driverInit idle' fun g => met mapped g
  refine meets_bind.mpr (meets_getState.mpr ⟨⟨trivial, of_idle idle⟩, ?_⟩)
  refine meets_ite.mpr ⟨fun _ => ?_, fun _ => ?_⟩
  · exact meets_idle (only_logPrint _) idle fun _ => met h.mapped g
  refine meets_bind.mpr (meets_ask_neutral trivial (of_idle idle) fun physicalBase => ?_)
  refine meets_bind.mpr (meets_ask_neutral trivial (of_idle idle) fun length => ?_)
  refine meets_bind.mpr (meets_memoryMapPhysical idle ?_ fun virtualBase => ?_)
  · exact meets_bind.mpr (meets_update.mpr ⟨⟨trivial, of_idle idle⟩, drivers h.mapped 0 _⟩)
  · exact meets_bind.mpr (meets_update.mpr ⟨⟨trivial, of_idle idle⟩, drivers _ virtualBase _⟩)

theorem meets_raspdifInit {channel : Nat} (idle : h.started = false)
    (met : ∀ h g, Prepared arguments h g → post () ⟨h, True⟩ g) :
    (raspdifInit channel arguments.sampleRate).Meets ((accessRegime arguments).contract True) post
      ⟨h, True⟩ g := by
  refine meets_bind.mpr (meets_access (of_idle idle) trivial fun _ => ?_)
  refine meets_bind.mpr (meets_bcm283xInit idle fun peripherals g => ?_)
  refine meets_bind.mpr (meets_update.mpr ⟨⟨trivial, of_idle idle⟩, ?_⟩)
  refine meets_bind.mpr (meets_idle (only_logPrint _) idle fun _ => ?_)
  refine meets_bind.mpr (meets_memoryAllocatePhysical idle (fun handle bus => ?_)
    fun handle bus => ?_)
  · exact meets_bind.mpr (meets_when.mpr ⟨fun _ => meets_fatal (of_idle idle) (of_idle idle),
      fun located => absurd rfl located⟩)
  refine meets_bind.mpr (meets_when.mpr
    ⟨fun _ => meets_fatal (of_idle idle) (of_idle idle), fun located => ?_⟩)
  refine meets_bind.mpr (meets_update.mpr ⟨⟨trivial, of_idle idle⟩, ?_⟩)
  refine meets_bind.mpr (meets_access (of_idle idle) trivial fun sdram => ?_)
  refine meets_bind.mpr (meets_memoryMapPhysical idle ?_ fun virtualBase => ?_)
  · refine meets_bind.mpr (meets_when.mpr ⟨fun _ => ?_, fun mapped => absurd rfl mapped⟩)
    refine meets_bind.mpr (meets_idle (only_memoryReleasePhysical _) idle fun _ => ?_)
    exact meets_fatal (of_idle idle) (of_idle idle)
  refine meets_bind.mpr (meets_when.mpr ⟨fun _ => ?_, fun _ => ?_⟩)
  · refine meets_bind.mpr (meets_idle (only_memoryReleasePhysical _) idle fun _ => ?_)
    exact meets_fatal (of_idle idle) (of_idle idle)
  refine meets_bind.mpr (meets_assert_of rfl ?_)
  refine meets_bind.mpr (meets_update.mpr ⟨⟨trivial, of_idle idle⟩, ?_⟩)
  exact meets_configurePeripherals idle rfl located rfl fun h prepared => met h _ prepared

/-! ## The loops -/

/-- The output runs. -/
structure Sending (arguments : RaspdifArguments) (h : Hardware) (g : Globals) : Prop where
  fed : h.Fed arguments g.dmaChannel
  stops : Stops h.channel g

/-- A field of `CS_A` that is not asked for may be written. -/
theorem pcmReady_csA {pcm : Bcm283xPcm} (ready : PcmReady pcm) (bits : Field 32) (value : Nat)
    (txthr : PcmControlStatus.txthr.Apart bits) (rxthr : PcmControlStatus.rxthr.Apart bits)
    (dmaen : PcmControlStatus.dmaen.Apart bits)
    (en : PcmControlStatus.en.get (bits.set pcm.csA value) = 1) :
    PcmReady { pcm with csA := bits.set pcm.csA value } := by
  refine { ready with configuration := ?_, enabled := en, dma := ?_ }
  · rw [← ready.configuration]
    unfold Bcm283xPcm.decode
    rw [Field.get_set_of_apart txthr, Field.get_set_of_apart rxthr]
  · rw [Field.get_set_of_apart dmaen]
    exact ready.dma

theorem Sending.meets_bcm283xPcmEnable {transmit : Bool} (sending : Sending arguments h g)
    (met : ∀ h, Sending arguments h g → (transmits h.pcm ↔ transmit = true) →
      post () ⟨h, True⟩ g) :
    (bcm283xPcmEnable transmit false).Meets ((accessRegime arguments).contract inMain) post
      ⟨h, True⟩ g := by
  have stops : h.started = true → Stops h.channel g := fun _ => sending.stops
  rcases sending with ⟨⟨ready, started, active⟩, own⟩
  have enabled := pcmReady_csA ready.pcm PcmControlStatus.en 1 (by decide) (by decide) (by decide)
    (Field.get_set_of_lt (by decide))
  have switched := pcmReady_csA enabled PcmControlStatus.txon transmit.toNat (by decide)
    (by decide) (by decide) ((Field.get_set_of_apart (by decide)).trans enabled.enabled)
  have output := pcmReady_csA switched PcmControlStatus.rxon 0 (by decide) (by decide) (by decide)
    ((Field.get_set_of_apart (by decide)).trans switched.enabled)
  refine meets_askAll_cons (meets_access stops ?_ fun _ => ?_)
  · exact fun after silent => absurd (transmits_of_calm (by decide) after) silent
  refine meets_askAll_cons (meets_access stops ?_ fun _ => ?_)
  · exact fun _ _ => ⟨g.dmaChannel, own.channel, { ready with pcm := enabled }, started, active⟩
  refine meets_askAll_cons (meets_access stops ?_ fun _ => ?_)
  · exact fun after silent => absurd (transmits_of_calm (by decide) after) silent
  refine met _ ⟨⟨{ ready with pcm := output }, started, active⟩, own⟩ ?_
  change PcmControlStatus.txon.get (PcmControlStatus.rxon.set (PcmControlStatus.txon.set
    (PcmControlStatus.en.set h.pcm.csA 1) transmit.toNat) 0) = 1 ↔ _
  rw [Field.get_set_of_apart (by decide), Field.get_set]
  cases transmit <;> decide

/-- Where the loops of `main` are, the output runs behind the preload only. -/
structure Looping (arguments : RaspdifArguments) (pc : Pc) (h : Hardware) (g : Globals) :
    Prop where
  preload : pc = .preload → Prepared arguments h g
  sending : pc ≠ .preload → Sending arguments h g ∧ transmits h.pcm

theorem Prepared.meets_startTransmit (prepared : Prepared arguments h g)
    (met : ∀ h, Sending arguments h g → transmits h.pcm → post () ⟨h, True⟩ g) :
    startTransmit.Meets ((accessRegime arguments).contract inMain) post ⟨h, True⟩ g := by
  rcases prepared with ⟨idle, ready, own, silent⟩
  refine meets_bind.mpr (meets_idle (only_logPrint _) idle fun _ => ?_)
  refine meets_bind.mpr (meets_getState.mpr ⟨⟨trivial, of_idle idle⟩, ?_⟩)
  refine meets_bind.mpr (meets_bind.mpr ?_)
  refine meets_bcm283xDmaGetChannel (of_idle idle) fun _ _ => ?_
  refine meets_access (of_idle idle) ⟨own.channel, ready⟩ fun _ => ?_
  have sending : Sending arguments (h.answered (.dma g.dmaChannel (.csActive true)) ()) g :=
    ⟨⟨{ ready with }, Bool.or_true _, Function.update_self _ _ _⟩, own⟩
  refine meets_bind.mpr (sending.meets_bcm283xPcmEnable fun h sending on => ?_)
  exact meets_ask_neutral trivial (fun _ => sending.stops) fun _ => met h sending (on.mpr rfl)

/-- The transmitter is off while `poll` waits, when that was asked for. -/
theorem Sending.meets_waitForInput (sending : Sending arguments h g) (on : transmits h.pcm)
    (met : ∀ h, Sending arguments h g → transmits h.pcm → post () ⟨h, True⟩ g) :
    (waitForInput arguments.pcmDisable).Meets ((accessRegime arguments).contract inMain) post
      ⟨h, True⟩ g := by
  have logged {h : Hardware} {post : Unit → Watched Hardware → Globals → Prop}
      (sending : Sending arguments h g) (met : post () ⟨h, True⟩ g) :
      (logPrint .debug).Meets ((accessRegime arguments).contract inMain) post ⟨h, True⟩ g :=
    meets_log (by decide) (fun _ => sending.stops) met
  have polled {h : Hardware} {post : Unit → Watched Hardware → Globals → Prop}
      (sending : Sending arguments h g) (on : transmits h.pcm ↔ arguments.pcmDisable = false)
      (met : post () ⟨h, True⟩ g) :
      (ask .poll).Meets ((accessRegime arguments).contract inMain) post ⟨h, True⟩ g :=
    meets_access (fun _ => sending.stops) ⟨g.dmaChannel, sending.stops.channel, sending.fed, on⟩
      fun _ => met
  cases disable : arguments.pcmDisable with
  | false =>
      refine meets_bind.mpr (meets_when.mpr ⟨fun on => absurd on Bool.false_ne_true, fun _ => ?_⟩)
      refine meets_bind.mpr (polled sending (by simp [on, disable]) ?_)
      refine meets_bind.mpr (meets_when.mpr ⟨fun on => absurd on Bool.false_ne_true, fun _ => ?_⟩)
      exact logged sending (met h sending on)
  | true =>
      refine meets_bind.mpr (meets_when.mpr ⟨fun _ => ?_, fun impossible => absurd rfl impossible⟩)
      refine meets_bind.mpr (sending.meets_bcm283xPcmEnable fun h sending off => ?_)
      refine logged sending ?_
      refine meets_bind.mpr (polled sending (by simp [off, disable]) ?_)
      refine meets_bind.mpr (meets_when.mpr ⟨fun _ => ?_, fun impossible => absurd rfl impossible⟩)
      refine meets_bind.mpr (sending.meets_bcm283xPcmEnable fun h sending on => ?_)
      exact logged sending (logged sending (met h sending (on.mpr rfl)))

theorem Looping.stops {pc : Pc} (looping : Looping arguments pc h g) : Stops h.channel g := by
  by_cases preload : pc = .preload
  · exact (looping.preload preload).stops
  · exact (looping.sending preload).1.stops

theorem Looping.outside {pc : Pc} (looping : Looping arguments pc h g) :
    h.Allows arguments .outside := by
  intro started
  by_cases preload : pc = .preload
  · exact of_idle (looping.preload preload).idle started
  · obtain ⟨sending, on⟩ := looping.sending preload
    exact ⟨g.dmaChannel, sending.stops.channel, sending.fed, on⟩

theorem meets_microsleep {microseconds : BitVec 32} (stops : Stops h.channel g)
    (met : post () ⟨h, True⟩ g) :
    (microsleep microseconds).Meets ((accessRegime arguments).contract True) post ⟨h, True⟩ g := by
  unfold microsleep
  split
  · exact meets_ask_neutral trivial (fun _ => stops) fun _ => met
  · exact ⟨⟨trivial, fun _ => stops⟩, Or.inl trivial⟩

theorem meets_testPosition {setup : Setup} {answers : Answers} {index : Option Nat}
    (stops : Stops h.channel g) (met : post () ⟨h, True⟩ g) :
    (testPosition setup arguments.sampleRate answers index).Meets
      ((accessRegime arguments).contract True) post ⟨h, True⟩ g := by
  have delayed (computed : Option (BitVec 32)) :
      (delay computed).Meets ((accessRegime arguments).contract True) post ⟨h, True⟩ g := by
    cases computed with
    | some microseconds => exact meets_microsleep stops met
    | none =>
        exact meets_bind.mpr (meets_ask_neutral trivial (fun _ => stops) fun _ =>
          meets_microsleep stops met)
  cases index with
  | none => exact met
  | some index =>
      refine meets_bind.mpr (meets_getState.mpr ⟨⟨trivial, fun _ => stops⟩, ?_⟩)
      refine meets_bind.mpr (meets_bcm283xDmaGetChannel (fun _ => stops) fun _ _ => ?_)
      exact meets_when.mpr ⟨fun _ => delayed _, fun _ => met⟩

/-- The preload is left for the read loop and never entered again. -/
theorem pc_of_step {setup : Setup} {answers : Answers} {s next : Main} {events : List Event}
    (step : s.step setup answers = some (next, events)) :
    (s.pc = .preload → next.pc = .preload ∨ next.pc = .readLoop) ∧
      (s.pc ≠ .preload → next.pc ≠ .preload) := by
  cases Main.step_moves step with
  | preloadFrame pc => exact ⟨fun _ => Or.inl pc, fun loop => absurd pc loop⟩
  | preloadDone => exact ⟨fun _ => Or.inr rfl, fun _ => Pc.noConfusion⟩
  | readWait pc | readFrame pc | fillWait _ _ pc =>
      have loop : s.pc ≠ .preload := by
        rw [pc]
        exact Pc.noConfusion
      exact ⟨fun preload => absurd preload loop, fun _ => loop⟩
  | fillRemainder _ pc | fillBuffer _ _ pc =>
      have loop : s.pc ≠ .preload := by
        rw [pc]
        exact Pc.noConfusion
      refine ⟨fun preload => absurd preload loop, fun _ => ?_⟩
      dsimp only
      split <;> exact Pc.noConfusion
  | finish pc | underrun pc | fillEnter _ _ pc | fillReturn _ _ pc | poll pc =>
      refine ⟨fun preload => Pc.noConfusion (pc.symm.trans preload), fun _ => Pc.noConfusion⟩

theorem Looping.meets_stepCalls {pc next : Pc} (looping : Looping arguments pc h g)
    (preload : pc = .preload → next = .preload ∨ next = .readLoop)
    (loop : pc ≠ .preload → next ≠ .preload)
    (met : ∀ h, Looping arguments next h g → post () ⟨h, True⟩ g) :
    (stepCalls arguments.pcmDisable pc next).Meets ((accessRegime arguments).contract True) post
      ⟨h, True⟩ g := by
  refine meets_bind.mpr (meets_when.mpr ⟨fun starts => ?_, fun stays => ?_⟩)
  · obtain ⟨rfl, rfl⟩ := starts
    refine (looping.preload rfl).meets_startTransmit fun h sending on => ?_
    refine meets_when.mpr ⟨fun polls => Pc.noConfusion polls, fun _ => met h ⟨?_, ?_⟩⟩
    · exact fun impossible => Pc.noConfusion impossible
    · exact fun _ => ⟨sending, on⟩
  · refine meets_when.mpr ⟨fun polls => ?_, fun _ => met h ⟨?_, ?_⟩⟩
    · have here : pc ≠ .preload := by
        rw [polls]
        exact Pc.noConfusion
      obtain ⟨sending, on⟩ := looping.sending here
      refine sending.meets_waitForInput on fun h sending on => met h ⟨?_, fun _ => ⟨sending, on⟩⟩
      exact fun preload => absurd preload (loop here)
    · intro preloads
      by_cases here : pc = .preload
      · exact looping.preload here
      · exact absurd preloads (loop here)
    · intro loops
      refine looping.sending fun here => ?_
      rcases preload here with again | reads
      · exact loops again
      · exact stays ⟨here, reads⟩

theorem arrive_pc (s : Main) (outside : Outside) : (arrive s outside).pc = s.pc := by
  unfold arrive
  split <;> rfl

theorem Looping.meets_stream {setup : Setup} {rounds : Nat} {s : Main}
    (looping : Looping arguments s.pc h g)
    (met : ∀ h, Stops h.channel g → post () ⟨h, True⟩ g) :
    (stream setup arguments rounds s).Meets ((accessRegime arguments).contract True) post
      ⟨h, True⟩ g := by
  induction rounds generalizing h s with
  | zero => exact ⟨trivial, fun _ => looping.stops⟩
  | succ rounds ih =>
      refine meets_ite.mpr ⟨fun _ => met h looping.stops, fun _ => ?_⟩
      refine meets_bind.mpr
        (meets_access (fun _ => looping.stops) looping.outside fun outside => ?_)
      refine meets_bind.mpr (meets_testPosition looping.stops ?_)
      have here : Looping arguments (arrive s outside).pc h g := by
        rw [arrive_pc]
        exact looping
      cases ran : (arrive s outside).step setup outside.answers with
      | none => exact ih here
      | some result =>
          obtain ⟨preload, loop⟩ := pc_of_step ran
          exact meets_bind.mpr (here.meets_stepCalls preload loop fun h looping => ih looping)

/-! ## The end -/

/-- What `raspdif_shutdown` leaves. -/
theorem quiet_shutdown {ctl : BitVec 32} (idle : Bool)
    (disabled : ClockControl.enab.get ctl = 0) (own : Stops h.channel g) :
    Hardware.Quiet { h with
      pcm := Raspdif.bcm283xPcmReset h.pcm
      clock := { h.clock with ctl := ctl }
      clockIdle := idle
      active := Function.update h.active g.dmaChannel false } := by
  have csA : (Raspdif.bcm283xPcmReset h.pcm).csA = (Raspdif.bcm283xPcmReset .clear).csA := rfl
  refine ⟨?_, ?_, disabled, fun channel same => ?_⟩
  · dsimp only
    rw [csA]
    decide +kernel
  · unfold transmits
    dsimp only
    rw [csA]
    decide +kernel
  · obtain rfl := Option.some.inj (own.channel.symm.trans same)
    exact Function.update_self _ _ _

theorem meets_raspdifShutdown (stops : h.started = true → Stops h.channel g)
    (met : ∀ h : Hardware, (h.started = true → Stops h.channel g) →
      (h.started = true → h.Quiet) → post () ⟨h, True⟩ g) :
    raspdifShutdown.Meets ((accessRegime arguments).contract inMain) post ⟨h, True⟩ g := by
  refine meets_bind.mpr (meets_ask_neutral trivial stops fun _ => ?_)
  refine meets_bind.mpr (meets_bcm283xPcmReset stops fun _ => ?_)
  refine meets_bind.mpr (meets_bcm283xClockEnable stops fun _ ctl waits disabled => ?_)
  refine meets_bind.mpr (meets_getState.mpr ⟨⟨trivial, stops⟩, ?_⟩)
  refine meets_bind.mpr (meets_bcm283xDmaDisable stops ?_)
  refine meets_bind.mpr (meets_getState.mpr ⟨⟨trivial, stops⟩, ?_⟩)
  have quiet := fun started => quiet_shutdown waits disabled (stops started)
  refine meets_bind.mpr (meets_harmless (only_memoryReleasePhysical _) stops quiet fun _ => ?_)
  exact met _ stops quiet

theorem handles_accessRegime : (accessRegime arguments).Handles := by
  intro w g during
  obtain ⟨h, kept⟩ := w
  obtain rfl := eq_true during.1
  refine meets_bind.mpr (meets_log (by decide) during.2 ?_)
  refine meets_bind.mpr (meets_raspdifShutdown during.2 fun h stops quiet => ?_)
  exact ⟨⟨trivial, stops⟩, quiet⟩

theorem meets_mainRegistered {rounds : Nat} (idle : h.started = false) :
    (mainRegistered rounds arguments).Meets ((accessRegime arguments).contract True)
      (fun _ w g => (accessRegime arguments).during w g ∧ (accessRegime arguments).exited w g)
      ⟨h, True⟩ g := by
  have stops : h.started = true → Stops h.channel g := of_idle idle
  have begun (g : Globals) : Meets ((accessRegime arguments).contract True)
      (fun _ w g => (accessRegime arguments).during w g ∧ (accessRegime arguments).exited w g)
      (do
        let pi4 ← ask .bcmHostIsModelPi4
        raspdifInit (if pi4 then 5 else 13) arguments.sampleRate
        let opened ← ask (.openInput arguments.file)
        when (opened = false) (logPrint .fatal)
        logPrint .info
        logPrint .info
        let g ← getState
        stream ⟨arguments.format, arguments.keepAlive, g.controlBus⟩ arguments rounds
          (Main.start fun _ => .zero)
        raspdifShutdown) ⟨h, True⟩ g := by
    refine meets_bind.mpr (meets_access (of_idle idle) trivial fun pi4 => ?_)
    refine meets_bind.mpr (meets_raspdifInit idle fun h g prepared => ?_)
    refine meets_bind.mpr (meets_ask_neutral trivial (of_idle prepared.idle) fun opened => ?_)
    refine meets_bind.mpr (meets_idle (only_when (only_logPrint _)) prepared.idle fun _ => ?_)
    refine meets_bind.mpr (meets_idle (only_logPrint _) prepared.idle fun _ => ?_)
    refine meets_bind.mpr (meets_idle (only_logPrint _) prepared.idle fun _ => ?_)
    refine meets_bind.mpr (meets_getState.mpr ⟨⟨trivial, of_idle prepared.idle⟩, ?_⟩)
    have looping : Looping arguments (Main.start fun _ => .zero).pc h g :=
      ⟨fun _ => prepared, fun loop => absurd rfl loop⟩
    refine meets_bind.mpr (looping.meets_stream fun h stops => ?_)
    exact meets_raspdifShutdown (fun _ => stops) fun h stops quiet => ⟨⟨trivial, stops⟩, quiet⟩
  refine meets_bind.mpr (meets_when.mpr ⟨fun _ => ?_, fun _ => begun g⟩)
  exact meets_update.mpr ⟨⟨trivial, stops⟩, begun _⟩

end

end Access

/-! ## Runs -/

open Access

theorem Regime.Kept.accesses {arguments : RaspdifArguments} {h : Hardware}
    {trace : List Occurrence} {m : Machine}
    (kept : (accessRegime arguments).Kept ⟨h, True⟩ trace m) :
    (accessMonitor arguments).AllowsEach h (envCalls trace) ∧
      (.ended ∈ trace → (h.after (envCalls trace)).started = true →
        (h.after (envCalls trace)).Quiet) := by
  have after : (accessRegime arguments).after ⟨h, True⟩ trace =
      ⟨h.after (envCalls trace),
        True ∧ (accessMonitor arguments).AllowsEach h (envCalls trace)⟩ :=
    (accessMonitor arguments).foldl_watch ⟨h, True⟩ (envCalls trace)
  have during := kept.during
  have ended := kept.ended
  rw [after] at during ended
  refine ⟨during.1.2, fun ends started => ?_⟩
  rcases (ended ends).2 with quiet | idle
  · exact quiet started
  · exact of_idle idle started

/-- **The output runs as configured.**  Whatever the registers held, whatever the environment
answers and whenever signals arrive: the DMA channel is activated only when the PCM
registers, the clock, the pin and the channel are programmed for the output, the transmitter
is switched on only when the channel is active too, and in every round of the loops from then
on, and around every `poll`, all of it is still as it was. -/
theorem accesses_allowed {rounds : Nat} {arguments : RaspdifArguments} {h : Hardware}
    (idle : h.started = false) {trace : List Occurrence} {m : Machine}
    (run : Run Machine.Step (Machine.start rounds arguments) trace m) :
    AtEach (fun before e _ => (h.after before).Allows arguments e.op) (envCalls trace) := by
  have kept := Regime.Kept.of_run handles_accessRegime (meets_mainRegistered idle) run
  exact kept.accesses.1

/-- **The output ends with the process.**  However a process ends that has started the output,
nothing is sent any more: the transmitter is off, the clock disabled and the DMA channel
inactive. -/
theorem ended_quiet {rounds : Nat} {arguments : RaspdifArguments} {h : Hardware}
    (idle : h.started = false) {trace : List Occurrence} {m : Machine}
    (run : Run Machine.Step (Machine.start rounds arguments) trace m) (ended : .ended ∈ trace)
    (started : (h.after (envCalls trace)).started = true) : (h.after (envCalls trace)).Quiet := by
  have kept := Regime.Kept.of_run handles_accessRegime (meets_mainRegistered idle) run
  exact kept.accesses.2 ended started

/-- Nothing is set. -/
def Hardware.clear : Hardware where
  pcm := .clear
  clock := ⟨0, 0⟩
  clockIdle := false
  gpio := ⟨fun _ => 0, []⟩
  conblkAd _ := 0
  active _ := false
  channel := none
  pi4 := false
  bus := 0
  sdram := 0
  mapped := (0, 0)
  started := false

/-- Behind a preload the output is started, and at the `poll` of an underrun all still runs. -/
theorem accesses_allowed_interrupted :
    ∃ rounds trace m, Run Machine.Step (Machine.start rounds .default) trace m ∧
      .signal .term startup.2.state.memory ∈ trace ∧
      (∃ before after, envCalls trace = before ++ activation :: after ∧
        (Hardware.clear.after before).Ready .default 13) ∧
      ∃ before after, envCalls trace = before ++ ⟨.poll, ()⟩ :: after ∧ ∃ channel,
        (Hardware.clear.after before).Fed .default channel ∧
          transmits (Hardware.clear.after before).pcm := by
  obtain ⟨rounds, before, later, m, run, -⟩ := exists_interrupted
  have allowed := atEach_iff.mp (accesses_allowed (h := .clear) rfl run)
  have calls := envCalls_underrunTrace before later
  have polls := calls.trans (List.append_cons _ _ _)
  rw [← List.append_assoc] at polls
  obtain ⟨channel, -, fed, transmitted⟩ := allowed _ _ _ polls
  refine ⟨rounds, _, m, run, signal_mem_underrunTrace before later, ?_, ?_⟩
  · exact ⟨_, _, calls, (allowed _ _ _ calls).2⟩
  · exact ⟨_, _, polls, channel, fed, transmitted.mpr rfl⟩

/-- The same process has been ended by its handler. -/
theorem ended_quiet_interrupted :
    ∃ rounds trace m, Run Machine.Step (Machine.start rounds .default) trace m ∧
      .signal .term startup.2.state.memory ∈ trace ∧ .ended ∈ trace ∧
      (Hardware.clear.after (envCalls trace)).started = true ∧
      (Hardware.clear.after (envCalls trace)).Quiet := by
  obtain ⟨rounds, before, later, m, run, -⟩ := exists_interrupted
  have ended := ended_mem_underrunTrace before later
  have started :
      (Hardware.clear.after (envCalls (underrunTrace before later))).started = true := by
    rw [Hardware.started_after, envCalls_underrunTrace, List.any_append, List.any_cons]
    exact Bool.or_true _
  exact ⟨rounds, _, m, run, signal_mem_underrunTrace before later, ended, started,
    ended_quiet (h := .clear) rfl run ended started⟩

end Raspdif.Process
