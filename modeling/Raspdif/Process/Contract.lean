import Raspdif.Process.Startup

/-!
# What the process keeps to

`contract` is what every program of the process keeps, whatever the environment answers:
`Ledger.Orderly` at every point, `Ledger.Settled` where the process ends, and no failed
assertion once `raspdif_shutdown` is entered.

Between the allocation of the block and the first request to unlock it the process is
`Holding` it, and `raspdif_shutdown` can be run from any point
(`Holding.meets_signalHandler`).  A call that fails there ends the process through `LOGF`
and leaves the block behind, which `Ledger.failed` notes.
-/

namespace Raspdif.Process

open Interaction Program BitField

/-! ## The contract -/

/-- Blocks are unlocked and released at most once and only when they were allocated, and the
only DMA channel that is disabled is that of `raspdif_init`. -/
structure Ledger.Orderly (l : Ledger) : Prop where
  strays : l.strays = []
  disabled : ∀ channel ∈ l.disabled, l.channel = some channel
  unlocks : ∀ handle, l.unlocks.count handle ≤ 1
  releases : ∀ handle, l.releases.count handle ≤ 1

/-- A block with this handle is allocated, no request to unlock it was made, and
`raspdif_shutdown` passes its assertions and disables the right channel. -/
structure Holding (handle : BitVec 32) (l : Ledger) (g : Globals) : Prop where
  granted : l.granted = [handle]
  unlocks : l.unlocks = []
  releases : l.releases = []
  strays : l.strays = []
  channel : l.channel = some g.dmaChannel
  disabled : ∀ channel ∈ l.disabled, channel = g.dmaChannel
  active : ∀ channel ∈ l.dma, channel = g.dmaChannel
  valid : g.dmaChannel < dmaChannelMax
  clock : g.clock ≠ 0
  dma : g.dma ≠ 0
  pcm : g.pcm ≠ 0
  gpio : g.gpio ≠ 0

/-- Every block was unlocked and released once, and the PCM clock and the DMA are off. -/
structure Ledger.Freed (l : Ledger) : Prop where
  unlocks : ∀ handle ∈ l.granted, l.unlocks.count handle = 1
  releases : ∀ handle ∈ l.granted, l.releases.count handle = 1
  clock : l.clock = false
  dma : l.dma = []

/-- The process may end like this. -/
structure Ledger.Settled (l : Ledger) : Prop where
  freed : l.failed = false → l.Freed
  failed : l.Clean → l.failed = false

/-- At every point of the process. -/
def During (l : Ledger) (g : Globals) : Prop :=
  l.Orderly ∧ (g.memory.handle ∈ l.granted → l.unlocks = [] → Holding g.memory.handle l g)

/-- The programs of the process.  Assertions may fail in `main` only, and not once
`raspdif_shutdown` is entered. -/
def contract (inMain : Prop) : Contract Globals Ledger environment where
  record := Ledger.after
  promised := Promised
  during := During
  exited l _ := l.Settled
  failed l _ := inMain ∧ l.shutdown = false

theorem Ledger.Freed.clean {l : Ledger} (freed : l.Freed) : l.Clean :=
  ⟨fun handle granted => ⟨fun _ => freed.unlocks handle granted, freed.releases handle granted⟩,
    freed.clock, freed.dma⟩

section

variable {l : Ledger} {g : Globals} {handle : BitVec 32} {inMain : Prop}

theorem Holding.during (holding : Holding handle l g) : During l g := by
  refine ⟨⟨holding.strays, ?_, ?_, ?_⟩, ?_⟩
  · intro channel disabled
    rw [holding.channel, holding.disabled channel disabled]
  · simp [holding.unlocks]
  · simp [holding.releases]
  · intro granted _
    rw [holding.granted, List.mem_singleton] at granted
    rw [granted]
    exact holding

/-- A failure is only noted. -/
theorem Holding.fail (holding : Holding handle l g) : Holding handle l.fail g :=
  ⟨holding.granted, holding.unlocks, holding.releases, holding.strays, holding.channel,
    holding.disabled, holding.active, holding.valid, holding.clock, holding.dma, holding.pcm,
    holding.gpio⟩

/-- A block that nothing releases is left behind. -/
theorem Holding.not_clean (holding : Holding handle l g) : ¬ l.Clean := by
  rintro ⟨blocks, -⟩
  have released := (blocks handle (by simp [holding.granted])).2
  rw [holding.releases] at released
  cases released

theorem Holding.settled_fail (holding : Holding handle l g) : l.fail.Settled where
  freed ok := by simp [Ledger.fail, holding.granted] at ok
  failed clean := absurd clean holding.fail.not_clean

/-- Before the allocation. -/
def Ledger.idle (channel : Option Nat) : Ledger := { Ledger.empty with channel := channel }

theorem during_idle (channel : Option Nat) (g : Globals) :
    During (Ledger.idle channel) g := by
  refine ⟨⟨rfl, ?_, ?_, ?_⟩, ?_⟩ <;> simp [Ledger.idle, Ledger.empty]

theorem settled_idle (channel : Option Nat) : (Ledger.idle channel).Settled where
  freed _ := by constructor <;> simp [Ledger.idle, Ledger.empty]
  failed _ := rfl

/-- A call may fail here: the process then stops. -/
structure Stoppable (l : Ledger) (g : Globals) : Prop where
  during : During l g
  duringFail : During l.fail g
  settledFail : l.fail.Settled

theorem stoppable_idle (channel : Option Nat) (g : Globals) :
    Stoppable (Ledger.idle channel) g :=
  ⟨during_idle channel g, during_idle channel g, settled_idle channel⟩

theorem Holding.stoppable (holding : Holding handle l g) : Stoppable l g :=
  ⟨holding.during, holding.fail.during, holding.settled_fail⟩

end

/-! ## Log, mailbox and memory -/

section

variable {l : Ledger} {g : Globals} {handle : BitVec 32} {inMain : Prop}
  {post : Unit → Ledger → Globals → Prop}

@[simp] theorem meets_ask {call : EnvCall} {post : call.Answer → Ledger → Globals → Prop} :
    (ask call).Meets (contract inMain) post l g ↔
      During l g ∧ ∀ answer, call.promised answer = true →
        post answer (l.answered call answer) g := meets_perform

/-- A call that leaves no mark. -/
theorem meets_ask_quiet {call : EnvCall} {post : call.Answer → Ledger → Globals → Prop}
    (during : During l g) (quiet : ∀ answer, l.answered call answer = l)
    (met : ∀ answer, post answer l g) : (ask call).Meets (contract inMain) post l g := by
  refine meets_ask.mpr ⟨during, fun answer _ => ?_⟩
  rw [quiet]
  exact met answer

theorem meets_logPrint {level : LogLevel} (notFatal : level ≠ .fatal)
    (during : During l g) (met : post () l g) :
    (logPrint level).Meets (contract inMain) post l g := by
  refine meets_bind.mpr (meets_getState.mpr ⟨during, ?_⟩)
  rw [if_neg notFatal, ite_self]
  exact met

/-- `LOGF` ends the process. -/
theorem meets_logPrint_fatal (during : During l g) (settled : l.Settled) :
    (logPrint .fatal).Meets (contract inMain) post l g := by
  refine meets_bind.mpr (meets_getState.mpr ⟨during, ?_⟩)
  rw [if_neg, if_pos rfl]
  · exact ⟨during, settled⟩
  · cases g.minLevel <;> decide

theorem meets_memoryMapPhysical {offset length : BitVec 32} {post : Nat → Ledger → Globals → Prop}
    (stoppable : Stoppable l g) (met : ∀ virtual, post virtual l g) :
    (memoryMapPhysical offset length).Meets (contract inMain) post l g := by
  refine meets_bind.mpr (meets_ask.mpr ⟨stoppable.during, fun file _ => ?_⟩)
  refine meets_ite.mpr ⟨?_, ?_⟩
  · intro failed
    rw [show l.answered .openMem file = l.fail from if_pos failed]
    exact meets_bind.mpr (meets_logPrint_fatal stoppable.duringFail stoppable.settledFail)
  · intro opened
    rw [show l.answered .openMem file = l from if_neg opened]
    refine meets_bind.mpr (meets_ask.mpr ⟨stoppable.during, fun mapped _ => ?_⟩)
    match mapped with
    | none => exact meets_bind.mpr (meets_logPrint_fatal stoppable.duringFail stoppable.settledFail)
    | some virtual =>
        refine meets_bind.mpr (meets_ask_quiet stoppable.during (fun _ => rfl) fun result => ?_)
        have logged :
            (logPrint .debug >>= fun _ => pure virtual).Meets (contract inMain) post l g :=
          meets_bind.mpr (meets_logPrint (by decide) stoppable.during (met virtual))
        refine meets_bind.mpr (meets_when.mpr ⟨fun _ => ?_, fun _ => logged⟩)
        exact meets_logPrint (by decide) stoppable.during logged

theorem meets_mailboxSend {message : MailboxMessage} {post : MailboxReply → Ledger → Globals → Prop}
    (during : During l g)
    (noDevice : ∀ mbox : Int, (EnvCall.openVcio message).promised mbox = true → mbox < 0 →
      Stoppable l g)
    (met : ∀ reply : MailboxReply, (EnvCall.ioctl message).promised reply = true →
      During (l.answered (.ioctl message) reply) g ∧
        post reply (l.answered (.ioctl message) reply) g) :
    (mailboxSend message).Meets (contract inMain) post l g := by
  refine meets_bind.mpr (meets_ask.mpr ⟨during, fun mbox promised => ?_⟩)
  refine meets_ite.mpr ⟨?_, ?_⟩
  · intro failed
    have stoppable := noDevice mbox promised failed
    rw [show l.answered (.openVcio message) mbox = l.fail from if_pos failed]
    exact meets_bind.mpr (meets_logPrint_fatal stoppable.duringFail stoppable.settledFail)
  · intro opened
    rw [show l.answered (.openVcio message) mbox = l from if_neg opened]
    refine meets_bind.mpr (meets_ask.mpr ⟨during, fun reply promised => ?_⟩)
    obtain ⟨during, met⟩ := met reply promised
    generalize l.answered (.ioctl message) reply = l at during met
    have closed : (ask .close >>= fun closed => when (closed < 0) (logPrint .error) >>=
        fun _ => pure reply).Meets (contract inMain) post l g := by
      refine meets_bind.mpr (meets_ask_quiet during (fun _ => rfl) fun closed => ?_)
      refine meets_bind.mpr (meets_when.mpr ⟨fun _ => ?_, fun _ => met⟩)
      exact meets_logPrint (by decide) during met
    refine meets_bind.mpr (meets_when.mpr ⟨fun _ => ?_, fun _ => closed⟩)
    exact meets_logPrint (by decide) during closed

/-- What `mailbox.c` makes of a reply. -/
def MailboxReply.outcome (reply : MailboxReply) (error : BitVec 32) : BitVec 32 :=
  if reply.Granted then reply.value else error

theorem meets_mailboxRequest {message : MailboxMessage} {error : BitVec 32}
    {post : BitVec 32 → Ledger → Globals → Prop} (during : During l g)
    (noDevice : ∀ mbox : Int, (EnvCall.openVcio message).promised mbox = true → mbox < 0 →
      Stoppable l g)
    (met : ∀ reply : MailboxReply, (EnvCall.ioctl message).promised reply = true →
      During (l.answered (.ioctl message) reply) g ∧
        post (reply.outcome error) (l.answered (.ioctl message) reply) g) :
    (mailboxRequest message error).Meets (contract inMain) post l g := by
  refine meets_bind.mpr (meets_mailboxSend during noDevice fun reply promised => ?_)
  obtain ⟨during, met⟩ := met reply promised
  refine ⟨during, ?_⟩
  rw [MailboxReply.outcome] at met
  refine meets_ite.mpr ⟨fun negative => ?_, fun nonneg => ?_⟩
  · rwa [if_neg fun granted => absurd negative (Int.not_lt.mpr granted.1)] at met
  refine meets_ite.mpr ⟨fun refused => ?_, fun code => ?_⟩
  · rwa [if_neg fun granted => refused granted.2.1] at met
  refine meets_ite.mpr ⟨fun refused => ?_, fun tagCode => ?_⟩
  · rwa [if_neg fun granted => refused granted.2.2] at met
  · rwa [if_pos ⟨Int.not_lt.mp nonneg, not_not.mp code, not_not.mp tagCode⟩] at met

/-- The block is allocated and locked. -/
def Ledger.held (channel : Nat) (handle : BitVec 32) : Ledger :=
  { Ledger.idle (some channel) with granted := [handle], locked := [handle] }

/-- The drivers are set up and the channel is saved. -/
structure Ready (channel : Nat) (g : Globals) : Prop where
  saved : g.dmaChannel = channel
  valid : channel < dmaChannelMax
  clock : g.clock ≠ 0
  dma : g.dma ≠ 0
  pcm : g.pcm ≠ 0
  gpio : g.gpio ≠ 0

theorem Ready.holding {channel : Nat} (ready : Ready channel g) {l : Ledger}
    (granted : l.granted = [handle]) (unlocks : l.unlocks = []) (releases : l.releases = [])
    (strays : l.strays = []) (here : l.channel = some channel) (disabled : l.disabled = [])
    (dma : l.dma = []) : Holding handle l g where
  granted := granted
  unlocks := unlocks
  releases := releases
  strays := strays
  channel := by rw [here, ready.saved]
  disabled := by simp [disabled]
  active := by simp [dma]
  valid := by
    rw [ready.saved]
    exact ready.valid
  clock := ready.clock
  dma := ready.dma
  pcm := ready.pcm
  gpio := ready.gpio

theorem Ready.held {channel : Nat} (ready : Ready channel g) (handle : BitVec 32) :
    Holding handle (.held channel handle) g :=
  ready.holding rfl rfl rfl rfl rfl rfl rfl

/-- No address stands for an error, and the process has to end. -/
theorem meets_mailboxLockMemory {post : BitVec 32 → Ledger → Globals → Prop}
    (holding : Holding handle l g)
    (refused : ∀ l, During l g → l.Settled → post 0 l g)
    (locked : ∀ address, address ≠ 0 →
      post address { l with locked := l.locked ++ [handle] } g) :
    (mailboxLockMemory handle).Meets (contract inMain) post l g := by
  have noted : Holding handle { l with locked := l.locked ++ [handle] } g := { holding with }
  refine meets_mailboxRequest holding.during (fun _ _ _ => holding.stoppable) fun reply _ => ?_
  rw [MailboxReply.outcome, Ledger.answered]
  split
  case isTrue granted =>
    dsimp only
    by_cases null : reply.value = 0
    · rw [if_pos null, null]
      exact ⟨noted.fail.during, refused _ noted.fail.during noted.settled_fail⟩
    · rw [if_neg null]
      exact ⟨noted.during, locked _ null⟩
  case isFalse =>
    exact ⟨holding.fail.during, refused _ holding.fail.during holding.settled_fail⟩

/-- Either the block is allocated and locked at the address that comes back, or there is no
address and the process has to end. -/
theorem meets_memoryAllocatePhysical {channel : Nat} {length : BitVec 32}
    {post : MemoryPhysical → Ledger → Globals → Prop} (ready : Ready channel g)
    (refused : ∀ handle l, During l g → l.Settled → post ⟨handle, 0⟩ l g)
    (locked : ∀ handle address, address ≠ 0 → post ⟨handle, address⟩ (.held channel handle) g) :
    (memoryAllocatePhysical length).Meets (contract inMain) post (.idle (some channel)) g := by
  have idle := stoppable_idle (some channel) g
  have stop {handle : BitVec 32} {inMain : Prop} {l : Ledger} (during : During l g)
      (settled : l.Settled) :
      (logPrint .error >>= fun _ => pure (⟨handle, 0⟩ : MemoryPhysical)).Meets (contract inMain)
        post l g :=
    meets_bind.mpr (meets_logPrint (by decide) during (refused handle l during settled))
  refine meets_bind.mpr (meets_ask_quiet idle.during (fun _ => rfl) fun pageSize => ?_)
  refine meets_bind.mpr (meets_mailboxRequest idle.during (fun _ _ _ => idle) fun reply _ => ?_)
  rw [MailboxReply.outcome, Ledger.answered]
  split
  case isTrue granted =>
    have holding : Holding reply.value { Ledger.idle (some channel) with
        granted := [reply.value], failed := reply.value.msb } g :=
      ready.holding rfl rfl rfl rfl rfl rfl rfl
    refine ⟨holding.during, meets_ite.mpr ⟨fun negative => ?_, fun nonneg => ?_⟩⟩
    · have failed : reply.value.msb = true := by
        rw [BitVec.msb_eq_toInt]
        exact decide_eq_true negative
      exact stop holding.during ⟨fun ok => Bool.noConfusion (failed.symm.trans ok),
        fun clean => absurd clean holding.not_clean⟩
    · have ok : reply.value.msb = false := by
        rw [BitVec.msb_eq_toInt]
        exact decide_eq_false nonneg
      rw [ok] at holding ⊢
      refine meets_bind.mpr (meets_mailboxLockMemory holding (fun l during settled => ?_)
        fun address some => ?_)
      · exact meets_ite.mpr ⟨fun _ => stop during settled, fun some => absurd rfl some⟩
      · refine meets_ite.mpr ⟨fun none => absurd none some, fun _ => ?_⟩
        exact meets_bind.mpr (meets_logPrint (by decide) (ready.held _).during (locked _ _ some))
  case isFalse =>
    refine ⟨idle.during, meets_ite.mpr ⟨fun _ => ?_, fun nonneg => absurd (by decide) nonneg⟩⟩
    exact stop idle.during (settled_idle _)

/-- The block after `memory_release_physical`. -/
def Ledger.freed (l : Ledger) (handle : BitVec 32) : Ledger :=
  { l with unlocks := [handle], releases := [handle] }

/-- Behind the request to unlock a block that was held. -/
theorem Holding.during_unlocked (holding : Holding handle l g) {l' : Ledger}
    (unlocks : l'.unlocks = [handle]) (releases : l'.releases = [] ∨ l'.releases = [handle])
    (strays : l'.strays = l.strays) (channel : l'.channel = l.channel)
    (disabled : l'.disabled = l.disabled) : During l' g := by
  have once (other : BitVec 32) : [handle].count other ≤ 1 := List.count_le_length
  refine ⟨⟨by rw [strays, holding.strays], ?_, ?_, ?_⟩, ?_⟩
  · rw [disabled, channel]
    exact holding.during.1.disabled
  · rw [unlocks]
    exact once
  · rcases releases with none | one
    · simp [none]
    · rw [one]
      exact once
  · intro _ none
    rw [unlocks] at none
    cases none

/-- The firmware keeps its promise, and the block is unlocked and released. -/
theorem meets_memoryReleasePhysical {memory : MemoryPhysical}
    {post : BitVec 32 → Ledger → Globals → Prop} (holding : Holding memory.handle l g)
    (met : post 0 (l.freed memory.handle) g) :
    (memoryReleasePhysical memory).Meets (contract inMain) post l g := by
  have granted : memory.handle ∈ l.granted := by simp [holding.granted]
  have unlock : During { l with unlocks := [memory.handle] } g :=
    holding.during_unlocked rfl (Or.inl holding.releases) rfl rfl rfl
  have release : During (l.freed memory.handle) g :=
    holding.during_unlocked rfl (Or.inr rfl) rfl rfl rfl
  have kept : l.stray memory.handle = l := by
    rw [Ledger.stray, if_pos granted]
  have opens {mbox : Int} (promised : decide (0 ≤ mbox) = true) : ¬ mbox < 0 :=
    Int.not_lt.mpr (of_decide_eq_true promised)
  refine meets_bind.mpr (meets_mailboxRequest holding.during
    (fun mbox promised failed => absurd failed (opens promised)) fun reply promised => ?_)
  have promised := of_decide_eq_true promised
  have first : l.answered (.ioctl (.unlockMemory memory.handle)) reply =
      { l with unlocks := [memory.handle] } := by
    rw [Ledger.answered, kept, if_pos promised.1, holding.unlocks, List.nil_append]
  rw [first, MailboxReply.outcome, if_pos promised.1, promised.2]
  refine ⟨unlock, meets_ite.mpr ⟨fun negative => absurd negative (by decide), fun _ => ?_⟩⟩
  refine meets_bind.mpr (meets_mailboxRequest unlock
    (fun mbox promised failed => absurd failed (opens promised)) fun reply promised => ?_)
  have promised := of_decide_eq_true promised
  have second : ({ l with unlocks := [memory.handle] } : Ledger).answered
      (.ioctl (.releaseMemory memory.handle)) reply = l.freed memory.handle := by
    have kept : ({ l with unlocks := [memory.handle] } : Ledger).stray memory.handle =
        { l with unlocks := [memory.handle] } := by
      rw [Ledger.stray, if_pos granted]
    rw [Ledger.answered, kept, if_pos promised.1, holding.releases, List.nil_append, Ledger.freed]
  rw [second, MailboxReply.outcome, if_pos promised.1, promised.2]
  refine ⟨release, meets_ite.mpr ⟨fun negative => absurd negative (by decide), fun _ => met⟩⟩

end

/-! ## Drivers -/

section

variable {l : Ledger} {g : Globals} {handle : BitVec 32} {inMain : Prop}
  {post : Unit → Ledger → Globals → Prop}

theorem meets_askAll {calls : List EnvCall} (during : During l g)
    (quiet : ∀ call ∈ calls, ∀ answer, l.answered call answer = l) (met : post () l g) :
    (askAll calls).Meets (contract inMain) post l g :=
  meets_performAll during quiet met

theorem meets_pcmStores {stores : List PcmStore} (during : During l g)
    (met : post () l g) : (pcmStores stores).Meets (contract inMain) post l g := by
  refine meets_askAll during ?_ met
  intro call member answer
  obtain ⟨store, -, rfl⟩ := List.mem_map.mp member
  rfl

theorem meets_microsleep_short {microseconds : BitVec 32} (short : microseconds.toNat < 1000000)
    (during : During l g) (met : post () l g) :
    (microsleep microseconds).Meets (contract inMain) post l g := by
  rw [microsleep, microsleep_of_lt short]
  exact meets_ask_quiet during (fun _ => rfl) fun _ => met

/-- An assertion may fail as long as it is not one of `raspdif_shutdown`. -/
theorem meets_assert_early {P : Prop} [Decidable P] (during : During l g)
    (early : inMain ∧ l.shutdown = false) (met : post () l g) :
    (assert P : Prog Unit).Meets (contract inMain) post l g :=
  meets_assert.mpr ⟨fun _ => met, fun _ => ⟨during, early⟩⟩

theorem meets_microsleep {microseconds : BitVec 32} (during : During l g)
    (early : inMain ∧ l.shutdown = false) (met : post () l g) :
    (microsleep microseconds).Meets (contract inMain) post l g := by
  rw [microsleep]
  cases Raspdif.microsleep microseconds with
  | none => exact ⟨during, early⟩
  | some delay => exact meets_ask_quiet during (fun _ => rfl) fun _ => met

theorem Holding.meets_assertPcm (holding : Holding handle l g) (met : post () l g) :
    assertPcm.Meets (contract inMain) post l g :=
  meets_bind.mpr (meets_getState.mpr ⟨holding.during, meets_assert_of holding.pcm met⟩)

theorem Holding.meets_bcm283xPcmReset (holding : Holding handle l g) (met : post () l g) :
    bcm283xPcmReset.Meets (contract inMain) post l g := by
  refine meets_bind.mpr (holding.meets_assertPcm ?_)
  refine meets_bind.mpr (meets_pcmStores holding.during ?_)
  refine meets_bind.mpr (meets_microsleep_short (by decide) holding.during ?_)
  exact meets_pcmStores holding.during met

theorem Holding.meets_bcm283xPcmConfigure {config : PcmConfiguration}
    (holding : Holding handle l g) (met : post () l g) :
    (bcm283xPcmConfigure config).Meets (contract inMain) post l g := by
  refine meets_bind.mpr (holding.meets_assertPcm ?_)
  refine meets_bind.mpr (meets_pcmStores holding.during ?_)
  refine meets_bind.mpr (meets_microsleep_short (by decide) holding.during ?_)
  refine meets_bind.mpr (meets_pcmStores holding.during ?_)
  exact meets_microsleep_short (by decide) holding.during met

theorem Holding.meets_bcm283xPcmConfigureDma {enable : Bool} {config : PcmDmaConfig}
    (holding : Holding handle l g) (early : inMain ∧ l.shutdown = false) (met : post () l g) :
    (bcm283xPcmConfigureDma enable config).Meets (contract inMain) post l g := by
  have during := holding.during
  refine meets_bind.mpr (holding.meets_assertPcm ?_)
  refine meets_bind.mpr (meets_assert_early during early ?_)
  refine meets_bind.mpr (meets_assert_early during early ?_)
  refine meets_bind.mpr (meets_assert_early during early ?_)
  refine meets_bind.mpr (meets_assert_early during early ?_)
  exact meets_pcmStores during met

theorem Holding.meets_bcm283xPcmConfigureTransmitChannels
    {channel1 channel2 : Option PcmChannelConfig} (holding : Holding handle l g)
    (met : post () l g) :
    (bcm283xPcmConfigureTransmitChannels channel1 channel2).Meets (contract inMain) post l g := by
  refine meets_bind.mpr (holding.meets_assertPcm ?_)
  refine meets_bind.mpr (meets_pcmStores holding.during ?_)
  exact meets_pcmStores holding.during met

theorem Holding.meets_bcm283xPcmClearFifos (holding : Holding handle l g) (met : post () l g) :
    bcm283xPcmClearFifos.Meets (contract inMain) post l g := by
  have during := holding.during
  refine meets_bind.mpr (holding.meets_assertPcm ?_)
  refine meets_bind.mpr (meets_pcmStores during ?_)
  refine meets_bind.mpr (holding.meets_assertPcm ?_)
  refine meets_bind.mpr (meets_pcmStores during ?_)
  refine meets_bind.mpr (meets_ask_quiet during (fun _ => rfl) fun _ => ?_)
  refine meets_bind.mpr (meets_pcmStores during ?_)
  exact meets_ask_quiet during (fun _ => rfl) fun _ => met

theorem Holding.meets_bcm283xGpioConfigureMask {mask : BitVec 32} {config : GpioConfiguration}
    (holding : Holding handle l g) (met : post () l g) :
    (bcm283xGpioConfigureMask mask config).Meets (contract inMain) post l g := by
  refine meets_bind.mpr (meets_getState.mpr ⟨holding.during, ?_⟩)
  refine meets_bind.mpr (meets_assert_of (fun _ => holding.gpio) ?_)
  exact meets_ask_quiet holding.during (fun _ => rfl) fun _ => met

theorem Holding.meets_bcm283xDmaGetChannel (holding : Holding handle l g) (met : post () l g) :
    (bcm283xDmaGetChannel g.dmaChannel).Meets (contract inMain) post l g := by
  refine meets_bind.mpr (meets_getState.mpr ⟨holding.during, ?_⟩)
  exact meets_bind.mpr (meets_assert_of holding.dma (meets_assert_of holding.valid met))

theorem Holding.meets_bcm283xDmaReset (holding : Holding handle l g) (met : post () l g) :
    (bcm283xDmaReset g.dmaChannel).Meets (contract inMain) post l g := by
  refine meets_bind.mpr (holding.meets_bcm283xDmaGetChannel ?_)
  refine meets_askAll holding.during ?_ met
  intro call member answer
  obtain ⟨store, member, rfl⟩ := List.mem_map.mp member
  cases store with
  | csActive enable => simp at member
  | _ => rfl

theorem Holding.meets_bcm283xDmaSetControlBlock {control : BitVec 32}
    (holding : Holding handle l g) (early : inMain ∧ l.shutdown = false) (met : post () l g) :
    (bcm283xDmaSetControlBlock g.dmaChannel control).Meets (contract inMain) post l g := by
  refine meets_bind.mpr (meets_assert_early holding.during early ?_)
  refine meets_bind.mpr (holding.meets_bcm283xDmaGetChannel ?_)
  exact meets_ask_quiet holding.during (fun _ => rfl) fun _ => met

theorem Holding.meets_bcm283xDmaEnable (holding : Holding handle l g)
    (met : post () { l with dma := g.dmaChannel :: l.dma } g) :
    (bcm283xDmaEnable g.dmaChannel true).Meets (contract inMain) post l g := by
  refine meets_bind.mpr (holding.meets_bcm283xDmaGetChannel ?_)
  exact meets_ask.mpr ⟨holding.during, fun _ _ => met⟩

theorem Holding.meets_bcm283xDmaDisable (holding : Holding handle l g)
    (met : post () { l with dma := [], disabled := l.disabled ++ [g.dmaChannel] } g) :
    (bcm283xDmaEnable g.dmaChannel false).Meets (contract inMain) post l g := by
  refine meets_bind.mpr (holding.meets_bcm283xDmaGetChannel (meets_ask.mpr ⟨holding.during, ?_⟩))
  intro _ _
  have off : l.dma.filter (· ≠ g.dmaChannel) = [] := by
    rw [List.filter_eq_nil_iff]
    intro channel active
    simp [holding.active channel active]
  change post () { l with dma := l.dma.filter (· ≠ g.dmaChannel), disabled := _ } g
  rw [off]
  exact met

theorem Holding.clocked (holding : Holding handle l g) (clock : Bool) :
    Holding handle { l with clock := clock } g :=
  { holding with }

theorem Holding.meets_bcm283xClockGetPeripheralClock (holding : Holding handle l g)
    (met : post () l g) : bcm283xClockGetPeripheralClock.Meets (contract inMain) post l g := by
  refine meets_bind.mpr (meets_getState.mpr ⟨holding.during, ?_⟩)
  refine meets_bind.mpr (meets_assert_of holding.clock (meets_assert_of ?_ met))
  exact Nat.ne_of_gt (Nat.add_pos_right _ (by decide))

/-- The word that is written to the control register of the clock. -/
theorem answered_writeClockControl (l : Ledger) (control : BitVec 32) (enable : Bool)
    (answer : Unit) :
    l.answered (.writeClockControl (ClockControl.enab.set
      (ClockControl.passwd.set control clockManagerPassword) enable.toNat)) answer =
      { l with clock := enable } := by
  have password : ClockControl.passwd.get (ClockControl.enab.set
      (ClockControl.passwd.set control clockManagerPassword) enable.toNat) =
      clockManagerPassword := by
    rw [Field.get_set_of_apart (by decide), Field.get_set_of_lt (by decide)]
  rw [Ledger.answered, if_pos password, Field.get_set_of_lt (by cases enable <;> decide)]
  cases enable <;> rfl

theorem Holding.meets_bcm283xClockEnable {enable : Bool} (holding : Holding handle l g)
    (met : post () { l with clock := enable } g) :
    (bcm283xClockEnable enable).Meets (contract inMain) post l g := by
  refine meets_bind.mpr (holding.meets_bcm283xClockGetPeripheralClock ?_)
  refine meets_bind.mpr (meets_ask_quiet holding.during (fun _ => rfl) fun control => ?_)
  refine meets_ask.mpr ⟨holding.during, fun answer _ => ?_⟩
  rw [answered_writeClockControl]
  exact met

/-- The word that reconfigures the clock does not enable it. -/
theorem answered_clockConfigure (l : Ledger) (config : ClockConfiguration) (answer : Unit) :
    l.answered (.writeClockControl (ClockControl.flip.set (ClockControl.mash.set
      (ClockControl.src.set (ClockControl.passwd.set 0 clockManagerPassword) config.source.code)
        config.mash.code) config.invert.toNat)) answer = { l with clock := false } := by
  rw [Ledger.answered, if_pos]
  · rw [Field.get_set_of_apart (by decide), Field.get_set_of_apart (by decide),
      Field.get_set_of_apart (by decide), Field.get_set_of_apart (by decide)]
    rfl
  · rw [Field.get_set_of_apart (by decide), Field.get_set_of_apart (by decide),
      Field.get_set_of_apart (by decide), Field.get_set_of_lt (by decide)]

theorem Holding.meets_bcm283xClockConfigure {config : ClockConfiguration}
    (holding : Holding handle l g) (early : inMain ∧ l.shutdown = false)
    (met : post () { l with clock := false } g) :
    (bcm283xClockConfigure config).Meets (contract inMain) post l g := by
  refine meets_bind.mpr (meets_assert_early holding.during early ?_)
  refine meets_bind.mpr (holding.meets_bcm283xClockGetPeripheralClock ?_)
  refine meets_bind.mpr (meets_ask_quiet holding.during (fun _ => rfl) fun control => ?_)
  refine meets_bind.mpr (meets_ask.mpr ⟨holding.during, fun answer _ => ?_⟩)
  rw [show (0 : Nat) = false.toNat from rfl, answered_writeClockControl]
  have during := (holding.clocked false).during
  refine meets_bind.mpr (meets_ask_quiet during (fun _ => rfl) fun _ => ?_)
  refine meets_bind.mpr (meets_ask.mpr ⟨during, fun answer _ => ?_⟩)
  rw [answered_clockConfigure]
  exact meets_ask_quiet during (fun _ => rfl) fun _ => met

end

/-! ## Start and end -/

section

variable {l : Ledger} {g : Globals} {handle : BitVec 32} {inMain : Prop} {channel : Nat}
  {post : Unit → Ledger → Globals → Prop}

/-- No driver has been set up. -/
structure Fresh (g : Globals) : Prop where
  virtualBase : g.virtualBase = 0
  clock : g.clock = 0
  gpio : g.gpio = 0
  dma : g.dma = 0
  pcm : g.pcm = 0

theorem meets_driverInit {saved : Globals → Nat} {save : Globals → Globals} {base : Nat}
    (during : During l g) (some : base ≠ 0) (none : saved g = 0)
    (met : post () l (save g)) : (driverInit saved save base).Meets (contract inMain) post l g := by
  refine meets_bind.mpr (meets_assert_of some ?_)
  refine meets_bind.mpr (meets_getState.mpr ⟨during, ?_⟩)
  exact meets_bind.mpr (meets_assert_of none (meets_update.mpr ⟨during, met⟩))

theorem Fresh.meets_bcm283xInit {c : Option Nat} (fresh : Fresh g)
    (met : ∀ g : Globals, g.clock ≠ 0 → g.gpio ≠ 0 → g.dma ≠ 0 → g.pcm ≠ 0 →
      post () (.idle c) g) :
    bcm283xInit.Meets (contract inMain) post (.idle c) g := by
  have during := during_idle c
  refine meets_bind.mpr (meets_getState.mpr ⟨during g, ?_⟩)
  rw [if_neg (not_not.mpr fresh.virtualBase)]
  refine meets_bind.mpr (meets_ask_quiet (during g) (fun _ => rfl) fun physicalBase => ?_)
  refine meets_bind.mpr (meets_ask_quiet (during g) (fun _ => rfl) fun length => ?_)
  refine meets_bind.mpr (meets_memoryMapPhysical (stoppable_idle c g) fun virtualBase => ?_)
  refine meets_bind.mpr (meets_update.mpr ⟨during g, ?_⟩)
  refine meets_ite.mpr ⟨fun _ => meets_logPrint_fatal (during _) (settled_idle c), fun _ => ?_⟩
  have clock : virtualBase + 0x00101000 ≠ 0 := Nat.ne_of_gt (Nat.add_pos_right _ (by decide))
  have gpio : virtualBase + 0x00200000 ≠ 0 := Nat.ne_of_gt (Nat.add_pos_right _ (by decide))
  have dma : virtualBase + 0x00007000 ≠ 0 := Nat.ne_of_gt (Nat.add_pos_right _ (by decide))
  have pcm : virtualBase + 0x00203000 ≠ 0 := Nat.ne_of_gt (Nat.add_pos_right _ (by decide))
  refine meets_bind.mpr (meets_driverInit (during _) clock fresh.clock ?_)
  refine meets_bind.mpr (meets_driverInit (during _) gpio fresh.gpio ?_)
  refine meets_bind.mpr (meets_driverInit (during _) dma fresh.dma ?_)
  exact meets_driverInit (during _) pcm fresh.pcm (met _ clock gpio dma pcm)

theorem Holding.meets_configureOutput {config : ClockConfiguration}
    (holding : Holding handle l g) (early : inMain ∧ l.shutdown = false)
    (met : post () { l with clock := true } g) :
    (configureOutput config).Meets (contract inMain) post l g := by
  refine meets_bind.mpr (holding.meets_bcm283xClockConfigure early ?_)
  refine meets_bind.mpr ((holding.clocked false).meets_bcm283xClockEnable ?_)
  have clocked := holding.clocked true
  refine meets_bind.mpr (clocked.meets_bcm283xPcmReset ?_)
  refine meets_bind.mpr (clocked.meets_bcm283xPcmConfigure ?_)
  refine meets_bind.mpr (clocked.meets_bcm283xPcmConfigureDma early ?_)
  refine meets_bind.mpr (clocked.meets_bcm283xPcmConfigureTransmitChannels ?_)
  refine meets_bind.mpr (clocked.meets_bcm283xPcmClearFifos ?_)
  exact clocked.meets_bcm283xGpioConfigureMask met

theorem meets_convertDivisor {computed : Option ClockConfiguration}
    {post : ClockConfiguration → Ledger → Globals → Prop} (during : During l g)
    (met : ∀ config, post config l g) :
    (convertDivisor computed).Meets (contract inMain) post l g := by
  cases computed with
  | some config => exact met config
  | none =>
      refine meets_bind.mpr (meets_ask_quiet during (fun _ => rfl) fun divi => ?_)
      exact meets_bind.mpr (meets_ask_quiet during (fun _ => rfl) fun divf => met _)

theorem Holding.meets_configurePeripherals {bus : BitVec 32} {rate : ℚ}
    (holding : Holding handle l g) (early : inMain ∧ l.shutdown = false)
    (met : post () { l with clock := true } g) :
    (configurePeripherals bus rate).Meets (contract inMain) post l g := by
  have during := holding.during
  refine meets_bind.mpr (meets_getState.mpr ⟨during, ?_⟩)
  refine meets_bind.mpr (holding.meets_bcm283xDmaReset ?_)
  refine meets_bind.mpr (meets_getState.mpr ⟨during, ?_⟩)
  refine meets_bind.mpr (holding.meets_bcm283xDmaSetControlBlock early ?_)
  refine meets_bind.mpr (meets_logPrint (by decide) during ?_)
  refine meets_bind.mpr (meets_ask_quiet during (fun _ => rfl) fun pi4 => ?_)
  refine meets_bind.mpr (meets_convertDivisor during fun config => ?_)
  refine meets_bind.mpr (meets_logPrint (by decide) during ?_)
  exact holding.meets_configureOutput early met

theorem Ready.remembers (ready : Ready channel g) (memory : MemoryPhysical) :
    Ready channel { g with memory := memory } := { ready with }

theorem settled_freed (channel : Nat) (handle : BitVec 32) :
    ((Ledger.held channel handle).freed handle).Settled where
  freed _ := by constructor <;> simp [Ledger.freed, Ledger.held, Ledger.idle, Ledger.empty]
  failed _ := rfl

/-- `raspdif_init` returns with a block that is allocated, locked and saved. -/
theorem Fresh.meets_raspdifInit {rate : ℚ} (fresh : Fresh g) (valid : channel < dmaChannelMax)
    (met : ∀ g, Ready channel g →
      post () { Ledger.held channel g.memory.handle with clock := true } g) :
    (raspdifInit channel rate).Meets (contract True) post (.idle none) g := by
  refine meets_bind.mpr (meets_ask.mpr ⟨during_idle none g, fun _ _ => ?_⟩)
  change Meets (contract True) post _ (.idle (some channel)) g
  refine meets_bind.mpr (fresh.meets_bcm283xInit fun g clock gpio dma pcm => ?_)
  refine meets_bind.mpr (meets_update.mpr ⟨during_idle _ g, ?_⟩)
  have ready : Ready channel { g with dmaChannel := channel } :=
    ⟨rfl, valid, clock, dma, pcm, gpio⟩
  generalize { g with dmaChannel := channel } = g at ready
  refine meets_bind.mpr (meets_logPrint (by decide) (during_idle _ g) ?_)
  refine meets_bind.mpr (meets_memoryAllocatePhysical ready (fun handle l during settled => ?_)
    fun handle address some => ?_)
  · exact meets_bind.mpr (meets_when.mpr ⟨fun _ => meets_logPrint_fatal during settled,
      fun some => absurd rfl some⟩)
  refine meets_bind.mpr (meets_when.mpr ⟨fun none => absurd none some, fun _ => ?_⟩)
  refine meets_bind.mpr (meets_update.mpr ⟨(ready.held handle).during, ?_⟩)
  have ready := ready.remembers ⟨handle, address⟩
  have holding := ready.held handle
  refine meets_bind.mpr (meets_ask_quiet holding.during (fun _ => rfl) fun sdram => ?_)
  refine meets_bind.mpr (meets_memoryMapPhysical holding.stoppable fun virtualBase => ?_)
  refine meets_bind.mpr (meets_when.mpr ⟨fun _ => ?_, fun _ => ?_⟩)
  · -- The block is released before the process ends.
    refine meets_bind.mpr (meets_memoryReleasePhysical holding ?_)
    refine meets_logPrint_fatal ?_ (settled_freed channel handle)
    exact holding.during_unlocked rfl (Or.inr rfl) rfl rfl rfl
  · refine meets_bind.mpr (meets_assert_of rfl ?_)
    refine meets_bind.mpr (meets_update.mpr ⟨holding.during, ?_⟩)
    have ready : Ready channel { { g with memory := ⟨handle, address⟩ } with
      controlBus := address, controlVirtual := virtualBase } := { ready with }
    exact (ready.held handle).meets_configurePeripherals ⟨trivial, rfl⟩ (met _ ready)

/-! ## The loops -/

/-- In the loops of `main`. -/
structure Streaming (handle : BitVec 32) (l : Ledger) (g : Globals) : Prop where
  holding : Holding handle l g
  early : l.shutdown = false
  ok : l.failed = false

theorem Streaming.meets_delay {computed : Option (BitVec 32)} (streaming : Streaming handle l g)
    (met : post () l g) : (delay computed).Meets (contract True) post l g := by
  have during := streaming.holding.during
  cases computed with
  | some microseconds => exact meets_microsleep during ⟨trivial, streaming.early⟩ met
  | none =>
      refine meets_bind.mpr (meets_ask_quiet during (fun _ => rfl) fun microseconds => ?_)
      exact meets_microsleep during ⟨trivial, streaming.early⟩ met

theorem Streaming.meets_testPosition {setup : Setup} {rate : ℚ} {answers : Answers}
    {index : Option Nat} (streaming : Streaming handle l g) (met : post () l g) :
    (testPosition setup rate answers index).Meets (contract True) post l g := by
  cases index with
  | none => exact met
  | some index =>
      refine meets_bind.mpr (meets_getState.mpr ⟨streaming.holding.during, ?_⟩)
      refine meets_bind.mpr (streaming.holding.meets_bcm283xDmaGetChannel ?_)
      exact meets_when.mpr ⟨fun _ => streaming.meets_delay met, fun _ => met⟩

theorem Streaming.started (streaming : Streaming handle l g) :
    Streaming handle { l with dma := g.dmaChannel :: l.dma } g where
  holding :=
    { streaming.holding with
      active := List.forall_mem_cons.mpr ⟨rfl, streaming.holding.active⟩ }
  early := streaming.early
  ok := streaming.ok

theorem Streaming.meets_startTransmit (streaming : Streaming handle l g)
    (met : ∀ l, Streaming handle l g → post () l g) :
    startTransmit.Meets (contract True) post l g := by
  have during := streaming.holding.during
  refine meets_bind.mpr (meets_logPrint (by decide) during ?_)
  refine meets_bind.mpr (meets_getState.mpr ⟨during, ?_⟩)
  refine meets_bind.mpr (streaming.holding.meets_bcm283xDmaEnable ?_)
  have during := streaming.started.holding.during
  refine meets_bind.mpr (meets_pcmStores during ?_)
  exact meets_ask_quiet during (fun _ => rfl) fun _ => met _ streaming.started

/-- Whether or not it is run, nothing changes. -/
theorem meets_when_quiet {P : Prop} [Decidable P] {p : Prog Unit}
    (quiet : ∀ {post : Unit → Ledger → Globals → Prop}, post () l g →
      p.Meets (contract True) post l g)
    (met : post () l g) : (when P p).Meets (contract True) post l g :=
  meets_when.mpr ⟨fun _ => quiet met, fun _ => met⟩

theorem meets_waitForInput {pcmDisable : Bool} (during : During l g) (met : post () l g) :
    (waitForInput pcmDisable).Meets (contract True) post l g := by
  have quiet {transmit : Bool} {post : Unit → Ledger → Globals → Prop} (met : post () l g) :
      (bcm283xPcmEnable transmit false >>= fun _ => logPrint .debug).Meets (contract True)
        post l g :=
    meets_bind.mpr (meets_pcmStores during (meets_logPrint (by decide) during met))
  refine meets_bind.mpr (meets_when_quiet quiet ?_)
  refine meets_bind.mpr (meets_ask_quiet during (fun _ => rfl) fun _ => ?_)
  refine meets_bind.mpr (meets_when_quiet quiet ?_)
  exact meets_logPrint (by decide) during met

theorem Streaming.meets_stepCalls {pcmDisable : Bool} {pc next : Pc}
    (streaming : Streaming handle l g) (met : ∀ l, Streaming handle l g → post () l g) :
    (stepCalls pcmDisable pc next).Meets (contract True) post l g := by
  have waits (l : Ledger) (streaming : Streaming handle l g) :
      (when (pc = .poll) (waitForInput pcmDisable)).Meets (contract True) post l g :=
    meets_when.mpr ⟨fun _ => meets_waitForInput streaming.holding.during (met l streaming),
      fun _ => met l streaming⟩
  exact meets_bind.mpr (meets_when.mpr ⟨fun _ => streaming.meets_startTransmit waits,
    fun _ => waits l streaming⟩)

/-- The block stays allocated through the loops, for whatever number of steps. -/
theorem Streaming.meets_stream {setup : Setup} {arguments : RaspdifArguments} {rounds : Nat}
    {s : Main} (streaming : Streaming handle l g)
    (met : ∀ l, Streaming handle l g → post () l g) :
    (stream setup arguments rounds s).Meets (contract True) post l g := by
  induction rounds generalizing l s with
  | zero => exact streaming.holding.during
  | succ rounds ih =>
      refine meets_ite.mpr ⟨fun _ => met l streaming, fun _ => ?_⟩
      have during := streaming.holding.during
      refine meets_bind.mpr (meets_ask_quiet during (fun _ => rfl) fun outside => ?_)
      refine meets_bind.mpr (streaming.meets_testPosition ?_)
      generalize (arrive s outside).step setup outside.answers = step
      match step with
      | none => exact ih streaming
      | some (next, events) =>
          exact meets_bind.mpr (streaming.meets_stepCalls fun l streaming => ih streaming)

/-! ## The end -/

/-- `raspdif_shutdown` passes its assertions and leaves nothing behind. -/
theorem Holding.meets_raspdifShutdown (holding : Holding g.memory.handle l g)
    (met : ∀ l' : Ledger, During l' g → l'.Freed → l'.failed = l.failed →
      post () l' g) :
    raspdifShutdown.Meets (contract inMain) post l g := by
  refine meets_bind.mpr (meets_ask.mpr ⟨holding.during, fun _ _ => ?_⟩)
  have entered : Holding g.memory.handle { l with shutdown := true } g := { holding with }
  refine meets_bind.mpr (entered.meets_bcm283xPcmReset ?_)
  refine meets_bind.mpr (entered.meets_bcm283xClockEnable ?_)
  have unclocked := entered.clocked false
  refine meets_bind.mpr (meets_getState.mpr ⟨unclocked.during, ?_⟩)
  refine meets_bind.mpr (unclocked.meets_bcm283xDmaDisable ?_)
  have off : Holding g.memory.handle { l with
      shutdown := true
      clock := false
      dma := []
      disabled := l.disabled ++ [g.dmaChannel] } g :=
    { holding with
      disabled := List.forall_mem_append.mpr ⟨holding.disabled, by simp⟩
      active := by simp }
  refine meets_bind.mpr (meets_getState.mpr ⟨off.during, ?_⟩)
  refine meets_bind.mpr (meets_memoryReleasePhysical off ?_)
  refine met _ (off.during_unlocked rfl (Or.inr rfl) rfl rfl rfl) ⟨?_, ?_, rfl, rfl⟩ rfl
  · simp [Ledger.freed, holding.granted]
  · simp [Ledger.freed, holding.granted]

theorem Ledger.Freed.settled {l : Ledger} (freed : l.Freed) (ok : l.failed = false) : l.Settled :=
  ⟨fun _ => freed, fun _ => ok⟩

theorem Holding.meets_signalHandler (holding : Holding g.memory.handle l g)
    (ok : l.failed = false) : signalHandler.Meets (contract inMain) post l g := by
  refine meets_bind.mpr (meets_logPrint (by decide) holding.during ?_)
  refine meets_bind.mpr (holding.meets_raspdifShutdown fun l' during freed same => ?_)
  exact meets_exit.mpr ⟨during, freed.settled (same.trans ok)⟩

/-! ## The program -/

/-- Where `main` returns, the process ends. -/
def Returned (_ : Unit) (l : Ledger) (g : Globals) : Prop := During l g ∧ l.Settled

theorem Fresh.meets_mainRegistered {rounds : Nat} {arguments : RaspdifArguments}
    (fresh : Fresh g) :
    (mainRegistered rounds arguments).Meets (contract True) Returned (.idle none) g := by
  have idle := during_idle none
  have verbose : (when (arguments.verbose = true) (logSetLevel .debug)).Meets (contract True)
      (fun _ l g => l = .idle none ∧ Fresh g) (.idle none) g :=
    meets_when.mpr ⟨fun _ => meets_update.mpr ⟨idle g, rfl, { fresh with }⟩,
      fun _ => ⟨rfl, fresh⟩⟩
  refine meets_bind.mpr (verbose.mono ?_)
  rintro - l g ⟨rfl, fresh⟩
  refine meets_bind.mpr (meets_ask_quiet (idle g) (fun _ => rfl) fun pi4 => ?_)
  refine meets_bind.mpr (fresh.meets_raspdifInit (by cases pi4 <;> decide) fun g ready => ?_)
  have holding := (ready.held g.memory.handle).clocked true
  refine meets_bind.mpr (meets_ask.mpr ⟨holding.during, fun opened _ => ?_⟩)
  refine meets_bind.mpr (meets_when.mpr ⟨fun closed => ?_, fun opened => ?_⟩)
  · rw [Ledger.answered, if_neg (Bool.eq_false_iff.mp closed)]
    exact meets_logPrint_fatal holding.fail.during holding.settled_fail
  rw [Ledger.answered, if_pos (eq_true_of_ne_false opened)]
  refine meets_bind.mpr (meets_logPrint (by decide) holding.during ?_)
  refine meets_bind.mpr (meets_logPrint (by decide) holding.during ?_)
  refine meets_bind.mpr (meets_getState.mpr ⟨holding.during, ?_⟩)
  have streaming : Streaming g.memory.handle _ g := ⟨holding, rfl, rfl⟩
  refine meets_bind.mpr (streaming.meets_stream fun l streaming => ?_)
  refine streaming.holding.meets_raspdifShutdown fun l' during freed same => ?_
  exact ⟨during, freed.settled (same.trans streaming.ok)⟩

theorem Fresh.meets_main {rounds : Nat} (fresh : Fresh g) :
    (main rounds).Meets (contract True) Returned (.idle none) g := by
  have idle := during_idle none g
  refine meets_bind.mpr (meets_ask_quiet idle (fun _ => rfl) fun parsed => ?_)
  cases parsed with
  | none => exact meets_exit.mpr ⟨idle, settled_idle none⟩
  | some arguments =>
      refine meets_bind.mpr (meets_askAll idle ?_ fresh.meets_mainRegistered)
      intro call member answer
      obtain ⟨signal, -, rfl⟩ := List.mem_map.mp member
      rfl

theorem fresh_initial : Fresh Globals.initial := by constructor <;> rfl

end

end Raspdif.Process
