import Raspdif.Process.Transmission

/-!
# Where the process reads and writes

The drivers keep the base address of their registers in a variable that is `NULL` until
`bcm283x_init` has mapped the peripherals, and a signal may come at any time.  `Placed` says
where the variables point, and `EnvCall.Touches` to which addresses a call goes.

`Steady` is for the programs that change no variable: from anywhere they keep to what is
placed, and each of their accesses is to mapped memory (`accesses_mapped`).
-/

namespace Raspdif.Process

open Interaction Program Trace

/-! ## Addresses -/

def PcmRegister.offset : PcmRegister → Nat
  | .csA => 0x00
  | .modeA => 0x08
  | .rxcA => 0x0C
  | .txcA => 0x10
  | .dreqA => 0x14
  | .intenA => 0x18
  | .intstcA => 0x1C
  | .gray => 0x20

def PcmStore.register : PcmStore → PcmRegister
  | .word register _ => register
  | .field register _ _ => register

/-- In `bcm283x_dma_channel_t`. -/
def DmaStore.offset : DmaStore → Nat
  | .csReset | .csInt | .csEnd | .csActive _ => 0x00
  | .conblkAd _ => 0x04
  | .debugReadError | .debugFifoError | .debugReadLastNotSetError => 0x20

/-- What `bcm283x_gpio_configure` goes to for a pin, in `bcm283x_gpio_t`. -/
def gpioConfigureOffsets (pin : Nat) : List Nat :=
  [4 * (pin / 10), 0x4C + 4 * (pin / 32), 0x58 + 4 * (pin / 32), 0x64 + 4 * (pin / 32),
    0x70 + 4 * (pin / 32), 0x7C + 4 * (pin / 32), 0x88 + 4 * (pin / 32), 0x94,
    0x98 + 4 * (pin / 32)]

/-- The variables that a call follows. -/
def EnvCall.pointers (g : Globals) : EnvCall → List Nat
  | .readClockControl | .writeClockControl _ | .writeClockDivisor _ | .clockIdle => [g.clock]
  | .pcm _ | .pcmSynced _ => [g.pcm]
  | .dma _ _ => [g.dma]
  | .gpioConfigureMask mask _ => if mask = 0 then [] else [g.gpio]
  | .outside => [g.dma, g.controlVirtual]
  | _ => []

/-- The words that a call goes to.  A round of the loops may read `CONBLK_AD` and write
anywhere in the buffers. -/
def EnvCall.Touches (g : Globals) (address : Nat) : EnvCall → Prop
  | .readClockControl | .writeClockControl _ | .clockIdle => address = g.clock + 0x98
  | .writeClockDivisor _ => address = g.clock + 0x9C
  | .pcm store => address = g.pcm + store.register.offset
  | .pcmSynced _ => address = g.pcm
  | .dma channel store => address = g.dma + channel * 0x100 + store.offset
  | .gpioConfigureMask mask _ => ∃ pin, mask.getLsbD pin = true ∧
      ∃ offset ∈ gpioConfigureOffsets pin, address = g.gpio + offset
  | .outside => address = g.dma + g.dmaChannel * 0x100 + 0x04 ∨
      g.controlVirtual ≤ address ∧ address + 4 ≤ g.controlVirtual + sizeofControl
  | _ => False

/-! ## Mappings -/

/-- What a run has mapped. -/
structure Mappings where
  /-- What `bcm_host_get_peripheral_size` has said. -/
  sizes : List (BitVec 32)
  /-- What was mapped where: an address and a length. -/
  mapped : List (Nat × BitVec 32)
  /-- The last call. -/
  last : Option EnvCall

def Mappings.none : Mappings where
  sizes := []
  mapped := []
  last := Option.none

def Mappings.answered (l : Mappings) : (call : EnvCall) → call.Answer → Mappings
  | .bcmHostGetPeripheralSize, size =>
      { l with sizes := size :: l.sizes, last := some .bcmHostGetPeripheralSize }
  | .mmap offset length, address =>
      { l with
        mapped := (address.map (·, length)).toList ++ l.mapped
        last := some (.mmap offset length) }
  | own, _ => { l with last := some own }

def Mappings.record (l : Mappings) (e : EnvEvent) : Mappings := l.answered e.op e.answer

/-- What a run has mapped. -/
def mappings (trace : List EnvEvent) : Mappings := trace.foldl Mappings.record .none

/-- A word that is in a mapping, which is not at `NULL`. -/
def Mappings.Holds (l : Mappings) (address : Nat) : Prop :=
  ∃ base length, (base, length) ∈ l.mapped ∧ base ≠ 0 ∧ base ≤ address ∧
    address + 4 ≤ base + length.toNat

/-- The registers of all drivers fit. -/
def Mappings.Enough (l : Mappings) : Prop := ∀ size ∈ l.sizes, 0x00203024 ≤ size.toNat

/-! ## What is kept -/

/-- Where the drivers find their registers. -/
structure Pointers (g : Globals) : Prop where
  clock : g.clock = 0 ∨ g.virtualBase ≠ 0 ∧ g.clock = g.virtualBase + 0x00101000
  gpio : g.gpio = 0 ∨ g.virtualBase ≠ 0 ∧ g.gpio = g.virtualBase + 0x00200000
  dma : g.dma = 0 ∨ g.virtualBase ≠ 0 ∧ g.dma = g.virtualBase + 0x00007000
  pcm : g.pcm = 0 ∨ g.virtualBase ≠ 0 ∧ g.pcm = g.virtualBase + 0x00203000

/-- What the variables point to was mapped. -/
structure Placed (l : Mappings) (g : Globals) : Prop where
  pointers : Pointers g
  base : g.virtualBase = 0 ∨ ∃ length ∈ l.sizes, (g.virtualBase, length) ∈ l.mapped
  control : g.controlVirtual = 0 ∨ (g.controlVirtual, BitVec.ofNat 32 sizeofControl) ∈ l.mapped

/-- A call follows no `NULL`, and goes to mapped memory. -/
structure Sound (l : Mappings) (g : Globals) (own : EnvCall) : Prop where
  pointers : ∀ pointer ∈ own.pointers g, pointer ≠ 0
  mapped : ∀ address, own.Touches g address → l.Enough → l.Holds address

def registerRegime : Regime Mappings where
  record := Mappings.record
  during l g := Placed l g ∧ ∀ own ∈ l.last, Sound l g own
  exited _ _ := True
  aborted _ _ := True

/-! ## One call -/

section

variable {l : Mappings} {g : Globals}

theorem Mappings.Holds.mono {l' : Mappings} {address : Nat} (holds : l.Holds address)
    (grows : l.mapped ⊆ l'.mapped) : l'.Holds address := by
  obtain ⟨base, length, member, some_base, inside⟩ := holds
  exact ⟨base, length, grows member, some_base, inside⟩

/-- Mappings stay. -/
structure Grows (l l' : Mappings) : Prop where
  sizes : l.sizes ⊆ l'.sizes
  mapped : l.mapped ⊆ l'.mapped

theorem Grows.refl (l : Mappings) : Grows l l := ⟨List.Subset.refl _, List.Subset.refl _⟩

theorem Grows.trans {l' l'' : Mappings} (first : Grows l l') (second : Grows l' l'') :
    Grows l l'' :=
  ⟨List.Subset.trans first.sizes second.sizes, List.Subset.trans first.mapped second.mapped⟩

theorem grows_record (l : Mappings) (e : EnvEvent) : Grows l (l.record e) := by
  obtain ⟨own, answer⟩ := e
  cases own with
  | mmap offset length => exact ⟨List.Subset.refl _, List.subset_append_right _ _⟩
  | bcmHostGetPeripheralSize => exact ⟨List.subset_cons_self _ _, List.Subset.refl _⟩
  | _ => exact ⟨List.Subset.refl _, List.Subset.refl _⟩

theorem last_record (l : Mappings) (e : EnvEvent) : (l.record e).last = some e.op := by
  obtain ⟨own, answer⟩ := e
  cases own <;> rfl

theorem Placed.record (placed : Placed l g) (e : EnvEvent) : Placed (l.record e) g := by
  obtain ⟨sizes, mapped⟩ := grows_record l e
  refine ⟨placed.pointers, placed.base.imp_right ?_, placed.control.imp_right fun control => ?_⟩
  · rintro ⟨length, said, member⟩
    exact ⟨length, sizes said, mapped member⟩
  · exact mapped control

theorem Sound.record {own : EnvCall} (sound : Sound l g own) (e : EnvEvent) :
    Sound (l.record e) g own := by
  obtain ⟨sizes, mapped⟩ := grows_record l e
  refine ⟨sound.pointers, fun address touches enough => ?_⟩
  exact (sound.mapped address touches fun size said => enough size (sizes said)).mono mapped

/-- What is kept behind a call. -/
theorem during_record (placed : Placed l g) {e : EnvEvent} (sound : Sound l g e.op) :
    registerRegime.during (l.record e) g := by
  refine ⟨placed.record e, ?_⟩
  intro own last
  rw [last_record] at last
  obtain rfl := Option.some.inj last
  exact sound.record e

theorem sound_other {own : EnvCall} (other : own.pointers g = []) : Sound l g own := by
  refine ⟨fun pointer member => ?_, fun address touches => ?_⟩
  · rw [other] at member
    exact absurd member List.not_mem_nil
  · cases own with
    | gpioConfigureMask mask config =>
        obtain ⟨pin, wanted, -⟩ := touches
        by_cases zero : mask = 0#32
        · rw [zero, BitVec.getLsbD_zero] at wanted
          cases wanted
        · cases (if_neg zero).symm.trans other
    | readClockControl | writeClockControl | writeClockDivisor | clockIdle | pcm | pcmSynced
    | dma | outside => cases other
    | _ => exact touches.elim

/-- Registers behind the base address. -/
theorem sound_of_offset {own : EnvCall} (placed : Placed l g)
    (some_pointer : ∀ pointer ∈ own.pointers g, pointer ≠ 0) (some_base : g.virtualBase ≠ 0)
    (inside : ∀ address, own.Touches g address →
      ∃ offset, address = g.virtualBase + offset ∧ offset + 4 ≤ 0x00203024) : Sound l g own := by
  refine ⟨some_pointer, fun address touches enough => ?_⟩
  obtain ⟨offset, rfl, fits⟩ := inside address touches
  obtain ⟨length, said, member⟩ := placed.base.resolve_left some_base
  refine ⟨g.virtualBase, length, member, some_base, Nat.le_add_right _ _, ?_⟩
  have least := enough length said
  omega

/-! ## A change of variables -/

/-- Variables that are set stay as they are. -/
structure Extends (g g' : Globals) : Prop where
  clock : g.clock ≠ 0 → g'.clock = g.clock
  gpio : g.gpio ≠ 0 → g'.gpio = g.gpio
  dma : g.dma ≠ 0 → g'.dma = g.dma
  pcm : g.pcm ≠ 0 → g'.pcm = g.pcm
  control : g.controlVirtual ≠ 0 →
    g'.controlVirtual = g.controlVirtual ∧ g'.dmaChannel = g.dmaChannel

theorem Sound.extends {g' : Globals} {own : EnvCall} (sound : Sound l g own)
    (extends_ : Extends g g') : Sound l g' own := by
  obtain ⟨some_pointer, mapped⟩ := sound
  cases own with
  | readClockControl | writeClockControl | writeClockDivisor | clockIdle =>
      have same := extends_.clock (some_pointer _ List.mem_cons_self)
      constructor <;> simpa only [EnvCall.pointers, EnvCall.Touches, same] using ‹_›
  | pcm | pcmSynced =>
      have same := extends_.pcm (some_pointer _ List.mem_cons_self)
      constructor <;> simpa only [EnvCall.pointers, EnvCall.Touches, same] using ‹_›
  | dma =>
      have same := extends_.dma (some_pointer _ List.mem_cons_self)
      constructor <;> simpa only [EnvCall.pointers, EnvCall.Touches, same] using ‹_›
  | gpioConfigureMask mask config =>
      by_cases zero : mask = 0
      · exact sound_other (if_pos zero)
      · rw [EnvCall.pointers, if_neg zero] at some_pointer
        have same := extends_.gpio (some_pointer _ List.mem_cons_self)
        constructor
        · rw [EnvCall.pointers, if_neg zero, same]
          exact some_pointer
        · simpa only [EnvCall.Touches, same] using mapped
  | outside =>
      have dma := extends_.dma (some_pointer _ List.mem_cons_self)
      obtain ⟨control, channel⟩ := extends_.control (some_pointer _ (by simp [EnvCall.pointers]))
      constructor <;>
        simpa only [EnvCall.pointers, EnvCall.Touches, dma, control, channel] using ‹_›
  | _ => exact sound_other rfl

end

/-! ## Programs that change no variable -/

namespace Mapped

variable {inMain : Prop} {g : Globals} {α β : Type}

/-- From anywhere where the variables are these, what is placed is kept. -/
def Steady (inMain : Prop) (g : Globals) (p : Prog α) : Prop :=
  ∀ l, registerRegime.during l g →
    p.Meets (registerRegime.contract inMain)
      (fun _ l' g' => g' = g ∧ registerRegime.during l' g ∧ Grows l l') l g

theorem steady_pure (value : α) : Steady inMain g (pure value : Prog α) :=
  fun l during => ⟨rfl, during, Grows.refl l⟩

theorem steady_exit : Steady inMain g (Program.exit : Prog α) := fun _ during => ⟨during, trivial⟩

theorem steady_bind {p : Prog α} {next : α → Prog β} (first : Steady inMain g p)
    (goesOn : ∀ value, Steady inMain g (next value)) : Steady inMain g (p >>= next) := by
  intro l during
  apply meets_bind.mpr
  refine (first l during).mono ?_
  rintro value l' _ ⟨rfl, during', grows⟩
  refine (goesOn value l' during').mono ?_
  rintro _ l'' _ ⟨rfl, during'', grows'⟩
  exact ⟨rfl, during'', grows.trans grows'⟩

theorem steady_getState {next : Globals → Prog β} (goesOn : Steady inMain g (next g)) :
    Steady inMain g (getState >>= next) := fun l during =>
  meets_bind.mpr (meets_getState.mpr ⟨during, goesOn l during⟩)

theorem steady_assert {P : Prop} [Decidable P] {next : Unit → Prog β}
    (goesOn : P → Steady inMain g (next ())) : Steady inMain g (assert P >>= next) :=
  fun l during =>
  meets_bind.mpr (meets_assert.mpr
    ⟨fun holds => goesOn holds l during, fun _ => ⟨during, Or.inr trivial⟩⟩)

theorem steady_ite {P : Prop} [Decidable P] {p q : Prog α} (yes : P → Steady inMain g p)
    (no : ¬ P → Steady inMain g q) : Steady inMain g (if P then p else q) := by
  split
  case isTrue holds => exact yes holds
  case isFalse fails => exact no fails

theorem steady_when {P : Prop} [Decidable P] {p : Prog Unit} (yes : P → Steady inMain g p) :
    Steady inMain g (when P p) :=
  steady_ite yes fun _ => steady_pure ()

theorem steady_ask {own : EnvCall} (sound : ∀ l, Placed l g → Sound l g own) :
    Steady inMain g (ask own) := by
  intro l during
  refine ⟨during, fun answer _ => ⟨rfl, ?_, grows_record l ⟨own, answer⟩⟩⟩
  exact during_record (e := ⟨own, answer⟩) during.1 (sound l during.1)

theorem steady_other {own : EnvCall} (other : own.pointers g = []) :
    Steady inMain g (ask own) :=
  steady_ask fun _ _ => sound_other other

theorem steady_askAll {calls : List EnvCall}
    (sound : ∀ own ∈ calls, ∀ l, Placed l g → Sound l g own) :
    Steady inMain g (askAll calls) := by
  induction calls with
  | nil => exact steady_pure ()
  | cons own calls ih =>
      obtain ⟨here, later⟩ := List.forall_mem_cons.mp sound
      exact steady_bind (steady_ask here) fun _ => ih later

theorem steady_fail : Steady inMain g (Program.fail : Prog α) :=
  fun _ during => ⟨during, Or.inr trivial⟩

/-! ## Log, mailbox and memory -/

theorem steady_logPrint (level : LogLevel) : Steady inMain g (logPrint level) := by
  apply steady_getState
  apply steady_ite
  · exact fun _ => steady_pure ()
  · exact fun _ => steady_ite (fun _ => steady_exit) fun _ => steady_pure ()

theorem steady_mailboxRequest (message : MailboxMessage) (error : BitVec 32) :
    Steady inMain g (mailboxRequest message error) := by
  have send : Steady inMain g (mailboxSend message) := by
    apply steady_bind (steady_other rfl)
    intro mbox
    apply steady_ite
    · exact fun _ => steady_bind (steady_logPrint _) fun _ => steady_pure _
    intro _
    apply steady_bind (steady_other rfl)
    intro reply
    apply steady_bind (steady_when fun _ => steady_logPrint _)
    intro _
    apply steady_bind (steady_other rfl)
    intro closed
    exact steady_bind (steady_when fun _ => steady_logPrint _) fun _ => steady_pure _
  apply steady_bind send
  intro response
  apply steady_ite fun _ => steady_pure _
  intro _
  apply steady_ite fun _ => steady_pure _
  intro _
  exact steady_ite (fun _ => steady_pure _) fun _ => steady_pure _

theorem steady_memoryAllocatePhysical (length : BitVec 32) :
    Steady inMain g (memoryAllocatePhysical length) := by
  have logged (level : LogLevel) (memory : MemoryPhysical) :
      Steady inMain g (logPrint level >>= fun _ => pure memory) :=
    steady_bind (steady_logPrint level) fun _ => steady_pure memory
  apply steady_bind (steady_other rfl)
  intro pageSize
  apply steady_bind (steady_mailboxRequest _ _)
  intro handle
  apply steady_ite fun _ => logged _ _
  intro _
  apply steady_bind (steady_mailboxRequest _ _)
  intro address
  exact steady_ite (fun _ => logged _ _) fun _ => logged _ _

theorem steady_memoryReleasePhysical (memory : MemoryPhysical) :
    Steady inMain g (memoryReleasePhysical memory) := by
  have logged (result : BitVec 32) :
      Steady inMain g (logPrint .error >>= fun _ => pure result) :=
    steady_bind (steady_logPrint .error) fun _ => steady_pure result
  apply steady_bind (steady_mailboxRequest _ _)
  intro result
  apply steady_ite fun _ => logged _
  intro _
  apply steady_bind (steady_mailboxRequest _ _)
  intro result
  exact steady_ite (fun _ => logged _) fun _ => steady_pure _

/-! ## Clock -/

theorem sound_clock {own : EnvCall} {l : Mappings} (placed : Placed l g) (clock : g.clock ≠ 0)
    (follows : own.pointers g = [g.clock])
    (near : ∀ address, own.Touches g address →
      address = g.clock + 0x98 ∨ address = g.clock + 0x9C) : Sound l g own := by
  obtain ⟨some_base, at_base⟩ := placed.pointers.clock.resolve_left clock
  apply sound_of_offset placed (by simpa [follows] using clock) some_base
  intro address touches
  rcases near address touches with rfl | rfl
  · exact ⟨0x00101000 + 0x98, by omega, by decide⟩
  · exact ⟨0x00101000 + 0x9C, by omega, by decide⟩

/-- The registers of the clock are there. -/
theorem steady_clock {next : Unit → Prog β} (goesOn : g.clock ≠ 0 → Steady inMain g (next ())) :
    Steady inMain g (bcm283xClockGetPeripheralClock >>= next) := by
  intro l during
  apply meets_bind.mpr
  apply meets_bind.mpr
  apply meets_getState.mpr
  refine ⟨during, meets_bind.mpr (meets_assert.mpr ⟨fun clock => ?_, ?_⟩)⟩
  · exact meets_assert_of (Nat.succ_ne_zero _) (goesOn clock l during)
  · exact fun _ => ⟨during, Or.inr trivial⟩

theorem steady_bcm283xClockEnable (enable : Bool) :
    Steady inMain g (bcm283xClockEnable enable) := by
  apply steady_clock
  intro clock
  apply steady_bind (steady_ask fun l placed => sound_clock placed clock rfl fun _ => Or.inl)
  intro control
  exact steady_ask fun l placed => sound_clock placed clock rfl fun _ => Or.inl

theorem steady_bcm283xClockConfigure (config : ClockConfiguration) :
    Steady inMain g (bcm283xClockConfigure config) := by
  apply steady_assert
  intro ok
  apply steady_clock
  intro clock
  apply steady_bind (steady_ask fun l placed => sound_clock placed clock rfl fun _ => Or.inl)
  intro control
  apply steady_bind (steady_ask fun l placed => sound_clock placed clock rfl fun _ => Or.inl)
  intro _
  apply steady_bind (steady_ask fun l placed => sound_clock placed clock rfl fun _ => Or.inl)
  intro _
  apply steady_bind (steady_ask fun l placed => sound_clock placed clock rfl fun _ => Or.inl)
  intro _
  exact steady_ask fun l placed => sound_clock placed clock rfl fun _ => Or.inr

/-! ## DMA -/

theorem sound_dma {l : Mappings} (placed : Placed l g) (dma : g.dma ≠ 0) {channel : Nat}
    (valid : channel < dmaChannelMax) (store : DmaStore) : Sound l g (.dma channel store) := by
  obtain ⟨some_base, at_base⟩ := placed.pointers.dma.resolve_left dma
  apply sound_of_offset placed (by simpa [EnvCall.pointers] using dma) some_base
  rintro address rfl
  have small : store.offset ≤ 0x20 := by
    cases store <;> exact Nat.le_of_ble_eq_true rfl
  refine ⟨0x00007000 + channel * 0x100 + store.offset, by omega, ?_⟩
  unfold dmaChannelMax at valid
  omega

theorem steady_dma {channel : Nat} {next : Unit → Prog β}
    (goesOn : g.dma ≠ 0 → channel < dmaChannelMax → Steady inMain g (next ())) :
    Steady inMain g (bcm283xDmaGetChannel channel >>= next) := by
  intro l during
  apply meets_bind.mpr
  apply meets_bind.mpr
  apply meets_getState.mpr
  refine ⟨during, meets_bind.mpr (meets_assert.mpr ⟨fun dma => ?_, ?_⟩)⟩
  · apply meets_assert.mpr
    exact ⟨fun valid => goesOn dma valid l during, fun _ => ⟨during, Or.inr trivial⟩⟩
  · exact fun _ => ⟨during, Or.inr trivial⟩

theorem steady_bcm283xDmaReset (channel : Nat) : Steady inMain g (bcm283xDmaReset channel) := by
  apply steady_dma
  intro dma valid
  apply steady_askAll
  intro own member l placed
  obtain ⟨store, -, rfl⟩ := List.mem_map.mp member
  exact sound_dma placed dma valid store

theorem steady_bcm283xDmaSetControlBlock (channel : Nat) (control : BitVec 32) :
    Steady inMain g (bcm283xDmaSetControlBlock channel control) := by
  apply steady_assert
  intro aligned
  apply steady_dma
  intro dma valid
  exact steady_ask fun l placed => sound_dma placed dma valid _

theorem steady_bcm283xDmaEnable (channel : Nat) (enable : Bool) :
    Steady inMain g (bcm283xDmaEnable channel enable) := by
  apply steady_dma
  intro dma valid
  exact steady_ask fun l placed => sound_dma placed dma valid _

/-! ## GPIO -/

theorem sound_gpio {l : Mappings} (placed : Placed l g) {mask : BitVec 32}
    (gpio : mask ≠ 0 → g.gpio ≠ 0) (config : GpioConfiguration) :
    Sound l g (.gpioConfigureMask mask config) := by
  by_cases zero : mask = 0
  · exact sound_other (if_pos zero)
  obtain ⟨some_base, at_base⟩ := placed.pointers.gpio.resolve_left (gpio zero)
  have follows : EnvCall.pointers g (.gpioConfigureMask mask config) = [g.gpio] := if_neg zero
  apply sound_of_offset placed (by simpa [follows] using gpio zero) some_base
  rintro address ⟨pin, wanted, offset, member, rfl⟩
  have inMask := BitVec.lt_of_getLsbD wanted
  have small : offset ≤ 0x98 := by
    simp only [gpioConfigureOffsets, List.mem_cons, List.not_mem_nil, or_false] at member
    omega
  exact ⟨0x00200000 + offset, by omega, by omega⟩

theorem steady_bcm283xGpioConfigureMask (mask : BitVec 32) (config : GpioConfiguration) :
    Steady inMain g (bcm283xGpioConfigureMask mask config) := by
  apply steady_getState
  apply steady_assert
  intro gpio
  exact steady_ask fun l placed => sound_gpio placed gpio config

/-! ## PCM -/

theorem sound_pcm {own : EnvCall} {l : Mappings} (placed : Placed l g) (pcm : g.pcm ≠ 0)
    (follows : own.pointers g = [g.pcm])
    (near : ∀ address, own.Touches g address → ∃ offset, address = g.pcm + offset ∧ offset ≤ 0x20) :
    Sound l g own := by
  obtain ⟨some_base, at_base⟩ := placed.pointers.pcm.resolve_left pcm
  apply sound_of_offset placed (by simpa [follows] using pcm) some_base
  intro address touches
  obtain ⟨offset, rfl, small⟩ := near address touches
  exact ⟨0x00203000 + offset, by omega, by omega⟩

theorem steady_pcmStores (pcm : g.pcm ≠ 0) (stores : List PcmStore) :
    Steady inMain g (pcmStores stores) := by
  apply steady_askAll
  intro own member l placed
  obtain ⟨store, -, rfl⟩ := List.mem_map.mp member
  apply sound_pcm placed pcm rfl
  rintro address rfl
  refine ⟨store.register.offset, rfl, ?_⟩
  cases store.register <;> decide

theorem steady_pcmSynced (pcm : g.pcm ≠ 0) (value : Nat) :
    Steady inMain g (ask (.pcmSynced value)) :=
  steady_ask fun _ placed => sound_pcm placed pcm rfl fun _ touches => ⟨0, touches, Nat.zero_le _⟩

theorem steady_assertPcm {next : Unit → Prog β} (goesOn : g.pcm ≠ 0 → Steady inMain g (next ())) :
    Steady inMain g (assertPcm >>= next) := by
  intro l during
  apply meets_bind.mpr
  apply meets_bind.mpr
  apply meets_getState.mpr
  refine ⟨during, meets_assert.mpr ⟨fun pcm => goesOn pcm l during, ?_⟩⟩
  exact fun _ => ⟨during, Or.inr trivial⟩

theorem steady_microsleep (microseconds : BitVec 32) :
    Steady inMain g (microsleep microseconds) := by
  unfold microsleep
  cases Raspdif.microsleep microseconds with
  | none => exact steady_fail
  | some delay => exact steady_other rfl

theorem steady_bcm283xPcmReset : Steady inMain g bcm283xPcmReset := by
  apply steady_assertPcm
  intro pcm
  apply steady_bind (steady_pcmStores pcm _)
  intro _
  apply steady_bind (steady_microsleep _)
  intro _
  exact steady_pcmStores pcm _

theorem steady_bcm283xPcmClearFifos : Steady inMain g bcm283xPcmClearFifos := by
  apply steady_assertPcm
  intro pcm
  apply steady_bind (steady_pcmStores pcm _)
  intro _
  apply steady_assertPcm
  intro _
  apply steady_bind (steady_pcmStores pcm _)
  intro _
  apply steady_bind (steady_pcmSynced pcm _)
  intro _
  apply steady_bind (steady_pcmStores pcm _)
  intro _
  exact steady_pcmSynced pcm _

theorem steady_bcm283xPcmConfigureDma (enable : Bool) (config : PcmDmaConfig) :
    Steady inMain g (bcm283xPcmConfigureDma enable config) := by
  apply steady_assertPcm
  intro pcm
  apply steady_assert
  intro _
  apply steady_assert
  intro _
  apply steady_assert
  intro _
  apply steady_assert
  intro _
  exact steady_pcmStores pcm _

theorem steady_bcm283xPcmConfigureTransmitChannels (channel1 channel2 : Option PcmChannelConfig) :
    Steady inMain g (bcm283xPcmConfigureTransmitChannels channel1 channel2) := by
  apply steady_assertPcm
  intro pcm
  apply steady_bind (steady_pcmStores pcm _)
  intro _
  exact steady_pcmStores pcm _

theorem steady_bcm283xPcmConfigure (config : PcmConfiguration) :
    Steady inMain g (bcm283xPcmConfigure config) := by
  apply steady_assertPcm
  intro pcm
  apply steady_bind (steady_pcmStores pcm _)
  intro _
  apply steady_bind (steady_microsleep _)
  intro _
  apply steady_bind (steady_pcmStores pcm _)
  intro _
  exact steady_microsleep _

/-! ## Start and end -/

theorem steady_configurePeripherals (bus : BitVec 32) (sampleRateHz : ℚ) :
    Steady inMain g (configurePeripherals bus sampleRateHz) := by
  have config (config : Option ClockConfiguration) :
      Steady inMain g (convertDivisor config) := by
    cases config with
    | some config => exact steady_pure config
    | none =>
        apply steady_bind (steady_other rfl)
        intro divi
        exact steady_bind (steady_other rfl) fun divf => steady_pure _
  apply steady_getState
  apply steady_bind (steady_bcm283xDmaReset _)
  intro _
  apply steady_getState
  apply steady_bind (steady_bcm283xDmaSetControlBlock _ _)
  intro _
  apply steady_bind (steady_logPrint _)
  intro _
  apply steady_bind (steady_other rfl)
  intro pi4
  apply steady_bind (config _)
  intro config
  apply steady_bind (steady_logPrint _)
  intro _
  apply steady_bind (steady_bcm283xClockConfigure _)
  intro _
  apply steady_bind (steady_bcm283xClockEnable _)
  intro _
  apply steady_bind steady_bcm283xPcmReset
  intro _
  apply steady_bind (steady_bcm283xPcmConfigure _)
  intro _
  apply steady_bind (steady_bcm283xPcmConfigureDma _ _)
  intro _
  apply steady_bind (steady_bcm283xPcmConfigureTransmitChannels _ _)
  intro _
  apply steady_bind steady_bcm283xPcmClearFifos
  intro _
  exact steady_bcm283xGpioConfigureMask _ _

/-- From anywhere. -/
theorem steady_raspdifShutdown : Steady inMain g raspdifShutdown := by
  apply steady_bind (steady_other rfl)
  intro _
  apply steady_bind steady_bcm283xPcmReset
  intro _
  apply steady_bind (steady_bcm283xClockEnable _)
  intro _
  apply steady_getState
  apply steady_bind (steady_bcm283xDmaEnable _ _)
  intro _
  apply steady_getState
  exact steady_bind (steady_memoryReleasePhysical _) fun _ => steady_pure ()

theorem handles_registerRegime : registerRegime.Handles := by
  intro l g during
  apply meets_bind.mpr
  refine (steady_logPrint _ l during).mono ?_
  rintro _ l' _ ⟨rfl, during, -⟩
  apply meets_bind.mpr
  refine (steady_raspdifShutdown l' during).mono ?_
  rintro _ l'' _ ⟨rfl, during, -⟩
  exact ⟨during, trivial⟩

/-! ## The loops -/

/-- What the loops follow is set. -/
structure Ready (g : Globals) : Prop where
  dma : g.dma ≠ 0
  pcm : g.pcm ≠ 0
  channel : g.dmaChannel < dmaChannelMax
  control : g.controlVirtual ≠ 0

theorem sound_outside {l : Mappings} (placed : Placed l g) (ready : Ready g) :
    Sound l g .outside := by
  obtain ⟨some_base, at_base⟩ := placed.pointers.dma.resolve_left ready.dma
  obtain ⟨length, said, member⟩ := placed.base.resolve_left some_base
  have channel : g.dmaChannel < 15 := ready.channel
  constructor
  · intro pointer follows
    rcases List.mem_cons.mp follows with rfl | other
    · exact ready.dma
    · rw [List.mem_singleton.mp other]
      exact ready.control
  · rintro address (rfl | ⟨above, below⟩) enough
    · have least := enough length said
      exact ⟨g.virtualBase, length, member, some_base, by omega, by omega⟩
    · have block := placed.control.resolve_left ready.control
      exact ⟨g.controlVirtual, _, block, ready.control, above, below⟩

theorem steady_testPosition (setup : Setup) (sampleRate : ℚ) (answers : Answers)
    (position : Option Nat) : Steady inMain g (testPosition setup sampleRate answers position) := by
  cases position with
  | none => exact steady_pure ()
  | some index =>
      apply steady_getState
      apply steady_dma
      intro dma valid
      apply steady_when
      intro here
      unfold delay
      cases perSample sampleRate (bufferDelay sampleRate) with
      | some microseconds => exact steady_microsleep _
      | none => exact steady_bind (steady_other rfl) fun microseconds => steady_microsleep _

theorem steady_stepCalls (ready : Ready g) (pcmDisable : Bool) (pc next : Pc) :
    Steady inMain g (stepCalls pcmDisable pc next) := by
  have switched (transmit : Bool) (p : Prog Unit) (goesOn : Steady inMain g p) :
      Steady inMain g (bcm283xPcmEnable transmit false >>= fun _ => p) :=
    steady_bind (steady_pcmStores ready.pcm _) fun _ => goesOn
  apply steady_bind
  · apply steady_when
    intro begins
    apply steady_bind (steady_logPrint _)
    intro _
    apply steady_getState
    apply steady_bind (steady_bcm283xDmaEnable _ _)
    intro _
    exact switched true _ (steady_other rfl)
  intro _
  apply steady_when
  intro polls
  apply steady_bind (steady_when fun _ => switched false _ (steady_logPrint _))
  intro _
  apply steady_bind (steady_other rfl)
  intro _
  apply steady_bind (steady_when fun _ => switched true _ (steady_logPrint _))
  intro _
  exact steady_logPrint _

theorem steady_stream (ready : Ready g) (setup : Setup) (arguments : RaspdifArguments)
    (rounds : Nat) (s : Main) : Steady inMain g (stream setup arguments rounds s) := by
  induction rounds generalizing s with
  | zero => exact fun l during => during
  | succ rounds ih =>
      apply steady_ite
      · exact fun _ => steady_pure ()
      intro _
      apply steady_bind (steady_ask fun _ placed => sound_outside placed ready)
      intro outside
      apply steady_bind (steady_testPosition _ _ _ _)
      intro _
      cases (arrive s outside).step setup outside.answers with
      | none => exact ih _
      | some step => exact steady_bind (steady_stepCalls ready _ _ _) fun _ => ih _

/-! ## Setting the variables -/

section

variable {l : Mappings} {post : Unit → Mappings → Globals → Prop}

theorem during_update {g' : Globals} (during : registerRegime.during l g) (more : Extends g g')
    (placed : Placed l g') : registerRegime.during l g' :=
  ⟨placed, fun own last => (during.2 own last).extends more⟩

/-- `LOGF` does not return. -/
theorem meets_fatal (during : registerRegime.during l g) :
    (logPrint .fatal).Meets (registerRegime.contract inMain) post l g := by
  apply meets_bind.mpr
  refine meets_getState.mpr ⟨during, ?_⟩
  rw [if_neg, if_pos rfl]
  · exact ⟨during, trivial⟩
  · cases g.minLevel <;> decide

theorem meets_memoryMapPhysical {offset length : BitVec 32}
    {post : Nat → Mappings → Globals → Prop} (during : registerRegime.during l g)
    (met : ∀ virtual l', registerRegime.during l' g → Grows l l' →
      virtual = 0 ∨ (virtual, length) ∈ l'.mapped → post virtual l' g) :
    (memoryMapPhysical offset length).Meets (registerRegime.contract inMain) post l g := by
  apply meets_bind.mpr
  refine ((steady_other rfl) l during).mono ?_
  rintro file l₁ _ ⟨rfl, during₁, grows₁⟩
  apply meets_ite.mpr
  refine ⟨fun _ => meets_bind.mpr (meets_fatal during₁), fun _ => ?_⟩
  apply meets_bind.mpr
  refine ⟨during₁, fun mapped _ => ?_⟩
  have during₂ : registerRegime.during (l₁.record ⟨.mmap offset length, mapped⟩) _ :=
    during_record during₁.1 (sound_other rfl)
  cases mapped with
  | none => exact meets_bind.mpr (meets_fatal during₂)
  | some virtual =>
      apply meets_bind.mpr
      refine ((steady_other rfl) _ during₂).mono ?_
      rintro result l₃ _ ⟨rfl, during₃, grows₃⟩
      apply meets_bind.mpr
      refine ((steady_when fun _ => steady_logPrint _) _ during₃).mono ?_
      rintro _ l₄ _ ⟨rfl, during₄, grows₄⟩
      apply meets_bind.mpr
      refine ((steady_logPrint _) _ during₄).mono ?_
      rintro _ l₅ _ ⟨rfl, during₅, grows₅⟩
      have grows := grows₃.trans (grows₄.trans grows₅)
      refine met virtual l₅ during₅ (grows₁.trans ((grows_record l₁ _).trans grows)) (Or.inr ?_)
      exact grows.mapped List.mem_cons_self

/-- The variable of a driver is set, once. -/
theorem meets_driverInit {saved : Globals → Nat} {save : Globals → Globals} {base : Nat}
    (during : registerRegime.during l g) (met : saved g = 0 → post () l (save g)) :
    (driverInit saved save base).Meets (registerRegime.contract inMain) post l g := by
  have failed : registerRegime.during l g ∧ (inMain ∨ True) := ⟨during, Or.inr trivial⟩
  apply meets_bind.mpr
  refine meets_assert.mpr ⟨fun _ => ?_, fun _ => failed⟩
  apply meets_bind.mpr
  refine meets_getState.mpr ⟨during, ?_⟩
  apply meets_bind.mpr
  refine meets_assert.mpr ⟨fun unset => ?_, fun _ => failed⟩
  exact ⟨during, met unset⟩

theorem during_clock (during : registerRegime.during l g) (some_base : g.virtualBase ≠ 0)
    (unset : g.clock = 0) :
    registerRegime.during l { g with clock := g.virtualBase + 0x00101000 } := by
  refine during_update during ⟨fun clock => absurd unset clock, fun _ => rfl, fun _ => rfl,
    fun _ => rfl, fun _ => ⟨rfl, rfl⟩⟩ ⟨?_, during.1.base, during.1.control⟩
  exact { during.1.pointers with clock := Or.inr ⟨some_base, rfl⟩ }

theorem during_gpio (during : registerRegime.during l g) (some_base : g.virtualBase ≠ 0)
    (unset : g.gpio = 0) :
    registerRegime.during l { g with gpio := g.virtualBase + 0x00200000 } := by
  refine during_update during ⟨fun _ => rfl, fun gpio => absurd unset gpio, fun _ => rfl,
    fun _ => rfl, fun _ => ⟨rfl, rfl⟩⟩ ⟨?_, during.1.base, during.1.control⟩
  exact { during.1.pointers with gpio := Or.inr ⟨some_base, rfl⟩ }

theorem during_dma (during : registerRegime.during l g) (some_base : g.virtualBase ≠ 0)
    (unset : g.dma = 0) :
    registerRegime.during l { g with dma := g.virtualBase + 0x00007000 } := by
  refine during_update during ⟨fun _ => rfl, fun _ => rfl, fun dma => absurd unset dma,
    fun _ => rfl, fun _ => ⟨rfl, rfl⟩⟩ ⟨?_, during.1.base, during.1.control⟩
  exact { during.1.pointers with dma := Or.inr ⟨some_base, rfl⟩ }

theorem during_pcm (during : registerRegime.during l g) (some_base : g.virtualBase ≠ 0)
    (unset : g.pcm = 0) :
    registerRegime.during l { g with pcm := g.virtualBase + 0x00203000 } := by
  refine during_update during ⟨fun _ => rfl, fun _ => rfl, fun _ => rfl,
    fun pcm => absurd unset pcm, fun _ => ⟨rfl, rfl⟩⟩ ⟨?_, during.1.base, during.1.control⟩
  exact { during.1.pointers with pcm := Or.inr ⟨some_base, rfl⟩ }

/-- The peripherals are mapped once, and the drivers find their registers there. -/
theorem meets_bcm283xInit (during : registerRegime.during l g) (unset : g.virtualBase = 0)
    (met : ∀ l' g', registerRegime.during l' g' → g'.dma ≠ 0 → g'.pcm ≠ 0 →
      g'.controlVirtual = g.controlVirtual → post () l' g') :
    bcm283xInit.Meets (registerRegime.contract inMain) post l g := by
  have noPointers (pointer base : Nat) (placed : pointer = 0 ∨ g.virtualBase ≠ 0 ∧ pointer = base) :
      pointer = 0 := placed.resolve_right fun set => set.1 unset
  apply meets_bind.mpr
  refine meets_getState.mpr ⟨during, ?_⟩
  rw [if_neg (not_not.mpr unset)]
  apply meets_bind.mpr
  refine ((steady_other rfl) l during).mono ?_
  rintro physicalBase l₁ g ⟨rfl, during₁, -⟩
  apply meets_bind.mpr
  refine ⟨during₁, fun length _ => ?_⟩
  have during₂ : registerRegime.during
      (l₁.record ⟨.bcmHostGetPeripheralSize, length⟩) _ := during_record during₁.1 (sound_other rfl)
  apply meets_bind.mpr
  apply meets_memoryMapPhysical during₂
  intro virtualBase l₃ during₃ grows mapped
  have said : length ∈ l₃.sizes := grows.sizes List.mem_cons_self
  have based : registerRegime.during l₃ { g with virtualBase := virtualBase } := by
    have pointers := during₃.1.pointers
    refine during_update during₃ ⟨fun _ => rfl, fun _ => rfl, fun _ => rfl, fun _ => rfl,
      fun _ => ⟨rfl, rfl⟩⟩ ⟨?_, mapped.imp_right fun member => ⟨length, said, member⟩,
        during₃.1.control⟩
    exact ⟨Or.inl (noPointers _ _ pointers.clock), Or.inl (noPointers _ _ pointers.gpio),
      Or.inl (noPointers _ _ pointers.dma), Or.inl (noPointers _ _ pointers.pcm)⟩
  apply meets_bind.mpr
  refine meets_update.mpr ⟨during₃, ?_⟩
  apply meets_ite.mpr
  refine ⟨fun _ => meets_fatal based, fun some_base => ?_⟩
  apply meets_bind.mpr
  apply meets_driverInit based
  intro noClock
  have clock := during_clock based some_base noClock
  apply meets_bind.mpr
  apply meets_driverInit clock
  intro noGpio
  have gpio := during_gpio clock some_base noGpio
  apply meets_bind.mpr
  apply meets_driverInit gpio
  intro noDma
  have dma := during_dma gpio some_base noDma
  apply meets_driverInit dma
  intro noPcm
  have pcm := during_pcm dma some_base noPcm
  exact met l₃ _ pcm (Nat.add_eq_zero_iff.not.mpr fun zero => some_base zero.1)
    (Nat.add_eq_zero_iff.not.mpr fun zero => some_base zero.1) rfl

theorem meets_raspdifInit {channel : Nat} {sampleRateHz : ℚ} (during : registerRegime.during l g)
    (unset : g.virtualBase = 0) (noControl : g.controlVirtual = 0)
    (valid : channel < dmaChannelMax)
    (met : ∀ l' g', registerRegime.during l' g' → Ready g' → post () l' g') :
    (raspdifInit channel sampleRateHz).Meets (registerRegime.contract inMain) post l g := by
  apply meets_bind.mpr
  refine ((steady_other rfl) l during).mono ?_
  rintro _ l₁ g ⟨rfl, during, -⟩
  apply meets_bind.mpr
  apply meets_bcm283xInit during unset
  intro l₂ g₂ during dma pcm control
  rw [noControl] at control
  apply meets_bind.mpr
  refine meets_update.mpr ⟨during, ?_⟩
  have channeled : registerRegime.during l₂ { g₂ with dmaChannel := channel } :=
    during_update during ⟨fun _ => rfl, fun _ => rfl, fun _ => rfl, fun _ => rfl,
      fun set => absurd control set⟩ ⟨{ during.1.pointers with }, during.1.base, during.1.control⟩
  apply meets_bind.mpr
  refine ((steady_logPrint _) l₂ channeled).mono ?_
  rintro _ l₃ _ ⟨rfl, during₃, -⟩
  apply meets_bind.mpr
  refine ((steady_memoryAllocatePhysical _) l₃ during₃).mono ?_
  rintro memory l₄ _ ⟨rfl, during₄, -⟩
  apply meets_bind.mpr
  refine meets_when.mpr ⟨fun _ => meets_fatal during₄, fun located => ?_⟩
  apply meets_bind.mpr
  refine meets_update.mpr ⟨during₄, ?_⟩
  have remembered : registerRegime.during l₄
      { g₂ with
        dmaChannel := channel
        memory := memory } :=
    during_update during₄ ⟨fun _ => rfl, fun _ => rfl, fun _ => rfl, fun _ => rfl,
      fun _ => ⟨rfl, rfl⟩⟩ ⟨{ during₄.1.pointers with }, during₄.1.base, during₄.1.control⟩
  apply meets_bind.mpr
  refine ((steady_other rfl) l₄ remembered).mono ?_
  rintro sdram l₅ _ ⟨rfl, during₅, -⟩
  apply meets_bind.mpr
  apply meets_memoryMapPhysical during₅
  intro virtualBase l₆ during₆ _ mapped
  apply meets_bind.mpr
  refine meets_when.mpr ⟨fun _ => ?_, fun some_base => ?_⟩
  · apply meets_bind.mpr
    refine ((steady_memoryReleasePhysical _) l₆ during₆).mono ?_
    rintro _ l₇ _ ⟨rfl, during₇, -⟩
    exact meets_fatal during₇
  apply meets_bind.mpr
  apply meets_assert_of rfl
  apply meets_bind.mpr
  refine meets_update.mpr ⟨during₆, ?_⟩
  have controlled : registerRegime.during l₆
      { g₂ with
        dmaChannel := channel
        memory := memory
        controlBus := memory.address
        controlVirtual := virtualBase } :=
    during_update during₆ ⟨fun _ => rfl, fun _ => rfl, fun _ => rfl, fun _ => rfl,
      fun set => absurd control set⟩ ⟨{ during₆.1.pointers with }, during₆.1.base, mapped⟩
  refine ((steady_configurePeripherals _ _) l₆ controlled).mono ?_
  rintro _ l₇ _ ⟨rfl, during₇, -⟩
  exact met l₇ _ during₇ ⟨dma, pcm, valid, some_base⟩

theorem during_initial : registerRegime.during .none .initial := by
  refine ⟨⟨⟨Or.inl rfl, Or.inl rfl, Or.inl rfl, Or.inl rfl⟩, Or.inl rfl, Or.inl rfl⟩, ?_⟩
  intro own last
  cases last

theorem meets_mainRegistered (rounds : Nat) (arguments : RaspdifArguments) :
    (mainRegistered rounds arguments).Meets (registerRegime.contract True)
      (fun _ l g => registerRegime.during l g ∧ registerRegime.exited l g) .none .initial := by
  have begun {g : Globals} (during : registerRegime.during .none g) (unset : g.virtualBase = 0)
      (noControl : g.controlVirtual = 0) :
      (do
        let pi4 ← ask .bcmHostIsModelPi4
        raspdifInit (if pi4 then 5 else 13) arguments.sampleRate
        let opened ← ask (.openInput arguments.file)
        when (opened = false) (logPrint .fatal)
        logPrint .info
        logPrint .info
        let g ← getState
        stream ⟨arguments.format, arguments.keepAlive, g.controlBus⟩ arguments rounds
          (Main.start fun _ => .zero)
        raspdifShutdown : Prog Unit).Meets (registerRegime.contract True)
          (fun _ l g => registerRegime.during l g ∧ registerRegime.exited l g) .none g := by
    apply meets_bind.mpr
    refine ((steady_other rfl) _ during).mono ?_
    rintro pi4 l₁ g ⟨rfl, during, -⟩
    apply meets_bind.mpr
    apply meets_raspdifInit during unset noControl
    · cases pi4 <;> decide
    intro l₂ g₂ during ready
    have runs : Steady True g₂ (do
        let opened ← ask (.openInput arguments.file)
        when (opened = false) (logPrint .fatal)
        logPrint .info
        logPrint .info
        let g ← getState
        stream ⟨arguments.format, arguments.keepAlive, g.controlBus⟩ arguments rounds
          (Main.start fun _ => .zero)
        raspdifShutdown) := by
      apply steady_bind (steady_other rfl)
      intro opened
      apply steady_bind (steady_when fun _ => steady_logPrint _)
      intro _
      apply steady_bind (steady_logPrint _)
      intro _
      apply steady_bind (steady_logPrint _)
      intro _
      apply steady_getState
      exact steady_bind (steady_stream ready _ _ _ _) fun _ => steady_raspdifShutdown
    refine (runs l₂ during).mono ?_
    rintro _ l₃ _ ⟨rfl, during, -⟩
    exact ⟨during, trivial⟩
  apply meets_bind.mpr
  refine meets_when.mpr ⟨fun _ => ?_, fun _ => begun during_initial rfl rfl⟩
  refine meets_update.mpr ⟨during_initial, begun ?_ rfl rfl⟩
  exact during_update during_initial ⟨fun _ => rfl, fun _ => rfl, fun _ => rfl, fun _ => rfl,
    fun _ => ⟨rfl, rfl⟩⟩ ⟨{ during_initial.1.pointers with }, Or.inl rfl, Or.inl rfl⟩

end

end Mapped

/-! ## Runs -/

section

variable {l : Mappings}

theorem mem_sizes_record {e : EnvEvent} {size : BitVec 32} (member : size ∈ (l.record e).sizes) :
    e = ⟨.bcmHostGetPeripheralSize, size⟩ ∨ size ∈ l.sizes := by
  obtain ⟨own, answer⟩ := e
  cases own with
  | bcmHostGetPeripheralSize =>
      rcases List.mem_cons.mp member with rfl | before
      · exact Or.inl rfl
      · exact Or.inr before
  | _ => exact Or.inr member

theorem mem_mapped_record {e : EnvEvent} {base : Nat} {length : BitVec 32}
    (member : (base, length) ∈ (l.record e).mapped) :
    (∃ offset, e = ⟨.mmap offset length, some base⟩) ∨ (base, length) ∈ l.mapped := by
  obtain ⟨own, answer⟩ := e
  cases own with
  | mmap offset length' =>
      rcases List.mem_append.mp member with here | before
      · cases answer with
        | none => exact absurd here List.not_mem_nil
        | some address =>
            obtain ⟨rfl, rfl⟩ := Prod.mk.inj (List.mem_singleton.mp here)
            exact Or.inl ⟨offset, rfl⟩
      · exact Or.inr before
  | _ => exact Or.inr member

theorem mem_sizes_foldl {size : BitVec 32} (trace : List EnvEvent)
    (member : size ∈ (trace.foldl Mappings.record l).sizes) :
    ⟨.bcmHostGetPeripheralSize, size⟩ ∈ trace ∨ size ∈ l.sizes := by
  induction trace generalizing l with
  | nil => exact Or.inr member
  | cons e trace ih =>
      rcases ih member with later | here
      · exact Or.inl (List.mem_cons_of_mem e later)
      · rcases mem_sizes_record here with rfl | before
        · exact Or.inl List.mem_cons_self
        · exact Or.inr before

theorem mem_mapped_foldl {base : Nat} {length : BitVec 32} (trace : List EnvEvent)
    (member : (base, length) ∈ (trace.foldl Mappings.record l).mapped) :
    (∃ offset, ⟨.mmap offset length, some base⟩ ∈ trace) ∨ (base, length) ∈ l.mapped := by
  induction trace generalizing l with
  | nil => exact Or.inr member
  | cons e trace ih =>
      rcases ih member with ⟨offset, later⟩ | here
      · exact Or.inl ⟨offset, List.mem_cons_of_mem e later⟩
      · rcases mem_mapped_record here with ⟨offset, rfl⟩ | before
        · exact Or.inl ⟨offset, List.mem_cons_self⟩
        · exact Or.inr before

end

/-- Only `mmap` maps, and it goes nowhere itself. -/
theorem holds_of_record {l : Mappings} {e : EnvEvent} {g : Globals} {address : Nat}
    (touches : e.op.Touches g address) (holds : (l.record e).Holds address) : l.Holds address := by
  obtain ⟨base, length, member, some_base, inside⟩ := holds
  rcases mem_mapped_record member with ⟨offset, rfl⟩ | before
  · exact touches.elim
  · exact ⟨base, length, before, some_base, inside⟩

theorem enough_record {l : Mappings} {e : EnvEvent} {g : Globals} {address : Nat}
    (touches : e.op.Touches g address) (enough : l.Enough) : (l.record e).Enough := by
  intro size member
  rcases mem_sizes_record member with rfl | before
  · exact touches.elim
  · exact enough size before

/-- A call changes no variable. -/
theorem globals_of_call {m m' : Machine} {e : EnvEvent} (one : Machine.Step m [.call e] m') :
    m'.globals = m.globals := by
  generalize recorded : [Occurrence.call e] = events at one
  cases one with
  | @run g g' signal rest rest' below events one =>
      cases one with
      | read next => rfl
      | write f next => cases recorded
      | call op next answer => rfl
  | signal signal running => cases recorded
  | abort => cases recorded
  | killed masked => cases recorded
  | handlerReturn signal => cases recorded
  | mainReturn => cases recorded
  | exit => cases recorded

/-- **Every access is to mapped memory.**  Whenever signals arrive, whatever fails and whatever
the environment answers, the pointers of the drivers are `NULL` or where the registers of
their peripherals are mapped, and every access of `main` or a handler is through a pointer
that is set, to a word inside a mapping that the process has made, as long as the peripherals
are said to be as large as the registers in use. -/
theorem accesses_mapped {rounds : Nat} {arguments : RaspdifArguments} {trace : List Occurrence}
    {m m' : Machine} {e : EnvEvent}
    (run : Run Machine.Step (Machine.start rounds arguments) trace m)
    (one : Machine.Step m [.call e] m')
    (large : ∀ size, ⟨.bcmHostGetPeripheralSize, size⟩ ∈ envCalls trace → 0x00203024 ≤ size.toNat) :
    Pointers m.globals ∧ (∀ pointer ∈ e.op.pointers m.globals, pointer ≠ 0) ∧
      ∀ address, e.op.Touches m.globals address →
        ∃ offset length base, ⟨.mmap offset length, some base⟩ ∈ envCalls trace ∧ base ≠ 0 ∧
          base ≤ address ∧ address + 4 ≤ base + length.toNat := by
  have kept := Regime.Kept.of_run Mapped.handles_registerRegime
    (Mapped.meets_mainRegistered rounds arguments) (run.snoc one)
  have during : registerRegime.during ((mappings (envCalls trace)).record e) m'.globals := by
    have during := kept.during
    rw [Regime.after_append] at during
    exact during
  rw [globals_of_call one] at during
  obtain ⟨pointers, mapped⟩ := during.2 e.op (last_record _ e)
  refine ⟨during.1.pointers, pointers, fun address touches => ?_⟩
  have enough : (mappings (envCalls trace)).Enough := by
    intro size member
    rcases mem_sizes_foldl (envCalls trace) member with said | none
    · exact large size said
    · exact absurd none List.not_mem_nil
  have holds := holds_of_record touches (mapped address touches (enough_record touches enough))
  obtain ⟨base, length, member, some_base, from_, to_⟩ := holds
  rcases mem_mapped_foldl (envCalls trace) member with ⟨offset, made⟩ | none
  · exact ⟨offset, length, base, made, some_base, from_, to_⟩
  · exact absurd none List.not_mem_nil

theorem alone_call {m m' : Machine} {first second : List Occurrence} {e : EnvEvent}
    (one : Machine.Step m (first ++ .call e :: second) m') : first = [] ∧ second = [] := by
  generalize recorded : first ++ .call e :: second = events at one
  have member : Occurrence.call e ∈ events := by
    rw [← recorded]
    exact List.mem_append_right first List.mem_cons_self
  cases one with
  | run one =>
      cases one with
      | read => cases member
      | write => cases member
      | call =>
          obtain ⟨rfl, same⟩ := (List.append_eq_singleton_iff.mp recorded).resolve_right (by simp)
          exact ⟨rfl, (List.cons.inj same).2⟩
  | signal | abort | killed | handlerReturn | mainReturn | exit => simp at member

/-- The peripherals are said to be large enough for the registers in use. -/
def saysLarge : EnvEvent → Bool
  | ⟨.bcmHostGetPeripheralSize, size⟩ => decide (0x00203024 ≤ size.toNat)
  | _ => true

/-- `main` on an empty input. -/
def emptyInput : List EnvEvent × Point Globals environment Unit :=
  (mainRegistered 4 .default).exec granting Globals.initial

theorem run_emptyInput : ∃ m, Run Machine.Step (Machine.start 4 .default)
    (emptyInput.1.map .call ++ [.ended]) m := by
  have run := Machine.run_frame
    (Program.run_exec (I := environment) granting (mainRegistered 4 .default) Globals.initial)
    none []
  have ends : emptyInput.2.rest.ended = true := by decide +kernel
  change Run Machine.Step _ (emptyInput.1.map .call)
    ⟨emptyInput.2.state, [⟨none, emptyInput.2.rest⟩]⟩ at run
  generalize emptyInput.2.rest = rest at ends run
  cases rest with
  | done => exact ⟨_, run.snoc .mainReturn⟩
  | exit => exact ⟨_, run.snoc .exit⟩
  | fail | cut | read | write | call => cases ends

/-- The DMA channel of the older boards is activated. -/
def activates : EnvCall → Bool
  | .dma 13 (.csActive true) => true
  | _ => false

/-- The activation of the DMA channel of the older boards. -/
theorem accesses_mapped_empty_input :
    ∃ trace m m' e, Run Machine.Step (Machine.start 4 .default) trace m ∧
      Machine.Step m [.call e] m' ∧ activates e.op = true ∧ m.globals.dma ≠ 0 ∧
      ∃ offset length base, ⟨.mmap offset length, some base⟩ ∈ envCalls trace ∧
        base ≤ m.globals.dma + 13 * 0x100 ∧
          m.globals.dma + 13 * 0x100 + 4 ≤ base + length.toNat := by
  obtain ⟨last, run⟩ := run_emptyInput
  have enough : 0 < emptyInput.1.countP fun e => activates e.op := by decide +kernel
  obtain ⟨before, e, after, split, activated, -⟩ := exists_split_of_lt_countP enough
  have all : emptyInput.1.all saysLarge = true := by decide +kernel
  rw [split] at run all
  rw [List.map_append, List.map_cons, List.append_assoc] at run
  obtain ⟨m, m', earlier, one, -⟩ := run.exists_step alone_call
  have calls := envCalls_map_call before
  have large (size : BitVec 32)
      (said : ⟨.bcmHostGetPeripheralSize, size⟩ ∈ envCalls (before.map .call)) :
      0x00203024 ≤ size.toNat := by
    rw [calls] at said
    exact of_decide_eq_true (List.all_eq_true.mp all _ (List.mem_append_left _ said))
  obtain ⟨-, set, mapped⟩ := accesses_mapped earlier one large
  refine ⟨_, m, m', e, earlier, one, activated, ?_⟩
  unfold activates at activated
  split at activated
  case h_1 same =>
    rw [same] at set mapped
    obtain ⟨offset, length, base, made, -, inside⟩ := mapped _ rfl
    exact ⟨set _ (List.mem_singleton_self _), offset, length, base, made, inside⟩
  case h_2 => cases activated

end Raspdif.Process
