import Raspdif.Lib.BitField

/-!
# The PCM peripheral

The registers of `bcm283x_pcm_t` as plain storage, `bcm283x_pcm_reset` and
`bcm283x_pcm_configure`.  `Bcm283xPcm.decode` reads a configuration back from the
registers.

`bcm283x_pcm_configure_mode` assigns `FTXP` twice, the second time from the receive
mode, and never assigns `FRXP`.  So the registers give back the configuration exactly
when both modes are the one `FRXP` already held (`decode_bcm283xPcmConfigure_iff`).
-/

namespace Raspdif

open BitField

/-! ## Registers -/

namespace PcmControlStatus

-- The fields of `pcm_control_status_t` that the driver assigns.

def en : Field 32 := ⟨0, 1, by decide⟩
def rxon : Field 32 := ⟨1, 1, by decide⟩
def txon : Field 32 := ⟨2, 1, by decide⟩
def txclr : Field 32 := ⟨3, 1, by decide⟩
def rxclr : Field 32 := ⟨4, 1, (by decide : 5 ≤ 32)⟩
def txthr : Field 32 := ⟨5, 2, by decide⟩
def rxthr : Field 32 := ⟨7, 2, by decide⟩
def txerr : Field 32 := ⟨15, 1, by decide⟩
def rxerr : Field 32 := ⟨16, 1, by decide⟩
def stby : Field 32 := ⟨25, 1, by decide⟩

end PcmControlStatus

namespace PcmMode

-- The fields of `pcm_mode_t`.

def fslen : Field 32 := ⟨0, 10, by decide⟩
def flen : Field 32 := ⟨10, 10, by decide⟩
def fsi : Field 32 := ⟨20, 1, by decide⟩
def fsm : Field 32 := ⟨21, 1, by decide⟩
def clki : Field 32 := ⟨22, 1, by decide⟩
def clkm : Field 32 := ⟨23, 1, by decide⟩
def ftxp : Field 32 := ⟨24, 1, by decide⟩
def frxp : Field 32 := ⟨25, 1, by decide⟩
def pdme : Field 32 := ⟨26, 1, by decide⟩
def pdmn : Field 32 := ⟨27, 1, by decide⟩
def clkDis : Field 32 := ⟨28, 1, by decide⟩

end PcmMode

namespace PcmDmaRequest

-- The fields of `pcm_dma_request_t`.

def rx : Field 32 := ⟨0, 7, by decide⟩
def tx : Field 32 := ⟨8, 7, by decide⟩
def rxPanic : Field 32 := ⟨16, 7, by decide⟩
def txPanic : Field 32 := ⟨24, 7, by decide⟩

end PcmDmaRequest

/-- `bcm283x_pcm_t`. -/
structure Bcm283xPcm where
  csA : BitVec 32
  fifoA : BitVec 32
  modeA : BitVec 32
  rxcA : BitVec 32
  txcA : BitVec 32
  dreqA : BitVec 32
  intenA : BitVec 32
  intstcA : BitVec 32
  gray : BitVec 32
  deriving DecidableEq

/-! ## Configuration -/

inductive PcmFrameSyncMode
  | master
  | slave
  deriving DecidableEq, Repr

inductive PcmClockMode
  | master
  | slave
  deriving DecidableEq, Repr

inductive PcmFrameMode
  | unpacked
  | packed
  deriving DecidableEq, Repr

/-- `pcm_fifo_threshold_t`; the transmit and the receive names share their values. -/
inductive PcmFifoThreshold
  | empty
  | oneThird
  | twoThird
  | full
  deriving DecidableEq, Repr

/-- The value of the enumerator. -/
def PcmFifoThreshold.code : PcmFifoThreshold → Nat
  | .empty => 0
  | .oneThird => 1
  | .twoThird => 2
  | .full => 3

structure PcmFrameSync where
  length : BitVec 16
  invert : Bool
  mode : PcmFrameSyncMode
  deriving DecidableEq

structure PcmClock where
  invert : Bool
  mode : PcmClockMode
  deriving DecidableEq

structure PcmFrameFormat where
  txMode : PcmFrameMode
  rxMode : PcmFrameMode
  length : BitVec 16
  deriving DecidableEq

structure PcmFifo where
  txThreshold : PcmFifoThreshold
  rxThreshold : PcmFifoThreshold
  deriving DecidableEq

/-- `pcm_configuration_t`. -/
structure PcmConfiguration where
  frameSync : PcmFrameSync
  clock : PcmClock
  frame : PcmFrameFormat
  fifo : PcmFifo
  deriving DecidableEq

/-- The lengths the mode register has room for. -/
structure PcmConfiguration.InRange (config : PcmConfiguration) : Prop where
  frame : 1 ≤ config.frame.length.toNat ∧ config.frame.length.toNat ≤ 1024
  frameSync : config.frameSync.length.toNat ≤ 1023

/-! ## The driver -/

/-- `bcm283x_pcm_reset`. -/
def bcm283xPcmReset (pcm : Bcm283xPcm) : Bcm283xPcm :=
  let pcm := { pcm with csA := PcmControlStatus.en.set pcm.csA 0 }
  let pcm := { pcm with csA := 0 }
  let pcm := { pcm with csA := PcmControlStatus.txclr.set pcm.csA 1 }
  let pcm := { pcm with csA := PcmControlStatus.rxclr.set pcm.csA 1 }
  let pcm := { pcm with csA := PcmControlStatus.txerr.set pcm.csA 1 }
  let pcm := { pcm with csA := PcmControlStatus.rxerr.set pcm.csA 1 }
  let pcm := { pcm with modeA := 0, rxcA := 0, txcA := 0 }
  let pcm := { pcm with dreqA := PcmDmaRequest.txPanic.set pcm.dreqA 0x10 }
  let pcm := { pcm with dreqA := PcmDmaRequest.rxPanic.set pcm.dreqA 0x30 }
  let pcm := { pcm with dreqA := PcmDmaRequest.tx.set pcm.dreqA 0x30 }
  let pcm := { pcm with dreqA := PcmDmaRequest.rx.set pcm.dreqA 0x20 }
  { pcm with intenA := 0, intstcA := 0, gray := 0 }

/-- `(mode == pcm_frame_sync_master) ? 0 : 1`. -/
def PcmFrameSyncMode.bit (mode : PcmFrameSyncMode) : Nat := if mode = .master then 0 else 1

/-- `(mode == pcm_clock_master) ? 0 : 1`. -/
def PcmClockMode.bit (mode : PcmClockMode) : Nat := if mode = .master then 0 else 1

/-- `(mode == pcm_frame_unpacked) ? 0 : 1`. -/
def PcmFrameMode.bit (mode : PcmFrameMode) : Nat := if mode = .unpacked then 0 else 1

/-- `bcm283x_pcm_configure_mode`, on the word of `MODE_A`. -/
def bcm283xPcmConfigureMode (config : PcmConfiguration) (mode : BitVec 32) : BitVec 32 :=
  -- A length of 0 gives -1, which the ten bits of the field truncate like its 16 bits.
  let mode := PcmMode.flen.set mode (config.frame.length - 1).toNat
  let mode := PcmMode.fslen.set mode config.frameSync.length.toNat
  let mode := PcmMode.fsi.set mode config.frameSync.invert.toNat
  let mode := PcmMode.fsm.set mode config.frameSync.mode.bit
  let mode := PcmMode.clki.set mode config.clock.invert.toNat
  let mode := PcmMode.clkm.set mode config.clock.mode.bit
  let mode := PcmMode.ftxp.set mode config.frame.txMode.bit
  let mode := PcmMode.ftxp.set mode config.frame.rxMode.bit
  let mode := PcmMode.pdme.set mode 0
  let mode := PcmMode.pdmn.set mode 0
  PcmMode.clkDis.set mode 0

/-- `bcm283x_pcm_configure`. -/
def bcm283xPcmConfigure (config : PcmConfiguration) (pcm : Bcm283xPcm) : Bcm283xPcm :=
  let pcm := { pcm with csA := PcmControlStatus.en.set pcm.csA 1 }
  let pcm := { pcm with csA := PcmControlStatus.stby.set pcm.csA 1 }
  let pcm := { pcm with csA := PcmControlStatus.txon.set pcm.csA 0 }
  let pcm := { pcm with csA := PcmControlStatus.rxon.set pcm.csA 0 }
  let pcm := { pcm with modeA := bcm283xPcmConfigureMode config pcm.modeA }
  let pcm := { pcm with csA := PcmControlStatus.txthr.set pcm.csA config.fifo.txThreshold.code }
  { pcm with csA := PcmControlStatus.rxthr.set pcm.csA config.fifo.rxThreshold.code }

/-! ## Reading the configuration back -/

/-- The threshold a two-bit field stands for. -/
def PcmFifoThreshold.ofCode : Nat → PcmFifoThreshold
  | 0 => .empty
  | 1 => .oneThird
  | 2 => .twoThird
  | _ => .full

/-- The configuration the registers stand for. -/
def Bcm283xPcm.decode (pcm : Bcm283xPcm) : PcmConfiguration where
  frameSync :=
    { length := BitVec.ofNat 16 (PcmMode.fslen.get pcm.modeA)
      invert := PcmMode.fsi.get pcm.modeA == 1
      mode := if PcmMode.fsm.get pcm.modeA = 0 then .master else .slave }
  clock :=
    { invert := PcmMode.clki.get pcm.modeA == 1
      mode := if PcmMode.clkm.get pcm.modeA = 0 then .master else .slave }
  frame :=
    { txMode := if PcmMode.ftxp.get pcm.modeA = 0 then .unpacked else .packed
      rxMode := if PcmMode.frxp.get pcm.modeA = 0 then .unpacked else .packed
      length := BitVec.ofNat 16 (PcmMode.flen.get pcm.modeA + 1) }
  fifo :=
    { txThreshold := .ofCode (PcmControlStatus.txthr.get pcm.csA)
      rxThreshold := .ofCode (PcmControlStatus.rxthr.get pcm.csA) }

/-- Neither direction runs. -/
def Bcm283xPcm.Off (pcm : Bcm283xPcm) : Prop :=
  PcmControlStatus.txon.get pcm.csA = 0 ∧ PcmControlStatus.rxon.get pcm.csA = 0

theorem PcmFrameSyncMode.decode_bit (mode : PcmFrameSyncMode) :
    (if mode.bit % 2 ^ 1 = 0 then .master else .slave) = mode := by
  cases mode <;> rfl

theorem PcmClockMode.decode_bit (mode : PcmClockMode) :
    (if mode.bit % 2 ^ 1 = 0 then .master else .slave) = mode := by
  cases mode <;> rfl

theorem PcmFrameMode.decode_bit (mode : PcmFrameMode) :
    (if mode.bit % 2 ^ 1 = 0 then .unpacked else .packed) = mode := by
  cases mode <;> rfl

theorem PcmFifoThreshold.ofCode_code (threshold : PcmFifoThreshold) :
    .ofCode (threshold.code % 2 ^ 2) = threshold := by
  cases threshold <;> rfl

section

variable {config : PcmConfiguration} (pcm : Bcm283xPcm)

theorem decode_frameSync (inRange : config.InRange) :
    (bcm283xPcmConfigure config pcm).decode.frameSync = config.frameSync := by
  have small := inRange.frameSync
  have length : BitVec.ofNat 16 (config.frameSync.length.toNat % 2 ^ 10) =
      config.frameSync.length := by
    rw [Nat.mod_eq_of_lt (by omega), BitVec.ofNat_toNat, BitVec.setWidth_eq]
  have invert : (config.frameSync.invert.toNat % 2 ^ 1 == 1) = config.frameSync.invert := by
    cases config.frameSync.invert <;> rfl
  simp (disch := decide) only [Bcm283xPcm.decode, bcm283xPcmConfigure, bcm283xPcmConfigureMode,
    Field.get_set_of_apart, Field.get_set]
  exact congr (congr (congrArg PcmFrameSync.mk length) invert) config.frameSync.mode.decode_bit

theorem decode_clock : (bcm283xPcmConfigure config pcm).decode.clock = config.clock := by
  have invert : (config.clock.invert.toNat % 2 ^ 1 == 1) = config.clock.invert := by
    cases config.clock.invert <;> rfl
  simp (disch := decide) only [Bcm283xPcm.decode, bcm283xPcmConfigure, bcm283xPcmConfigureMode,
    Field.get_set_of_apart, Field.get_set]
  exact congr (congrArg PcmClock.mk invert) config.clock.mode.decode_bit

theorem decode_fifo : (bcm283xPcmConfigure config pcm).decode.fifo = config.fifo := by
  simp (disch := decide) only [Bcm283xPcm.decode, bcm283xPcmConfigure,
    Field.get_set_of_apart, Field.get_set]
  exact congr (congrArg PcmFifo.mk (PcmFifoThreshold.ofCode_code _))
    (PcmFifoThreshold.ofCode_code _)

/-- The transmit mode that comes back is the receive mode of the configuration, and the
receive mode is what `FRXP` held before. -/
theorem decode_frame (inRange : config.InRange) :
    (bcm283xPcmConfigure config pcm).decode.frame =
      { txMode := config.frame.rxMode
        rxMode := pcm.decode.frame.rxMode
        length := config.frame.length } := by
  obtain ⟨positive, small⟩ := inRange.frame
  have length : BitVec.ofNat 16 ((config.frame.length - 1).toNat % 2 ^ 10 + 1) =
      config.frame.length := by
    have one : (1 : BitVec 16) ≤ config.frame.length := by
      rw [BitVec.le_def]
      exact positive
    rw [BitVec.toNat_sub_of_le one, show (1 : BitVec 16).toNat = 1 from rfl,
      Nat.mod_eq_of_lt (by omega), Nat.sub_add_cancel positive, BitVec.ofNat_toNat,
      BitVec.setWidth_eq]
  simp (disch := decide) only [Bcm283xPcm.decode, bcm283xPcmConfigure, bcm283xPcmConfigureMode,
    Field.get_set_of_apart, Field.get_set]
  exact congr (congrArg (fun mode => PcmFrameFormat.mk mode _) (PcmFrameMode.decode_bit _)) length

theorem off_bcm283xPcmConfigure : (bcm283xPcmConfigure config pcm).Off := by
  constructor <;>
    simp (disch := decide) only [bcm283xPcmConfigure, Field.get_set_of_apart, Field.get_set,
      Nat.zero_mod]

/-- What the registers give back: everything but the two frame modes is as configured. -/
theorem decode_bcm283xPcmConfigure (inRange : config.InRange) :
    (bcm283xPcmConfigure config pcm).decode =
      { config with
        frame :=
          { txMode := config.frame.rxMode
            rxMode := pcm.decode.frame.rxMode
            length := config.frame.length } } := by
  rw [← decode_frame pcm inRange]
  exact congr (congr (congr (congrArg PcmConfiguration.mk (decode_frameSync pcm inRange))
    (decode_clock pcm)) rfl) (decode_fifo pcm)

/-- The transmit mode has no part in what is programmed. -/
theorem bcm283xPcmConfigure_txMode (config : PcmConfiguration) (txMode : PcmFrameMode) :
    bcm283xPcmConfigure { config with frame := { config.frame with txMode := txMode } } pcm =
      bcm283xPcmConfigure config pcm := by
  simp only [bcm283xPcmConfigure, bcm283xPcmConfigureMode, Field.set_set]

/-- Nothing but the transmit mode can differ between configurations that program the
same registers. -/
theorem eq_of_bcm283xPcmConfigure_eq {other : PcmConfiguration} (inRange : config.InRange)
    (otherInRange : other.InRange)
    (same : bcm283xPcmConfigure other pcm = bcm283xPcmConfigure config pcm) :
    other = { config with frame := { config.frame with txMode := other.frame.txMode } } := by
  have decoded := decode_bcm283xPcmConfigure pcm otherInRange
  rw [same, decode_bcm283xPcmConfigure pcm inRange] at decoded
  simp only [PcmConfiguration.mk.injEq, PcmFrameFormat.mk.injEq, true_and] at decoded
  obtain ⟨frameSync, clock, ⟨rxMode, length⟩, fifo⟩ := decoded
  rcases other with ⟨otherSync, otherClock, ⟨txMode, otherRx, otherLength⟩, otherFifo⟩
  simp only [frameSync, clock, rxMode, length, fifo]

/-- **What `bcm283x_pcm_configure` programs.**  The registers give the configuration
back exactly when it has one mode for both directions and `FRXP` stood for that mode
before.  Two configurations program the same registers exactly when they differ in the
transmit mode at most. -/
theorem bcm283xPcmConfigure_faithful_iff {other : PcmConfiguration} (inRange : config.InRange)
    (otherInRange : other.InRange) :
    ((bcm283xPcmConfigure config pcm).decode = config ∧ (bcm283xPcmConfigure config pcm).Off ↔
      config.frame.txMode = config.frame.rxMode ∧
        pcm.decode.frame.rxMode = config.frame.rxMode) ∧
    (bcm283xPcmConfigure other pcm = bcm283xPcmConfigure config pcm ↔
      other = { config with frame := { config.frame with txMode := other.frame.txMode } }) := by
  refine ⟨⟨?_, ?_⟩, eq_of_bcm283xPcmConfigure_eq pcm inRange otherInRange, ?_⟩
  · rintro ⟨decoded, -⟩
    have frame := congrArg PcmConfiguration.frame decoded
    rw [decode_frame pcm inRange] at frame
    have txMode := congrArg PcmFrameFormat.txMode frame
    have rxMode := congrArg PcmFrameFormat.rxMode frame
    exact ⟨txMode.symm, rxMode⟩
  · rintro ⟨oneMode, before⟩
    refine ⟨?_, off_bcm283xPcmConfigure pcm⟩
    rw [decode_bcm283xPcmConfigure pcm inRange, before]
    rcases config with ⟨frameSync, clock, ⟨txMode, rxMode, length⟩, fifo⟩
    dsimp only at oneMode
    rw [oneMode]
  · intro differ
    rw [differ, bcm283xPcmConfigure_txMode]

end

/-- The configuration `raspdif_init` programs. -/
def raspdifPcmConfiguration : PcmConfiguration where
  frameSync := { length := 1, invert := false, mode := .master }
  clock := { invert := false, mode := .master }
  frame := { txMode := .unpacked, rxMode := .unpacked, length := 32 }
  fifo := { txThreshold := .empty, rxThreshold := .empty }

theorem inRange_raspdifPcmConfiguration : raspdifPcmConfiguration.InRange where
  frame := by decide
  frameSync := by decide

/-- The registers with every bit clear. -/
def Bcm283xPcm.clear : Bcm283xPcm where
  csA := 0
  fifoA := 0
  modeA := 0
  rxcA := 0
  txcA := 0
  dreqA := 0
  intenA := 0
  intstcA := 0
  gray := 0

/-- The same configuration with packed transmission. -/
def packedTransmission : PcmConfiguration :=
  { raspdifPcmConfiguration with
    frame := { raspdifPcmConfiguration.frame with txMode := .packed } }

theorem bcm283xPcmConfigure_faithful_raspdif :
    ((bcm283xPcmConfigure raspdifPcmConfiguration .clear).decode = raspdifPcmConfiguration ∧
      (bcm283xPcmConfigure raspdifPcmConfiguration .clear).Off) ∧
    bcm283xPcmConfigure packedTransmission .clear =
      bcm283xPcmConfigure raspdifPcmConfiguration .clear := by
  have packedInRange : packedTransmission.InRange := { frame := by decide, frameSync := by decide }
  obtain ⟨decoded, programmed⟩ :=
    bcm283xPcmConfigure_faithful_iff .clear inRange_raspdifPcmConfiguration packedInRange
  exact ⟨decoded.mpr ⟨rfl, by decide⟩, programmed.mpr rfl⟩

/-- Packed transmission is lost: the second assignment of `FTXP` clears it again. -/
theorem packedTransmission_lost :
    packedTransmission.InRange ∧
      (bcm283xPcmConfigure packedTransmission .clear).decode ≠ packedTransmission ∧
      bcm283xPcmConfigure packedTransmission .clear =
        bcm283xPcmConfigure raspdifPcmConfiguration .clear ∧
      packedTransmission ≠ raspdifPcmConfiguration :=
  ⟨{ frame := by decide, frameSync := by decide }, by decide, by decide, by decide⟩

end Raspdif
