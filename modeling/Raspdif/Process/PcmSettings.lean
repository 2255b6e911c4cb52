import Raspdif.Process.Signals

/-!
# The settings behind the PCM registers

`PcmSettings` is what the PCM driver is there to set: which parts of the peripheral run,
when it asks for DMA, the configuration and the channels of both directions.
`pcmSettings` reads it from the registers and `PcmCall.effect` says what a call of
the driver does to it.  Whatever is called in whatever order, the registers stand for the
settings that the calls ask for (`settings_of_run`).
-/

namespace Raspdif.Process

open Interaction Program BitField Trace

/-! ## Calls of the driver -/

/-- What `bcm283x_pcm_configure_channels` writes. -/
def pcmConfigureChannelsStores (register : PcmRegister)
    (channel1 channel2 : Option PcmChannelConfig) : List PcmStore :=
  pcmChannelStores register PcmTxRxConfig.ch1en PcmTxRxConfig.ch1pos PcmTxRxConfig.ch1wid
      PcmTxRxConfig.ch1wex channel1 ++
    pcmChannelStores register PcmTxRxConfig.ch2en PcmTxRxConfig.ch2pos PcmTxRxConfig.ch2wid
      PcmTxRxConfig.ch2wex channel2

def bcm283xPcmConfigureReceiveChannels (channel1 channel2 : Option PcmChannelConfig) :
    Prog Unit := do
  assertPcm
  pcmStores (pcmConfigureChannelsStores .rxcA channel1 channel2)

/-- The functions of `bcm283x_pcm.h` that write registers. -/
inductive PcmCall
  | reset
  | clearFifos
  | configureDma (dma : Bool) (config : PcmDmaConfig)
  | configureTransmitChannels (channel1 channel2 : Option PcmChannelConfig)
  | configureReceiveChannels (channel1 channel2 : Option PcmChannelConfig)
  | configure (config : PcmConfiguration)
  | enable (transmit receive : Bool)

def PcmCall.program : PcmCall → Prog Unit
  | .reset => bcm283xPcmReset
  | .clearFifos => bcm283xPcmClearFifos
  | .configureDma dma config => bcm283xPcmConfigureDma dma config
  | .configureTransmitChannels channel1 channel2 =>
      bcm283xPcmConfigureTransmitChannels channel1 channel2
  | .configureReceiveChannels channel1 channel2 =>
      bcm283xPcmConfigureReceiveChannels channel1 channel2
  | .configure config => bcm283xPcmConfigure config
  | .enable transmit receive => bcm283xPcmEnable transmit receive

/-- The calls one after the other. -/
def pcmProgram : List PcmCall → Prog Unit
  | [] => pure ()
  | first :: calls => do
      first.program
      pcmProgram calls

/-- The widths that a channel can have; 8 bits are the least. -/
def PcmChannelConfig.InRange (channel : PcmChannelConfig) : Prop :=
  8 ≤ channel.width.toNat ∧ channel.width.toNat < 40

/-- The arguments pass the assertions and fit the fields of the registers. -/
def PcmCall.InRange : PcmCall → Prop
  | .configureDma _ config => config.txThreshold.toNat ≤ 64 ∧ config.rxThreshold.toNat ≤ 64 ∧
      config.txPanic.toNat ≤ 64 ∧ config.rxPanic.toNat ≤ 64
  | .configureTransmitChannels channel1 channel2 | .configureReceiveChannels channel1 channel2 =>
      (∀ channel ∈ channel1, channel.InRange) ∧ ∀ channel ∈ channel2, channel.InRange
  | .configure config => config.InRange
  | _ => True

/-! ## Settings -/

structure PcmChannel where
  width : Nat
  position : Nat
  deriving DecidableEq

/-- Of one direction; `none` is a channel that is disabled. -/
structure PcmChannels where
  channel1 : Option PcmChannel
  channel2 : Option PcmChannel
  deriving DecidableEq

/-- When the peripheral asks for DMA. -/
structure PcmRequests where
  txThreshold : Nat
  txPanic : Nat
  rxThreshold : Nat
  rxPanic : Nat
  deriving DecidableEq

structure PcmSettings where
  enabled : Bool
  transmit : Bool
  receive : Bool
  dma : Bool
  requests : PcmRequests
  configuration : PcmConfiguration
  transmitChannels : PcmChannels
  receiveChannels : PcmChannels
  deriving DecidableEq

/-- Those behind `bcm283x_pcm_reset`. -/
def PcmSettings.afterReset : PcmSettings where
  enabled := false
  transmit := false
  receive := false
  dma := false
  requests := ⟨0x30, 0x10, 0x20, 0x30⟩
  configuration :=
    { frameSync := { length := 0, invert := false, mode := .master }
      clock := { invert := false, mode := .master }
      frame := { txMode := .unpacked, rxMode := .unpacked, length := 1 }
      fifo := { txThreshold := .empty, rxThreshold := .empty } }
  transmitChannels := ⟨none, none⟩
  receiveChannels := ⟨none, none⟩

def PcmChannelConfig.channel (config : PcmChannelConfig) : PcmChannel where
  width := config.width.toNat
  position := config.position.toNat

/-- What a call is for. -/
def PcmCall.effect (settings : PcmSettings) : PcmCall → PcmSettings
  | .reset => .afterReset
  | .clearFifos => settings
  | .configureDma dma config =>
      { settings with
        dma := dma
        requests := ⟨config.txThreshold.toNat, config.txPanic.toNat, config.rxThreshold.toNat,
          config.rxPanic.toNat⟩ }
  | .configureTransmitChannels channel1 channel2 =>
      { settings with
        transmitChannels := ⟨channel1.map PcmChannelConfig.channel,
          channel2.map PcmChannelConfig.channel⟩ }
  | .configureReceiveChannels channel1 channel2 =>
      { settings with
        receiveChannels := ⟨channel1.map PcmChannelConfig.channel,
          channel2.map PcmChannelConfig.channel⟩ }
  | .configure config =>
      { settings with
        enabled := true
        transmit := false
        receive := false
        configuration :=
          { config with
            -- The transmit mode becomes the receive mode, the receive mode stays.
            frame :=
              { txMode := config.frame.rxMode
                rxMode := settings.configuration.frame.rxMode
                length := config.frame.length } } }
  | .enable transmit receive =>
      { settings with
        enabled := true
        transmit := transmit
        receive := receive }

/-! ## Reading the settings -/

def pcmChannel (en pos wid wex : Field 32) (word : BitVec 32) : Option PcmChannel :=
  if en.get word = 1 then some ⟨16 * wex.get word + wid.get word + 8, pos.get word⟩ else none

def pcmChannels (word : BitVec 32) : PcmChannels where
  channel1 := pcmChannel PcmTxRxConfig.ch1en PcmTxRxConfig.ch1pos PcmTxRxConfig.ch1wid
    PcmTxRxConfig.ch1wex word
  channel2 := pcmChannel PcmTxRxConfig.ch2en PcmTxRxConfig.ch2pos PcmTxRxConfig.ch2wid
    PcmTxRxConfig.ch2wex word

/-- The settings the registers stand for. -/
def pcmSettings (pcm : Bcm283xPcm) : PcmSettings where
  enabled := PcmControlStatus.en.get pcm.csA == 1
  transmit := PcmControlStatus.txon.get pcm.csA == 1
  receive := PcmControlStatus.rxon.get pcm.csA == 1
  dma := PcmControlStatus.dmaen.get pcm.csA == 1
  requests := ⟨PcmDmaRequest.tx.get pcm.dreqA, PcmDmaRequest.txPanic.get pcm.dreqA,
    PcmDmaRequest.rx.get pcm.dreqA, PcmDmaRequest.rxPanic.get pcm.dreqA⟩
  configuration := pcm.decode
  transmitChannels := pcmChannels pcm.txcA
  receiveChannels := pcmChannels pcm.rxcA

/-- The registers behind some stores. -/
def pcmAfter (pcm : Bcm283xPcm) (stores : List PcmStore) : Bcm283xPcm :=
  stores.foldl PcmStore.apply pcm

/-! ## What a call leaves in the registers -/

/-- What the calls write, in order. -/
def PcmCall.stores : PcmCall → List PcmStore
  | .reset => [.field .csA PcmControlStatus.en 0] ++ pcmResetStores
  | .clearFifos => [.field .csA PcmControlStatus.txclr 1, .field .csA PcmControlStatus.rxclr 1] ++
      ([.field .csA PcmControlStatus.sync 0] ++ [.field .csA PcmControlStatus.sync 1])
  | .configureDma dma config => [.field .csA PcmControlStatus.dmaen dma.toNat,
      .field .dreqA PcmDmaRequest.txPanic config.txPanic.toNat,
      .field .dreqA PcmDmaRequest.tx config.txThreshold.toNat,
      .field .dreqA PcmDmaRequest.rxPanic config.rxPanic.toNat,
      .field .dreqA PcmDmaRequest.rx config.rxThreshold.toNat]
  | .configureTransmitChannels channel1 channel2 =>
      pcmConfigureChannelsStores .txcA channel1 channel2
  | .configureReceiveChannels channel1 channel2 =>
      pcmConfigureChannelsStores .rxcA channel1 channel2
  | .configure config => pcmConfigureStores ++ pcmConfigureModeStores config
  | .enable transmit receive => [.field .csA PcmControlStatus.en 1,
      .field .csA PcmControlStatus.txon transmit.toNat,
      .field .csA PcmControlStatus.rxon receive.toNat]

theorem pcmAfter_append (pcm : Bcm283xPcm) (first second : List PcmStore) :
    pcmAfter pcm (first ++ second) = pcmAfter (pcmAfter pcm first) second :=
  List.foldl_append

section

variable (pcm : Bcm283xPcm)

theorem get_zero (f : Field 32) : f.get 0 = 0 := by
  change (BitVec.extractLsb' f.offset f.width 0#32).toNat = 0
  rw [BitVec.extractLsb'_zero, BitVec.toNat_zero]

theorem settings_reset : pcmSettings (pcmAfter pcm PcmCall.reset.stores) = .afterReset := by
  simp (disch := decide) only [PcmCall.stores, pcmResetStores, pcmAfter, List.cons_append,
    List.nil_append, List.foldl_cons, List.foldl_nil, PcmStore.apply, PcmRegister.modify,
    pcmSettings, pcmChannels, pcmChannel, Bcm283xPcm.decode, Field.get_set_of_apart, Field.get_set,
    get_zero, ite_true]
  rfl

theorem settings_clearFifos :
    pcmSettings (pcmAfter pcm PcmCall.clearFifos.stores) = pcmSettings pcm := by
  simp (disch := decide) only [PcmCall.stores, pcmAfter, List.cons_append, List.nil_append,
    List.foldl_cons, List.foldl_nil, PcmStore.apply, PcmRegister.modify, pcmSettings,
    Bcm283xPcm.decode, Field.get_set_of_apart]
  rfl

theorem settings_enable (transmit receive : Bool) :
    pcmSettings (pcmAfter pcm (PcmCall.enable transmit receive).stores) =
      (PcmCall.enable transmit receive).effect (pcmSettings pcm) := by
  simp (disch := decide) only [PcmCall.stores, PcmCall.effect, pcmAfter, List.foldl_cons,
    List.foldl_nil, PcmStore.apply, PcmRegister.modify, pcmSettings, Bcm283xPcm.decode,
    Field.get_set_of_apart, Field.get_set]
  cases transmit <;> cases receive <;> rfl

theorem settings_configureDma {dma : Bool} {config : PcmDmaConfig}
    (inRange : (PcmCall.configureDma dma config).InRange) :
    pcmSettings (pcmAfter pcm (PcmCall.configureDma dma config).stores) =
      (PcmCall.configureDma dma config).effect (pcmSettings pcm) := by
  obtain ⟨txThreshold, rxThreshold, txPanic, rxPanic⟩ := inRange
  have fits {value : Nat} (small : value ≤ 64) : value % 2 ^ 7 = value :=
    Nat.mod_eq_of_lt (by omega)
  simp (disch := decide) only [PcmCall.stores, PcmCall.effect, pcmAfter, List.foldl_cons,
    List.foldl_nil, PcmStore.apply, PcmRegister.modify, pcmSettings, Bcm283xPcm.decode,
    Field.get_set_of_apart, Field.get_set]
  have flag : (dma.toNat % 2 ^ 1 == 1) = dma := by cases dma <;> rfl
  have requests := congr (congr (congr (congrArg PcmRequests.mk (fits txThreshold)) (fits txPanic))
    (fits rxThreshold)) (fits rxPanic)
  exact congr (congr (congr (congr (congrArg (PcmSettings.mk _ _ _) flag) requests) rfl) rfl) rfl

theorem settings_configure {config : PcmConfiguration} (inRange : config.InRange) :
    pcmSettings (pcmAfter pcm (PcmCall.configure config).stores) =
      (PcmCall.configure config).effect (pcmSettings pcm) := by
  have decoded := decode_bcm283xPcmConfigure pcm inRange
  rw [← foldl_pcmConfigureStores] at decoded
  change PcmSettings.mk _ _ _ _ _ (pcmAfter pcm (PcmCall.configure config).stores).decode _ _ = _
  rw [PcmCall.stores, pcmAfter, decoded]
  simp (disch := decide) only [PcmCall.effect, pcmConfigureStores, pcmConfigureModeStores,
    List.cons_append, List.nil_append, List.foldl_cons, List.foldl_nil, PcmStore.apply,
    PcmRegister.modify, pcmSettings, Field.get_set_of_apart, Field.get_set]
  rfl

/-! ## Channels -/

/-- A width goes into its two fields and comes back. -/
theorem width_fields {width : BitVec 8} (least : 8 ≤ width.toNat) (most : width.toNat < 40) :
    16 * (decide (24 ≤ width.toNat)).toNat + ((width - 8) &&& 0xF).toNat + 8 = width.toNat := by
  have every : ∀ width : BitVec 8, 8 ≤ width.toNat → width.toNat < 40 →
      16 * (decide (24 ≤ width.toNat)).toNat + ((width - 8) &&& 0xF).toNat + 8 = width.toNat := by
    decide +kernel
  exact every width least most

/-- What one channel leaves in the word of its direction. -/
def pcmChannelWord (en pos wid wex : Field 32) (word : BitVec 32) :
    Option PcmChannelConfig → BitVec 32
  | none => en.set word 0
  | some channel =>
      wex.set (wid.set (pos.set (en.set word 1) channel.position.toNat)
        ((channel.width - 8) &&& 0xF).toNat) (decide (24 ≤ channel.width.toNat)).toNat

/-- What both channels leave. -/
def pcmChannelsWord (word : BitVec 32) (channel1 channel2 : Option PcmChannelConfig) : BitVec 32 :=
  pcmChannelWord PcmTxRxConfig.ch2en PcmTxRxConfig.ch2pos PcmTxRxConfig.ch2wid PcmTxRxConfig.ch2wex
    (pcmChannelWord PcmTxRxConfig.ch1en PcmTxRxConfig.ch1pos PcmTxRxConfig.ch1wid
      PcmTxRxConfig.ch1wex word channel1) channel2

theorem pcmAfter_transmitChannels (channel1 channel2 : Option PcmChannelConfig) :
    pcmAfter pcm (pcmConfigureChannelsStores .txcA channel1 channel2) =
      { pcm with txcA := pcmChannelsWord pcm.txcA channel1 channel2 } := by
  cases channel1 <;> cases channel2 <;>
    simp only [pcmConfigureChannelsStores, pcmChannelStores, pcmChannelsWord, pcmChannelWord,
      pcmAfter, List.cons_append, List.nil_append, List.foldl_cons, List.foldl_nil,
      PcmStore.apply, PcmRegister.modify]

theorem pcmAfter_receiveChannels (channel1 channel2 : Option PcmChannelConfig) :
    pcmAfter pcm (pcmConfigureChannelsStores .rxcA channel1 channel2) =
      { pcm with rxcA := pcmChannelsWord pcm.rxcA channel1 channel2 } := by
  cases channel1 <;> cases channel2 <;>
    simp only [pcmConfigureChannelsStores, pcmChannelStores, pcmChannelsWord, pcmChannelWord,
      pcmAfter, List.cons_append, List.nil_append, List.foldl_cons, List.foldl_nil,
      PcmStore.apply, PcmRegister.modify]

/-- What comes back from the fields of a channel that is in use. -/
theorem channel_fields {channel : PcmChannelConfig} (inRange : channel.InRange) :
    PcmChannel.mk (16 * ((decide (24 ≤ channel.width.toNat)).toNat % 2 ^ 1) +
        ((channel.width - 8) &&& 0xF).toNat % 2 ^ 4 + 8) (channel.position.toNat % 2 ^ 10) =
      channel.channel := by
  obtain ⟨least, most⟩ := inRange
  have extended : (decide (24 ≤ channel.width.toNat)).toNat % 2 ^ 1 =
      (decide (24 ≤ channel.width.toNat)).toNat := Nat.mod_eq_of_lt (Bool.toNat_lt _)
  have low : ((channel.width - 8) &&& 0xF).toNat % 2 ^ 4 = ((channel.width - 8) &&& 0xF).toNat := by
    apply Nat.mod_eq_of_lt
    rw [BitVec.toNat_and]
    exact Nat.and_lt_two_pow _ (by decide)
  have position : channel.position.toNat % 2 ^ 10 = channel.position.toNat :=
    Nat.mod_eq_of_lt (by omega)
  rw [extended, low, position, width_fields least most]
  rfl

theorem pcmChannels_channelsWord {channel1 channel2 : Option PcmChannelConfig}
    (inRange1 : ∀ channel ∈ channel1, channel.InRange)
    (inRange2 : ∀ channel ∈ channel2, channel.InRange) (word : BitVec 32) :
    pcmChannels (pcmChannelsWord word channel1 channel2) =
      ⟨channel1.map PcmChannelConfig.channel, channel2.map PcmChannelConfig.channel⟩ := by
  cases channel1 with
  | none =>
      cases channel2 with
      | none =>
          simp (disch := decide) only [pcmChannels, pcmChannel, pcmChannelsWord, pcmChannelWord,
            Field.get_set_of_apart, Field.get_set]
          rfl
      | some channel2 =>
          simp (disch := decide) only [pcmChannels, pcmChannel, pcmChannelsWord, pcmChannelWord,
            Field.get_set_of_apart, Field.get_set]
          exact congrArg (fun second => PcmChannels.mk none (some second))
            (channel_fields (inRange2 channel2 rfl))
  | some channel1 =>
      cases channel2 with
      | none =>
          simp (disch := decide) only [pcmChannels, pcmChannel, pcmChannelsWord, pcmChannelWord,
            Field.get_set_of_apart, Field.get_set]
          exact congrArg (fun first => PcmChannels.mk (some first) none)
            (channel_fields (inRange1 channel1 rfl))
      | some channel2 =>
          simp (disch := decide) only [pcmChannels, pcmChannel, pcmChannelsWord, pcmChannelWord,
            Field.get_set_of_apart, Field.get_set]
          exact congrArg₂ (fun first second => PcmChannels.mk (some first) (some second))
            (channel_fields (inRange1 channel1 rfl)) (channel_fields (inRange2 channel2 rfl))

/-- A call has its effect, whatever the registers hold. -/
theorem settings_stores {call : PcmCall} (inRange : call.InRange) :
    pcmSettings (pcmAfter pcm call.stores) = call.effect (pcmSettings pcm) := by
  cases call with
  | reset => exact settings_reset pcm
  | clearFifos => exact settings_clearFifos pcm
  | configureDma => exact settings_configureDma pcm inRange
  | configure => exact settings_configure pcm inRange
  | enable transmit receive => exact settings_enable pcm transmit receive
  | configureTransmitChannels channel1 channel2 =>
      rw [PcmCall.stores, pcmAfter_transmitChannels, PcmCall.effect,
        ← pcmChannels_channelsWord inRange.1 inRange.2 pcm.txcA]
      rfl
  | configureReceiveChannels channel1 channel2 =>
      rw [PcmCall.stores, pcmAfter_receiveChannels, PcmCall.effect,
        ← pcmChannels_channelsWord inRange.1 inRange.2 pcm.rxcA]
      rfl

end

/-! ## In the middle of a call -/

/-- Every part of the peripheral is switched as in one of two settings. -/
structure PcmSettings.Between (before behind settings : PcmSettings) : Prop where
  enabled : settings.enabled = before.enabled ∨ settings.enabled = behind.enabled
  transmit : settings.transmit = before.transmit ∨ settings.transmit = behind.transmit
  receive : settings.receive = before.receive ∨ settings.receive = behind.receive
  dma : settings.dma = before.dma ∨ settings.dma = behind.dma

/-- Switched as some of the calls, from the first on, leave it or as the next of them does. -/
def Underway (calls : List PcmCall) (start settings : PcmSettings) : Prop :=
  ∃ made rest, calls = made ++ rest ∧
    (made.foldl PcmCall.effect start).Between ((made ++ rest.take 1).foldl PcmCall.effect start)
      settings

/-- A store that leaves this flag of `CS_A` as it is, or writes this value to it. -/
def leads (flag : Field 32) (value : Bool) : PcmStore → Bool
  | .word .csA word => (flag.get word == 1) == value
  | .field .csA bits written =>
      decide (flag.Apart bits) || bits == flag && written == value.toNat
  | _ => true

theorem leads_apply {flag : Field 32} (single : flag.width = 1) {value : Bool} {store : PcmStore}
    (isLed : leads flag value store = true) (pcm : Bcm283xPcm) :
    (flag.get (store.apply pcm).csA == 1) = (flag.get pcm.csA == 1) ∨
      (flag.get (store.apply pcm).csA == 1) = value := by
  cases store with
  | word register word =>
      cases register with
      | csA => exact Or.inr (eq_of_beq isLed)
      | _ => exact Or.inl rfl
  | field register bits written =>
      cases register with
      | csA =>
          change (flag.get (bits.set pcm.csA written) == 1) = (flag.get pcm.csA == 1) ∨
            (flag.get (bits.set pcm.csA written) == 1) = value
          simp only [leads, Bool.or_eq_true, Bool.and_eq_true, decide_eq_true_eq, beq_iff_eq]
            at isLed
          rcases isLed with apart | ⟨rfl, rfl⟩
          · rw [Field.get_set_of_apart apart]
            exact Or.inl rfl
          · rw [Field.get_set, single]
            cases value <;> exact Or.inr rfl
      | _ => exact Or.inl rfl

theorem leads_pcmAfter {flag : Field 32} (single : flag.width = 1) {value : Bool}
    {stores : List PcmStore} (allLed : ∀ store ∈ stores, leads flag value store = true)
    (pcm : Bcm283xPcm) :
    (flag.get (pcmAfter pcm stores).csA == 1) = (flag.get pcm.csA == 1) ∨
      (flag.get (pcmAfter pcm stores).csA == 1) = value := by
  induction stores generalizing pcm with
  | nil => exact Or.inl rfl
  | cons store stores ih =>
      obtain ⟨here, later⟩ := List.forall_mem_cons.mp allLed
      rcases ih later (store.apply pcm) with same | set
      · rcases leads_apply single here pcm with still | now
        · exact Or.inl (same.trans still)
        · exact Or.inr (same.trans now)
      · exact Or.inr set

theorem leads_channelsStores {register : PcmRegister} (other : register ≠ .csA)
    (channel1 channel2 : Option PcmChannelConfig) (flag : Field 32) (value : Bool) :
    ∀ store ∈ pcmConfigureChannelsStores register channel1 channel2,
      leads flag value store = true := by
  cases register with
  | csA => exact absurd rfl other
  | _ => cases channel1 <;> cases channel2 <;> exact List.all_eq_true.mp rfl

/-- The stores of a call lead every flag to its effect. -/
theorem leads_stores (call : PcmCall) (settings : PcmSettings) :
    (∀ store ∈ call.stores,
        leads PcmControlStatus.en (call.effect settings).enabled store = true) ∧
      (∀ store ∈ call.stores,
        leads PcmControlStatus.txon (call.effect settings).transmit store = true) ∧
      (∀ store ∈ call.stores,
        leads PcmControlStatus.rxon (call.effect settings).receive store = true) ∧
      ∀ store ∈ call.stores,
        leads PcmControlStatus.dmaen (call.effect settings).dma store = true := by
  cases call with
  | configureTransmitChannels channel1 channel2 | configureReceiveChannels channel1 channel2 =>
      refine ⟨?_, ?_, ?_, ?_⟩ <;> exact leads_channelsStores PcmRegister.noConfusion _ _ _ _
  | configureDma dma config =>
      cases dma <;>
        exact ⟨List.all_eq_true.mp rfl, List.all_eq_true.mp rfl, List.all_eq_true.mp rfl,
          List.all_eq_true.mp rfl⟩
  | enable transmit receive =>
      cases transmit <;> cases receive <;>
        exact ⟨List.all_eq_true.mp rfl, List.all_eq_true.mp rfl, List.all_eq_true.mp rfl,
          List.all_eq_true.mp rfl⟩
  | reset | clearFifos | configure config =>
      exact ⟨List.all_eq_true.mp rfl, List.all_eq_true.mp rfl, List.all_eq_true.mp rfl,
        List.all_eq_true.mp rfl⟩

/-- In the middle of a call. -/
theorem between_of_isPrefix {call : PcmCall} {part : List PcmStore} (isPart : part <+: call.stores)
    (pcm : Bcm283xPcm) : (pcmSettings pcm).Between (call.effect (pcmSettings pcm))
      (pcmSettings (pcmAfter pcm part)) := by
  obtain ⟨enabled, transmit, receive, dma⟩ := leads_stores call (pcmSettings pcm)
  have inPart {P : PcmStore → Prop} (all : ∀ store ∈ call.stores, P store) :
      ∀ store ∈ part, P store := fun store member => all store (isPart.subset member)
  exact {
    enabled := leads_pcmAfter rfl (inPart enabled) pcm
    transmit := leads_pcmAfter rfl (inPart transmit) pcm
    receive := leads_pcmAfter rfl (inPart receive) pcm
    dma := leads_pcmAfter rfl (inPart dma) pcm }

/-! ## Runs -/

/-- A call that writes a register. -/
def recordPcm (pcm : Bcm283xPcm) (e : EnvEvent) : Bcm283xPcm :=
  match e.op with
  | .pcm store => store.apply pcm
  | _ => pcm

/-- No assertion fails, the process goes on, and the registers are kept to something. -/
def pcmContract (kept : Bcm283xPcm → Prop) : Contract Globals Bcm283xPcm environment where
  record := recordPcm
  promised _ := True
  during pcm _ := kept pcm
  exited _ _ := False
  failed _ _ := False

namespace PcmDriver

/-- So they are behind each of the stores. -/
def KeptBy (kept : Bcm283xPcm → Prop) (pcm : Bcm283xPcm) (stores : List PcmStore) : Prop :=
  ∀ part, part <+: stores → kept (pcmAfter pcm part)

variable {kept : Bcm283xPcm → Prop} {pcm : Bcm283xPcm} {g : Globals}
  {post : Unit → Bcm283xPcm → Globals → Prop}

theorem KeptBy.start {stores : List PcmStore} (all : KeptBy kept pcm stores) : kept pcm :=
  all [] List.nil_prefix

theorem KeptBy.end {stores : List PcmStore} (all : KeptBy kept pcm stores) :
    kept (pcmAfter pcm stores) :=
  all stores List.prefix_rfl

theorem KeptBy.append {first second : List PcmStore} (all : KeptBy kept pcm (first ++ second)) :
    KeptBy kept pcm first ∧ KeptBy kept (pcmAfter pcm first) second := by
  constructor
  · intro part isPart
    exact all part (isPart.trans (List.prefix_append first second))
  · intro part isPart
    rw [← pcmAfter_append]
    exact all _ ((List.prefix_append_right_inj first).mpr isPart)

theorem meets_pcmStores {stores : List PcmStore} (all : KeptBy kept pcm stores)
    (met : post () (pcmAfter pcm stores) g) :
    (pcmStores stores).Meets (pcmContract kept) post pcm g := by
  induction stores generalizing pcm with
  | nil => exact met
  | cons store stores ih =>
      refine ⟨all.start, fun _ _ => ih ?_ met⟩
      intro part isPart
      exact all (store :: part) (List.cons_prefix_cons.mpr ⟨rfl, isPart⟩)

theorem meets_assertPcm (here : kept pcm) (mapped : g.pcm ≠ 0) (met : post () pcm g) :
    assertPcm.Meets (pcmContract kept) post pcm g :=
  meets_bind.mpr (meets_getState.mpr ⟨here, meets_assert_of mapped met⟩)

theorem meets_bcm283xDelay (here : kept pcm) (met : post () pcm g) :
    (bcm283xDelayMicroseconds 10).Meets (pcmContract kept) post pcm g :=
  ⟨here, fun _ _ => met⟩

theorem meets_pcmSynced (here : kept pcm) (value : Nat) (met : post () pcm g) :
    (ask (.pcmSynced value)).Meets (pcmContract kept) post pcm g :=
  ⟨here, fun _ _ => met⟩

/-- Each function writes its stores. -/
theorem meets_pcmCall {call : PcmCall} (inRange : call.InRange) (mapped : g.pcm ≠ 0)
    (all : KeptBy kept pcm call.stores) (met : post () (pcmAfter pcm call.stores) g) :
    call.program.Meets (pcmContract kept) post pcm g := by
  cases call with
  | reset =>
      rw [PcmCall.stores, pcmAfter_append] at met
      obtain ⟨first, second⟩ := all.append
      apply meets_bind.mpr
      apply meets_assertPcm all.start mapped
      apply meets_bind.mpr
      apply meets_pcmStores first
      apply meets_bind.mpr
      apply meets_bcm283xDelay first.end
      exact meets_pcmStores second met
  | clearFifos =>
      rw [PcmCall.stores, pcmAfter_append, pcmAfter_append] at met
      obtain ⟨clear, sync⟩ := all.append
      obtain ⟨low, high⟩ := sync.append
      apply meets_bind.mpr
      apply meets_assertPcm all.start mapped
      apply meets_bind.mpr
      apply meets_pcmStores clear
      apply meets_bind.mpr
      apply meets_assertPcm clear.end mapped
      apply meets_bind.mpr
      apply meets_pcmStores low
      apply meets_bind.mpr
      apply meets_pcmSynced low.end
      apply meets_bind.mpr
      apply meets_pcmStores high
      exact meets_pcmSynced high.end 1 met
  | configureDma dma config =>
      obtain ⟨txThreshold, rxThreshold, txPanic, rxPanic⟩ := inRange
      apply meets_bind.mpr
      apply meets_assertPcm all.start mapped
      apply meets_bind.mpr
      apply meets_assert_of txThreshold
      apply meets_bind.mpr
      apply meets_assert_of rxThreshold
      apply meets_bind.mpr
      apply meets_assert_of txPanic
      apply meets_bind.mpr
      apply meets_assert_of rxPanic
      exact meets_pcmStores all met
  | configureTransmitChannels channel1 channel2 =>
      rw [PcmCall.stores, pcmConfigureChannelsStores, pcmAfter_append] at met
      obtain ⟨first, second⟩ := all.append
      apply meets_bind.mpr
      apply meets_assertPcm all.start mapped
      apply meets_bind.mpr
      apply meets_pcmStores first
      exact meets_pcmStores second met
  | configureReceiveChannels channel1 channel2 =>
      apply meets_bind.mpr
      apply meets_assertPcm all.start mapped
      exact meets_pcmStores all met
  | configure config =>
      rw [PcmCall.stores, pcmAfter_append] at met
      obtain ⟨first, second⟩ := all.append
      apply meets_bind.mpr
      apply meets_assertPcm all.start mapped
      apply meets_bind.mpr
      apply meets_pcmStores first
      apply meets_bind.mpr
      apply meets_bcm283xDelay first.end
      apply meets_bind.mpr
      apply meets_pcmStores second
      exact meets_bcm283xDelay second.end met
  | enable transmit receive => exact meets_pcmStores all met

/-- Calls one after the other. -/
theorem meets_pcmProgram {calls : List PcmCall} (inRange : ∀ call ∈ calls, call.InRange)
    (mapped : g.pcm ≠ 0)
    (underway : ∀ pcm', Underway calls (pcmSettings pcm) (pcmSettings pcm') → kept pcm') :
    (pcmProgram calls).Meets (pcmContract kept)
      (fun _ pcm' _ => kept pcm' ∧
        pcmSettings pcm' = calls.foldl PcmCall.effect (pcmSettings pcm)) pcm g := by
  induction calls generalizing pcm with
  | nil =>
      refine ⟨underway pcm ⟨[], [], rfl, ?_⟩, rfl⟩
      exact ⟨Or.inl rfl, Or.inl rfl, Or.inl rfl, Or.inl rfl⟩
  | cons first calls ih =>
      obtain ⟨here, later⟩ := List.forall_mem_cons.mp inRange
      have effect := settings_stores pcm here
      have all : KeptBy kept pcm first.stores := fun part isPart =>
        underway _ ⟨[], first :: calls, rfl, between_of_isPrefix isPart pcm⟩
      apply meets_bind.mpr
      apply meets_pcmCall here mapped all
      rw [List.foldl_cons, ← effect]
      apply ih later
      rintro pcm' ⟨made, rest, split, between⟩
      rw [effect] at between
      exact underway pcm' ⟨first :: made, rest, congrArg (first :: ·) split, between⟩

end PcmDriver

/-- **The PCM driver sets what it is asked for.**  Whatever the registers hold and whatever
is called, no assertion fails, and behind the calls the registers stand for the settings
that the calls ask for.  At any moment before, every part of the peripheral is switched as
some of the calls, from the first on, leave it or as the next of them does. -/
theorem settings_of_run {calls : List PcmCall} (inRange : ∀ call ∈ calls, call.InRange)
    {g : Globals} (mapped : g.pcm ≠ 0) (pcm : Bcm283xPcm) {trace : List EnvEvent}
    {point : Point Globals environment Unit}
    (run : Run Point.Step ⟨g, pcmProgram calls⟩ trace point) :
    point.rest ≠ .fail ∧
      Underway calls (pcmSettings pcm) (pcmSettings (trace.foldl recordPcm pcm)) ∧
      (point.rest = .done () →
        pcmSettings (trace.foldl recordPcm pcm) =
          calls.foldl PcmCall.effect (pcmSettings pcm)) := by
  let kept := fun pcm' => Underway calls (pcmSettings pcm) (pcmSettings pcm')
  have met : (pcmProgram calls).Meets (pcmContract kept) _ pcm g :=
    PcmDriver.meets_pcmProgram inRange mapped fun _ underway => underway
  have now := met.run run fun _ _ => trivial
  refine ⟨?_, now.during fun _ _ _ returned => returned.1, ?_⟩
  · intro failed
    rw [failed] at now
    exact now.2
  · intro returned
    rw [returned] at now
    exact now.2

/-- What `raspdif_init` calls, and `main` behind the preload. -/
def transmitCalls : List PcmCall :=
  [.reset, .configure raspdifPcmConfiguration, .configureDma true ⟨32, 16, 0, 0⟩,
    .configureTransmitChannels (some ⟨32, 0⟩) none, .clearFifos, .enable true false]

theorem settings_transmitCalls : ∃ trace point,
    Run Point.Step ⟨{ Globals.initial with pcm := 0x203000 }, pcmProgram transmitCalls⟩ trace
        point ∧
      point.rest = .done () ∧
      pcmSettings (trace.foldl recordPcm .clear) =
        { enabled := true
          transmit := true
          receive := false
          dma := true
          requests := ⟨32, 16, 0, 0⟩
          configuration := raspdifPcmConfiguration
          transmitChannels := ⟨some ⟨32, 0⟩, none⟩
          receiveChannels := ⟨none, none⟩ } := by
  have inRange : ∀ call ∈ transmitCalls, call.InRange := by
    simp only [transmitCalls, List.forall_mem_cons]
    have thresholds : (PcmCall.configureDma true ⟨32, 16, 0, 0⟩).InRange :=
      ⟨by decide, by decide, by decide, by decide⟩
    refine ⟨trivial, inRange_raspdifPcmConfiguration, thresholds, ⟨?_, ?_⟩, trivial, trivial,
      List.forall_mem_nil _⟩
    · rintro channel ⟨⟩
      exact ⟨by decide, by decide⟩
    · rintro channel ⟨⟩
  have run := Program.run_exec (I := environment) granting (pcmProgram transmitCalls)
    { Globals.initial with pcm := 0x203000 }
  obtain ⟨-, -, settings⟩ := settings_of_run inRange (Nat.succ_ne_zero _) .clear run
  exact ⟨_, _, run, rfl, settings rfl⟩

end Raspdif.Process
