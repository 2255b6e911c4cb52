import Raspdif.Dma.System
import Raspdif.Lib.BitField

/-!
# The DMA walks the ring

Here the DMA is an engine that knows nothing of the ring: it loads eight words at
`CONBLK_AD`, copies `XLENGTH` bytes word by word, and loads the block at
`NEXTCONBK`.  `Setup.image` is `raspdif_control_t` in memory, word by word, with the
control blocks as `raspdif_generate_dma_control_blocks` writes them; the buffers may hold
anything at any step.

`EngineAt` is where the engine stands after `n` words, whatever the base address: in
word `n` of the ring, counted through buffers, slots and the four words of a slot.  The
coarser `System.Step.move` is what the loads of this engine amount to (`System.Follows.step`).
-/

namespace Raspdif

open BitField Trace

/-! ## Control blocks and buffers in memory -/

namespace DmaTi

-- Fields of `dma_transfer_information_t`.

def waitResp : Field 32 := ⟨3, 1, (by decide : 3 < 32)⟩
def destInc : Field 32 := ⟨4, 1, (by decide : 4 < 32)⟩
def destDreq : Field 32 := ⟨6, 1, (by decide : 6 < 32)⟩
def srcInc : Field 32 := ⟨8, 1, (by decide : 8 < 32)⟩
def permap : Field 32 := ⟨16, 5, by decide⟩
def noWideBursts : Field 32 := ⟨26, 1, (by decide : 26 < 32)⟩

end DmaTi

/-- `XLENGTH` of `dma_transfer_length_t`. -/
def dmaXlength : Field 32 := ⟨0, 16, by decide⟩

/-- The flags assigned one by one to a word of zeros. -/
def DmaTransferInformation.word (ti : DmaTransferInformation) : BitVec 32 :=
  let word := DmaTi.noWideBursts.set 0 ti.noWideBursts.toNat
  let word := DmaTi.permap.set word ti.permap.toNat
  let word := DmaTi.destDreq.set word ti.destDreq.toNat
  let word := DmaTi.waitResp.set word ti.waitResp.toNat
  DmaTi.srcInc.set word ti.srcInc.toNat

theorem DmaTransferInformation.get_srcInc (ti : DmaTransferInformation) :
    DmaTi.srcInc.get ti.word = ti.srcInc.toNat :=
  Field.get_set_of_lt (by cases ti.srcInc <;> decide)

theorem DmaTransferInformation.get_destInc (ti : DmaTransferInformation) :
    DmaTi.destInc.get ti.word = 0 := by
  simp only [DmaTransferInformation.word]
  rw [Field.get_set_of_apart (by decide), Field.get_set_of_apart (by decide),
    Field.get_set_of_apart (by decide), Field.get_set_of_apart (by decide),
    Field.get_set_of_apart (by decide)]
  decide

/-- The eight words of `dma_control_block_t`; stride and reserved words stay 0. -/
def DmaControlBlock.word (block : DmaControlBlock) : Nat → BitVec 32
  | 0 => block.transferInformation.word
  | 1 => block.sourceAddress
  | 2 => block.destinationAddress
  | 3 => dmaXlength.set 0 block.xlength.toNat
  | 5 => block.nextControlBlock
  | _ => 0

/-- The words of a slot, in the order of `raspdif_sample_t`. -/
inductive EntryWord
  | aMsb
  | aLsb
  | bMsb
  | bLsb
  deriving DecidableEq, Repr

def RaspdifEntry.word (entry : RaspdifEntry) : EntryWord → BitVec 32
  | .aMsb => entry.a.msb
  | .aLsb => entry.a.lsb
  | .bMsb => entry.b.msb
  | .bLsb => entry.b.lsb

/-- `offsetof` in a slot. -/
def EntryWord.offset : EntryWord → Nat
  | .aMsb => 0
  | .aLsb => 4
  | .bMsb => 8
  | .bLsb => 12

/-- A word of `raspdif.control.buffers`. -/
structure RingWord where
  buffer : Nat
  slot : Fin raspdifBufferSize
  word : EntryWord

def RingWord.read (w : RingWord) (buffers : Nat → RaspdifBuffer) : BitVec 32 :=
  ((buffers w.buffer).sample w.slot).word w.word

/-- Its bus address. -/
def Setup.wordAddress (setup : Setup) (w : RingWord) : BitVec 32 :=
  setup.bufferAddress w.buffer + BitVec.ofNat 32 (16 * w.slot + w.word.offset)

/-- The words of a buffer. -/
abbrev bufferWords : Nat := 4 * raspdifBufferSize

/-- The words of the ring. -/
abbrev ringWords : Nat := raspdifBufferCount * bufferWords

/-- Word number `k` of the ring in the order buffer, slot, `a.msb`, `a.lsb`, `b.msb`,
`b.lsb`. -/
def ringWord (k : Nat) : RingWord where
  buffer := k / bufferWords
  slot := ⟨k / 4 % raspdifBufferSize, Nat.mod_lt _ (Nat.zero_lt_succ _)⟩
  word :=
    match k % 4 with
    | 0 => .aMsb
    | 1 => .aLsb
    | 2 => .bMsb
    | _ => .bLsb

/-- The bytes of the control blocks, in front of the buffers. -/
abbrev sizeofControlBlocks : Nat := 32 * raspdifBufferCount

/-- `sizeof(raspdif_control_t)`. -/
abbrev sizeofControl : Nat := sizeofControlBlocks + sizeofBuffer * raspdifBufferCount

/-- The memory the engine reads: `raspdif_control_t` at the bus address, and whatever
there is elsewhere. -/
def Setup.image (setup : Setup) (buffers : Nat → RaspdifBuffer)
    (elsewhere : BitVec 32 → BitVec 32) (address : BitVec 32) : BitVec 32 :=
  let offset := (address - setup.bus).toNat
  if offset < sizeofControlBlocks then
    (raspdifGenerateDmaControlBlocks setup (offset / 32)).word (offset % 32 / 4)
  else if offset < sizeofControl then
    (ringWord ((offset - sizeofControlBlocks) / 4)).read buffers
  else
    elsewhere address

/-! ## The engine -/

/-- The registers of a DMA channel. -/
structure Engine where
  conblkAd : BitVec 32
  srcInc : Bool
  destInc : Bool
  source : BitVec 32
  destination : BitVec 32
  /-- Bytes still to be copied. -/
  left : Nat
  next : BitVec 32

/-- Loads the control block at `address`. -/
def Engine.load (memory : BitVec 32 → BitVec 32) (address : BitVec 32) : Engine where
  conblkAd := address
  srcInc := DmaTi.srcInc.get (memory address) == 1
  destInc := DmaTi.destInc.get (memory address) == 1
  source := memory (address + 4)
  destination := memory (address + 8)
  left := dmaXlength.get (memory (address + 12))
  next := memory (address + 20)

/-- Behind the copy of one word. -/
def Engine.advance (e : Engine) : Engine :=
  { e with
    source := if e.srcInc then e.source + 4 else e.source
    destination := if e.destInc then e.destination + 4 else e.destination
    left := e.left - 4 }

/-- One word copied, and what the buffers held then. -/
structure DmaCopy where
  source : BitVec 32
  destination : BitVec 32
  word : BitVec 32
  buffers : Nat → RaspdifBuffer

inductive DmaAccess
  | load (address : BitVec 32)
  | copy (c : DmaCopy)

/-- A step of the engine, on buffers that the program may have written since the last. -/
inductive Engine.Step (setup : Setup) : Engine → List DmaAccess → Engine → Prop
  | copy {e : Engine} (buffers : Nat → RaspdifBuffer) (elsewhere : BitVec 32 → BitVec 32) :
    0 < e.left →
    Engine.Step setup e
      [.copy ⟨e.source, e.destination, setup.image buffers elsewhere e.source, buffers⟩] e.advance
  | load {e : Engine} (buffers : Nat → RaspdifBuffer) (elsewhere : BitVec 32 → BitVec 32) :
    e.left = 0 →
    Engine.Step setup e [.load e.next] (Engine.load (setup.image buffers elsewhere) e.next)

def DmaAccess.copy? : DmaAccess → Option DmaCopy
  | .copy c => some c
  | .load _ => none

def DmaAccess.load? : DmaAccess → Option (BitVec 32)
  | .load address => some address
  | .copy _ => none

/-- The words copied, in order. -/
def copies (trace : List DmaAccess) : List DmaCopy := trace.filterMap DmaAccess.copy?

/-- The control blocks loaded. -/
def loads (trace : List DmaAccess) : List (BitVec 32) := trace.filterMap DmaAccess.load?

/-! ## Addresses -/

section

variable {setup : Setup}

theorem wordAddress_ringWord (setup : Setup) (k : Nat) :
    setup.wordAddress (ringWord k) = setup.bus + BitVec.ofNat 32 (sizeofControlBlocks + 4 * k) := by
  have offset : (ringWord k).word.offset = 4 * (k % 4) := by
    have four : k % 4 < 4 := Nat.mod_lt _ (by decide)
    simp only [ringWord]
    generalize k % 4 = r at four
    match r, four with
    | 0, _ | 1, _ | 2, _ | 3, _ => rfl
  rw [Setup.wordAddress, Setup.bufferAddress, BitVec.add_assoc, ← BitVec.ofNat_add, offset]
  congr 2
  simp only [ringWord, sizeofControlBlocks, sizeofBuffer, bufferWords, raspdifBufferCount,
    raspdifBufferSize]
  omega

/-- The offset of an address in the control structure. -/
theorem toNat_offset (setup : Setup) {offset : Nat} (small : offset < 2 ^ 32) :
    (setup.bus + BitVec.ofNat 32 offset - setup.bus).toNat = offset := by
  rw [BitVec.add_comm, BitVec.add_sub_cancel, BitVec.toNat_ofNat, Nat.mod_eq_of_lt small]

/-- A word of a control block in memory. -/
theorem image_controlBlock (buffers : Nat → RaspdifBuffer) (elsewhere : BitVec 32 → BitVec 32)
    {i j : Nat} (block : i < raspdifBufferCount) (word : j < 8) :
    setup.image buffers elsewhere (setup.controlBlock i + BitVec.ofNat 32 (4 * j)) =
      (raspdifGenerateDmaControlBlocks setup i).word j := by
  simp only [raspdifBufferCount] at block
  rw [Setup.controlBlock, BitVec.add_assoc, ← BitVec.ofNat_add, Setup.image]
  simp only [toNat_offset setup (by omega : 32 * i + 4 * j < 2 ^ 32)]
  rw [if_pos (by simp only [sizeofControlBlocks, raspdifBufferCount]; omega),
    show (32 * i + 4 * j) / 32 = i by omega, show (32 * i + 4 * j) % 32 / 4 = j by omega]

/-- A word of the ring in memory. -/
theorem image_wordAddress (buffers : Nat → RaspdifBuffer) (elsewhere : BitVec 32 → BitVec 32)
    {k : Nat} (inRing : k < ringWords) :
    setup.image buffers elsewhere (setup.wordAddress (ringWord k)) = (ringWord k).read buffers := by
  simp only [ringWords, bufferWords, raspdifBufferCount, raspdifBufferSize] at inRing
  rw [wordAddress_ringWord, Setup.image]
  simp only [sizeofControl, sizeofControlBlocks, sizeofBuffer, raspdifBufferCount,
    raspdifBufferSize]
  rw [toNat_offset setup (by omega), if_neg (by omega), if_pos (by omega),
    show (32 * 3 + 4 * k - 32 * 3) / 4 = k by omega]

theorem ringWord_buffer {i offset : Nat} (inBlock : offset < bufferWords) :
    (ringWord (bufferWords * i + offset)).buffer = i := by
  change (bufferWords * i + offset) / bufferWords = i
  simp only [bufferWords, raspdifBufferSize] at *
  omega

end

/-! ## Where the engine stands -/

/-- In the block of buffer `i`, with `offset` of its words copied. -/
structure Engine.At (setup : Setup) (i offset : Nat) (e : Engine) : Prop where
  inRing : i < raspdifBufferCount
  inBlock : offset ≤ bufferWords
  conblkAd : e.conblkAd = setup.controlBlock i
  srcInc : e.srcInc = true
  destInc : e.destInc = false
  source : e.source = setup.wordAddress (ringWord (bufferWords * i + offset))
  destination : e.destination = pcmFifo
  left : e.left = 4 * (bufferWords - offset)
  next : e.next = setup.controlBlock ((i + 1) % raspdifBufferCount)

/-- After `n` words. -/
structure EngineAt (setup : Setup) (n : Nat) (e : Engine) : Prop where
  place : ∃ i offset, e.At setup i offset ∧
    n % ringWords = (bufferWords * i + offset) % ringWords ∧ (offset = bufferWords → 0 < n)

section

variable {setup : Setup} {i offset n : Nat} {e e' : Engine} {events : List DmaAccess}

/-- A control block that has just been loaded. -/
theorem Engine.at_load (buffers : Nat → RaspdifBuffer) (elsewhere : BitVec 32 → BitVec 32)
    (inRing : i < raspdifBufferCount) :
    (Engine.load (setup.image buffers elsewhere) (setup.controlBlock i)).At setup i 0 := by
  have word {j : Nat} (small : j < 8) :=
    @image_controlBlock setup buffers elsewhere i j inRing small
  have flags := word (j := 0) (by decide)
  rw [Nat.mul_zero, BitVec.add_zero] at flags
  refine ⟨inRing, Nat.zero_le _, rfl, ?_, ?_, ?_, ?_, ?_, ?_⟩
  · change (DmaTi.srcInc.get (setup.image buffers elsewhere (setup.controlBlock i)) == 1) = true
    rw [flags]
    exact congrArg (· == 1) (DmaTransferInformation.get_srcInc _)
  · change (DmaTi.destInc.get (setup.image buffers elsewhere (setup.controlBlock i)) == 1) = false
    rw [flags]
    exact congrArg (· == 1) (DmaTransferInformation.get_destInc _)
  · change setup.image buffers elsewhere (setup.controlBlock i + BitVec.ofNat 32 (4 * 1)) = _
    rw [word (by decide), wordAddress_ringWord]
    change setup.bus + _ = _
    congr 2
    simp only [sizeofBuffer, sizeofControlBlocks, bufferWords, raspdifBufferSize]
    omega
  · exact word (j := 2) (by decide)
  · change dmaXlength.get (setup.image buffers elsewhere (setup.controlBlock i + BitVec.ofNat 32
      (4 * 3))) = _
    rw [word (by decide)]
    exact (Field.get_set_of_lt (BitVec.isLt _)).trans rfl
  · exact word (j := 5) (by decide)

theorem Engine.At.advance (here : e.At setup i offset) (more : 0 < e.left) :
    e.advance.At setup i (offset + 1) := by
  have left := here.left
  refine ⟨here.inRing, by omega, here.conblkAd, here.srcInc, here.destInc, ?_, ?_, ?_, here.next⟩
  · change (if e.srcInc then e.source + 4 else e.source) = _
    rw [here.srcInc, if_pos rfl, here.source, wordAddress_ringWord, wordAddress_ringWord,
      BitVec.add_assoc]
    exact congrArg (setup.bus + ·) (BitVec.ofNat_add _ 4).symm
  · change (if e.destInc then e.destination + 4 else e.destination) = _
    rw [here.destInc, if_neg Bool.false_ne_true, here.destination]
  · change e.left - 4 = _
    omega

theorem Engine.At.left_eq_zero (here : e.At setup i offset) :
    e.left = 0 ↔ offset = bufferWords := by
  have left := here.left
  have inBlock := here.inBlock
  omega

/-- The buffer the engine is reading after `n` words: that of the next word, or of the
last when its block has come to an end. -/
def Engine.reading (n : Nat) (e : Engine) : Nat :=
  (ringWord ((if e.left = 0 then n - 1 else n) % ringWords)).buffer

theorem Engine.At.lap (here : e.At setup i offset) (place : n % ringWords =
    (bufferWords * i + offset) % ringWords) (more : 0 < e.left) :
    n % ringWords = bufferWords * i + offset := by
  have inRing := here.inRing
  have left := here.left
  rw [place, Nat.mod_eq_of_lt]
  simp only [ringWords, bufferWords, raspdifBufferCount, raspdifBufferSize] at *
  omega

theorem EngineAt.conblkAd (stands : EngineAt setup n e) :
    e.reading n < raspdifBufferCount ∧ e.conblkAd = setup.controlBlock (e.reading n) := by
  rcases stands.place with ⟨i, offset, here, place, begun⟩
  have left := here.left
  have inBlock := here.inBlock
  have reading : e.reading n = i := by
    rw [Engine.reading]
    split
    case isTrue done =>
      have full := here.left_eq_zero.mp done
      have some := begun full
      have inRing := here.inRing
      change (n - 1) % ringWords / bufferWords = i
      simp only [ringWords, bufferWords, raspdifBufferCount, raspdifBufferSize] at *
      omega
    case isFalse more =>
      rw [here.lap place (Nat.pos_of_ne_zero more)]
      exact ringWord_buffer (by omega)
  rw [reading]
  exact ⟨here.inRing, here.conblkAd⟩

/-- `c` is the copy of word number `k`. -/
structure DmaCopy.IsWord (setup : Setup) (k : Nat) (c : DmaCopy) : Prop where
  source : c.source = setup.wordAddress (ringWord (k % ringWords))
  destination : c.destination = pcmFifo
  word : c.word = (ringWord (k % ringWords)).read c.buffers

theorem EngineAt.isWord (stands : EngineAt setup n e) (more : 0 < e.left)
    (buffers : Nat → RaspdifBuffer) (elsewhere : BitVec 32 → BitVec 32) :
    DmaCopy.IsWord setup n
      ⟨e.source, e.destination, setup.image buffers elsewhere e.source, buffers⟩ := by
  rcases stands.place with ⟨i, offset, here, place, -⟩
  have source : e.source = setup.wordAddress (ringWord (n % ringWords)) := by
    rw [here.source, here.lap place more]
  refine ⟨source, here.destination, ?_⟩
  change setup.image buffers elsewhere e.source = _
  rw [source]
  exact image_wordAddress buffers elsewhere (Nat.mod_lt _ (by decide))

theorem EngineAt.advance (stands : EngineAt setup n e) (more : 0 < e.left) :
    EngineAt setup (n + 1) e.advance := by
  rcases stands.place with ⟨i, offset, here, place, -⟩
  refine ⟨i, offset + 1, here.advance more, ?_, fun _ => Nat.zero_lt_succ n⟩
  rw [Nat.add_mod, place, ← Nat.add_mod, Nat.add_assoc]

/-- From the end of a block the engine goes on to the next. -/
theorem EngineAt.load (stands : EngineAt setup n e) (done : e.left = 0)
    (buffers : Nat → RaspdifBuffer) (elsewhere : BitVec 32 → BitVec 32) :
    ∃ i < raspdifBufferCount, e.next = setup.controlBlock i ∧
      EngineAt setup n (Engine.load (setup.image buffers elsewhere) e.next) := by
  rcases stands.place with ⟨i, offset, here, place, -⟩
  have next : (i + 1) % raspdifBufferCount < raspdifBufferCount := Nat.mod_lt _ (by decide)
  refine ⟨_, next, here.next, ?_⟩
  rw [here.next]
  refine ⟨_, 0, Engine.at_load buffers elsewhere next, ?_, fun zero => absurd zero (by decide)⟩
  rw [place, here.left_eq_zero.mp done]
  simp only [ringWords, bufferWords, raspdifBufferCount, raspdifBufferSize]
  omega

end

/-! ## Runs -/

@[simp] theorem copies_append (first second : List DmaAccess) :
    copies (first ++ second) = copies first ++ copies second :=
  List.filterMap_append

@[simp] theorem loads_append (first second : List DmaAccess) :
    loads (first ++ second) = loads first ++ loads second :=
  List.filterMap_append

/-- The invariant of the walk. -/
structure Walks (setup : Setup) (trace : List DmaAccess) (e : Engine) : Prop where
  place : EngineAt setup (copies trace).length e
  copied : ∀ k (c : DmaCopy), (copies trace)[k]? = some c → c.IsWord setup k
  loaded : ∀ address ∈ loads trace, ∃ i < raspdifBufferCount, address = setup.controlBlock i

section

variable {setup : Setup} {trace events : List DmaAccess} {e e' : Engine}

/-- Whatever else there is at `place`, where the engine may copy a word it may copy the rest of
its block. -/
theorem Engine.At.exists_rest {σ ε : Type} {step : σ → List ε → σ → Prop} {past : List ε}
    {e : Engine} {i offset : Nat} (here : e.At setup i offset) (place : Engine → σ)
    (Inv : List ε → Engine → Prop) (inv : Inv past e)
    (copy : ∀ {past : List ε} {e : Engine}, Inv past e → 0 < e.left →
      ∃ events, step (place e) events (place e.advance) ∧ Inv (past ++ events) e.advance) :
    ∃ trace e', Run step (place e) trace (place e') ∧ e'.At setup i bufferWords ∧
      Inv (past ++ trace) e' := by
  have inBlock := here.inBlock
  generalize rest : bufferWords - offset = words
  induction words generalizing e offset past with
  | zero =>
      obtain rfl : offset = bufferWords := by omega
      exact ⟨[], e, .nil, here, by rwa [List.append_nil]⟩
  | succ words ih =>
      have more : 0 < e.left := by
        rw [here.left, rest]
        exact Nat.mul_pos (by decide) (Nat.zero_lt_succ _)
      have next := here.advance more
      obtain ⟨events, one, inv'⟩ := copy inv more
      obtain ⟨trace, e', run, there, last⟩ := ih next inv' next.inBlock (by omega)
      exact ⟨events ++ trace, e', (Run.single one).append run, there,
        by rwa [← List.append_assoc]⟩

/-- The engine by itself: so many words, and no load. -/
theorem Engine.At.exists_copied {e : Engine} {i offset : Nat} (here : e.At setup i offset)
    (buffers : Nat → RaspdifBuffer) (elsewhere : BitVec 32 → BitVec 32) :
    ∃ trace e', Run (Engine.Step setup) e trace e' ∧ e'.At setup i bufferWords ∧
      loads trace = [] ∧ (copies trace).length = bufferWords - offset := by
  have start : loads [] = [] ∧ e.At setup i (offset + (copies []).length) := ⟨rfl, here⟩
  obtain ⟨trace, e', run, full, quiet, there⟩ := here.exists_rest id
    (fun past e => loads past = [] ∧ e.At setup i (offset + (copies past).length)) start
    fun {past e} inv more => by
      have one : Engine.Step setup e _ _ := .copy buffers elsewhere more
      refine ⟨_, one, ?_, ?_⟩
      · rw [loads_append, inv.1]
        rfl
      · rw [copies_append, List.length_append]
        exact inv.2.advance more
  refine ⟨trace, e', run, full, quiet, ?_⟩
  have done := there.left_eq_zero.mp (full.left_eq_zero.mpr rfl)
  rw [List.nil_append] at done
  omega

theorem Walks.start (setup : Setup) (buffers : Nat → RaspdifBuffer)
    (elsewhere : BitVec 32 → BitVec 32) :
    Walks setup [] (Engine.load (setup.image buffers elsewhere) (setup.controlBlock 0)) where
  place := ⟨0, 0, Engine.at_load buffers elsewhere (by decide), rfl,
    fun zero => absurd zero (by decide)⟩
  copied := by
    intro k c found
    cases found
  loaded := List.forall_mem_nil _

theorem Walks.step (walks : Walks setup trace e) (one : Engine.Step setup e events e') :
    Walks setup (trace ++ events) e' := by
  cases one with
  | copy buffers elsewhere more =>
      refine ⟨?_, ?_, ?_⟩
      · rw [copies_append, List.length_append]
        exact walks.place.advance more
      · intro k c found
        rw [copies_append] at found
        rcases Nat.lt_trichotomy k (copies trace).length with before | here | after
        · rw [List.getElem?_append_left before] at found
          exact walks.copied k c found
        · subst here
          rw [List.getElem?_append_right (Nat.le_refl _), Nat.sub_self] at found
          obtain rfl := Option.some.inj found
          exact walks.place.isWord more buffers elsewhere
        · rw [List.getElem?_eq_none] at found
          · cases found
          · rw [List.length_append]
            exact after
      · rw [loads_append]
        exact List.forall_mem_append.mpr ⟨walks.loaded, List.forall_mem_nil _⟩
  | load buffers elsewhere done =>
      obtain ⟨i, inRing, next, stands⟩ := walks.place.load done buffers elsewhere
      refine ⟨?_, ?_, ?_⟩
      · rw [copies_append, List.length_append]
        exact stands
      · intro k c found
        rw [copies_append] at found
        exact walks.copied k c ((congrArg (·[k]?) (List.append_nil _).symm).trans found)
      · rw [loads_append]
        exact List.forall_mem_append.mpr ⟨walks.loaded,
          List.forall_mem_singleton.mpr ⟨i, inRing, next⟩⟩

theorem Walks.of_run {buffers : Nat → RaspdifBuffer} {elsewhere : BitVec 32 → BitVec 32}
    (run : Run (Engine.Step setup)
      (Engine.load (setup.image buffers elsewhere) (setup.controlBlock 0)) trace e) :
    Walks setup trace e :=
  run.invariant (Walks setup) (.start setup buffers elsewhere) Walks.step

/-- The engine copies another word, after a load where its block has come to an end. -/
theorem Walks.exists_copy (walks : Walks setup trace e) (buffers : Nat → RaspdifBuffer)
    (elsewhere : BitVec 32 → BitVec 32) :
    ∃ more e', Run (Engine.Step setup) e more e' ∧ (copies more).length = 1 := by
  rcases Nat.eq_zero_or_pos e.left with done | rest
  · obtain ⟨i, inRing, next, -⟩ := walks.place.load done buffers elsewhere
    have loaded := @Engine.at_load setup i buffers elsewhere inRing
    rw [← next] at loaded
    have rest : 0 < (Engine.load (setup.image buffers elsewhere) e.next).left := by
      rw [loaded.left]
      decide
    exact ⟨_, _, (Run.single (.load buffers elsewhere done)).snoc (.copy buffers elsewhere rest),
      rfl⟩
  · exact ⟨_, _, .single (.copy buffers elsewhere rest), rfl⟩

/-- It never stops. -/
theorem Walks.exists_copies (walks : Walks setup trace e) (buffers : Nat → RaspdifBuffer)
    (elsewhere : BitVec 32 → BitVec 32) (k : Nat) :
    ∃ more e', Run (Engine.Step setup) e more e' ∧ (copies more).length = k := by
  induction k with
  | zero => exact ⟨[], e, .nil, rfl⟩
  | succ k ih =>
      obtain ⟨first, mid, run, count⟩ := ih
      have walked : Walks setup (trace ++ first) mid :=
        run.invariant_from (Walks setup) walks Walks.step
      obtain ⟨second, last, more, one⟩ := walked.exists_copy buffers elsewhere
      refine ⟨first ++ second, last, run.append more, ?_⟩
      rw [copies_append, List.length_append, count, one]

end

/-! ## The moves of the system -/

/-- The system sees the engine at the block it has loaded. -/
def System.Follows (setup : Setup) (s : System) (e : Engine) : Prop :=
  ∃ offset, e.At setup s.dma offset

/-- A copy is no step of the system, and a load is a move of its DMA. -/
theorem System.Follows.step {setup : Setup} {s : System} {e e' : Engine}
    {events : List DmaAccess} (follows : s.Follows setup e)
    (one : Engine.Step setup e events e') :
    loads events = [] ∧ s.Follows setup e' ∨
      loads events = [e.next] ∧ ∃ next,
        System.Step setup (fun _ _ => True) s [.dmaMove s.dma next (s.main.buffers s.dma)]
          ⟨s.main, next⟩ ∧ System.Follows setup ⟨s.main, next⟩ e' := by
  rcases follows with ⟨offset, here⟩
  cases one with
  | copy buffers elsewhere more => exact Or.inl ⟨rfl, offset + 1, here.advance more⟩
  | load buffers elsewhere done =>
      have next : (s.dma + 1) % raspdifBufferCount < raspdifBufferCount :=
        Nat.mod_lt _ (by decide)
      refine Or.inr ⟨rfl, (s.dma + 1) % raspdifBufferCount,
        .move s.dma _ here.inRing next rfl rfl trivial, 0, ?_⟩
      rw [here.next]
      exact Engine.at_load buffers elsewhere next

/-! ## The walk -/

/-- The whole word at `address` lies in buffer `i`. -/
def Setup.InBuffer (setup : Setup) (i : Nat) (address : BitVec 32) : Prop :=
  (setup.bufferAddress i).toNat ≤ address.toNat ∧
    address.toNat + 4 ≤ (setup.bufferAddress i).toNat + sizeofBuffer

section

variable {setup : Setup}

theorem Setup.toNat_add (fits : setup.bus.toNat + sizeofControl ≤ 2 ^ 32) {offset : Nat}
    (inside : offset < sizeofControl) :
    (setup.bus + BitVec.ofNat 32 offset).toNat = setup.bus.toNat + offset := by
  rw [BitVec.toNat_add, BitVec.toNat_ofNat, Nat.mod_eq_of_lt (a := offset) (by omega),
    Nat.mod_eq_of_lt (by omega)]

theorem Setup.inBuffer_ringWord (fits : setup.bus.toNat + sizeofControl ≤ 2 ^ 32) {k : Nat}
    (inRing : k < ringWords) :
    setup.InBuffer (ringWord k).buffer (setup.wordAddress (ringWord k)) := by
  have word : sizeofControlBlocks + 4 * k < sizeofControl := by
    simp only [sizeofControl, sizeofControlBlocks, sizeofBuffer, ringWords, bufferWords,
      raspdifBufferCount, raspdifBufferSize] at *
    omega
  have buffer : sizeofControlBlocks + sizeofBuffer * (ringWord k).buffer < sizeofControl := by
    change _ + _ * (k / bufferWords) < _
    simp only [sizeofControl, sizeofControlBlocks, sizeofBuffer, ringWords, bufferWords,
      raspdifBufferCount, raspdifBufferSize] at *
    omega
  rw [Setup.InBuffer, wordAddress_ringWord, Setup.bufferAddress, Setup.toNat_add fits word,
    Setup.toNat_add fits buffer]
  change _ + (_ + _ * (k / bufferWords)) ≤ _ ∧ _ ≤ _ + (_ + _ * (k / bufferWords)) + _
  simp only [sizeofControlBlocks, sizeofBuffer, bufferWords, raspdifBufferSize]
  omega

/-- A control block is aligned. -/
theorem Setup.controlBlock_aligned (aligned : setup.bus.toNat % 32 = 0)
    (fits : setup.bus.toNat + sizeofControl ≤ 2 ^ 32) {i : Nat} (inRing : i < raspdifBufferCount) :
    (setup.controlBlock i).toNat % 32 = 0 := by
  have small : 32 * i < sizeofControl := by
    simp only [sizeofControl, sizeofControlBlocks, sizeofBuffer, raspdifBufferCount,
      raspdifBufferSize] at *
    omega
  rw [Setup.controlBlock, Setup.toNat_add fits small]
  omega

end

/-- **The DMA reads the ring word for word**, whatever the program does to the buffers
meanwhile. -/
theorem dma_walks_ring {setup : Setup} (aligned : setup.bus.toNat % 32 = 0)
    (fits : setup.bus.toNat + sizeofControl ≤ 2 ^ 32) (buffers : Nat → RaspdifBuffer)
    (elsewhere : BitVec 32 → BitVec 32) {trace : List DmaAccess} {e : Engine}
    (run : Run (Engine.Step setup)
      (Engine.load (setup.image buffers elsewhere) (setup.controlBlock 0)) trace e) :
    (∀ k (c : DmaCopy), (copies trace)[k]? = some c → c.IsWord setup k ∧
      ∃ i < raspdifBufferCount, setup.InBuffer i c.source) ∧
    (∀ address ∈ setup.controlBlock 0 :: loads trace, address.toNat % 32 = 0 ∧
      ∃ i < raspdifBufferCount, address = setup.controlBlock i) ∧
    (∀ i < raspdifBufferCount,
      e.conblkAd = setup.controlBlock i ↔ i = e.reading (copies trace).length) ∧
    ∀ k, ∃ more e', Run (Engine.Step setup) e more e' ∧ (copies more).length = k := by
  have walks := Walks.of_run run
  obtain ⟨inRing, here⟩ := walks.place.conblkAd
  refine ⟨?_, ?_, ?_, walks.exists_copies buffers elsewhere⟩
  · intro k c found
    have word := walks.copied k c found
    have lap : k % ringWords < ringWords := Nat.mod_lt _ (by decide)
    refine ⟨word, (ringWord (k % ringWords)).buffer, Nat.div_lt_of_lt_mul lap, ?_⟩
    rw [word.source]
    exact Setup.inBuffer_ringWord fits lap
  · have blocks : ∀ address ∈ setup.controlBlock 0 :: loads trace,
        ∃ i < raspdifBufferCount, address = setup.controlBlock i :=
      List.forall_mem_cons.mpr ⟨⟨0, by decide, rfl⟩, walks.loaded⟩
    intro address loaded
    obtain ⟨i, block, rfl⟩ := blocks address loaded
    exact ⟨Setup.controlBlock_aligned aligned fits block, i, block, rfl⟩
  · intro i block
    rw [here, setup.controlBlock_inj inRing block]
    exact eq_comm

/-- A bus address where the firmware may put `raspdif_control_t`. -/
def Setup.atC4 : Setup := ⟨.s16le, false, 0xC4000000⟩

/-- The walk there over the end of a block: its first word, and after the load of the next
control block the first word of the second buffer. -/
theorem dma_walks_ring_first :
    ∃ c rest c' e, Run (Engine.Step .atC4)
      (Engine.load (Setup.atC4.image (fun _ => .zero) fun _ => 0) (Setup.atC4.controlBlock 0))
        ([.copy c] ++ rest ++ [.load (Setup.atC4.controlBlock 1), .copy c']) e ∧
      loads rest = [] ∧ (copies rest).length = bufferWords - 1 ∧
      c.source = 0xC4000060 ∧ c.destination = pcmFifo ∧ c.word = 0 ∧
      c'.source = 0xC4008060 ∧ c'.destination = pcmFifo ∧ c'.word = 0 ∧
      e.conblkAd = Setup.atC4.controlBlock 1 ∧ e.reading (bufferWords + 1) = 1 := by
  have here := @Engine.at_load .atC4 0 (fun _ => .zero) (fun _ => 0) (by decide)
  have there := @Engine.at_load .atC4 1 (fun _ => .zero) (fun _ => 0) (by decide)
  have more := Nat.lt_of_lt_of_eq (show 0 < 4 * (bufferWords - 0) by decide) here.left.symm
  have more' := Nat.lt_of_lt_of_eq (show 0 < 4 * (bufferWords - 0) by decide) there.left.symm
  obtain ⟨rest, last, walked, full, quiet, count⟩ :=
    (here.advance more).exists_copied (fun _ => .zero) fun _ => 0
  have load : Engine.Step .atC4 last _ _ :=
    .load (fun _ => .zero) (fun _ => 0) (full.left_eq_zero.mpr rfl)
  rw [full.next] at load
  have run := (Run.single (@Engine.Step.copy .atC4 _ (fun _ => .zero) (fun _ => 0) more)).append
    (walked.append ((Run.single load).snoc (.copy (fun _ => .zero) (fun _ => 0) more')))
  rw [← List.append_assoc] at run
  obtain ⟨walk, -, test, -⟩ := dma_walks_ring (by decide) (by decide) _ _ run
  rcases walk 0 _ rfl with ⟨first, -⟩
  have made (c : DmaCopy) : (copies ([.copy c] ++ rest)).length = bufferWords := by
    have one : (copies [.copy c]).length = 1 := rfl
    rw [copies_append, List.length_append, one, count]
    exact Nat.add_sub_cancel' (by decide)
  rcases walk bufferWords _ (by
    rw [copies_append, List.getElem?_append_right (made _).le, made, Nat.sub_self]
    rfl) with ⟨second, -⟩
  have reading := (test 1 (by decide)).mp there.conblkAd
  rw [copies_append, List.length_append, made] at reading
  exact ⟨_, rest, _, _, run, quiet, count, first.source.trans (by decide), first.destination,
    first.word, second.source.trans (by decide), second.destination, second.word,
    there.conblkAd, reading.symm⟩

end Raspdif
