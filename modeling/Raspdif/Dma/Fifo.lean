import Raspdif.Dma.Live
import Raspdif.Dma.Overwrite

/-!
# First in, first out

However the program and the DMA are interleaved, with underruns, laps and stalls, the
frames of the input leave in the order in which they were stored and none is lost: a frame
is on the line before the DMA has copied one more ring of words
(`stored_frames_transmitted`).

The reason is that the visits that play them come in the order of the stores.  `airtime`
is the number that a frame will have among the frames played; from one input frame to the
next it only grows (`Pc.Guard.earlier`).
-/

namespace Raspdif

open Trace

/-! ## Frames in a row of words -/

def RaspdifEntry.words (entry : RaspdifEntry) : List (BitVec 32) :=
  [entry.a.msb, entry.a.lsb, entry.b.msb, entry.b.lsb]

/-- The complete frames in a row of words. -/
def framesOf : List (BitVec 32) → List RaspdifEntry
  | aMsb :: aLsb :: bMsb :: bLsb :: rest => ⟨⟨aMsb, aLsb⟩, ⟨bMsb, bLsb⟩⟩ :: framesOf rest
  | _ => []

theorem getElem?_framesOf {words : List (BitVec 32)} {n : Nat} {entry : RaspdifEntry}
    (present : ∀ k w, entry.words[k]? = some w → words[4 * n + k]? = some w) :
    (framesOf words)[n]? = some entry := by
  have a := present 0 _ rfl
  have b := present 1 _ rfl
  have c := present 2 _ rfl
  have d := present 3 _ rfl
  clear present
  induction n generalizing words with
  | zero =>
      rcases words with _ | ⟨w0, _ | ⟨w1, _ | ⟨w2, _ | ⟨w3, rest⟩⟩⟩⟩
      · cases a
      · cases b
      · cases c
      · cases d
      · obtain rfl := Option.some.inj a
        obtain rfl := Option.some.inj b
        obtain rfl := Option.some.inj c
        obtain rfl := Option.some.inj d
        rfl
  | succ n ih =>
      rw [Nat.mul_succ] at a b c d
      rcases words with _ | ⟨w0, _ | ⟨w1, _ | ⟨w2, _ | ⟨w3, rest⟩⟩⟩⟩
      · cases a
      · cases a
      · cases a
      · cases a
      · rw [framesOf, List.getElem?_cons_succ]
        exact ih a b c d

/-- The slot of a buffer that its word number `offset` belongs to. -/
def slotOf (offset : Nat) : Fin raspdifBufferSize :=
  (ringWord offset).slot

/-- A word that the DMA copies is one of the four of its slot. -/
theorem words_slotOf {i offset : Nat} (inBlock : offset < bufferWords)
    (buffers : Nat → RaspdifBuffer) :
    ((buffers i).sample (slotOf offset)).words[offset % 4]? =
      some ((ringWord (bufferWords * i + offset)).read buffers) := by
  have slot : (ringWord (bufferWords * i + offset)).slot = slotOf offset := by
    apply Fin.ext
    change (bufferWords * i + offset) / 4 % raspdifBufferSize = offset / 4 % raspdifBufferSize
    simp only [bufferWords, raspdifBufferSize]
    omega
  have word : (bufferWords * i + offset) % 4 = offset % 4 := by
    simp only [bufferWords, raspdifBufferSize]
    omega
  have four : offset % 4 < 4 := Nat.mod_lt _ (Nat.zero_lt_succ _)
  rw [RingWord.read, ringWord_buffer inBlock, slot, ringWord, word]
  generalize offset % 4 = k at four
  obtain rfl | rfl | rfl | rfl : k = 0 ∨ k = 1 ∨ k = 2 ∨ k = 3 := by omega
  all_goals rfl

/-- Items found at ever later places of a list form a sublist. -/
theorem sublist_of_placed {α : Type} {items : List α} {placed : List (Nat × α)}
    (increasing : placed.Pairwise fun x y => x.1 < y.1)
    (there : ∀ x ∈ placed, items[x.1]? = some x.2) :
    (placed.map Prod.snd).Sublist items := by
  have inside : ∀ x ∈ placed, x.1 < items.length := fun x member =>
    (List.getElem?_eq_some_iff.mp (there x member)).1
  have found : (placed.pmap (fun x bound => (⟨x.1, bound⟩ : Fin items.length)) inside).map
      (fun i => items[i]) = placed.map Prod.snd := by
    rw [List.map_pmap, ← List.pmap_eq_map (p := fun _ => True) (H := fun _ _ => trivial)]
    refine List.pmap_congr_left placed fun x member _ _ => ?_
    exact (List.getElem?_eq_some_iff.mp (there x member)).2
  rw [← found]
  apply List.map_getElem_sublist
  rw [List.pairwise_pmap]
  exact increasing.imp fun less _ _ => less

/-- Places before some limit come first. -/
theorem exists_split_of_increasing {α : Type} {placed : List (Nat × α)}
    (increasing : placed.Pairwise fun x y => x.1 < y.1) (limit : Nat) :
    ∃ early late, placed = early ++ late ∧ (∀ x ∈ early, x.1 < limit) ∧
      ∀ x ∈ late, limit ≤ x.1 := by
  induction placed with
  | nil => exact ⟨[], [], rfl, List.forall_mem_nil _, List.forall_mem_nil _⟩
  | cons x placed ih =>
      rw [List.pairwise_cons] at increasing
      obtain ⟨below, rest⟩ := increasing
      by_cases before : x.1 < limit
      · obtain ⟨early, late, rfl, first, second⟩ := ih rest
        exact ⟨x :: early, late, rfl, List.forall_mem_cons.mpr ⟨before, first⟩, second⟩
      · refine ⟨[], x :: placed, rfl, List.forall_mem_nil _, List.forall_mem_cons.mpr ⟨?_, ?_⟩⟩
        · exact Nat.not_lt.mp before
        · intro y member
          exact (Nat.not_lt.mp before).trans (below y member).le

/-- No two items have the same place. -/
theorem length_le_of_increasing {α : Type} {placed : List (Nat × α)} {low high : Nat}
    (increasing : placed.Pairwise fun x y => x.1 < y.1)
    (between : ∀ x ∈ placed, low ≤ x.1 ∧ x.1 < high) : placed.length ≤ high - low := by
  induction placed generalizing low with
  | nil => exact Nat.zero_le _
  | cons x placed ih =>
      rw [List.pairwise_cons] at increasing
      obtain ⟨below, rest⟩ := increasing
      obtain ⟨here, more⟩ := List.forall_mem_cons.mp between
      have fewer : placed.length ≤ high - (x.1 + 1) :=
        ih rest fun y member => ⟨below y member, (more y member).2⟩
      rw [List.length_cons]
      omega

/-! ## When a frame is played -/

/-- The frames stored from the input, those of the preload included. -/
def inputs (trace : List Event) : List Call := (calls trace).filter fun c => c.source = .input

@[simp] theorem inputs_append (first second : List Event) :
    inputs (first ++ second) = inputs first ++ inputs second := by
  rw [inputs, calls_append, List.filter_append]
  rfl

/-- The number, among the frames played, of a frame stored when `begun` visits have begun:
its place in the next visit of its buffer. -/
def airtime (begun : Nat) (c : Call) : Nat :=
  raspdifBufferSize * (nextVisit begun c.buffer - 1) + c.slot.val

/-- The input frames of a trace that follows `begun` visits, with their air times. -/
def aired (begun : Nat) : List Event → List (Nat × Call)
  | [] => []
  | e :: rest =>
      ((inputs [e]).map fun c => (airtime begun c, c)) ++ aired (begun + entered [e]) rest

theorem aired_append (begun : Nat) (first second : List Event) :
    aired begun (first ++ second) = aired begun first ++ aired (begun + entered first) second := by
  induction first generalizing begun with
  | nil => rfl
  | cons e first ih =>
      have count : entered (e :: first) = entered [e] + entered first := entered_append [e] first
      rw [List.cons_append, aired, ih, aired, count, List.append_assoc, Nat.add_assoc]

theorem map_snd_aired (begun : Nat) (trace : List Event) :
    (aired begun trace).map Prod.snd = inputs trace := by
  induction trace generalizing begun with
  | nil => rfl
  | cons e trace ih =>
      have split : inputs (e :: trace) = inputs [e] ++ inputs trace := inputs_append [e] trace
      rw [aired, List.map_append, List.map_map, ih, split]
      exact congrArg (· ++ inputs trace) (List.map_id _)

theorem aired_of_inputs_nil {begun : Nat} {trace : List Event} (none : inputs trace = []) :
    aired begun trace = [] := by
  rw [← List.map_eq_nil_iff (f := Prod.snd), map_snd_aired, none]

theorem mem_aired {begun : Nat} {trace : List Event} {x : Nat × Call}
    (member : x ∈ aired begun trace) :
    ∃ before after, trace = before ++ .call x.2 :: after ∧ x.2.source = .input ∧
      x.1 = airtime (begun + entered before) x.2 := by
  induction trace generalizing begun with
  | nil => cases member
  | cons e trace ih =>
      rw [aired, List.mem_append] at member
      rcases member with here | later
      · obtain ⟨c, stored, rfl⟩ := List.mem_map.mp here
        rw [inputs, List.mem_filter, decide_eq_true_iff] at stored
        rcases e.call_cases with ⟨d, rfl, one⟩ | silent
        · rw [one, List.mem_singleton] at stored
          obtain ⟨rfl, input⟩ := stored
          exact ⟨[], trace, rfl, input, rfl⟩
        · rw [silent] at stored
          cases stored.1
      · obtain ⟨before, after, rfl, input, time⟩ := ih later
        have count : entered (e :: before) = entered [e] + entered before :=
          entered_append [e] before
        refine ⟨e :: before, after, rfl, input, ?_⟩
        rw [time, count, Nat.add_assoc]

/-! ## The order of the visits -/

section

variable {setup : Setup} {allow : Main → Nat → Prop} {s : Main} {sys sys' : System}
  {trace events : List Event} {i j q now visit slot : Nat}

/-- A buffer that the DMA is not at comes next or after the next. -/
theorem nextVisit_le (inRing : i < raspdifBufferCount)
    (away : (now + 2) % raspdifBufferCount ≠ i) : nextVisit now i ≤ now + 2 := by
  simp only [nextVisit, raspdifBufferCount] at *
  omega

/-- A frame that the read loop may not yet overwrite is played before the one it stores
now: in an earlier visit, or in an earlier slot of the same one. -/
theorem Pc.Guard.earlier (guard : Pc.readLoop.Guard i slot now j q visit)
    (inRing : i < raspdifBufferCount) (away : (now + 2) % raspdifBufferCount ≠ i)
    (plays : (visit + 2) % raspdifBufferCount = j) :
    visit < nextVisit now i ∨ visit = nextVisit now i ∧ q < slot := by
  simp only [Pc.Guard, nextVisit, raspdifBufferCount] at *
  omega

theorem airtime_lt {begun begun' : Nat} {c d : Call}
    (earlier : nextVisit begun c.buffer < nextVisit begun' d.buffer ∨
      nextVisit begun c.buffer = nextVisit begun' d.buffer ∧ c.slot.val < d.slot.val) :
    airtime begun c < airtime begun' d := by
  have slot := c.slot.isLt
  have begins := lt_nextVisit begun c.buffer
  rw [airtime, airtime]
  simp only [raspdifBufferSize] at *
  omega

/-- Of the calls of one kind, the first. -/
theorem exists_first_call {P : Call → Prop} {trace : List Event} (some_ : ∃ d ∈ calls trace, P d) :
    ∃ before d after, trace = before ++ .call d :: after ∧ P d ∧ ∀ e ∈ calls before, ¬ P e := by
  induction trace with
  | nil =>
      rcases some_ with ⟨d, member, -⟩
      cases member
  | cons e trace ih =>
      have cons (rest : List Event) : calls (e :: rest) = calls [e] ++ calls rest :=
        calls_append [e] rest
      by_cases here : ∃ d ∈ calls [e], P d
      · rcases here with ⟨d, member, kind⟩
        rcases e.call_cases with ⟨c, rfl, one⟩ | silent
        · rw [one, List.mem_singleton] at member
          subst member
          exact ⟨[], d, trace, rfl, kind, List.forall_mem_nil _⟩
        · rw [silent] at member
          cases member
      · rcases some_ with ⟨d, member, kind⟩
        rw [cons, List.mem_append] at member
        have later := member.resolve_left fun first => here ⟨d, first, kind⟩
        obtain ⟨before, c, after, rfl, kind', none⟩ := ih ⟨d, later, kind⟩
        refine ⟨e :: before, c, after, rfl, kind', ?_⟩
        rw [cons, List.forall_mem_append]
        exact ⟨fun f first other => here ⟨f, first, other⟩, none⟩

/-- An input frame was played, or no later call has written to its slot. -/
theorem Protected.played_or_kept (protected_ : Protected trace s) {before after : List Event}
    {c : Call} (split : trace = before ++ .call c :: after) (input : c.source = .input) :
    nextVisit (entered before) c.buffer + 1 ≤ entered trace ∨
      ∀ d ∈ calls after, ¬ SameSlot d c := by
  by_cases overwritten : ∃ d ∈ calls after, SameSlot d c
  · left
    obtain ⟨middle, d, rest, rfl, same, none⟩ := exists_first_call overwritten
    rw [← List.cons_append, ← List.append_assoc] at split
    have first := atEach_iff.mp protected_.played _ (.call d) rest split d rfl
    have played := atEach_iff.mp first before (.call c) middle rfl c rfl input none same
    refine played.trans ?_
    rw [split, entered_append (before ++ .call c :: middle)]
    exact Nat.le_add_right _ _
  · right
    intro d member same
    exact overwritten ⟨d, member, same⟩

/-! ## The invariant -/

/-- The input frames have growing air times, at most two visits ahead. -/
structure Aired (trace : List Event) : Prop where
  ordered : (aired 0 trace).Pairwise fun x y => x.1 < y.1
  soon : ∀ x ∈ aired 0 trace, x.1 < raspdifBufferSize * (entered trace + 2)

theorem Aired.quiet (invariant : Aired trace) (silent : inputs events = []) :
    Aired (trace ++ events) := by
  have same : aired 0 (trace ++ events) = aired 0 trace := by
    rw [aired_append, aired_of_inputs_nil silent, List.append_nil]
  refine ⟨?_, ?_⟩
  · rw [same]
    exact invariant.ordered
  · intro x member
    rw [same] at member
    refine (invariant.soon x member).trans_le (Nat.mul_le_mul_left _ ?_)
    rw [entered_append]
    omega

/-- The read loop stores a frame in buffer `i` while the DMA is elsewhere. -/
theorem Aired.store (invariant : Aired trace) (protected_ : Protected trace s)
    (circling : Circling setup trace sys) (quiet : List Event) {c : Call}
    (silent : inputs quiet = []) (noVisit : entered quiet = 0) (input : c.source = .input)
    (pc : s.pc = .readLoop) (here : c.buffer = s.bufferIndex)
    (slot : c.slot.val = (calls trace).length % raspdifBufferSize)
    (inRing : s.bufferIndex < raspdifBufferCount)
    (away : (entered trace + 2) % raspdifBufferCount ≠ s.bufferIndex) :
    Aired (trace ++ (quiet ++ [.call c])) := by
  have own : aired (entered trace) (quiet ++ [.call c]) = [(airtime (entered trace) c, c)] := by
    rw [aired_append, aired_of_inputs_nil silent, noVisit]
    have one : inputs [.call c] = [c] := List.filter_cons_of_pos (decide_eq_true input)
    rw [aired, one]
    rfl
  have next := nextVisit_le inRing away
  refine ⟨?_, ?_⟩
  · rw [aired_append, Nat.zero_add, own, List.pairwise_append]
    refine ⟨invariant.ordered, List.pairwise_singleton _ _, ?_⟩
    intro x member y last
    obtain rfl := List.mem_singleton.mp last
    obtain ⟨before, after, split, stored, time⟩ := mem_aired member
    rw [time, Nat.zero_add]
    apply airtime_lt
    rw [here]
    rcases protected_.played_or_kept split stored with played | kept
    · exact Or.inl ((Nat.lt_of_succ_le played).trans (lt_nextVisit _ _))
    · have guard := atEach_iff.mp protected_.guarded _ _ _ split x.2 rfl stored kept
      obtain ⟨-, buffer⟩ := atEach_iff.mp circling.cursor.placed _ _ _ split x.2 rfl
      have bound := ringIndex_lt (calls before).length (fills before)
      rw [← buffer] at bound
      unfold Main.Guard at guard
      rw [pc] at guard
      rw [slot]
      exact guard.earlier inRing away (nextVisit_mod _ bound)
  · intro x member
    rw [aired_append, Nat.zero_add, own, List.mem_append] at member
    rw [entered_append]
    rcases member with before | last
    · refine (invariant.soon x before).trans_le (Nat.mul_le_mul_left _ ?_)
      omega
    · obtain rfl := List.mem_singleton.mp last
      have slot := c.slot.isLt
      rw [airtime, here]
      simp only [raspdifBufferSize] at *
      omega

theorem Aired.step (invariant : Aired trace) (protected_ : Protected trace sys.main)
    (circling : Circling setup trace sys) (one : System.Step setup allow sys events sys') :
    Aired (trace ++ events) := by
  cases one.acts circling.inRing with
  | deliver | close | dma => exact invariant.quiet rfl
  | program answers here step moves =>
      cases moves with
      | preloadFrame pc | preloadDone pc => exact absurd pc circling.loop
      | finish | readWait | underrun | fillRemainder | fillWait | fillEnter | fillReturn
      | fillBuffer | poll => exact invariant.quiet rfl
      | readFrame pc noEof away enough =>
          have control := circling.cursor.control
          have bound := ringIndex_lt (calls trace).length (fills trace)
          rw [pc] at control
          rw [← control.resolve_left (by simp [noEof])] at bound
          exact invariant.store protected_ circling [_] rfl rfl rfl pc rfl
            circling.cursor.encoder.slot bound (circling.dma_ne here away)

/-- Before the first visit the air times count the calls. -/
theorem aired_of_entered_eq_zero {begun : Nat} {trace : List Event} (noVisit : entered trace = 0) :
    aired begun trace = (inputs trace).map fun c => (airtime begun c, c) := by
  induction trace with
  | nil => rfl
  | cons e trace ih =>
      have count : entered [e] + entered trace = 0 := (entered_append [e] trace).symm.trans noVisit
      have split : inputs (e :: trace) = inputs [e] ++ inputs trace := inputs_append [e] trace
      rw [aired, (Nat.add_eq_zero_iff.mp count).1, Nat.add_zero,
        ih (Nat.add_eq_zero_iff.mp count).2, split, List.map_append]

theorem Preloaded.airtime_call {start : Main} (preloaded : Preloaded setup trace start) {n : Nat}
    {c : Call} (at_ : (calls trace)[n]? = some c) : airtime 0 c = n := by
  have noFill := preloaded.fills_eq
  have bound := (List.getElem?_eq_some_iff.mp at_).1
  rw [preloaded.complete] at bound
  obtain ⟨before, after, rfl, number, buffer⟩ := preloaded.cursor.placed_getElem? at_
  rw [fills_append] at noFill
  rw [Nat.eq_zero_of_add_eq_zero_right noFill] at buffer
  rw [airtime, number.slot, buffer]
  simp only [ringIndex, nextVisit, ringSize, raspdifBufferCount, raspdifBufferSize] at *
  omega

/-- Up to the end of the preload every frame comes from the input. -/
theorem Preloaded.inputs_eq {start : Main} (preloaded : Preloaded setup trace start) :
    inputs trace = calls trace := by
  rcases preloaded.visits with ⟨past, copied, rfl, -, input⟩
  exact List.filter_eq_self.mpr fun c member => decide_eq_true (input c member)

theorem Aired.of_preloaded {start : Main} (preloaded : Preloaded setup trace start) :
    Aired trace := by
  have complete := preloaded.complete
  have number {n : Nat} {c : Call} (at_ : (calls trace)[n]? = some c) := preloaded.airtime_call at_
  have whole := preloaded.inputs_eq
  rcases preloaded.visits with ⟨past, copied, rfl, noVisit, -⟩
  have made : calls (past ++ [.fread copied, .dmaEnable]) = calls past := by
    rw [calls_append]
    exact List.append_nil _
  rw [made] at complete number
  have all : inputs past = calls past := by
    rw [inputs_append, made] at whole
    exact (List.append_nil _).symm.trans whole
  have last : aired (0 + entered past) [.fread copied, .dmaEnable] = [] := aired_of_inputs_nil rfl
  have listed : aired 0 (past ++ [.fread copied, .dmaEnable]) =
      (calls past).map fun c => (airtime 0 c, c) := by
    rw [aired_append, aired_of_entered_eq_zero noVisit, all, last, List.append_nil]
  have one : entered (past ++ [.fread copied, .dmaEnable]) = 1 := by
    rw [entered_append, noVisit]
    rfl
  refine ⟨?_, ?_⟩
  · rw [listed, List.pairwise_map, List.pairwise_iff_getElem]
    intro i j first second less
    rwa [number (List.getElem?_eq_getElem first), number (List.getElem?_eq_getElem second)]
  · intro x member
    rw [listed, List.mem_map] at member
    obtain ⟨c, stored, rfl⟩ := member
    obtain ⟨n, bound, rfl⟩ := List.getElem_of_mem stored
    rw [number (List.getElem?_eq_getElem bound), one]
    rw [complete] at bound
    simp only [ringSize, raspdifBufferCount, raspdifBufferSize] at *
    omega

/-! ## What the DMA copies -/

/-- The words copied so far are, at the air time of every input frame, those of the frame. -/
def Heard (past : List Event) (transmitted : List (BitVec 32)) : Prop :=
  ∀ x ∈ aired 0 past, ∀ k w, x.2.stored.words[k]? = some w → 4 * x.1 + k < transmitted.length →
    transmitted[4 * x.1 + k]? = some w

/-- A frame that is stored later is not on the line yet. -/
theorem Heard.later {past : List Event} {words : List (BitVec 32)} (heard : Heard past words)
    (behind : words.length ≤ bufferWords * entered past) (events : List Event) :
    Heard (past ++ events) words := by
  intro x member k w word bound
  rw [aired_append, Nat.zero_add, List.mem_append] at member
  rcases member with before | own
  · exact heard x before k w word bound
  · obtain ⟨first, rest, -, -, time⟩ := mem_aired own
    have next := lt_nextVisit (entered past + entered first) x.2.buffer
    rw [time, airtime] at bound
    simp only [bufferWords, raspdifBufferSize] at *
    omega

/-- The slot of an input frame holds it until the visit that plays it is over. -/
theorem Shown.sample_of_kept (shown : Shown trace s) {before after : List Event} {c : Call}
    (split : trace = before ++ .call c :: after) (kept : ∀ d ∈ calls after, ¬ SameSlot d c) :
    (s.buffers c.buffer).sample c.slot = c.stored := by
  refine shown (c.buffer, c.slot) c ?_
  have one : calls (.call c :: after) = c :: calls after := rfl
  have none : (calls after).filter (fun d => d.buffer = c.buffer ∧ d.slot = c.slot) = [] :=
    List.filter_eq_nil_iff.mpr fun d member same => kept d member (by simpa [SameSlot] using same)
  rw [lastWrite, split, calls_append, one, List.filter_append, List.filter_cons_of_pos (by simp),
    none, List.getLast?_append, List.getLast?_singleton, Option.some_or]

/-- The DMA copies the next word of its buffer. -/
theorem Heard.copy {past : List Event} {words : List (BitVec 32)} (heard : Heard past words)
    (protected_ : Protected past sys.main) (circling : Circling setup past sys)
    (shown : Shown past sys.main) {offset : Nat} (inBlock : offset < bufferWords)
    (count : words.length = bufferWords * (entered past - 1) + offset) :
    Heard past (words ++ [(ringWord (bufferWords * sys.dma + offset)).read sys.main.buffers]) := by
  intro x member k w word bound
  rw [List.length_append, List.length_singleton] at bound
  rcases Nat.lt_or_ge (4 * x.1 + k) words.length with before | last
  · rw [List.getElem?_append_left before]
    exact heard x member k w word before
  · -- The word belongs to the visit that is going on, so the frame is still in its slot.
    have begun := circling.begun
    have dma := circling.dma
    have four := (List.getElem?_eq_some_iff.mp word).1
    obtain ⟨first, rest, split, input, time⟩ := mem_aired member
    obtain ⟨-, buffer⟩ := atEach_iff.mp circling.cursor.placed _ _ _ split x.2 rfl
    have inRing := ringIndex_lt (calls first).length (fills first)
    rw [← buffer] at inRing
    have plays := nextVisit_mod (entered first) inRing
    have slot := x.2.slot.isLt
    rw [Nat.zero_add, airtime] at time
    have here : 4 * x.1 + k = words.length := by omega
    rw [count, time] at here
    change k < 4 at four
    have visit : nextVisit (entered first) x.2.buffer = entered past := by
      have later := lt_nextVisit (entered first) x.2.buffer
      simp only [bufferWords, raspdifBufferSize] at *
      omega
    have kept := (protected_.played_or_kept split input).resolve_left (by omega)
    rw [visit] at plays here
    have place : x.2.slot = slotOf offset := by
      apply Fin.ext
      change x.2.slot.val = offset / 4 % raspdifBufferSize
      simp only [bufferWords, raspdifBufferSize] at *
      omega
    have within_ : k = offset % 4 := by
      simp only [bufferWords, raspdifBufferSize] at *
      omega
    have held := shown.sample_of_kept split kept
    rw [← dma] at plays
    rw [← plays, place] at held
    rw [← held, within_, words_slotOf inBlock] at word
    rw [List.getElem?_append_right last, show 4 * x.1 + k - words.length = 0 by omega,
      List.getElem?_cons_zero, word]

/-! ## Runs of the system -/

/-- What holds in every run behind a complete preload. -/
structure Rolling (setup : Setup) (trace : List Event) (sys : System) : Prop where
  circling : Circling setup trace sys
  protected_ : Protected trace sys.main
  shown : Shown trace sys.main
  aired : Aired trace
  /-- Each move of the DMA ends a visit and begins the next. -/
  visits : entered trace = (visited trace).length + 1

theorem System.Acts.entered_eq (acts : sys.Acts setup allow sys' events)
    (loop : sys.main.pc ≠ .preload) : entered events = (visited events).length := by
  cases acts with
  | program answers here step moves =>
      rw [(moves.later loop).1, moves.stays_eq.2]
      rfl
  | deliver | close | dma => rfl

theorem System.Acts.shown (acts : sys.Acts setup allow sys' events)
    (circling : Circling setup trace sys) (shown : Shown trace sys.main) :
    Shown (trace ++ events) sys'.main := by
  cases acts with
  | program _ _ step | deliver _ step | close step => exact shown.step circling.cursor step
  | dma => exact shown.quiet rfl rfl

theorem Rolling.step (rolling : Rolling setup trace sys)
    (one : System.Step setup allow sys events sys') : Rolling setup (trace ++ events) sys' where
  circling := rolling.circling.step one
  protected_ := rolling.protected_.step rolling.circling one
  shown := (one.acts rolling.circling.inRing).shown rolling.circling rolling.shown
  aired := rolling.aired.step rolling.protected_ rolling.circling one
  visits := by
    have more := (one.acts rolling.circling.inRing).entered_eq rolling.circling.loop
    rw [entered_append, rolling.visits, more, visited_append, List.length_append]
    omega

theorem Rolling.of_preloaded {start : Main} (preloaded : Preloaded setup trace start) :
    Rolling setup trace ⟨start, 0⟩ where
  circling := .of_preloaded preloaded
  protected_ := .of_preloaded preloaded
  shown := by
    rcases preloaded.run with ⟨buffers, history⟩
    exact .of_run history
  aired := .of_preloaded preloaded
  visits := by
    rw [preloaded.visited_eq]
    rcases preloaded.visits with ⟨past, copied, rfl, noVisit, -⟩
    rw [entered_append, noVisit]
    rfl

theorem Rolling.of_run {past : List Event} {start : Main} (preloaded : Preloaded setup past start)
    (run : Run (System.Step setup allow) ⟨start, 0⟩ trace sys) :
    Rolling setup (past ++ trace) sys :=
  run.invariant_from (Rolling setup) (.of_preloaded preloaded) Rolling.step

end

/-! ## Runs beside the engine -/

/-- A run of the program beside the engine, with the run of the system that it mirrors. -/
structure Live.Plays (setup : Setup) (past : List Event) (lived : List LiveEvent) (live : Live)
    (trace : List Event) (sys : System) : Prop where
  mirrors : live.Mirrors setup lived trace sys
  rolling : Rolling setup (past ++ trace) sys
  heard : Heard (past ++ trace) (transmitted lived)

section

variable {setup : Setup} {allow : Main → Nat → Prop} {past trace : List Event} {start : Main}
  {sys : System} {live live' : Live} {lived more : List LiveEvent}

theorem Live.Plays.of_preloaded (preloaded : Preloaded setup past start)
    (elsewhere : BitVec 32 → BitVec 32) :
    Live.Plays setup past [] (Live.start setup elsewhere start) [] ⟨start, 0⟩ where
  mirrors := .start setup elsewhere start
  rolling := by
    rw [List.append_nil]
    exact .of_preloaded preloaded
  heard := by
    intro x member k w word bound
    exact absurd bound (Nat.not_lt_zero _)

theorem Live.Plays.step_cases (noVisit : visited past = [])
    (plays : live.Plays setup past lived trace sys)
    (one : Live.Step setup allow live more live') :
    (transmitted more = [] ∧ ∃ events sys', System.Step setup allow sys events sys' ∧
        live'.Plays setup past (lived ++ more) (trace ++ events) sys') ∨
      ∃ offset < bufferWords,
        (transmitted lived).length = bufferWords * (visited trace).length + offset ∧
        transmitted more = [(ringWord (bufferWords * sys.dma + offset)).read sys.main.buffers] ∧
        live'.Plays setup past (lived ++ more) trace sys := by
  have visits := plays.rolling.visits
  rw [visited_append, noVisit, List.nil_append] at visits
  rcases plays.mirrors.place with ⟨offset, here, -, count⟩
  rcases plays.mirrors.step_cases one with
    ⟨silent, events, sys', step, mirrors⟩ | ⟨offset, inBlock, count, copied, mirrors⟩
  · refine Or.inl ⟨silent, events, sys', step, mirrors, ?_, ?_⟩
    · rw [← List.append_assoc]
      exact plays.rolling.step step
    · rw [transmitted_append, silent, List.append_nil, ← List.append_assoc]
      refine plays.heard.later ?_ events
      rw [count, visits, Nat.mul_succ]
      exact Nat.add_le_add_left here.inBlock _
  · refine Or.inr ⟨offset, inBlock, count, copied, mirrors, plays.rolling, ?_⟩
    rw [transmitted_append, copied]
    refine plays.heard.copy plays.rolling.protected_ plays.rolling.circling plays.rolling.shown
      inBlock ?_
    rw [count, visits, Nat.add_sub_cancel]

theorem Live.Plays.of_run (noVisit : visited past = [])
    (plays : live.Plays setup past lived trace sys)
    (run : Run (Live.Step setup allow) live more live') :
    ∃ events sys', live'.Plays setup past (lived ++ more) (trace ++ events) sys' := by
  induction run with
  | nil => exact ⟨[], sys, by rwa [List.append_nil, List.append_nil]⟩
  | snoc _ one ih =>
      rcases ih with ⟨events, mid, plays'⟩
      rw [← List.append_assoc]
      rcases plays'.step_cases noVisit one with ⟨-, events', sys', -, last⟩ | ⟨_, _, _, _, last⟩
      · exact ⟨events ++ events', sys', by rwa [← List.append_assoc]⟩
      · exact ⟨events, mid, last⟩

theorem Live.Plays.inputs_eq (plays : live.Plays setup past lived trace sys) :
    inputs (past ++ trace) = inputs (past ++ programEvents lived) := by
  rw [inputs, inputs, calls_append, calls_append, ← plays.mirrors.events, calls_stays]

/-- Input frames whose words have all been copied are on the line. -/
theorem Live.Plays.sublist_of_heard (plays : live.Plays setup past lived trace sys)
    {early late : List (Nat × Call)} (split : aired 0 (past ++ trace) = early ++ late)
    (copied : ∀ x ∈ early, 4 * x.1 + 4 ≤ (transmitted lived).length) :
    (early.map fun x => x.2.stored).Sublist (framesOf (transmitted lived)) := by
  have whole := plays.rolling.aired.ordered
  have heard := plays.heard
  unfold Heard at heard
  rw [split] at whole heard
  have stored : (early.map fun x => (x.1, x.2.stored)).map Prod.snd =
      early.map fun x => x.2.stored := List.map_map ..
  rw [← stored]
  apply sublist_of_placed
  · rw [List.pairwise_map]
    exact (List.pairwise_append.mp whole).1
  · intro y member
    obtain ⟨x, stored, rfl⟩ := List.mem_map.mp member
    refine getElem?_framesOf fun k w word => ?_
    refine heard x (List.mem_append_left _ stored) k w word ?_
    have four : k < 4 := (List.getElem?_eq_some_iff.mp word).1
    have all := copied x stored
    omega

/-- The frames stored so long ago that all their words have been copied. -/
theorem Live.Plays.sublist (plays : live.Plays setup past lived trace sys)
    {first later : List Event} (split : past ++ trace = first ++ later) (earlier : Aired first)
    (lap : bufferWords * (entered first + 2) ≤ (transmitted lived).length) :
    ((inputs first).map Call.stored).Sublist (framesOf (transmitted lived)) := by
  have listed : aired 0 (past ++ trace) = aired 0 first ++ aired (0 + entered first) later := by
    rw [split, aired_append]
  rw [← map_snd_aired 0 first, List.map_map]
  refine plays.sublist_of_heard listed fun x stored => ?_
  have soon := earlier.soon x stored
  simp only [bufferWords, raspdifBufferSize] at *
  omega

/-- All input frames but a ring of them have been copied. -/
theorem Live.Plays.exists_sent (plays : live.Plays setup past lived trace sys)
    (begun : bufferWords * (entered (past ++ trace) - 1) ≤ (transmitted lived).length) :
    ∃ sent unsent, inputs (past ++ trace) = sent ++ unsent ∧ unsent.length ≤ ringSize ∧
      (sent.map Call.stored).Sublist (framesOf (transmitted lived)) := by
  have invariant := plays.rolling.aired
  obtain ⟨early, late, split, before, after⟩ :=
    exists_split_of_increasing invariant.ordered ((transmitted lived).length / 4)
  have all := map_snd_aired 0 (past ++ trace)
  rw [split, List.map_append] at all
  refine ⟨early.map Prod.snd, late.map Prod.snd, all.symm, ?_, ?_⟩
  · have ordered := invariant.ordered
    rw [split] at ordered
    have few := length_le_of_increasing (List.pairwise_append.mp ordered).2.1
      fun x member => ⟨after x member, invariant.soon x (by
        rw [split]
        exact List.mem_append_right _ member)⟩
    rw [List.length_map]
    simp only [ringSize, bufferWords, raspdifBufferCount, raspdifBufferSize] at *
    omega
  · rw [List.map_map]
    refine plays.sublist_of_heard split fun x member => ?_
    have bound := before x member
    omega

end

/-- **First in, first out.**  Whatever the program, its input and the DMA do after a
complete preload, once the DMA has copied one more ring of words the frames that were
stored from the input are among the frames that it has copied to the FIFO, all of them and
in the order in which they were stored. -/
theorem stored_frames_transmitted {setup : Setup} {allow : Main → Nat → Prop} {past : List Event}
    {start : Main} (preloaded : Preloaded setup past start) {elsewhere : BitVec 32 → BitVec 32}
    {first second : List LiveEvent} {mid last : Live}
    (run : Run (Live.Step setup allow) (Live.start setup elsewhere start) first mid)
    (later : Run (Live.Step setup allow) mid second last)
    (lap : ringWords ≤ (transmitted second).length) :
    ((inputs (past ++ programEvents first)).map Call.stored).Sublist
      (framesOf (transmitted (first ++ second))) := by
  have noVisit := preloaded.visited_eq
  obtain ⟨trace, sys, plays⟩ := (Live.Plays.of_preloaded preloaded elsewhere).of_run noVisit run
  obtain ⟨rest, sys', plays'⟩ := plays.of_run noVisit later
  rw [List.nil_append, List.nil_append] at plays plays'
  rw [← plays.inputs_eq]
  refine plays'.sublist (List.append_assoc past trace rest).symm plays.rolling.aired ?_
  rcases plays.mirrors.place with ⟨offset, -, -, count⟩
  have visits := plays.rolling.visits
  rw [visited_append, noVisit, List.nil_append] at visits
  rw [transmitted_append, List.length_append, count, visits]
  simp only [ringWords, bufferWords, raspdifBufferCount, raspdifBufferSize] at *
  omega

/-- When the DMA has gone round the ring without any step of the program, what the preload
stored is on the line. -/
theorem preload_transmitted : ∃ past start second last, Preloaded .s16le past start ∧
    Run (Live.Step .s16le fun _ _ => True) (Live.start .s16le (fun _ => 0) start) second last ∧
      ((inputs past).map Call.stored).Sublist (framesOf (transmitted second)) := by
  rcases exists_preloaded_silence with ⟨past, start, preloaded, -⟩
  have move (i : Nat) (inRing : i < 3) : System.Step .s16le (fun _ _ => True) ⟨start, i⟩ _ _ :=
    .move i ((i + 1) % 3) inRing (Nat.mod_lt _ (Nat.zero_lt_succ _)) rfl rfl trivial
  have round := ((Run.single (move 0 (by decide))).snoc (move 1 (by decide))).snoc
    (move 2 (by decide))
  obtain ⟨second, last, run, mirrors⟩ := System.exists_live (fun _ => 0) round
  have lap : ringWords ≤ (transmitted second).length := by
    rcases mirrors.place with ⟨offset, -, -, count⟩
    rw [count, ringWords, Nat.mul_comm]
    exact Nat.le_add_right _ _
  have sent := stored_frames_transmitted preloaded .nil run lap
  rw [programEvents, List.filterMap_nil, List.append_nil, List.nil_append] at sent
  exact ⟨past, start, second, last, preloaded, run, sent⟩

/-- **What can be lost.**  At any moment after a complete preload all frames stored from the
input, but for the last 6144 at most, have been copied to the FIFO, in the order in which they
were stored. -/
theorem unsent_at_most_ring {setup : Setup} {allow : Main → Nat → Prop} {past : List Event}
    {start : Main} (preloaded : Preloaded setup past start) {elsewhere : BitVec 32 → BitVec 32}
    {lived : List LiveEvent} {last : Live}
    (run : Run (Live.Step setup allow) (Live.start setup elsewhere start) lived last) :
    ∃ sent unsent, inputs (past ++ programEvents lived) = sent ++ unsent ∧
      unsent.length ≤ ringSize ∧
      (sent.map Call.stored).Sublist (framesOf (transmitted lived)) := by
  have noVisit := preloaded.visited_eq
  obtain ⟨trace, sys, plays⟩ := (Live.Plays.of_preloaded preloaded elsewhere).of_run noVisit run
  rw [List.nil_append, List.nil_append] at plays
  rw [← plays.inputs_eq]
  refine plays.exists_sent ?_
  rcases plays.mirrors.place with ⟨offset, -, -, count⟩
  have visits := plays.rolling.visits
  rw [visited_append, noVisit, List.nil_append] at visits
  rw [count, visits, Nat.add_sub_cancel]
  exact Nat.le_add_right _ _

/-- Behind the preload the DMA has read buffer 0 and one frame has been stored since: of the
6145 frames at least one has been copied. -/
theorem unsent_behind_preload : ∃ past start lived last sent unsent,
    Preloaded .s16le past start ∧
    Run (Live.Step .s16le fun _ _ => True) (Live.start .s16le (fun _ => 0) start) lived last ∧
      bufferWords ≤ (transmitted lived).length ∧
      inputs (past ++ programEvents lived) = sent ++ unsent ∧
      (sent ++ unsent).length = ringSize + 1 ∧ unsent.length ≤ ringSize ∧ sent ≠ [] ∧
      (sent.map Call.stored).Sublist (framesOf (transmitted lived)) := by
  rcases exists_preloaded_silence with ⟨past, start, preloaded, file⟩
  rcases preloaded.loop with ⟨pc, index⟩
  obtain ⟨c, main, run, input, -⟩ :=
    System.exists_move_readFrame (fun _ _ => True) pc index file trivial
  obtain ⟨lived, last, run', mirrors⟩ := System.exists_live (fun _ => 0) run
  obtain ⟨sent, unsent, split, bound, copied⟩ := unsent_at_most_ring preloaded run'
  have stored : inputs (programEvents lived) = [c] := by
    rw [← mirrors.events]
    exact List.filter_cons_of_pos (decide_eq_true input)
  have count : (sent ++ unsent).length = ringSize + 1 := by
    rw [← split, inputs_append, stored, preloaded.inputs_eq, List.length_append, preloaded.complete]
    rfl
  refine ⟨past, start, lived, last, sent, unsent, preloaded, run', ?_, split, count, bound, ?_,
    copied⟩
  · rcases mirrors.place with ⟨offset, -, -, copies⟩
    rw [copies]
    exact (Nat.mul_one _).ge.trans (Nat.le_add_right _ _)
  · rintro rfl
    rw [List.nil_append] at count
    omega

end Raspdif
