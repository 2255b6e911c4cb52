import Raspdif.Lib.Ring
import Raspdif.Main.Preload

/-!
# What the buffers hold

`lastWrite` is the last call that wrote to a slot of the ring, as the trace has it;
`Shown` says that the slot holds the frame of that call.  Together they turn a statement
about the calls of a run into one about the memory that the DMA reads.  `Kept` is about
the other slots: they hold what they held at the start.
-/

namespace Raspdif

open Trace Ring

/-- The last call that wrote to `buffers[place.1].sample[place.2]`. -/
def lastWrite (trace : List Event) (place : Nat × Fin raspdifBufferSize) : Option Call :=
  ((calls trace).filter fun c => c.buffer = place.1 ∧ c.slot = place.2).getLast?

section

variable {setup : Setup} {answers : Answers} {s s' : Main} {trace events : List Event}

theorem lastWrite_append_quiet (silent : calls events = []) (place : Nat × Fin raspdifBufferSize) :
    lastWrite (trace ++ events) place = lastWrite trace place := by
  rw [lastWrite, calls_append, silent, List.append_nil]
  rfl

theorem lastWrite_append_call {c : Call} (one : calls events = [c])
    (place : Nat × Fin raspdifBufferSize) :
    lastWrite (trace ++ events) place =
      if c.buffer = place.1 ∧ c.slot = place.2 then some c else lastWrite trace place := by
  rw [lastWrite, calls_append, one, List.filter_append]
  split
  next here => rw [List.filter_cons_of_pos (by simpa using here), List.filter_nil,
      List.getLast?_append, List.getLast?_singleton, Option.some_or]
  next away => rw [List.filter_cons_of_neg (by simpa using away), List.filter_nil,
      List.append_nil]; rfl

theorem lastWrite_call (trace : List Event) (c : Call) :
    lastWrite (trace ++ [.call c]) =
      Function.update (lastWrite trace) (c.buffer, c.slot) (some c) := by
  funext place
  rw [lastWrite_append_call (c := c) rfl, Function.update_apply]
  refine if_congr ?_ rfl rfl
  rw [Prod.ext_iff, eq_comm, eq_comm (a := c.slot)]

/-! ## What a step does to the memory -/

/-- The call stores its frame in its slot and leaves every other slot as it was. -/
def Call.Stores (c : Call) (s s' : Main) : Prop :=
  ∀ j (p : Fin raspdifBufferSize), (s'.buffers j).sample p =
    if c.buffer = j ∧ c.slot = p then c.stored else (s.buffers j).sample p

theorem Main.bufferSamples_stores {n : Nat} {mid : Main}
    (reached : EncoderAt n mid.statics mid.block) (before : mid.buffers = s.buffers)
    {source : Source} {index : Nat} {sampleA sampleB : BitVec 32}
    (after : s'.buffers = (mid.bufferSamples setup source index sampleA sampleB).main.buffers) :
    (mid.bufferSamples setup source index sampleA sampleB).call.Stores s s' := by
  intro j p
  rw [after, Main.bufferSamples_sample setup reached, before]
  refine if_congr ?_ rfl rfl
  rw [eq_comm, eq_comm (a := p)]
  rfl

/-- A step makes no call and leaves the buffers alone, or it makes one. -/
theorem Cursor.memory_cases (cursor : Cursor setup trace s) (one : Main.Step setup s events s') :
    (calls events = [] ∧ s'.buffers = s.buffers) ∨
      ∃ c, calls events = [c] ∧ c.Stores s s' := by
  have reached := cursor.encoder
  cases one with
  | cpu answers ran =>
      cases Main.step_moves ran with
      | preloadFrame | readFrame | fillRemainder | fillBuffer =>
          exact Or.inr ⟨_, rfl, Main.bufferSamples_stores reached rfl rfl⟩
      | preloadDone | finish | readWait | underrun | fillWait | fillEnter | fillReturn | poll =>
          exact Or.inl ⟨rfl, rfl⟩
  | deliver | close => exact Or.inl ⟨rfl, rfl⟩

/-! ## What the slots hold -/

/-- Every slot that was written holds the frame of its last call. -/
def Shown (trace : List Event) (s : Main) : Prop :=
  ∀ place c, lastWrite trace place = some c → (s.buffers place.1).sample place.2 = c.stored

theorem Shown.nil (s : Main) : Shown [] s := by
  intro place c written
  cases written

theorem Shown.quiet (shown : Shown trace s) (silent : calls events = [])
    (buffers : s'.buffers = s.buffers) : Shown (trace ++ events) s' := by
  intro place c written
  rw [lastWrite_append_quiet silent] at written
  rw [buffers]
  exact shown place c written

theorem Shown.step (shown : Shown trace s) (cursor : Cursor setup trace s)
    (one : Main.Step setup s events s') : Shown (trace ++ events) s' := by
  rcases cursor.memory_cases one with ⟨silent, same⟩ | ⟨c, call, stores⟩
  · exact shown.quiet silent same
  · intro place c' written
    rw [lastWrite_append_call call] at written
    rw [stores]
    split at written
    next here =>
      obtain rfl := Option.some.inj written
      exact if_pos here
    next away =>
      rw [if_neg away]
      exact shown place c' written

theorem Shown.of_run {buffers : Nat → RaspdifBuffer}
    (run : Run (Main.Step setup) (Main.start buffers) trace s) : Shown trace s := by
  have both := run.invariant (fun past m => Cursor setup past m ∧ Shown past m)
    ⟨Cursor.start setup buffers, Shown.nil _⟩
    fun both one => ⟨both.1.step one, both.2.step both.1 one⟩
  exact both.2

/-- A slot that no call has written holds what it held at the start. -/
def Kept (buffers : Nat → RaspdifBuffer) (trace : List Event) (s : Main) : Prop :=
  ∀ j (p : Fin raspdifBufferSize), (∀ c ∈ calls trace, c.buffer = j → c.slot ≠ p) →
    (s.buffers j).sample p = (buffers j).sample p

theorem Kept.step {buffers : Nat → RaspdifBuffer} (kept : Kept buffers trace s)
    (cursor : Cursor setup trace s) (one : Main.Step setup s events s') :
    Kept buffers (trace ++ events) s' := by
  intro j p unwritten
  rw [calls_append, List.forall_mem_append] at unwritten
  rcases unwritten with ⟨before, last⟩
  rcases cursor.memory_cases one with ⟨-, same⟩ | ⟨c, call, stores⟩
  · rw [same]
    exact kept j p before
  · rw [call, List.forall_mem_singleton] at last
    rw [stores, if_neg fun here => last here.1 here.2]
    exact kept j p before

theorem Kept.of_run {buffers : Nat → RaspdifBuffer}
    (run : Run (Main.Step setup) (Main.start buffers) trace s) : Kept buffers trace s := by
  have both := run.invariant (fun past m => Cursor setup past m ∧ Kept buffers past m)
    ⟨Cursor.start setup buffers, fun _ _ _ => rfl⟩
    fun both one => ⟨both.1.step one, both.2.step both.1 one⟩
  exact both.2

/-- The call that a slot was last written by is one of the run. -/
theorem exists_split_of_getElem?_calls {n : Nat} {c : Call} (at_ : (calls trace)[n]? = some c) :
    ∃ before after, trace = before ++ .call c :: after ∧ (calls before).length = n := by
  induction trace generalizing n with
  | nil => cases at_
  | cons e trace ih =>
      have cons (rest : List Event) : calls (e :: rest) = calls [e] ++ calls rest :=
        calls_append [e] rest
      rw [cons] at at_
      rcases Nat.lt_or_ge n (calls [e]).length with here | later
      · rw [List.getElem?_append_left here] at at_
        rcases e.call_cases with ⟨own, rfl, one⟩ | silent
        · obtain rfl : n = 0 := Nat.lt_one_iff.mp here
          obtain rfl : own = c := Option.some.inj at_
          exact ⟨[], trace, rfl, rfl⟩
        · rw [silent] at here
          exact absurd here (Nat.not_lt_zero n)
      · rw [List.getElem?_append_right later] at at_
        rcases ih at_ with ⟨before, after, rfl, count⟩
        refine ⟨e :: before, after, rfl, ?_⟩
        rw [cons, List.length_append, count]
        omega

/-- Call number `n` of a run is in place. -/
theorem Cursor.placed_getElem? (cursor : Cursor setup trace s) {n : Nat} {c : Call}
    (at_ : (calls trace)[n]? = some c) :
    ∃ before after, trace = before ++ .call c :: after ∧ c.IsNumber setup.format n ∧
      c.buffer = ringIndex n (fills before) := by
  obtain ⟨before, after, rfl, count⟩ := exists_split_of_getElem?_calls at_
  have placed := atEach_iff.mp cursor.placed before _ after rfl c rfl
  rw [count] at placed
  exact ⟨before, after, rfl, placed⟩

end

/-! ## The ring as one memory -/

/-- The slot of frame number `n` when nothing but whole rounds of the ring lie between. -/
def ringPlace (n : Nat) : Nat × Fin raspdifBufferSize :=
  (n / raspdifBufferSize % raspdifBufferCount,
    ⟨n % raspdifBufferSize, Nat.mod_lt _ (Nat.zero_lt_succ _)⟩)

theorem ringPlace_eq_iff {m n : Nat} : ringPlace m = ringPlace n ↔ m % ringSize = n % ringSize := by
  simp only [ringPlace, Prod.mk.injEq, Fin.mk.injEq, ringSize, raspdifBufferCount,
    raspdifBufferSize]
  omega

/-- The place of slot `p` of buffer `j`. -/
theorem ringPlace_slot {j : Nat} (inRing : j < raspdifBufferCount) (p : Fin raspdifBufferSize) :
    ringPlace (raspdifBufferSize * j + p) = (j, p) := by
  have slot := p.isLt
  refine Prod.ext ?_ (Fin.ext ?_)
  · simp only [ringPlace, raspdifBufferCount, raspdifBufferSize] at *
    omega
  · exact (Nat.mul_add_mod _ _ _).trans (Nat.mod_eq_of_lt slot)

theorem spread_ringPlace : Spread ringPlace ringSize := by
  intro m n older recent same
  rw [ringPlace_eq_iff] at same
  simp only [ringSize, raspdifBufferCount, raspdifBufferSize] at *
  omega

/-- Places a round of the ring apart are the same, and three fills are two rounds. -/
theorem ringPlace_fills_congr {u v : Nat} (same : u % 3 = v % 3) (n : Nat) :
    ringPlace (n + 2 * raspdifBufferSize * u) = ringPlace (n + 2 * raspdifBufferSize * v) := by
  rw [ringPlace_eq_iff]
  simp only [ringSize, raspdifBufferCount, raspdifBufferSize]
  omega

/-- A call writes two buffers beyond the place of its number for each fill before it. -/
theorem Placed.place {format : RaspdifFormat} {before : List Event} {c : Call}
    (placed : Placed format before (.call c)) :
    (c.buffer, c.slot) =
      Raspdif.ringPlace ((calls before).length + 2 * raspdifBufferSize * fills before) := by
  obtain ⟨number, buffer⟩ := placed c rfl
  refine Prod.ext ?_ (Fin.ext ?_)
  · rw [buffer]
    simp only [ringIndex, Raspdif.ringPlace, raspdifBufferCount, raspdifBufferSize]
    omega
  · rw [number.slot]
    simp only [Raspdif.ringPlace, raspdifBufferSize]
    omega

/-- After a multiple of three fills a call writes to the place of its number. -/
theorem Placed.ringPlace {format : RaspdifFormat} {before : List Event} {c : Call}
    (placed : Placed format before (.call c)) (three : 3 ∣ fills before) :
    (c.buffer, c.slot) = Raspdif.ringPlace (calls before).length := by
  rw [placed.place, ringPlace_fills_congr (v := 0) (Nat.mod_eq_zero_of_dvd three)]
  rfl

/-- Whenever a frame was stored the number of fills was a multiple of three. -/
def InPhase (trace : List Event) : Prop :=
  ∀ before c after, trace = before ++ .call c :: after → 3 ∣ fills before

theorem inPhase_of_fills_eq_zero {trace : List Event} (noFill : fills trace = 0) :
    InPhase trace := by
  intro before c after split
  rw [split, fills_append] at noFill
  exact ⟨0, Nat.eq_zero_of_add_eq_zero_right noFill⟩

/-- The places of the calls behind `past` when `u` fills are behind them. -/
def placeFrom (past : List Event) (u i : Nat) : Nat × Fin raspdifBufferSize :=
  ringPlace ((calls past).length + i + 2 * raspdifBufferSize * u)

theorem spread_placeFrom (past : List Event) (u : Nat) : Spread (placeFrom past u) ringSize :=
  fun m n older recent => spread_ringPlace _ _ (by omega) (by omega)

/-- While the number of fills stays the same modulo three, the memory holds the last 6144
calls of a stretch of the run. -/
theorem shows_lastWrite_from {format : RaspdifFormat} (past : List Event) (u : Nat)
    {trace : List Event}
    (placed : AtEach (fun before e _ => Placed format before e) (past ++ trace))
    (steady : ∀ before c after, trace = before ++ .call c :: after →
      fills (past ++ before) % 3 = u % 3) :
    Shows (placeFrom past u) ringSize ((calls trace).map some) (lastWrite (past ++ trace)) := by
  induction trace using List.reverseRecOn with
  | nil => exact Shows.nil _
  | append_singleton trace e ih =>
      rw [← List.append_assoc] at placed ⊢
      have earlier := ih (atEach_append.mp placed).1 fun first c rest split =>
        steady first c (rest ++ [e]) (by rw [split]; simp)
      rcases e.call_cases with ⟨c, rfl, one⟩ | silent
      · have here := atEach_iff.mp placed (past ++ trace) (.call c) [] rfl
        have place : (c.buffer, c.slot) = placeFrom past u ((calls trace).map some).length := by
          rw [here.place, ringPlace_fills_congr (steady trace c [] rfl), calls_append,
            List.length_append, List.length_map]
          rfl
        rw [calls_append, one, List.map_append, lastWrite_call, place]
        exact earlier.write (some c) (spread_placeFrom past u)
      · rw [calls_append, silent, List.append_nil, funext (lastWrite_append_quiet silent)]
        exact earlier

/-- The memory of an in-phase run holds its last 6144 calls. -/
theorem shows_lastWrite {setup : Setup} {trace : List Event}
    (placed : AtEach (fun before e _ => Placed setup.format before e) trace)
    (inPhase : InPhase trace) :
    Shows ringPlace ringSize ((calls trace).map some) (lastWrite trace) := by
  have whole := shows_lastWrite_from [] 0 placed fun before c after split =>
    Nat.mod_eq_zero_of_dvd (inPhase before c after split)
  have place : placeFrom [] 0 = ringPlace := by
    funext i
    exact congrArg ringPlace (Nat.zero_add i)
  rwa [place] at whole

/-- `raspdif.control.virtual->buffers`, slot by slot. -/
def Main.memory (s : Main) (place : Nat × Fin raspdifBufferSize) : RaspdifEntry :=
  (s.buffers place.1).sample place.2

/-- In an in-phase run the buffers hold the last 6144 frames stored. -/
theorem Shown.shows {setup : Setup} {trace : List Event} {s : Main} (shown : Shown trace s)
    (cursor : Cursor setup trace s) (inPhase : InPhase trace) :
    Shows ringPlace ringSize ((calls trace).map Call.stored) s.memory := by
  intro n x present recent
  rw [List.getElem?_map] at present
  rw [List.length_map] at recent
  obtain ⟨c, at_, rfl⟩ := Option.map_eq_some_iff.mp present
  refine shown _ c (shows_lastWrite cursor.placed inPhase n _ ?_ ?_)
  · rw [List.getElem?_map, at_]
    rfl
  · rwa [List.length_map]

end Raspdif
