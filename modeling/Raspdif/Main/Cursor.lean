import Raspdif.Lib.Trace
import Raspdif.Main.Program

/-!
# Where the program writes

`Cursor` is the invariant of every run of the program: after `n` calls of
`raspdif_buffer_samples` and `u` returns of `raspdif_fill_buffers` the encoder stands at
call `n` and the loop that runs writes to buffer `(n / 2048 + 2 * u) % 3`.  The term
`2 * u` is there because `raspdif_fill_buffers` fills four buffers with its own copy of
`buffer_index` while `main` resumes with its old one.
-/

namespace Raspdif

open Trace

/-! ## What a trace records -/

def Event.call? : Event → Option Call
  | .call c => some c
  | _ => none

def Event.read? : Event → Option (List UInt8)
  | .fread copied => some copied
  | _ => none

def Event.bytes : Event → List UInt8
  | .delivered bytes => bytes
  | _ => []

def Event.isFilled : Event → Bool
  | .filled => true
  | _ => false

/-- The calls of `raspdif_buffer_samples`, in order. -/
def calls (trace : List Event) : List Call := trace.filterMap Event.call?

/-- What each `fread` copied. -/
def reads (trace : List Event) : List (List UInt8) := trace.filterMap Event.read?

/-- The input bytes that arrived. -/
def delivered (trace : List Event) : List UInt8 := trace.flatMap Event.bytes

/-- How often `raspdif_fill_buffers` has returned. -/
def fills (trace : List Event) : Nat := trace.countP Event.isFilled

@[simp] theorem calls_append (first second : List Event) :
    calls (first ++ second) = calls first ++ calls second :=
  List.filterMap_append

@[simp] theorem reads_append (first second : List Event) :
    reads (first ++ second) = reads first ++ reads second :=
  List.filterMap_append

@[simp] theorem delivered_append (first second : List Event) :
    delivered (first ++ second) = delivered first ++ delivered second :=
  List.flatMap_append

@[simp] theorem fills_append (first second : List Event) :
    fills (first ++ second) = fills first + fills second :=
  List.countP_append

/-- An event is a call or does not count among the calls. -/
theorem Event.call_cases (e : Event) : (∃ c, e = .call c ∧ calls [e] = [c]) ∨ calls [e] = [] := by
  cases e with
  | call c => exact Or.inl ⟨c, rfl, rfl⟩
  | _ => exact Or.inr rfl

/-! ## One call -/

/-- The call has the slot, the block position and the frame of call number `n`. -/
structure Call.IsNumber (format : RaspdifFormat) (n : Nat) (c : Call) : Prop where
  slot : c.slot.val = n % raspdifBufferSize
  position : c.position = blockPosition n
  stored : c.stored = frameEntry (blockPosition n) format c.sampleA c.sampleB

section

variable (setup : Setup) {s : Main} {n : Nat}

theorem Main.bufferSamples_isNumber (reached : EncoderAt n s.statics s.block)
    (source : Source) (index : Nat) (sampleA sampleB : BitVec 32) :
    (s.bufferSamples setup source index sampleA sampleB).call.IsNumber setup.format n where
  slot := reached.slot
  position := reached.position
  stored := by
    change (raspdifBufferSamples _ _ _ _ _ _).buffer.sample _ = _
    rw [reached.stores, Function.update_self]
    rfl

theorem Main.bufferSamples_full (reached : EncoderAt n s.statics s.block)
    (source : Source) (index : Nat) (sampleA sampleB : BitVec 32) :
    (s.bufferSamples setup source index sampleA sampleB).full = true ↔
      (n + 1) % raspdifBufferSize = 0 := by
  have full : (s.bufferSamples setup source index sampleA sampleB).full =
      decide ((n + 1) % raspdifBufferSize = 0) :=
    reached.full (s.buffers index) setup.format sampleA sampleB
  rw [full, decide_eq_true_iff]

theorem Main.bufferInput_full (reached : EncoderAt n s.statics s.block) :
    (s.bufferInput setup).full = true ↔ (n + 1) % raspdifBufferSize = 0 :=
  Main.bufferSamples_full setup reached ..

theorem Main.bufferFill_full (reached : EncoderAt n s.statics s.block) (answers : Answers)
    (index : Nat) :
    (s.bufferFill setup answers index).full = true ↔ (n + 1) % raspdifBufferSize = 0 :=
  Main.bufferSamples_full setup reached ..

theorem Main.bufferSamples_encoder (reached : EncoderAt n s.statics s.block)
    (source : Source) (index : Nat) (sampleA sampleB : BitVec 32) :
    EncoderAt (n + 1) (s.bufferSamples setup source index sampleA sampleB).main.statics
      (s.bufferSamples setup source index sampleA sampleB).main.block :=
  reached.call (s.buffers index) setup.format sampleA sampleB

/-- A call writes the one slot it names, and there what it reports. -/
theorem Main.bufferSamples_sample (reached : EncoderAt n s.statics s.block)
    (source : Source) (index : Nat) (sampleA sampleB : BitVec 32) (j : Nat)
    (p : Fin raspdifBufferSize) :
    ((s.bufferSamples setup source index sampleA sampleB).main.buffers j).sample p =
      if j = index ∧ p = s.statics.slot then
        (s.bufferSamples setup source index sampleA sampleB).call.stored
      else (s.buffers j).sample p := by
  have stored := (Main.bufferSamples_isNumber setup reached source index sampleA
    sampleB).stored
  rw [stored]
  by_cases buffer : j = index
  · subst buffer
    simp only [Main.bufferSamples, Function.update_self, reached.stores, true_and,
      Function.update_apply]
  · simp only [Main.bufferSamples, Function.update_of_ne buffer, buffer, false_and, ite_false]

end

/-! ## The invariant -/

/-- The buffer index after `n` calls and `u` fills. -/
def ringIndex (n u : Nat) : Nat := (n / raspdifBufferSize + 2 * u) % raspdifBufferCount

theorem ringIndex_lt (n u : Nat) : ringIndex n u < raspdifBufferCount :=
  Nat.mod_lt _ (Nat.zero_lt_succ _)

/-- The call that fills a buffer moves on to the next one. -/
theorem ringIndex_succ_of_full {n : Nat} (full : (n + 1) % raspdifBufferSize = 0) (u : Nat) :
    ringIndex (n + 1) u = (ringIndex n u + 1) % raspdifBufferCount := by
  simp only [ringIndex, raspdifBufferSize, raspdifBufferCount] at *
  omega

theorem ringIndex_succ_of_not_full {n : Nat} (room : (n + 1) % raspdifBufferSize ≠ 0) (u : Nat) :
    ringIndex (n + 1) u = ringIndex n u := by
  simp only [ringIndex, raspdifBufferSize, raspdifBufferCount] at *
  omega

/-- A fill leaves `main` two buffers ahead of where the calls alone would put it. -/
theorem ringIndex_fill (n u : Nat) :
    ringIndex n (u + 1) = (ringIndex n u + 2) % raspdifBufferCount := by
  simp only [ringIndex, raspdifBufferSize, raspdifBufferCount]
  omega

theorem ringIndex_of_preload {n : Nat} (room : n / raspdifBufferSize < raspdifBufferCount) :
    ringIndex n 0 = n / raspdifBufferSize :=
  Nat.mod_eq_of_lt room

/-- The loop variables after `n` calls and `u` fills.  A read loop that was entered with
the end of the file reached makes no more calls. -/
def Pc.At (n u bufferIndex : Nat) (eof : Bool) : Pc → Prop
  | .preload =>
      n ≤ raspdifBufferCount * raspdifBufferSize ∧ bufferIndex = n / raspdifBufferSize ∧ u = 0
  | .readLoop => eof = true ∨ bufferIndex = ringIndex n u
  | .fillRemainder index => index = bufferIndex ∧ index = ringIndex n u
  | .fillAll index count =>
      n % raspdifBufferSize = 0 ∧ count ≤ raspdifBufferCount ∧ index = ringIndex n u ∧
        bufferIndex = (index + 2 + 2 * count) % raspdifBufferCount
  | .fillBuffer index count =>
      count < raspdifBufferCount ∧ index = ringIndex n u ∧
        bufferIndex = (index + 2 + 2 * count) % raspdifBufferCount
  | .poll => bufferIndex = ringIndex n u
  | .finished => True

/-! ## How the loop variables move -/

section

variable {n u i count : Nat} {eof full : Bool}

theorem Pc.At.preloadFrame (at_ : Pc.preload.At n u i eof)
    (fills : full = true ↔ (n + 1) % raspdifBufferSize = 0) (room : i < raspdifBufferCount)
    (eof' : Bool) : Pc.preload.At (n + 1) u (if full then i + 1 else i) eof' := by
  simp only [Pc.At, raspdifBufferSize, raspdifBufferCount] at *
  split
  next turn => rw [fills] at turn; omega
  next stay => rw [fills] at stay; omega

theorem Pc.At.readFrame (turn : i = ringIndex n u)
    (fills : full = true ↔ (n + 1) % raspdifBufferSize = 0) (eof : Bool) :
    Pc.readLoop.At (n + 1) u (if full then (i + 1) % raspdifBufferCount else i) eof := by
  right
  split
  next last => rw [ringIndex_succ_of_full (fills.mp last), turn]
  next room => rw [ringIndex_succ_of_not_full (mt fills.mpr room), turn]

theorem Pc.At.fillRemainder {bufferIndex : Nat}
    (at_ : (Pc.fillRemainder i).At n u bufferIndex eof)
    (fills : full = true ↔ (n + 1) % raspdifBufferSize = 0) :
    (if full then Pc.fillAll ((i + 1) % raspdifBufferCount) 0 else Pc.fillRemainder i).At
      (n + 1) u bufferIndex eof := by
  obtain ⟨same, turn⟩ := at_
  split
  next last =>
    have turned := ringIndex_succ_of_full (fills.mp last) u
    have bound := ringIndex_lt n u
    refine ⟨fills.mp last, Nat.zero_le _, by rw [turned, turn], ?_⟩
    simp only [raspdifBufferCount] at *
    omega
  next room => exact ⟨same, by rw [ringIndex_succ_of_not_full (mt fills.mpr room), turn]⟩

theorem Pc.At.fillBuffer {bufferIndex : Nat}
    (at_ : (Pc.fillBuffer i count).At n u bufferIndex eof)
    (fills : full = true ↔ (n + 1) % raspdifBufferSize = 0) :
    (if full then Pc.fillAll ((i + 1) % raspdifBufferCount) (count + 1)
      else Pc.fillBuffer i count).At (n + 1) u bufferIndex eof := by
  obtain ⟨more, turn, behind⟩ := at_
  split
  next last =>
    have turned := ringIndex_succ_of_full (fills.mp last) u
    refine ⟨fills.mp last, more, by rw [turned, turn], ?_⟩
    simp only [raspdifBufferCount] at *
    omega
  next room =>
    exact ⟨more, by rw [ringIndex_succ_of_not_full (mt fills.mpr room), turn], behind⟩

/-- `main` resumes with the index it had, two buffers ahead of the calls. -/
theorem Pc.At.fillReturn {bufferIndex : Nat} (at_ : (Pc.fillAll i count).At n u bufferIndex eof)
    (all : raspdifBufferCount ≤ count) : Pc.poll.At n (u + 1) bufferIndex eof := by
  obtain ⟨-, bound, turn, behind⟩ := at_
  change bufferIndex = ringIndex n (u + 1)
  rw [ringIndex_fill, ← turn, behind]
  simp only [raspdifBufferCount] at *
  omega

end

/-! ## Runs -/

/-- A call behind a trace has the number and the buffer that the trace leads to. -/
def Placed (format : RaspdifFormat) (before : List Event) (e : Event) : Prop :=
  ∀ c, e = .call c → c.IsNumber format (calls before).length ∧
    c.buffer = ringIndex (calls before).length (fills before)

structure Cursor (setup : Setup) (trace : List Event) (s : Main) : Prop where
  encoder : EncoderAt (calls trace).length s.statics s.block
  control : s.pc.At (calls trace).length (fills trace) s.bufferIndex s.file.eof
  placed : AtEach (fun before e _ => Placed setup.format before e) trace

theorem Cursor.start (setup : Setup) (buffers : Nat → RaspdifBuffer) :
    Cursor setup [] (Main.start buffers) :=
  ⟨EncoderAt.initial, ⟨Nat.zero_le _, rfl, rfl⟩, atEach_nil⟩

section

variable {setup : Setup} {answers : Answers} {s s' : Main} {trace events : List Event}

/-- What is said of calls only holds of events that are none. -/
theorem atEach_of_calls_nil {P : List Event → Event → List Event → Prop}
    (silent : calls events = [])
    (other : ∀ before e after, (∀ c, e ≠ .call c) → P before e after) : AtEach P events := by
  rw [atEach_iff]
  intro before e after split
  refine other before e after fun c call => ?_
  subst split call
  simp [calls, Event.call?] at silent

theorem placed_of_calls_nil {format : RaspdifFormat} {past : List Event}
    (silent : calls events = []) :
    AtEach (fun before e _ => Placed format (past ++ before) e) events :=
  atEach_of_calls_nil silent fun _ _ _ other c call => absurd call (other c)

/-- A step that makes no call. -/
theorem Cursor.quiet (cursor : Cursor setup trace s) (silent : calls events = [])
    (statics : s'.statics = s.statics) (block : s'.block = s.block)
    (control : s'.pc.At (calls trace).length (fills trace + fills events) s'.bufferIndex
      s'.file.eof) :
    Cursor setup (trace ++ events) s' where
  encoder := by
    rw [calls_append, silent, List.append_nil, statics, block]
    exact cursor.encoder
  control := by
    rw [calls_append, silent, List.append_nil, fills_append]
    exact control
  placed := atEach_append.mpr ⟨cursor.placed, placed_of_calls_nil silent⟩

/-- A step that ends in a call of `raspdif_buffer_samples` on the buffer whose turn it is. -/
theorem Cursor.store (cursor : Cursor setup trace s) {mid : Main} (quiet : List Event)
    {source : Source} {index : Nat} {sampleA sampleB : BitVec 32}
    (silent : calls quiet = []) (noFill : fills quiet = 0)
    (before : mid.statics = s.statics ∧ mid.block = s.block)
    (turn : index = ringIndex (calls trace).length (fills trace))
    (after : s'.statics = (mid.bufferSamples setup source index sampleA sampleB).main.statics ∧
      s'.block = (mid.bufferSamples setup source index sampleA sampleB).main.block)
    (control : s'.pc.At ((calls trace).length + 1) (fills trace) s'.bufferIndex s'.file.eof) :
    Cursor setup
      (trace ++ (quiet ++ [.call (mid.bufferSamples setup source index sampleA sampleB).call]))
      s' := by
  have reached : EncoderAt (calls trace).length mid.statics mid.block := by
    rw [before.1, before.2]
    exact cursor.encoder
  have count : (calls (trace ++
      (quiet ++ [.call (mid.bufferSamples setup source index sampleA sampleB).call]))).length =
        (calls trace).length + 1 := by
    rw [calls_append, calls_append, silent]
    simp [calls, Event.call?]
  have noFills : fills (trace ++
      (quiet ++ [.call (mid.bufferSamples setup source index sampleA sampleB).call])) =
        fills trace := by
    rw [fills_append, fills_append, noFill]
    simp [fills, Event.isFilled]
  refine ⟨?_, ?_, ?_⟩
  · rw [count, after.1, after.2]
    exact Main.bufferSamples_encoder setup reached ..
  · rw [count, noFills]
    exact control
  · refine atEach_append.mpr ⟨cursor.placed, atEach_append.mpr ⟨placed_of_calls_nil silent, ?_⟩⟩
    rw [atEach_cons, List.append_nil]
    refine ⟨?_, atEach_nil⟩
    intro c call
    obtain rfl := Event.call.inj call
    rw [calls_append, silent, List.append_nil, fills_append, noFill, Nat.add_zero]
    exact ⟨Main.bufferSamples_isNumber setup reached .., turn⟩

/-- A short read without more to come sets the end-of-file indicator. -/
theorem Main.eof_of_no_items (ready : s.file.Ready setup.format.frameSize)
    (none : (s.fread setup).items = 0) : (s.fread setup).file.eof = true := by
  have pos := setup.format.sampleSize_pos
  have short : s.file.pending.length < setup.format.frameSize := by
    by_contra enough
    have whole := (s.file.items_eq_two_iff setup.format).mpr
      (List.length_take_of_le (Nat.not_lt.mp enough))
    rw [Main.fread] at none
    omega
  rcases ready with enough | closed
  · omega
  · simp only [RaspdifFormat.frameSize] at short
    simp [Main.fread, File.fread, closed, short]

theorem Cursor.moves (cursor : Cursor setup trace s) (moves : s.Moves setup answers s' events) :
    Cursor setup (trace ++ events) s' := by
  have control := cursor.control
  have reached := cursor.encoder
  cases moves with
  | preloadFrame pc ready items room =>
      rw [pc] at control
      have input := Main.bufferInput_full setup (s := s.afterRead setup) reached
      refine cursor.store [_] rfl rfl ⟨rfl, rfl⟩ ?_ ⟨rfl, rfl⟩ ?_
      · rcases control with ⟨bound, index, none⟩
        rw [none, ringIndex_of_preload (index ▸ room)]
        exact index
      · change Pc.At _ _ (ite _ _ _) _ s.pc
        rw [pc]
        exact control.preloadFrame input room _
  | preloadDone pc ready done =>
      rw [pc] at control
      rcases control with ⟨bound, index, none⟩
      refine cursor.quiet rfl rfl rfl ?_
      rcases done with done | done
      · exact Or.inl (Main.eof_of_no_items ready done)
      · right
        change 0 = ringIndex _ (_ + 0)
        simp only [ringIndex, raspdifBufferSize, raspdifBufferCount] at *
        omega
  | finish pc eof => exact cursor.quiet rfl rfl rfl trivial
  | readWait pc noEof here => exact cursor.quiet rfl rfl rfl control
  | underrun pc away short noEof =>
      rw [pc] at control
      have before : s.file.eof = false := (Bool.or_eq_false_iff.mp noEof).1
      have turn := control.resolve_left (by simp [before])
      exact cursor.quiet rfl rfl rfl ⟨rfl, turn⟩
  | readFrame pc noEof away enough =>
      rw [pc] at control
      have turn := control.resolve_left (by simp [noEof])
      have input := Main.bufferInput_full setup (s := s.afterRead setup) reached
      refine cursor.store [_] rfl rfl ⟨rfl, rfl⟩ turn ⟨rfl, rfl⟩ ?_
      change Pc.At _ _ (ite _ _ _) _ s.pc
      rw [pc]
      exact .readFrame turn input _
  | fillRemainder index pc =>
      rw [pc] at control
      have fill := Main.bufferFill_full setup reached answers index
      exact cursor.store [] rfl rfl ⟨rfl, rfl⟩ control.2 ⟨rfl, rfl⟩ (control.fillRemainder fill)
  | fillWait index count pc more here => exact cursor.quiet rfl rfl rfl control
  | fillEnter index count pc more away =>
      rw [pc] at control
      rcases control with ⟨-, -, turn, behind⟩
      exact cursor.quiet rfl rfl rfl ⟨more, turn, behind⟩
  | fillReturn index count pc all =>
      rw [pc] at control
      exact cursor.quiet rfl rfl rfl (control.fillReturn all)
  | fillBuffer index count pc =>
      rw [pc] at control
      have fill := Main.bufferFill_full setup reached answers index
      exact cursor.store [] rfl rfl ⟨rfl, rfl⟩ control.2.1 ⟨rfl, rfl⟩ (control.fillBuffer fill)
  | poll pc =>
      rw [pc] at control
      exact cursor.quiet rfl rfl rfl (Or.inr control)

/-- The invariant is kept by every step of the program and of its input. -/
theorem Cursor.step (cursor : Cursor setup trace s) (one : Main.Step setup s events s') :
    Cursor setup (trace ++ events) s' := by
  cases one with
  | cpu answers ran => exact cursor.moves (Main.step_moves ran)
  | deliver bytes _ => exact cursor.quiet rfl rfl rfl cursor.control
  | close => exact cursor.quiet rfl rfl rfl cursor.control

end

/-- A step records at most an `fread` and one event more. -/
theorem Main.Step.events_cases {setup : Setup} {s s' : Main} {events : List Event}
    (one : Main.Step setup s events s') :
    events.length ≤ 1 ∨ ∃ copied e, events = [.fread copied, e] := by
  cases one with
  | cpu answers ran =>
      cases Main.step_moves ran with
      | preloadFrame | preloadDone | readFrame => exact Or.inr ⟨_, _, rfl⟩
      | finish | readWait | fillWait | fillEnter | poll => exact Or.inl (Nat.zero_le 1)
      | underrun | fillRemainder | fillReturn | fillBuffer => exact Or.inl (Nat.le_refl 1)
  | deliver | close => exact Or.inl (Nat.le_refl 1)

/-- A step that calls `raspdif_buffer_samples` does nothing after that. -/
theorem Main.Step.call_last {setup : Setup} {s s' : Main} {first second : List Event} {c : Call}
    (one : Main.Step setup s (first ++ .call c :: second) s') : second = [] := by
  rw [← List.length_eq_zero_iff]
  rcases one.events_cases with short | ⟨copied, e, two⟩
  · rw [List.length_append, List.length_cons] at short
    omega
  · have length := congrArg List.length two
    rw [List.length_append, List.length_cons] at length
    cases first with
    | nil => cases two
    | cons f first =>
        simp only [List.length_cons, List.length_nil] at length
        omega

/-- The invariant holds after every run of the program. -/
theorem Cursor.of_run {setup : Setup} {buffers : Nat → RaspdifBuffer} {trace : List Event}
    {s : Main} (run : Run (Main.Step setup) (Main.start buffers) trace s) :
    Cursor setup trace s :=
  run.invariant (Cursor setup) (Cursor.start setup buffers) Cursor.step

end Raspdif
