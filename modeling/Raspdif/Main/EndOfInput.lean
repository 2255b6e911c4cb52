import Raspdif.Main.Preload

/-!
# The end of the input

Both loops get the end of a finite input wrong.  The preload loop takes one item of two
for a frame, and the read loop leaves the indicator `feof` to turn true behind a read and
then encodes what is in `samples`, whatever that read has copied.

Neither happens on an input that the preload reads to its end without a second half of a
frame missing: one that is shorter than the ring and ends on a frame or inside its left
sample, or one that fills the ring and has no complete frame more.  `end_of_input_iff`:
these are all inputs on which every frame handed over is one of the input, and a new one.
-/

namespace Raspdif

open Trace

/-! ## Runs on a finite input -/

/-- The bytes that arrive are those of `stream`, and the writer closes its end behind the
last of them. -/
structure InputIs (stream : List UInt8) (trace : List Event) : Prop where
  arrives : delivered trace <+: stream
  whole : ∀ before after, trace = before ++ .closed :: after → delivered before = stream

/-- The call behind `before` hands over frame `k` of the input, all of which the read
before it has copied. -/
def HandsOver (setup : Setup) (stream : List UInt8) (before : List Event) (c : Call) (k : Nat) :
    Prop :=
  ∃ earlier copied, before = earlier ++ [.fread copied] ∧
    (reads earlier).flatten.length = setup.format.frameSize * k ∧
    copied.length = setup.format.frameSize ∧ copied = setup.format.frameBytes stream k ∧
    (c.sampleA, c.sampleB) = setup.format.parseFrame copied

/-- Every frame handed over is a complete frame of the input, read by the read before it,
and no frame of the input is handed over twice. -/
structure EndAddsNothing (setup : Setup) (stream : List UInt8) (trace : List Event) : Prop where
  fromInput : ∀ before c after, trace = before ++ .call c :: after → c.source = .input →
    ∃ k, HandsOver setup stream before c k
  once : ∀ before c between d after k, trace = before ++ .call c :: between ++ .call d :: after →
    HandsOver setup stream before c k →
    ¬ HandsOver setup stream (before ++ .call c :: between) d k

theorem InputIs.left {stream : List UInt8} {past events : List Event}
    (input : InputIs stream (past ++ events)) : InputIs stream past where
  arrives := by
    have all := input.arrives
    rw [delivered_append] at all
    exact (List.prefix_append _ _).trans all
  whole before after split := input.whole before (after ++ events) (by rw [split]; simp)

section

variable {setup : Setup} {stream : List UInt8} {answers : Answers} {s s' : Main}
  {trace events : List Event}

theorem HandsOver.reads_eq {before : List Event} {c : Call} {k : Nat}
    (handsOver : HandsOver setup stream before c k) :
    (reads before).flatten.length = setup.format.frameSize * k + setup.format.frameSize := by
  obtain ⟨earlier, copied, rfl, count, whole, -⟩ := handsOver
  rw [reads_append, List.flatten_append, List.length_append, count]
  change _ + [copied].flatten.length = _
  rw [List.flatten_singleton, whole]

/-- Frames that each have a read of their own are different frames. -/
theorem HandsOver.unique {before between : List Event} {c d : Call} {k : Nat}
    (first : HandsOver setup stream before c k) :
    ¬ HandsOver setup stream (before ++ .call c :: between) d k := by
  rintro ⟨earlier, copied, split, count, whole, -⟩
  have read := first.reads_eq
  have pos := setup.format.frameSize_pos
  -- The read of the second call is one of those between the two.
  obtain ⟨part, rfl⟩ : ∃ part, between = part ++ [.fread copied] := by
    rcases List.eq_nil_or_concat between with rfl | ⟨part, e, rfl⟩
    · exact absurd (List.append_inj_right' split rfl) (by simp)
    · refine ⟨part, ?_⟩
      rw [List.concat_eq_append] at split ⊢
      rw [← List.cons_append, ← List.append_assoc] at split
      rw [List.append_inj_right' split rfl]
  rw [← List.cons_append, ← List.append_assoc] at split
  rw [← List.append_inj_left' split rfl, reads_append, List.flatten_append,
    List.length_append] at count
  omega

theorem EndAddsNothing.of_fromInput
    (fromInput : ∀ before c after, trace = before ++ .call c :: after → c.source = .input →
      ∃ k, HandsOver setup stream before c k) : EndAddsNothing setup stream trace :=
  ⟨fromInput, fun _ _ _ _ _ _ _ first => first.unique⟩

/-! ## Inputs that end in the preload -/

/-- The preload reads the input to its end, and the end is not taken for a frame. -/
def EndsCleanly (format : RaspdifFormat) (length : Nat) : Prop :=
  length < ringSize * format.frameSize ∧ length % format.frameSize < format.sampleSize ∨
    ringSize * format.frameSize ≤ length ∧ length < (ringSize + 1) * format.frameSize

/-- Where such a run stands.  The read loop is entered with the end reached, so it reads
nothing. -/
def Pc.EndAt (format : RaspdifFormat) (trace : List Event) (eof : Bool) : Pc → Prop
  | .preload =>
      eof = false ∧ (∀ copied ∈ reads trace, copied.length = format.frameSize) ∧
        (reads trace).length = (calls trace).length
  | .readLoop => eof = true
  | .finished => True
  | _ => False

structure Ending (setup : Setup) (stream : List UInt8) (trace : List Event) (s : Main) : Prop where
  cursor : Cursor setup trace s
  fed : Fed [] trace s
  at_ : s.pc.EndAt setup.format trace s.file.eof
  closed : s.file.closed = true → delivered trace = stream
  handsOver : ∀ before c after, trace = before ++ .call c :: after → c.source = .input →
    ∃ k, HandsOver setup stream before c k

theorem Ending.start (setup : Setup) (stream : List UInt8) (buffers : Nat → RaspdifBuffer) :
    Ending setup stream [] (Main.start buffers) where
  cursor := Cursor.start setup buffers
  fed := Fed.nil _
  at_ := ⟨rfl, by simp [reads], rfl⟩
  closed closed := absurd closed (by simp [Main.start])
  handsOver _ _ _ split := absurd split (by simp)

/-- No new call. -/
theorem handsOver_of_calls_nil
    (handsOver : ∀ before c after, trace = before ++ .call c :: after → c.source = .input →
      ∃ k, HandsOver setup stream before c k) (silent : calls events = []) :
    ∀ before c after, trace ++ events = before ++ .call c :: after → c.source = .input →
      ∃ k, HandsOver setup stream before c k := by
  intro before c after split input
  rcases cons_split_of_append split with ⟨part, here, -⟩ | ⟨part, -, there⟩
  · exact handsOver before c part here input
  · rw [there, calls_append] at silent
    simp [calls, Event.call?] at silent

/-- In the preload the reads have taken whole frames off the front of the input. -/
theorem Ending.pending_eq (ending : Ending setup stream trace s) (input : InputIs stream trace)
    (pc : s.pc = .preload) :
    (reads trace).flatten.length = setup.format.frameSize * (calls trace).length ∧
      s.file.pending <+: stream.drop (setup.format.frameSize * (calls trace).length) := by
  have at_ := ending.at_
  rw [pc] at at_
  obtain ⟨-, whole, count⟩ := at_
  have read : (reads trace).flatten.length = setup.format.frameSize * (calls trace).length := by
    rw [← count, List.length_flatten,
      List.map_congr_left (g := fun _ => setup.format.frameSize) whole, List.map_const',
      List.sum_replicate_nat, Nat.mul_comm]
  obtain ⟨rest, arrives⟩ := input.arrives
  refine ⟨read, rest, ?_⟩
  have fed : (reads trace).flatten ++ s.file.pending = delivered trace := ending.fed
  rw [← arrives, ← fed, List.append_assoc, ← read, List.drop_left]

/-- A call of the preload behind a read of a whole frame. -/
theorem Ending.handsOver_moves (ending : Ending setup stream trace s)
    (input : InputIs stream trace) (pc : s.pc = .preload)
    (whole : (s.fread setup).copied.length = setup.format.frameSize) {after : List Event}
    {before : List Event} {c : Call}
    (split : trace ++ [.fread (s.fread setup).copied,
      .call ((s.afterRead setup).bufferInput setup).call] = before ++ .call c :: after)
    (source : c.source = .input) : ∃ k, HandsOver setup stream before c k := by
  obtain ⟨count, place⟩ := ending.pending_eq input pc
  rcases cons_split_of_append split with ⟨part, here, -⟩ | ⟨part, rfl, there⟩
  · exact ending.handsOver before c part here source
  · obtain ⟨rfl, rfl⟩ : part = [.fread (s.fread setup).copied] ∧
        c = ((s.afterRead setup).bufferInput setup).call := by
      cases part with
      | nil => cases there
      | cons e part =>
          cases part with
          | nil =>
              simp only [List.cons_append, List.nil_append, List.cons.injEq] at there
              exact ⟨by rw [there.1], (Event.call.inj there.2.1).symm⟩
          | cons f part => exact absurd (congrArg List.length there) (by simp)
    obtain ⟨rest, place⟩ := place
    refine ⟨_, trace, _, rfl, count, whole, ?_, ?_⟩
    · rw [RaspdifFormat.frameBytes, ← place, List.take_append_of_le_length]
      · rfl
      · rw [← whole]
        exact List.length_take_le' _ _
    · rw [← Main.parseFrame_afterRead whole]
      rfl

/-- In the preload of an input that ends cleanly a short read hands nothing over. -/
theorem Ending.whole_of_preloadFrame (ending : Ending setup stream trace s)
    (input : InputIs stream trace) (clean : EndsCleanly setup.format stream.length)
    (pc : s.pc = .preload) (ready : s.file.Ready setup.format.frameSize)
    (items : 0 < (s.fread setup).items) (room : s.bufferIndex < raspdifBufferCount) :
    (s.fread setup).copied.length = setup.format.frameSize := by
  by_contra short
  have fits : s.file.pending.length < setup.format.frameSize := by
    by_contra long
    exact short (Main.fread_of_long (Nat.not_lt.mp long)).1
  have closed : s.file.closed = true := ready.resolve_left (Nat.not_le.mpr fits)
  have control := ending.cursor.control
  rw [pc] at control
  obtain ⟨-, index, -⟩ := control
  -- What is pending is all that is left of the input.
  have total : setup.format.frameSize * (calls trace).length + s.file.pending.length =
      stream.length := by
    rw [← (ending.pending_eq input pc).1, ← List.length_append, ending.fed, ending.closed closed]
    rfl
  have copied : (s.fread setup).items = s.file.pending.length / setup.format.sampleSize := by
    change (s.file.pending.take setup.format.frameSize).length / _ = _
    rw [List.take_of_length_le fits.le]
  have sample : setup.format.sampleSize ≤ s.file.pending.length := by
    by_contra little
    rw [copied, Nat.div_eq_of_lt (Nat.not_le.mp little)] at items
    exact absurd items (Nat.lt_irrefl 0)
  have missing : stream.length % setup.format.frameSize = s.file.pending.length := by
    rw [← total, Nat.mul_add_mod, Nat.mod_eq_of_lt fits]
  rcases clean with ⟨-, part⟩ | ⟨full, -⟩
  · omega
  · have slots : (calls trace).length < ringSize := by
      simp only [ringSize, raspdifBufferCount, raspdifBufferSize] at *
      omega
    have few := Nat.mul_le_mul_left setup.format.frameSize (Nat.succ_le_of_lt slots)
    rw [Nat.mul_succ, Nat.mul_comm _ ringSize] at few
    omega

/-- The preload of an input that ends cleanly is left with the end reached. -/
theorem Ending.eof_of_preloadDone (ending : Ending setup stream trace s)
    (input : InputIs stream trace) (clean : EndsCleanly setup.format stream.length)
    (pc : s.pc = .preload) (ready : s.file.Ready setup.format.frameSize)
    (done : (s.fread setup).items = 0 ∨ raspdifBufferCount ≤ s.bufferIndex) :
    (s.fread setup).file.eof = true := by
  rcases done with none | full
  · exact Main.eof_of_no_items ready none
  · have control := ending.cursor.control
    rw [pc] at control
    obtain ⟨bound, index, -⟩ := control
    obtain ⟨-, place⟩ := ending.pending_eq input pc
    have slots : (calls trace).length = ringSize := by
      simp only [ringSize, raspdifBufferCount, raspdifBufferSize] at *
      omega
    have short : s.file.pending.length < setup.format.frameSize := by
      have left := place.length_le
      rw [List.length_drop, slots, Nat.mul_comm] at left
      have pos := setup.format.frameSize_pos
      have room : stream.length < (ringSize + 1) * setup.format.frameSize := by
        rw [Nat.succ_mul]
        rcases clean with ⟨less, -⟩ | ⟨-, less⟩
        · omega
        · rwa [Nat.succ_mul] at less
      rw [Nat.succ_mul] at room
      omega
    have closed := ready.resolve_left (Nat.not_le.mpr short)
    simp only [RaspdifFormat.frameSize] at short
    simp [Main.fread, File.fread, closed, short]

theorem Pc.EndAt.quiet {pc : Pc} {format : RaspdifFormat} {eof : Bool}
    (at_ : pc.EndAt format trace eof) (noRead : reads events = []) (noCall : calls events = []) :
    pc.EndAt format (trace ++ events) eof := by
  cases pc with
  | preload =>
      obtain ⟨open_, whole, count⟩ := at_
      refine ⟨open_, ?_, ?_⟩
      · rwa [reads_append, noRead, List.append_nil]
      · rwa [reads_append, noRead, List.append_nil, calls_append, noCall, List.append_nil]
  | _ => exact at_

theorem Ending.moves (ending : Ending setup stream trace s) (input : InputIs stream trace)
    (clean : EndsCleanly setup.format stream.length) (moves : s.Moves setup answers s' events) :
    s'.pc.EndAt setup.format (trace ++ events) s'.file.eof ∧
      (s'.file.closed = true → s.file.closed = true) ∧ delivered events = [] ∧
      ∀ before c after, trace ++ events = before ++ .call c :: after → c.source = .input →
        ∃ k, HandsOver setup stream before c k := by
  have at_ := ending.at_
  cases moves with
  | preloadFrame pc ready items room =>
      have whole := ending.whole_of_preloadFrame input clean pc ready items room
      rw [pc] at at_
      obtain ⟨open_, earlier, count⟩ := at_
      refine ⟨?_, id, rfl, fun before c after split source =>
        ending.handsOver_moves input pc whole split source⟩
      change Pc.EndAt _ _ (s.fread setup).file.eof s.pc
      rw [pc, Main.eof_of_whole whole]
      refine ⟨open_, ?_, ?_⟩
      · rw [reads_append, List.forall_mem_append]
        exact ⟨earlier, List.forall_mem_singleton.mpr whole⟩
      · rw [reads_append, calls_append, List.length_append, List.length_append, count]
        rfl
  | preloadDone pc ready done =>
      exact ⟨ending.eof_of_preloadDone input clean pc ready done, id, rfl,
        handsOver_of_calls_nil ending.handsOver rfl⟩
  | finish pc eof => exact ⟨trivial, id, rfl, handsOver_of_calls_nil ending.handsOver rfl⟩
  | readWait pc noEof | readFrame pc noEof =>
      rw [pc] at at_
      exact absurd at_ (Bool.eq_false_iff.mp noEof)
  | underrun pc away short noEof =>
      rw [pc] at at_
      exact absurd at_ (Bool.eq_false_iff.mp (Bool.or_eq_false_iff.mp noEof).1)
  | fillRemainder _ pc | fillWait _ _ pc | fillEnter _ _ pc | fillReturn _ _ pc
  | fillBuffer _ _ pc | poll pc =>
      rw [pc] at at_
      exact at_.elim

theorem Ending.step (ending : Ending setup stream trace s)
    (clean : EndsCleanly setup.format stream.length) (one : Main.Step setup s events s')
    (input : InputIs stream (trace ++ events)) : Ending setup stream (trace ++ events) s' := by
  have cursor := ending.cursor.step one
  have fed := ending.fed.step one
  cases one with
  | cpu answers ran =>
      obtain ⟨at_, closed, noDelivery, handsOver⟩ :=
        ending.moves input.left clean (Main.step_moves ran)
      refine ⟨cursor, fed, at_, fun closed' => ?_, handsOver⟩
      rw [delivered_append, noDelivery, List.append_nil]
      exact ending.closed (closed closed')
  | deliver bytes open_ =>
      refine ⟨cursor, fed, ending.at_.quiet rfl rfl, fun closed => ?_,
        handsOver_of_calls_nil ending.handsOver rfl⟩
      exact absurd closed (by simp [open_])
  | close =>
      refine ⟨cursor, fed, ending.at_.quiet rfl rfl, fun _ => ?_,
        handsOver_of_calls_nil ending.handsOver rfl⟩
      rw [delivered_append, input.whole trace [] rfl]
      exact List.append_nil _

/-- On an input that ends cleanly nothing is added, in any run. -/
theorem endAddsNothing_of_clean {buffers : Nat → RaspdifBuffer}
    (clean : EndsCleanly setup.format stream.length)
    (run : Run (Main.Step setup) (Main.start buffers) trace s) (input : InputIs stream trace) :
    EndAddsNothing setup stream trace := by
  have ending := run.invariant (fun past m => InputIs stream past → Ending setup stream past m)
    (fun _ => Ending.start setup stream buffers)
    (fun ending one input => (ending input.left).step clean one input) input
  exact .of_fromInput ending.handsOver

/-! ## Inputs that do not -/

/-- Once the writer has closed its end the file is known to be closed. -/
theorem closed_of_mem {start : Main} (run : Run (Main.Step setup) start trace s)
    (member : Event.closed ∈ trace) : s.file.closed = true := by
  refine run.invariant (fun past m => Event.closed ∈ past → m.file.closed = true)
    (fun none => absurd none List.not_mem_nil) ?_ member
  intro past events m m' known one member
  rw [List.mem_append] at member
  cases one with
  | cpu answers ran =>
      cases Main.step_moves ran <;> exact known (member.resolve_right (by simp))
  | deliver bytes _ => exact known (member.resolve_right (by simp))
  | close => rfl

/-- The writer closes behind all of the input, and no more arrives. -/
theorem InputIs.of_close {buffers : Nat → RaspdifBuffer}
    (run : Run (Main.Step setup) (Main.start buffers) trace s) (opened : s.file.closed = false)
    (arrived : delivered trace = stream) {rest : List Event} (noDelivery : delivered rest = [])
    (noClose : Event.closed ∉ rest) : InputIs stream (trace ++ [.closed] ++ rest) where
  arrives := by
    rw [delivered_append, delivered_append, noDelivery, arrived]
    exact ⟨[], by simp [delivered, Event.bytes]⟩
  whole before after split := by
    rw [List.append_assoc] at split
    rcases cons_split_of_append split with ⟨part, rfl, -⟩ | ⟨part, rfl, there⟩
    · exact absurd (closed_of_mem run (by simp)) (by simp [opened])
    · cases part with
      | nil => rw [List.append_nil, arrived]
      | cons e part =>
          rw [List.cons_append, List.nil_append, List.cons_append] at there
          exact absurd (by rw [(List.cons.inj there).2]; simp) noClose

/-- A frame behind a short read is not one of the input. -/
theorem not_endAddsNothing {before : List Event} {copied : List UInt8} {c : Call}
    (input : c.source = .input) (short : copied.length < setup.format.frameSize) :
    ¬ EndAddsNothing setup stream (before ++ [.fread copied, .call c]) := by
  intro nothing
  obtain ⟨k, earlier, read, split, -, whole, -⟩ :=
    nothing.fromInput (before ++ [.fread copied]) c [] (by simp) input
  obtain rfl := Event.fread.inj (List.cons.inj (List.append_inj_right' split rfl)).1
  omega

/-- The read loop at the end of the input: it stores what there is of whole frames and,
behind the read that finds the end, one frame more. -/
theorem exists_read_to_end (setup : Setup) {frames : Nat} (pc : s.pc = .readLoop)
    (noEof : s.file.eof = false) (closed : s.file.closed = true)
    (inRing : s.bufferIndex < raspdifBufferCount)
    (left : s.file.pending.length / setup.format.frameSize = frames) :
    ∃ trace copied c s', Run (Main.Step setup) s (trace ++ [.fread copied, .call c]) s' ∧
      delivered trace = [] ∧ Event.closed ∉ trace ∧ c.source = .input ∧
      copied.length < setup.format.frameSize := by
  have pos := setup.format.frameSize_pos
  induction frames generalizing s with
  | zero =>
      have short : s.file.pending.length < setup.format.frameSize := by
        by_contra long
        exact absurd left (Nat.div_pos (Nat.not_lt.mp long) pos).ne'
      have eof : (s.fread setup).file.eof = true := by
        simp only [RaspdifFormat.frameSize] at short
        simp [Main.fread, File.fread, closed, short]
      have step := Main.step_of_moves setup
        ⟨setup.controlBlock ((s.bufferIndex + 1) % raspdifBufferCount), 0, 0⟩
        (.readFrame pc noEof (setup.controlBlock_next_ne inRing) (Or.inr eof))
      refine ⟨[], _, _, _, .single (.cpu _ step), rfl, List.not_mem_nil, rfl, ?_⟩
      exact (List.length_take_le' _ _).trans_lt short
  | succ frames ih =>
      have long : setup.format.frameSize ≤ s.file.pending.length := by
        by_contra short
        rw [Nat.div_eq_of_lt (Nat.not_le.mp short)] at left
        cases left
      obtain ⟨whole, items, file⟩ := @Main.fread_of_long setup s long
      have step := Main.step_of_moves setup
        ⟨setup.controlBlock ((s.bufferIndex + 1) % raspdifBufferCount), 0, 0⟩
        (.readFrame pc noEof (setup.controlBlock_next_ne inRing) (Or.inl items))
      have next : (if ((s.afterRead setup).bufferInput setup).full then
          (s.bufferIndex + 1) % raspdifBufferCount else s.bufferIndex) < raspdifBufferCount := by
        split
        · exact Nat.mod_lt _ (Nat.zero_lt_succ _)
        · exact inRing
      obtain ⟨trace, copied, c, s', run, noDelivery, noClose, input, short⟩ :=
        ih (s := { ((s.afterRead setup).bufferInput setup).main with
          bufferIndex := if ((s.afterRead setup).bufferInput setup).full then
            (s.bufferIndex + 1) % raspdifBufferCount else s.bufferIndex })
          pc ((Main.eof_of_whole whole).trans noEof) closed next
          (by
            change (s.fread setup).file.pending.length / _ = _
            rw [file, List.length_drop]
            rw [Nat.div_eq_sub_div pos long] at left
            exact Nat.succ.inj left)
      refine ⟨[.fread (s.fread setup).copied, .call ((s.afterRead setup).bufferInput setup).call] ++
        trace, copied, c, s', ?_, ?_, ?_, input, short⟩
      · rw [List.append_assoc]
        exact (Run.single (.cpu _ step)).append run
      · rw [delivered_append, noDelivery]
        rfl
      · simpa using noClose

/-- An input that the preload does not read to its end. -/
theorem exists_added_long (setup : Setup)
    (long : (ringSize + 1) * setup.format.frameSize ≤ stream.length) :
    ∃ buffers trace s, Run (Main.Step setup) (Main.start buffers) trace s ∧
      InputIs stream trace ∧ ¬ EndAddsNothing setup stream trace := by
  obtain ⟨past, loop, preloaded, -, file, arrived, -⟩ :=
    exists_preloaded setup stream (by rwa [Nat.mul_comm])
  obtain ⟨buffers, run⟩ := preloaded.run
  have opened : loop.file.closed = false := by rw [file]
  have closes : Main.Step setup loop [.closed] _ := .close
  obtain ⟨trace, copied, c, s, rest, noDelivery, noClose, input, short⟩ :=
    exists_read_to_end setup (s := { loop with file := { loop.file with closed := true } })
      preloaded.loop.1 (by rw [file]) rfl preloaded.inRing rfl
  refine ⟨buffers, _, s, (run.snoc closes).append rest, ?_, ?_⟩
  · refine .of_close run opened arrived ?_ (by simpa using noClose)
    rw [delivered_append, noDelivery]
    rfl
  · rw [← List.append_assoc]
    exact not_endAddsNothing input short

/-- An input that is shorter than the ring and ends behind a left sample. -/
theorem exists_added_short (setup : Setup)
    (fits : stream.length < ringSize * setup.format.frameSize)
    (half : setup.format.sampleSize ≤ stream.length % setup.format.frameSize) :
    ∃ buffers trace s, Run (Main.Step setup) (Main.start buffers) trace s ∧
      InputIs stream trace ∧ ¬ EndAddsNothing setup stream trace := by
  have pos := setup.format.frameSize_pos
  have samplePos := setup.format.sampleSize_pos
  have slots : stream.length / setup.format.frameSize < ringSize :=
    (Nat.div_lt_iff_lt_mul pos).mpr fits
  obtain ⟨past, mid, run, pc, made, -, file, arrived, -⟩ := exists_preload_run setup stream
    (fun _ => .zero) (stream.length / setup.format.frameSize) slots.le (Nat.mul_div_le _ _)
  have left : mid.file.pending.length = stream.length % setup.format.frameSize := by
    rw [file, List.length_drop]
    exact (Nat.mod_eq_sub ..).symm
  have short : mid.file.pending.length < setup.format.frameSize := by
    rw [left]
    exact Nat.mod_lt _ pos
  have closes : Main.Step setup mid [.closed] _ := .close
  let ended : Main := { mid with file := { mid.file with closed := true } }
  have copied : (ended.fread setup).copied = mid.file.pending := List.take_of_length_le short.le
  have items : 0 < (ended.fread setup).items := by
    change 0 < (ended.fread setup).copied.length / setup.format.sampleSize
    rw [copied, left]
    exact Nat.div_pos half samplePos
  have room : ended.bufferIndex < raspdifBufferCount := by
    have control := (Cursor.of_run run).control
    rw [pc, made] at control
    change mid.bufferIndex < raspdifBufferCount
    rw [control.2.1]
    simp only [ringSize, raspdifBufferCount, raspdifBufferSize] at *
    omega
  have step := Main.step_of_moves setup ⟨0, 0, 0⟩
    (.preloadFrame (s := ended) pc (Or.inr rfl) items room)
  refine ⟨_, _, _, (run.snoc closes).snoc (.cpu _ step), ?_, ?_⟩
  · exact .of_close run (by rw [file]) arrived rfl (by simp)
  · exact not_endAddsNothing rfl (by rw [copied]; exact short)

/-- **The end of the input.**  Nothing is added in any run on an input exactly when it
ends cleanly in the preload. -/
theorem end_of_input_iff (setup : Setup) (stream : List UInt8) :
    (∀ buffers trace s, Run (Main.Step setup) (Main.start buffers) trace s →
      InputIs stream trace → EndAddsNothing setup stream trace) ↔
    EndsCleanly setup.format stream.length := by
  constructor
  · intro nothing
    by_contra unclean
    obtain ⟨buffers, trace, s, run, input, added⟩ : ∃ buffers trace s,
        Run (Main.Step setup) (Main.start buffers) trace s ∧ InputIs stream trace ∧
          ¬ EndAddsNothing setup stream trace := by
      simp only [EndsCleanly, not_or, not_and, Nat.not_lt] at unclean
      rcases Nat.lt_or_ge stream.length (ringSize * setup.format.frameSize) with less | more
      · exact exists_added_short setup less (unclean.1 less)
      · exact exists_added_long setup (unclean.2 more)
    exact added (nothing buffers trace s run input)
  · intro clean buffers trace s run input
    exact endAddsNothing_of_clean clean run input

end

/-- A left sample of 1 and the end of the input: the frame (1, 0) is handed over, though
the input has no frame. -/
theorem half_frame_added : ∃ trace s,
    Run (Main.Step .s16le) (Main.start fun _ => .zero) trace s ∧ InputIs [1, 0] trace ∧
      RaspdifFormat.s16le.frames [1, 0] = [] ∧ handed trace = [(1, 0)] ∧
      ¬ EndAddsNothing .s16le [1, 0] trace := by
  let arrived : Main :=
    { Main.start fun _ => .zero with file := { pending := [1, 0], closed := false, eof := false } }
  have deliver : Main.Step .s16le (Main.start fun _ => .zero) [.delivered [1, 0]] arrived :=
    .deliver [1, 0] rfl
  have closes : Main.Step .s16le arrived [.closed] _ := .close
  let ended : Main := { arrived with file := { arrived.file with closed := true } }
  have step := Main.step_of_moves .s16le ⟨0, 0, 0⟩
    (.preloadFrame (s := ended) rfl (Or.inr rfl) (by decide) (by decide))
  refine ⟨_, _, ((Run.single deliver).snoc closes).snoc (.cpu _ step), ?_, by decide, ?_, ?_⟩
  · exact .of_close (.single deliver) rfl rfl rfl (by simp)
  · change handed [.fread (ended.fread .s16le).copied,
      .call ((ended.afterRead .s16le).bufferInput .s16le).call] = _
    rw [handed_read_call rfl]
    decide
  · exact not_endAddsNothing rfl (by decide)

end Raspdif
