import Raspdif.Main.Preload

/-!
# From the preload loop to the read loop

The preload loop reads a frame before it looks whether there is room for it:
`fread(…) > 0 && buffer_index < RASPDIF_BUFFER_COUNT`.  When the ring is full it has
read one frame more, number 6144, and leaves the loop without storing it.

`HandOver.handed_eq_eraseIdx` says so for every run on which no read comes up short, and
`preload_handoff_iff` which streams do not show it.
-/

namespace Raspdif

open Trace

/-! ## The frame that is dropped -/

/-- Where a run without a short read stands: what it has handed over is what it has read,
from the read loop on without frame 6144. -/
def Pc.HandedAt (format : RaspdifFormat) (trace : List Event) : Pc → Prop
  | .preload =>
      (reads trace).length = (calls trace).length ∧
        handed trace = (reads trace).map format.parseFrame
  | .readLoop =>
      ringSize < (reads trace).length ∧
        handed trace = ((reads trace).map format.parseFrame).eraseIdx ringSize
  | _ => False

/-- The invariant of the runs on which no read comes up short. -/
structure HandOver (setup : Setup) (trace : List Event) (s : Main) : Prop where
  cursor : Cursor setup trace s
  noEof : s.file.eof = false
  handed : s.pc.HandedAt setup.format trace

section

variable {setup : Setup} {answers : Answers} {s s' : Main} {trace events : List Event}

theorem handed_afterRead (whole : (s.fread setup).copied.length = setup.format.frameSize) :
    handed [.fread (s.fread setup).copied, .call ((s.afterRead setup).bufferInput setup).call] =
      [setup.format.parseFrame (s.fread setup).copied] := by
  rw [handed_read_call rfl, ← Main.parseFrame_afterRead whole]
  rfl

/-- Events without reads and calls change nothing. -/
theorem Pc.HandedAt.quiet {pc : Pc} {format : RaspdifFormat} (at_ : pc.HandedAt format trace)
    (noRead : reads events = []) (noCall : calls events = []) :
    pc.HandedAt format (trace ++ events) := by
  have same : handed (trace ++ events) = handed trace := by
    rw [handed, calls_append, noCall, List.append_nil]
    rfl
  cases pc with
  | preload | readLoop =>
      unfold Pc.HandedAt at at_ ⊢
      rw [same, reads_append, noRead, List.append_nil]
      simpa only [calls_append, noCall, List.append_nil] using at_
  | _ => exact at_

theorem HandOver.handed_moves (handOver : HandOver setup trace s)
    (moves : s.Moves setup answers s' events)
    (whole : ∀ copied ∈ reads events, copied.length = setup.format.frameSize) :
    s'.pc.HandedAt setup.format (trace ++ events) := by
  have at_ := handOver.handed
  have control := handOver.cursor.control
  cases moves with
  | preloadFrame pc ready items room =>
      have copied := whole _ (List.mem_singleton_self _)
      rw [pc] at at_
      rcases at_ with ⟨length, same⟩
      change Pc.HandedAt _ _ s.pc
      rw [pc]
      refine ⟨?_, ?_⟩
      · rw [reads_append, calls_append, List.length_append, List.length_append, length]
        rfl
      · rw [handed_append, reads_append, List.map_append, same, handed_afterRead copied]
        rfl
  | preloadDone pc ready done =>
      have copied := whole _ (List.mem_singleton_self _)
      have items := Main.items_eq_two_iff.mpr copied
      rw [pc] at at_ control
      rcases at_ with ⟨length, same⟩
      rcases control with ⟨bound, index, -⟩
      -- The loop stops here on its second test, with the ring full.
      have full : (reads trace).length = ringSize := by
        have three := done.resolve_left (by rw [items]; exact two_ne_zero)
        rw [length]
        simp only [ringSize, raspdifBufferCount, raspdifBufferSize] at *
        omega
      refine ⟨?_, ?_⟩
      · rw [reads_append, List.length_append, full]
        exact Nat.lt_succ_self _
      · rw [handed_append, reads_append, List.map_append, same,
          List.eraseIdx_append_of_length_le (by rw [List.length_map, full])]
        rw [List.length_map, full, Nat.sub_self]
        rfl
  | finish pc eof => exact absurd eof (by simp [handOver.noEof])
  | readWait pc open_ here => exact at_.quiet rfl rfl
  | underrun pc away short open_ =>
      exact absurd (Main.items_eq_two_iff.mpr (whole _ (List.mem_singleton_self _))) short
  | readFrame pc open_ away enough =>
      have copied := whole _ (List.mem_singleton_self _)
      rw [pc] at at_
      rcases at_ with ⟨beyond, same⟩
      change Pc.HandedAt _ _ s.pc
      rw [pc]
      refine ⟨?_, ?_⟩
      · rw [reads_append, List.length_append]
        exact beyond.trans_le (Nat.le_add_right _ _)
      · rw [handed_append, reads_append, List.map_append, same, handed_afterRead copied,
          List.eraseIdx_append_of_lt_length (by rwa [List.length_map])]
        rfl
  | fillRemainder index pc => rw [pc] at at_; exact at_.elim
  | fillWait index count pc more here => rw [pc] at at_; exact at_.elim
  | fillEnter index count pc more away => rw [pc] at at_; exact at_.elim
  | fillReturn index count pc all => rw [pc] at at_; exact at_.elim
  | fillBuffer index count pc => rw [pc] at at_; exact at_.elim
  | poll pc => rw [pc] at at_; exact at_.elim

theorem HandOver.noEof_moves (handOver : HandOver setup trace s)
    (moves : s.Moves setup answers s' events)
    (whole : ∀ copied ∈ reads events, copied.length = setup.format.frameSize) :
    s'.file.eof = false := by
  cases moves with
  | preloadFrame | preloadDone | underrun | readFrame =>
      exact (Main.eof_of_whole (whole _ (List.mem_singleton_self _))).trans handOver.noEof
  | finish | readWait | fillRemainder | fillWait | fillEnter | fillReturn | fillBuffer | poll =>
      exact handOver.noEof

theorem HandOver.step (handOver : HandOver setup trace s) (one : Main.Step setup s events s')
    (whole : ∀ copied ∈ reads events, copied.length = setup.format.frameSize) :
    HandOver setup (trace ++ events) s' := by
  refine ⟨handOver.cursor.step one, ?_, ?_⟩
  · cases one with
    | cpu answers ran => exact handOver.noEof_moves (Main.step_moves ran) whole
    | deliver | close => exact handOver.noEof
  · cases one with
    | cpu answers ran => exact handOver.handed_moves (Main.step_moves ran) whole
    | deliver | close => exact handOver.handed.quiet rfl rfl

theorem HandOver.of_run {buffers : Nat → RaspdifBuffer}
    (run : Run (Main.Step setup) (Main.start buffers) trace s)
    (whole : ∀ copied ∈ reads trace, copied.length = setup.format.frameSize) :
    HandOver setup trace s := by
  refine run.invariant (fun past m =>
    (∀ copied ∈ reads past, copied.length = setup.format.frameSize) → HandOver setup past m)
    (fun _ => ⟨Cursor.start setup buffers, rfl, rfl, rfl⟩) ?_ whole
  intro past events m m' handOver one whole
  rw [reads_append, List.forall_mem_append] at whole
  exact (handOver whole.1).step one whole.2

/-- Without a short read, frame 6144 of those read is the one that is not handed over. -/
theorem HandOver.handed_eq_eraseIdx (handOver : HandOver setup trace s) :
    Raspdif.handed trace = ((reads trace).map setup.format.parseFrame).eraseIdx ringSize := by
  have at_ := handOver.handed
  have control := handOver.cursor.control
  generalize s.pc = pc at at_ control
  cases pc with
  | preload =>
      rcases at_ with ⟨length, same⟩
      rw [same, List.eraseIdx_of_length_le]
      rw [List.length_map, length]
      exact control.1
  | readLoop => exact at_.2
  | _ => exact at_.elim

end

/-! ## The streams that do not show it -/

/-- Taking one item out of a list is not seen in the first `n` when all items from there
to `n` are equal. -/
theorem take_eraseIdx_eq_take_iff {α : Type} {items : List α} {i n : Nat} :
    (items.eraseIdx i).take n = items.take n ↔
      ∀ k, i ≤ k → k < n → items[k]? = items[k + 1]? := by
  constructor
  · intro same k low high
    have here := congrArg (·[k]?) same
    simp only [List.getElem?_take, if_pos high, List.getElem?_eraseIdx, if_neg (Nat.not_lt.mpr low)]
      at here
    exact here.symm
  · intro equal
    apply List.ext_getElem?
    intro k
    rw [List.getElem?_take, List.getElem?_take, List.getElem?_eraseIdx]
    split
    next high =>
      split
      next low => rfl
      next low => exact (equal k (Nat.not_lt.mp low) high).symm
    next high => rfl

theorem take_eraseIdx_append {α : Type} {items : List α} {i n : Nat}
    (bound : n ≤ (items.eraseIdx i).length) (rest : List α) :
    ((items ++ rest).eraseIdx i).take n = (items.eraseIdx i).take n := by
  rcases Nat.lt_or_ge i items.length with inside | beyond
  · rw [List.eraseIdx_append_of_lt_length inside, List.take_append_of_le_length bound]
  · rw [List.eraseIdx_of_length_le beyond] at bound ⊢
    rw [List.eraseIdx_append_of_length_le beyond, List.take_append_of_le_length bound]

theorem HandOver.take_iff {setup : Setup} {trace : List Event} {s : Main} {n : Nat}
    (handOver : HandOver setup trace s) (fed : Fed [] trace s)
    (whole : ∀ copied ∈ reads trace, copied.length = setup.format.frameSize)
    (bound : n ≤ (Raspdif.handed trace).length) :
    (Raspdif.handed trace).take n = (setup.format.frames (delivered trace)).take n ↔
      ∀ k, ringSize ≤ k → k < n → (setup.format.frames (delivered trace))[k]? =
        (setup.format.frames (delivered trace))[k + 1]? := by
  have stream : setup.format.frames (delivered trace) =
      (reads trace).map setup.format.parseFrame ++ setup.format.frames s.file.pending := by
    rw [← RaspdifFormat.frames_flatten whole, fed]
    rfl
  rw [handOver.handed_eq_eraseIdx] at bound ⊢
  rw [← take_eraseIdx_append bound (setup.format.frames s.file.pending), ← stream]
  exact take_eraseIdx_eq_take_iff

/-- **The preload handoff.**  On a run without a short read the first `n` frames handed to
`raspdif_buffer_samples` are the first `n` of the stream exactly when the stream does not
show that its frame 6144 is missing: from there to `n` every frame equals the next. -/
theorem preload_handoff_iff {setup : Setup} {buffers : Nat → RaspdifBuffer} {trace : List Event}
    {s : Main} (run : Run (Main.Step setup) (Main.start buffers) trace s)
    (whole : ∀ copied ∈ reads trace, copied.length = setup.format.frameSize) {n : Nat}
    (bound : n ≤ (handed trace).length) :
    (handed trace).take n = (setup.format.frames (delivered trace)).take n ↔
      ∀ k, ringSize ≤ k → k < n → (setup.format.frames (delivered trace))[k]? =
        (setup.format.frames (delivered trace))[k + 1]? :=
  (HandOver.of_run run whole).take_iff (Fed.of_run run) whole bound

/-! ## A stream that shows it -/

/-- Any stream with two frames more than the ring holds, once one frame of it has gone
through the read loop. -/
theorem exists_handoff (setup : Setup) {stream : List UInt8}
    (enough : setup.format.frameSize * (ringSize + 1) + setup.format.frameSize ≤ stream.length) :
    ∃ buffers trace s, Run (Main.Step setup) (Main.start buffers) trace s ∧
      delivered trace = stream ∧
      (∀ copied ∈ reads trace, copied.length = setup.format.frameSize) ∧
      (handed trace).length = ringSize + 1 := by
  obtain ⟨trace, s, preloaded, taken, file, arrived, whole⟩ :=
    exists_preloaded setup stream ((Nat.le_add_right _ _).trans enough)
  rcases preloaded.run with ⟨buffers, run⟩
  rcases preloaded.loop with ⟨pc, -⟩
  have long : setup.format.frameSize ≤ s.file.pending.length := by
    rw [file, List.length_drop]
    exact Nat.le_sub_of_add_le' enough
  have copied := (Main.fread_of_long long).1
  obtain ⟨s', step⟩ := s.exists_readFrame setup pc (by rw [file]) preloaded.inRing long
  have run' := run.snoc step
  have whole' : ∀ bytes ∈ reads (trace ++ [.fread (s.fread setup).copied,
      .call ((s.afterRead setup).bufferInput setup).call]),
      bytes.length = setup.format.frameSize := by
    rw [reads_append, List.forall_mem_append]
    exact ⟨whole, List.forall_mem_singleton.mpr copied⟩
  have count : (reads (trace ++ [.fread (s.fread setup).copied,
      .call ((s.afterRead setup).bufferInput setup).call])).length = ringSize + 2 := by
    rw [reads_append, List.length_append, taken]
    rfl
  refine ⟨buffers, _, _, run', ?_, whole', ?_⟩
  · rw [delivered_append, arrived]
    exact List.append_nil _
  · rw [(HandOver.of_run run' whole').handed_eq_eraseIdx, List.length_eraseIdx_of_lt]
    · rw [List.length_map, count]
      rfl
    · rw [List.length_map, count]
      exact Nat.lt_add_of_pos_right Nat.two_pos

/-- s16le input: silence for as long as the preload reads, then a left sample of 1. -/
def handoffStream : List UInt8 := silence ++ [1, 0, 0, 0]

theorem length_handoffStream : handoffStream.length = 4 * (ringSize + 1) + 4 := by
  rw [handoffStream, List.length_append, length_silence]
  rfl

theorem frames_handoffStream :
    RaspdifFormat.s16le.frames handoffStream =
      List.replicate (ringSize + 1) (0, 0) ++ [(1, 0)] := by
  have zero : RaspdifFormat.s16le.parseFrame [0, 0, 0, 0] = (0, 0) := by decide
  have one : RaspdifFormat.s16le.frames [1, 0, 0, 0] = [(1, 0)] := by decide
  rw [handoffStream, silence, RaspdifFormat.frames_flatten, List.map_replicate, zero, one]
  intro bytes member
  rw [(List.mem_replicate.mp member).2]
  rfl

/-- Its first 6144 frames are handed over. -/
theorem handed_handoffStream : ∃ trace,
    delivered trace = handoffStream ∧
      (handed trace).take ringSize = (RaspdifFormat.s16le.frames handoffStream).take ringSize := by
  obtain ⟨buffers, trace, s, run, arrived, whole, count⟩ :=
    exists_handoff .s16le length_handoffStream.ge
  refine ⟨trace, arrived, ?_⟩
  rw [← arrived]
  refine (preload_handoff_iff run whole (by omega)).mpr fun k low high => ?_
  exact absurd high (Nat.not_lt.mpr low)

/-- The sample of 1 is the frame 6145 of this stream, but it is handed over as
frame 6144. -/
theorem handoff_drops_frame : ∃ buffers trace s,
    Run (Main.Step .s16le) (Main.start buffers) trace s ∧
      delivered trace = handoffStream ∧
      (∀ copied ∈ reads trace, copied.length = RaspdifFormat.s16le.frameSize) ∧
      (handed trace).length = ringSize + 1 ∧
      handed trace ≠ (RaspdifFormat.s16le.frames (delivered trace)).take (ringSize + 1) := by
  obtain ⟨buffers, trace, s, run, arrived, whole, count⟩ :=
    exists_handoff .s16le length_handoffStream.ge
  refine ⟨buffers, trace, s, run, arrived, whole, count, ?_⟩
  intro same
  have equal : (RaspdifFormat.s16le.frames (delivered trace))[ringSize]? =
      (RaspdifFormat.s16le.frames (delivered trace))[ringSize + 1]? :=
    ((HandOver.of_run run whole).take_iff (Fed.of_run run) whole count.ge).mp
      (by rw [List.take_of_length_le count.le]; exact same) ringSize (Nat.le_refl _)
      (Nat.lt_succ_self _)
  rw [arrived, frames_handoffStream, List.getElem?_append_left (by simp),
    List.getElem?_append_right (by simp), List.getElem?_replicate, if_pos (Nat.lt_succ_self _),
    List.length_replicate, Nat.sub_self] at equal
  cases equal

end Raspdif
