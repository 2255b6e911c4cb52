import Raspdif.Main.Fill

/-!
# The read loop and the boundaries of its reads

A short `fread` of the non-blocking read loop has taken the bytes it copied out of the
file.  `main` answers it with silence and reads again from the start of `samples`, so
those bytes are gone and every later frame is cut at the wrong place.

`read_loop_aligned_iff`: the loop stays on the frames of the stream exactly as long as
every read finds a whole frame or nothing at all.
-/

namespace Raspdif

open Trace

/-! ## Reads of a stream -/

section

variable {size : Nat} {parts : List (List UInt8)}

/-- The whole frames among the reads. -/
def wholeReads (size : Nat) (parts : List (List UInt8)) : List (List UInt8) :=
  parts.filter fun part => part.length = size

theorem length_of_mem_wholeReads {part : List UInt8} (member : part ∈ wholeReads size parts) :
    part.length = size :=
  of_decide_eq_true (List.mem_filter.mp member).2

theorem mul_length_wholeReads_le (size : Nat) (parts : List (List UInt8)) :
    size * (wholeReads size parts).length ≤ parts.flatten.length := by
  induction parts with
  | nil => exact Nat.le_refl _
  | cons part parts ih =>
      rw [List.flatten_cons, List.length_append]
      by_cases whole : part.length = size
      · rw [wholeReads, List.filter_cons_of_pos (by simpa using whole), List.length_cons,
          Nat.mul_succ, Nat.add_comm, whole]
        exact Nat.add_le_add_left ih size
      · rw [wholeReads, List.filter_cons_of_neg (by simpa using whole)]
        exact ih.trans (Nat.le_add_left _ _)

/-- The whole frames are all that was read exactly when every other read was empty. -/
theorem length_flatten_eq_iff :
    parts.flatten.length = size * (wholeReads size parts).length ↔
      ∀ part ∈ parts, part.length = size ∨ part = [] := by
  induction parts with
  | nil => simp [wholeReads]
  | cons part parts ih =>
      have bound := mul_length_wholeReads_le size parts
      rw [List.flatten_cons, List.length_append, List.forall_mem_cons, ← ih]
      by_cases whole : part.length = size
      · rw [wholeReads, List.filter_cons_of_pos (by simpa using whole), List.length_cons,
          Nat.mul_succ, ← wholeReads, whole]
        omega
      · rw [wholeReads, List.filter_cons_of_neg (by simpa using whole), ← wholeReads,
          ← List.length_eq_zero_iff]
        omega

theorem flatten_wholeReads (aligned : ∀ part ∈ parts, part.length = size ∨ part = []) :
    (wholeReads size parts).flatten = parts.flatten := by
  induction parts with
  | nil => rfl
  | cons part parts ih =>
      rw [List.forall_mem_cons] at aligned
      rcases aligned with ⟨here, rest⟩
      by_cases whole : part.length = size
      · rw [wholeReads, List.filter_cons_of_pos (by simpa using whole), List.flatten_cons,
          ← wholeReads, ih rest, List.flatten_cons]
      · obtain rfl := here.resolve_left whole
        rw [wholeReads, List.filter_cons_of_neg (by simpa using whole), ← wholeReads, ih rest]
        rfl

end

/-! ## The read loop -/

/-- A run of the read loop on a stream without end: it has handed over the whole frames
among its reads. -/
structure Looping (setup : Setup) (trace : List Event) (s : Main) : Prop where
  pc : s.pc ≠ .preload
  opened : s.file.closed = false
  noEof : s.file.eof = false
  handed : handed trace = (wholeReads setup.format.frameSize (reads trace)).map
    setup.format.parseFrame

section

variable {setup : Setup} {answers : Answers} {s s' : Main} {trace events : List Event}

/-- A step that neither reads nor hands over anything. -/
theorem Looping.quiet (looping : Looping setup trace s) (noRead : reads events = [])
    (noInput : Raspdif.handed events = []) (file : s'.file.closed = s.file.closed)
    (eof : s'.file.eof = s.file.eof) (pc : s'.pc ≠ .preload) :
    Looping setup (trace ++ events) s' where
  pc := pc
  opened := file.trans looping.opened
  noEof := eof.trans looping.noEof
  handed := by
    rw [handed_append, reads_append, noRead, noInput, List.append_nil, List.append_nil,
      looping.handed]

/-- While more input may come a read does not set the end-of-file indicator. -/
theorem Looping.noEof_fread (setup : Setup) (looping : Looping setup trace s) :
    (s.fread setup).file.eof = false := by
  simp [Main.fread, File.fread, looping.opened, looping.noEof]

theorem wholeReads_append {size : Nat} (first second : List (List UInt8)) :
    wholeReads size (first ++ second) = wholeReads size first ++ wholeReads size second :=
  List.filter_append ..

theorem Looping.moves (looping : Looping setup trace s)
    (moves : s.Moves setup answers s' events) : Looping setup (trace ++ events) s' := by
  have noEof := looping.noEof_fread setup
  have at_ := looping.pc
  cases moves with
  | preloadFrame pc => exact absurd pc at_
  | preloadDone pc => exact absurd pc at_
  | finish pc eof => exact absurd eof (by simp [looping.noEof])
  | readWait pc => exact looping.quiet rfl rfl rfl rfl at_
  | underrun pc away short open_ =>
      refine ⟨Pc.noConfusion, looping.opened, noEof, ?_⟩
      have dropped : wholeReads setup.format.frameSize [(s.fread setup).copied] = [] := by
        rw [Ne, Main.items_eq_two_iff] at short
        exact List.filter_cons_of_neg (by simpa using short)
      rw [handed_append, reads_append, wholeReads_append, looping.handed]
      change _ ++ [] = ((_ ++ wholeReads _ [(s.fread setup).copied]).map _)
      rw [dropped, List.append_nil, List.append_nil]
  | readFrame pc open_ away enough =>
      have copied := Main.items_eq_two_iff.mp (enough.resolve_right (by simp [noEof]))
      refine ⟨at_, looping.opened, noEof, ?_⟩
      have kept : wholeReads setup.format.frameSize [(s.fread setup).copied] =
          [(s.fread setup).copied] :=
        List.filter_cons_of_pos (by simpa using copied)
      rw [handed_append, reads_append, wholeReads_append, looping.handed, handed_read_call rfl,
        List.map_append]
      change _ ++ [setup.format.parseFrame _] =
        _ ++ (wholeReads _ [(s.fread setup).copied]).map _
      rw [kept, Main.parseFrame_afterRead copied]
      rfl
  | fillRemainder index pc =>
      refine looping.quiet rfl (handed_fill_call rfl) rfl rfl ?_
      change ite _ _ _ ≠ _
      split <;> exact Pc.noConfusion
  | fillWait index count pc => exact looping.quiet rfl rfl rfl rfl at_
  | fillEnter index count pc => exact looping.quiet rfl rfl rfl rfl Pc.noConfusion
  | fillReturn index count pc => exact looping.quiet rfl rfl rfl rfl Pc.noConfusion
  | fillBuffer index count pc =>
      refine looping.quiet rfl (handed_fill_call rfl) rfl rfl ?_
      change ite _ _ _ ≠ _
      split <;> exact Pc.noConfusion
  | poll pc => exact looping.quiet rfl rfl rfl rfl Pc.noConfusion

theorem Looping.step (looping : Looping setup trace s) (one : Main.Step setup s events s')
    (noClose : Event.closed ∉ events) : Looping setup (trace ++ events) s' := by
  cases one with
  | cpu answers ran => exact looping.moves (Main.step_moves ran)
  | deliver bytes _ => exact looping.quiet rfl rfl rfl rfl looping.pc
  | close => exact absurd (List.mem_singleton_self _) noClose

theorem Looping.of_run {start : Main} (loop : start.pc = .readLoop)
    (opened : start.file.closed = false) (noEof : start.file.eof = false)
    (run : Run (Main.Step setup) start trace s) (noClose : Event.closed ∉ trace) :
    Looping setup trace s := by
  refine run.invariant (fun past m => Event.closed ∉ past → Looping setup past m)
    (fun _ => ⟨by rw [loop]; exact Pc.noConfusion, opened, noEof, rfl⟩) ?_ noClose
  intro past events m m' looping one noClose
  rw [List.mem_append, not_or] at noClose
  exact (looping noClose.1).step one noClose.2

/-- The stream is in the right place exactly when nothing but whole frames was read. -/
theorem Looping.aligned_iff {before : List UInt8} (looping : Looping setup trace s)
    (fed : Fed before trace s) :
    (Raspdif.handed trace = (setup.format.frames (before ++ delivered trace)).take
          (Raspdif.handed trace).length ∧
        s.file.pending = (before ++ delivered trace).drop
          (setup.format.frameSize * (Raspdif.handed trace).length)) ↔
      ∀ copied ∈ reads trace, copied.length = setup.format.frameSize ∨ copied = [] := by
  have count : (Raspdif.handed trace).length =
      (wholeReads setup.format.frameSize (reads trace)).length := by
    rw [looping.handed, List.length_map]
  rw [← length_flatten_eq_iff, count, ← fed]
  constructor
  · rintro ⟨-, place⟩
    have bound := mul_length_wholeReads_le setup.format.frameSize (reads trace)
    have length := congrArg List.length place
    rw [List.length_drop, List.length_append] at length
    omega
  · intro whole
    have same := flatten_wholeReads (length_flatten_eq_iff.mp whole)
    constructor
    · rw [looping.handed, ← same, RaspdifFormat.frames_flatten fun _ => length_of_mem_wholeReads,
        List.take_left' (List.length_map _)]
    · rw [← whole, List.drop_left]

end

/-- **The read loop and its reads.**  On a stream without end the read loop has handed
over the first frames of the stream, and will read on right behind them, exactly when
every read so far found a whole frame or nothing. -/
theorem read_loop_aligned_iff {setup : Setup} {start s : Main} {trace : List Event}
    (loop : start.pc = .readLoop) (opened : start.file.closed = false)
    (noEof : start.file.eof = false) (run : Run (Main.Step setup) start trace s)
    (noClose : Event.closed ∉ trace) :
    (handed trace = (setup.format.frames (start.file.pending ++ delivered trace)).take
          (handed trace).length ∧
        s.file.pending = (start.file.pending ++ delivered trace).drop
          (setup.format.frameSize * (handed trace).length)) ↔
      ∀ copied ∈ reads trace, copied.length = setup.format.frameSize ∨ copied = [] :=
  (Looping.of_run loop opened noEof run noClose).aligned_iff (Fed.of_run run)

/-- Two frames of s16le input with an underrun between them that finds no byte are handed
over as they were sent. -/
theorem read_loop_aligned_whole : ∃ start trace s,
    Run (Main.Step .s16le) start trace s ∧ fills trace = 1 ∧
      reads trace = [[1, 0, 2, 0], [], [3, 0, 4, 0]] ∧
      delivered trace = [1, 0, 2, 0, 3, 0, 4, 0] ∧ handed trace = [(1, 2), (3, 4)] ∧
      handed trace = (RaspdifFormat.s16le.frames (delivered trace)).take (handed trace).length := by
  rcases exists_preloaded_silence with ⟨past, start, preloaded, file⟩
  obtain ⟨c, stored, frame, idle, input, parsed⟩ :=
    exists_delivered_frame .s16le (preloaded.idle file) [1, 0, 2, 0] rfl
  obtain ⟨silent, resumed, run, idle', filling, last⟩ := exists_silence .s16le idle
  obtain ⟨c', s, frame', -, input', parsed'⟩ :=
    exists_delivered_frame .s16le idle' [3, 0, 4, 0] rfl
  have whole := frame.append (run.append frame')
  have taken : reads ([.delivered [1, 0, 2, 0], .fread [1, 0, 2, 0], .call c] ++
      (([.fread []] ++ silent) ++ [.delivered [3, 0, 4, 0], .fread [3, 0, 4, 0], .call c'])) =
      [[1, 0, 2, 0], [], [3, 0, 4, 0]] := by
    simp only [reads_append, filling.reads]
    rfl
  have aligned := (read_loop_aligned_iff preloaded.loop.1 (by rw [file]) (by rw [file]) whole
    (by simp [filling.noClose])).mpr (by rw [taken]; decide)
  rw [file] at aligned
  refine ⟨start, _, s, whole, ?_, taken, ?_, ?_, aligned.1⟩
  · simp only [fills_append, last.fills_eq]
    rfl
  · simp only [delivered_append, filling.delivered]
    rfl
  · simp only [handed_append, filling.handed, handed_delivered_call input,
      handed_delivered_call input', parsed, parsed']
    decide

/-- The same bytes and three more, with an underrun behind the third: its bytes 3 to 6
are taken for the first frame. -/
theorem read_loop_misaligned : ∃ past start trace s,
    Preloaded .s16le past start ∧ start.file = ⟨[], false, false⟩ ∧
      Run (Main.Step .s16le) start trace s ∧ Event.closed ∉ trace ∧
      delivered trace = [1, 0, 2, 0, 3, 0, 4] ∧
      RaspdifFormat.s16le.frames (delivered trace) = [(1, 2)] ∧
      handed trace = [(0x300, 0x400)] := by
  rcases exists_preloaded_silence with ⟨past, start, preloaded, file⟩
  rcases preloaded.loop with ⟨pc, -⟩
  have inRing := preloaded.inRing
  let arrived : Main := { start with file := ⟨[1, 0, 2], false, false⟩ }
  have deliver : Main.Step .s16le start [.delivered [1, 0, 2]] arrived :=
    .deliver_empty file [1, 0, 2]
  obtain ⟨silent, resumed, run, idle, filling, -⟩ := exists_underrun
    .s16le (s := arrived) pc rfl (by decide) inRing preloaded.cursor.encoder
  obtain ⟨c, s, run', -, input, parsed⟩ :=
    exists_delivered_frame .s16le idle [0, 3, 0, 4] rfl
  have arrivals : delivered ([.delivered [1, 0, 2]] ++ ([.fread [1, 0, 2]] ++ silent ++
      [.delivered [0, 3, 0, 4], .fread [0, 3, 0, 4], .call c])) = [1, 0, 2, 0, 3, 0, 4] := by
    rw [delivered_append, delivered_append, delivered_append, filling.delivered]
    rfl
  refine ⟨past, start, _, s, preloaded, file, (Run.single deliver).append (run.append run'),
    ?_, arrivals, ?_, ?_⟩
  · simp [filling.noClose]
  · rw [arrivals]
    decide
  · rw [handed_append, handed_append, handed_append, filling.handed,
      handed_delivered_call input, parsed]
    decide

end Raspdif
