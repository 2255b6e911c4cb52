import Mathlib.Data.List.InsertIdx
import Raspdif.Dma.Line

/-!
# From the input to the receiver

Without an underrun, and as long as the engine does not come to the buffer that the
program is filling, a receiver on the line has the samples of the input: one frame after
the other, with the one that the preload drops missing (`line_carries_input`).
-/

namespace Raspdif

open Trace

/-! ## What a receiver makes of the frames handed over -/

/-- The values of a frame of the input, left and right, in units of a 24-bit sample. -/
def RaspdifFormat.values (format : RaspdifFormat) (bytes : List UInt8) : List Int :=
  [format.scale * signedLittleEndian (bytes.take format.sampleSize),
    format.scale * signedLittleEndian (bytes.drop format.sampleSize)]

/-- The calls of `raspdif_buffer_samples` for frames of the input. -/
def RaspdifFormat.frameCalls (format : RaspdifFormat) (frames : List (List UInt8)) :
    List BufferCall :=
  frames.map fun bytes =>
    ⟨.zero, format, (format.parseFrame bytes).1, (format.parseFrame bytes).2⟩

theorem RaspdifFormat.value24_receivedFrom (format : RaspdifFormat) (count : Nat)
    {frames : List (List UInt8)} (whole : ∀ bytes ∈ frames, bytes.length = format.frameSize) :
    (receivedFrom count (format.frameCalls frames)).map ReceivedSubframe.value24 =
      frames.flatMap format.values := by
  induction frames generalizing count with
  | nil => rfl
  | cons bytes frames ih =>
      obtain ⟨long, rest⟩ := List.forall_mem_cons.mp whole
      unfold RaspdifFormat.frameSize at long
      have enough : format.sampleSize ≤ bytes.length := by omega
      have left := toInt_fields format enough
      have half : (bytes.drop format.sampleSize).length = format.sampleSize := by
        rw [List.length_drop]
        omega
      have right := toInt_fields format half.ge
      rw [List.take_of_length_le half.le] at right
      have later := ih (count + 1) rest
      rw [frameCalls] at later ⊢
      rw [List.map_cons, receivedFrom, List.map_cons, List.map_cons, later, List.flatMap_cons]
      exact congrArg₂ _ left (congrArg₂ _ right rfl)

/-- The frames that are to be made of them, on the line. -/
theorem RaspdifFormat.cells_encodedFrames (format : RaspdifFormat) (frames : List (List UInt8)) :
    (encodedFrames format (frames.map format.parseFrame)).flatMap RaspdifEntry.cells =
      halfCells (lineCalls 0 (format.frameCalls frames)) := by
  have entries : encodedFrames format (frames.map format.parseFrame) =
      Encoder.initial.entries (format.frameCalls frames) := by
    apply List.ext_getElem?
    intro n
    rw [Encoder.getElem?_entries EncoderAt.initial, encodedFrames, List.getElem?_mapIdx,
      frameCalls, List.getElem?_map, List.getElem?_map, Nat.zero_add]
    cases frames[n]? with
    | none => rfl
    | some bytes => rfl
  rw [entries, cells_entries EncoderAt.initial]

/-! ## The words in order -/

section

variable {setup : Setup} {allow : Main → Nat → Prop} {past trace events : List Event}
  {start : Main} {sys sys' : System} {live live' : Live} {lived more : List LiveEvent}

theorem HandOver.acts (handOver : HandOver setup trace sys.main)
    (acts : sys.Acts setup allow sys' events)
    (whole : ∀ copied ∈ reads events, copied.length = setup.format.frameSize) :
    HandOver setup (trace ++ events) sys'.main := by
  cases acts with
  | program _ _ step | deliver _ step | close step => exact handOver.step step whole
  | dma =>
      exact ⟨handOver.cursor.quiet rfl rfl rfl handOver.cursor.control, handOver.noEof,
        handOver.handed.quiet rfl rfl⟩

theorem Fed.acts {before : List UInt8} (fed : Fed before trace sys.main)
    (acts : sys.Acts setup allow sys' events) : Fed before (trace ++ events) sys'.main := by
  cases acts with
  | program _ _ step | deliver _ step | close step => exact fed.step step
  | dma => exact fed.quiet rfl rfl rfl

/-- A slot of the DMA's buffer holds its frame of those stored. -/
theorem Playback.stored_at (playback : Playback setup trace sys) {offset : Nat}
    (inBlock : offset < bufferWords) :
    ((calls trace).map Call.stored)[raspdifBufferSize * (visited trace).length + offset / 4]? =
      some ((sys.main.buffers sys.dma).sample (slotOf offset)) := by
  have inside : offset / 4 < raspdifBufferSize := by
    simp only [bufferWords, raspdifBufferSize] at *
    omega
  have current := congrArg (fun row : List RaspdifEntry => row[offset / 4]?) playback.current
  rw [List.getElem?_take_of_lt inside, List.getElem?_drop, RaspdifBuffer.frames,
    List.getElem?_ofFn, dif_pos inside] at current
  rw [← current]
  refine congrArg (fun p => some ((sys.main.buffers sys.dma).sample p)) (Fin.ext ?_)
  exact (Nat.mod_eq_of_lt inside).symm

/-- A run without a short read in which the engine keeps away from the program. -/
structure Live.Carries (setup : Setup) (past : List Event) (lived : List LiveEvent) (live : Live)
    (trace : List Event) (sys : System) : Prop where
  mirrors : live.Mirrors setup lived trace sys
  playback : Playback setup (past ++ trace) sys
  handOver : HandOver setup (past ++ trace) sys.main
  fed : Fed [] (past ++ trace) sys.main
  sent : transmitted lived <+:
    ((calls (past ++ trace)).map Call.stored).flatMap RaspdifEntry.words

theorem Live.Carries.of_preloaded (preloaded : Preloaded setup past start)
    (elsewhere : BitVec 32 → BitVec 32)
    (whole : ∀ copied ∈ reads past, copied.length = setup.format.frameSize) :
    Live.Carries setup past [] (Live.start setup elsewhere start) [] ⟨start, 0⟩ := by
  rcases preloaded.run with ⟨buffers, history⟩
  refine ⟨.start setup elsewhere start, ?_, ?_, ?_, List.nil_prefix⟩
  · rw [List.append_nil]
    exact .of_preloaded preloaded
  · rw [List.append_nil]
    exact .of_run history whole
  · rw [List.append_nil]
    exact .of_run history

theorem Live.Carries.step (noVisit : visited past = [])
    (carries : live.Carries setup past lived trace sys)
    (one : Live.Step setup NotDue live more live')
    (whole : ∀ copied ∈ reads (programEvents more), copied.length = setup.format.frameSize) :
    ∃ events sys', live'.Carries setup past (lived ++ more) (trace ++ events) sys' := by
  rcases carries.mirrors.step_cases one with
    ⟨silent, events, sys', step, mirrors⟩ | ⟨offset, inBlock, count, copied, mirrors⟩
  · have acts := step.acts carries.playback.circling.inRing
    have same : programEvents more = stays events := by
      have both := mirrors.events
      rw [stays_append, programEvents_append, carries.mirrors.events] at both
      exact (List.append_cancel_left both).symm
    rw [same, reads_stays] at whole
    refine ⟨events, sys', mirrors, ?_, ?_, ?_, ?_⟩
    · rw [← List.append_assoc]
      exact carries.playback.step step whole
    · rw [← List.append_assoc]
      exact carries.handOver.acts acts whole
    · rw [← List.append_assoc]
      exact carries.fed.acts acts
    · rw [transmitted_append, silent, List.append_nil, ← List.append_assoc, calls_append,
        List.map_append, List.flatMap_append]
      exact carries.sent.trans (List.prefix_append _ _)
  · refine ⟨[], sys, by rwa [List.append_nil], ?_, ?_, ?_, ?_⟩
    · rw [List.append_nil]
      exact carries.playback
    · rw [List.append_nil]
      exact carries.handOver
    · rw [List.append_nil]
      exact carries.fed
    · have at_ := carries.playback.stored_at inBlock
      rw [visited_append, noVisit, List.nil_append] at at_
      have frame : (transmitted lived).length / 4 =
          raspdifBufferSize * (visited trace).length + offset / 4 := by
        rw [count]
        simp only [bufferWords, raspdifBufferSize]
        omega
      have word : (transmitted lived).length % 4 = offset % 4 := by
        rw [count]
        simp only [bufferWords, raspdifBufferSize]
        omega
      rw [transmitted_append, copied, List.append_nil]
      refine prefix_concat carries.sent ?_
      rw [getElem?_flatMap_words, frame, word, at_, Option.bind_some]
      exact words_slotOf inBlock sys.main.buffers

theorem Live.Carries.of_run (preloaded : Preloaded setup past start)
    {elsewhere : BitVec 32 → BitVec 32}
    (run : Run (Live.Step setup NotDue) (Live.start setup elsewhere start) lived live)
    (whole : ∀ copied ∈ reads (past ++ programEvents lived),
      copied.length = setup.format.frameSize) :
    ∃ trace sys, live.Carries setup past lived trace sys := by
  rw [reads_append, List.forall_mem_append] at whole
  rcases whole with ⟨before, whole⟩
  induction run with
  | nil => exact ⟨[], _, .of_preloaded preloaded elsewhere before⟩
  | snoc _ one ih =>
      rw [programEvents_append, reads_append, List.forall_mem_append] at whole
      rcases ih whole.1 with ⟨trace, sys, carries⟩
      obtain ⟨events, sys', carries'⟩ := carries.step preloaded.visited_eq one whole.2
      exact ⟨trace ++ events, sys', carries'⟩

theorem Live.Carries.reads_eq (carries : live.Carries setup past lived trace sys) :
    reads (past ++ programEvents lived) = reads (past ++ trace) := by
  rw [← carries.mirrors.events, reads_append, reads_stays, reads_append]

/-- What was read and what is pending is the input. -/
theorem Live.Carries.taken (carries : live.Carries setup past lived trace sys) :
    (reads (past ++ programEvents lived)).flatten ++ live.main.file.pending =
      delivered (past ++ programEvents lived) := by
  have arrived : delivered (past ++ programEvents lived) = delivered (past ++ trace) := by
    rw [← carries.mirrors.events, delivered_append, delivered_stays, delivered_append]
  rw [carries.reads_eq, arrived, ← carries.mirrors.main]
  exact carries.fed

/-- What a receiver has of the frames read. -/
theorem Live.Carries.received (carries : live.Carries setup past lived trace sys)
    (whole : ∀ copied ∈ reads (past ++ trace), copied.length = setup.format.frameSize)
    {subframes : Nat} (enough : 2 * subframes ≤ (transmitted lived).length) : ∃ received,
      receive (cellsOf ((transmitted lived).take (2 * subframes))) = some received ∧
      received.length = subframes ∧
      received.map ReceivedSubframe.value24 =
        (((reads (past ++ trace)).eraseIdx ringSize).flatMap setup.format.values).take
          subframes := by
  have kept : ∀ bytes ∈ (reads (past ++ trace)).eraseIdx ringSize,
      bytes.length = setup.format.frameSize := fun bytes member =>
    whole bytes (List.mem_of_mem_eraseIdx member)
  have sent : cellsOf (transmitted lived) <+:
      halfCells (lineCalls 0 (setup.format.frameCalls
        ((reads (past ++ trace)).eraseIdx ringSize))) := by
    have row := cellsOf_prefix carries.sent
    rwa [cellsOf_flatMap_words, carries.handOver.cursor.map_stored carries.playback.input,
      carries.handOver.handed_eq_eraseIdx, List.eraseIdx_map,
      setup.format.cells_encodedFrames] at row
  have heard : 64 * subframes ≤ (cellsOf (transmitted lived)).length := by
    rw [length_cellsOf]
    omega
  obtain ⟨decoded, count⟩ := receive_take sent heard
  rw [← take_cellsOf, show 32 * (2 * subframes) = 64 * subframes by omega]
  refine ⟨_, decoded, by rw [List.length_map, count], ?_⟩
  rw [List.map_take, map_received_lineCalls, List.map_take,
    setup.format.value24_receivedFrom 0 kept]

end

/-- **From the input to the receiver.**  In every run from a complete preload on in which
no read comes up short and the engine never loads the buffer that the program is to fill,
what was read and what is pending is the input; and after any number of subframes a
receiver on the line has the samples of the frames read, in order, without frame 6144. -/
theorem line_carries_input {setup : Setup} {past : List Event} {start : Main}
    (preloaded : Preloaded setup past start) {elsewhere : BitVec 32 → BitVec 32}
    {lived : List LiveEvent} {live : Live}
    (run : Run (Live.Step setup NotDue) (Live.start setup elsewhere start) lived live)
    (whole : ∀ copied ∈ reads (past ++ programEvents lived),
      copied.length = setup.format.frameSize) :
    (reads (past ++ programEvents lived)).flatten ++ live.main.file.pending =
        delivered (past ++ programEvents lived) ∧
      ∀ subframes, 2 * subframes ≤ (transmitted lived).length → ∃ received,
        receive (cellsOf ((transmitted lived).take (2 * subframes))) = some received ∧
        received.length = subframes ∧
        received.map ReceivedSubframe.value24 =
          (((reads (past ++ programEvents lived)).eraseIdx ringSize).flatMap
            setup.format.values).take subframes := by
  obtain ⟨trace, sys, carries⟩ := Live.Carries.of_run preloaded run whole
  refine ⟨carries.taken, fun subframes enough => ?_⟩
  rw [carries.reads_eq] at whole ⊢
  exact carries.received whole enough

/-- The engine has sent buffer 0 and is at buffer 1 when the program stores a frame. -/
theorem line_carries_input_first_buffer : ∃ past start lived live received,
    Preloaded .s16le past start ∧
      Run (Live.Step .s16le NotDue) (Live.start .s16le (fun _ => 0) start) lived live ∧
      receive (cellsOf ((transmitted lived).take (2 * 4096))) = some received ∧
      received.map ReceivedSubframe.value24 =
        (((reads (past ++ programEvents lived)).eraseIdx ringSize).flatMap
          RaspdifFormat.s16le.values).take 4096 := by
  obtain ⟨past, start, preloaded, -, file, -, before⟩ :=
    exists_preloaded .s16le silence length_silence.ge
  have empty : silence.drop (Setup.s16le.format.frameSize * (ringSize + 1)) = [] :=
    List.drop_of_length_le length_silence.le
  rw [empty] at file
  rcases preloaded.loop with ⟨pc, index⟩
  have notDue : NotDue start 1 := by
    unfold NotDue
    rw [index]
    exact one_ne_zero
  obtain ⟨c, main, run, -⟩ := System.exists_move_readFrame NotDue pc index file notDue
  obtain ⟨lived, live, run', mirrors⟩ := System.exists_live (fun _ => 0) run
  have whole : ∀ copied ∈ reads (past ++ programEvents lived),
      copied.length = RaspdifFormat.s16le.frameSize := by
    rw [reads_append, List.forall_mem_append, ← mirrors.events, reads_stays]
    exact ⟨before, List.forall_mem_singleton.mpr rfl⟩
  have enough : 2 * 4096 ≤ (transmitted lived).length := by
    rcases mirrors.place with ⟨offset, -, -, count⟩
    rw [count]
    exact Nat.le_add_right _ offset
  obtain ⟨-, sent⟩ := line_carries_input preloaded run' whole
  obtain ⟨received, decoded, -, values⟩ := sent 4096 enough
  exact ⟨past, start, lived, live, received, preloaded, run', decoded, values⟩

end Raspdif
