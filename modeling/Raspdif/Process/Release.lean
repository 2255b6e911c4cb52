import Raspdif.Process.Contract

/-!
# Failures that release what was acquired

Every run of `main` that ends without a signal.  The cleanup behind the allocation of the
block is never reached by the failures that call `LOGF` first: `memory_map_physical` ends
the process itself, and `raspdif_init` and `main` do so on a failed lock and a failed
`fopen`.  `failures_release_iff` says that these are all that leave something behind.
-/

namespace Raspdif.Process

open Interaction Trace

/-! ## What fails -/

/-- The call fails; an allocation fails for the program when its handle is negative. -/
def EnvCall.Fails : (call : EnvCall) → call.Answer → Prop
  | .openMem, file => file = -1
  | .openVcio _, mbox => mbox < 0
  | .mmap _ _, address => address = none
  | .openInput _, opened => opened = false
  | .ioctl (.allocateMemory _ _ _), reply => reply.Granted ∧ reply.value.toInt < 0
  | .ioctl (.lockMemory _), reply => ¬ reply.Granted ∨ reply.value = 0
  | _, _ => False

/-- No call fails once a block is allocated. -/
def NothingFails (trace : List EnvEvent) : Prop :=
  AtEach (fun before e _ => e.op.Fails e.answer → (ledger (before ++ [e])).granted = []) trace

theorem ledger_append_singleton (trace : List EnvEvent) (e : EnvEvent) :
    ledger (trace ++ [e]) = (ledger trace).after e := by
  rw [ledger, List.foldl_append]
  rfl

/-- A failure is noted when there is a block. -/
theorem Ledger.after_failed (l : Ledger) (e : EnvEvent) :
    (l.after e).failed = false ↔
      l.failed = false ∧ (e.op.Fails e.answer → (l.after e).granted = []) := by
  obtain ⟨call, answer⟩ := e
  change (l.answered call answer).failed = false ↔
    l.failed = false ∧ (call.Fails answer → (l.answered call answer).granted = [])
  have noted (P : Prop) [Decidable P] : (if P then l.fail else l).failed = false ↔
      l.failed = false ∧ (P → (if P then l.fail else l).granted = []) := by
    split <;> simp [Ledger.fail, *]
  cases call with
  | openMem | openVcio | mmap => exact noted _
  | openInput =>
    cases answer <;> simp [Ledger.answered, EnvCall.Fails, Ledger.fail]
  | ioctl message =>
      cases message with
      | allocateMemory =>
          rw [EnvCall.Fails, Ledger.answered]
          split <;> simp [BitVec.msb_eq_toInt, *]
      | lockMemory =>
          rw [EnvCall.Fails, Ledger.answered]
          split
          case isTrue granted =>
            dsimp only
            split
            case isTrue null => simp [Ledger.fail, null]
            case isFalse some =>
              exact ⟨fun ok => ⟨ok, fun fails => fails.elim (absurd granted) (absurd · some)⟩,
                And.left⟩
          case isFalse refused => simp [Ledger.fail, refused]
      | unlockMemory | releaseMemory =>
          simp only [Ledger.answered]
          split <;> simp [EnvCall.Fails, Ledger.stray]
  | dma channel store =>
      cases store with
      | csActive enable => cases enable <;> simp [Ledger.answered, EnvCall.Fails]
      | _ => simp [Ledger.answered, EnvCall.Fails]
  | writeClockControl =>
      simp only [Ledger.answered]
      split <;> simp [EnvCall.Fails]
  | _ => simp [Ledger.answered, EnvCall.Fails]

theorem failed_ledger (trace : List EnvEvent) :
    (ledger trace).failed = false ↔ NothingFails trace := by
  induction trace using List.reverseRecOn with
  | nil => simp [ledger, Ledger.empty, NothingFails]
  | append_singleton trace e ih =>
      rw [ledger_append_singleton, Ledger.after_failed, ih, NothingFails, NothingFails,
        atEach_append, atEach_cons, List.append_nil, ledger_append_singleton]
      constructor
      · intro noted
        exact ⟨noted.1, noted.2, atEach_nil⟩
      · intro each
        exact ⟨each.1, each.2.1⟩

/-! ## What is released -/

/-- **Failures release what was acquired** exactly when none comes behind the allocation. -/
theorem failures_release_iff {rounds : Nat} {trace : List EnvEvent}
    {last : Point Globals environment Unit}
    (run : Run Point.Step ⟨Globals.initial, main rounds⟩ trace last)
    (ends : last.rest.ended = true) (firmware : ∀ e ∈ trace, Promised e) :
    (ledger trace).Clean ↔ NothingFails trace := by
  have met := fresh_initial.meets_main.run run firmware
  have settled : (ledger trace).Settled :=
    met.ended ends (P := fun l _ => l.Settled) (fun _ _ settled => settled)
      fun _ _ _ returned => returned.2
  rw [← failed_ledger]
  exact ⟨settled.failed, fun ok => (settled.freed ok).clean⟩

/-! ## Runs -/

/-- The defaults of `main`. -/
def RaspdifArguments.default : RaspdifArguments where
  file := none
  verbose := false
  keepAlive := true
  pcmDisable := false
  sampleRate := 44100
  format := .s16le

/-- An environment where all goes well but, maybe, the lock; the input is empty. -/
def answers (lock : MailboxReply) : (call : EnvCall) → call.Answer
  | .argpParse => some .default
  | .bcmHostIsModelPi4 => false
  | .bcmHostGetPeripheralAddress => 0x3F000000
  | .bcmHostGetPeripheralSize => 0x01000000
  | .bcmHostGetSdramAddress => 0xC0000000
  | .openMem => 3
  | .mmap _ _ => some 0x76000000
  | .close => 0
  | .sysconfPageSize => 4096
  | .openVcio _ => 3
  | .ioctl (.allocateMemory _ _ _) => ⟨0, 0x80000000, 0x80000004, 7⟩
  | .ioctl (.lockMemory _) => lock
  | .ioctl (.unlockMemory _) | .ioctl (.releaseMemory _) => ⟨0, 0x80000000, 0x80000004, 0⟩
  | .readClockControl => 0
  | .openInput _ => true
  | .outside => ⟨[], true, ⟨0, 0, 0⟩⟩
  | .undefinedConversion => 0
  | .sigaction _ | .nanosleep _ | .writeClockControl _ | .writeClockDivisor _ | .clockIdle | .pcm _
  | .pcmSynced _ | .dma _ _ | .gpioConfigureMask _ _ | .fcntl | .poll | .raspdifInit _
  | .raspdifShutdown => ()

/-- The run of `main` whose lock is answered like this. -/
def runWith (lock : MailboxReply) : List EnvEvent × Point Globals environment Unit :=
  (main 4).exec (answers lock) Globals.initial

theorem runWith_run (lock : MailboxReply) :
    Run Point.Step ⟨Globals.initial, main 4⟩ (runWith lock).1 (runWith lock).2 :=
  Program.run_exec (I := environment) (answers lock) (main 4) Globals.initial

theorem ledger_runWith_locked :
    ledger (runWith ⟨0, 0x80000000, 0x80000004, 0xC4000000⟩).1 =
      { Ledger.idle (some 13) with
        granted := [7]
        locked := [7]
        unlocks := [7]
        releases := [7]
        disabled := [13]
        shutdown := true } := by decide +kernel

theorem ledger_runWith_refused :
    ledger (runWith ⟨0, 0x80000001, 0, 0⟩).1 =
      { Ledger.idle (some 13) with
        granted := [7]
        failed := true } := by decide +kernel

/-- The input is empty and nothing fails. -/
theorem failures_release_empty_input :
    ∃ trace last, Run Point.Step ⟨Globals.initial, main 4⟩ trace last ∧
      (ledger trace).granted = [7] ∧ NothingFails trace := by
  have run := runWith_run ⟨0, 0x80000000, 0x80000004, 0xC4000000⟩
  refine ⟨_, _, run, ?_, (failures_release_iff run (by decide +kernel) (by decide +kernel)).mp ?_⟩
  · rw [ledger_runWith_locked]
  · rw [ledger_runWith_locked]
    decide +kernel

/-- The firmware refuses the lock, and the block is left behind. -/
theorem failed_lock_leaks :
    ∃ trace last, Run Point.Step ⟨Globals.initial, main 4⟩ trace last ∧ last.rest.ended = true ∧
      (∀ e ∈ trace, Promised e) ∧ (ledger trace).granted = [7] ∧ (ledger trace).releases = [] ∧
      ¬ (ledger trace).Clean := by
  refine ⟨_, _, runWith_run ⟨0, 0x80000001, 0, 0⟩, by decide +kernel, by decide +kernel, ?_⟩
  rw [ledger_runWith_refused]
  decide +kernel

end Raspdif.Process
