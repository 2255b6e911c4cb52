import Raspdif.Process.Signals

/-!
# The options

`parse_opt`, called by `argp_parse` for one option after the other.  In the rest of the process
`argp_parse` is one call that may be answered with any arguments; here is what the answer is
(`main_of_options`).
-/

namespace Raspdif.Process

open Interaction Program Trace

/-! ## Parser -/

/-- `error_t`, as far as `parse_opt` returns it. -/
inductive ErrorT
  | success
  | einval
  | argpErrUnknown
  deriving DecidableEq, Repr

/-- `parse_opt`.  `strtod` reads the rate; a key without an argument has any. -/
def parseOpt (strtod : String → ℚ) (key : Char) (arg : String) (arguments : RaspdifArguments) :
    Prog (ErrorT × RaspdifArguments) :=
  match key with
  | 'f' =>
      if arg = "s16le" then pure (.success, { arguments with format := .s16le })
      else if arg = "s24le" then pure (.success, { arguments with format := .s24le })
      else do
        logPrint .fatal
        pure (.einval, arguments)
  | 'i' => pure (.success, { arguments with file := some arg })
  | 'r' => pure (.success, { arguments with sampleRate := strtod arg })
  | 'v' => pure (.success, { arguments with verbose := true })
  | 'k' => pure (.success, { arguments with keepAlive := false })
  | 'd' => pure (.success, { arguments with pcmDisable := true })
  | _ => pure (.argpErrUnknown, arguments)

/-- `argp_parse` on these options, from left to right; behind them it may end the process
itself, as for `--help`. -/
def argpParse (strtod : String → ℚ) (ends : Bool) :
    List (Char × String) → RaspdifArguments → Prog RaspdifArguments
  | [], arguments => if ends then .exit else pure arguments
  | (key, arg) :: options, arguments => do
      let (error, arguments) ← parseOpt strtod key arg arguments
      if error = .success then argpParse strtod ends options arguments else pure arguments

/-- `main` with the options that `argp` finds. -/
def mainFrom (strtod : String → ℚ) (ends : Bool) (options : List (Char × String)) (rounds : Nat) :
    Prog Unit := do
  let arguments ← argpParse strtod ends options .default
  registerSignalHandler
  mainRegistered rounds arguments

/-! ## What the options say -/

/-- The options that `argp` is told of. -/
def declaredKeys : List Char := ['i', 'r', 'f', 'k', 'd', 'v']

/-- A format is one of the two. -/
def Recognised (option : Char × String) : Prop :=
  option.1 = 'f' → option.2 = "s16le" ∨ option.2 = "s24le"

instance (option : Char × String) : Decidable (Recognised option) :=
  inferInstanceAs (Decidable (_ → _))

/-- The argument of the last option with this key. -/
def lastArg (options : List (Char × String)) (key : Char) : Option String :=
  ((options.filter (·.1 = key)).getLast?).map Prod.snd

def hasKey (options : List (Char × String)) (key : Char) : Bool := options.any (·.1 = key)

/-- Every option speaks for its own field, and the last one is heard. -/
def chosenArguments (strtod : String → ℚ) (options : List (Char × String)) : RaspdifArguments where
  file := lastArg options 'i'
  verbose := hasKey options 'v'
  keepAlive := !hasKey options 'k'
  pcmDisable := hasKey options 'd'
  sampleRate := ((lastArg options 'r').map strtod).getD 44100
  format := if lastArg options 'f' = some "s24le" then .s24le else .s16le

theorem lastArg_concat (options : List (Char × String)) (key key' : Char) (arg : String) :
    lastArg (options ++ [(key, arg)]) key' =
      if key = key' then some arg else lastArg options key' := by
  unfold lastArg
  rw [List.filter_append]
  by_cases same : key = key'
  · simp [same]
  · simp [same]

theorem hasKey_concat (options : List (Char × String)) (key key' : Char) (arg : String) :
    hasKey (options ++ [(key, arg)]) key' = (hasKey options key' || decide (key = key')) := by
  simp [hasKey]

theorem silent_fatal (g : Globals) : (logPrint .fatal).Silent none g := by
  have least : ¬ LogLevel.fatal.code < g.minLevel.code := by
    cases g.minLevel <;> decide
  change Program.Silent _ (if _ then _ else _) g
  rw [if_neg least]
  rfl

/-- One option. -/
theorem parseOpt_eq (strtod : String → ℚ) (options : List (Char × String)) {key : Char}
    (declared : key ∈ declaredKeys) (arg : String) :
    (Recognised (key, arg) ∧ parseOpt strtod key arg (chosenArguments strtod options) =
        pure (.success, chosenArguments strtod (options ++ [(key, arg)]))) ∨
      (¬ Recognised (key, arg) ∧ parseOpt strtod key arg (chosenArguments strtod options) =
        logPrint .fatal >>= fun _ => pure (.einval, chosenArguments strtod options)) := by
  simp only [declaredKeys, List.mem_cons, List.not_mem_nil, or_false] at declared
  rcases declared with rfl | rfl | rfl | rfl | rfl | rfl
  -- The format may be refused, the others may not.
  case inr.inr.inl =>
    by_cases first : arg = "s16le"
    · subst first
      refine Or.inl ⟨fun _ => Or.inl rfl, ?_⟩
      simp [parseOpt, chosenArguments, lastArg_concat, hasKey_concat]
    · by_cases second : arg = "s24le"
      · subst second
        refine Or.inl ⟨fun _ => Or.inr rfl, ?_⟩
        simp [parseOpt, chosenArguments, lastArg_concat, hasKey_concat]
      · refine Or.inr ⟨fun known => (known rfl).elim first second, ?_⟩
        simp [parseOpt, first, second]
  all_goals
    refine Or.inl ⟨fun format => absurd format (by simp), ?_⟩
    simp [parseOpt, chosenArguments, lastArg_concat, hasKey_concat]

theorem silent_argpParse (strtod : String → ℚ) (ends : Bool) {options : List (Char × String)}
    (declared : ∀ option ∈ options, option.1 ∈ declaredKeys) (before : List (Char × String))
    (g : Globals) :
    (argpParse strtod ends options (chosenArguments strtod before)).Silent
      (if ends = false ∧ ∀ option ∈ options, Recognised option then
        some (chosenArguments strtod (before ++ options)) else none) g := by
  induction options generalizing before with
  | nil =>
      rw [argpParse, List.append_nil]
      cases ends with
      | true => rfl
      | false =>
          rw [if_neg Bool.false_ne_true, if_pos ⟨rfl, List.forall_mem_nil _⟩]
          rfl
  | cons option options ih =>
      obtain ⟨key, arg⟩ := option
      obtain ⟨here, later⟩ := List.forall_mem_cons.mp declared
      rw [argpParse]
      simp only [List.forall_mem_cons]
      rcases parseOpt_eq strtod before here arg with ⟨known, parsed⟩ | ⟨unknown, parsed⟩
      · have rest := ih later (before ++ [(key, arg)])
        rw [List.append_assoc] at rest
        simp only [known, true_and]
        rw [parsed]
        exact rest
      · rw [if_neg fun both => unknown both.2.1, parsed]
        exact (silent_fatal g).bind_none.bind_none

/-- **Options.**  For any options, in any order and number: what the program with its option
parser does from its first call on is what `main` does with the arguments that the last option
of each kind says; with an unrecognised format it calls nothing. -/
theorem main_of_options {strtod : String → ℚ} {ends : Bool} {options : List (Char × String)}
    (declared : ∀ option ∈ options, option.1 ∈ declaredKeys) {rounds : Nat} {trace : List EnvEvent}
    (called : trace ≠ []) {last : Point Globals environment Unit} :
    Run Point.Step ⟨Globals.initial, mainFrom strtod ends options rounds⟩ trace last ↔
      (ends = false ∧ ∀ option ∈ options, Recognised option) ∧
        Run Point.Step ⟨Globals.initial, main rounds⟩
          (⟨.argpParse, some (chosenArguments strtod options)⟩ :: trace) last := by
  have silent := silent_argpParse strtod ends declared [] Globals.initial
  constructor
  · intro run
    rcases silent.run run with ⟨early, -⟩ | ⟨arguments, chosen, later⟩
    · exact absurd early called
    · split at chosen
      case isFalse => cases chosen
      case isTrue known =>
        obtain rfl := Option.some.inj chosen
        have one : Point.Step ⟨Globals.initial, main rounds⟩
            [⟨.argpParse, some (chosenArguments strtod options)⟩]
            ⟨Globals.initial, registerSignalHandler >>= fun _ =>
              mainRegistered rounds (chosenArguments strtod options)⟩ :=
          .call (I := environment) EnvCall.argpParse _ (some (chosenArguments strtod options))
        exact ⟨known, (Run.single one).append later⟩
  · rintro ⟨known, run⟩
    rw [if_pos known] at silent
    exact (silent.exists_run _).append (Point.run_call run)

/-- Both formats are given, and the last one is heard. -/
theorem main_of_options_twice : ∃ trace last, trace ≠ [] ∧
    Run Point.Step ⟨Globals.initial, main 0⟩
      (⟨.argpParse, some ⟨none, false, false, false, 48000, .s16le⟩⟩ :: trace) last := by
  have run := Program.run_exec (I := environment) granting
    (mainFrom (fun _ => 48000) false [('f', "s24le"), ('r', "48e3"), ('k', ""), ('f', "s16le")] 0)
    Globals.initial
  have called : ((mainFrom (fun _ => 48000) false
      [('f', "s24le"), ('r', "48e3"), ('k', ""), ('f', "s16le")] 0).exec granting
        Globals.initial).1 ≠ [] := by decide +kernel
  have behind := ((main_of_options (by decide) called).mp run).2
  exact ⟨_, _, called, behind⟩

end Raspdif.Process
