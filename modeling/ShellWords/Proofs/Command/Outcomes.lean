import ShellWords.Command.Run
import ShellWords.Proofs.Command.Arguments
import ShellWords.Proofs.Command.Asking
import ShellWords.Proofs.Report.Location
import ShellWords.Proofs.Unterminated

/-! How a run of the program ends. `Ends` lists the outcomes of an invocation with the conditions
under which they come about, from the configuration file through the standard input to the line and
its words, and `ends_iff` says that arguments which ask for the invocation lead to the one outcome
whose conditions hold. Asking for messages makes a difference to what the log shows and to nothing
else. -/

namespace ShellWords

/-! ### The diagnostic of an error -/

/-- Every error of a line has a diagnostic, since its span starts between two characters. -/
theorem diagnostic?_of_split_error {config : Config} {line : Text} {error : SplitError}
    (h : split config line = .error error) :
    ∃ diagnostic, error.diagnostic? line = some diagnostic := by
  obtain ⟨before, covered, rfl, hcovers⟩ := covers_of_split_error h
  simp [SplitError.diagnostic?, Span.diagnostic?, Span.locate?_append hcovers.min_start]

theorem SplitError.diagnostic_ne_nil {error : SplitError} {line diagnostic : Text}
    (h : error.diagnostic? line = some diagnostic) : diagnostic ≠ [] := by
  simp only [SplitError.diagnostic?, Span.diagnostic?, Option.bind_eq_bind,
    Option.bind_eq_some_iff, Option.pure_def, Option.some.injEq] at h
  obtain ⟨location, -, rfl⟩ := h
  simp

/-! ### The outcomes of an invocation -/

/-- What comes of asking for a configuration, with or without the path of a file: a configuration,
or the message that is printed instead. -/
inductive Loads (surroundings : Surroundings) : Option Text → Except Text Config → Prop where
  | default : Loads surroundings none (.ok {})
  | loaded {path text : Text} {bytes : ByteArray} {config : Config}
    (hfile : surroundings.file path = .ok bytes)
    (htext : Text.ofUtf8? bytes = some text) (hconfig : Config.ofTomlText? text = some config) :
    Loads surroundings (some path) (.ok config)
  | unreadable {path : Text} {error : ReadError} (hfile : surroundings.file path = .error error) :
    Loads surroundings (some path) (.error ("Error: failed to read config ".toList ++ path ++
      "\n  caused by: ".toList ++ error.message ++ ['\n']))
  | notUtf8 {path : Text} {bytes : ByteArray} (hfile : surroundings.file path = .ok bytes)
    (htext : Text.ofUtf8? bytes = none) :
    Loads surroundings (some path) (.error ("Error: failed to read config ".toList ++ path ++
      "\n  caused by: ".toList ++ "stream did not contain valid UTF-8".toList ++ ['\n']))
  | invalid {path text : Text} {bytes : ByteArray} (hfile : surroundings.file path = .ok bytes)
    (htext : Text.ofUtf8? bytes = some text) (hconfig : Config.ofTomlText? text = none) :
    Loads surroundings (some path) (.error ("Error: invalid config ".toList ++ path ++
      "\n  caused by: ".toList ++ surroundings.wording.explain text ++ ['\n']))

/-- A configuration with sections turned off by the options, and otherwise as it was loaded. -/
def Options.turnOff (options : Options) (config : Config) : Config where
  whitespace := config.whitespace
  quotes := config.quotes
  escapes := config.escapes
  escapedQuotes := config.escapedQuotes
  ansiC := if options.noAnsiC then false else config.ansiC
  locale := if options.noLocale then false else config.locale

/-- What the log shows if a configuration has been loaded and the command makes `entries`. -/
def Invocation.shown (invocation : Invocation) (surroundings : Surroundings) (config : Config)
    (entries : List LogEntry) : List LogEntry :=
  ((invocation.options.config.map LogEntry.loaded).toList ++
    LogEntry.configured (invocation.options.turnOff config) :: entries).filter
      (surroundings.shows invocation.options)

/-- The line to split is an operand, or else the standard input. -/
inductive ReadsLine (input : ByteArray) : Option Text → Text → Prop where
  | operand {line : Text} : ReadsLine input (some line) line
  | input {line : Text} (htext : Text.ofUtf8? input = some line) : ReadsLine input none line

/-- The ways in which a run can end. -/
inductive Ends (surroundings : Surroundings) (invocation : Invocation) : Outcome → Prop where
  | config {message : Text}
    (hload : Loads surroundings invocation.options.config (.error message)) :
    Ends surroundings invocation { code := 1, output := [], log := [], message }
  | input {config : Config}
    (hload : Loads surroundings invocation.options.config (.ok config))
    (hcommand : invocation.command = .split none)
    (htext : Text.ofUtf8? surroundings.input = none) :
    Ends surroundings invocation
      { code := 1
        output := []
        log := invocation.shown surroundings config []
        message := "Error: failed to read stdin\n  caused by: ".toList ++
          "stream did not contain valid UTF-8\n".toList }
  | malformed {config : Config} {operand : Option Text} {line diagnostic : Text}
    {error : SplitError}
    (hload : Loads surroundings invocation.options.config (.ok config))
    (hcommand : invocation.command = .split operand)
    (hline : ReadsLine surroundings.input operand line)
    (hsplit : ShellWords.split (invocation.options.turnOff config) line = .error error)
    (hdiagnostic : error.diagnostic? line = some diagnostic) :
    Ends surroundings invocation
      { code := 2
        output := []
        log := invocation.shown surroundings config
          ((trace (invocation.options.turnOff config) line).map .lexer)
        message := diagnostic ++ ['\n'] }
  | split {config : Config} {operand : Option Text} {line : Text} {words : List Text}
    (hload : Loads surroundings invocation.options.config (.ok config))
    (hcommand : invocation.command = .split operand)
    (hline : ReadsLine surroundings.input operand line)
    (hsplit : ShellWords.split (invocation.options.turnOff config) line = .ok words) :
    Ends surroundings invocation
      { code := 0
        output := (invocation.options.output.getD .text).formatWords words
        log := invocation.shown surroundings config
          ((trace (invocation.options.turnOff config) line).map .lexer ++
            [.splitInto words.length])
        message := [] }
  | quote {config : Config} {word : Text}
    (hload : Loads surroundings invocation.options.config (.ok config))
    (hcommand : invocation.command = .quote word) :
    Ends surroundings invocation
      { code := 0
        output := (invocation.options.output.getD .text).formatLine (ShellWords.quote word)
        log := invocation.shown surroundings config []
        message := [] }
  | join {config : Config} {words : List Text}
    (hload : Loads surroundings invocation.options.config (.ok config))
    (hcommand : invocation.command = .join words) :
    Ends surroundings invocation
      { code := 0
        output := (invocation.options.output.getD .text).formatLine (ShellWords.join words)
        log := invocation.shown surroundings config [.joining words.length]
        message := [] }

theorem Options.turnOff_eq_restrict (options : Options) (config : Config) :
    options.turnOff config = options.restrict config := by
  simp only [turnOff, restrict]
  cases options.noAnsiC <;> cases options.noLocale <;> simp

section Loading

variable {surroundings : Surroundings} {options : Options}

theorem loadConfig_of_loads {config : Config} (h : Loads surroundings options.config (.ok config)) :
    options.loadConfig surroundings = ⟨(options.config.map .loaded).toList, .ok config⟩ := by
  unfold Options.loadConfig
  generalize options.config = path? at h
  cases h with
  | default => rfl
  | loaded hfile htext hconfig =>
    simp only [loadFile, hfile, readText, htext, bind, Except.bind, hconfig]
    rfl

theorem loadConfig_of_loads_error {message : Text}
    (h : Loads surroundings options.config (.error message)) :
    ∃ failure, options.loadConfig surroundings = .fail failure ∧ failure.code = 1 ∧
      failure.report = message := by
  unfold Options.loadConfig
  generalize options.config = path? at h
  cases h with
  | @unreadable path error hfile =>
    refine ⟨.configUnreadable path error, ?_, rfl, rfl⟩
    simp only [loadFile, hfile, bind, Except.bind]
  | @notUtf8 path bytes hfile htext =>
    refine ⟨.configUnreadable path .notUtf8, ?_, rfl, rfl⟩
    simp only [loadFile, hfile, readText, htext, bind, Except.bind]
  | @invalid path text bytes hfile htext hconfig =>
    refine ⟨.configInvalid path (surroundings.wording.explain text), ?_, rfl, rfl⟩
    simp only [loadFile, hfile, readText, htext, bind, Except.bind, hconfig]

/-- Asking for a configuration always comes to something. -/
theorem exists_loads (surroundings : Surroundings) (path? : Option Text) :
    ∃ loaded, Loads surroundings path? loaded := by
  cases path? with
  | none => exact ⟨_, .default⟩
  | some path =>
    cases hfile : surroundings.file path with
    | error error => exact ⟨_, .unreadable hfile⟩
    | ok bytes =>
      cases htext : Text.ofUtf8? bytes with
      | none => exact ⟨_, .notUtf8 hfile htext⟩
      | some text =>
        cases hconfig : Config.ofTomlText? text with
        | none => exact ⟨_, .invalid hfile htext hconfig⟩
        | some config => exact ⟨_, .loaded hfile htext hconfig⟩

end Loading

section Ends

variable {surroundings : Surroundings} {invocation : Invocation} {arguments : List Text}

theorem runProgram_of_ok (harguments : Invocation.ofArguments arguments = .ok invocation)
    (surroundings : Surroundings) :
    runProgram surroundings arguments = invocation.outcome surroundings := by
  simp only [runProgram, harguments]

theorem outcome_of_result_ok {output : Text}
    (h : (invocation.run surroundings).result = .ok output) :
    invocation.outcome surroundings =
      { code := 0
        output
        log := (invocation.run surroundings).log.filter
          (surroundings.shows invocation.options) } := by
  simp only [Invocation.outcome, h]

theorem outcome_of_result_error {failure : Failure}
    (h : (invocation.run surroundings).result = .error failure) :
    invocation.outcome surroundings =
      { code := failure.code
        output := []
        log := (invocation.run surroundings).log.filter (surroundings.shows invocation.options)
        message := failure.report } := by
  simp only [Invocation.outcome, h]

theorem run_of_loads {config : Config}
    (hload : Loads surroundings invocation.options.config (.ok config)) {entries : List LogEntry}
    {result : Except Failure Text}
    (hexecute : invocation.execute (invocation.options.turnOff config) surroundings.input =
      ⟨entries, result⟩) :
    invocation.run surroundings =
      ⟨(invocation.options.config.map LogEntry.loaded).toList ++
        LogEntry.configured (invocation.options.turnOff config) :: entries, result⟩ := by
  have hloaded := congrArg Logged.result (loadConfig_of_loads hload)
  rw [Options.turnOff_eq_restrict] at hexecute ⊢
  rw [Invocation.run, Logged.bind_of_ok hloaded, loadConfig_of_loads hload]
  show Logged.mk (_ ++ (_ :: (invocation.execute _ _).log)) (invocation.execute _ _).result = _
  rw [hexecute]

theorem outcome_of_ok {config : Config}
    (hload : Loads surroundings invocation.options.config (.ok config)) {entries : List LogEntry}
    {output : Text}
    (hexecute : invocation.execute (invocation.options.turnOff config) surroundings.input =
      ⟨entries, .ok output⟩) :
    invocation.outcome surroundings =
      { code := 0, output, log := invocation.shown surroundings config entries } := by
  have hrun := run_of_loads hload hexecute
  rw [outcome_of_result_ok (congrArg Logged.result hrun), hrun]
  rfl

theorem outcome_of_error {config : Config}
    (hload : Loads surroundings invocation.options.config (.ok config)) {entries : List LogEntry}
    {failure : Failure}
    (hexecute : invocation.execute (invocation.options.turnOff config) surroundings.input =
      ⟨entries, .error failure⟩) :
    invocation.outcome surroundings =
      { code := failure.code
        output := []
        log := invocation.shown surroundings config entries
        message := failure.report } := by
  have hrun := run_of_loads hload hexecute
  rw [outcome_of_result_error (congrArg Logged.result hrun), hrun]
  rfl

theorem readLine_of_readsLine {operand : Option Text} {line : Text} {input : ByteArray}
    (hline : ReadsLine input operand line) : readLine operand input = pure line := by
  cases hline with
  | operand => rfl
  | input htext => simp only [readLine, readText, htext]

theorem execute_of_split_ok {config : Config} {operand : Option Text} {line : Text}
    {words : List Text} (hcommand : invocation.command = .split operand)
    (hline : ReadsLine surroundings.input operand line) (hsplit : split config line = .ok words) :
    invocation.execute config surroundings.input =
      ⟨(trace config line).map .lexer ++ [.splitInto words.length],
        .ok ((invocation.options.output.getD .text).formatWords words)⟩ := by
  have hwords : (splitLine config line).result = .ok words := by rw [splitLine, hsplit]
  simp only [Invocation.execute, hcommand, readLine_of_readsLine hline]
  show splitLine config line >>= _ = _
  rw [Logged.bind_of_ok hwords]
  rfl

theorem execute_of_split_error {config : Config} {operand : Option Text} {line diagnostic : Text}
    {error : SplitError} (hcommand : invocation.command = .split operand)
    (hline : ReadsLine surroundings.input operand line) (hsplit : split config line = .error error)
    (hdiagnostic : error.diagnostic? line = some diagnostic) :
    invocation.execute config surroundings.input =
      ⟨(trace config line).map .lexer, .error (.malformed diagnostic)⟩ := by
  have herror : (splitLine config line).result = .error (.malformed diagnostic) := by
    rw [splitLine, hsplit]
    simp only [hdiagnostic, Option.getD_some]
  simp only [Invocation.execute, hcommand, readLine_of_readsLine hline]
  show splitLine config line >>= _ = _
  rw [Logged.bind_of_error herror]
  rfl

/-- What is listed for an invocation is what comes of it. -/
theorem Ends.outcome_eq {outcome : Outcome} (h : Ends surroundings invocation outcome) :
    invocation.outcome surroundings = outcome := by
  cases h with
  | config hload =>
    obtain ⟨failure, hfailure, hcode, hreport⟩ := loadConfig_of_loads_error hload
    have hrun : invocation.run surroundings = .fail failure := by
      rw [Invocation.run, hfailure]
      rfl
    rw [outcome_of_result_error (congrArg Logged.result hrun), hrun, hcode, hreport]
    rfl
  | input hload hcommand htext =>
    have hexecute : ∀ config, invocation.execute config surroundings.input =
        ⟨[], .error (.inputUnreadable .notUtf8)⟩ := by
      intro config
      simp only [Invocation.execute, hcommand, readLine, readText, htext]
      rfl
    exact outcome_of_error hload (hexecute _)
  | malformed hload hcommand hline hsplit hdiagnostic =>
    rw [outcome_of_error hload (execute_of_split_error hcommand hline hsplit hdiagnostic)]
    have hreport : (Failure.malformed _).report = _ ++ ['\n'] :=
      if_neg (mt List.isEmpty_iff.1 (SplitError.diagnostic_ne_nil hdiagnostic))
    rw [hreport]
    rfl
  | split hload hcommand hline hsplit =>
    exact outcome_of_ok hload (execute_of_split_ok hcommand hline hsplit)
  | quote hload hcommand =>
    apply outcome_of_ok hload
    simp only [Invocation.execute, hcommand]
    rfl
  | join hload hcommand =>
    apply outcome_of_ok hload
    simp only [Invocation.execute, hcommand]
    rfl

/-- Some outcome is listed for every invocation. -/
theorem exists_ends (surroundings : Surroundings) (invocation : Invocation) :
    ∃ outcome, Ends surroundings invocation outcome := by
  obtain ⟨message | config, hload⟩ := exists_loads surroundings invocation.options.config
  · exact ⟨_, .config hload⟩
  · have hsplit : ∀ {operand line}, invocation.command = .split operand →
        ReadsLine surroundings.input operand line →
        ∃ outcome, Ends surroundings invocation outcome := by
      intro operand line hcommand hline
      cases hsplit : ShellWords.split (invocation.options.turnOff config) line with
      | ok words => exact ⟨_, .split hload hcommand hline hsplit⟩
      | error error =>
        obtain ⟨diagnostic, hdiagnostic⟩ := diagnostic?_of_split_error hsplit
        exact ⟨_, .malformed hload hcommand hline hsplit hdiagnostic⟩
    cases hcommand : invocation.command with
    | split operand =>
      cases operand with
      | some line => exact hsplit hcommand .operand
      | none =>
        cases htext : Text.ofUtf8? surroundings.input with
        | some line => exact hsplit hcommand (.input htext)
        | none => exact ⟨_, .input hload hcommand htext⟩
    | quote word => exact ⟨_, .quote hload hcommand⟩
    | join words => exact ⟨_, .join hload hcommand⟩

theorem ends_iff_outcome_eq {outcome : Outcome} :
    Ends surroundings invocation outcome ↔ invocation.outcome surroundings = outcome := by
  constructor
  · exact Ends.outcome_eq
  · rintro rfl
    obtain ⟨outcome, hends⟩ := exists_ends surroundings invocation
    rwa [hends.outcome_eq]

end Ends

/-! ### The messages asked for -/

/-- An outcome without what the log shows. -/
def Outcome.quiet (outcome : Outcome) : Outcome :=
  { outcome with log := [] }

section Quiet

variable {surroundings : Surroundings} {invocation invocation' : Invocation}

theorem run_quiet (h : invocation.quiet = invocation'.quiet) (surroundings : Surroundings) :
    invocation.run surroundings = invocation'.run surroundings := by
  -- the run of an invocation is by definition that of the quiet one
  show invocation.quiet.run surroundings = invocation'.quiet.run surroundings
  rw [h]

theorem outcome_quiet (h : invocation.quiet = invocation'.quiet) (surroundings : Surroundings) :
    (invocation.outcome surroundings).quiet = (invocation'.outcome surroundings).quiet := by
  simp only [Invocation.outcome, run_quiet h surroundings]
  cases (invocation'.run surroundings).result <;> rfl

theorem outcome_log (surroundings : Surroundings) (invocation : Invocation) :
    (invocation.outcome surroundings).log =
      (invocation.run surroundings).log.filter (surroundings.shows invocation.options) := by
  cases hresult : (invocation.run surroundings).result with
  | ok output => rw [outcome_of_result_ok hresult]
  | error failure => rw [outcome_of_result_error hresult]

theorem outcome_log_of_not_asked (hfilter : surroundings.filter? = none)
    (hverbosity : invocation.options.verbosity = 0) :
    (invocation.outcome surroundings).log = [] := by
  rw [outcome_log, Surroundings.shows, hfilter, hverbosity]
  exact List.filter_eq_nil_iff.2 fun entry _ => Bool.false_ne_true

end Quiet

theorem output_of_code_ne_zero {surroundings : Surroundings} {invocation : Invocation}
    (h : (invocation.outcome surroundings).code ≠ 0) :
    (invocation.outcome surroundings).output = [] := by
  cases hresult : (invocation.run surroundings).result with
  | ok output =>
    rw [outcome_of_result_ok hresult] at h
    exact absurd rfl h
  | error failure => rw [outcome_of_result_error hresult]

/-- Arguments that ask for an invocation have the one outcome that is listed for it. It writes no
output unless it succeeds. If nothing asks for messages, the error stream has the message of the
outcome alone; neither asking for them, in whatever form, nor a switch for them that is added where
a switch may stand makes a difference to the code, the output or that message. -/
theorem ends_iff {arguments : List Text} {invocation : Invocation}
    (harguments : Asks arguments invocation) (surroundings : Surroundings) :
    let outcome := runProgram surroundings arguments
    (∀ outcome', Ends surroundings invocation outcome' ↔ outcome = outcome') ∧
    (outcome.code ≠ 0 → outcome.output = []) ∧
    (surroundings.filter? = none → invocation.options.verbosity = 0 →
      outcome.report surroundings.wording = outcome.message) ∧
    (∀ arguments' invocation', Asks arguments' invocation' →
      invocation'.quiet = invocation.quiet →
      (runProgram surroundings arguments').quiet = outcome.quiet) ∧
    ∀ before after reader, arguments = before ++ after →
      before.foldlM ArgumentReader.read {} = .ok reader →
      reader.awaiting = none → reader.operandsOnly = false →
      ∀ argument ∈ ["-v".toList, "--verbose".toList],
        (runProgram surroundings (before ++ argument :: after)).quiet = outcome.quiet := by
  have hok := Invocation.ofArguments_eq_ok_iff.2 harguments
  intro outcome
  have houtcome : outcome = invocation.outcome surroundings := runProgram_of_ok hok surroundings
  rw [houtcome]
  refine ⟨fun outcome' => ends_iff_outcome_eq, output_of_code_ne_zero, ?_, ?_, ?_⟩
  · intro hfilter hverbosity
    rw [Outcome.report, outcome_log_of_not_asked hfilter hverbosity]
    rfl
  · intro arguments' invocation' harguments' hquiet
    rw [runProgram_of_ok (Invocation.ofArguments_eq_ok_iff.2 harguments')]
    exact outcome_quiet hquiet surroundings
  · rintro before after reader rfl hbefore hawaiting hoperands argument hargument
    have hverbose : (Invocation.ofArguments (before ++ argument :: after)).map Invocation.quiet =
        (Invocation.ofArguments (before ++ after)).map Invocation.quiet :=
      Invocation.ofArguments_verbose hbefore hawaiting hoperands hargument
    rw [hok] at hverbose
    cases hlouder : Invocation.ofArguments (before ++ argument :: after) with
    | error detour =>
      rw [hlouder] at hverbose
      cases hverbose
    | ok louder =>
      rw [hlouder] at hverbose
      rw [runProgram_of_ok hlouder]
      exact outcome_quiet (Except.ok.inj hverbose) surroundings

/-- A line with an open quote is refused with its diagnostic, after two lines of the log if messages
are asked for once. -/
theorem ends_iff_unclosed :
    let line := "a $'b".toList
    let arguments := ["split".toList, "--no-ansi-c".toList, line]
    let louder := ["split".toList, "-v".toList, "--no-ansi-c".toList, line]
    let error : SplitError := .unterminatedQuote '\'' ⟨3, 5⟩
    let wording : Wording :=
      ⟨fun _ => [], fun _ => [], fun _ => [], fun _ entry => entry.message ++ ['\n']⟩
    let surroundings : Surroundings :=
      { file := fun _ => .error .missing, input := .empty, wording }
    let outcome := runProgram surroundings arguments
    Asks arguments ⟨{ noAnsiC := true }, .split (some line)⟩ ∧
      Asks louder ⟨{ noAnsiC := true, verbosity := 1 }, .split (some line)⟩ ∧
      ∃ diagnostic, error.diagnostic? line = some diagnostic ∧
        outcome.code = 2 ∧ outcome.output = [] ∧ outcome.report wording = diagnostic ++ ['\n'] ∧
        (runProgram surroundings louder).quiet = outcome.quiet ∧
        (runProgram surroundings louder).report wording =
          "lexer configuration\nsplit failed\n".toList ++ diagnostic ++ ['\n'] := by
  intro line arguments louder error wording surroundings outcome
  have harguments : Asks arguments ⟨{ noAnsiC := true }, .split (some line)⟩ :=
    Invocation.ofArguments_eq_ok_iff.1 rfl
  have hlouder : Asks louder ⟨{ noAnsiC := true, verbosity := 1 }, .split (some line)⟩ :=
    Invocation.ofArguments_eq_ok_iff.1 rfl
  have hsplit : split { ansiC := false } line = .error error := rfl
  obtain ⟨diagnostic, hdiagnostic⟩ := diagnostic?_of_split_error hsplit
  obtain ⟨hiff, -, hquiet, -, hverbose⟩ := ends_iff harguments surroundings
  have houtcome := (hiff _).1 (.malformed .default rfl .operand hsplit hdiagnostic)
  have hloud := ((ends_iff hlouder surroundings).1 _).1
    (.malformed .default rfl .operand hsplit hdiagnostic)
  refine ⟨harguments, hlouder, diagnostic, hdiagnostic, ?_, ?_, ?_, ?_, ?_⟩
  · exact congrArg Outcome.code houtcome
  · exact congrArg Outcome.output houtcome
  · exact (hquiet rfl rfl).trans (congrArg Outcome.message houtcome)
  · exact hverbose ["split".toList] ["--no-ansi-c".toList, line] _ rfl rfl rfl rfl _
      List.mem_cons_self
  · have hlog : (runProgram surroundings louder).log =
        [.configured { ansiC := false }, .lexer (.splitFailed error line)] := by decide +kernel
    rw [Outcome.report, hlog, hloud]
    rfl

end ShellWords
