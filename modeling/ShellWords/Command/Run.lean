import ShellWords.Command.Arguments
import ShellWords.Command.Log
import ShellWords.Config.Document
import ShellWords.Quoting
import ShellWords.Report
import ShellWords.Text.Utf8

/-! What the commands do, given the files and the standard input that they may read. A run fails in
the first of its steps that fails: loading the configuration, reading the line, splitting it. -/

namespace ShellWords

/-- Why a text cannot be read from a file or a stream. -/
inductive ReadError where
  | missing
  | notUtf8
  /-- Any other reason that the system gives. -/
  | other (reason : Text)
deriving DecidableEq, Repr

namespace ReadError

def message : ReadError → Text
  | missing => "No such file or directory (os error 2)".toList
  | notUtf8 => "stream did not contain valid UTF-8".toList
  | other reason => reason

end ReadError

/-- Why a command fails. -/
inductive Failure where
  | configUnreadable (path : Text) (error : ReadError)
  /-- The file holds no configuration, for the reason that the reader of TOML gives. -/
  | configInvalid (path reason : Text)
  | inputUnreadable (error : ReadError)
  /-- The line cannot be split, as the diagnostic explains. -/
  | malformed (diagnostic : Text)
deriving DecidableEq, Repr

namespace Failure

def code : Failure → Nat
  | malformed _ => 2
  | _ => 1

/-- A failure and what has caused it. -/
def causedBy (headline cause : Text) : Text :=
  "Error: ".toList ++ headline ++ "\n  caused by: ".toList ++ cause

/-- A malformed line is explained by its diagnostic alone. -/
def message : Failure → Text
  | configUnreadable path error =>
    causedBy ("failed to read config ".toList ++ path) error.message
  | configInvalid path reason => causedBy ("invalid config ".toList ++ path) reason
  | inputUnreadable error => causedBy "failed to read stdin".toList error.message
  | malformed diagnostic => diagnostic

/-- The message as it is printed; an empty one prints nothing. -/
def report (failure : Failure) : Text :=
  if failure.message.isEmpty then [] else failure.message ++ ['\n']

end Failure

/-- The texts that a run takes from the readers of its arguments and of TOML, and from the log. -/
structure Wording where
  /-- What is said of arguments that ask for help. -/
  help : List Text → Text
  /-- What is said of arguments that make no sense. -/
  usage : List Text → Text
  /-- Why a text is no configuration. -/
  explain : Text → Text
  /-- The line that shows an entry of the log, which others of the given number precede. -/
  logLine : Nat → LogEntry → Text

structure Surroundings where
  file : Text → Except ReadError ByteArray
  input : ByteArray
  wording : Wording
  /-- What the log shows, if the environment has a say in it. -/
  filter? : Option (LogEntry → Bool) := none

def Surroundings.shows (surroundings : Surroundings) (options : Options) : LogEntry → Bool :=
  surroundings.filter?.getD fun entry => entry.level.isShown options.verbosity

/-- What can be seen of a run. -/
structure Outcome where
  code : Nat
  output : Text
  /-- What the log shows. -/
  log : List LogEntry := []
  /-- What the error stream says after the log. -/
  message : Text := []
deriving DecidableEq, Repr

/-- All that a run writes to the error stream. -/
def Outcome.report (outcome : Outcome) (wording : Wording) : Text :=
  (outcome.log.zipIdx.flatMap fun (entry, number) => wording.logLine number entry) ++
    outcome.message

def readText (bytes : ByteArray) : Except ReadError Text :=
  match Text.ofUtf8? bytes with
  | some text => .ok text
  | none => .error .notUtf8

/-- Loads a configuration file, a TOML document. -/
def loadFile (surroundings : Surroundings) (path : Text) : Logged Failure Config :=
  match surroundings.file path >>= readText with
  | .error error => .fail (.configUnreadable path error)
  | .ok text =>
    match Config.ofTomlText? text with
    | none => .fail (.configInvalid path (surroundings.wording.explain text))
    | some config => do
      .tell (.loaded path)
      return config

namespace Options

def loadConfig (options : Options) (surroundings : Surroundings) : Logged Failure Config :=
  match options.config with
  | some path => loadFile surroundings path
  | none => pure {}

/-- Turns the sections off that the options forbid. -/
def restrict (options : Options) (config : Config) : Config :=
  { config with
    ansiC := config.ansiC && !options.noAnsiC
    locale := config.locale && !options.noLocale }

end Options

/-- The line to split is an operand, or else the standard input. -/
def readLine (operand : Option Text) (input : ByteArray) : Logged Failure Text :=
  match operand with
  | some line => pure line
  | none =>
    match readText input with
    | .ok line => pure line
    | .error error => .fail (.inputUnreadable error)

def splitLine (config : Config) (line : Text) : Logged Failure (List Text) where
  log := (trace config line).map .lexer
  result :=
    match split config line with
    | .ok words => .ok words
    | .error error => .error (.malformed ((error.diagnostic? line).getD error.message))

namespace Invocation

def readsInput (invocation : Invocation) : Bool :=
  invocation.command == .split none

def execute (invocation : Invocation) (config : Config) (input : ByteArray) :
    Logged Failure Text :=
  let format := invocation.options.output.getD .text
  match invocation.command with
  | .split operand => do
    let line ← readLine operand input
    let words ← splitLine config line
    .tell (.splitInto words.length)
    return format.formatWords words
  | .quote word => return format.formatLine (ShellWords.quote word)
  | .join words => do
    .tell (.joining words.length)
    return format.formatLine (ShellWords.join words)

def run (invocation : Invocation) (surroundings : Surroundings) : Logged Failure Text := do
  let loaded ← invocation.options.loadConfig surroundings
  let config := invocation.options.restrict loaded
  .tell (.configured config)
  invocation.execute config surroundings.input

def outcome (invocation : Invocation) (surroundings : Surroundings) : Outcome :=
  let run := invocation.run surroundings
  let log := run.log.filter (surroundings.shows invocation.options)
  match run.result with
  | .ok output => { code := 0, output, log }
  | .error failure => { code := failure.code, output := [], log, message := failure.report }

end Invocation

def versionLine : Text :=
  "shellsplit 0.1.0\n".toList

def runProgram (surroundings : Surroundings) (arguments : List Text) : Outcome :=
  match Invocation.ofArguments arguments with
  | .error .usage => { code := 2, output := [], message := surroundings.wording.usage arguments }
  | .error .help => { code := 0, output := surroundings.wording.help arguments }
  | .error .version => { code := 0, output := versionLine }
  | .ok invocation => invocation.outcome surroundings

end ShellWords
