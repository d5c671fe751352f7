import ShellWords.Command.Output

/-! The arguments of the command line. An invocation names a command; options may stand before the
name and after it. `Invocation.ofArguments` reads the arguments one by one and refuses all that do
not make sense. -/

namespace ShellWords

/-- What one may ask for besides the operands of a command. -/
inductive Switch where
  /-- The form of the output, which is the value of the switch. -/
  | output
  /-- The configuration file, whose path is the value of the switch. -/
  | config
  | noAnsiC
  | noLocale
  | verbose
  | help
  | version
deriving DecidableEq, Repr

/-- The options given in one place, before the name of the command or after it. -/
structure Options where
  output : Option OutputFormat := none
  config : Option Text := none
  noAnsiC : Bool := false
  noLocale : Bool := false
  /-- How often more messages have been asked for. -/
  verbosity : Nat := 0
deriving DecidableEq, Repr

inductive Command where
  | split (line : Option Text)
  | quote (word : Text)
  | join (words : List Text)
deriving DecidableEq, Repr

structure Invocation where
  options : Options
  command : Command
deriving DecidableEq, Repr

/-- Why the arguments do not lead to a command. -/
inductive Detour where
  | usage
  | help
  | version
deriving DecidableEq, Repr

/-- What the arguments belong to. -/
inductive Scope where
  | program
  | split
  | quote
  | join
  | help
deriving DecidableEq, Repr

namespace Scope

def ofName? (name : Text) : Option Scope :=
  [("split", split), ("quote", quote), ("join", join), ("help", help)].lookup (String.ofList name)

end Scope

namespace Switch

def takesValue : Switch → Bool
  | output => true
  | config => true
  | _ => false

/-- The switch with a long name; the version belongs to no command. -/
def ofLong? (scope : Scope) (name : Text) : Option Switch :=
  let switch? := [("output", output), ("config", config), ("no-ansi-c", noAnsiC),
    ("no-locale", noLocale), ("verbose", verbose), ("help", help),
    ("version", version)].lookup (String.ofList name)
  switch?.filter fun switch => switch ≠ version ∨ scope = .program

def ofLetter? (scope : Scope) : Char → Option Switch
  | 'o' => some output
  | 'v' => some verbose
  | 'h' => some help
  | 'V' => if scope = .program then some version else none
  | _ => none

end Switch

namespace Options

/-- Turns a switch without value on. Only the asking for messages may be repeated. -/
def turnOn (options : Options) : Switch → Except Detour Options
  | .noAnsiC => if options.noAnsiC then .error .usage else .ok { options with noAnsiC := true }
  | .noLocale => if options.noLocale then .error .usage else .ok { options with noLocale := true }
  | .verbose => .ok { options with verbosity := options.verbosity + 1 }
  | .help => .error .help
  | .version => .error .version
  | .output => .error .usage
  | .config => .error .usage

def setValue (options : Options) (switch : Switch) (value : Text) : Except Detour Options :=
  match switch, options.output, options.config, OutputFormat.ofName? value with
  | .output, none, _, some format => .ok { options with output := some format }
  | .config, _, none, _ =>
    if value.isEmpty then .error .usage else .ok { options with config := some value }
  | _, _, _, _ => .error .usage

/-- Options before and after the name of a command. Of two values the later one counts, and if
messages are asked for after the name, then only what is asked there. -/
def merge (before after : Options) : Options where
  output := after.output <|> before.output
  config := after.config <|> before.config
  noAnsiC := before.noAnsiC || after.noAnsiC
  noLocale := before.noLocale || after.noLocale
  verbosity := if after.verbosity = 0 then before.verbosity else after.verbosity

end Options

/-- How far the reading of the arguments has come. -/
structure ArgumentReader where
  scope : Scope := .program
  before : Options := {}
  options : Options := {}
  awaiting : Option Switch := none
  operandsOnly : Bool := false
  /-- The operands, the last one first. -/
  operands : List Text := []
deriving DecidableEq, Repr

namespace ArgumentReader

/-- Whether an argument has the form of a switch; a lone hyphen has not. -/
def isHyphened : Text → Bool
  | '-' :: _ :: _ => true
  | _ => false

/-- Whether all switches that a hyphened argument names exist. -/
def isKnown (scope : Scope) : Text → Bool
  | ['-', '-'] => true
  | '-' :: '-' :: name => (Switch.ofLong? scope (name.takeWhile (· ≠ '='))).isSome
  | '-' :: letters => letters.all fun letter => (Switch.ofLetter? scope letter).isSome
  | _ => false

/-- Whether an argument is an operand in spite of its hyphen. Only `join` takes such operands. -/
def isHyphenedOperand (scope : Scope) (argument : Text) : Bool :=
  scope == .join && !isKnown scope argument

/-- Reads a long switch, whose value may follow an equals sign. -/
def readLong (reader : ArgumentReader) (argument : Text) : Except Detour ArgumentReader := do
  let (name, value) := argument.span (· ≠ '=')
  match Switch.ofLong? reader.scope name, value with
  | none, _ => throw .usage
  | some switch, [] =>
    if switch.takesValue then return { reader with awaiting := some switch }
    else return { reader with options := ← reader.options.turnOn switch }
  | some switch, _ :: value =>
    return { reader with options := ← reader.options.setValue switch value }

/-- Reads letters of switches after one hyphen. A switch with a value takes all letters after it,
an equals sign between them not counted, or else the next argument. -/
def readLetters (reader : ArgumentReader) : Text → Except Detour ArgumentReader
  | [] => .ok reader
  | letter :: letters => do
    let some switch := Switch.ofLetter? reader.scope letter | throw .usage
    if switch.takesValue then
      match letters with
      | [] => return { reader with awaiting := some switch }
      | '=' :: value => return { reader with options := ← reader.options.setValue switch value }
      | value => return { reader with options := ← reader.options.setValue switch value }
    else
      let options ← reader.options.turnOn switch
      { reader with options }.readLetters letters

/-- Reads an operand. The first one of the program is the name of a command, and from the first one
of `join` on all arguments are operands. -/
def readOperand (reader : ArgumentReader) (argument : Text) : Except Detour ArgumentReader :=
  let operands := argument :: reader.operands
  match reader.scope with
  | .program =>
    match Scope.ofName? argument with
    | some scope => .ok { scope, before := reader.options, operandsOnly := scope == .help }
    | none => .error .usage
  | .join => .ok { reader with operands, operandsOnly := true }
  | .help => .ok { reader with operands }
  | .split => if reader.operands.isEmpty then .ok { reader with operands } else .error .usage
  | .quote => if reader.operands.isEmpty then .ok { reader with operands } else .error .usage

def read (reader : ArgumentReader) (argument : Text) : Except Detour ArgumentReader :=
  match reader.awaiting with
  | some switch =>
    if isHyphened argument && !isHyphenedOperand reader.scope argument then .error .usage
    else do
      let options ← reader.options.setValue switch argument
      return { reader with options, awaiting := none }
  | none =>
    if reader.operandsOnly || !isHyphened argument || isHyphenedOperand reader.scope argument then
      reader.readOperand argument
    else
      match argument with
      | ['-', '-'] =>
        if reader.scope = .program then .error .usage else .ok { reader with operandsOnly := true }
      | '-' :: '-' :: name => reader.readLong name
      | _ => reader.readLetters argument.tail

def finish (reader : ArgumentReader) : Except Detour Invocation :=
  let options := reader.before.merge reader.options
  match reader.awaiting, reader.scope, reader.operands with
  | some _, _, _ => .error .usage
  | none, .split, [] => .ok { options, command := .split none }
  | none, .split, [line] => .ok { options, command := .split (some line) }
  | none, .quote, [word] => .ok { options, command := .quote word }
  | none, .join, operands => .ok { options, command := .join operands.reverse }
  | none, .help, [] => .error .help
  | none, .help, [topic] => .error (if (Scope.ofName? topic).isSome then .help else .usage)
  | none, _, _ => .error .usage

end ArgumentReader

namespace Invocation

def ofArguments (arguments : List Text) : Except Detour Invocation := do
  (← arguments.foldlM ArgumentReader.read {}).finish

end Invocation

end ShellWords
