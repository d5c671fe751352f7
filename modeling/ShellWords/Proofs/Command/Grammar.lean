import ShellWords.Command.Arguments

/-! What the arguments of the command line ask for, as a grammar. Its rules say how switches, their
values, words and the name of a command are written, and what options these come to. -/

namespace ShellWords

/-- What a switch asks for. -/
inductive Wish where
  | output (format : OutputFormat)
  | config (path : Text)
  | noAnsiC
  | noLocale
  | verbose
deriving DecidableEq

namespace Wish

def switch : Wish → Switch
  | output _ => .output
  | config _ => .config
  | noAnsiC => .noAnsiC
  | noLocale => .noLocale
  | verbose => .verbose

def format? : Wish → Option OutputFormat
  | output format => some format
  | _ => none

def path? : Wish → Option Text
  | config path => some path
  | _ => none

/-- In one place every switch stands once at most, apart from the one for messages. -/
def Once (wishes : List Wish) : Prop :=
  wishes.Pairwise fun wish other => wish.switch = other.switch → wish = .verbose

end Wish

/-- The options that come of what is asked for before the name of the command and after it. -/
structure Options.Meets (options : Options) (before after : List Wish) : Prop where
  output : options.output = ((before ++ after).filterMap Wish.format?).getLast?
  config : options.config = ((before ++ after).filterMap Wish.path?).getLast?
  noAnsiC : options.noAnsiC = true ↔ .noAnsiC ∈ before ++ after
  noLocale : options.noLocale = true ↔ .noLocale ∈ before ++ after
  verbosity : options.verbosity =
    if .verbose ∈ after then after.count .verbose else before.count .verbose

/-! ### Switches -/

/-- A value of a switch, and what it asks for. -/
inductive Valued : Switch → Text → Wish → Prop where
  | text : Valued .output "text".toList (.output .text)
  | json : Valued .output "json".toList (.output .json)
  | path {path : Text} (hpath : path ≠ []) : Valued .config path (.config path)

/-- Letters of switches, what they ask for, and the switch that takes the next argument for its
value, if there is one. -/
inductive Letters : Text → List Wish → Option Switch → Prop where
  | done : Letters [] [] none
  | verbose {letters : Text} {wishes : List Wish} {awaiting : Option Switch}
    (hletters : Letters letters wishes awaiting) :
    Letters ('v' :: letters) (.verbose :: wishes) awaiting
  | output : Letters ['o'] [] (some .output)
  | outputOn {value : Text} {wish : Wish} (hvalue : Valued .output value wish) :
    Letters ('o' :: value) [wish] none
  | outputIs {value : Text} {wish : Wish} (hvalue : Valued .output value wish) :
    Letters ('o' :: '=' :: value) [wish] none

/-- A long name of a switch, perhaps with a value. -/
inductive LongName : Text → List Wish → Option Switch → Prop where
  | noAnsiC : LongName "no-ansi-c".toList [.noAnsiC] none
  | noLocale : LongName "no-locale".toList [.noLocale] none
  | verbose : LongName "verbose".toList [.verbose] none
  | output : LongName "output".toList [] (some .output)
  | config : LongName "config".toList [] (some .config)
  | outputIs {value : Text} {wish : Wish} (hvalue : Valued .output value wish) :
    LongName ("output=".toList ++ value) [wish] none
  | configIs {value : Text} {wish : Wish} (hvalue : Valued .config value wish) :
    LongName ("config=".toList ++ value) [wish] none

/-- An argument that is made of switches. -/
inductive Switches : Text → List Wish → Option Switch → Prop where
  | letters {letters : Text} {wishes : List Wish} {awaiting : Option Switch}
    (hne : letters ≠ []) (hletters : Letters letters wishes awaiting) :
    Switches ('-' :: letters) wishes awaiting
  | long {name : Text} {wishes : List Wish} {awaiting : Option Switch}
    (hname : LongName name wishes awaiting) : Switches ('-' :: '-' :: name) wishes awaiting

/-! ### Words -/

/-- The long names that every command knows. -/
def longNames : List Text :=
  ["output", "config", "no-ansi-c", "no-locale", "verbose", "help"].map String.toList

/-- An argument that names switches which every command knows, whatever their values are. -/
inductive Familiar : Text → Prop where
  | separator : Familiar "--".toList
  | long {name : Text} (hname : name ∈ longNames) : Familiar ('-' :: '-' :: name)
  | longIs {name value : Text} (hname : name ∈ longNames) :
    Familiar ('-' :: '-' :: name ++ '=' :: value)
  | letters {letters : Text} (hletters : ∀ letter ∈ letters, letter ∈ ['o', 'v', 'h']) :
    Familiar ('-' :: letters)

/-- An argument that can be a word or a value: one without a hyphen in front, a lone hyphen, and for
`join` also one that names an unknown switch. -/
inductive Wordlike (scope : Scope) : Text → Prop where
  | empty : Wordlike scope []
  | plain {c : Char} {text : Text} (hc : c ≠ '-') : Wordlike scope (c :: text)
  | hyphen : Wordlike scope ['-']
  | unfamiliar {text : Text} (hscope : scope = .join) (htext : ¬ Familiar text) :
    Wordlike scope text

/-- The arguments on one side of the name of a command, what they ask for, and the words among them.
A switch may be waiting for its value. -/
inductive Asked (scope : Scope) : Option Switch → List Text → List Wish → List Text → Prop where
  | done : Asked scope none [] [] []
  | switches {argument : Text} {awaiting : Option Switch} {arguments words : List Text}
    {wishes others : List Wish}
    (hargument : Switches argument wishes awaiting) (hword : ¬ Wordlike scope argument)
    (hrest : Asked scope awaiting arguments others words) :
    Asked scope none (argument :: arguments) (wishes ++ others) words
  | value {switch : Switch} {value : Text} {wish : Wish} {arguments words : List Text}
    {wishes : List Wish}
    (hvalue : Valued switch value wish) (hword : Wordlike scope value)
    (hrest : Asked scope none arguments wishes words) :
    Asked scope (some switch) (value :: arguments) (wish :: wishes) words
  | word {word : Text} {arguments words : List Text} {wishes : List Wish}
    (hscope : scope = .split ∨ scope = .quote) (hword : Wordlike scope word)
    (hrest : Asked scope none arguments wishes words) :
    Asked scope none (word :: arguments) wishes (word :: words)
  /-- From the first word of `join` on everything is a word. -/
  | join {word : Text} {words : List Text} (hscope : scope = .join) (hword : Wordlike scope word) :
    Asked scope none (word :: words) [] (word :: words)
  /-- Everything after two hyphens is a word. -/
  | separator {words : List Text} (hscope : scope ≠ .program) :
    Asked scope none ("--".toList :: words) [] words

/-! ### Commands -/

inductive Scope.Named : Scope → Text → Prop where
  | split : Named .split "split".toList
  | quote : Named .quote "quote".toList
  | join : Named .join "join".toList

/-- The words that a command takes. -/
inductive Command.Takes : Scope → List Text → Command → Prop where
  | input : Takes .split [] (.split none)
  | line {line : Text} : Takes .split [line] (.split (some line))
  | word {word : Text} : Takes .quote [word] (.quote word)
  | words {words : List Text} : Takes .join words (.join words)

/-- Arguments that ask for an invocation. -/
inductive Asks : List Text → Invocation → Prop where
  | intro {front rest words : List Text} {before after : List Wish} {scope : Scope} {name : Text}
    {options : Options} {command : Command}
    (hfront : Asked .program none front before []) (hname : scope.Named name)
    (hrest : Asked scope none rest after words)
    (hbefore : Wish.Once before) (hafter : Wish.Once after)
    (hoptions : options.Meets before after) (hcommand : Command.Takes scope words command) :
    Asks (front ++ name :: rest) ⟨options, command⟩

end ShellWords
