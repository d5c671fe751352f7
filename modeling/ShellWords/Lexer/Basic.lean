import ShellWords.Lexer.Run

/-! Splitting a line word by word. A `Lexer` reads no further than each word takes, and gives
nothing more after the last word or the first error. -/

namespace ShellWords

/-- What a lexer gives: a word, or the error that ends the line. -/
abbrev Item := Except SplitError Text

structure Lexer where
  config : Config
  rest : Text
  /-- The offset of that part in the line. -/
  pos : Nat := 0
  state : State := {}
  /-- Whether the end of the words, or an error, has been given. -/
  finished : Bool := false
deriving DecidableEq, Repr

namespace Lexer

def ofText (config : Config) (line : Text) : Lexer :=
  { config, rest := line }

def close (lexer : Lexer) : Lexer :=
  { lexer with rest := [], finished := true }

/-- Reads on from a state and an offset to the end of a word or of the line. -/
def scan (config : Config) (state : State) (pos : Nat) : Text → Option Item × Lexer
  | [] =>
    let lexer := { config, rest := [], pos, state := { state with region := .gap } }
    match state.finish pos with
    | .ok (some last) => (some (.ok last), lexer)
    | .ok none => (none, lexer.close)
    | .error error => (some (.error error), lexer.close)
  | c :: rest =>
    let step := state.step config pos c
    match step.word? with
    | some word =>
      (some (.ok word), { config, rest, pos := pos + c.utf8Size, state := step.state })
    | none => scan config step.state (pos + c.utf8Size) rest

/-- The next item and the lexer after it. A finished lexer stays as it is. -/
def next (lexer : Lexer) : Option Item × Lexer :=
  if lexer.finished then (none, lexer) else scan lexer.config lexer.state lexer.pos lexer.rest

/-- The first `n` items and the lexer after them. -/
def take (lexer : Lexer) : Nat → List (Option Item) × Lexer
  | 0 => ([], lexer)
  | n + 1 =>
    let (item, lexer) := lexer.next
    let (items, lexer) := lexer.take n
    (item :: items, lexer)

/-- All words that are left, or the error if it is still to come. -/
def remaining (lexer : Lexer) : Except SplitError (List Text) :=
  if lexer.finished then .ok []
  else
    let progress : Progress := { pos := lexer.pos, state := lexer.state }
    (progress.readAll lexer.config lexer.rest).finish.result

end Lexer

end ShellWords
