import ShellWords.Lexer.State

/-! Splitting a whole line. `run` gives the words of a line together with the error that ends them,
if there is one, and `split` gives all of the words or the error alone. -/

namespace ShellWords

/-- All that comes of reading a line: words, and then perhaps an error. -/
structure Run where
  words : List Text
  error? : Option SplitError := none
deriving DecidableEq, Repr

def Run.result (run : Run) : Except SplitError (List Text) :=
  match run.error? with
  | some error => .error error
  | none => .ok run.words

structure Progress where
  pos : Nat := 0
  state : State := {}
  /-- The completed words, the last one first. -/
  words : List Text := []
deriving DecidableEq, Repr

namespace Progress

def read (config : Config) (progress : Progress) (c : Char) : Progress :=
  let step := progress.state.step config progress.pos c
  { pos := progress.pos + c.utf8Size
    state := step.state
    words := step.word?.toList ++ progress.words }

def readAll (config : Config) (progress : Progress) (text : Text) : Progress :=
  text.foldl (read config) progress

/-- What comes of the reading if the line ends here. -/
def finish (progress : Progress) : Run :=
  match progress.state.finish progress.pos with
  | .ok last => { words := (last.toList ++ progress.words).reverse }
  | .error error => { words := progress.words.reverse, error? := some error }

end Progress

def run (config : Config) (line : Text) : Run :=
  (Progress.readAll config {} line).finish

/-- Splits a line into its words, all or nothing. -/
def split (config : Config) (line : Text) : Except SplitError (List Text) :=
  (run config line).result

theorem Progress.readAll_append (config : Config) (progress : Progress) (a b : Text) :
    progress.readAll config (a ++ b) = (progress.readAll config a).readAll config b :=
  List.foldl_append

end ShellWords
