import ShellWords.Text.Digit

/-! Readers of structured text. A reader takes a value from the front of a text, or refuses the
text; `p <|> q` lets `q` read the same text when `p` refuses it. -/

namespace ShellWords

/-- Takes a value from the front of a text and leaves the rest. -/
abbrev Reader := StateT Text Option

namespace Reader

variable {α β : Type}

/-- The value that a reader makes of a whole text. -/
def readAll? (reader : Reader α) (text : Text) : Option α :=
  match reader text with
  | some (a, []) => some a
  | _ => none

def satisfy (p : Char → Bool) : Reader Char
  | [] => none
  | c :: rest => if p c then some (c, rest) else none

def char (c : Char) : Reader Unit
  | [] => none
  | d :: rest => if d = c then some ((), rest) else none

def literal (literal : Text) : Reader Unit := fun text =>
  if literal.isPrefixOf text then some ((), text.drop literal.length) else none

/-- The longest run of characters that satisfy `p`, perhaps none. -/
def takeWhile (p : Char → Bool) : Reader Text := fun text =>
  some (text.span p)

def takeWhile1 (p : Char → Bool) : Reader Text := do
  let taken ← takeWhile p
  guard (!taken.isEmpty)
  return taken

def atEnd : Reader Unit
  | [] => some ((), [])
  | _ :: _ => none

/-- Nothing, and only where the next character does not satisfy `p`. -/
def notBefore (p : Char → Bool) : Reader Unit
  | [] => some ((), [])
  | c :: rest => if p c then none else some ((), c :: rest)

/-- Nothing, and only where `reader` accepts what comes next. -/
def peek (reader : Reader α) : Reader Unit := fun text =>
  (reader text).map fun _ => ((), text)

/-- The characters that `reader` takes, in place of its value. -/
def taken (reader : Reader α) : Reader Text := fun text =>
  (reader text).map fun (_, rest) => (text.take (text.length - rest.length), rest)

/-- Reads on until `reader` refuses, at most as often as `fuel` has characters. -/
def manyOnto (reader : Reader α) : (fuel : Text) → (values : List α) → Reader (List α)
  | [], values, text => some (values.reverse, text)
  | _ :: fuel, values, text =>
    match reader text with
    | some (a, rest) => manyOnto reader fuel (a :: values) rest
    | none => some (values.reverse, text)

/-- As many values as there are. A value takes at least a character, so there are no more of them
than characters. -/
def many (reader : Reader α) : Reader (List α) := fun text =>
  manyOnto reader text [] text

/-- At least one value, with a separator between each two. -/
def sepBy1 (reader : Reader α) (separator : Reader β) : Reader (List α) := do
  let first ← reader
  let others ← many (separator *> reader)
  return first :: others

def sepBy (reader : Reader α) (separator : Reader β) : Reader (List α) :=
  sepBy1 reader separator <|> pure []

/-- Exactly `n` digits of a base, as a number. -/
def digits (base n : Nat) : Reader Nat := fun text =>
  let values := text.take n |>.filterMap (Text.digit? base)
  if values.length = n then some (Text.ofDigits base values, text.drop n) else none

end Reader

end ShellWords
