import ShellWords.Toml.Basic
import ShellWords.Toml.Lexical
import ShellWords.Toml.Moment
import ShellWords.Toml.Number

/-! Reading TOML documents: keys, values and statements, and the table that they define. -/

namespace ShellWords.Toml

open Reader

/-- Tables and arrays may be nested less deep than this, and keys have fewer parts. -/
def nestingLimit : Nat := 80

def isBareKeyChar (c : Char) : Bool :=
  c.isAlphanum || c == '_' || c == '-'

/-- A part of a key, with the blanks around it. -/
def keyPart : Reader Text :=
  blanks *> (basicString <|> literalString <|> takeWhile1 isBareKeyChar) <* blanks

def key : Reader Key := do
  let parts ← sepBy1 keyPart (char '.')
  guard (parts.length < nestingLimit)
  let some name := parts.getLast? | failure
  return ⟨parts.dropLast, name⟩

def scalar : Reader Value :=
  (Value.text <$> string) <|>
  (literal "true".toList *> pure (Value.boolean true)) <|>
  (literal "false".toList *> pure (Value.boolean false)) <|>
  (Value.moment <$> moment) <|>
  (Value.float <$> float) <|>
  (Value.integer <$> integer)

/-- An array, in which a comma may follow the last item. -/
def array (value : Reader Value) : Reader Value := do
  char '['
  let items ← sepBy (space *> value <* space) (char ',')
  if !items.isEmpty then
    char ',' <|> pure ()
  space
  char ']'
  return .array items

def pair (value : Reader Value) : Reader (Key × Value) := do
  let key ← key
  char '='
  blanks
  return (key, ← value)

def inlineTable (value : Reader Value) : Reader Value := do
  char '\x7b'
  let pairs ← sepBy (pair value <* blanks) (char ',')
  blanks
  char '\x7d'
  let some entries := Entries.ofPairs? pairs | failure
  return .table .inline entries

/-- A value whose parts are nested at most `depth` deep. -/
def value : (depth : Nat) → Reader Value
  | 0 => scalar
  | depth + 1 => scalar <|> array (value depth) <|> inlineTable (value depth)

def statement : Reader Statement :=
  (do
    literal ['[', '[']
    let key ← key
    literal [']', ']']
    trailing
    return .element key) <|>
  (do
    char '['
    let key ← key
    char ']'
    trailing
    return .table key) <|>
  (do
    let (key, value) ← pair (value (nestingLimit - 1))
    trailing
    return .pair key value)

/-- A line, with the blanks that start the next one. Many lines have no statement. -/
def line : Reader (Option Statement) :=
  ((comment *> lineEnd *> pure none) <|> (newline *> pure none) <|> (some <$> statement)) <* blanks

/-- The statements of a document, which may start with a byte order mark. -/
def document : Reader (List Statement) := do
  char '\uFEFF' <|> pure ()
  blanks
  let lines ← many line
  return lines.reduceOption

/-- The entries of the table that a document denotes. -/
def parse? (text : Text) : Option Entries :=
  (document.readAll? text).bind define?

end ShellWords.Toml
