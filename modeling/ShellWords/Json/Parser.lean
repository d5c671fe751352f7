import ShellWords.Json.Basic
import ShellWords.Text.Reader

/-! Reading JSON. The grammar is the strict one: no comments, no trailing commas, no digits that a
number does not need, and no control characters in strings. -/

namespace ShellWords.Json

open Reader

def blanks : Reader Unit := do
  let _ ← takeWhile fun c => c == ' ' || c == '\t' || c == '\n' || c == '\r'

/-- A part of a string as it is written. -/
inductive StringPart where
  /-- A character, or an escape by a letter. -/
  | char (c : Char)
  /-- An escape by a UTF-16 code unit. -/
  | unit (code : Nat)
deriving DecidableEq, Repr

def escapeLetter? : Char → Option Char
  | '"' => some '"'
  | '\\' => some '\\'
  | '/' => some '/'
  | 'b' => some '\x08'
  | 'f' => some '\x0c'
  | 'n' => some '\n'
  | 'r' => some '\r'
  | 't' => some '\t'
  | _ => none

def stringPart : Reader StringPart
  | '\\' :: 'u' :: rest => (digits 16 4 rest).map fun (code, rest) => (.unit code, rest)
  | '\\' :: c :: rest => (escapeLetter? c).map fun c => (.char c, rest)
  | c :: rest => if c = '\\' ∨ c = '"' ∨ c.toNat < 32 then none else some (.char c, rest)
  | [] => none

def isHighSurrogate (code : Nat) : Bool :=
  0xd800 ≤ code && code < 0xdc00

def ofSurrogates? (high low : Nat) : Option Char :=
  if 0xdc00 ≤ low ∧ low < 0xe000 then
    Text.charOfCode? (0x10000 + (high - 0xd800) * 0x400 + (low - 0xdc00))
  else
    none

/-- The text that the parts of a string make, if no surrogate stands alone. -/
def ofStringParts : List StringPart → Option Text
  | [] => some []
  | .char c :: parts => (ofStringParts parts).map (c :: ·)
  | .unit code :: .unit low :: parts =>
    if isHighSurrogate code then
      (ofSurrogates? code low).bind fun c => (ofStringParts parts).map (c :: ·)
    else
      (Text.charOfCode? code).bind fun c => (ofStringParts (.unit low :: parts)).map (c :: ·)
  | .unit code :: parts =>
    (Text.charOfCode? code).bind fun c => (ofStringParts parts).map (c :: ·)

def stringText : Reader (Option Text) := do
  char '"'
  let parts ← many stringPart
  char '"'
  return ofStringParts parts

def digitRun : Reader Text :=
  takeWhile1 Char.isDigit

/-- The whole part of a number, which does not start with a zero unless it is zero. -/
def wholePart : Reader Text :=
  (char '0' *> pure ['0']) <|> digitRun

def fraction : Reader Text := do
  char '.'
  return '.' :: (← digitRun)

def exponent : Reader Text := do
  let letter ← satisfy fun c => c == 'e' || c == 'E'
  let sign ← takeSign <|> pure []
  return letter :: sign ++ (← digitRun)
where
  takeSign : Reader Text := do
    return [← satisfy fun c => c == '+' || c == '-']

def numberLiteral : Reader Text := do
  let minus ← (char '-' *> pure ['-']) <|> pure []
  let whole ← wholePart
  let fraction ← fraction <|> pure []
  let exponent ← exponent <|> pure []
  return minus ++ whole ++ fraction ++ exponent

/-- A value whose parts are nested less than `depth` deep. -/
def value : (depth : Nat) → Reader Json
  | 0 => failure
  | depth + 1 => do
    blanks
    let value ←
      (literal "null".toList *> pure null) <|>
      (literal "true".toList *> pure (bool true)) <|>
      (literal "false".toList *> pure (bool false)) <|>
      (string <$> stringText) <|>
      (number <$> numberLiteral) <|>
      (array <$> (char '[' *> sepBy (value depth) (char ',') <* blanks <* char ']')) <|>
      (object <$> (char '\x7b' *> sepBy (member (value depth)) (char ',') <* blanks <* char '\x7d'))
    blanks
    return value
where
  member (value : Reader Json) : Reader (Option Text × Json) := do
    blanks
    let name ← stringText
    blanks
    char ':'
    return (name, ← value)

/-- The value that a text denotes. Each level of nesting takes a character of its own, so the
length of the text bounds the depth. -/
def parse? (text : Text) : Option Json :=
  (value (text.length + 1)).readAll? text

end ShellWords.Json
