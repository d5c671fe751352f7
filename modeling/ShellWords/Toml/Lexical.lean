import ShellWords.Text.Reader

/-! The characters of TOML documents: blanks, line ends, comments and the four kinds of string. -/

namespace ShellWords.Toml

open Reader

def isBlank (c : Char) : Bool :=
  c == ' ' || c == '\t'

/-- Whether a character may stand in comments: no control characters but the tab. -/
def isShown (c : Char) : Bool :=
  c == '\t' || (32 ≤ c.toNat && c.toNat ≠ 127)

def blanks : Reader Unit := do
  let _ ← takeWhile isBlank

def newline : Reader Unit :=
  char '\n' <|> literal ['\r', '\n']

def comment : Reader Unit := do
  char '#'
  let _ ← takeWhile isShown

def lineEnd : Reader Unit :=
  newline <|> atEnd

/-- What may stand between the end of a statement and the next line. -/
def trailing : Reader Unit := do
  blanks
  comment <|> pure ()
  lineEnd

/-- Blanks, line ends and comments, perhaps none. -/
def space : Reader Unit := do
  let _ ← many ((takeWhile1 isBlank *> pure ()) <|> newline <|> comment)

/-! ## Strings -/

def isBasic (c : Char) : Bool :=
  isShown c && c != '"' && c != '\\'

def isLiteral (c : Char) : Bool :=
  isShown c && c != '\''

/-- The character with the code point that `n` hexadecimal digits denote. -/
def codePoint (n : Nat) : Reader Char := do
  let some c := Text.charOfCode? (← digits 16 n) | failure
  return c

def escape : Reader Char := do
  char '\\'
  match ← satisfy fun _ => true with
  | 'b' => return '\x08'
  | 'f' => return '\x0c'
  | 'n' => return '\n'
  | 'r' => return '\r'
  | 't' => return '\t'
  | '"' => return '"'
  | '\\' => return '\\'
  | 'u' => codePoint 4
  | 'U' => codePoint 8
  | _ => failure

def basicString : Reader Text := do
  char '"'
  let chars ← many (satisfy isBasic <|> escape)
  char '"'
  return chars

def literalString : Reader Text := do
  char '\''
  let chars ← takeWhile isLiteral
  char '\''
  return chars

/-- One or two quotes before something that is not another one. -/
def quotes (quote : Char) (before : Reader Unit) : Reader Text :=
  (literal [quote, quote] *> before *> pure [quote, quote]) <|>
    (char quote *> before *> pure [quote])

/-- A string between tripled quotes that may take several lines. It may contain one or two quotes
at a time, also at its end; a line end right after its opening does not count. -/
def multiline (quote : Char) (content : Reader Text) : Reader Text := do
  let delimiter := [quote, quote, quote]
  literal delimiter
  newline <|> pure ()
  let first ← many content
  let others ← many do
    let quotes ← quotes quote (notBefore (· == quote))
    let next ← content
    return quotes ++ next ++ (← many content).flatten
  let last ← quotes quote (peek (literal delimiter)) <|> pure []
  literal delimiter
  return first.flatten ++ others.flatten ++ last

/-- A backslash at the end of a line, which takes all blanks and line ends after it away. -/
def continuation : Reader Text := do
  char '\\'
  blanks
  newline
  let _ ← many ((takeWhile1 isBlank *> pure ()) <|> newline)
  return []

def multilineBasicString : Reader Text :=
  multiline '"' <|
    takeWhile1 isBasic <|> continuation <|> ((fun c => [c]) <$> escape) <|> (newline *> pure ['\n'])

def multilineLiteralString : Reader Text :=
  multiline '\'' <| takeWhile1 isLiteral <|> (newline *> pure ['\n'])

def string : Reader Text :=
  multilineBasicString <|> basicString <|> multilineLiteralString <|> literalString

end ShellWords.Toml
