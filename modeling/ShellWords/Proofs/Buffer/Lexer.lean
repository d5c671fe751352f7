import ShellWords.Lexer.Basic

/-! A lexer with one buffer. It keeps the word that has started in a single text, also while a
section of it is open: the section only remembers how long the text was when it opened, and its
close cuts the text there. Cutting a text, moving an offset back and making a span of two offsets
are partial operations, which fault where they have no result. -/

namespace ShellWords

/-- Why an operation has no result. -/
inductive Fault where
  /-- A text is cut inside a character or past its end. -/
  | cut
  /-- An offset moves back from the beginning of the line. -/
  | underflow
  /-- A span ends before it starts. -/
  | span
deriving DecidableEq, Repr

/-- Cuts a text in two at an offset. -/
def Text.splitOff (offset : Nat) (text : Text) : Except Fault (Text × Text) :=
  match seek? offset text with
  | some cursor => .ok (cursor.before.reverse, cursor.after)
  | none => .error .cut

theorem Text.splitOff_append (before after : Text) :
    splitOff (byteLength before) (before ++ after) = .ok (before, after) := by
  simp [splitOff, seek?_append]

/-- The offset one byte before another one. -/
def moveBack : Nat → Except Fault Nat
  | 0 => .error .underflow
  | offset + 1 => .ok offset

def Span.ofBounds (start stop : Nat) : Except Fault Span :=
  if start ≤ stop then .ok ⟨start, stop⟩ else .error .span

structure BufferQuote where
  mode : QuoteMode
  /-- The offset of the quote, or of the dollar that belongs to it. -/
  start : Nat
  /-- The number of bytes in the buffer when the section opened. -/
  segment : Nat
deriving DecidableEq, Repr

structure BufferLexer where
  config : Config
  line : Text
  /-- The part of the line that is still to be read. -/
  rest : Text
  /-- The offset of that part in the line. -/
  pos : Nat := 0
  quote : Option BufferQuote := none
  /-- The offset of an escape character whose operand comes next, and the character. -/
  escape : Option (Nat × Char) := none
  dollar : Option Nat := none
  /-- The word that has started, with the contents of its open section as written. -/
  token : Option Text := none
  finished : Bool := false
deriving DecidableEq, Repr

namespace BufferLexer

def ofText (config : Config) (line : Text) : BufferLexer :=
  { config, line, rest := line }

def push (c : Char) (lexer : BufferLexer) : BufferLexer :=
  { lexer with token := some (lexer.token.getD [] ++ [c]) }

/-- Whether an escape character would escape. -/
def escaping (lexer : BufferLexer) : Bool :=
  lexer.quote.all (·.mode.honorsEscapes lexer.config)

def pushEscaped (escape c : Char) (lexer : BufferLexer) : BufferLexer :=
  if c = '\n' then lexer
  else if lexer.quote.isSome then (lexer.push escape).push c
  else lexer.push c

/-- Opens a section at the quote `c` at offset `pos`. A dollar that belongs to it leaves the
buffer. -/
def openQuote (pos : Nat) (c : Char) (lexer : BufferLexer) : Except Fault BufferLexer := do
  let mode := QuoteMode.opened lexer.config (lexer.dollar.any (· + 1 == pos)) c
  let token := lexer.token.getD []
  if mode ≠ .plain c ∧ token.getLast? = some '$' then
    let start ← moveBack pos
    let token := token.dropLast
    return { lexer with
      token := some token, quote := some ⟨mode, start, Text.byteLength token⟩ }
  else
    return { lexer with
      token := some token, quote := some ⟨mode, pos, Text.byteLength token⟩ }

/-- Closes a section and decodes what the buffer has of it. -/
def closeQuote (quote : BufferQuote) (lexer : BufferLexer) : Except Fault BufferLexer := do
  let (before, raw) ← Text.splitOff quote.segment (lexer.token.getD [])
  return { lexer with
    quote := none, token := some (before ++ quote.mode.decode lexer.config raw) }

/-- The character `c` at offset `pos`, outside quotes and neither escaped nor escaping. It may
complete a word. -/
def readPlain (pos : Nat) (c : Char) (lexer : BufferLexer) :
    Except Fault (Option Text × BufferLexer) := do
  if lexer.config.isQuote c then return (none, ← lexer.openQuote pos c)
  else
    let lexer := if c = '$' then { lexer with dollar := some pos } else lexer
    if lexer.config.isWhitespace c then return (lexer.token, { lexer with token := none })
    else return (none, lexer.push c)

/-- The character `c` inside quotes, neither escaped nor escaping. -/
def readQuoted (quote : BufferQuote) (c : Char) (lexer : BufferLexer) :
    Except Fault (Option Text × BufferLexer) := do
  if c = quote.mode.closing then return (none, ← lexer.closeQuote quote)
  else return (none, lexer.push c)

/-- The lexer that has gone on past the character `c`, with no escape character before it. -/
def goPast (c : Char) (rest : Text) (lexer : BufferLexer) : BufferLexer :=
  { lexer with rest, pos := lexer.pos + c.utf8Size, escape := none }

/-- Reads the character `c` before `rest`. -/
def readChar (c : Char) (rest : Text) (lexer : BufferLexer) :
    Except Fault (Option Text × BufferLexer) :=
  let after := lexer.goPast c rest
  match lexer.escape with
  | some (_, escape) => .ok (none, after.pushEscaped escape c)
  | none =>
    if lexer.config.isEscape c && lexer.escaping then
      .ok (none, { after with escape := some (lexer.pos, c) })
    else
      match lexer.quote with
      | some quote => after.readQuoted quote c
      | none => after.readPlain lexer.pos c

section Cases

variable {lexer : BufferLexer} {c : Char}

theorem readChar_of_escape {pos : Nat} {escape : Char} (h : lexer.escape = some (pos, escape))
    (rest : Text) :
    lexer.readChar c rest = .ok (none, (lexer.goPast c rest).pushEscaped escape c) := by
  simp only [readChar, h]

theorem readChar_of_active (h : lexer.escape = none)
    (hactive : (lexer.config.isEscape c && lexer.escaping) = true) (rest : Text) :
    lexer.readChar c rest =
      .ok (none, { lexer.goPast c rest with escape := some (lexer.pos, c) }) := by
  simp only [readChar, h, hactive, if_true]

theorem readChar_of_quote {quote : BufferQuote} (h : lexer.escape = none)
    (hactive : ¬(lexer.config.isEscape c && lexer.escaping) = true)
    (hquote : lexer.quote = some quote) (rest : Text) :
    lexer.readChar c rest = (lexer.goPast c rest).readQuoted quote c := by
  simp only [readChar, h, if_neg hactive, hquote]

theorem readChar_of_plain (h : lexer.escape = none)
    (hactive : ¬(lexer.config.isEscape c && lexer.escaping) = true) (hquote : lexer.quote = none)
    (rest : Text) : lexer.readChar c rest = (lexer.goPast c rest).readPlain lexer.pos c := by
  simp only [readChar, h, if_neg hactive, hquote]

end Cases

/-- What the end of the line comes to: an error about what is still open, or the last word if one
has started. -/
def finish (lexer : BufferLexer) : Except Fault (Option Item × BufferLexer) :=
  match lexer.quote, lexer.escape with
  | some quote, _ => do
    let span ← Span.ofBounds quote.start (Text.byteLength lexer.line)
    return (some (.error (.unterminatedQuote quote.mode.closing span)),
      { lexer with quote := none, finished := true })
  | none, some (pos, escape) => do
    let span ← Span.ofBounds pos (pos + escape.utf8Size)
    return (some (.error (.unterminatedEscape escape span)),
      { lexer with escape := none, finished := true })
  | none, none =>
    return (lexer.token.map .ok, { lexer with token := none, finished := lexer.token.isNone })

/-- Reads on through `rest` to the end of a word or of the line. -/
def scan : (rest : Text) → BufferLexer → Except Fault (Option Item × BufferLexer)
  | [], lexer => lexer.finish
  | c :: rest, lexer => do
    let (word?, lexer) ← lexer.readChar c rest
    match word? with
    | some word => return (some (.ok word), lexer)
    | none => scan rest lexer

/-- The next item and the lexer after it. -/
def next (lexer : BufferLexer) : Except Fault (Option Item × BufferLexer) :=
  if lexer.finished then return (none, lexer) else scan lexer.rest lexer

/-- The first `n` items. -/
def take (lexer : BufferLexer) : Nat → Except Fault (List (Option Item))
  | 0 => return []
  | n + 1 => do
    let (item, lexer) ← lexer.next
    return item :: (← lexer.take n)

/-- The lexers that there are on the way through a line: a new one, and each one after a character
or the end of the line has been read, until an error or the lack of words has been told. -/
inductive Reached (config : Config) (line : Text) : BufferLexer → Prop where
  | new : Reached config line (ofText config line)
  | char {lexer after : BufferLexer} {c : Char} {rest : Text} {word? : Option Text}
    (hlexer : Reached config line lexer) (hfinished : lexer.finished = false)
    (hrest : lexer.rest = c :: rest) (hread : lexer.readChar c rest = .ok (word?, after)) :
    Reached config line after
  | stop {lexer after : BufferLexer} {item? : Option Item} (hlexer : Reached config line lexer)
    (hfinished : lexer.finished = false) (hrest : lexer.rest = [])
    (hfinish : lexer.finish = .ok (item?, after)) : Reached config line after

end BufferLexer

end ShellWords
