import ShellWords.Lexer.QuoteMode
import ShellWords.SplitError

/-! The machine that splits a line, one character at a time. `State.step` says what a character
does, and `State.finish` what the end of the line does. Texts that still grow are kept backwards. -/

namespace ShellWords

structure OpenQuote where
  mode : QuoteMode
  /-- The offset of the quote, or of the dollar that belongs to it. -/
  start : Nat
  /-- The contents so far, backwards and with their escapes as written. -/
  body : Text := []
deriving DecidableEq, Repr

/-- Where in a line the machine is. -/
inductive Region where
  | gap
  /-- Outside quotes in a word, which may still be empty; its text is kept backwards. -/
  | word (text : Text)
  /-- In a quoted section; `before` is the text of the word up to the section, backwards. -/
  | quoted (before : Text) (quote : OpenQuote)
deriving DecidableEq, Repr

structure ClosedQuote where
  mode : QuoteMode
  /-- The offset of the opening quote, or of the dollar that belongs to it. -/
  start : Nat
  decoded : Text
deriving DecidableEq, Repr

/-- What the machine remembers of the part of a line that it has read. -/
structure State where
  region : Region := .gap
  /-- The offset of an escape character whose operand comes next, and the character. -/
  escape : Option (Nat × Char) := none
  /-- The offset of the last dollar that stood for itself outside quotes. -/
  dollar : Option Nat := none
deriving DecidableEq, Repr

inductive Completed where
  | word (text : Text)
  | quote (closed : ClosedQuote)
deriving DecidableEq, Repr

/-- What a character does: the state after it, and what it completes, if anything. -/
structure Step where
  state : State
  completed : Option Completed := none
deriving DecidableEq, Repr

def Step.word? (step : Step) : Option Text :=
  match step.completed with
  | some (.word text) => some text
  | _ => none

namespace Region

/-- The text that a section opened here would be added to, backwards. -/
def pending : Region → Text
  | gap => []
  | word text => text
  | quoted before _ => before

/-- The word that ends if the line or a blank follows, if one has started. -/
def word? : Region → Option Text
  | gap => none
  | word text => some text.reverse
  | quoted _ _ => none

def escaping (config : Config) : Region → Bool
  | gap => true
  | word _ => true
  | quoted _ quote => quote.mode.honorsEscapes config

def push (c : Char) : Region → Region
  | gap => word [c]
  | word text => word (c :: text)
  | quoted before quote => quoted before { quote with body := c :: quote.body }

/-- Adds the operand `c` of an escape character. A line end vanishes together with the escape
character; inside quotes all other pairs stay as written until the section is closed. -/
def pushEscaped (escape c : Char) (region : Region) : Region :=
  if c = '\n' then region
  else match region with
    | quoted _ _ => (region.push escape).push c
    | _ => region.push c

/-- Opens a section at the quote at offset `pos`, and takes the dollar before it from the word if
it belongs to the section. -/
def openQuote (config : Config) (pos : Nat) (afterDollar : Bool) (c : Char) (region : Region) :
    Region :=
  let mode := QuoteMode.opened config afterDollar c
  match mode.takesDollar, region.pending with
  | true, '$' :: before => quoted before { mode, start := pos - 1 }
  | _, before => quoted before { mode, start := pos }

end Region

namespace OpenQuote

/-- The section that the closing quote makes of an open one. -/
def close (config : Config) (quote : OpenQuote) : ClosedQuote where
  mode := quote.mode
  start := quote.start
  decoded := quote.mode.decode config quote.body.reverse

end OpenQuote

namespace State

/-- The character `c` at offset `pos`, outside quotes and neither escaped nor escaping. -/
def stepPlain (config : Config) (pos : Nat) (c : Char) (state : State) : Step :=
  if config.isQuote c then
    let afterDollar := state.dollar.any (· + 1 == pos)
    { state := { state with region := state.region.openQuote config pos afterDollar c } }
  else
    let state := if c = '$' then { state with dollar := some pos } else state
    if config.isWhitespace c then
      { state := { state with region := .gap }, completed := state.region.word?.map .word }
    else
      { state := { state with region := state.region.push c } }

/-- The character `c` inside quotes, neither escaped nor escaping. -/
def stepQuoted (config : Config) (c : Char) (before : Text) (quote : OpenQuote) (state : State) :
    Step :=
  if c = quote.mode.closing then
    let closed := quote.close config
    { state := { state with region := .word (closed.decoded.reverse ++ before) }
      completed := some (.quote closed) }
  else
    { state := { state with region := state.region.push c } }

/-- What the character `c` at offset `pos` does. -/
def step (config : Config) (pos : Nat) (c : Char) (state : State) : Step :=
  match state.escape with
  | some (_, escape) =>
    { state := { state with region := state.region.pushEscaped escape c, escape := none } }
  | none =>
    if config.isEscape c && state.region.escaping config then
      { state := { state with escape := some (pos, c) } }
    else
      match state.region with
      | .quoted before quote => state.stepQuoted config c before quote
      | _ => state.stepPlain config pos c

/-- What the end of a line of `size` bytes does: it ends the last word, unless something is still
open. An open quote counts before an escape character without operand. -/
def finish (size : Nat) (state : State) : Except SplitError (Option Text) :=
  match state.region, state.escape with
  | .quoted _ quote, _ => .error (.unterminatedQuote quote.mode.closing ⟨quote.start, size⟩)
  | _, some (pos, escape) => .error (.unterminatedEscape escape (.charAt pos escape))
  | region, none => .ok region.word?

end State

end ShellWords
