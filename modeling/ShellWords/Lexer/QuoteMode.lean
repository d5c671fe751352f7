import ShellWords.Escape.AnsiC
import ShellWords.Escape.DoubleQuoted

/-! The kinds of quoted section: how each is opened and closed, whether escape characters escape in
it, and what text its contents stand for. -/

namespace ShellWords

inductive QuoteMode where
  /-- Between two of the same quote. -/
  | plain (quote : Char)
  /-- `$'…'` -/
  | ansiC
  /-- `$"…"` -/
  | locale
deriving DecidableEq, Repr

namespace QuoteMode

/-- The character that closes a section. -/
def closing : QuoteMode → Char
  | plain quote => quote
  | ansiC => '\''
  | locale => '"'

/-- Whether escape characters escape inside a section. -/
def honorsEscapes (config : Config) : QuoteMode → Bool
  | plain quote => config.escapesWithin quote
  | ansiC => true
  | locale => true

/-- The mode of a section that `quote` opens. A dollar before the quote counts only with the quotes
that have a switch, and only while it is on. -/
def opened (config : Config) (afterDollar : Bool) (quote : Char) : QuoteMode :=
  if quote = '\'' ∧ afterDollar ∧ config.ansiC then ansiC
  else if quote = '"' ∧ afterDollar ∧ config.locale then locale
  else plain quote

/-- Whether a dollar before the quote belongs to the opening of a section. -/
def takesDollar : QuoteMode → Bool
  | plain _ => false
  | ansiC => true
  | locale => true

def decode (config : Config) (mode : QuoteMode) (raw : Text) : Text :=
  match mode with
  | plain quote => if config.escapesWithin quote then Escape.unescape config quote raw else raw
  | ansiC => Escape.AnsiC.decode config raw
  | locale => Escape.unescape config '"' raw

end QuoteMode

end ShellWords
