import ShellWords.Text.Basic

/-! What the splitter takes for a blank, a quote or an escape character. A configuration is made
from the default one by settings, each of which replaces one of its six parts. -/

namespace ShellWords

/-- The character classes of the splitter, as sets of characters, and its two switches. -/
structure Config where
  /-- Characters that separate words outside quotes. -/
  whitespace : Text := [' ', '\t', '\r', '\n']
  /-- Characters that open and close a quoted section. -/
  quotes : Text := ['\'', '"']
  /-- Characters that escape the character after them. -/
  escapes : Text := ['\\']
  /-- Quotes inside which escape characters escape. -/
  escapedQuotes : Text := ['"']
  /-- Whether `$'…'` is an ANSI-C section. -/
  ansiC : Bool := true
  /-- Whether `$"…"` is a locale section. -/
  locale : Bool := true
deriving DecidableEq, Repr

inductive Setting where
  | whitespace (chars : Text)
  | quotes (chars : Text)
  | escapes (chars : Text)
  | escapedQuotes (chars : Text)
  | ansiC (enabled : Bool)
  | locale (enabled : Bool)
deriving DecidableEq, Repr

namespace Config

def isWhitespace (config : Config) (c : Char) : Bool :=
  config.whitespace.contains c

def isQuote (config : Config) (c : Char) : Bool :=
  config.quotes.contains c

def isEscape (config : Config) (c : Char) : Bool :=
  config.escapes.contains c

/-- Whether escape characters escape inside a section between two `quote`s. -/
def escapesWithin (config : Config) (quote : Char) : Bool :=
  config.escapedQuotes.contains quote

def set (config : Config) : Setting → Config
  | .whitespace chars => { config with whitespace := chars }
  | .quotes chars => { config with quotes := chars }
  | .escapes chars => { config with escapes := chars }
  | .escapedQuotes chars => { config with escapedQuotes := chars }
  | .ansiC enabled => { config with ansiC := enabled }
  | .locale enabled => { config with locale := enabled }

end Config

end ShellWords
