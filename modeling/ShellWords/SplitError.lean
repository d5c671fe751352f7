import ShellWords.Span

/-! The ways in which a line can end in the middle of a word. -/

namespace ShellWords

/-- Why a line cannot be split. -/
inductive SplitError where
  /-- The line ends inside a quoted section, which `quote` would have closed. The span starts at
  the opening of the section and ends with the line. -/
  | unterminatedQuote (quote : Char) (span : Span)
  /-- The line ends right after an escape character, which is what the span covers. -/
  | unterminatedEscape (escape : Char) (span : Span)
deriving DecidableEq, Repr

namespace SplitError

def span : SplitError → Span
  | unterminatedQuote _ span => span
  | unterminatedEscape _ span => span

/-- The quote that is missing, or the escape character that has nothing to escape. -/
def char : SplitError → Char
  | unterminatedQuote quote _ => quote
  | unterminatedEscape escape _ => escape

def quoteName (quote : Char) : Text :=
  if quote = '\'' then "single".toList
  else if quote = '"' then "double".toList
  else ['\'', quote, '\'']

def message : SplitError → Text
  | unterminatedQuote quote span =>
    "unterminated ".toList ++ quoteName quote ++ " quote starting at position ".toList ++
      Nat.toDigits 10 span.start
  | unterminatedEscape escape span =>
    "unterminated escape '".toList ++ escape :: "' at position ".toList ++
      Nat.toDigits 10 span.start

end SplitError

end ShellWords
