import ShellWords.SplitError

/-! Reports on a span of a text: the line and column where it starts, a snippet of the text around
its start, and a diagnostic, each with carets under the span. A span that starts past the end of the
text counts as starting there; one that starts inside a character has no report. -/

namespace ShellWords

structure Location where
  /-- The number of the line, counted from one. -/
  line : Nat
  /-- The number of characters before the place on its line. -/
  column : Nat
  /-- The line, without the line feed at its end. -/
  text : Text
deriving DecidableEq, Repr

/-- The number of the line in front of it, padded with spaces to three characters. -/
def Location.label (location : Location) : Text :=
  (Nat.toDigits 10 location.line).leftpad 3 ' '

namespace Span

def anchor? (span : Span) (source : Text) : Option Text.Cursor :=
  Text.seek? (min span.start (Text.byteLength source)) source

def locate? (span : Span) (source : Text) : Option Location := do
  let cursor ← span.anchor? source
  let onLine := cursor.before.takeWhile (· ≠ '\n')
  return {
    line := cursor.before.count '\n' + 1
    column := onLine.length
    text := onLine.reverse ++ cursor.after.takeWhile (· ≠ '\n') }

/-- The number of carets under a span: one for each character of it, and at least one. -/
def carets (span : Span) (source : Text) : Nat :=
  max 1 (span.slice source).length

/-- The text around the start of a span, at most `context` characters before it and one more after
it, and below it a row with carets. -/
def snippet? (span : Span) (source : Text) (context : Nat) : Option Text := do
  let cursor ← span.anchor? source
  let before := (cursor.before.take context).reverse
  let after := cursor.after.take (context + 1)
  return before ++ after ++ '\n' ::
    List.replicate before.length ' ' ++ List.replicate (span.carets source) '^'

/-- A message with the line that a span starts on, and a row with carets under the part of the span
on that line. -/
def diagnostic? (span : Span) (source message : Text) : Option Text := do
  let location ← span.locate? source
  let onLine := location.text.length - location.column
  let carets := max 1 (min (span.slice source).length onLine)
  return "error: ".toList ++ message ++
    "\n  --> line ".toList ++ Nat.toDigits 10 location.line ++
    ", column ".toList ++ Nat.toDigits 10 (location.column + 1) ++
    "\n   |\n".toList ++ location.label ++ " | ".toList ++ location.text ++
    "\n   | ".toList ++ List.replicate location.column ' ' ++ List.replicate carets '^'

end Span

namespace SplitError

def snippet? (error : SplitError) (line : Text) (context : Nat) : Option Text :=
  error.span.snippet? line context

def diagnostic? (error : SplitError) (line : Text) : Option Text :=
  error.span.diagnostic? line error.message

end SplitError

end ShellWords
