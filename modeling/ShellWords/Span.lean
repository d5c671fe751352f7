import ShellWords.Text.Basic

/-! Half-open byte ranges of a text. -/

namespace ShellWords

/-- The bytes from offset `start` up to, but not including, offset `stop`. -/
structure Span where
  start : Nat := 0
  stop : Nat := 0
deriving DecidableEq, Repr

namespace Span

def charAt (pos : Nat) (c : Char) : Span :=
  ⟨pos, pos + c.utf8Size⟩

/-- The number of bytes in a span, none if it ends before it starts. -/
def length (span : Span) : Nat :=
  span.stop - span.start

def isEmpty (span : Span) : Bool :=
  span.start == span.stop

/-- The part of `source` that a span covers, and nothing if the span does not fit `source`. -/
def slice (span : Span) (source : Text) : Text :=
  let covered := do
    guard (span.start ≤ span.stop)
    let cursor ← Text.seek? span.start source
    let inner ← Text.seek? (span.stop - span.start) cursor.after
    return inner.before.reverse
  covered.getD []

end Span

end ShellWords
