import ShellWords.Text.Basic
import ShellWords.Text.Printable

/-! Characters as literals: between single quotes, and escaped where they would not show. -/

namespace ShellWords.Text

/-- The inside of a character literal. -/
def escapeChar (c : Char) : Text :=
  if c = '\x00' then ['\\', '0']
  else if c = '\t' then ['\\', 't']
  else if c = '\n' then ['\\', 'n']
  else if c = '\r' then ['\\', 'r']
  else if c = '\'' ∨ c = '\\' then ['\\', c]
  else if isPrintable c then [c]
  else '\\' :: 'u' :: '\x7b' :: Nat.toDigits 16 c.toNat ++ ['\x7d']

def charLiteral (c : Char) : Text :=
  '\'' :: escapeChar c ++ ['\'']

end ShellWords.Text
