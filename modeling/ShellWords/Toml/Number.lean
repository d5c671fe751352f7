import ShellWords.Text.Reader

/-! TOML integers, which must fit 64 bits, and floats, which must not be larger than any double. -/

namespace ShellWords.Toml

open Reader

def digit (base : Nat) : Reader Char :=
  satisfy fun c => (Text.digit? base c).isSome

/-- Digits with single underscores between them, which do not count. -/
def moreDigits (base : Nat) : Reader Text :=
  many ((char '_' *> digit base) <|> digit base)

def digitRun (base : Nat) : Reader Text := do
  return (← digit base) :: (← moreDigits base)

def ofDigits (base : Nat) (digits : Text) : Nat :=
  Text.ofDigits base (digits.filterMap (Text.digit? base))

def sign : Reader Bool :=
  (char '+' *> pure false) <|> (char '-' *> pure true) <|> pure false

/-- A decimal number, whose digits start with a zero only if there is no other one. -/
def decimal : Reader (Bool × Text) := do
  let negative ← sign
  let digits ←
    (char '0' *> pure ['0']) <|>
    (do return (← digit 10) :: (← moreDigits 10))
  return (negative, digits)

def based (mark : Char) (base : Nat) : Reader Nat := do
  literal ['0', mark]
  return ofDigits base (← digitRun base)

def integer : Reader Int := do
  let value ←
    (Int.ofNat <$> based 'x' 16) <|>
    (Int.ofNat <$> based 'o' 8) <|>
    (Int.ofNat <$> based 'b' 2) <|>
    (do
      let (negative, digits) ← decimal
      let value := Int.ofNat (ofDigits 10 digits)
      return if negative then -value else value)
  guard (-9223372036854775808 ≤ value ∧ value ≤ 9223372036854775807)
  return value

/-- Whether `mantissa · 10 ^ exponent` lies nearer to `2 ^ 1024` than to the greatest double, or
above. The count of digits alone decides unless it is close to that of the bound. -/
def exceedsDouble (mantissa : Nat) (exponent : Int) : Bool :=
  let bound := (Nat.pow 2 54 - 1) * Nat.pow 2 970
  let size := (Nat.toDigits 10 mantissa).length + exponent
  if mantissa = 0 ∨ size < 300 then false
  else if 320 < size then true
  else
    match exponent with
    | .ofNat e => bound ≤ mantissa * Nat.pow 10 e
    | .negSucc e => bound * Nat.pow 10 (e + 1) ≤ mantissa

def exponent : Reader Int := do
  let _ ← satisfy fun c => c == 'e' || c == 'E'
  let negative ← sign
  let value := Int.ofNat (ofDigits 10 (← digitRun 10))
  return if negative then -value else value

/-- A float in digits, with a fraction or an exponent. A negative one may lie below all doubles. -/
def finiteFloat : Reader Unit := do
  let (negative, whole) ← decimal
  let (fraction, exponent) ←
    (do return ([], ← exponent)) <|>
    (do
      char '.'
      return (← digitRun 10, ← exponent <|> pure 0))
  let mantissa := ofDigits 10 (whole ++ fraction)
  guard (negative ∨ !exceedsDouble mantissa (exponent - fraction.length))

def specialFloat : Reader Unit := do
  let _ ← sign
  literal "inf".toList <|> literal "nan".toList

def float : Reader Text :=
  taken (finiteFloat <|> specialFloat)

end ShellWords.Toml
