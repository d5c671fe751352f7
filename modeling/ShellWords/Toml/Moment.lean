import ShellWords.Text.Reader

/-! TOML dates and times. Each part must lie in its range, and the day must exist in its month. -/

namespace ShellWords.Toml

open Reader

/-- A number of exactly `n` decimal digits from `low` to `high`. -/
def numberWithin (n low high : Nat) : Reader Nat := do
  let value ← digits 10 n
  guard (low ≤ value ∧ value ≤ high)
  return value

def isLeapYear (year : Nat) : Bool :=
  year % 4 == 0 && (year % 100 != 0 || year % 400 == 0)

def daysInMonth (year month : Nat) : Nat :=
  if month = 2 then (if isLeapYear year then 29 else 28)
  else if month = 4 ∨ month = 6 ∨ month = 9 ∨ month = 11 then 30
  else 31

def date : Reader Unit := do
  let year ← digits 10 4
  char '-'
  let month ← numberWithin 2 1 12
  char '-'
  let _ ← numberWithin 2 1 (daysInMonth year month)

/-- A time of day, in which a minute may have a leap second. -/
def time : Reader Unit := do
  let _ ← numberWithin 2 0 23
  char ':'
  let _ ← numberWithin 2 0 59
  char ':'
  let _ ← numberWithin 2 0 60
  (do
    char '.'
    let _ ← takeWhile1 Char.isDigit) <|> pure ()

def offset : Reader Unit :=
  (do let _ ← satisfy fun c => c == 'Z' || c == 'z') <|>
  (do
    let _ ← satisfy fun c => c == '+' || c == '-'
    let _ ← numberWithin 2 0 23
    char ':'
    let _ ← numberWithin 2 0 59)

/-- A date with or without a time, or a time, as they are written. -/
def moment : Reader Text :=
  taken <|
    (do
      date
      (do
        let _ ← satisfy fun c => c == 'T' || c == 't' || c == ' '
        time
        offset <|> pure ()) <|> pure ()) <|>
    time

end ShellWords.Toml
