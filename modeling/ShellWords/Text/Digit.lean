import ShellWords.Text.Basic

/-! Digits in bases up to sixteen, the runs of digits at the front of a text, and the numbers and
characters that they denote. -/

namespace ShellWords.Text

/-- The value of an ASCII digit or letter as a digit, whatever the base. -/
def digitValue? (c : Char) : Option Nat :=
  if '0' ≤ c ∧ c ≤ '9' then some (c.toNat - '0'.toNat)
  else if 'a' ≤ c ∧ c ≤ 'f' then some (c.toNat - 'a'.toNat + 10)
  else if 'A' ≤ c ∧ c ≤ 'F' then some (c.toNat - 'A'.toNat + 10)
  else none

def digit? (base : Nat) (c : Char) : Option Nat :=
  (digitValue? c).filter (· < base)

/-- The values of the digits at the front of a text, at most `limit` of them. -/
def digits (base : Nat) : (limit : Nat) → Text → List Nat
  | 0, _ => []
  | _ + 1, [] => []
  | limit + 1, c :: rest =>
    match digit? base c with
    | some d => d :: digits base limit rest
    | none => []

/-- The number that digits denote, the most significant first. -/
def ofDigits (base : Nat) (values : List Nat) : Nat :=
  values.foldl (fun n d => n * base + d) 0

/-- The character with a code point, if the code point is a scalar value. -/
def charOfCode? (code : Nat) : Option Char :=
  if code.isValidChar then some (Char.ofNat code) else none

theorem charOfCode?_toNat (c : Char) : charOfCode? c.toNat = some c := by
  have hvalid : c.toNat.isValidChar := c.valid
  simp [charOfCode?, hvalid]

theorem digit?_lt {base : Nat} {c : Char} {d : Nat} (h : digit? base c = some d) : d < base := by
  simpa using (Option.filter_eq_some_iff.1 h).2

theorem digits_length_le_limit (base limit : Nat) (text : Text) :
    (digits base limit text).length ≤ limit := by
  fun_induction digits base limit text <;> simp_all

theorem digits_length_le_length (base limit : Nat) (text : Text) :
    (digits base limit text).length ≤ text.length := by
  fun_induction digits base limit text <;> simp_all

end ShellWords.Text
