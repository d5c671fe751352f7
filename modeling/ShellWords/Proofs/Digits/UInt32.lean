import ShellWords.Proofs.Digits

/-! Numerals of numbers of 32 bits, read digit by digit. A text that is no numeral is refused, and
so is a number that does not fit, as soon as its digits so far do not. The digits at the front of a
text are read without an error as long as they are few enough: `parseUInt32_digitRun`. -/

namespace ShellWords.Text

/-- Why a text is not read as a number of 32 bits. -/
inductive NumberError where
  | empty
  | invalidDigit
  | overflow
deriving DecidableEq, Repr

/-- A number, if 32 bits hold it. -/
def checkUInt32 (n : Nat) : Except NumberError Nat :=
  if n < 2 ^ 32 then .ok n else .error .overflow

/-- The number with the digits of `n` and one more. -/
def appendDigit (base n : Nat) (c : Char) : Except NumberError Nat :=
  match digit? base c with
  | none => .error .invalidDigit
  | some d => do
    let shifted ← checkUInt32 (n * base)
    checkUInt32 (shifted + d)

/-- A numeral without the plus sign that may stand before its digits. -/
def withoutSign : Text → Text
  | '+' :: c :: rest => c :: rest
  | text => text

def parseUInt32 (base : Nat) (text : Text) : Except NumberError Nat :=
  if text = [] then .error .empty else (withoutSign text).foldlM (appendDigit base) 0

theorem le_foldl_digits {base : Nat} (hbase : 1 ≤ base) (values : List Nat) (n : Nat) :
    n ≤ values.foldl (fun n d => n * base + d) n := by
  induction values generalizing n with
  | nil => exact Nat.le_refl n
  | cons d values ih =>
    calc n ≤ n * base := Nat.le_mul_of_pos_right n hbase
      _ ≤ n * base + d := Nat.le_add_right _ _
      _ ≤ _ := ih _

/-- If a number fits, so do the numbers on the way to it. -/
theorem foldlM_appendDigit {base : Nat} (hbase : 1 ≤ base) {text : Text} {values : List Nat}
    (h : List.Forall₂ (fun c d => digit? base c = some d) text values) (n : Nat)
    (hfits : values.foldl (fun n d => n * base + d) n < 2 ^ 32) :
    text.foldlM (appendDigit base) n = .ok (values.foldl (fun n d => n * base + d) n) := by
  induction h generalizing n with
  | nil => rfl
  | @cons c d text values hd _ ih =>
    rw [List.foldl_cons] at hfits ⊢
    have hle := le_foldl_digits hbase values (n * base + d)
    have hshifted : n * base < 2 ^ 32 := by omega
    have hsum : n * base + d < 2 ^ 32 := by omega
    have hdigit : appendDigit base n c = .ok (n * base + d) := by
      simp only [appendDigit, hd, checkUInt32, if_pos hshifted]
      exact if_pos hsum
    rw [List.foldlM_cons, hdigit]
    exact ih _ hfits

theorem withoutSign_of_digits {base : Nat} {text : Text} {values : List Nat}
    (h : List.Forall₂ (fun c d => digit? base c = some d) text values) :
    withoutSign text = text := by
  unfold withoutSign
  split
  · cases h with
    | cons hd _ =>
      have hsign : digitValue? '+' = none := by decide
      rw [digit?, hsign] at hd
      cases hd
  · rfl

theorem parseUInt32_digitRun {base limit : Nat} (hbase : 1 ≤ base)
    (hlimit : base ^ limit ≤ 2 ^ 32) {text : Text} (hne : digitRun base limit text ≠ []) :
    parseUInt32 base (digitRun base limit text) =
      .ok (ofDigits base (digits base limit text)) := by
  have hdigits := forall₂_digitRun base limit text
  rw [parseUInt32, if_neg hne, withoutSign_of_digits hdigits]
  exact foldlM_appendDigit hbase hdigits 0
    (Nat.lt_of_lt_of_le (ofDigits_digits_lt hbase limit text) hlimit)

end ShellWords.Text
