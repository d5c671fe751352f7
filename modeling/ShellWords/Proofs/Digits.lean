import Mathlib.Data.List.Forall2
import Mathlib.Data.List.TakeWhile
import Mathlib.Tactic.Ring
import ShellWords.Text.Digit

/-! The numbers that rows of digits denote, and the ways to write a number in a given number of
digits. -/

namespace ShellWords.Text

theorem ofDigits_cons (base d : Nat) (values : List Nat) :
    ofDigits base (d :: values) = d * base ^ values.length + ofDigits base values := by
  have hfold : ∀ start, values.foldl (fun n d => n * base + d) start =
      start * base ^ values.length + ofDigits base values := by
    induction values with
    | nil => simp [ofDigits]
    | cons e values ih =>
      intro start
      rw [ofDigits, List.foldl_cons, List.foldl_cons, ih, ih, List.length_cons]
      ring
  rw [ofDigits, List.foldl_cons, hfold, Nat.zero_mul, Nat.zero_add]

theorem ofDigits_lt {base : Nat} {values : List Nat} (h : ∀ d ∈ values, d < base) :
    ofDigits base values < base ^ values.length := by
  induction values with
  | nil => exact Nat.one_pos
  | cons d values ih =>
    obtain ⟨hd, hvalues⟩ := List.forall_mem_cons.1 h
    calc ofDigits base (d :: values)
        = d * base ^ values.length + ofDigits base values := ofDigits_cons base d values
      _ < d * base ^ values.length + base ^ values.length := Nat.add_lt_add_left (ih hvalues) _
      _ = (d + 1) * base ^ values.length := by ring
      _ ≤ base * base ^ values.length := Nat.mul_le_mul_right _ hd
      _ = base ^ (d :: values).length := by rw [List.length_cons, Nat.pow_succ']

theorem lt_of_mem_digits {base limit : Nat} {text : Text} :
    ∀ d ∈ digits base limit text, d < base := by
  fun_induction digits base limit text with
  | case1 | case2 | case4 => exact fun _ h => absurd h List.not_mem_nil
  | case3 limit c rest d hd ih => exact List.forall_mem_cons.2 ⟨digit?_lt hd, ih⟩

theorem ofDigits_digits_lt {base : Nat} (hbase : 1 ≤ base) (limit : Nat) (text : Text) :
    ofDigits base (digits base limit text) < base ^ limit :=
  Nat.lt_of_lt_of_le (ofDigits_lt lt_of_mem_digits)
    (Nat.pow_le_pow_right hbase (digits_length_le_limit base limit text))

/-! ### Digits as characters -/

/-- The characters whose values `digits` gives. -/
def digitRun (base limit : Nat) (text : Text) : Text :=
  (text.take limit).takeWhile fun c => (digit? base c).isSome

theorem digitRun_prefix (base limit : Nat) (text : Text) : digitRun base limit text <+: text :=
  (List.takeWhile_prefix _).trans (List.take_prefix _ _)

theorem isSome_of_mem_digitRun {base limit : Nat} {text : Text} {c : Char}
    (h : c ∈ digitRun base limit text) : (digit? base c).isSome :=
  List.mem_takeWhile_imp (p := fun c => (digit? base c).isSome) h

theorem forall₂_digitRun (base limit : Nat) (text : Text) :
    List.Forall₂ (fun c d => digit? base c = some d) (digitRun base limit text)
      (digits base limit text) := by
  unfold digitRun
  fun_induction digits base limit text with
  | case1 | case2 => exact .nil
  | case3 limit c rest d hd ih =>
    rw [List.take_succ_cons, List.takeWhile_cons_of_pos (by simp [hd])]
    exact .cons hd ih
  | case4 limit c rest hd =>
    rw [List.take_succ_cons, List.takeWhile_cons_of_neg (by simp [hd])]
    exact .nil

theorem length_digitRun (base limit : Nat) (text : Text) :
    (digitRun base limit text).length = (digits base limit text).length :=
  (forall₂_digitRun base limit text).length_eq

theorem digitRun_eq_nil_iff {base limit : Nat} {text : Text} :
    digitRun base limit text = [] ↔ digits base limit text = [] := by
  rw [← List.length_eq_zero_iff, length_digitRun, List.length_eq_zero_iff]

theorem utf8Size_of_digit? {base d : Nat} {c : Char} (h : digit? base c = some d) :
    c.utf8Size = 1 := by
  have hvalue : digitValue? c = some d := (Option.filter_eq_some_iff.1 h).1
  have hle : c ≤ 'f' := by
    unfold digitValue? at hvalue
    split at hvalue
    · rename_i hc
      exact Char.le_trans hc.2 (by decide)
    split at hvalue
    · rename_i hc
      exact hc.2
    split at hvalue
    · rename_i hc
      exact Char.le_trans hc.2 (by decide)
    · cases hvalue
  exact Char.utf8Size_eq_one_iff.2 (UInt32.le_trans hle (by decide))

/-- Digits take one byte each, so that it makes no difference whether bytes or characters are
counted. -/
theorem byteLength_of_digits {base : Nat} {text : Text} {values : List Nat}
    (h : List.Forall₂ (fun c d => digit? base c = some d) text values) :
    byteLength text = text.length := by
  induction h with
  | nil => rfl
  | cons hd _ ih => rw [byteLength_cons, List.length_cons, utf8Size_of_digit? hd, ih, Nat.add_comm]

/-! ### Numbers in a fixed number of digits -/

/-- The character is the digit with value `d`; letters may be of either case. -/
def IsDigit (d : Nat) (c : Char) : Prop :=
  c = Nat.digitChar d ∨ c = (Nat.digitChar d).toUpper

/-- A text writes a number in some number of digits, the most significant first. -/
inductive Numeral (base : Nat) : (width n : Nat) → Text → Prop where
  | nil : Numeral base 0 0 []
  | cons {d width n : Nat} {c : Char} {text : Text} (hd : d < base) (hc : IsDigit d c)
    (htext : Numeral base width n text) :
    Numeral base (width + 1) (d * base ^ width + n) (c :: text)

theorem IsDigit.digitValue?_eq {d : Nat} {c : Char} (h : IsDigit d c) (hd : d < 16) :
    digitValue? c = some d := by
  have hlower : ∀ d < 16, digitValue? (Nat.digitChar d) = some d := by decide
  have hupper : ∀ d < 16, digitValue? (Nat.digitChar d).toUpper = some d := by decide
  rcases h with rfl | rfl
  · exact hlower d hd
  · exact hupper d hd

theorem IsDigit.digit?_eq {base d : Nat} {c : Char} (h : IsDigit d c) (hd : d < base)
    (hbase : base ≤ 16) : digit? base c = some d := by
  simp [digit?, h.digitValue?_eq (Nat.lt_of_lt_of_le hd hbase), hd]

/-- A numeral is read to its last digit and no further, whatever comes after it. -/
theorem Numeral.digits_eq {base width n : Nat} {text : Text} (h : Numeral base width n text)
    (hbase : base ≤ 16) :
    ∃ values, values.length = width ∧ ofDigits base values = n ∧
      ∀ rest, digits base width (text ++ rest) = values := by
  induction h with
  | nil => exact ⟨[], rfl, rfl, fun _ => by simp [digits]⟩
  | @cons d width n c text hd hc _ ih =>
    obtain ⟨values, hlength, hvalue, hdigits⟩ := ih
    refine ⟨d :: values, by simp [hlength], ?_, fun rest => ?_⟩
    · rw [ofDigits_cons, hlength, hvalue]
    · simp [digits, hc.digit?_eq hd hbase, hdigits]

theorem Numeral.filterMap_digit? {base width n : Nat} {text : Text}
    (h : Numeral base width n text) (hbase : base ≤ 16) :
    (text.filterMap (digit? base)).length = width ∧
      ofDigits base (text.filterMap (digit? base)) = n := by
  induction h with
  | nil => exact ⟨rfl, rfl⟩
  | cons hd hc _ ih =>
    obtain ⟨hlength, hvalue⟩ := ih
    rw [List.filterMap_cons_some (hc.digit?_eq hd hbase), List.length_cons, ofDigits_cons, hlength,
      hvalue]
    exact ⟨rfl, rfl⟩

/-- Every number has a numeral if there are digits enough. -/
theorem exists_numeral {base width n : Nat} (h : n < base ^ width) :
    ∃ text, Numeral base width n text := by
  induction width generalizing n with
  | zero =>
    obtain rfl : n = 0 := Nat.lt_one_iff.1 h
    exact ⟨[], .nil⟩
  | succ width ih =>
    have hpos : 0 < base ^ width := by
      refine Nat.pos_of_ne_zero fun hzero => ?_
      rw [Nat.pow_succ, hzero, Nat.zero_mul] at h
      exact Nat.not_lt_zero n h
    obtain ⟨text, htext⟩ := ih (Nat.mod_lt n hpos)
    have hdigit : n / base ^ width < base :=
      Nat.div_lt_of_lt_mul (by rwa [Nat.pow_succ] at h)
    refine ⟨Nat.digitChar (n / base ^ width) :: text, ?_⟩
    have hnumeral := Numeral.cons hdigit (.inl rfl) htext
    rwa [Nat.div_add_mod'] at hnumeral

theorem Numeral.length_eq {base width n : Nat} {text : Text} (h : Numeral base width n text) :
    text.length = width := by
  induction h with
  | nil => rfl
  | cons _ _ _ ih => rw [List.length_cons, ih]

theorem Numeral.digitValue?_of_mem {base width n : Nat} {text : Text}
    (h : Numeral base width n text) (hbase : base ≤ 16) :
    ∀ c ∈ text, ∃ d < base, digitValue? c = some d := by
  induction h with
  | nil => exact nofun
  | @cons d _ _ c _ hd hc _ ih =>
    intro e he
    rcases List.mem_cons.1 he with rfl | he
    · exact ⟨d, hd, hc.digitValue?_eq (Nat.lt_of_lt_of_le hd hbase)⟩
    · exact ih e he

end ShellWords.Text
