import ShellWords.Escape.AnsiC

/-! The rules of ANSI-C sections, one by one. Each refuses a text for a reason that its first two
characters show, and `read?_eq_none_iff` puts the reasons together: when an escape character begins
no escape. -/

namespace ShellWords.Escape.AnsiC

variable {escape c : Char} {rest : Text}

/-! ### What each rule refuses -/

theorem literal_eq_none_iff :
    literal escape (c :: rest) = none ↔ c ∉ ['\\', '\'', '"', '?'] ∧ c ≠ escape := by
  simp only [literal, ite_eq_right_iff, reduceCtorEq, imp_false, List.mem_cons, List.not_mem_nil,
    or_false, not_or, ne_eq, and_assoc]

theorem controlLetter_eq_none_iff :
    controlLetter escape (c :: rest) = none ↔
      c ∉ ['a', 'b', 'e', 'E', 'f', 'n', 'r', 't', 'v'] := by
  constructor
  · intro h hc
    simp only [List.mem_cons, List.not_mem_nil, or_false] at hc
    rcases hc with rfl | rfl | rfl | rfl | rfl | rfl | rfl | rfl | rfl <;> cases h
  · intro hc
    unfold controlLetter
    split <;> simp_all

theorem digits_eq_nil_iff (base limit : Nat) (text : Text) :
    Text.digits base (limit + 1) text = [] ↔ ∀ c ∈ text.head?, Text.digit? base c = none := by
  cases text with
  | nil => simp [Text.digits]
  | cons c rest => cases hd : Text.digit? base c <;> simp [Text.digits, hd]

theorem codePoint_eq_none_iff (base limit : Nat) (text : Text) :
    codePoint base (limit + 1) text = none ↔ ∀ c ∈ text.head?, Text.digit? base c = none := by
  rw [← digits_eq_nil_iff base limit text, codePoint]
  split <;> simp_all

theorem codePoint_eq_some_iff {base limit : Nat} {text : Text} {decoded : Decoded} :
    codePoint base limit text = some decoded ↔ Text.digits base limit text ≠ [] ∧
      decoded = ⟨charOfCode (Text.ofDigits base (Text.digits base limit text)),
        (Text.digits base limit text).length⟩ := by
  unfold codePoint
  split
  · rename_i hnil
    exact iff_of_false nofun fun h => h.1 hnil
  · rename_i hne
    rw [Option.some.injEq, eq_comm]
    exact (and_iff_right hne).symm

theorem octal_eq_none_iff :
    octal escape (c :: rest) = none ↔ Text.digit? 8 c = none := by
  rw [octal, codePoint_eq_none_iff]
  simp

theorem hexAfter_eq_none_iff {letter : Char} {limit : Nat} :
    hexAfter letter (limit + 1) escape (c :: rest) = none ↔
      (c = letter → ∀ d ∈ rest.head?, Text.digit? 16 d = none) := by
  rw [← codePoint_eq_none_iff 16 limit rest, hexAfter]
  split <;> simp_all

/-- A character that no control escape can take. -/
def EndsLine (c : Char) : Prop :=
  c ∈ ['\n', '\r', '\u2028', '\u2029']

instance : DecidablePred EndsLine :=
  fun c => inferInstanceAs (Decidable (c ∈ _))

theorem controlChar_eq_none_iff :
    controlChar escape (c :: rest) = none ↔ (c = 'c' → ∀ d ∈ rest.head?, EndsLine d) := by
  by_cases hc : c = 'c'
  · subst hc
    cases rest with
    | nil => simp [controlChar]
    | cons d rest =>
      simp only [controlChar, List.head?_cons, Option.mem_some_iff, forall_eq', forall_const,
        EndsLine, List.mem_cons, List.not_mem_nil, or_false]
      split
      · rename_i hline
        exact iff_of_true rfl hline
      · rename_i hline
        refine iff_of_false ?_ hline
        split <;> exact nofun
  · have hnone : controlChar escape (c :: rest) = none := by
      unfold controlChar
      split
      · rename_i heq
        cases heq
        exact absurd rfl hc
      · rfl
    simp [hnone, hc]

/-! ### What begins no escape -/

/-- A character that makes an escape with every escape character, whatever comes after it. -/
def MakesEscape (c : Char) : Prop :=
  c ∈ ['\\', '\'', '"', '?'] ∨ c ∈ ['a', 'b', 'e', 'E', 'f', 'n', 'r', 't', 'v'] ∨
    (Text.digit? 8 c).isSome

instance : DecidablePred MakesEscape :=
  fun _ => inferInstanceAs (Decidable (_ ∨ _ ∨ _))

/-- An escape character begins no escape if what comes after it is another character that makes
none by itself, and neither begins a number nor a control escape. -/
theorem read?_eq_none_iff :
    read? escape (c :: rest) = none ↔
      c ≠ escape ∧ ¬MakesEscape c ∧
        (c ∈ ['x', 'u', 'U'] → ∀ d ∈ rest.head?, Text.digit? 16 d = none) ∧
        (c = 'c' → ∀ d ∈ rest.head?, EndsLine d) := by
  have hrules : read? escape (c :: rest) = none ↔ literal escape (c :: rest) = none ∧
      controlLetter escape (c :: rest) = none ∧ octal escape (c :: rest) = none ∧
      hexAfter 'x' 2 escape (c :: rest) = none ∧ hexAfter 'u' 4 escape (c :: rest) = none ∧
      hexAfter 'U' 8 escape (c :: rest) = none ∧ controlChar escape (c :: rest) = none := by
    simp [read?, rules, List.findSome?_eq_none_iff]
  rw [hrules, literal_eq_none_iff, controlLetter_eq_none_iff, octal_eq_none_iff,
    hexAfter_eq_none_iff, hexAfter_eq_none_iff, hexAfter_eq_none_iff, controlChar_eq_none_iff,
    MakesEscape, not_or, not_or, Option.not_isSome_iff_eq_none]
  have hhex : (c ∈ ['x', 'u', 'U'] → ∀ d ∈ rest.head?, Text.digit? 16 d = none) ↔
      (c = 'x' → ∀ d ∈ rest.head?, Text.digit? 16 d = none) ∧
      (c = 'u' → ∀ d ∈ rest.head?, Text.digit? 16 d = none) ∧
      (c = 'U' → ∀ d ∈ rest.head?, Text.digit? 16 d = none) := by
    simp only [List.mem_cons, List.not_mem_nil, or_false, or_imp]
  rw [hhex]
  constructor
  · rintro ⟨⟨hliteral, hescape⟩, hletter, hoctal, hx, hu, hU, hcontrol⟩
    exact ⟨hescape, ⟨hliteral, hletter, hoctal⟩, ⟨hx, hu, hU⟩, hcontrol⟩
  · rintro ⟨hescape, ⟨hliteral, hletter, hoctal⟩, ⟨hx, hu, hU⟩, hcontrol⟩
    exact ⟨⟨hliteral, hescape⟩, hletter, hoctal, hx, hu, hU, hcontrol⟩

end ShellWords.Escape.AnsiC
