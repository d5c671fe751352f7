import Mathlib.Data.List.TakeDrop
import ShellWords.Proofs.Digits
import ShellWords.Text.Reader

/-! What readers take from the front of a text. A reader that is made of others does what the first
of them does and goes on with the text that is left; repeated reading is followed by `Takes`, one
value at a time, to the place where the reader refuses. -/

namespace ShellWords

/-- A text written character by character, each in one of the ways that there are for it. -/
inductive Text.Spelled (spells : Char → Text → Prop) : (text written : Text) → Prop where
  | nil : Spelled spells [] []
  | cons {c : Char} {spelled text written : Text} (hc : spells c spelled)
    (htext : Spelled spells text written) : Spelled spells (c :: text) (spelled ++ written)

theorem Text.Spelled.flatMap {spells : Char → Text → Prop} {write : Char → Text}
    (h : ∀ c, spells c (write c)) (text : Text) : Spelled spells text (text.flatMap write) := by
  induction text with
  | nil => exact .nil
  | cons c text ih => exact .cons (h c) ih

namespace Reader

variable {α β : Type} {text middle rest : Text}

theorem bind_of_some {reader : Reader α} {a : α} (h : reader text = some (a, rest))
    (next : α → Reader β) : (reader >>= next) text = next a rest := by
  show ((reader text).bind fun read => next read.1 read.2) = next a rest
  rw [h]
  rfl

theorem bind_of_none {reader : Reader α} (h : reader text = none) (next : α → Reader β) :
    (reader >>= next) text = none := by
  show ((reader text).bind fun read => next read.1 read.2) = none
  rw [h]
  rfl

theorem map_of_some {reader : Reader α} {a : α} (h : reader text = some (a, rest)) (f : α → β) :
    (f <$> reader) text = some (f a, rest) :=
  bind_of_some h fun a => pure (f a)

theorem seqRight_of_some {reader : Reader α} {a : α} (h : reader text = some (a, rest))
    (other : Reader β) : (reader *> other) text = other rest :=
  bind_of_some h fun _ => other

theorem seqRight_of_none {reader : Reader α} (h : reader text = none) (other : Reader β) :
    (reader *> other) text = none :=
  bind_of_none h fun _ => other

theorem seqLeft_of_some {reader : Reader α} {other : Reader β} {a : α} {b : β}
    (h : reader text = some (a, middle)) (hother : other middle = some (b, rest)) :
    (reader <* other) text = some (a, rest) :=
  (bind_of_some h fun a => other >>= fun _ => pure a).trans (bind_of_some hother _)

theorem orElse_of_some {reader other : Reader α} {a : α} (h : reader text = some (a, rest)) :
    (reader <|> other) text = some (a, rest) := by
  show ((reader text).orElse fun _ => other text) = some (a, rest)
  rw [h]
  rfl

theorem orElse_of_none {reader other : Reader α} (h : reader text = none) :
    (reader <|> other) text = other text := by
  show ((reader text).orElse fun _ => other text) = other text
  rw [h]
  rfl

theorem char_self (c : Char) (rest : Text) : char c (c :: rest) = some ((), rest) := by
  simp [char]

theorem char_of_ne {c d : Char} (h : d ≠ c) (rest : Text) : char c (d :: rest) = none :=
  if_neg h

theorem literal_of_ne {c d : Char} (h : d ≠ c) (text rest : Text) :
    literal (c :: text) (d :: rest) = none := by
  simp [literal, Ne.symm h]

theorem literal_append (text rest : Text) : literal text (text ++ rest) = some ((), rest) := by
  have hprefix : text.isPrefixOf (text ++ rest) = true :=
    List.isPrefixOf_iff_prefix.2 (List.prefix_append text rest)
  simp only [literal, hprefix, if_true, List.drop_left]

theorem takeWhile_eq (p : Char → Bool) (text : Text) :
    takeWhile p text = some (text.takeWhile p, text.dropWhile p) := by
  rw [takeWhile, List.span_eq_takeWhile_dropWhile]

/-- Reading again and again takes some values, one by one, and leaves a text that the reader
refuses. -/
inductive Takes (reader : Reader α) : Text → List α → Text → Prop where
  | stop {rest : Text} (h : reader rest = none) : Takes reader rest [] rest
  | next {text middle rest : Text} {a : α} {values : List α} (h : reader text = some (a, middle))
    (hshorter : middle.length < text.length) (hnext : Takes reader middle values rest) :
    Takes reader text (a :: values) rest

theorem Takes.manyOnto_eq {reader : Reader α} {values : List α} (h : Takes reader text values rest)
    {fuel : Text} (hfuel : text.length ≤ fuel.length) (done : List α) :
    manyOnto reader fuel done text = some (done.reverse ++ values, rest) := by
  induction h generalizing fuel done with
  | stop h =>
    cases fuel with
    | nil => simp [manyOnto]
    | cons c fuel => simp [manyOnto, h]
  | next h hshorter _ ih =>
    cases fuel with
    | nil => simp at hfuel; simp [hfuel] at hshorter
    | cons c fuel =>
      have hfuel' := Nat.lt_of_lt_of_le hshorter hfuel
      rw [manyOnto, h]
      simp only [ih (Nat.le_of_lt_succ hfuel'), List.reverse_cons, List.append_assoc,
        List.singleton_append]

theorem Takes.many_eq {reader : Reader α} {values : List α} (h : Takes reader text values rest) :
    many reader text = some (values, rest) :=
  h.manyOnto_eq (Nat.le_refl _) []

theorem sepBy_of_takes {reader : Reader α} {separator : Reader β} {first : α} {others : List α}
    (hfirst : reader text = some (first, middle))
    (hothers : Takes (separator *> reader) middle others rest) :
    sepBy reader separator text = some (first :: others, rest) := by
  have hsepBy1 : sepBy1 reader separator text = some (first :: others, rest) := by
    rw [sepBy1, bind_of_some hfirst, bind_of_some hothers.many_eq]
    rfl
  exact orElse_of_some hsepBy1

theorem sepBy_of_none {reader : Reader α} {separator : Reader β} (h : reader text = none) :
    sepBy reader separator text = some ([], text) :=
  orElse_of_none (bind_of_none h _)

/-- A text is read character by character as it is spelled, up to where the reader refuses. -/
theorem takes_spelled {reader : Reader Char} {spells : Char → Text → Prop}
    (hreads : ∀ {c spelled}, spells c spelled →
      spelled ≠ [] ∧ ∀ rest, reader (spelled ++ rest) = some (c, rest))
    (hstop : reader rest = none) {written : Text} (h : Text.Spelled spells text written) :
    Takes reader (written ++ rest) text rest := by
  induction h with
  | nil => exact .stop hstop
  | @cons c spelled text written hc _ ih =>
    obtain ⟨hne, hread⟩ := hreads hc
    have hlength := List.length_pos_iff.2 hne
    rw [List.append_assoc]
    refine .next (hread _) ?_ ih
    rw [@List.length_append _ spelled]
    omega

/-- A numeral of the right width is read as the number that it writes. -/
theorem digits_numeral {base width n : Nat} {numeral : Text}
    (h : Text.Numeral base width n numeral) (hbase : base ≤ 16) (rest : Text) :
    digits base width (numeral ++ rest) = some (n, rest) := by
  obtain ⟨hlength, hvalue⟩ := h.filterMap_digit? hbase
  simp only [digits, List.take_left' h.length_eq, List.drop_left' h.length_eq, hlength, if_true,
    hvalue]

end Reader

end ShellWords
