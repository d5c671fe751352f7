/-! Texts as lists of characters, measured in UTF-8 bytes. An offset into a text counts bytes;
`Text.seek?` goes to an offset and refuses one that falls inside a character or past the end. -/

namespace ShellWords

/-- A text is the list of its characters. -/
abbrev Text := List Char

namespace Text

/-- The number of bytes that the UTF-8 form of a text takes. -/
def byteLength (text : Text) : Nat :=
  text.foldr (fun c n => c.utf8Size + n) 0

@[simp] theorem byteLength_nil : byteLength [] = 0 := rfl

@[simp] theorem byteLength_cons (c : Char) (text : Text) :
    byteLength (c :: text) = c.utf8Size + byteLength text := rfl

@[simp] theorem byteLength_append (a b : Text) :
    byteLength (a ++ b) = byteLength a + byteLength b := by
  induction a with
  | nil => simp
  | cons c a ih => simp [ih, Nat.add_assoc]

@[simp] theorem byteLength_reverse (text : Text) : byteLength text.reverse = byteLength text := by
  induction text with
  | nil => rfl
  | cons c text ih => simp [ih, Nat.add_comm]

/-- A place between two characters of a text. -/
structure Cursor where
  /-- The characters before the place, the nearest first. -/
  before : Text
  after : Text
deriving DecidableEq, Repr

def Cursor.text (cursor : Cursor) : Text :=
  cursor.before.reverse ++ cursor.after

/-- Moves a cursor right by a number of bytes, if that is a whole number of characters. -/
def forward? : Nat → Text → Text → Option Cursor
  | 0, before, after => some ⟨before, after⟩
  | _ + 1, _, [] => none
  | n + 1, before, c :: after =>
    if c.utf8Size ≤ n + 1 then forward? (n + 1 - c.utf8Size) (c :: before) after else none

/-- The cursor at a byte offset of `text`. -/
def seek? (offset : Nat) (text : Text) : Option Cursor :=
  forward? offset [] text

theorem forward?_eq_some_iff {n : Nat} {before after : Text} {cursor : Cursor} :
    forward? n before after = some cursor ↔
      ∃ moved, after = moved ++ cursor.after ∧ cursor.before = moved.reverse ++ before ∧
        byteLength moved = n := by
  induction after generalizing n before with
  | nil =>
    cases n with
    | zero =>
      constructor
      · intro h
        cases h
        exact ⟨[], by simp⟩
      · rintro ⟨moved, h, hb, -⟩
        obtain ⟨rfl, hc⟩ := List.append_eq_nil_iff.1 h.symm
        cases cursor
        exact congrArg some (by simpa using ⟨hb.symm, hc⟩)
    | succ n =>
      simp only [forward?, reduceCtorEq, false_iff]
      rintro ⟨moved, h, -, hn⟩
      obtain ⟨rfl, -⟩ := List.append_eq_nil_iff.1 h.symm
      simp at hn
  | cons c after ih =>
    have hc := c.utf8Size_pos
    cases n with
    | zero =>
      constructor
      · intro h
        cases h
        exact ⟨[], by simp⟩
      · rintro ⟨moved, h, hb, hn⟩
        cases moved with
        | nil =>
          cases cursor
          exact congrArg some (by simpa using ⟨hb.symm, h⟩)
        | cons d moved =>
          have := d.utf8Size_pos
          simp at hn
          omega
    | succ n =>
      simp only [forward?]
      split
      · rw [ih]
        constructor
        · rintro ⟨moved, h, hb, hn⟩
          exact ⟨c :: moved, by simp [h], by simp [hb], by simp; omega⟩
        · rintro ⟨moved, h, hb, hn⟩
          cases moved with
          | nil => simp at hn
          | cons d moved =>
            obtain ⟨rfl, rfl⟩ := List.cons.inj h
            simp only [byteLength_cons] at hn
            exact ⟨moved, rfl, by simp [hb], by omega⟩
      · simp only [reduceCtorEq, false_iff]
        rintro ⟨moved, h, -, hn⟩
        cases moved with
        | nil => simp at hn
        | cons d moved =>
          obtain ⟨rfl, -⟩ := List.cons.inj h
          simp only [byteLength_cons] at hn
          omega

/-- Seeking finds exactly the cut whose first part has the wanted number of bytes. -/
theorem seek?_eq_some_iff {offset : Nat} {text : Text} {cursor : Cursor} :
    seek? offset text = some cursor ↔
      cursor.text = text ∧ byteLength cursor.before = offset := by
  rw [seek?, forward?_eq_some_iff]
  constructor
  · rintro ⟨moved, rfl, h, rfl⟩
    simp [Cursor.text, h]
  · rintro ⟨rfl, rfl⟩
    exact ⟨cursor.before.reverse, by simp [Cursor.text]⟩

theorem seek?_append (before after : Text) :
    seek? (byteLength before) (before ++ after) = some ⟨before.reverse, after⟩ :=
  seek?_eq_some_iff.2 ⟨by simp [Cursor.text], by simp⟩

end Text

end ShellWords
