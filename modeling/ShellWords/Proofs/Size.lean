import Mathlib
import ShellWords.Proofs.AnsiC.Rules
import ShellWords.Proofs.Digits
import ShellWords.Proofs.Layout.Contribution

/-! Splitting does not make texts longer. No escape stands for more bytes than it is written in, so
that decoding a section never adds to it, and each word but the last has cost its line a separator:
`split_size`. -/

namespace ShellWords

namespace Text

theorem length_le_byteLength (text : Text) : text.length ≤ byteLength text := by
  induction text with
  | nil => exact Nat.le_refl 0
  | cons c text ih =>
    have := c.utf8Size_pos
    simp only [List.length_cons, byteLength_cons]
    omega

theorem byteLength_flatten (texts : List Text) :
    byteLength texts.flatten = (texts.map byteLength).sum := by
  induction texts with
  | nil => rfl
  | cons text texts ih => simp [ih]

theorem byteLength_take_add_drop (n : Nat) (text : Text) :
    byteLength (text.take n) + byteLength (text.drop n) = byteLength text := by
  rw [← byteLength_append, List.take_append_drop]

end Text

/-! ### Escapes -/

namespace Escape

/-- Where a pair is resolved, its escape character goes. -/
theorem byteLength_unescape_le (config : Config) (quote : Char) (raw : Text) :
    Text.byteLength (unescape config quote raw) ≤ Text.byteLength raw := by
  fun_induction unescape config quote raw with
  | case1 | case2 => exact Nat.le_refl _
  | case3 c d rest hpair ih =>
    simp only [Text.byteLength_cons]
    omega
  | case4 c d rest hpair ih =>
    simp only [Text.byteLength_cons] at ih ⊢
    omega

namespace AnsiC

/-- An escape lies within the text after its escape character, and its character takes no more
bytes than the escape, even if the escape character takes only one. -/
structure Decoded.Fits (decoded : Decoded) (text : Text) : Prop where
  used_le : decoded.used ≤ text.length
  size_le : decoded.char.utf8Size ≤ 1 + Text.byteLength (text.take decoded.used)

variable {escape : Char} {text : Text} {decoded : Decoded}

theorem Decoded.Fits.of_size_eq_one (hused : decoded.used ≤ text.length)
    (hsize : decoded.char.utf8Size = 1) : decoded.Fits text :=
  ⟨hused, by omega⟩

/-- The characters of an escape take at least one byte each. -/
theorem Decoded.Fits.of_size_le (hused : decoded.used ≤ text.length)
    (hsize : decoded.char.utf8Size ≤ 1 + decoded.used) : decoded.Fits text := by
  have htake := Text.length_le_byteLength (text.take decoded.used)
  rw [List.length_take] at htake
  exact ⟨hused, by omega⟩

theorem literal_fits (h : literal escape text = some decoded) : decoded.Fits text := by
  unfold literal at h
  split at h
  · split at h
    · cases h
      exact ⟨by simp, by simp⟩
    · cases h
  · cases h

theorem controlLetter_fits (h : controlLetter escape text = some decoded) : decoded.Fits text := by
  unfold controlLetter at h
  split at h <;> cases h <;> exact .of_size_eq_one (by simp) rfl

/-- The first `k` digits denote a character of one byte, and every digit after them pays for one
more byte. No character takes more than four. -/
theorem codePoint_size {base limit k : Nat} (hbase : ∀ n ≤ k, base ^ n ≤ 128) (hk : k ≤ 2)
    (h : codePoint base limit text = some decoded) :
    decoded.used ≤ text.length ∧ decoded.char.utf8Size + k ≤ 3 + decoded.used := by
  have hascii : ∀ code < 128, (charOfCode code).utf8Size = 1 := by decide
  have hlength := Text.digits_length_le_length base limit text
  have hvalue : Text.ofDigits base (Text.digits base limit text) <
      base ^ (Text.digits base limit text).length := Text.ofDigits_lt Text.lt_of_mem_digits
  obtain ⟨-, rfl⟩ := codePoint_eq_some_iff.1 h
  refine ⟨hlength, ?_⟩
  show (charOfCode _).utf8Size + k ≤ 3 + (Text.digits base limit text).length
  by_cases hfew : (Text.digits base limit text).length ≤ k
  · rw [hascii _ (Nat.lt_of_lt_of_le hvalue (hbase _ hfew))]
    omega
  · have hfour := Char.utf8Size_le_four
      (charOfCode (Text.ofDigits base (Text.digits base limit text)))
    omega

theorem octal_fits (h : octal escape text = some decoded) : decoded.Fits text := by
  obtain ⟨hused, hsize⟩ := codePoint_size (k := 2) (by decide) (by decide) h
  exact .of_size_le hused (by omega)

theorem hexAfter_fits {letter : Char} {limit : Nat}
    (h : hexAfter letter limit escape text = some decoded) : decoded.Fits text := by
  unfold hexAfter at h
  split at h
  · split at h
    · obtain ⟨code, hcode, rfl⟩ := Option.map_eq_some_iff.1 h
      obtain ⟨hused, hsize⟩ := codePoint_size (k := 1) (by decide) (by decide) hcode
      refine .of_size_le (Nat.succ_le_succ hused) ?_
      show code.char.utf8Size ≤ 1 + (code.used + 1)
      omega
    · cases h
  · cases h

theorem controlChar_fits (h : controlChar escape text = some decoded) : decoded.Fits text := by
  have hcontrol : ∀ code < 32, (Char.ofNat code).utf8Size = 1 := by decide
  unfold controlChar at h
  split at h
  · split at h
    · cases h
    · split at h
      · cases h
        exact .of_size_eq_one (by simp) rfl
      · cases h
        exact .of_size_eq_one (by simp) (hcontrol _ (Nat.mod_lt _ (by decide)))
  · cases h

theorem fits_of_mem_rules {rule : Rule} (hrule : rule ∈ rules)
    (h : rule escape text = some decoded) : decoded.Fits text := by
  simp only [rules, List.mem_cons, List.not_mem_nil, or_false] at hrule
  rcases hrule with rfl | rfl | rfl | rfl | rfl | rfl | rfl
  · exact literal_fits h
  · exact controlLetter_fits h
  · exact octal_fits h
  · exact hexAfter_fits h
  · exact hexAfter_fits h
  · exact hexAfter_fits h
  · exact controlChar_fits h

theorem read?_fits (h : read? escape text = some decoded) : decoded.Fits text := by
  obtain ⟨rule, hrule, hread⟩ := List.exists_of_findSome?_eq_some h
  exact fits_of_mem_rules hrule hread

theorem byteLength_decode_le (config : Config) (raw : Text) :
    Text.byteLength (decode config raw) ≤ Text.byteLength raw := by
  fun_induction decode config raw with
  | case1 => exact Nat.le_refl _
  | case2 c rest decoded hread ih =>
    have hescape := hread
    rw [escapeAfter?_of_mem (mem_of_escapeAfter? hread)] at hescape
    have hsize := (read?_fits hescape).size_le
    have hrest := Text.byteLength_take_add_drop decoded.used rest
    have hpos := c.utf8Size_pos
    simp only [Text.byteLength_cons]
    omega
  | case3 c rest hread ih =>
    simp only [Text.byteLength_cons]
    omega

end AnsiC

end Escape

/-! ### Words -/

theorem byteLength_joinLines_le (config : Config) (body : Text) :
    Text.byteLength (joinLines config body) ≤ Text.byteLength body := by
  fun_induction joinLines config body with
  | case1 | case2 => exact Nat.le_refl _
  | case3 | case4 =>
    simp only [Text.byteLength_cons]
    omega
  | case5 c d rest hescape ih =>
    simp only [Text.byteLength_cons] at ih ⊢
    omega

theorem QuoteMode.byteLength_decode_le (config : Config) (mode : QuoteMode) (raw : Text) :
    Text.byteLength (mode.decode config raw) ≤ Text.byteLength raw := by
  cases mode with
  | plain quote =>
    simp only [decode]
    split
    · exact Escape.byteLength_unescape_le config quote raw
    · exact Nat.le_refl _
  | ansiC => exact Escape.AnsiC.byteLength_decode_le config raw
  | locale => exact Escape.byteLength_unescape_le config '"' raw

theorem QuoteMode.byteLength_contribution_le (config : Config) (mode : QuoteMode) (body : Text) :
    Text.byteLength (mode.contribution config body) ≤ Text.byteLength body := by
  refine Nat.le_trans (byteLength_decode_le config mode _) ?_
  unfold kept
  split
  · exact byteLength_joinLines_le config body
  · exact Nat.le_refl _

namespace Gathered

/-- The bytes of the words so far, and one for a separator after each completed word. -/
def size (gathered : Gathered) : Nat :=
  Text.byteLength gathered.text + gathered.words.length

/-- Completing the started word makes room for a separator necessary, and nothing else. -/
theorem size_cut_le (gathered : Gathered) : gathered.cut.size ≤ gathered.size + 1 := by
  have hwords : gathered.cut.words.length ≤ gathered.words.length + 1 := by
    cases hstarted : gathered.started <;> simp [cut, hstarted]
  unfold size
  rw [text_cut]
  omega

theorem size_extend (gathered : Gathered) (added : Text) :
    (gathered.extend added).size = gathered.size + Text.byteLength added := by
  unfold size
  rw [text_extend, Text.byteLength_append, words_extend]
  omega

/-- A piece has room for what it adds, and a separator for itself. -/
theorem size_add_le (config : Config) (gathered : Gathered) (piece : Piece) :
    (gathered.add config piece).size ≤ gathered.size + Text.byteLength piece.text := by
  cases piece with
  | escaped escape c =>
    simp only [add]
    split
    · exact Nat.le_add_right _ _
    · rw [size_extend]
      simp only [Piece.text, Text.byteLength_cons]
      omega
  | quoted opening mode body =>
    have hbody := mode.byteLength_contribution_le config body
    simp only [add, size_extend, Piece.text, Text.byteLength_append]
    omega
  | blank c =>
    have hcut := gathered.size_cut_le
    have hpos := c.utf8Size_pos
    simp only [add, Piece.text, Text.byteLength_cons]
    omega
  | bare c =>
    simp only [add, size_extend]
    exact Nat.le_refl _

theorem size_addAll_le (config : Config) (gathered : Gathered) (pieces : List Piece) :
    (gathered.addAll config pieces).size ≤
      gathered.size + Text.byteLength (Piece.texts pieces) := by
  induction pieces generalizing gathered with
  | nil => exact Nat.le_refl _
  | cons piece pieces ih =>
    have hadd := gathered.size_add_le config piece
    have hrest := ih (gathered.add config piece)
    rw [addAll_cons, Piece.texts, List.flatMap_cons, Text.byteLength_append]
    unfold Piece.texts at hrest
    omega

end Gathered

/-- The words of a line and one separator between each two of them take no more bytes than the
line, and decoding a section never gives more bytes than it is given. -/
theorem split_size (config : Config) :
    (∀ line words, split config line = .ok words →
      (words.map Text.byteLength).sum + (words.length - 1) ≤ Text.byteLength line) ∧
      (∀ quote raw, Text.byteLength (Escape.unescape config quote raw) ≤ Text.byteLength raw) ∧
      ∀ raw, Text.byteLength (Escape.AnsiC.decode config raw) ≤ Text.byteLength raw := by
  refine ⟨fun line words h => ?_, Escape.byteLength_unescape_le config,
    Escape.AnsiC.byteLength_decode_le config⟩
  have hpieces := Gathered.size_addAll_le config {} (layout config false line).pieces
  have hcut := (Gathered.addAll config {} (layout config false line).pieces).size_cut_le
  have hempty : Gathered.size {} = 0 := rfl
  have hsize : Gathered.size { words } = (words.map Text.byteLength).sum + words.length := by
    simp [Gathered.size, Gathered.text, Text.byteLength_flatten]
  rw [texts_of_split h] at hpieces
  rw [(layout_of_split h).2, hsize] at hcut
  cases words with
  | nil => exact Nat.zero_le _
  | cons word words =>
    rw [List.length_cons] at hcut ⊢
    omega

/-- The line is `a ''⏎$'^uD800^377'` with a line end for the arrow. An empty word stands between the
other two, and the two escapes of the last word are decoded to three bytes and to two. -/
theorem split_size_carets :
    let config : Config := { escapes := ['^'] }
    let line : Text := ['a', ' ', '\'', '\'', '\n', '$', '\'', '^', 'u', 'D', '8', '0', '0', '^',
      '3', '7', '7', '\'']
    let words : List Text := [['a'], [], ['\uFFFD', 'ÿ']]
    split config line = .ok words ∧
      (words.map Text.byteLength).sum + (words.length - 1) ≤ Text.byteLength line := by
  intro config line words
  have hsplit : split config line = .ok words := by cbv
  exact ⟨hsplit, (split_size config).1 line words hsplit⟩

end ShellWords
