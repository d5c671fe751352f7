import ShellWords.Proofs.AnsiC.Rules
import ShellWords.Proofs.Digits
import ShellWords.Proofs.Protection
import ShellWords.Proofs.RoundTrip

/-! Words made of segments in the five styles of writing text in a line: behind backslashes, and
between single, double, locale and ANSI-C quotes. Segments that stand next to each other are read
one by one, each as the text that it writes, and together they are one word: `split_segments`. -/

namespace ShellWords

/-! ### Text in ANSI-C sections -/

namespace Escape.AnsiC

/-- The ways to write a character in an ANSI-C section by its code point, or as it is. -/
inductive Spells (c : Char) : Text → Prop where
  | long {hex : Text} (hhex : Text.Numeral 16 8 c.toNat hex) : Spells c ('\\' :: 'U' :: hex)
  | short {hex : Text} (hhex : Text.Numeral 16 4 c.toNat hex) : Spells c ('\\' :: 'u' :: hex)
  | byte {hex : Text} (hhex : Text.Numeral 16 2 c.toNat hex) : Spells c ('\\' :: 'x' :: hex)
  | octal {oct : Text} (hoct : Text.Numeral 8 3 c.toNat oct) : Spells c ('\\' :: oct)
  | raw (hescape : c ≠ '\\') (hquote : c ≠ '\'') : Spells c [c]

/-- A text written character by character. -/
inductive SpellsAll : Text → Text → Prop where
  | nil : SpellsAll [] []
  | cons {c : Char} {text spelled rest : Text} (hc : Spells c spelled)
    (htext : SpellsAll text rest) : SpellsAll (c :: text) (spelled ++ rest)

theorem charOfCode_toNat (c : Char) : charOfCode c.toNat = c := by
  simp [charOfCode, Text.charOfCode?_toNat]

theorem codePoint_numeral {base width : Nat} {c : Char} {text : Text}
    (h : Text.Numeral base width c.toNat text) (hbase : base ≤ 16) (hwidth : 0 < width)
    (rest : Text) : codePoint base width (text ++ rest) = some ⟨c, width⟩ := by
  obtain ⟨values, hlength, hvalue, hdigits⟩ := h.digits_eq hbase
  rw [codePoint, hdigits]
  cases values with
  | nil => exact absurd hlength (Nat.ne_of_lt hwidth)
  | cons d values =>
    simp only [hvalue, charOfCode_toNat, hlength]

theorem hexAfter_numeral {letter c : Char} {limit : Nat} {hex : Text}
    (h : Text.Numeral 16 limit c.toNat hex) (hlimit : 0 < limit) (rest : Text) :
    hexAfter letter limit '\\' (letter :: (hex ++ rest)) = some ⟨c, limit + 1⟩ := by
  simp [hexAfter, codePoint_numeral h (Nat.le_refl _) hlimit]

theorem hexAfter_of_ne {letter c : Char} (h : c ≠ letter) (limit : Nat) (escape : Char)
    (rest : Text) : hexAfter letter limit escape (c :: rest) = none := by
  simp [hexAfter, h]

/-- The characters that alone make an escape together with a backslash. -/
def single : Text :=
  ['\\', '\'', '"', '?', 'a', 'b', 'e', 'E', 'f', 'n', 'r', 't', 'v']

/-- Neither of the first two rules reads on after a backslash where another character follows. -/
theorem literal_controlLetter_eq_none {c : Char} (h : c ∉ single) (rest : Text) :
    literal '\\' (c :: rest) = none ∧ controlLetter '\\' (c :: rest) = none := by
  have hletter : c ∉ ['a', 'b', 'e', 'E', 'f', 'n', 'r', 't', 'v'] :=
    fun hmem => h (List.mem_append_right ['\\', '\'', '"', '?'] hmem)
  have hliteral : c ∉ ['\\', '\'', '"', '?'] :=
    fun hmem => h (List.mem_append_left _ hmem)
  exact ⟨literal_eq_none_iff.2 ⟨hliteral, List.ne_of_not_mem_cons hliteral⟩,
    controlLetter_eq_none_iff.2 hletter⟩

/-- The three hexadecimal forms differ in their letters, and no form before them begins so. -/
theorem read?_hex {letter c : Char} {limit : Nat} {hex : Text}
    (hform : (letter, limit) ∈ [('x', 2), ('u', 4), ('U', 8)])
    (h : Text.Numeral 16 limit c.toNat hex) (rest : Text) :
    read? '\\' (letter :: (hex ++ rest)) = some ⟨c, limit + 1⟩ := by
  have hforms : ∀ form ∈ [('x', 2), ('u', 4), ('U', 8)],
      form.1 ∉ single ∧ Text.digit? 8 form.1 = none := by decide
  obtain ⟨hsingle, hoctal⟩ := hforms _ hform
  obtain ⟨hliteral, hletter⟩ := literal_controlLetter_eq_none hsingle (hex ++ rest)
  simp only [read?, rules, List.findSome?_cons, hliteral, hletter, octal_eq_none_iff.2 hoctal]
  simp only [List.mem_cons, Prod.mk.injEq, List.not_mem_nil, or_false] at hform
  rcases hform with ⟨rfl, rfl⟩ | ⟨rfl, rfl⟩ | ⟨rfl, rfl⟩ <;>
    simp [hexAfter_of_ne, hexAfter_numeral h]

theorem read?_octal {c : Char} {oct : Text} (h : Text.Numeral 8 3 c.toNat oct) (rest : Text) :
    read? '\\' (oct ++ rest) = some ⟨c, 3⟩ := by
  have hcode : octal '\\' (oct ++ rest) = some ⟨c, 3⟩ :=
    codePoint_numeral h (by decide) (by decide) rest
  obtain ⟨first, digits, rfl⟩ : ∃ first digits, oct = first :: digits := by
    generalize c.toNat = n at h
    cases h
    exact ⟨_, _, rfl⟩
  have hsingle : first ∉ single := by
    obtain ⟨d, hd, hvalue⟩ := h.digitValue?_of_mem (by decide) first List.mem_cons_self
    have hnone : ∀ e ∈ single, Text.digit? 8 e = none := by
      simp [single, Text.digit?, Text.digitValue?]
    intro hmem
    have hdigit : Text.digit? 8 first = some d := by simp [Text.digit?, hvalue, hd]
    rw [hnone first hmem] at hdigit
    cases hdigit
  rw [List.cons_append] at hcode ⊢
  obtain ⟨hliteral, hletter⟩ := literal_controlLetter_eq_none hsingle (digits ++ rest)
  simp only [read?, rules, List.findSome?_cons, hliteral, hletter, hcode]

theorem decode_escape {text : Text} {decoded : Decoded} (h : read? '\\' text = some decoded) :
    decode {} ('\\' :: text) = decoded.char :: decode {} (text.drop decoded.used) :=
  decode_of_some (by rw [escapeAfter?_of_mem List.mem_cons_self, h])

/-- A written character is decoded, whatever comes after it. -/
theorem Spells.decode_append {c : Char} {spelled : Text} (h : Spells c spelled) (rest : Text) :
    decode {} (spelled ++ rest) = c :: decode {} rest := by
  have hhex : ∀ letter limit hex, (letter, limit) ∈ [('x', 2), ('u', 4), ('U', 8)] →
      Text.Numeral 16 limit c.toNat hex →
      decode {} ('\\' :: letter :: hex ++ rest) = c :: decode {} rest := by
    intro letter limit hex hform hhex
    have hread := read?_hex hform hhex rest
    rw [List.cons_append, List.cons_append, decode_escape hread, List.drop_succ_cons,
      List.drop_left' hhex.length_eq]
  cases h with
  | long h => exact hhex 'U' 8 _ (by decide) h
  | short h => exact hhex 'u' 4 _ (by decide) h
  | byte h => exact hhex 'x' 2 _ (by decide) h
  | octal h =>
    rw [List.cons_append, decode_escape (read?_octal h rest),
      List.drop_left' h.length_eq]
  | raw hescape =>
    exact decode_of_none (escapeAfter?_of_not_mem (by simpa using hescape) rest)

theorem SpellsAll.decode_eq {text spelled : Text} (h : SpellsAll text spelled) :
    decode {} spelled = text := by
  induction h with
  | nil => simp [decode]
  | cons hc _ ih => rw [hc.decode_append, ih]

end Escape.AnsiC

/-! ### Written characters inside a section -/

theorem Text.Numeral.plain {base width n : Nat} {text : Text}
    (h : Text.Numeral base width n text) (hbase : base ≤ 16) :
    ∀ c ∈ text, c ≠ '\\' ∧ c ≠ '\'' ∧ c ≠ '\n' := by
  have hnone : ∀ c ∈ ['\\', '\'', '\n'], Text.digitValue? c = none := by
    simp [Text.digitValue?]
  intro c hc
  obtain ⟨d, -, hvalue⟩ := h.digitValue?_of_mem hbase c hc
  have hfree : c ∉ ['\\', '\'', '\n'] := by
    intro hmem
    rw [hnone c hmem] at hvalue
    cases hvalue
  simpa using hfree

/-- Writing a character splits no pair, and leaves no escape character before a line end. -/
theorem Escape.AnsiC.Spells.isVerbatim {c : Char} {spelled body : Text} (h : Spells c spelled)
    (hbody : IsVerbatim {} .ansiC body) : IsVerbatim {} .ansiC (spelled ++ body) := by
  have hplain : ∀ {e : Char}, e ≠ '\\' → ({} : Config).isEscape e = false := by
    intro e he
    simp [Config.isEscape, he]
  have htail : ∀ {text : Text}, (∀ e ∈ text, e ≠ '\\' ∧ e ≠ '\'' ∧ e ≠ '\n') →
      IsVerbatim {} .ansiC (text ++ body) := by
    intro text htext
    exact .chars (fun e he => ⟨hplain (htext e he).1, (htext e he).2.1⟩) hbody
  cases h with
  | long h | short h | byte h =>
    exact .pair (by decide) (by decide) (htail (h.plain (Nat.le_refl _)))
  | @octal oct h =>
    have hoct := h.plain (by decide)
    have hlength := h.length_eq
    cases oct with
    | nil => cases hlength
    | cons d oct =>
      exact .pair (by decide) (hoct d List.mem_cons_self).2.2
        (htail fun e he => hoct e (List.mem_cons_of_mem d he))
  | raw hescape hquote =>
    exact .char (by simp [hplain hescape]) hquote hbody

theorem Escape.AnsiC.SpellsAll.isVerbatim {text spelled : Text} (h : SpellsAll text spelled) :
    IsVerbatim {} .ansiC spelled := by
  induction h with
  | nil => exact .nil (by decide)
  | cons hc _ ih => exact hc.isVerbatim ih

/-! ### Segments -/

/-- What a character becomes between double quotes. -/
def protect (c : Char) : Text :=
  if c = '\\' ∨ c = '"' then ['\\', c] else [c]

/-- The styles in which a part of a line writes a text. -/
inductive Writes : (text written : Text) → Prop where
  | backslash {text : Text} (hne : text ≠ []) (hlines : '\n' ∉ text) :
    Writes text (text.flatMap fun c => ['\\', c])
  | single {text : Text} (hquote : '\'' ∉ text) : Writes text ('\'' :: text ++ ['\''])
  | double {text : Text} : Writes text ('"' :: text.flatMap protect ++ ['"'])
  | locale {text : Text} : Writes text ('$' :: '"' :: text.flatMap protect ++ ['"'])
  | ansiC {text body : Text} (hbody : Escape.AnsiC.SpellsAll text body) :
    Writes text ('$' :: '\'' :: body ++ ['\''])

/-- A part of a line that writes a text in one of the styles. -/
structure Segment where
  text : Text
  written : Text
  writes : Writes text written

theorem protect_eq : protect = ({} : Config).protect '"' '\\' := by
  funext c
  simp [protect, Config.protect, Config.isEscape, or_comm]

theorem isVerbatim_flatMap_protect (mode : QuoteMode) (hmode : mode.honorsEscapes {} = true)
    (hclosing : mode.closing = '"') (text : Text) : IsVerbatim {} mode (text.flatMap protect) := by
  have hescape : ({} : Config).isEscape '\\' = true := rfl
  have hplain : ({} : Config).isEscape mode.closing = false := by rw [hclosing]; rfl
  have hlines : ∀ c ∈ text, c = mode.closing ∨ ({} : Config).isEscape c = true → c ≠ '\n' := by
    rintro c - hc rfl
    rw [hclosing] at hc
    exact absurd hc (by decide)
  have hverbatim := isVerbatim_protect hescape mode hmode hplain hlines
  rwa [hclosing, ← protect_eq] at hverbatim

theorem Escape.unescape_flatMap_protect (text : Text) :
    unescape {} '"' (text.flatMap protect) = text := by
  rw [protect_eq]
  exact unescape_protect rfl text

section Run

variable (size : Nat) (gathered : Gathered)

theorem run_backslash {text : Text} (hne : text ≠ []) (hlines : '\n' ∉ text) (rest : Text) :
    (layout {} false ((text.flatMap fun c => ['\\', c]) ++ rest)).run {} size gathered =
      (layout {} false rest).run {} size (gathered.extend text) := by
  induction text generalizing gathered with
  | nil => exact absurd rfl hne
  | cons c text ih =>
    obtain ⟨hc, hlines⟩ := List.ne_and_not_mem_of_not_mem_cons hlines
    have hfront : IsFront {} false ('\\' :: c :: ((text.flatMap fun c => ['\\', c]) ++ rest))
        (.next (.escaped '\\' c) false ((text.flatMap fun c => ['\\', c]) ++ rest)) :=
      .escaped (by decide)
    rw [List.flatMap_cons, List.append_assoc, List.cons_append, List.singleton_append,
      hfront.layout_next, Layout.run_cons, Gathered.add, if_neg hc.symm]
    cases text with
    | nil => rfl
    | cons d text =>
      rw [ih _ (List.cons_ne_nil d text) hlines, Gathered.extend_extend]
      rfl

/-- A segment is read as the text that it writes, whatever comes before and after it. -/
theorem run_written {text written : Text} (h : Writes text written) (rest : Text) :
    (layout {} false (written ++ rest)).run {} size gathered =
      (layout {} false rest).run {} size (gathered.extend text) := by
  cases h with
  | backslash hne hlines => exact run_backslash size gathered hne hlines rest
  | single hquote =>
    rw [List.append_assoc]
    exact run_single readsQuoted_default size gathered hquote
  | double =>
    have hopening : ∀ inside, opening? {} false '"' ([] ++ inside) =
        some (['"'], .plain '"', inside) := fun _ => rfl
    rw [List.append_assoc]
    exact run_section (by decide) hopening
      (isVerbatim_flatMap_protect (.plain '"') rfl rfl text)
      (Escape.unescape_flatMap_protect text) size gathered rest
  | locale =>
    have hopening : ∀ inside, opening? {} false '$' (['"'] ++ inside) =
        some (['$', '"'], .locale, inside) := fun _ => rfl
    rw [List.append_assoc]
    exact run_section (by decide) hopening
      (isVerbatim_flatMap_protect .locale rfl rfl text)
      (Escape.unescape_flatMap_protect text) size gathered rest
  | ansiC hbody =>
    have hopening : ∀ inside, opening? {} false '$' (['\''] ++ inside) =
        some (['$', '\''], .ansiC, inside) := fun _ => rfl
    rw [List.append_assoc]
    exact run_section (by decide) hopening hbody.isVerbatim hbody.decode_eq size gathered rest

theorem run_segments (segment : Segment) (segments : List Segment) :
    (layout {} false ((segment :: segments).flatMap Segment.written)).run {} size gathered =
      (layout {} false []).run {} size
        (gathered.extend ((segment :: segments).flatMap Segment.text)) := by
  induction segments generalizing segment gathered with
  | nil => simpa using run_written size gathered segment.writes []
  | cons next segments ih =>
    rw [List.flatMap_cons, run_written size gathered segment.writes, ih, Gathered.extend_extend]
    rfl

end Run

/-- Segments that stand next to each other are one word, which is their texts one after another. -/
theorem split_segments {segments : List Segment} (h : segments ≠ []) :
    split {} (segments.flatMap Segment.written) = .ok [segments.flatMap Segment.text] := by
  cases segments with
  | nil => exact absurd rfl h
  | cons segment segments =>
    rw [split, run_eq_runByPieces, runByPieces, run_segments, IsFront.complete.layout_stop]
    rfl

/-- The line is `\$'$'$"\""$'\x411'`: two dollars that open nothing stand before a quote, and the
digit after an escape is not part of it. -/
theorem split_segments_dollars :
    ∃ segments : List Segment, segments ≠ [] ∧
      segments.flatMap Segment.written =
        ['\\', '$', '\'', '$', '\'', '$', '"', '\\', '"', '"', '$', '\'', '\\', 'x', '4', '1', '1',
          '\''] ∧
      split {} (segments.flatMap Segment.written) = .ok [['$', '$', '"', 'A', '1']] := by
  have hhex : Text.Numeral 16 2 'A'.toNat ['4', '1'] :=
    .cons (d := 4) (by decide) (.inl rfl) (.cons (d := 1) (by decide) (.inl rfl) .nil)
  have hdigit : Escape.AnsiC.Spells '1' ['1'] := .raw (by decide) (by decide)
  let segments : List Segment :=
    [⟨['$'], _, .backslash (by decide) (by decide)⟩, ⟨['$'], _, .single (by decide)⟩,
      ⟨['"'], _, .locale⟩, ⟨['A', '1'], _, .ansiC (.cons (.byte hhex) (.cons hdigit .nil))⟩]
  have hne : segments ≠ [] := List.cons_ne_nil _ _
  exact ⟨segments, hne, rfl, split_segments hne⟩

end ShellWords
