import ShellWords.Json.Parser
import ShellWords.Json.Printer
import ShellWords.Proofs.Reader

/-! JSON is read as it is written. A string is read as the text that is spelled in it, in whatever
way each character is (`Spells`). `Reads` says so of a value with whatever text after it, so that
the values can be put together, and an array is read item by item. -/

namespace ShellWords.Json

open Reader

/-! ### Strings -/

/-- The letters that a backslash makes another character of, and that character. -/
def letters : List (Char × Char) :=
  [('"', '"'), ('\\', '\\'), ('/', '/'), ('b', '\x08'), ('f', '\x0c'), ('n', '\n'), ('r', '\r'),
    ('t', '\t')]

/-- The ways to write a character in a string: as it is, by a letter, by its code point, or by the
two surrogates that stand for it. -/
inductive Spells (c : Char) : Text → Prop where
  | raw (hquote : c ≠ '"') (hbackslash : c ≠ '\\') (hcontrol : 32 ≤ c.toNat) : Spells c [c]
  | letter {letter : Char} (h : (letter, c) ∈ letters) : Spells c ['\\', letter]
  | unit {hex : Text} (h : Text.Numeral 16 4 c.toNat hex) : Spells c ('\\' :: 'u' :: hex)
  | pair {high low : Nat} {first second : Text} (hhigh : high < 0x400) (hlow : low < 0x400)
    (hc : c.toNat = 0x10000 + high * 0x400 + low)
    (hfirst : Text.Numeral 16 4 (0xd800 + high) first)
    (hsecond : Text.Numeral 16 4 (0xdc00 + low) second) :
    Spells c ('\\' :: 'u' :: (first ++ '\\' :: 'u' :: second))

theorem stringPart_letter {letter c : Char} (h : (letter, c) ∈ letters) (rest : Text) :
    stringPart ('\\' :: letter :: rest) = some (.char c, rest) := by
  have hletters : ∀ pair ∈ letters, pair.1 ≠ 'u' ∧ escapeLetter? pair.1 = some pair.2 := by decide
  obtain ⟨hu, hescape⟩ := hletters _ h
  simp only [stringPart, hescape]
  rfl

theorem stringPart_unit {code : Nat} {hex : Text} (h : Text.Numeral 16 4 code hex) (rest : Text) :
    stringPart ('\\' :: 'u' :: (hex ++ rest)) = some (.unit code, rest) := by
  rw [stringPart, digits_numeral h (Nat.le_refl _)]
  rfl

theorem ofStringParts_unit (c : Char) (parts : List StringPart) :
    ofStringParts (.unit c.toNat :: parts) = (ofStringParts parts).map (c :: ·) := by
  have hsurrogate : isHighSurrogate c.toNat = false := by
    have hvalid : c.toNat < 0xd800 ∨ 0xdfff < c.toNat ∧ c.toNat < 0x110000 := c.valid
    simp only [isHighSurrogate, Bool.and_eq_false_iff, decide_eq_false_iff_not]
    omega
  cases parts with
  | nil => simp [ofStringParts, Text.charOfCode?_toNat]
  | cons part parts =>
    cases part with
    | char d => simp [ofStringParts, Text.charOfCode?_toNat]
    | unit low => simp [ofStringParts, Text.charOfCode?_toNat, hsurrogate]

theorem ofStringParts_pair {c : Char} {high low : Nat} (hhigh : high < 0x400) (hlow : low < 0x400)
    (hc : c.toNat = 0x10000 + high * 0x400 + low) (parts : List StringPart) :
    ofStringParts (.unit (0xd800 + high) :: .unit (0xdc00 + low) :: parts) =
      (ofStringParts parts).map (c :: ·) := by
  have hfirst : isHighSurrogate (0xd800 + high) = true := by
    simp only [isHighSurrogate, Bool.and_eq_true, decide_eq_true_eq]
    omega
  have hsecond : ofSurrogates? (0xd800 + high) (0xdc00 + low) = some c := by
    rw [ofSurrogates?, if_pos (by omega), Nat.add_sub_cancel_left, Nat.add_sub_cancel_left, ← hc,
      Text.charOfCode?_toNat]
  simp only [ofStringParts, hfirst, if_true, hsecond, Option.bind_some]

/-- A character is read as one part or two, and what they denote comes before what the parts after
them denote. -/
theorem Spells.takes {c : Char} {spelled text rest : Text} {parts : List StringPart}
    (h : Spells c spelled) (htakes : Takes stringPart text parts rest) :
    ∃ more, Takes stringPart (spelled ++ text) (more ++ parts) rest ∧
      ofStringParts (more ++ parts) = (ofStringParts parts).map (c :: ·) := by
  have hunit : ∀ {code : Nat} {hex text : Text} {parts : List StringPart},
      Text.Numeral 16 4 code hex → Takes stringPart text parts rest →
      Takes stringPart ('\\' :: 'u' :: (hex ++ text)) (.unit code :: parts) rest := by
    intro code hex text parts hhex htakes
    refine .next (stringPart_unit hhex text) ?_ htakes
    simp only [List.length_cons, List.length_append]
    omega
  cases h with
  | raw hquote hbackslash hcontrol =>
    have hread : stringPart (c :: text) = some (.char c, text) := by
      simp [stringPart, hquote, hbackslash, hcontrol]
    exact ⟨[.char c], .next hread (Nat.lt_succ_self _) htakes, rfl⟩
  | letter hletter =>
    have hshorter : text.length < text.length + 2 := by omega
    exact ⟨[.char c], .next (stringPart_letter hletter text) hshorter htakes, rfl⟩
  | unit hhex => exact ⟨[.unit c.toNat], hunit hhex htakes, ofStringParts_unit c parts⟩
  | @pair high low first second hhigh hlow hc hfirst hsecond =>
    refine ⟨[.unit (0xd800 + high), .unit (0xdc00 + low)], ?_,
      ofStringParts_pair hhigh hlow hc parts⟩
    have hboth := hunit hfirst (hunit hsecond htakes)
    simpa only [List.cons_append, List.append_assoc, List.nil_append] using hboth

theorem takes_stringPart {text written : Text} (h : Text.Spelled Spells text written)
    (rest : Text) :
    ∃ parts, Takes stringPart (written ++ '"' :: rest) parts ('"' :: rest) ∧
      ofStringParts parts = some text := by
  induction h with
  | nil => exact ⟨[], .stop rfl, rfl⟩
  | @cons c spelled text written hc _ ih =>
    obtain ⟨parts, htakes, hparts⟩ := ih
    obtain ⟨more, hmore, hdenotes⟩ := hc.takes htakes
    refine ⟨more ++ parts, ?_, by rw [hdenotes, hparts]; rfl⟩
    rw [List.append_assoc]
    exact hmore

/-- A string is read as the text that is spelled between its quotes. -/
theorem stringText_spelled {text written : Text} (h : Text.Spelled Spells text written)
    (rest : Text) : stringText ('"' :: (written ++ '"' :: rest)) = some (some text, rest) := by
  obtain ⟨parts, htakes, hparts⟩ := takes_stringPart h rest
  rw [stringText, bind_of_some (char_self _ _), bind_of_some htakes.many_eq,
    bind_of_some (char_self _ _), hparts]
  rfl

theorem spells_control {c : Char} {high low : Nat} (hhigh : high < 16) (hlow : low < 16)
    (h : 16 * high + low = c.toNat) :
    Spells c ['\\', 'u', '0', '0', Nat.digitChar high, Nat.digitChar low] := by
  have hone : Text.Numeral 16 1 low [Nat.digitChar low] := by
    simpa using Text.Numeral.cons hlow (.inl rfl) .nil
  have htwo : Text.Numeral 16 2 (high * 16 + low) [Nat.digitChar high, Nat.digitChar low] := by
    simpa using Text.Numeral.cons hhigh (.inl rfl) hone
  have hzero : ∀ {width n : Nat} {text : Text}, Text.Numeral 16 width n text →
      Text.Numeral 16 (width + 1) n ('0' :: text) := by
    intro width n text htext
    have hdigit : Text.IsDigit 0 '0' := .inl rfl
    simpa using Text.Numeral.cons (by decide : 0 < 16) hdigit htext
  have hhex := hzero (hzero htwo)
  rw [Nat.mul_comm, h] at hhex
  exact .unit hhex

theorem spells_printChar (c : Char) : Spells c (printChar c) := by
  have hletter : ∀ {d letter : Char}, c = d → (letter, d) ∈ letters → Spells c ['\\', letter] := by
    rintro d letter rfl h
    exact .letter h
  unfold printChar
  split_ifs with hquote hbackslash hbackspace hfeed hline hreturn htab hbelow16 hbelow32
  · exact hletter hquote (by decide)
  · exact hletter hbackslash (by decide)
  · exact hletter hbackspace (by decide)
  · exact hletter hfeed (by decide)
  · exact hletter hline (by decide)
  · exact hletter hreturn (by decide)
  · exact hletter htab (by decide)
  · exact spells_control (by decide : 0 < 16) hbelow16 (by omega)
  · exact spells_control (by decide : 1 < 16) (by omega) (by omega)
  · exact .raw hquote hbackslash (by omega)

theorem printString_append (text rest : Text) :
    printString (some text) ++ rest = '"' :: (text.flatMap printChar ++ '"' :: rest) := by
  show '"' :: text.flatMap printChar ++ ['"'] ++ rest = _
  simp only [List.cons_append, List.append_assoc, List.nil_append]

/-! ### Values -/

def isBlank (c : Char) : Bool :=
  c == ' ' || c == '\t' || c == '\n' || c == '\r'

theorem blanks_eq (text : Text) : blanks text = some ((), text.dropWhile isBlank) :=
  bind_of_some (takeWhile_eq isBlank text) _

/-- A value is read as it is written, and the blanks after it with it. -/
def Reads (depth : Nat) (json : Json) : Prop :=
  ∀ rest, value depth (json.print ++ rest) = some (json, rest.dropWhile isBlank)

/-- A string is read as a value, and the blanks after it with it. -/
theorem value_spelled {text written : Text} (h : Text.Spelled Spells text written) (depth : Nat)
    (rest : Text) :
    value (depth + 1) ('"' :: (written ++ '"' :: rest)) =
      some (ofText text, rest.dropWhile isBlank) := by
  have hblanks : blanks ('"' :: (written ++ '"' :: rest)) =
      some ((), '"' :: (written ++ '"' :: rest)) := blanks_eq _
  rw [value, bind_of_some hblanks]
  refine (bind_of_some ?_ _).trans (bind_of_some (blanks_eq rest) _)
  -- `null`, `true` and `false` do not start with a quote
  rw [orElse_of_none (seqRight_of_none rfl _), orElse_of_none (seqRight_of_none rfl _),
    orElse_of_none (seqRight_of_none rfl _)]
  exact orElse_of_some (map_of_some (stringText_spelled h rest) _)

theorem reads_ofText (depth : Nat) (text : Text) : Reads (depth + 1) (ofText text) := by
  intro rest
  rw [ofText, print, printString_append]
  exact value_spelled (.flatMap spells_printChar text) depth rest

theorem dropWhile_printItems (items : List Json) (rest : Text) :
    (printItems items ++ rest).dropWhile isBlank = printItems items ++ rest := by
  cases items with
  | nil => rfl
  | cons item items => rfl

theorem takes_printItems {depth : Nat} {items : List Json} (h : ∀ item ∈ items, Reads depth item)
    (rest : Text) :
    Takes (char ',' *> value depth) (printItems items ++ rest) items (']' :: rest) := by
  induction items with
  | nil => exact .stop rfl
  | cons item items ih =>
    have htext : printItems (item :: items) ++ rest =
        ',' :: (item.print ++ (printItems items ++ rest)) := by
      simp only [printItems, List.cons_append, List.append_assoc]
    rw [htext]
    refine .next ?_ ?_ (ih fun other hother => h other (List.mem_cons_of_mem _ hother))
    · rw [seqRight_of_some (char_self _ _), h item List.mem_cons_self, dropWhile_printItems]
    · simp only [List.length_cons, List.length_append]
      omega

/-- No value starts where an empty array ends. -/
theorem value_closing (depth : Nat) (rest : Text) : value depth (']' :: rest) = none := by
  cases depth with
  | zero => rfl
  | succ depth => rfl

theorem sepBy_printItems {depth : Nat} {items : List Json} (h : ∀ item ∈ items, Reads depth item)
    (rest : Text) :
    ∃ text, (array items).print ++ rest = '[' :: text ∧
      sepBy (value depth) (char ',') text = some (items, ']' :: rest) := by
  cases items with
  | nil => exact ⟨']' :: rest, rfl, sepBy_of_none (value_closing depth rest)⟩
  | cons item items =>
    have hfirst := h item List.mem_cons_self (printItems items ++ rest)
    rw [dropWhile_printItems] at hfirst
    refine ⟨item.print ++ (printItems items ++ rest), ?_, sepBy_of_takes hfirst ?_⟩
    · simp only [print, List.cons_append, List.append_assoc]
    · exact takes_printItems (fun other hother => h other (List.mem_cons_of_mem _ hother)) rest

theorem reads_array {depth : Nat} {items : List Json} (h : ∀ item ∈ items, Reads depth item) :
    Reads (depth + 1) (array items) := by
  intro rest
  obtain ⟨text, htext, hitems⟩ := sepBy_printItems h rest
  have hbrackets : (char '[' *> sepBy (value depth) (char ',') <* blanks <* char ']')
      ('[' :: text) = some (items, rest) :=
    seqLeft_of_some (seqLeft_of_some ((seqRight_of_some (char_self _ _) _).trans hitems)
      (blanks_eq _)) (char_self _ _)
  rw [htext, value, bind_of_some (blanks_eq _)]
  refine (bind_of_some ?_ _).trans (bind_of_some (blanks_eq rest) _)
  -- none of the five kinds of values that are tried before starts with a bracket
  rw [orElse_of_none (seqRight_of_none rfl _), orElse_of_none (seqRight_of_none rfl _),
    orElse_of_none (seqRight_of_none rfl _), orElse_of_none rfl, orElse_of_none rfl]
  exact orElse_of_some (map_of_some hbrackets _)

theorem reads_ofTexts (depth : Nat) (texts : List Text) : Reads (depth + 2) (ofTexts texts) := by
  apply reads_array
  intro item hitem
  obtain ⟨text, -, rfl⟩ := List.mem_map.mp hitem
  exact reads_ofText depth text

/-- A value that is written on a line is read back. -/
theorem parse?_of_reads {json : Json} (h : Reads (json.print.length + 2) json) :
    parse? (json.print ++ ['\n']) = some json := by
  have hlength : (json.print ++ ['\n']).length + 1 = json.print.length + 2 :=
    congrArg (· + 1) List.length_append
  have hread := h ['\n']
  rw [← hlength] at hread
  simp only [parse?, readAll?, hread]
  rfl

theorem parse?_ofText (text : Text) :
    parse? ((ofText text).print ++ ['\n']) = some (ofText text) :=
  parse?_of_reads (reads_ofText _ text)

theorem parse?_ofTexts (texts : List Text) :
    parse? ((ofTexts texts).print ++ ['\n']) = some (ofTexts texts) :=
  parse?_of_reads (reads_ofTexts _ texts)

end ShellWords.Json
