import ShellWords.Command.Output
import ShellWords.Proofs.Json
import ShellWords.Proofs.Report.Rows

/-! What the commands write can be read back. As JSON it is a single line, and it denotes the words
or the line; as text it is cut into the words by its line feeds, unless a word contains one. -/

namespace ShellWords

namespace Json

theorem newline_not_mem_printChar (c : Char) : '\n' ∉ printChar c := by
  have hdigit : ∀ d < 16, '\n' ≠ Nat.digitChar d := by decide
  unfold printChar
  split_ifs with hquote hbackslash hbackspace hfeed hline hreturn htab hbelow16 hbelow32
  · decide
  · decide
  · decide
  · decide
  · decide
  · decide
  · decide
  · simp [hdigit c.toNat hbelow16]
  · simp [hdigit (c.toNat - 16) (by omega)]
  · simpa using Ne.symm hline

theorem newline_not_mem_printString (text : Text) : '\n' ∉ printString (some text) := by
  show '\n' ∉ '"' :: text.flatMap printChar ++ ['"']
  simp [newline_not_mem_printChar]

theorem newline_not_mem_printItems {items : List Json} (h : ∀ item ∈ items, '\n' ∉ item.print) :
    '\n' ∉ printItems items := by
  induction items with
  | nil => decide
  | cons item items ih =>
    obtain ⟨hitem, hitems⟩ := List.forall_mem_cons.1 h
    simp [printItems, hitem, ih hitems]

theorem newline_not_mem_print_array {items : List Json} (h : ∀ item ∈ items, '\n' ∉ item.print) :
    '\n' ∉ (array items).print := by
  cases items with
  | nil => decide
  | cons item items =>
    obtain ⟨hitem, hitems⟩ := List.forall_mem_cons.1 h
    simp [print, hitem, newline_not_mem_printItems hitems]

theorem newline_not_mem_print_ofTexts (texts : List Text) : '\n' ∉ (ofTexts texts).print := by
  apply newline_not_mem_print_array
  intro item hitem
  obtain ⟨text, -, rfl⟩ := List.mem_map.1 hitem
  exact newline_not_mem_printString text

end Json

/-- Words without line feeds, each of them ended by one, are the lines of what they make up. After
the last line feed nothing is left. -/
theorem Text.lines_flatMap_newline {words : List Text} (h : ∀ word ∈ words, '\n' ∉ word) :
    lines (words.flatMap fun word => word ++ ['\n']) = words ++ [[]] := by
  induction words with
  | nil => rfl
  | cons word words ih =>
    obtain ⟨hword, hwords⟩ := List.forall_mem_cons.1 h
    rw [List.flatMap_cons, List.append_assoc, List.singleton_append, lines_cons_line hword,
      ih hwords]
    rfl

/-- A text with one line feed, at its end. -/
def Text.IsOneLine (text : Text) : Prop :=
  ∃ line, text = line ++ ['\n'] ∧ '\n' ∉ line

/-- Words and lines that are written as JSON are one line, which the reader of JSON makes the same
words or the same line of. Words without line feeds that are written as text come back by cutting
it after each line feed. -/
theorem format_lossless :
    (∀ words, Text.IsOneLine (OutputFormat.json.formatWords words) ∧
      Json.parse? (OutputFormat.json.formatWords words) = some (Json.ofTexts words)) ∧
    (∀ line, Text.IsOneLine (OutputFormat.json.formatLine line) ∧
      Json.parse? (OutputFormat.json.formatLine line) = some (Json.ofText line)) ∧
    ∀ words, (∀ word ∈ words, '\n' ∉ word) →
      Text.lines (OutputFormat.text.formatWords words) = words ++ [[]] := by
  refine ⟨fun words => ⟨?_, ?_⟩, fun line => ⟨?_, ?_⟩, fun words h => ?_⟩
  · exact ⟨_, rfl, Json.newline_not_mem_print_ofTexts words⟩
  · exact Json.parse?_ofTexts words
  · exact ⟨_, rfl, Json.newline_not_mem_printString line⟩
  · exact Json.parse?_ofText line
  · exact Text.lines_flatMap_newline h

/-- Empty words are lines as well. -/
theorem format_lossless_empty_words :
    (∀ word ∈ [[], ['\x7f', '"'], []], '\n' ∉ word) ∧
      Text.lines (OutputFormat.text.formatWords [[], ['\x7f', '"'], []]) =
        [[], ['\x7f', '"'], [], []] := by
  have h : ∀ word ∈ [[], ['\x7f', '"'], []], '\n' ∉ word := by decide
  exact ⟨h, format_lossless.2.2 _ h⟩

end ShellWords
