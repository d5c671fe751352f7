import ShellWords.Proofs.Report.Location
import ShellWords.Proofs.Unterminated

/-! The carets of a snippet. A snippet shows a window of a text, which is cut off after some
characters and may have several lines, but its carets count all characters of the span, in the
columns after all characters shown before it. So they mark what they should exactly if the window
shows the whole span and has one line: `snippet_carets_iff`. -/

namespace ShellWords

namespace Text

/-- The number of characters of a text before its last line. -/
def lastLineStart (text : Text) : Nat :=
  text.length - (lastLine text).length

/-- Every caret of a row stands below a character of `marked`, in the last line of the text
`before ++ marked`. -/
def CaretsBelow (row before marked : Text) : Prop :=
  ∀ column, row[column]? = some '^' →
    ∃ i < marked.length, lastLineStart (before ++ marked) + column = before.length + i

theorem length_lastLine_le (text : Text) : (lastLine text).length ≤ text.length := by
  induction text using lines_induction with
  | last line h => exact Nat.le_of_eq (congrArg List.length (lastLine_of_not_mem h))
  | cons line below h ih =>
    rw [lastLine_append_newline, List.length_append, List.length_cons]
    omega

theorem lastLineStart_eq_zero_iff {text : Text} : lastLineStart text = 0 ↔ '\n' ∉ text := by
  induction text using lines_induction with
  | last line h => simp [lastLineStart, lastLine_of_not_mem h, h]
  | cons line below h =>
    have hle := length_lastLine_le below
    simp only [lastLineStart, lastLine_append_newline, List.length_append, List.length_cons]
    simp
    omega

/-- Carets for at least all that is shown of a span, from the column on that comes after the text
before it. -/
theorem CaretsAt.caretsBelow_iff {row before marked : Text} {count : Nat}
    (h : CaretsAt row before.length count) (hcount : 0 < count) (hle : marked.length ≤ count) :
    CaretsBelow row before marked ↔ count ≤ marked.length ∧ '\n' ∉ before ++ marked := by
  rw [← lastLineStart_eq_zero_iff]
  constructor
  · -- The last caret is the one that goes too far.
    intro hbelow
    obtain ⟨i, hi, hcolumn⟩ := hbelow (before.length + count - 1) ((h _).2 (by omega))
    omega
  · rintro ⟨hshown, hstart⟩ column hcaret
    obtain ⟨hfirst, hlast⟩ := (h column).1 hcaret
    exact ⟨column - before.length, by omega, by omega⟩

end Text

namespace Span

/-- The window of a snippet, and its carets. -/
theorem snippet?_append {span : Span} {before after : Text}
    (h : min span.start (Text.byteLength (before ++ after)) = Text.byteLength before)
    (context : Nat) :
    span.snippet? (before ++ after) context =
      some (before.drop (before.length - context) ++ after.take (context + 1) ++ '\n' ::
        (List.replicate (before.drop (before.length - context)).length ' ' ++
          List.replicate (span.carets (before ++ after)) '^')) := by
  simp only [snippet?, anchor?_append h, Option.bind_eq_bind, Option.bind_some, List.take_reverse,
    List.reverse_reverse]
  simp

end Span

/-- The carets in the snippet of an error all stand below characters that it covers, in the last row
of the text above them, if and only if the window shows all that the error covers and has no line
feed. -/
theorem snippet_carets_iff {config : Config} {line : Text} {error : SplitError}
    (h : split config line = .error error) (context : Nat) :
    ∃ before covered carets, line = before ++ covered ∧
      error.span = ⟨Text.byteLength before, Text.byteLength line⟩ ∧
      let shown := before.drop (before.length - context)
      let marked := covered.take (context + 1)
      error.snippet? line context = some (shown ++ marked ++ '\n' :: carets) ∧
      Text.CaretsAt carets shown.length covered.length ∧
      (Text.CaretsBelow carets shown marked ↔
        covered.length ≤ context + 1 ∧ '\n' ∉ shown ++ marked) := by
  obtain ⟨before, covered, rfl, hcovers⟩ := covers_of_split_error h
  have hpos := List.length_pos_iff.2 hcovers.ne_nil
  have hcarets : error.span.carets (before ++ covered) = covered.length := by
    rw [Span.carets, hcovers.slice_eq]
    omega
  have hsnippet := Span.snippet?_append hcovers.min_start context
  rw [hcarets] at hsnippet
  have hspaces : '^' ∉ List.replicate (before.drop (before.length - context)).length ' ' := by simp
  have hat := Text.caretsAt_append hspaces covered.length
  rw [List.length_replicate] at hat
  have hle : (covered.take (context + 1)).length ≤ covered.length := by
    rw [List.length_take]
    exact Nat.min_le_right _ _
  refine ⟨before, covered, _, rfl, hcovers.span_eq, hsnippet, hat, ?_⟩
  rw [hat.caretsBelow_iff hpos hle, List.length_take]
  have hmin : covered.length ≤ min (context + 1) covered.length ↔ covered.length ≤ context + 1 := by
    omega
  rw [hmin]

/-- The window shows the whole of the span, but also a part of the line above it. -/
theorem snippet_carets_iff_two_lines :
    split {} "é\n'b".toList = .error (.unterminatedQuote '\'' ⟨3, 5⟩) ∧
      ∃ before covered carets, "é\n'b".toList = before ++ covered ∧
        (SplitError.unterminatedQuote '\'' ⟨3, 5⟩).span =
          ⟨Text.byteLength before, Text.byteLength "é\n'b".toList⟩ ∧
        let shown := before.drop (before.length - 4)
        let marked := covered.take 5
        (SplitError.unterminatedQuote '\'' ⟨3, 5⟩).snippet? "é\n'b".toList 4 =
          some (shown ++ marked ++ '\n' :: carets) ∧
        Text.CaretsAt carets shown.length covered.length ∧
        (Text.CaretsBelow carets shown marked ↔
          covered.length ≤ 5 ∧ '\n' ∉ shown ++ marked) :=
  have h : split {} "é\n'b".toList = .error (.unterminatedQuote '\'' ⟨3, 5⟩) := rfl
  ⟨h, snippet_carets_iff h 4⟩

/-- The window shows the first of four characters, and there are four carets. -/
theorem snippet_carets_past_window :
    split {} "'abc".toList = .error (.unterminatedQuote '\'' ⟨0, 4⟩) ∧
      (SplitError.unterminatedQuote '\'' ⟨0, 4⟩).snippet? "'abc".toList 0 =
        some ("'".toList ++ '\n' :: "^^^^".toList) ∧
      ¬Text.CaretsBelow "^^^^".toList [] "'".toList := by
  refine ⟨rfl, rfl, fun h => ?_⟩
  obtain ⟨i, hi, hcolumn⟩ := h 3 rfl
  have hmarked : ("'".toList : Text).length = 1 := rfl
  have hstart : Text.lastLineStart ([] ++ "'".toList) = 0 := by decide
  rw [hmarked] at hi
  rw [hstart, List.length_nil] at hcolumn
  omega

end ShellWords
