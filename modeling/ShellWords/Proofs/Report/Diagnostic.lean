import ShellWords.Proofs.Report.Location
import ShellWords.Proofs.Unterminated

/-! The carets of a diagnostic. Its last two rows are the line that a span starts on, after the
number of the line, and the carets, after a margin. The carets are as many as they should be, but
the number takes three columns or more where the margin leaves two, so they stand to the left of
what they mark: `diagnostic_carets_shifted`. -/

namespace ShellWords

/-! ### The text of a span -/

/-- Between two boundaries of a text the span has the characters that stand there. -/
theorem Span.exists_slice {span : Span} {before after : Text}
    (hstart : span.start = Text.byteLength before) (hle : span.start ≤ span.stop)
    (hstop : (before ++ after).IsBoundary span.stop) :
    ∃ covered rest, after = covered ++ rest ∧ span.slice (before ++ after) = covered := by
  obtain ⟨front, rest, hfront, hsize⟩ := hstop
  obtain ⟨covered, rfl, rfl⟩ : ∃ covered, front = before ++ covered ∧ after = covered ++ rest := by
    rcases List.append_eq_append_iff.1 hfront with ⟨covered, hcovered, hafter⟩ |
      ⟨covered, hbefore, hrest⟩
    · exact ⟨covered, hcovered, hafter⟩
    · -- The span does not end before it starts, so both of its ends are in one place.
      cases covered with
      | nil => exact ⟨[], by simp [hbefore], by simp [hrest]⟩
      | cons c covered =>
        have hpos := c.utf8Size_pos
        rw [hstart, hbefore, Text.byteLength_append, Text.byteLength_cons, ← hsize] at hle
        omega
  have hspan : span =
      ⟨Text.byteLength before, Text.byteLength before + Text.byteLength covered⟩ := by
    rw [Text.byteLength_append] at hsize
    cases span
    simp_all
  exact ⟨covered, rest, rfl, by rw [hspan, Span.slice_append]⟩

/-! ### The last two rows -/

namespace Location

theorem newline_not_mem_label (location : Location) : '\n' ∉ location.label := by
  intro h
  simp only [label, List.leftpad, List.mem_append, List.mem_replicate] at h
  rcases h with ⟨-, h⟩ | h
  · exact absurd h (by decide)
  · have hdigit := Nat.isDigit_of_mem_toDigits (by decide) (by decide) h
    exact absurd hdigit (by decide)

/-- What stands before the line in its row. -/
def margin (location : Location) : Text :=
  location.label ++ " | ".toList

/-- What stands before the carets in their row. -/
def gutter (location : Location) : Text :=
  [' ', ' ', ' ', '|', ' '] ++ List.replicate location.column ' '

theorem length_margin (location : Location) :
    location.margin.length = max 3 (Nat.toDigits 10 location.line).length + 3 := by
  rw [margin, List.length_append, label, List.length_leftpad]
  rfl

theorem length_gutter (location : Location) : location.gutter.length = location.column + 5 := by
  simp [gutter]

theorem caret_not_mem_gutter (location : Location) : '^' ∉ location.gutter := by
  simp [gutter]

theorem row_between (before after : Text) :
    (between before after).margin ++ (between before after).text =
      (between before after).margin ++ Text.lastLine before ++ Text.firstLine after := by
  simp [between]

/-- What is left of the line bounds a part of the text just as the first line feed in it does. -/
theorem min_length_between (before part rest : Text) :
    min part.length ((between before (part ++ rest)).text.length -
      (between before (part ++ rest)).column) = (Text.firstLine part).length := by
  rw [Text.length_firstLine_eq_min part rest]
  simp [between]

end Location

/-- A diagnostic ends with the line that the span starts on and the carets. -/
theorem Span.exists_diagnostic? {span : Span} {source : Text} {location : Location}
    (h : span.locate? source = some location) (hline : '\n' ∉ location.text) (message : Text) :
    ∃ report above, span.diagnostic? source message = some report ∧
      Text.lines report = above ++
        [location.margin ++ location.text, location.gutter ++ List.replicate (max 1
          (min (span.slice source).length (location.text.length - location.column))) '^'] := by
  have hsource : '\n' ∉ location.margin ++ location.text := by
    simp [Location.margin, location.newline_not_mem_label, hline]
  have hcarets : ∀ carets, '\n' ∉ location.gutter ++ List.replicate carets '^' := by
    simp [Location.gutter]
  have hreport : ∃ head, span.diagnostic? source message = some (head ++ '\n' ::
      (location.margin ++ location.text ++ '\n' :: (location.gutter ++ List.replicate
        (max 1 (min (span.slice source).length (location.text.length - location.column)))
        '^'))) := by
    refine ⟨"error: ".toList ++ message ++ "\n  --> line ".toList ++
      Nat.toDigits 10 location.line ++ ", column ".toList ++
      Nat.toDigits 10 (location.column + 1) ++ "\n   |".toList, ?_⟩
    have hrule : "\n   |\n".toList = "\n   |".toList ++ ['\n'] := rfl
    have hgutter : "\n   | ".toList = '\n' :: [' ', ' ', ' ', '|', ' '] := rfl
    simp only [diagnostic?, h, Option.bind_eq_bind, Option.bind_some, hrule, hgutter,
      Location.margin, Location.gutter, List.append_assoc, List.cons_append, List.nil_append]
    rfl
  obtain ⟨head, hreport⟩ := hreport
  exact ⟨_, Text.lines head, hreport, Text.lines_append_rows hsource (hcarets _) head⟩

/-- A row shows, after a margin, the line of a text on which the place between `before` and `after`
lies. The place is before column `column` of the row. -/
def Text.Shows (row before after : Text) (column : Nat) : Prop :=
  ∃ margin, row = margin ++ (lastLine before ++ firstLine after) ∧
    column = margin.length + (lastLine before).length

/-- For a span that starts at a character of a line, there is a caret for each character of the span
on that line, and at least one, and none of them goes beyond the line. But the first caret does not
stand below the first character of the span: the number of the line, which takes at least three
columns, makes the row above start further to the right. -/
theorem diagnostic_carets_shifted {source before rest message : Text} {c : Char} {span : Span}
    (hsource : source = before ++ c :: rest) (hc : c ≠ '\n')
    (hstart : span.start = Text.byteLength before) (hle : span.start ≤ span.stop)
    (hstop : source.IsBoundary span.stop) :
    ∃ report above sourceRow caretRow column first count,
      span.diagnostic? source message = some report ∧
      Text.lines report = above ++ [sourceRow, caretRow] ∧
      Text.Shows sourceRow before (c :: rest) column ∧ sourceRow[column]? = some c ∧
      Text.CaretsAt caretRow first count ∧
      count = max 1 (Text.firstLine (span.slice source)).length ∧
      first + count ≤ sourceRow.length ∧
      column = first + (max 3 (Nat.toDigits 10 (Text.lines before).length).length - 2) := by
  subst hsource
  obtain ⟨covered, tail, hcovered, hslice⟩ := Span.exists_slice hstart hle hstop
  let location := Location.between before (c :: rest)
  have hlocate : span.locate? (before ++ c :: rest) = some location := by
    apply Span.locate?_append
    rw [hstart, Text.byteLength_append]
    omega
  have hline : '\n' ∉ location.text := (Location.isAt_between before (c :: rest)).newline
  obtain ⟨report, above, hreport, hlines⟩ := Span.exists_diagnostic? hlocate hline message
  have hcount : min (span.slice (before ++ c :: rest)).length
      (location.text.length - location.column) =
      (Text.firstLine (span.slice (before ++ c :: rest))).length := by
    rw [hslice, ← Location.min_length_between before covered tail, ← hcovered]
  rw [hcount] at hlines
  have hrow : location.margin ++ location.text =
      location.margin ++ Text.lastLine before ++ c :: Text.firstLine rest := by
    rw [← Text.firstLine_cons hc]
    exact Location.row_between before (c :: rest)
  have hshort : (Text.firstLine (span.slice (before ++ c :: rest))).length ≤
      (Text.firstLine rest).length + 1 := by
    rw [← List.length_cons, ← Text.firstLine_cons hc, hslice, hcovered,
      Text.length_firstLine_eq_min covered tail]
    exact Nat.min_le_right _ _
  have hmargin : location.margin.length =
      max 3 (Nat.toDigits 10 (Text.lines before).length).length + 3 := location.length_margin
  have hgutter : location.gutter.length = (Text.lastLine before).length + 5 :=
    location.length_gutter
  refine ⟨report, above, _, _, (location.margin ++ Text.lastLine before).length, _, _, hreport,
    hlines, ⟨location.margin, rfl, List.length_append⟩, ?_,
    Text.caretsAt_append location.caret_not_mem_gutter _, rfl, ?_, ?_⟩
  · rw [hrow, List.getElem?_append_right (Nat.le_refl _), Nat.sub_self]
    rfl
  · rw [hrow, List.length_append, List.length_append, List.length_cons, hgutter]
    omega
  · rw [List.length_append, hmargin, hgutter]
    omega

/-- The span ends on the line after the one it starts on. -/
theorem diagnostic_carets_shifted_two_lines :
    let source := "é \"x\ny".toList
    source = "é ".toList ++ '"' :: "x\ny".toList ∧ '"' ≠ '\n' ∧ 3 = Text.byteLength "é ".toList ∧
      3 ≤ 7 ∧ Text.IsBoundary source 7 ∧
      ∃ report above sourceRow caretRow column first count,
        (⟨3, 7⟩ : Span).diagnostic? source "open".toList = some report ∧
        Text.lines report = above ++ [sourceRow, caretRow] ∧
        Text.Shows sourceRow "é ".toList ('"' :: "x\ny".toList) column ∧
        sourceRow[column]? = some '"' ∧
        Text.CaretsAt caretRow first count ∧
        count = max 1 (Text.firstLine ((⟨3, 7⟩ : Span).slice source)).length ∧
        first + count ≤ sourceRow.length ∧
        column = first + (max 3 (Nat.toDigits 10 (Text.lines "é ".toList).length).length - 2) :=
  have hstop : Text.IsBoundary "é \"x\ny".toList 7 := ⟨"é \"x\ny".toList, [], rfl, rfl⟩
  ⟨rfl, by decide, rfl, by decide, hstop,
    diagnostic_carets_shifted rfl (by decide) rfl (by decide) hstop⟩

/-- The first caret stands one column to the left of the quote that it should stand below. -/
theorem diagnostic_carets_not_aligned :
    ¬∃ report above sourceRow caretRow column count,
      (⟨5, 10⟩ : Span).diagnostic? "echo \"oops".toList "unterminated double quote".toList =
        some report ∧
      Text.lines report = above ++ [sourceRow, caretRow] ∧
      Text.Shows sourceRow "echo ".toList "\"oops".toList column ∧
      Text.CaretsAt caretRow column count := by
  rintro ⟨report, above, sourceRow, caretRow, column, count, hreport, hlines,
    ⟨margin, hmargin, hcolumn⟩, hcarets⟩
  have hrows : ((⟨5, 10⟩ : Span).diagnostic? "echo \"oops".toList
      "unterminated double quote".toList).map Text.lines =
      some (["error: unterminated double quote".toList, "  --> line 1, column 6".toList,
        "   |".toList] ++ ["  1 | echo \"oops".toList, "   |      ^^^^^".toList]) := by decide
  rw [hreport, Option.map_some, Option.some.injEq, hlines] at hrows
  obtain ⟨-, hlast⟩ := List.append_inj' hrows rfl
  obtain ⟨rfl, rfl⟩ : sourceRow = "  1 | echo \"oops".toList ∧
      caretRow = "   |      ^^^^^".toList := by simpa using hlast
  have hlength := congrArg List.length hmargin
  have hline : (Text.lastLine "echo ".toList ++ Text.firstLine "\"oops".toList).length = 10 := by
    decide
  have hbefore : (Text.lastLine "echo ".toList).length = 5 := by decide
  have hrow : ("  1 | echo \"oops".toList : Text).length = 16 := by decide
  rw [List.length_append, hrow, hline] at hlength
  have hcaret := ((hcarets 10).1 (by decide)).1
  omega

end ShellWords
