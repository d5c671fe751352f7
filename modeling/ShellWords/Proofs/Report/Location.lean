import ShellWords.Proofs.Report.Rows
import ShellWords.Report

/-! The location of a span tells where it starts. From the number of a line and the column on it the
offset can be computed again, by adding up what stands before it, so two places in a text never have
the same location: `locate_isAt`. -/

namespace ShellWords

/-- An offset between two characters of a text, or at one of its ends. -/
def Text.IsBoundary (text : Text) (offset : Nat) : Prop :=
  ∃ before after, text = before ++ after ∧ byteLength before = offset

namespace Location

/-- The offset that a location in `source` stands for: the bytes of the lines above it, with a line
feed after each, and of the characters of its own line before its column. -/
def offset (source : Text) (location : Location) : Nat :=
  Text.byteLength (((Text.lines source).take (location.line - 1)).flatMap (· ++ ['\n'])) +
    Text.byteLength (location.text.take location.column)

/-- The location belongs to the place at `offset` in `source`. -/
structure IsAt (source : Text) (offset : Nat) (location : Location) : Prop where
  line_pos : 0 < location.line
  line_eq : (Text.lines source)[location.line - 1]? = some location.text
  newline : '\n' ∉ location.text
  column_le : location.column ≤ location.text.length
  offset_eq : location.offset source = offset

/-- The location of the place between two parts of a text. -/
def between (before after : Text) : Location where
  line := (Text.lines before).length
  column := (Text.lastLine before).length
  text := Text.lastLine before ++ Text.firstLine after

theorem offset_between (before after : Text) :
    (between before after).offset (before ++ after) = Text.byteLength before := by
  have htake : (Text.lines (before ++ after)).take ((Text.lines before).length - 1) =
      (Text.lines before).dropLast := by
    rw [Text.lines_append, ← List.length_dropLast, List.take_left]
  simp only [offset, between, htake, List.take_left]
  rw [← Text.byteLength_append, Text.flatMap_dropLast_lines]

theorem isAt_between (before after : Text) :
    (between before after).IsAt (before ++ after) (Text.byteLength before) where
  line_pos := List.length_pos_iff.2 (Text.lines_ne_nil before)
  line_eq := by
    have hlength : (Text.lines before).dropLast.length = (Text.lines before).length - 1 :=
      List.length_dropLast
    rw [between, Text.lines_append, ← hlength, List.getElem?_append_right (Nat.le_refl _),
      Nat.sub_self]
    rfl
  newline := by
    simp [between, Text.newline_not_mem_firstLine, Text.newline_not_mem_lastLine]
  column_le := by simp [between]
  offset_eq := offset_between before after

/-- On the same line and in the same column there is only one place. -/
theorem IsAt.offset_congr {source : Text} {offset offset' : Nat} {location location' : Location}
    (h : location.IsAt source offset) (h' : location'.IsAt source offset')
    (hline : location.line = location'.line) (hcolumn : location.column = location'.column) :
    offset = offset' := by
  have htext : location.text = location'.text := by
    have heq := h.line_eq
    rw [hline, h'.line_eq] at heq
    exact (Option.some.inj heq).symm
  rw [← h.offset_eq, ← h'.offset_eq, Location.offset, Location.offset, hline, hcolumn, htext]

end Location

namespace Span

variable {span : Span} {source before after : Text}

theorem anchor?_append (h : min span.start (Text.byteLength (before ++ after)) =
    Text.byteLength before) : span.anchor? (before ++ after) = some ⟨before.reverse, after⟩ := by
  rw [anchor?, h, Text.seek?_append]

theorem locate?_append (h : min span.start (Text.byteLength (before ++ after)) =
    Text.byteLength before) :
    span.locate? (before ++ after) = some (.between before after) := by
  simp only [locate?, anchor?_append h, Option.bind_eq_bind, Option.bind_some,
    Text.takeWhile_eq_firstLine, Text.firstLine_reverse, Location.between, Text.length_lines]
  simp

theorem isBoundary_of_anchor? {cursor : Text.Cursor} (h : span.anchor? source = some cursor) :
    source.IsBoundary (min span.start (Text.byteLength source)) := by
  obtain ⟨htext, hsize⟩ := Text.seek?_eq_some_iff.1 h
  exact ⟨cursor.before.reverse, cursor.after, htext.symm, by rw [Text.byteLength_reverse, hsize]⟩

theorem isBoundary_of_locate? {location : Location} (h : span.locate? source = some location) :
    source.IsBoundary (min span.start (Text.byteLength source)) := by
  obtain ⟨cursor, hcursor, -⟩ := Option.bind_eq_some_iff.1 h
  exact isBoundary_of_anchor? hcursor

theorem exists_isAt (h : source.IsBoundary (min span.start (Text.byteLength source))) :
    ∃ location, span.locate? source = some location ∧
      location.IsAt source (min span.start (Text.byteLength source)) := by
  obtain ⟨before, after, rfl, hsize⟩ := h
  rw [← hsize]
  exact ⟨_, locate?_append hsize.symm, Location.isAt_between before after⟩

end Span

/-- A span that does not start inside a character has a location, and the place there is where the
span starts, or the end of the text if the span starts beyond it. -/
theorem locate_isAt (source : Text) :
    (∀ span : Span, source.IsBoundary (min span.start (Text.byteLength source)) →
      ∃ location, span.locate? source = some location ∧
        location.IsAt source (min span.start (Text.byteLength source))) ∧
    ∀ (span span' : Span) (location location' : Location),
      span.locate? source = some location → span'.locate? source = some location' →
      location.line = location'.line → location.column = location'.column →
      min span.start (Text.byteLength source) = min span'.start (Text.byteLength source) := by
  refine ⟨fun span => Span.exists_isAt, ?_⟩
  intro span span' location location' h h' hline hcolumn
  obtain ⟨found, hfound, hat⟩ := Span.exists_isAt (Span.isBoundary_of_locate? h)
  obtain ⟨found', hfound', hat'⟩ := Span.exists_isAt (Span.isBoundary_of_locate? h')
  obtain rfl : location = found := Option.some.inj (h.symm.trans hfound)
  obtain rfl : location' = found' := Option.some.inj (h'.symm.trans hfound')
  exact hat.offset_congr hat' hline hcolumn

/-- The text ends with an empty third line, on which a span starts that goes past the end. -/
theorem locate_isAt_past_end :
    let source : Text := ['é', '\n', '€', 'x', '\n']
    (source.IsBoundary (min 12 (Text.byteLength source)) ∧
      ∃ location, (⟨12, 15⟩ : Span).locate? source = some location ∧
        location.IsAt source (min 12 (Text.byteLength source))) ∧
    (⟨12, 15⟩ : Span).locate? source = some ⟨3, 0, []⟩ ∧
    (⟨8, 8⟩ : Span).locate? source = some ⟨3, 0, []⟩ ∧
    min 12 (Text.byteLength source) = min 8 (Text.byteLength source) :=
  have hend : Text.IsBoundary ['é', '\n', '€', 'x', '\n']
      (min 12 (Text.byteLength ['é', '\n', '€', 'x', '\n'])) := ⟨_, [], rfl, rfl⟩
  ⟨⟨hend, (locate_isAt _).1 ⟨12, 15⟩ hend⟩, rfl, rfl,
    (locate_isAt _).2 ⟨12, 15⟩ ⟨8, 8⟩ ⟨3, 0, []⟩ ⟨3, 0, []⟩ rfl rfl rfl rfl⟩

end ShellWords
