import ShellWords.Text.Basic

/-! The lines of a text, as line feeds separate them. When a text is cut in two, the last line of
the first part and the first line of the second make up one line of the whole, and all other lines
stay what they are (`lines_append`); so the lines before a place in a text are known from what
stands before it. -/

namespace ShellWords.Text

/-- The lines of a text, without the line feeds between them. After a line feed at the end comes an
empty last line. -/
def lines (text : Text) : List Text :=
  text.splitOn '\n'

def firstLine (text : Text) : Text :=
  (lines text).headD []

def lastLine (text : Text) : Text :=
  (lines text).getLastD []

theorem lines_ne_nil (text : Text) : lines text ≠ [] :=
  List.splitOn_ne_nil '\n' text

theorem lines_of_not_mem {line : Text} (h : '\n' ∉ line) : lines line = [line] :=
  List.splitOn_eq_singleton h

theorem lines_append_newline (above below : Text) :
    lines (above ++ '\n' :: below) = lines above ++ lines below :=
  List.splitOn_append_cons_self above below

theorem lines_cons_line {line : Text} (h : '\n' ∉ line) (below : Text) :
    lines (line ++ '\n' :: below) = line :: lines below :=
  List.splitOn_append_cons_self_of_not_mem h below

/-- Induction on the lines of a text, from the last one up. -/
theorem lines_induction {motive : Text → Prop} (last : ∀ line, '\n' ∉ line → motive line)
    (cons : ∀ line below, '\n' ∉ line → motive below → motive (line ++ '\n' :: below))
    (text : Text) : motive text := by
  generalize hsize : text.length = size
  induction size using Nat.strongRecOn generalizing text with
  | ind size ih =>
    by_cases h : '\n' ∈ text
    · obtain ⟨line, below, rfl, hline⟩ := List.eq_append_cons_of_mem h
      exact cons line below hline (ih below.length (by simp at hsize; omega) below rfl)
    · exact last text h

/-! ### The first and the last line -/

theorem firstLine_of_not_mem {line : Text} (h : '\n' ∉ line) : firstLine line = line := by
  simp [firstLine, lines_of_not_mem h]

theorem lastLine_of_not_mem {line : Text} (h : '\n' ∉ line) : lastLine line = line := by
  simp [lastLine, lines_of_not_mem h]

theorem firstLine_append_newline (above below : Text) :
    firstLine (above ++ '\n' :: below) = firstLine above := by
  obtain ⟨first, rest, hlines⟩ := List.exists_cons_of_ne_nil (lines_ne_nil above)
  simp [firstLine, lines_append_newline, hlines]

theorem lastLine_append_newline (above below : Text) :
    lastLine (above ++ '\n' :: below) = lastLine below := by
  have hlast := List.getLast?_eq_some_getLast (lines_ne_nil below)
  simp [lastLine, lines_append_newline, List.getLast?_append, hlast]

theorem takeWhile_eq_firstLine (text : Text) : text.takeWhile (· ≠ '\n') = firstLine text := by
  have htake : ∀ line rest : Text, '\n' ∉ line →
      (line ++ rest).takeWhile (· ≠ '\n') = line ++ rest.takeWhile (· ≠ '\n') := by
    intro line rest hline
    refine List.takeWhile_append_of_pos fun c hc => ?_
    have hne : c ≠ '\n' := fun heq => hline (heq ▸ hc)
    simp [hne]
  induction text using lines_induction with
  | last line h =>
    have hline := htake line [] h
    rw [List.append_nil, List.takeWhile_nil, List.append_nil] at hline
    rw [hline, firstLine_of_not_mem h]
  | cons line below h =>
    rw [htake line _ h, firstLine_append_newline, firstLine_of_not_mem h]
    simp

theorem firstLine_cons {c : Char} (h : c ≠ '\n') (rest : Text) :
    firstLine (c :: rest) = c :: firstLine rest := by
  rw [← takeWhile_eq_firstLine, ← takeWhile_eq_firstLine]
  simp [h]

theorem firstLine_reverse (text : Text) : firstLine text.reverse = (lastLine text).reverse := by
  induction text using lines_induction with
  | last line h =>
    rw [firstLine_of_not_mem (mt List.mem_reverse.1 h), lastLine_of_not_mem h]
  | cons line below h ih =>
    rw [List.reverse_append, List.reverse_cons, List.append_assoc, List.singleton_append,
      firstLine_append_newline, ih, lastLine_append_newline]

theorem newline_not_mem_firstLine (text : Text) : '\n' ∉ firstLine text := by
  induction text using lines_induction with
  | last line h => rwa [firstLine_of_not_mem h]
  | cons line below h => rwa [firstLine_append_newline, firstLine_of_not_mem h]

theorem newline_not_mem_lastLine (text : Text) : '\n' ∉ lastLine text := by
  induction text using lines_induction with
  | last line h => rwa [lastLine_of_not_mem h]
  | cons line below h ih => rwa [lastLine_append_newline]

/-- A text is its lines, with a line feed after each but the last one. -/
theorem flatMap_dropLast_lines (text : Text) :
    (lines text).dropLast.flatMap (· ++ ['\n']) ++ lastLine text = text := by
  induction text using lines_induction with
  | last line h =>
    rw [lines_of_not_mem h, lastLine_of_not_mem h]
    rfl
  | cons line below h ih =>
    rw [lines_cons_line h, lastLine_append_newline,
      List.dropLast_cons_of_ne_nil (lines_ne_nil below), List.flatMap_cons, List.append_assoc, ih,
      List.append_assoc, List.singleton_append]

/-! ### Cutting a text in two -/

theorem lines_append (before after : Text) :
    lines (before ++ after) =
      (lines before).dropLast ++ (lastLine before ++ firstLine after) :: (lines after).tail := by
  induction before using lines_induction with
  | last line h =>
    rw [lines_of_not_mem h, lastLine_of_not_mem h]
    induction after using lines_induction with
    | last rest hrest =>
      rw [lines_of_not_mem (by simp [h, hrest]), lines_of_not_mem hrest, firstLine_of_not_mem hrest]
      rfl
    | cons rest below hrest =>
      rw [← List.append_assoc, lines_cons_line (by simp [h, hrest]), lines_cons_line hrest,
        firstLine_append_newline, firstLine_of_not_mem hrest]
      rfl
  | cons line below h ih =>
    rw [List.append_assoc, List.cons_append, lines_cons_line h, lines_cons_line h,
      lastLine_append_newline, List.dropLast_cons_of_ne_nil (lines_ne_nil below),
      List.cons_append, ih]

theorem length_lines (text : Text) : (lines text).length = text.count '\n' + 1 := by
  induction text using lines_induction with
  | last line h => simp [lines_of_not_mem h, List.count_eq_zero.2 h]
  | cons line below h ih => simp [lines_cons_line h, List.count_eq_zero.2 h, ih]

/-- Two texts without line feeds that are added to a text, each after a line feed, are its last two
lines. -/
theorem lines_append_rows {row row' : Text} (h : '\n' ∉ row) (h' : '\n' ∉ row') (above : Text) :
    lines (above ++ '\n' :: (row ++ '\n' :: row')) = lines above ++ [row, row'] := by
  rw [lines_append_newline, lines_cons_line h, lines_of_not_mem h']

theorem length_firstLine_eq_min (part rest : Text) :
    (firstLine part).length = min part.length (firstLine (part ++ rest)).length := by
  induction part using lines_induction with
  | last line h =>
    induction rest using lines_induction with
    | last below hbelow =>
      rw [firstLine_of_not_mem h, firstLine_of_not_mem (by simp [h, hbelow])]
      simp
    | cons below more hbelow =>
      rw [← List.append_assoc, firstLine_append_newline, firstLine_of_not_mem h,
        firstLine_of_not_mem (by simp [h, hbelow])]
      simp
  | cons line below h =>
    rw [List.append_assoc, List.cons_append, firstLine_append_newline, firstLine_append_newline,
      firstLine_of_not_mem h]
    simp

/-! ### Rows of carets -/

/-- A row has carets in `count` columns from `first` on, and no others. -/
def CaretsAt (row : Text) (first count : Nat) : Prop :=
  ∀ column, row[column]? = some '^' ↔ first ≤ column ∧ column < first + count

theorem caretsAt_append {front : Text} (h : '^' ∉ front) (count : Nat) :
    CaretsAt (front ++ List.replicate count '^') front.length count := by
  intro column
  rw [List.getElem?_append]
  split
  · rename_i hcolumn
    constructor
    · intro hcaret
      exact absurd (List.mem_of_getElem? hcaret) h
    · omega
  · rw [List.getElem?_replicate]
    split <;> simp <;> omega

end ShellWords.Text
