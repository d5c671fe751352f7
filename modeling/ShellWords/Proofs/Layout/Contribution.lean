import ShellWords.Proofs.Separator

/-! What the pieces of a line add to its words. A separator adds nothing and ends a word; all other
pieces add to the word around them, if perhaps nothing. So the texts of the words, put together, are
what the pieces add, one after another: `flatten_of_split`. -/

namespace ShellWords

/-- The text that a piece adds to the word around it. -/
def Piece.contribution (config : Config) : Piece → Text
  | escaped _ c => if c = '\n' then [] else [c]
  | quoted _ mode body => mode.contribution config body
  | blank _ => []
  | bare c => [c]

namespace Gathered

/-- The texts of the completed words and of the started one, one after another. -/
def text (gathered : Gathered) : Text :=
  gathered.words.flatten ++ gathered.started.getD []

@[simp] theorem text_extend (gathered : Gathered) (added : Text) :
    (gathered.extend added).text = gathered.text ++ added := by
  simp [text, extend]

@[simp] theorem text_cut (gathered : Gathered) : gathered.cut.text = gathered.text := by
  cases hstarted : gathered.started <;> simp [text, cut, hstarted]

theorem text_add (config : Config) (gathered : Gathered) (piece : Piece) :
    (gathered.add config piece).text = gathered.text ++ piece.contribution config := by
  cases piece with
  | escaped escape c =>
    by_cases hline : c = '\n'
    · simp [add, Piece.contribution, hline]
    · simp [add, Piece.contribution, hline]
  | quoted opening mode body => exact text_extend gathered _
  | blank c => simp [add, Piece.contribution]
  | bare c => exact text_extend gathered [c]

theorem text_addAll (config : Config) (gathered : Gathered) (pieces : List Piece) :
    (gathered.addAll config pieces).text =
      gathered.text ++ pieces.flatMap (Piece.contribution config) := by
  induction pieces generalizing gathered with
  | nil => simp [addAll]
  | cons piece pieces ih =>
    rw [addAll_cons, ih, text_add, List.flatMap_cons, List.append_assoc]

end Gathered

/-- The pieces of a line that splits are the whole line. -/
theorem texts_of_split {config : Config} {line : Text} {words : List Text}
    (h : split config line = .ok words) :
    Piece.texts (layout config false line).pieces = line := by
  have htexts := texts_layout config false line
  rw [(layout_of_split h).1] at htexts
  simpa [Ending.text] using htexts

/-- The words of a line, put together, are what its pieces add. -/
theorem flatten_of_split {config : Config} {line : Text} {words : List Text}
    (h : split config line = .ok words) :
    words.flatten = (layout config false line).pieces.flatMap (Piece.contribution config) := by
  have htext := congrArg Gathered.text (layout_of_split h).2
  rw [Gathered.text_cut, Gathered.text_addAll] at htext
  simpa [Gathered.text] using htext.symm

end ShellWords
