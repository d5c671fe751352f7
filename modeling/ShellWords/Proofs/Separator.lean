import ShellWords.Proofs.Layout.Append
import ShellWords.Proofs.Layout.Run

/-! After a separator outside quotes the machine has forgotten what came before it. A line, a
separator and a second line split into the words of the one and then the words of the other, and an
error of the second line only moves with its text: `split_append_separator`. -/

namespace ShellWords

def Span.shift (offset : Nat) (span : Span) : Span :=
  ⟨span.start + offset, span.stop + offset⟩

/-- The same error further to the right. -/
def SplitError.shift (offset : Nat) : SplitError → SplitError
  | unterminatedQuote quote span => unterminatedQuote quote (span.shift offset)
  | unterminatedEscape escape span => unterminatedEscape escape (span.shift offset)

def Run.shift (offset : Nat) (run : Run) : Run :=
  { run with error? := run.error?.map (SplitError.shift offset) }

namespace Gathered

def prepend (words : List Text) (gathered : Gathered) : Gathered :=
  { gathered with words := words ++ gathered.words }

theorem add_prepend (config : Config) (words : List Text) (gathered : Gathered) (piece : Piece) :
    (gathered.prepend words).add config piece = (gathered.add config piece).prepend words := by
  cases piece with
  | escaped escape operand =>
    simp only [add]
    split <;> rfl
  | quoted opening mode body => rfl
  | blank c => simp [add, cut, prepend]
  | bare c => rfl

theorem addAll_prepend (config : Config) (words : List Text) (gathered : Gathered)
    (pieces : List Piece) :
    (gathered.prepend words).addAll config pieces =
      (gathered.addAll config pieces).prepend words := by
  induction pieces generalizing gathered with
  | nil => rfl
  | cons piece pieces ih =>
    rw [addAll_cons, addAll_cons, add_prepend, ih]

end Gathered

theorem Ending.error?_add {ending : Ending} {size : Nat} (offset : Nat)
    (h : Text.byteLength ending.text ≤ size) :
    ending.error? (size + offset) = (ending.error? size).map (SplitError.shift offset) := by
  have hspan : (⟨size + offset - Text.byteLength ending.text, size + offset⟩ : Span) =
      Span.shift offset ⟨size - Text.byteLength ending.text, size⟩ := by
    simp only [Span.shift, Span.mk.injEq, and_true]
    omega
  cases ending with
  | complete => rfl
  | escape c => simp only [error?, hspan, Option.map_some, SplitError.shift]
  | quote opening mode inside => simp only [error?, hspan, Option.map_some, SplitError.shift]

namespace Layout

variable {config : Config} {layout : Layout} {size : Nat} {gathered : Gathered}

theorem run_prepend (words : List Text) :
    layout.run config size (gathered.prepend words) =
      (layout.run config size gathered).prepend words := by
  simp only [run, Gathered.addAll_prepend]
  split
  · simp [Gathered.prepend, Gathered.cut, Run.prepend]
  · rfl

theorem run_add (offset : Nat) (h : Text.byteLength layout.ending.text ≤ size) :
    layout.run config (size + offset) gathered = (layout.run config size gathered).shift offset := by
  simp only [run, Ending.error?_add offset h]
  cases layout.ending.error? size <;> rfl

end Layout

theorem layout_of_split {config : Config} {line : Text} {words : List Text}
    (h : split config line = .ok words) :
    (layout config false line).ending = .complete ∧
      (({} : Gathered).addAll config (layout config false line).pieces).cut = { words } := by
  have hrun := Run.result_eq_ok_iff.1 h
  rw [run_eq_runByPieces, runByPieces, Layout.run] at hrun
  cases hending : (layout config false line).ending with
  | complete =>
    rw [hending] at hrun
    have hwords : _ = words := congrArg Run.words hrun
    rw [← hwords]
    exact ⟨rfl, rfl⟩
  | escape c =>
    rw [hending] at hrun
    cases hrun
  | quote opening mode inside =>
    rw [hending] at hrun
    cases hrun

/-- What comes of a line that splits, a separator and a second line. -/
theorem run_append_separator {config : Config} {w : Char} (hw : config.Separates w) {a : Text}
    {words : List Text} (ha : split config a = .ok words) (b : Text) :
    run config (a ++ w :: b) =
      ((run config b).shift (Text.byteLength a + w.utf8Size)).prepend words := by
  obtain ⟨hending, hcut⟩ := layout_of_split ha
  have hsize : Text.byteLength (a ++ w :: b) =
      Text.byteLength b + (Text.byteLength a + w.utf8Size) := by
    simp
    omega
  have hfits : Text.byteLength (layout config false b).ending.text ≤ Text.byteLength b := by
    have hb := congrArg Text.byteLength (texts_layout config false b)
    rw [Text.byteLength_append] at hb
    omega
  have hpieces : ∀ pieces, ({} : Gathered).addAll config
      ((layout config false a).pieces ++ .blank w :: pieces) =
        (({} : Gathered).prepend words).addAll config pieces := by
    intro pieces
    have hprepend : ({} : Gathered).prepend words = { words } := by simp [Gathered.prepend]
    rw [hprepend, ← hcut, Gathered.addAll, List.foldl_append]
    rfl
  calc run config (a ++ w :: b)
      = (layout config false b).run config (Text.byteLength (a ++ w :: b))
          (({} : Gathered).prepend words) := by
        rw [run_eq_runByPieces, runByPieces, layout_append_blank hw a b hending]
        simp only [Layout.run, hpieces]
    _ = ((run config b).shift (Text.byteLength a + w.utf8Size)).prepend words := by
        rw [hsize, Layout.run_prepend, Layout.run_add _ hfits, run_eq_runByPieces, runByPieces]

/-- After a line that splits and a separator, a second line is split as if it stood alone: its words
follow those of the first line, and its error, if it has one, moves with its text. -/
theorem split_append_separator {config : Config} {w : Char} (hw : config.Separates w) {a : Text}
    {xs : List Text} (ha : split config a = .ok xs) (b : Text) :
    (∀ ys, split config b = .ok ys → split config (a ++ w :: b) = .ok (xs ++ ys)) ∧
      ∀ error, split config b = .error error →
        let moved := error.shift (Text.byteLength a + w.utf8Size)
        split config (a ++ w :: b) = .error moved ∧
          ∃ words, (Lexer.ofText config b).Gives (words.map .ok ++ [.error error]) ∧
            (Lexer.ofText config (a ++ w :: b)).Gives ((xs ++ words).map .ok ++ [.error moved]) := by
  have hrun := run_append_separator hw ha b
  constructor
  · intro ys hb
    have hb := Run.result_eq_ok_iff.1 hb
    apply Run.result_eq_ok_iff.2
    rw [hrun, hb]
    rfl
  · intro error hb moved
    have hb := Run.result_eq_error_iff.1 hb
    have herror : (run config (a ++ w :: b)).error? = some moved := by
      simp [hrun, Run.shift, hb, moved]
    refine ⟨Run.result_eq_error_iff.2 herror, (run config b).words, ?_, ?_⟩
    · have hgives := Lexer.gives_run config b
      rwa [Run.items, hb] at hgives
    · have hgives := Lexer.gives_run config (a ++ w :: b)
      have hwords : (run config (a ++ w :: b)).words = xs ++ (run config b).words := by
        rw [hrun]
        rfl
      rwa [Run.items, hwords, herror] at hgives

/-- A dollar at the end of the first line does not reach over the blank to the quote after it, and
the error of the second line moves by four bytes. -/
theorem split_append_separator_dollar :
    ({} : Config).Separates ' ' ∧ split {} ['é', '$'] = .ok [['é', '$']] ∧
      split {} ['\'', 'b'] = .error (.unterminatedQuote '\'' ⟨0, 2⟩) ∧
      split {} ['é', '$', ' ', '\'', 'b'] = .error (.unterminatedQuote '\'' ⟨4, 6⟩) :=
  have hw : ({} : Config).Separates ' ' := by constructor <;> decide
  have ha : split {} ['é', '$'] = .ok [['é', '$']] := rfl
  have hb : split {} ['\'', 'b'] = .error (.unterminatedQuote '\'' ⟨0, 2⟩) := rfl
  ⟨hw, ha, hb, ((split_append_separator hw ha ['\'', 'b']).2 _ hb).1⟩

end ShellWords
