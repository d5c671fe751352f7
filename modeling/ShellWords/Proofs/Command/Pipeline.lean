import ShellWords.Proofs.Command.Outcomes
import ShellWords.Proofs.Json
import ShellWords.Proofs.RoundTrip
import ShellWords.Proofs.Separator

/-! Commands in a pipeline. What `join` or `quote` writes for words is a line of text, and `split`
with that line as its standard input gives the words back, whatever they are: `splits_back`. -/

namespace ShellWords

/-! ### The arguments of the commands -/

theorem ofArguments_join (words : List Text) :
    Invocation.ofArguments ("join".toList :: "--".toList :: words) = .ok ⟨{}, .join words⟩ := by
  rw [Invocation.ofArguments_eq_ok_iff]
  show Asks ([] ++ "join".toList :: "--".toList :: words) _
  exact .intro .done .join (.separator (by decide)) .nil .nil (Options.meets_merge [] []) .words

theorem ofArguments_quote (word : Text) :
    Invocation.ofArguments ["quote".toList, "--".toList, word] = .ok ⟨{}, .quote word⟩ :=
  rfl

theorem ofArguments_split_json :
    Invocation.ofArguments ["-o".toList, "json".toList, "split".toList] =
      .ok ⟨{ output := some .json }, .split none⟩ :=
  rfl

/-! ### The line between the commands -/

/-- The end of the line does not go into the last word. -/
theorem split_join_line (words : List Text) : split {} (join words ++ ['\n']) = .ok words := by
  have hjoin : split {} (join words) = .ok words := by
    rw [split, run_eq_runByPieces, runByPieces, run_join readsQuoted_default]
    rfl
  have hnewline : Config.Separates {} '\n' := by constructor <;> decide
  have hempty : run {} [] = { words := [] } := rfl
  rw [split, run_append_separator hnewline hjoin, hempty]
  exact congrArg Except.ok (List.append_nil words)

theorem join_singleton (word : Text) : join [word] = quote word := by
  simp [join]

/-- A command succeeds, and so does `split` with the output of the command as its standard input. It
writes JSON that denotes the words. -/
def PipesInto (arguments : List Text) (words : List Text) : Prop :=
  ∀ here there : Surroundings,
    let first := runProgram here arguments
    let second := runProgram { there with input := Text.toUtf8 first.output }
      ["-o".toList, "json".toList, "split".toList]
    first.code = 0 ∧ second.code = 0 ∧ Json.parse? second.output = some (Json.ofTexts words)

theorem pipesInto_of_line {arguments words : List Text}
    (h : ∀ here, (runProgram here arguments).code = 0 ∧
      (runProgram here arguments).output = join words ++ ['\n']) : PipesInto arguments words := by
  intro here there first second
  obtain ⟨hcode, houtput⟩ := h here
  have hline : ReadsLine (Text.toUtf8 first.output) none (join words ++ ['\n']) := by
    rw [houtput]
    exact .input (Text.ofUtf8?_toUtf8 _)
  have hends : Ends { there with input := Text.toUtf8 first.output }
      ⟨{ output := some .json }, .split none⟩ _ :=
    .split .default rfl hline (split_join_line words)
  have hsecond := (runProgram_of_ok ofArguments_split_json _).trans hends.outcome_eq
  refine ⟨hcode, congrArg Outcome.code hsecond, ?_⟩
  rw [show second.output = _ from congrArg Outcome.output hsecond]
  exact Json.parse?_ofTexts words

/-- The words that `join` or `quote` writes come out of `split` at the end of a pipeline. -/
theorem splits_back :
    (∀ words, PipesInto ("join".toList :: "--".toList :: words) words) ∧
      ∀ word, PipesInto ["quote".toList, "--".toList, word] [word] := by
  constructor
  · intro words
    apply pipesInto_of_line
    intro here
    rw [runProgram_of_ok (ofArguments_join words) here, (Ends.join .default rfl).outcome_eq]
    exact ⟨rfl, rfl⟩
  · intro word
    apply pipesInto_of_line
    intro here
    rw [runProgram_of_ok (ofArguments_quote word) here, (Ends.quote .default rfl).outcome_eq,
      join_singleton]
    exact ⟨rfl, rfl⟩

end ShellWords
