import ShellWords.Lexer.Basic

/-! What comes of reading on from any state of the machine. `State.outcome` follows the text that
is still to be read, and the two ways to split a line are its instances: `run_eq_outcome` for the
whole line at once, and `Lexer.gives_run` for one item at a time. -/

namespace ShellWords

namespace Run

/-- A run that begins with some more words. -/
def prepend (words : List Text) (run : Run) : Run :=
  { run with words := words ++ run.words }

@[simp] theorem words_prepend (words : List Text) (run : Run) :
    (run.prepend words).words = words ++ run.words := rfl

@[simp] theorem error?_prepend (words : List Text) (run : Run) :
    (run.prepend words).error? = run.error? := rfl

@[simp] theorem prepend_nil (run : Run) : run.prepend [] = run := rfl

@[simp] theorem prepend_prepend (a b : List Text) (run : Run) :
    (run.prepend b).prepend a = run.prepend (a ++ b) := by
  simp [prepend]

/-- The words of a run, and then its error if there is one. -/
def items (run : Run) : List Item :=
  run.words.map .ok ++ run.error?.toList.map .error

@[simp] theorem items_prepend (words : List Text) (run : Run) :
    (run.prepend words).items = words.map .ok ++ run.items := by
  simp [items]

theorem result_eq_ok_iff {run : Run} {words : List Text} :
    run.result = .ok words ↔ run = { words } := by
  obtain ⟨found, error?⟩ := run
  cases error? <;> simp [result]

theorem result_eq_error_iff {run : Run} {error : SplitError} :
    run.result = .error error ↔ run.error? = some error := by
  obtain ⟨found, error?⟩ := run
  cases error? <;> simp [result]

end Run

/-- What comes of reading the rest of a line from a state and an offset. -/
def State.outcome (config : Config) (state : State) (pos : Nat) : Text → Run
  | [] =>
    match state.finish pos with
    | .ok last => { words := last.toList }
    | .error error => { words := [], error? := some error }
  | c :: rest =>
    let step := state.step config pos c
    (step.state.outcome config (pos + c.utf8Size) rest).prepend step.word?.toList

theorem State.outcome_cons (config : Config) (state : State) (pos : Nat) (c : Char) (rest : Text) :
    state.outcome config pos (c :: rest) =
      ((state.step config pos c).state.outcome config (pos + c.utf8Size) rest).prepend
        (state.step config pos c).word?.toList := rfl

/-- Reading on gives the words so far, and then what comes of the state. -/
theorem Progress.finish_readAll (config : Config) (progress : Progress) (text : Text) :
    (progress.readAll config text).finish =
      (progress.state.outcome config progress.pos text).prepend progress.words.reverse := by
  induction text generalizing progress with
  | nil =>
    have hnil : progress.readAll config [] = progress := rfl
    rw [hnil]
    unfold finish State.outcome
    cases progress.state.finish progress.pos with
    | error error => simp [Run.prepend]
    | ok last => cases last <;> simp [Run.prepend]
  | cons c rest ih =>
    have hread : progress.readAll config (c :: rest) = (progress.read config c).readAll config rest :=
      rfl
    rw [hread, ih, State.outcome_cons, Run.prepend_prepend]
    congr 1
    simp only [read, List.reverse_append]
    cases (progress.state.step config progress.pos c).word? <;> rfl

namespace State

theorem escape_of_finish {state : State} {size : Nat} {last : Option Text}
    (h : state.finish size = .ok last) : state.escape = none := by
  unfold finish at h
  split at h <;> simp_all

theorem finish_gap {state : State} (size : Nat) (h : state.escape = none) :
    ({ state with region := .gap } : State).finish size = .ok none := by
  simp [finish, h, Region.word?]

end State

theorem run_eq_outcome (config : Config) (line : Text) :
    run config line = State.outcome config {} 0 line := by
  rw [run, Progress.finish_readAll]
  rfl

theorem run_append (config : Config) (a b : Text) :
    run config (a ++ b) =
      let progress := Progress.readAll config {} a
      (progress.state.outcome config progress.pos b).prepend progress.words.reverse := by
  rw [run, Progress.readAll_append, Progress.finish_readAll]

namespace Lexer

/-- What is still to come from a lexer. -/
def items (lexer : Lexer) : List Item :=
  if lexer.finished then []
  else (lexer.state.outcome lexer.config lexer.pos lexer.rest).items

/-- The lexer gives exactly these items, one a pull, and nothing more however often it is pulled. -/
def Gives (lexer : Lexer) (items : List Item) : Prop :=
  ∀ n, (lexer.take n).1 = (List.range n).map (items[·]?)

@[simp] theorem items_close (lexer : Lexer) : lexer.close.items = [] := rfl

/-- Scanning gives the first item of the outcome and leaves a lexer with the others. -/
theorem scan_spec (config : Config) (state : State) (pos : Nat) (text : Text) :
    (scan config state pos text).1 = (state.outcome config pos text).items.head? ∧
      (scan config state pos text).2.items = (state.outcome config pos text).items.tail := by
  induction text generalizing state pos with
  | nil =>
    cases hfinish : state.finish pos with
    | error error => simp [scan, State.outcome, hfinish, Run.items]
    | ok last =>
      cases last with
      | none => simp [scan, State.outcome, hfinish, Run.items]
      | some word =>
        -- The lexer stands at the end in a state between words, and so it gives nothing more.
        have hgap := State.finish_gap pos (State.escape_of_finish hfinish)
        simp [scan, State.outcome, hfinish, hgap, Run.items, items]
  | cons c rest ih =>
    rw [State.outcome_cons, scan]
    cases (state.step config pos c).word? with
    | some word => simp [items]
    | none => simpa using ih _ _

theorem next_spec (lexer : Lexer) :
    lexer.next.1 = lexer.items.head? ∧ lexer.next.2.items = lexer.items.tail := by
  unfold next items
  split
  · simp_all
  · exact scan_spec _ _ _ _

theorem gives_items (lexer : Lexer) : lexer.Gives lexer.items := by
  intro n
  induction n generalizing lexer with
  | zero => rfl
  | succ n ih =>
    obtain ⟨hfirst, hrest⟩ := lexer.next_spec
    simp only [take, List.range_succ_eq_map, List.map_cons, List.map_map, hfirst, ih, hrest]
    simp [List.head?_eq_getElem?, Function.comp_def]

/-- A fresh lexer gives the words of a line, and then the error if there is one. -/
theorem gives_run (config : Config) (line : Text) :
    (ofText config line).Gives (run config line).items := by
  rw [run_eq_outcome]
  exact gives_items _

end Lexer

end ShellWords
