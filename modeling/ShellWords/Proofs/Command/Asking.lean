import ShellWords.Proofs.Command.Reading

/-! All arguments of the command line, one after another. What the reader makes of those after the
name of a command, and of those before it, is what the grammar says that they ask for, and so
`Invocation.ofArguments` accepts just the arguments that ask for an invocation:
`Invocation.ofArguments_eq_ok_iff`. -/

namespace ShellWords

theorem Scope.named_of_ofName? {scope : Scope} {name : Text} (h : ofName? name = some scope) :
    scope.Named name ∨ scope = .help := by
  obtain ⟨front, rest, htable, -⟩ := List.lookup_eq_some_iff.1 h
  have hmem : (String.ofList name, scope) ∈ front ++ (String.ofList name, scope) :: rest :=
    List.mem_append_right front List.mem_cons_self
  rw [← htable] at hmem
  simp only [List.mem_cons, Prod.mk.injEq, List.not_mem_nil, or_false] at hmem
  rcases hmem with ⟨hname, rfl⟩ | ⟨hname, rfl⟩ | ⟨hname, rfl⟩ | ⟨-, rfl⟩
  · exact .inl (eq_of_ofList_eq hname ▸ .split)
  · exact .inl (eq_of_ofList_eq hname ▸ .quote)
  · exact .inl (eq_of_ofList_eq hname ▸ .join)
  · exact .inr rfl

theorem Scope.Named.ne_program {scope : Scope} {name : Text} (h : scope.Named name) :
    scope ≠ .program := by
  cases h <;> decide

/-- `split` and `quote` take one word at most. -/
theorem Command.Takes.eq_nil {scope : Scope} {words rest : List Text} {word : Text}
    {command : Command} (h : Command.Takes scope (words ++ word :: rest) command)
    (hscope : scope = .split ∨ scope = .quote) : words = [] := by
  generalize hall : words ++ word :: rest = all at h
  cases h with
  | input => simp at hall
  | line | word => cases words <;> simp_all
  | words => simp at hscope

namespace ArgumentReader

variable {reader reader' : ArgumentReader} {invocation : Invocation} {argument : Text}
  {arguments words : List Text} {awaiting : Option Switch} {wishes : List Wish} {options : Options}
  {scope : Scope} {name : Text}

/-- What comes of the arguments that are still to be read. -/
def readAll (reader : ArgumentReader) (arguments : List Text) : Except Detour Invocation := do
  (← arguments.foldlM read reader).finish

theorem Step.readAll_cons (h : Step reader argument reader') (arguments : List Text) :
    reader.readAll (argument :: arguments) = reader'.readAll arguments := by
  rw [readAll, List.foldlM_cons, h.read_eq]
  rfl

theorem exists_step_of_readAll (h : reader.readAll (argument :: arguments) = .ok invocation) :
    ∃ reader', Step reader argument reader' ∧ reader'.readAll arguments = .ok invocation := by
  rw [readAll, List.foldlM_cons, bind_assoc, bind_eq_ok_iff] at h
  obtain ⟨reader', hread, hrest⟩ := h
  exact ⟨reader', .of_read hread, hrest⟩

theorem finish_eq_ok_iff :
    reader.finish = .ok invocation ↔
      reader.awaiting = none ∧
        Command.Takes reader.scope reader.operands.reverse invocation.command ∧
        invocation.options = reader.before.merge reader.options := by
  obtain ⟨scope, before, options, awaiting, only, operands⟩ := reader
  obtain ⟨options', command⟩ := invocation
  constructor
  · intro h
    simp only [finish] at h
    split at h
    · cases h
    · cases h
      exact ⟨rfl, .input, rfl⟩
    · cases h
      exact ⟨rfl, .line, rfl⟩
    · cases h
      exact ⟨rfl, .word, rfl⟩
    · cases h
      exact ⟨rfl, .words, rfl⟩
    · cases h
    · cases h
    · cases h
  · rintro ⟨hawaiting, htakes, hoptions⟩
    simp only at hawaiting htakes hoptions
    subst hawaiting hoptions
    generalize hwords : operands.reverse = words at htakes
    obtain rfl := List.reverse_eq_iff.1 hwords
    cases htakes with
    | input | line | word => rfl
    | words => simp only [finish, List.reverse_reverse]

/-! ### Operands -/

/-- A reader with one more operand. The first one of `join` puts an end to the switches. -/
def withOperand (reader : ArgumentReader) (argument : Text) : ArgumentReader :=
  { reader with
    operands := argument :: reader.operands
    operandsOnly := reader.operandsOnly || decide (reader.scope = .join) }

theorem readOperand_eq_ok_iff (hscope : reader.scope ≠ .program) :
    reader.readOperand argument = .ok reader' ↔
      (reader.scope = .split ∨ reader.scope = .quote → reader.operands = []) ∧
        reader.withOperand argument = reader' := by
  obtain ⟨scope, before, options, awaiting, only, operands⟩ := reader
  cases scope with
  | program => exact absurd rfl hscope
  | split | quote => cases operands <;> simp [readOperand, withOperand]
  | join | help => simp [readOperand, withOperand]

/-- Once there are no more switches, every argument is a word. -/
theorem readAll_operands_iff (reader : ArgumentReader) (hawaiting : reader.awaiting = none)
    (honly : reader.operandsOnly = true) (hscope : reader.scope ≠ .program) :
    reader.readAll arguments = .ok invocation ↔
      Command.Takes reader.scope (reader.operands.reverse ++ arguments) invocation.command ∧
        invocation.options = reader.before.merge reader.options := by
  induction arguments generalizing reader with
  | nil =>
    rw [List.append_nil]
    refine finish_eq_ok_iff.trans ?_
    simp only [hawaiting, true_and]
  | cons argument arguments ih =>
    have hnext := ih (reader.withOperand argument) hawaiting (by simp [withOperand, honly]) hscope
    have happend : (reader.withOperand argument).operands.reverse ++ arguments =
        reader.operands.reverse ++ argument :: arguments := by simp [withOperand]
    rw [happend] at hnext
    constructor
    · intro h
      obtain ⟨reader', hstep, hrest⟩ := exists_step_of_readAll h
      cases hstep with
      | operand _ _ hoperand =>
        obtain ⟨-, rfl⟩ := (readOperand_eq_ok_iff hscope).1 hoperand
        exact hnext.1 hrest
      | value hvalue => simp [hawaiting] at hvalue
      | separator _ hnot | switches _ hnot => simp [honly] at hnot
    · rintro ⟨htakes, hoptions⟩
      have hempty : reader.scope = .split ∨ reader.scope = .quote → reader.operands = [] :=
        fun hone => List.reverse_eq_nil_iff.1 (htakes.eq_nil hone)
      have hstep : Step reader argument (reader.withOperand argument) :=
        .operand hawaiting (.inl honly) ((readOperand_eq_ok_iff hscope).2 ⟨hempty, rfl⟩)
      exact (hstep.readAll_cons arguments).trans (hnext.2 ⟨htakes, hoptions⟩)

/-! ### After the name of a command -/

theorem exists_asked (h : reader.readAll arguments = .ok invocation)
    (hname : reader.scope.Named name) (honly : reader.operandsOnly = false) :
    ∃ wishes words options, Asked reader.scope reader.awaiting arguments wishes words ∧
      reader.options.Grants wishes options ∧
      Command.Takes reader.scope (reader.operands.reverse ++ words) invocation.command ∧
      invocation.options = reader.before.merge options := by
  induction arguments generalizing reader with
  | nil =>
    obtain ⟨hawaiting, htakes, hoptions⟩ := finish_eq_ok_iff.1 h
    refine ⟨[], [], reader.options, ?_, .nil, by rwa [List.append_nil], hoptions⟩
    rw [hawaiting]
    exact .done
  | cons argument arguments ih =>
    obtain ⟨reader', hstep, hrest⟩ := exists_step_of_readAll h
    cases hstep with
    | value hawaiting hword hvalue hgrants =>
      obtain ⟨wishes, words, options, hasked, hothers, hend⟩ := ih hrest hname honly
      rw [hawaiting]
      exact ⟨_, words, options, .value hvalue hword hasked, hgrants.append hothers, hend⟩
    | switches hawaiting _ hword hargument hgrants =>
      obtain ⟨wishes, words, options, hasked, hothers, hend⟩ := ih hrest hname honly
      rw [hawaiting]
      exact ⟨_, words, options, .switches hargument hword hasked, hgrants.append hothers, hend⟩
    | separator hawaiting _ _ hargument hscope =>
      have hend := (readAll_operands_iff { reader with operandsOnly := true } hawaiting rfl
        hscope).1 hrest
      rw [hawaiting, hargument]
      exact ⟨[], arguments, reader.options, .separator hscope, .nil, hend⟩
    | operand hawaiting hword hoperand =>
      obtain ⟨-, rfl⟩ := (readOperand_eq_ok_iff hname.ne_program).1 hoperand
      have hword := hword.resolve_left (by simp [honly])
      rw [hawaiting]
      by_cases hjoin : reader.scope = .join
      · have hend := (readAll_operands_iff (reader.withOperand argument) hawaiting
          (by simp [withOperand, hjoin]) hname.ne_program).1 hrest
        refine ⟨[], argument :: arguments, reader.options, .join hjoin hword, .nil, ?_⟩
        simpa [withOperand] using hend
      · have hone : reader.scope = .split ∨ reader.scope = .quote := by
          generalize reader.scope = scope at hname hjoin
          cases hname <;> simp_all
        obtain ⟨wishes, words, options, hasked, hgrants, htakes, hoptions⟩ :=
          ih hrest hname (by simp [withOperand, honly, hjoin])
        simp only [withOperand, List.reverse_cons, List.append_assoc,
          List.singleton_append] at htakes
        simp only [withOperand, hawaiting] at hasked
        exact ⟨wishes, argument :: words, options, .word hone hword hasked, hgrants, htakes,
          hoptions⟩

theorem readAll_of_asked (h : Asked scope awaiting arguments wishes words)
    (hscope : reader.scope = scope) (hne : scope ≠ .program)
    (hawaiting : reader.awaiting = awaiting) (honly : reader.operandsOnly = false)
    (hgrants : reader.options.Grants wishes options)
    (htakes : Command.Takes reader.scope (reader.operands.reverse ++ words) invocation.command)
    (hoptions : invocation.options = reader.before.merge options) :
    reader.readAll arguments = .ok invocation := by
  induction h generalizing reader with
  | done =>
    cases hgrants
    rw [List.append_nil] at htakes
    exact finish_eq_ok_iff.2 ⟨hawaiting, htakes, hoptions⟩
  | switches hargument hword _ ih =>
    obtain ⟨options', hwishes, hothers⟩ := hgrants.exists_of_append
    have hstep : Step reader _ _ := .switches hawaiting honly (hscope ▸ hword) hargument hwishes
    exact (hstep.readAll_cons _).trans (ih hscope rfl honly hothers htakes hoptions)
  | value hvalue hword _ ih =>
    obtain ⟨options', hwish, hothers⟩ := hgrants.exists_of_cons
    have hstep : Step reader _ _ := .value hawaiting (hscope ▸ hword) hvalue hwish
    exact (hstep.readAll_cons _).trans (ih hscope rfl honly hothers htakes hoptions)
  | word hone hword _ ih =>
    subst hscope
    have hempty := List.reverse_eq_nil_iff.1 (htakes.eq_nil hone)
    have hstep : Step reader _ (reader.withOperand _) :=
      .operand hawaiting (.inr hword) ((readOperand_eq_ok_iff hne).2 ⟨fun _ => hempty, rfl⟩)
    refine (hstep.readAll_cons _).trans (ih rfl hawaiting ?_ hgrants ?_ hoptions)
    · rcases hone with hone | hone <;> simp [withOperand, honly, hone]
    · simpa [withOperand] using htakes
  | join hjoin hword =>
    subst hscope
    cases hgrants
    have hstep : Step reader _ (reader.withOperand _) :=
      .operand hawaiting (.inr hword) ((readOperand_eq_ok_iff hne).2 ⟨by simp [hjoin], rfl⟩)
    refine (hstep.readAll_cons _).trans
      ((readAll_operands_iff (reader.withOperand _) hawaiting ?_ hne).2 ⟨?_, hoptions⟩)
    · simp [withOperand, hjoin]
    · simpa [withOperand] using htakes
  | separator =>
    subst hscope
    cases hgrants
    have hstep : Step reader _ { reader with operandsOnly := true } :=
      .separator hawaiting honly not_wordlike_separator rfl hne
    exact (hstep.readAll_cons _).trans
      ((readAll_operands_iff { reader with operandsOnly := true } hawaiting rfl hne).2
        ⟨htakes, hoptions⟩)

/-! ### Before the name of a command -/

theorem exists_asked_front (h : reader.readAll arguments = .ok invocation)
    (hscope : reader.scope = .program) (honly : reader.operandsOnly = false) :
    ∃ front name rest wishes options scope, arguments = front ++ name :: rest ∧
      Asked .program reader.awaiting front wishes [] ∧ reader.options.Grants wishes options ∧
      Scope.Named scope name ∧
      ArgumentReader.readAll { scope, before := options } rest = .ok invocation := by
  induction arguments generalizing reader with
  | nil =>
    obtain ⟨-, htakes, -⟩ := finish_eq_ok_iff.1 h
    rw [hscope] at htakes
    cases htakes
  | cons argument arguments ih =>
    obtain ⟨reader', hstep, hrest⟩ := exists_step_of_readAll h
    cases hstep with
    | value hawaiting hword hvalue hgrants =>
      obtain ⟨front, name, rest, wishes, options, scope, rfl, hasked, hothers, hend⟩ :=
        ih hrest hscope honly
      rw [hawaiting]
      exact ⟨_, name, rest, _, options, scope, rfl, .value hvalue (hscope ▸ hword) hasked,
        hgrants.append hothers, hend⟩
    | switches hawaiting _ hword hargument hgrants =>
      obtain ⟨front, name, rest, wishes, options, scope, rfl, hasked, hothers, hend⟩ :=
        ih hrest hscope honly
      rw [hawaiting]
      exact ⟨_, name, rest, _, options, scope, rfl, .switches hargument (hscope ▸ hword) hasked,
        hgrants.append hothers, hend⟩
    | separator _ _ _ _ hne => exact absurd hscope hne
    | operand hawaiting hword hoperand =>
      rw [readOperand, hscope] at hoperand
      cases hscope' : Scope.ofName? argument with
      | none => simp [hscope'] at hoperand
      | some scope =>
        simp only [hscope'] at hoperand
        cases hoperand
        obtain hname | rfl := Scope.named_of_ofName? hscope'
        · have honly' : (scope == Scope.help) = false := by cases hname <;> rfl
          rw [honly'] at hrest
          rw [hawaiting]
          exact ⟨[], argument, arguments, [], reader.options, scope, rfl, .done, .nil, hname, hrest⟩
        · -- only a request for help follows `help`
          obtain ⟨htakes, -⟩ := (readAll_operands_iff _ rfl rfl (by simp)).1 hrest
          cases htakes

theorem Step.of_named (reader : ArgumentReader) (hname : scope.Named name)
    (hscope : reader.scope = .program) (hawaiting : reader.awaiting = none) :
    Step reader name { scope, before := reader.options } := by
  have hword : Wordlike reader.scope name := by
    cases hname <;> exact .plain (by decide)
  refine .operand hawaiting (.inr hword) ?_
  rw [readOperand, hscope]
  cases hname <;> rfl

theorem readAll_append_of_asked (reader : ArgumentReader) {front : List Text}
    (h : Asked .program awaiting front wishes []) (hscope : reader.scope = .program)
    (hawaiting : reader.awaiting = awaiting) (honly : reader.operandsOnly = false)
    (hgrants : reader.options.Grants wishes options) :
    reader.readAll (front ++ arguments) =
      ArgumentReader.readAll { reader with options, awaiting := none } arguments := by
  generalize hwords : ([] : List Text) = words at h
  induction h generalizing reader with
  | done =>
    cases hgrants
    rw [← hawaiting]
    rfl
  | switches hargument hword _ ih =>
    obtain ⟨options', hwishes, hothers⟩ := hgrants.exists_of_append
    have hstep : Step reader _ _ := .switches hawaiting honly (hscope ▸ hword) hargument hwishes
    exact (hstep.readAll_cons _).trans (ih _ hscope rfl honly hothers hwords)
  | value hvalue hword _ ih =>
    obtain ⟨options', hwish, hothers⟩ := hgrants.exists_of_cons
    have hstep : Step reader _ _ := .value hawaiting (hscope ▸ hword) hvalue hwish
    exact (hstep.readAll_cons _).trans (ih _ hscope rfl honly hothers hwords)
  | word hone => rcases hone with hone | hone <;> cases hone
  | join hjoin => cases hjoin
  | separator hne => exact absurd rfl hne

end ArgumentReader

open ArgumentReader

/-- Arguments are read as an invocation if and only if they ask for it. -/
theorem Invocation.ofArguments_eq_ok_iff {arguments : List Text} {invocation : Invocation} :
    ofArguments arguments = .ok invocation ↔ Asks arguments invocation := by
  constructor
  · intro h
    have hread : readAll {} arguments = .ok invocation := h
    obtain ⟨front, name, rest, before, options, scope, rfl, hfront, hgrants, hname, hrest⟩ :=
      exists_asked_front hread rfl rfl
    obtain ⟨after, words, options', hafter, hgrants', htakes, hoptions⟩ :=
      exists_asked hrest hname rfl
    obtain ⟨honce, rfl⟩ := Options.grants_iff.1 hgrants
    obtain ⟨honce', rfl⟩ := Options.grants_iff.1 hgrants'
    exact .intro hfront hname hafter honce honce' (Options.meets_iff.2 hoptions) htakes
  · rintro ⟨hfront, hname, hrest, hbefore, hafter, hoptions, htakes⟩
    have hgrants := Options.grants_iff.2 ⟨hbefore, rfl⟩
    have hgrants' := Options.grants_iff.2 ⟨hafter, rfl⟩
    refine (readAll_append_of_asked {} hfront rfl rfl rfl hgrants).trans ?_
    refine ((Step.of_named _ hname rfl rfl).readAll_cons _).trans ?_
    exact readAll_of_asked hrest rfl hname.ne_program rfl rfl hgrants' htakes
      (Options.meets_iff.1 hoptions)

end ShellWords
