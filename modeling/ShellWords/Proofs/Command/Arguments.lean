import ShellWords.Command.Arguments

/-! Reading the arguments of the command line. Asking for messages changes nothing but how many
messages there are: readers that differ in that alone read on alike (`foldlM_read_quiet`), so that
the switch can be added to the arguments or left out (`ofArguments_verbose`). -/

namespace ShellWords

/-- Results that agree up to `f` lead to results that agree up to `g`. -/
theorem map_bind_congr {ε α β γ δ : Type} {f : α → γ} {g : β → δ} {x y : Except ε α}
    {next next' : α → Except ε β} (hxy : x.map f = y.map f)
    (hnext : ∀ a b, f a = f b → (next a).map g = (next' b).map g) :
    (x >>= next).map g = (y >>= next').map g := by
  cases x with
  | error error =>
    cases y with
    | error error' =>
      cases hxy
      rfl
    | ok b => cases hxy
  | ok a =>
    cases y with
    | error error => cases hxy
    | ok b => exact hnext a b (Except.ok.inj hxy)

/-- Options without the messages asked for. -/
def Options.quiet (options : Options) : Options :=
  { options with verbosity := 0 }

namespace Options

variable {options options' : Options}

theorem exists_verbosity (h : options.quiet = options'.quiet) :
    ∃ verbosity, options' = { options with verbosity } := by
  obtain ⟨output, config, noAnsiC, noLocale, verbosity⟩ := options
  obtain ⟨output', config', noAnsiC', noLocale', verbosity'⟩ := options'
  simp only [quiet, Options.mk.injEq, and_true] at h
  obtain ⟨rfl, rfl, rfl, rfl⟩ := h
  exact ⟨verbosity', rfl⟩

theorem turnOn_quiet (h : options.quiet = options'.quiet) (switch : Switch) :
    (options.turnOn switch).map quiet = (options'.turnOn switch).map quiet := by
  obtain ⟨verbosity, rfl⟩ := exists_verbosity h
  cases switch with
  | noAnsiC =>
    simp only [turnOn]
    split <;> rfl
  | noLocale =>
    simp only [turnOn]
    split <;> rfl
  | verbose | help | version | output | config => rfl

theorem setValue_quiet (h : options.quiet = options'.quiet) (switch : Switch) (value : Text) :
    (options.setValue switch value).map quiet = (options'.setValue switch value).map quiet := by
  obtain ⟨verbosity, rfl⟩ := exists_verbosity h
  simp only [setValue]
  split
  · rfl
  · split <;> rfl
  · rfl

theorem merge_quiet {before before' : Options} (hbefore : before.quiet = before'.quiet)
    (h : options.quiet = options'.quiet) :
    (before.merge options).quiet = (before'.merge options').quiet := by
  obtain ⟨verbosityBefore, rfl⟩ := exists_verbosity hbefore
  obtain ⟨verbosity, rfl⟩ := exists_verbosity h
  rfl

end Options

/-- An invocation without the messages asked for. -/
def Invocation.quiet (invocation : Invocation) : Invocation :=
  { invocation with options := invocation.options.quiet }

namespace ArgumentReader

/-- A reader without the messages asked for so far. -/
def quiet (reader : ArgumentReader) : ArgumentReader :=
  { reader with before := reader.before.quiet, options := reader.options.quiet }

variable {reader reader' : ArgumentReader}

/-- Readers that differ in the messages asked for share all the rest. -/
theorem exists_of_quiet (h : reader.quiet = reader'.quiet) :
    ∃ before options, reader' = { reader with before, options } ∧
      reader.before.quiet = before.quiet ∧ reader.options.quiet = options.quiet := by
  obtain ⟨scope, before, options, awaiting, operandsOnly, operands⟩ := reader
  obtain ⟨scope', before', options', awaiting', operandsOnly', operands'⟩ := reader'
  simp only [quiet, ArgumentReader.mk.injEq] at h
  obtain ⟨rfl, hbefore, hoptions, rfl, rfl, rfl⟩ := h
  exact ⟨before', options', rfl, hbefore, hoptions⟩

theorem quiet_congr {scope : Scope} {before before' options options' : Options}
    {awaiting : Option Switch} {operandsOnly : Bool} {operands : List Text}
    (hbefore : before.quiet = before'.quiet) (hoptions : options.quiet = options'.quiet) :
    (ArgumentReader.mk scope before options awaiting operandsOnly operands).quiet =
      (ArgumentReader.mk scope before' options' awaiting operandsOnly operands).quiet := by
  simp only [quiet, hbefore, hoptions]

/-- Options that are read alike are put alike into readers. -/
theorem map_options_quiet {x y : Except Detour Options}
    (hxy : x.map Options.quiet = y.map Options.quiet) {before : Options}
    (hbefore : reader.before.quiet = before.quiet) :
    (do return { reader with options := ← x } : Except Detour ArgumentReader).map quiet =
      (do return { reader with before, options := ← y } : Except Detour ArgumentReader).map quiet :=
  map_bind_congr hxy fun _ _ hoptions => congrArg Except.ok (quiet_congr hbefore hoptions)

theorem readLong_quiet (h : reader.quiet = reader'.quiet) (argument : Text) :
    (reader.readLong argument).map quiet = (reader'.readLong argument).map quiet := by
  obtain ⟨before, options, rfl, hbefore, hoptions⟩ := exists_of_quiet h
  simp only [readLong]
  split
  · rfl
  · split
    · exact congrArg Except.ok (quiet_congr hbefore hoptions)
    · exact map_options_quiet (Options.turnOn_quiet hoptions _) hbefore
  · exact map_options_quiet (Options.setValue_quiet hoptions _ _) hbefore

theorem readLetters_quiet (h : reader.quiet = reader'.quiet) (letters : Text) :
    (reader.readLetters letters).map quiet = (reader'.readLetters letters).map quiet := by
  induction letters generalizing reader reader' with
  | nil => exact congrArg Except.ok h
  | cons letter letters ih =>
    obtain ⟨before, options, rfl, hbefore, hoptions⟩ := exists_of_quiet h
    simp only [readLetters]
    split
    · split
      · split
        · exact congrArg Except.ok (quiet_congr hbefore hoptions)
        · exact map_options_quiet (Options.setValue_quiet hoptions _ _) hbefore
        · exact map_options_quiet (Options.setValue_quiet hoptions _ _) hbefore
      · exact map_bind_congr (Options.turnOn_quiet hoptions _) fun _ _ hoptions =>
          ih (quiet_congr hbefore hoptions)
    · rfl

theorem readOperand_quiet (h : reader.quiet = reader'.quiet) (argument : Text) :
    (reader.readOperand argument).map quiet = (reader'.readOperand argument).map quiet := by
  obtain ⟨before, options, rfl, hbefore, hoptions⟩ := exists_of_quiet h
  simp only [readOperand]
  split
  · split
    -- the options read so far become those before the name of the command
    · exact congrArg Except.ok (quiet_congr hoptions rfl)
    · rfl
  · exact congrArg Except.ok (quiet_congr hbefore hoptions)
  · exact congrArg Except.ok (quiet_congr hbefore hoptions)
  · split
    · exact congrArg Except.ok (quiet_congr hbefore hoptions)
    · rfl
  · split
    · exact congrArg Except.ok (quiet_congr hbefore hoptions)
    · rfl

theorem read_quiet (h : reader.quiet = reader'.quiet) (argument : Text) :
    (reader.read argument).map quiet = (reader'.read argument).map quiet := by
  have hlong := readLong_quiet h
  have hletters := readLetters_quiet h argument.tail
  have hoperand := readOperand_quiet h argument
  obtain ⟨before, options, rfl, hbefore, hoptions⟩ := exists_of_quiet h
  simp only [read]
  split
  -- the value of a switch, an operand, or a switch
  · split
    · rfl
    · exact map_bind_congr (Options.setValue_quiet hoptions _ _) fun _ _ hoptions =>
        congrArg Except.ok (quiet_congr hbefore hoptions)
  · split
    · exact hoperand
    · split
      · split
        · rfl
        · exact congrArg Except.ok (quiet_congr hbefore hoptions)
      · exact hlong _
      · exact hletters

theorem foldlM_read_quiet (h : reader.quiet = reader'.quiet) (arguments : List Text) :
    (arguments.foldlM read reader).map quiet = (arguments.foldlM read reader').map quiet := by
  induction arguments generalizing reader reader' with
  | nil => exact congrArg Except.ok h
  | cons argument arguments ih =>
    simp only [List.foldlM_cons]
    exact map_bind_congr (read_quiet h argument) fun _ _ h => ih h

theorem finish_quiet (h : reader.quiet = reader'.quiet) :
    reader.finish.map Invocation.quiet = reader'.finish.map Invocation.quiet := by
  obtain ⟨before, options, rfl, hbefore, hoptions⟩ := exists_of_quiet h
  have hmerge := Options.merge_quiet hbefore hoptions
  have hok : ∀ command,
      (Except.ok ⟨reader.before.merge reader.options, command⟩ : Except Detour Invocation).map
          Invocation.quiet =
        (Except.ok ⟨before.merge options, command⟩ : Except Detour Invocation).map
          Invocation.quiet := by
    intro command
    simp only [Except.map, Invocation.quiet, hmerge]
  simp only [finish]
  split
  · rfl
  · exact hok _
  · exact hok _
  · exact hok _
  · exact hok _
  · rfl
  · rfl
  · rfl

/-- Where a switch may stand, one that asks for messages leaves the rest as it is. -/
theorem read_verbose (hawaiting : reader.awaiting = none) (hoperands : reader.operandsOnly = false)
    {argument : Text} (hargument : argument ∈ ["-v".toList, "--verbose".toList]) :
    ∃ louder, reader.read argument = .ok louder ∧ louder.quiet = reader.quiet := by
  obtain ⟨scope, before, options, awaiting, operandsOnly, operands⟩ := reader
  simp only at hawaiting hoperands
  subst hawaiting hoperands
  simp only [List.mem_cons, List.not_mem_nil, or_false] at hargument
  refine ⟨⟨scope, before, { options with verbosity := options.verbosity + 1 }, none, false,
    operands⟩, ?_, rfl⟩
  rcases hargument with rfl | rfl
  · cases scope <;> rfl
  · cases scope <;> rfl

end ArgumentReader

/-- A switch that asks for messages may be added wherever a switch may stand, and the invocation
asks for nothing else than without it. -/
theorem Invocation.ofArguments_verbose {before after : List Text} {reader : ArgumentReader}
    (hbefore : before.foldlM ArgumentReader.read {} = .ok reader)
    (hawaiting : reader.awaiting = none) (hoperands : reader.operandsOnly = false)
    {argument : Text} (hargument : argument ∈ ["-v".toList, "--verbose".toList]) :
    (ofArguments (before ++ argument :: after)).map quiet =
      (ofArguments (before ++ after)).map quiet := by
  obtain ⟨louder, hread, hquiet⟩ := reader.read_verbose hawaiting hoperands hargument
  have hread_before : ∀ rest, (before ++ rest).foldlM ArgumentReader.read {} =
      rest.foldlM ArgumentReader.read reader := by
    intro rest
    rw [List.foldlM_append, hbefore]
    rfl
  have hread_switch : (argument :: after).foldlM ArgumentReader.read reader =
      after.foldlM ArgumentReader.read louder := by
    rw [List.foldlM_cons, hread]
    rfl
  unfold ofArguments
  rw [hread_before, hread_before, hread_switch]
  exact map_bind_congr (ArgumentReader.foldlM_read_quiet hquiet after) fun _ _ h =>
    ArgumentReader.finish_quiet h

end ShellWords
