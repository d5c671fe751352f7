import ShellWords.Proofs.Command.Spelling

/-! One argument of the command line as the reader takes it. `Step` says what that can be in terms
of the grammar: a value, an operand, the end of the switches, or switches. The reader accepts an
argument by a step (`Step.of_read`), and it takes every step (`Step.read_eq`). -/

namespace ShellWords

namespace ArgumentReader

variable {reader reader' : ArgumentReader} {scope : Scope} {argument : Text} {switch : Switch}

/-! ### Words -/

theorem isKnown_join_iff : isKnown .join argument = true ↔ Familiar argument := by
  constructor
  · intro h
    unfold isKnown at h
    split at h
    · exact .separator
    · next name _ =>
      rw [Switch.isSome_ofLong?_join] at h
      obtain hname | ⟨value, hname⟩ := eq_takeWhile_ne '=' name
      · rw [hname]
        exact .long h
      · rw [hname]
        exact .longIs h
    · next letters _ _ =>
      refine .letters fun letter hletter => ?_
      have hknown := List.all_eq_true.1 h letter hletter
      unfold Switch.ofLetter? at hknown
      split at hknown <;> simp_all
    · cases h
  · intro h
    cases h with
    | separator => rfl
    | long hname | longIs hname =>
      obtain ⟨switch, hversion, rfl⟩ := Switch.mem_longNames_iff.1 hname
      cases switch with
      | version => exact absurd rfl hversion
      | output | config | noAnsiC | noLocale | verbose | help => rfl
    | @letters letters hletters =>
      have hall : (letters.all fun letter => (Switch.ofLetter? .join letter).isSome) = true := by
        refine List.all_eq_true.2 fun letter hletter => ?_
        have hknown := hletters letter hletter
        simp only [List.mem_cons, List.not_mem_nil, or_false] at hknown
        rcases hknown with rfl | rfl | rfl <;> rfl
      unfold isKnown
      split
      · rfl
      · next name _ heq =>
        cases heq
        simp at hletters
      · next heq =>
        cases heq
        exact hall
      · next hnot => exact absurd rfl (hnot letters)

/-- An argument that is no word has a hyphen and something after it. -/
theorem exists_of_not_wordlike (h : ¬ Wordlike scope argument) :
    ∃ c rest, argument = '-' :: c :: rest := by
  match argument with
  | [] => exact absurd .empty h
  | [c] =>
    by_cases hc : c = '-'
    · exact absurd (hc ▸ .hyphen) h
    · exact absurd (.plain hc) h
  | c :: d :: text =>
    by_cases hc : c = '-'
    · exact ⟨d, text, hc ▸ rfl⟩
    · exact absurd (.plain hc) h

theorem wordlike_iff :
    Wordlike scope argument ↔
      (isHyphened argument && !isHyphenedOperand scope argument) = false := by
  constructor
  · intro h
    cases h with
    | empty => rfl
    | plain hc => simp [isHyphened, hc]
    | hyphen => rfl
    | unfamiliar hscope htext =>
      have hknown := Bool.eq_false_iff.2 (isKnown_join_iff.not.2 htext)
      simp [isHyphenedOperand, hscope, hknown]
  · intro h
    by_contra hword
    obtain ⟨c, rest, rfl⟩ := exists_of_not_wordlike hword
    have hoperand : isHyphenedOperand scope ('-' :: c :: rest) = true := by
      simpa [isHyphened] using h
    simp only [isHyphenedOperand, Bool.and_eq_true, beq_iff_eq, Bool.not_eq_true'] at hoperand
    obtain ⟨rfl, hknown⟩ := hoperand
    exact hword (.unfamiliar rfl (isKnown_join_iff.not.1 (Bool.eq_false_iff.1 hknown)))

theorem not_wordlike_separator : ¬ Wordlike scope "--".toList := by
  intro h
  generalize htext : "--".toList = text at h
  cases h with
  | empty | hyphen => simp at htext
  | plain hc => simp [eq_comm, hc] at htext
  | unfamiliar _ hunfamiliar => exact hunfamiliar (htext ▸ .separator)

/-! ### One argument -/

/-- What a reader makes of one argument. -/
inductive Step (reader : ArgumentReader) (argument : Text) : ArgumentReader → Prop where
  | value {switch : Switch} {wish : Wish} {options : Options}
    (hawaiting : reader.awaiting = some switch) (hword : Wordlike reader.scope argument)
    (hvalue : Valued switch argument wish) (hgrants : reader.options.Grants [wish] options) :
    Step reader argument { reader with options, awaiting := none }
  | operand {reader' : ArgumentReader} (hawaiting : reader.awaiting = none)
    (hword : reader.operandsOnly = true ∨ Wordlike reader.scope argument)
    (hoperand : reader.readOperand argument = .ok reader') : Step reader argument reader'
  | separator (hawaiting : reader.awaiting = none) (honly : reader.operandsOnly = false)
    (hword : ¬ Wordlike reader.scope argument) (hargument : argument = "--".toList)
    (hscope : reader.scope ≠ .program) : Step reader argument { reader with operandsOnly := true }
  | switches {wishes : List Wish} {awaiting : Option Switch} {options : Options}
    (hawaiting : reader.awaiting = none) (honly : reader.operandsOnly = false)
    (hword : ¬ Wordlike reader.scope argument) (hargument : Switches argument wishes awaiting)
    (hgrants : reader.options.Grants wishes options) :
    Step reader argument { reader with options, awaiting }

theorem read_value (hawaiting : reader.awaiting = some switch)
    (hword : Wordlike reader.scope argument) :
    reader.read argument = (do
      let options ← reader.options.setValue switch argument
      return { reader with options, awaiting := none }) := by
  rw [wordlike_iff] at hword
  simp only [read, hawaiting, hword]
  rfl

theorem read_operand (hawaiting : reader.awaiting = none)
    (hword : reader.operandsOnly = true ∨ Wordlike reader.scope argument) :
    reader.read argument = reader.readOperand argument := by
  have hcondition : (reader.operandsOnly || !isHyphened argument ||
      isHyphenedOperand reader.scope argument) = true := by
    rw [wordlike_iff] at hword
    rcases hword with h | h
    · simp [h]
    · cases hhyphened : isHyphened argument <;> simp_all
  simp only [read, hawaiting, hcondition, if_true]

theorem read_switches {c : Char} {rest : Text} (hawaiting : reader.awaiting = none)
    (honly : reader.operandsOnly = false) (hword : ¬ Wordlike reader.scope ('-' :: c :: rest)) :
    reader.read ('-' :: c :: rest) =
      if c = '-' then
        if rest = [] then
          if reader.scope = .program then .error .usage
          else .ok { reader with operandsOnly := true }
        else reader.readLong rest
      else reader.readLetters (c :: rest) := by
  rw [wordlike_iff, Bool.not_eq_false, Bool.and_eq_true, Bool.not_eq_true'] at hword
  simp only [read, hawaiting, honly, hword, Bool.not_true, Bool.or_false, Bool.false_eq_true,
    if_false]
  by_cases hc : c = '-'
  · subst hc
    cases rest <;> rfl
  · rw [if_neg hc]
    split
    · next heq =>
      cases heq
      exact absurd rfl hc
    · next heq =>
      cases heq
      exact absurd rfl hc
    · rfl

theorem read_refused (hawaiting : reader.awaiting = some switch)
    (hword : ¬ Wordlike reader.scope argument) :
    reader.read argument = .error .usage := by
  rw [wordlike_iff, Bool.not_eq_false] at hword
  simp only [read, hawaiting, hword, if_true]

theorem Step.of_read (h : reader.read argument = .ok reader') :
    Step reader argument reader' := by
  cases hawaiting : reader.awaiting with
  | some switch =>
    by_cases hword : Wordlike reader.scope argument
    · rw [read_value hawaiting hword, bind_eq_ok_iff] at h
      obtain ⟨options, hset, h⟩ := h
      obtain ⟨wish, hvalue, hgrants⟩ := Options.setValue_eq_ok_iff.1 hset
      cases h
      exact .value hawaiting hword hvalue hgrants
    · rw [read_refused hawaiting hword] at h
      cases h
  | none =>
    by_cases hoperand : reader.operandsOnly = true ∨ Wordlike reader.scope argument
    · rw [read_operand hawaiting hoperand] at h
      exact .operand hawaiting hoperand h
    · obtain ⟨honly, hword⟩ := not_or.1 hoperand
      rw [Bool.not_eq_true] at honly
      obtain ⟨c, rest, rfl⟩ := exists_of_not_wordlike hword
      rw [read_switches hawaiting honly hword] at h
      split_ifs at h with hc hrest hscope
      · subst hc hrest
        cases h
        exact .separator hawaiting honly hword rfl hscope
      · subst hc
        obtain ⟨wishes, awaiting, options, hname, hgrants, rfl⟩ :=
          (readLong_eq_ok_iff hawaiting).1 h
        exact .switches hawaiting honly hword (.long hname) hgrants
      · obtain ⟨wishes, awaiting, options, hletters, hgrants, rfl⟩ :=
          (readLetters_eq_ok_iff hawaiting).1 h
        exact .switches hawaiting honly hword (.letters (List.cons_ne_nil c rest) hletters) hgrants

theorem Step.read_eq (h : Step reader argument reader') :
    reader.read argument = .ok reader' := by
  cases h with
  | value hawaiting hword hvalue hgrants =>
    rw [read_value hawaiting hword, bind_eq_ok_iff]
    exact ⟨_, Options.setValue_eq_ok_iff.2 ⟨_, hvalue, hgrants⟩, rfl⟩
  | operand hawaiting hword hoperand => rw [read_operand hawaiting hword, hoperand]
  | separator hawaiting honly hword hargument hscope =>
    subst hargument
    exact (read_switches hawaiting honly hword).trans (if_neg hscope)
  | @switches wishes awaiting options hawaiting honly hword hargument hgrants =>
    cases hargument with
    | @letters letters _ _ hne hletters =>
      obtain ⟨c, rest, rfl⟩ := List.exists_cons_of_ne_nil hne
      have hc : c ≠ '-' := by
        rintro rfl
        cases hletters
      rw [read_switches hawaiting honly hword, if_neg hc, readLetters_eq_ok_iff hawaiting]
      exact ⟨_, _, options, hletters, hgrants, rfl⟩
    | @long name _ _ hname =>
      have hne : name ≠ [] := by
        rintro rfl
        cases hname
      rw [read_switches hawaiting honly hword, if_pos rfl, if_neg hne, readLong_eq_ok_iff hawaiting]
      exact ⟨_, _, options, hname, hgrants, rfl⟩

end ArgumentReader

end ShellWords
