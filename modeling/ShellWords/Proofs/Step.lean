import ShellWords.Proofs.Unterminated

/-! What a character does to the machine. `IsStep` lists the kinds of step, each with the condition
under which it is taken, and `State.isStep` says that there are no others. All that the machine
remembers by its offset has been read: `State.Behind`, which every step keeps. -/

namespace ShellWords

/-- The kinds of step: the operand of an escape character, an escape character, the end of a
section, a character of its body, the opening of a section, a separator, and a character of a
word. -/
inductive IsStep (config : Config) (pos : Nat) (c : Char) : State → Step → Prop where
  | operand {region : Region} {start : Nat} {escape : Char} {dollar : Option Nat} :
    IsStep config pos c { region, escape := some (start, escape), dollar }
      { state := { region := region.pushEscaped escape c, dollar } }
  | escape {region : Region} {dollar : Option Nat}
    (hescape : (config.isEscape c && region.escaping config) = true) :
    IsStep config pos c { region, dollar } { state := { region, escape := some (pos, c), dollar } }
  | close {before : Text} {quote : OpenQuote} {dollar : Option Nat}
    (hescape : ¬(config.isEscape c && quote.mode.honorsEscapes config) = true)
    (hclosing : c = quote.mode.closing) :
    IsStep config pos c { region := .quoted before quote, dollar }
      { state := { region := .word ((quote.close config).decoded.reverse ++ before), dollar }
        completed := some (.quote (quote.close config)) }
  | body {before : Text} {quote : OpenQuote} {dollar : Option Nat}
    (hescape : ¬(config.isEscape c && quote.mode.honorsEscapes config) = true)
    (hclosing : c ≠ quote.mode.closing) :
    IsStep config pos c { region := .quoted before quote, dollar }
      { state := { region := .quoted before { quote with body := c :: quote.body }, dollar } }
  | quote {region : Region} {dollar : Option Nat} (houtside : region.outside)
    (hescape : config.isEscape c = false) (hquote : config.isQuote c) :
    IsStep config pos c { region, dollar }
      { state := { region := region.openQuote config pos (isBefore dollar pos) c, dollar } }
  | blank {region : Region} {dollar : Option Nat} (houtside : region.outside)
    (hescape : config.isEscape c = false) (hquote : config.isQuote c = false)
    (hblank : config.isWhitespace c) :
    IsStep config pos c { region, dollar }
      { state := { dollar := dollarAfter dollar pos c }, completed := region.word?.map .word }
  | bare {region : Region} {dollar : Option Nat} (houtside : region.outside)
    (hescape : config.isEscape c = false) (hquote : config.isQuote c = false)
    (hblank : config.isWhitespace c = false) :
    IsStep config pos c { region, dollar }
      { state := { region := region.push c, dollar := dollarAfter dollar pos c } }

theorem State.note_eq (region : Region) (dollar : Option Nat) (pos : Nat) (c : Char) :
    (if c = '$' then { region, dollar := some pos } else { region, dollar } : State) =
      { region, dollar := dollarAfter dollar pos c } := by
  unfold dollarAfter
  split <;> rfl

theorem State.isStep_outside (config : Config) (pos : Nat) (c : Char) {region : Region}
    (dollar : Option Nat) (houtside : region.outside) (hescape : config.isEscape c = false) :
    IsStep config pos c { region, dollar } (stepPlain config pos c { region, dollar }) := by
  simp only [stepPlain, note_eq]
  split
  · rename_i hquote
    exact .quote houtside hescape hquote
  · rename_i hquote
    have hquote : config.isQuote c = false := Bool.eq_false_iff.2 hquote
    split
    · rename_i hblank
      exact .blank houtside hescape hquote hblank
    · rename_i hblank
      exact .bare houtside hescape hquote (Bool.eq_false_iff.2 hblank)

/-- Every step of the machine is of one of the kinds. -/
theorem State.isStep (config : Config) (pos : Nat) (c : Char) (state : State) :
    IsStep config pos c state (state.step config pos c) := by
  obtain ⟨region, _ | ⟨start, escape⟩, dollar⟩ := state
  · simp only [step]
    split
    · rename_i hescape
      exact .escape hescape
    · rename_i hescape
      cases region with
      | quoted before quote =>
        simp only [stepQuoted]
        split
        · rename_i hclosing
          exact .close hescape hclosing
        · rename_i hclosing
          exact .body hescape hclosing
      | gap | word =>
        exact isStep_outside config pos c dollar rfl (by simpa [Region.escaping] using hescape)
  · exact .operand

theorem State.step_of_outside {config : Config} {pos : Nat} {c : Char} {region : Region}
    {dollar : Option Nat} (houtside : region.outside) (hescape : config.isEscape c = false) :
    step config pos c { region, dollar } = stepPlain config pos c { region, dollar } := by
  simp only [step, hescape, Bool.false_and]
  cases region with
  | gap | word => rfl
  | quoted => cases houtside

/-- The kinds of step exclude each other. -/
theorem IsStep.step_eq {config : Config} {pos : Nat} {c : Char} {state : State} {step : Step}
    (h : IsStep config pos c state step) : state.step config pos c = step := by
  cases h with
  | operand => rfl
  | escape hescape => simp [State.step, hescape]
  | close hescape hclosing =>
    simp only [State.step, Region.escaping, if_neg hescape, State.stepQuoted, if_pos hclosing]
  | body hescape hclosing =>
    simp only [State.step, Region.escaping, if_neg hescape, State.stepQuoted, if_neg hclosing,
      Region.push]
  | quote houtside hescape hquote =>
    rw [State.step_of_outside houtside hescape]
    simp only [State.stepPlain, hquote, if_true]
    rfl
  | blank houtside hescape hquote hblank =>
    rw [State.step_of_outside houtside hescape]
    simp only [State.stepPlain, hquote, State.note_eq, hblank, if_true, Bool.false_eq_true, if_false]
  | bare houtside hescape hquote hblank =>
    rw [State.step_of_outside houtside hescape]
    simp only [State.stepPlain, hquote, State.note_eq, hblank, Bool.false_eq_true, if_false]

/-! ### What the machine remembers -/

namespace Region

/-- The offset of the opening of the section that is open. -/
def start? : Region → Option Nat
  | quoted _ quote => some quote.start
  | _ => none

@[simp] theorem start?_push (c : Char) (region : Region) :
    (region.push c).start? = region.start? := by
  cases region <;> rfl

@[simp] theorem start?_pushEscaped (escape c : Char) (region : Region) :
    (region.pushEscaped escape c).start? = region.start? := by
  unfold pushEscaped
  split
  · rfl
  · cases region <;> rfl

/-- A section starts at its quote, or at the dollar before it, which it takes from the word. -/
theorem openQuote_eq (config : Config) (pos : Nat) (afterDollar : Bool) (c : Char)
    (region : Region) :
    ∃ mode, region.openQuote config pos afterDollar c = quoted region.pending ⟨mode, pos, []⟩ ∨
      afterDollar = true ∧ ∃ before, region.pending = '$' :: before ∧
        region.openQuote config pos afterDollar c = quoted before ⟨mode, pos - 1, []⟩ := by
  refine ⟨.opened config afterDollar c, ?_⟩
  simp only [openQuote]
  split
  · rename_i before htakes hpending
    refine .inr ⟨?_, before, hpending, rfl⟩
    cases afterDollar with
    | false => simp [QuoteMode.takesDollar] at htakes
    | true => rfl
  · exact .inl rfl

end Region

namespace State

/-- What the machine remembers by its offset stands before `pos`. -/
structure Behind (pos : Nat) (state : State) : Prop where
  dollar : ∀ d ∈ state.dollar, d < pos
  start : ∀ s ∈ state.region.start?, s < pos

theorem behind_initial (pos : Nat) : Behind pos {} :=
  ⟨nofun, nofun⟩

end State

theorem dollarAfter_lt {dollar : Option Nat} {pos : Nat} (h : ∀ d ∈ dollar, d < pos) (c : Char) :
    ∀ d ∈ dollarAfter dollar pos c, d < pos + c.utf8Size := by
  have hpos : pos < pos + c.utf8Size := Nat.lt_add_of_pos_right c.utf8Size_pos
  unfold dollarAfter
  split
  · rintro d ⟨⟩
    exact hpos
  · exact fun d hd => Nat.lt_trans (h d hd) hpos

theorem IsStep.behind {config : Config} {pos : Nat} {c : Char} {state : State} {step : Step}
    (h : IsStep config pos c state step) (hbehind : state.Behind pos) :
    step.state.Behind (pos + c.utf8Size) := by
  have hpos : pos < pos + c.utf8Size := Nat.lt_add_of_pos_right c.utf8Size_pos
  obtain ⟨hdollar, hstart⟩ := hbehind
  have hdollar' : ∀ d ∈ state.dollar, d < pos + c.utf8Size :=
    fun d hd => Nat.lt_trans (hdollar d hd) hpos
  have hstart' : ∀ s ∈ state.region.start?, s < pos + c.utf8Size :=
    fun s hs => Nat.lt_trans (hstart s hs) hpos
  cases h with
  | operand => exact ⟨hdollar', by simpa using hstart'⟩
  | escape | body => exact ⟨hdollar', hstart'⟩
  | close => exact ⟨hdollar', nofun⟩
  | @quote region dollar =>
    refine ⟨hdollar', ?_⟩
    obtain ⟨mode, hopen | ⟨-, before, -, hopen⟩⟩ :=
      region.openQuote_eq config pos (isBefore dollar pos) c
    · rw [hopen]
      rintro s ⟨⟩
      exact hpos
    · rw [hopen]
      rintro s ⟨⟩
      show pos - 1 < _
      omega
  | blank => exact ⟨dollarAfter_lt hdollar c, nofun⟩
  | bare => exact ⟨dollarAfter_lt hdollar c, by simpa using hstart'⟩

end ShellWords
