import ShellWords.Proofs.Dollar

/-! The two switches for sections with a dollar. A switch is asked for only where its quote stands
right after a dollar, so it makes no difference to a line in which that never happens:
`split_switched`. -/

namespace ShellWords

variable {config : Config} {ansiC locale : Bool}

/-- A quote has the same mode under both settings of a switch that is not asked for. -/
theorem QuoteMode.opened_switched {afterDollar : Bool} {q : Char}
    (h : afterDollar = true →
      (q = '\'' → ansiC = config.ansiC) ∧ (q = '"' → locale = config.locale)) :
    opened { config with ansiC, locale } afterDollar q = opened config afterDollar q := by
  cases afterDollar with
  | false => simp
  | true =>
    obtain ⟨hansiC, hlocale⟩ := h rfl
    unfold opened
    by_cases hsingle : q = '\''
    · simp only [hansiC hsingle, hsingle]
      rfl
    · simp only [hsingle, false_and, if_false]
      by_cases hdouble : q = '"'
      · simp only [hlocale hdouble, hdouble]
      · simp only [hdouble, false_and, if_false]

theorem QuoteMode.decode_switched (mode : QuoteMode) (raw : Text) :
    mode.decode { config with ansiC, locale } raw = mode.decode config raw := by
  have hescape : Config.isEscape { config with ansiC, locale } = config.isEscape := rfl
  cases mode with
  | plain quote =>
    show (if config.escapesWithin quote then _ else raw) = _
    rw [Escape.unescape_congr hescape]
    rfl
  | ansiC => exact Escape.AnsiC.decode_congr hescape raw
  | locale => exact Escape.unescape_congr hescape raw

/-- A character does the same under both settings unless it asks for a switch. -/
theorem IsStep.switched {pos : Nat} {c : Char} {state : State} {step : Step}
    (h : IsStep config pos c state step)
    (hasked : isBefore state.dollar pos = true →
      (c = '\'' → ansiC = config.ansiC) ∧ (c = '"' → locale = config.locale)) :
    IsStep { config with ansiC, locale } pos c state step := by
  cases h with
  | operand => exact .operand
  | escape hescape => exact .escape hescape
  | @close before quote dollar hescape hclosing =>
    have hclose : quote.close { config with ansiC, locale } = quote.close config := by
      simp only [OpenQuote.close, QuoteMode.decode_switched]
    rw [← hclose]
    exact .close hescape hclosing
  | body hescape hclosing => exact .body hescape hclosing
  | @quote region dollar houtside hescape hquote =>
    have hopen : region.openQuote { config with ansiC, locale } pos (isBefore dollar pos) c =
        region.openQuote config pos (isBefore dollar pos) c := by
      simp only [Region.openQuote, QuoteMode.opened_switched hasked]
    rw [← hopen]
    exact .quote houtside hescape hquote
  | blank houtside hescape hquote hblank => exact .blank houtside hescape hquote hblank
  | bare houtside hescape hquote hblank => exact .bare houtside hescape hquote hblank

theorem Progress.read_switched {progress : Progress} {c : Char}
    (hasked : isBefore progress.state.dollar progress.pos = true →
      (c = '\'' → ansiC = config.ansiC) ∧ (c = '"' → locale = config.locale)) :
    progress.read { config with ansiC, locale } c = progress.read config c := by
  have hstep := (progress.state.isStep config progress.pos c).switched hasked
  simp only [read, hstep.step_eq]

/-- The two runs go through the same states, since a remembered dollar that stands right before a
quote in bytes stands there in the text. -/
theorem Progress.readAll_switched {text : Text}
    (hansiC : ['$', '\''] <:+: text → ansiC = config.ansiC)
    (hlocale : ['$', '"'] <:+: text → locale = config.locale) :
    readAll { config with ansiC, locale } {} text = readAll config {} text := by
  induction text using List.reverseRecOn with
  | nil => rfl
  | append_singleton text c ih =>
    have hprefix : text <+: text ++ [c] := List.prefix_append text [c]
    have ih := ih (fun h => hansiC (h.trans hprefix.isInfix))
      (fun h => hlocale (h.trans hprefix.isInfix))
    have hasked :
        isBefore (readAll config {} text).state.dollar (readAll config {} text).pos = true →
          (c = '\'' → ansiC = config.ansiC) ∧ (c = '"' → locale = config.locale) := by
      intro hbefore
      rw [pos_readAll_initial] at hbefore
      obtain ⟨front, hends⟩ := isBefore_iff.1 hbefore
      have hinfix : ['$', c] <:+: text ++ [c] := ⟨front, [], by simp [hends.text_eq]⟩
      constructor
      · rintro rfl
        exact hansiC hinfix
      · rintro rfl
        exact hlocale hinfix
    calc readAll { config with ansiC, locale } {} (text ++ [c])
        = (readAll { config with ansiC, locale } {} text).read { config with ansiC, locale } c :=
          readAll_append _ {} text [c]
      _ = (readAll config {} text).read { config with ansiC, locale } c := by rw [ih]
      _ = (readAll config {} text).read config c := read_switched hasked
      _ = readAll config {} (text ++ [c]) := (readAll_append config {} text [c]).symm

/-- Both switches may be set at once. -/
theorem run_switched {line : Text} (hansiC : ['$', '\''] <:+: line → ansiC = config.ansiC)
    (hlocale : ['$', '"'] <:+: line → locale = config.locale) :
    run { config with ansiC, locale } line = run config line := by
  rw [run, run, Progress.readAll_switched hansiC hlocale]

/-- The switch for ANSI-C sections makes no difference to the words or the error of a line in which
no dollar stands right before a single quote, and the switch for locale sections none where no
dollar stands right before a double quote. -/
theorem split_switched (config : Config) (line : Text) :
    (¬['$', '\''] <:+: line →
      ∀ enabled, split (config.set (.ansiC enabled)) line = split config line) ∧
      (¬['$', '"'] <:+: line →
        ∀ enabled, split (config.set (.locale enabled)) line = split config line) := by
  constructor
  · intro hline enabled
    exact congrArg Run.result (run_switched (fun h => absurd h hline) fun _ => rfl)
  · intro hline enabled
    exact congrArg Run.result (run_switched (fun _ => rfl) fun h => absurd h hline)

/-- The line is `$é'a' $\'"$\"b`. A character of two bytes stands between a dollar and a quote, and
then a backslash, outside quotes and inside. -/
theorem split_switched_escaped :
    let line : Text := ['$', 'é', '\'', 'a', '\'', ' ', '$', '\\', '\'', '"', '$', '\\', '"', 'b']
    ¬['$', '\''] <:+: line ∧ ¬['$', '"'] <:+: line ∧
      split {} line = .error (.unterminatedQuote '"' ⟨10, 15⟩) ∧
      split (({} : Config).set (.ansiC false)) line = split {} line ∧
      split (({} : Config).set (.locale false)) line = split {} line := by
  intro line
  have hansiC : ¬['$', '\''] <:+: line := by decide
  have hlocale : ¬['$', '"'] <:+: line := by decide
  have hsplit : split {} line = .error (.unterminatedQuote '"' ⟨10, 15⟩) := by cbv
  exact ⟨hansiC, hlocale, hsplit, (split_switched {} line).1 hansiC false,
    (split_switched {} line).2 hlocale false⟩

end ShellWords
