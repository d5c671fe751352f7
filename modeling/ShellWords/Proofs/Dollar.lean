import Mathlib
import ShellWords.Lexer.Trace
import ShellWords.Proofs.Step

/-! Dollars before quotes. The machine remembers a dollar only by its offset, and a quote takes the
dollar for its own if it stands at the next one. That offset says which character was read:
`isBefore_iff`. So a section that a dollar belongs to starts at that dollar and takes it, and
nothing else, from the word, exactly if the dollar does not separate words: `ownsDollar_iff`. -/

namespace ShellWords

/-- The machine after some text at the beginning of a line. -/
def State.after (config : Config) (text : Text) : State :=
  (Progress.readAll config {} text).state

theorem Progress.pos_readAll (config : Config) (progress : Progress) (text : Text) :
    (progress.readAll config text).pos = progress.pos + Text.byteLength text := by
  induction text generalizing progress with
  | nil => rfl
  | cons c rest ih =>
    have hread :
        progress.readAll config (c :: rest) = (progress.read config c).readAll config rest := rfl
    rw [hread, ih, Text.byteLength_cons, ← Nat.add_assoc]
    rfl

theorem Progress.pos_readAll_initial (config : Config) (text : Text) :
    (Progress.readAll config {} text).pos = Text.byteLength text :=
  (Progress.pos_readAll config {} text).trans (Nat.zero_add _)

namespace State

theorem after_concat (config : Config) (text : Text) (c : Char) :
    after config (text ++ [c]) =
      ((after config text).step config (Text.byteLength text) c).state := by
  rw [← Progress.pos_readAll_initial config text, after, Progress.readAll_append]
  rfl

theorem isStep_after (config : Config) (text : Text) (c : Char) :
    IsStep config (Text.byteLength text) c (after config text)
      ((after config text).step config (Text.byteLength text) c) :=
  isStep config _ c _

theorem behind_after (config : Config) (text : Text) :
    (after config text).Behind (Text.byteLength text) := by
  induction text using List.reverseRecOn with
  | nil => exact behind_initial 0
  | append_singleton text c ih =>
    rw [after_concat, Text.byteLength_append]
    exact (isStep_after config text c).behind ih

end State

/-! ### The dollar that the machine remembers -/

/-- A text ends with a dollar, after `front`, that stands outside quotes and is not escaped. It is
an ordinary character there, or one that separates words. -/
structure EndsWithDollar (config : Config) (front text : Text) : Prop where
  text_eq : text = front ++ ['$']
  outside : (State.after config front).region.outside
  unescaped : (State.after config front).escape = none
  not_escape : config.isEscape '$' = false
  not_quote : config.isQuote '$' = false

/-- A step notes a dollar only where it reads one outside quotes. -/
theorem IsStep.dollar {config : Config} {pos : Nat} {c : Char} {state : State} {step : Step}
    (h : IsStep config pos c state step) :
    step.state.dollar = state.dollar ∨
      (state.region.outside ∧ state.escape = none ∧ config.isEscape c = false ∧
        config.isQuote c = false ∧ c = '$') := by
  have hnoted : ∀ dollar, dollarAfter dollar pos c = dollar ∨ c = '$' := by
    intro dollar
    by_cases hc : c = '$'
    · exact .inr hc
    · exact .inl (if_neg hc)
  cases h with
  | operand | escape | close | body | quote => exact .inl rfl
  | @blank region dollar houtside hescape hquote =>
    rcases hnoted dollar with hkept | hc
    · exact .inl hkept
    · exact .inr ⟨houtside, rfl, hescape, hquote, hc⟩
  | @bare region dollar houtside hescape hquote =>
    rcases hnoted dollar with hkept | hc
    · exact .inl hkept
    · exact .inr ⟨houtside, rfl, hescape, hquote, hc⟩

namespace EndsWithDollar

variable {config : Config} {front text : Text} (h : EndsWithDollar config front text)
include h

theorem byteLength_eq : Text.byteLength text = Text.byteLength front + 1 := by
  have hsize : '$'.utf8Size = 1 := rfl
  rw [h.text_eq, Text.byteLength_append, Text.byteLength_cons, hsize, Text.byteLength_nil]

/-- What the dollar does: it goes to the word, or it ends the word if it separates words. -/
theorem after_eq :
    State.after config text =
      { region :=
          if config.isWhitespace '$' then .gap
          else .word ('$' :: (State.after config front).region.pending)
        dollar := some (Text.byteLength front) } := by
  have hstep := State.isStep_after config front '$'
  rw [h.text_eq, State.after_concat]
  obtain ⟨-, houtside, hunescaped, hescape, hquote⟩ := h
  generalize State.step config (Text.byteLength front) '$' (State.after config front) = step
    at hstep
  generalize State.after config front = state at houtside hunescaped hstep ⊢
  cases hstep with
  | operand => cases hunescaped
  | escape hactive => simp [hescape] at hactive
  | close | body => cases houtside
  | quote _ _ hdollar => simp [hquote] at hdollar
  | blank _ _ _ hblank =>
    rw [if_pos hblank, dollarAfter, if_pos rfl]
  | @bare region dollar _ _ _ hblank =>
    have hpush : region.push '$' = .word ('$' :: region.pending) := by
      cases region with
      | gap | word => rfl
      | quoted => cases houtside
    rw [hblank, hpush, dollarAfter, if_pos rfl, if_neg Bool.false_ne_true]

end EndsWithDollar

/-- The offset before which the machine remembers a dollar is the end of the text exactly if the
text ends with a dollar that is read as such: no other character was left out between the two. -/
theorem isBefore_iff {config : Config} {text : Text} :
    isBefore (State.after config text).dollar (Text.byteLength text) = true ↔
      ∃ front, EndsWithDollar config front text := by
  constructor
  · intro h
    rcases List.eq_nil_or_concat text with rfl | ⟨front, c, rfl⟩
    · cases h
    · rw [List.concat_eq_append] at h ⊢
      rw [State.after_concat] at h
      rcases (State.isStep_after config front c).dollar with
        hkept | ⟨houtside, hunescaped, hescape, hquote, rfl⟩
      · -- A dollar from before the last character ends before that character, not after it.
        have hpos : Text.byteLength front < Text.byteLength (front ++ [c]) := by
          have := c.utf8Size_pos
          rw [Text.byteLength_append, Text.byteLength_cons]
          omega
        rw [hkept, isBefore_eq_false (State.behind_after config front).dollar hpos] at h
        cases h
      · exact ⟨front, rfl, houtside, hunescaped, hescape, hquote⟩
  · rintro ⟨front, h⟩
    rw [h.after_eq, h.byteLength_eq]
    exact beq_self_eq_true _

/-! ### Sections with a dollar -/

theorem Region.outside_push {region : Region} (h : region.outside) (c : Char) :
    (region.push c).outside := by
  cases region with
  | gap | word => rfl
  | quoted before quote => cases h

/-- Whether or not a section takes a dollar, its quote gives it its mode, and it is empty. -/
theorem Region.quote_of_openQuote {config : Config} {pos : Nat} {afterDollar : Bool} {q : Char}
    {region : Region} {before : Text} {quote : OpenQuote}
    (h : region.openQuote config pos afterDollar q = .quoted before quote) :
    quote = { mode := .opened config afterDollar q, start := quote.start } := by
  simp only [openQuote] at h
  split at h
  · cases h
    rfl
  · cases h
    rfl

/-- The quote `q` after a text opens a section of one of the kinds with a dollar. The word up to
the section is `before`, backwards. -/
structure OpensWithDollar (config : Config) (text : Text) (q : Char) (before : Text)
    (quote : OpenQuote) : Prop where
  outside : (State.after config text).region.outside
  opens : (State.after config (text ++ [q])).region = .quoted before quote
  mode : quote.mode = .ansiC ∨ quote.mode = .locale

/-- A section owns the dollar before its quote, which comes after `front`: the dollar was the end
of the word, the section has taken it and nothing else from the word, and it starts there, as does
the span of its error if it is never closed. -/
structure OwnsDollar (config : Config) (front text : Text) (q : Char) (before : Text)
    (quote : OpenQuote) : Prop where
  dollar : EndsWithDollar config front text
  appended : (State.after config text).region =
    .word ('$' :: (State.after config front).region.pending)
  removed : before = (State.after config front).region.pending
  start : quote.start = Text.byteLength front
  span : ∀ rest, quote.mode.body? config rest = none →
    split config (text ++ q :: rest) = .error (.unterminatedQuote quote.mode.closing
      ⟨Text.byteLength front, Text.byteLength (text ++ q :: rest)⟩)

namespace OpensWithDollar

variable {config : Config} {text : Text} {q : Char} {before : Text} {quote : OpenQuote}
  (h : OpensWithDollar config text q before quote)
include h

/-- The quote is read as a quote, and the machine remembers a dollar right before it. -/
theorem after_eq :
    State.after config (text ++ [q]) =
        { region := .quoted before quote, dollar := (State.after config text).dollar } ∧
      (State.after config text).region.openQuote config (Text.byteLength text) true q =
        .quoted before quote ∧
      isBefore (State.after config text).dollar (Text.byteLength text) = true := by
  obtain ⟨houtside, hopens, hmode⟩ := h
  have hstep := State.isStep_after config text q
  rw [State.after_concat] at hopens ⊢
  generalize State.step config (Text.byteLength text) q (State.after config text) = step
    at hstep hopens ⊢
  generalize State.after config text = state at houtside hstep ⊢
  -- The other steps leave the machine outside quotes.
  have hleaves : ¬step.state.region.outside := by
    rw [hopens]
    exact Bool.false_ne_true
  cases hstep with
  | operand => exact absurd (Region.outside_pushEscaped houtside _ _) hleaves
  | escape => exact absurd houtside hleaves
  | close | body => cases houtside
  | blank => exact absurd rfl hleaves
  | bare => exact absurd (Region.outside_push houtside q) hleaves
  | @quote region dollar _ _ _ =>
    cases hbefore : isBefore dollar (Text.byteLength text) with
    | true =>
      simp only [hbefore] at hopens
      exact ⟨by simp only [hopens], hopens, rfl⟩
    | false =>
      rw [hbefore] at hopens
      simp only [Region.openQuote, QuoteMode.opened_false, QuoteMode.takesDollar] at hopens
      cases hopens
      rcases hmode with hmode | hmode <;> cases hmode

theorem takesDollar : (QuoteMode.opened config true q).takesDollar = true := by
  have hquote : quote.mode = QuoteMode.opened config true q :=
    congrArg OpenQuote.mode (Region.quote_of_openQuote h.after_eq.2.1)
  rw [← hquote]
  rcases h.mode with hmode | hmode
  · rw [hmode]
    rfl
  · rw [hmode]
    rfl

/-- A dollar at the end of the word is taken from it, and the section starts there. -/
theorem eq_of_bare {front : Text} (hdollar : EndsWithDollar config front text)
    (hbare : config.isWhitespace '$' = false) :
    before = (State.after config front).region.pending ∧
      quote.start = Text.byteLength front := by
  have hopen := h.after_eq.2.1
  rw [hdollar.after_eq, hbare] at hopen
  simp only [Region.openQuote, Region.pending, h.takesDollar] at hopen
  cases hopen
  refine ⟨rfl, ?_⟩
  show Text.byteLength text - 1 = Text.byteLength front
  rw [hdollar.byteLength_eq, Nat.add_sub_cancel]

/-- A dollar that separates words has left nothing to take, and the section starts at its quote. -/
theorem eq_of_blank {front : Text} (hdollar : EndsWithDollar config front text)
    (hblank : config.isWhitespace '$' = true) :
    before = [] ∧ quote.start = Text.byteLength text := by
  have hopen := h.after_eq.2.1
  rw [hdollar.after_eq, hblank] at hopen
  simp only [Region.openQuote, Region.pending, h.takesDollar] at hopen
  cases hopen
  exact ⟨rfl, rfl⟩

/-- A section that is never closed is an error from its start to the end of the line. -/
theorem split_eq {rest : Text} (hbody : quote.mode.body? config rest = none) :
    split config (text ++ q :: rest) = .error (.unterminatedQuote quote.mode.closing
      ⟨quote.start, Text.byteLength (text ++ q :: rest)⟩) := by
  obtain ⟨hafter, hopen, -⟩ := h.after_eq
  have hquote : quote = { mode := quote.mode, start := quote.start } := by
    rw [Region.quote_of_openQuote hopen]
  have hline : text ++ q :: rest = (text ++ [q]) ++ rest := by simp
  have houtcome : (State.after config (text ++ [q])).outcome config
        (Text.byteLength (text ++ [q])) rest =
      { words := []
        error? := some (.unterminatedQuote quote.mode.closing
          ⟨quote.start, Text.byteLength (text ++ [q]) + Text.byteLength rest⟩) } := by
    rw [hafter, hquote]
    exact State.outcome_of_body_none hbody
  rw [hline, split, Run.result_eq_error_iff, run_append]
  simp only [Run.error?_prepend, Progress.pos_readAll_initial]
  rw [State.after] at houtcome
  rw [houtcome, Text.byteLength_append (text ++ [q])]

end OpensWithDollar

/-- Right before the quote of a section with a dollar there always stands one, outside quotes and
not escaped. The section owns it exactly if the dollar is not a separator: otherwise the dollar has
ended the word before it, so that the section takes nothing and starts at its quote. -/
theorem ownsDollar_iff {config : Config} {text : Text} {q : Char} {before : Text}
    {quote : OpenQuote} (h : OpensWithDollar config text q before quote) :
    ∃ front, EndsWithDollar config front text ∧
      (OwnsDollar config front text q before quote ↔ config.isWhitespace '$' = false) ∧
      (config.isWhitespace '$' = true → before = [] ∧ quote.start = Text.byteLength text) := by
  obtain ⟨front, hdollar⟩ := isBefore_iff.1 h.after_eq.2.2
  refine ⟨front, hdollar, ⟨fun howns => ?_, fun hbare => ?_⟩, h.eq_of_blank hdollar⟩
  · have happended := howns.appended
    rw [hdollar.after_eq] at happended
    cases hblank : config.isWhitespace '$' with
    | false => rfl
    | true =>
      rw [hblank] at happended
      cases happended
  · obtain ⟨hremoved, hstart⟩ := h.eq_of_bare hdollar hbare
    refine ⟨hdollar, by rw [hdollar.after_eq, hbare]; rfl, hremoved, hstart, fun rest hbody => ?_⟩
    rw [h.split_eq hbody, hstart]

/-- The line begins with `é\$$'`. Only the second of the two dollars belongs to the section. -/
theorem ownsDollar_iff_escaped :
    let text : Text := ['é', '\\', '$', '$']
    OpensWithDollar {} text '\'' ['$', 'é'] { mode := .ansiC, start := 4 } ∧
      OwnsDollar {} ['é', '\\', '$'] text '\'' ['$', 'é'] { mode := .ansiC, start := 4 } := by
  intro text
  have hopens : OpensWithDollar {} text '\'' ['$', 'é'] { mode := .ansiC, start := 4 } :=
    ⟨rfl, rfl, .inl rfl⟩
  obtain ⟨front, hdollar, howns, -⟩ := ownsDollar_iff hopens
  obtain rfl : ['é', '\\', '$'] = front := List.append_cancel_right hdollar.text_eq
  exact ⟨hopens, howns.2 rfl⟩

/-- The dollar of `$'a'` separates words and still makes the section an ANSI-C one, which does not
own it and is recorded at its quote. -/
theorem not_ownsDollar_separator :
    let config : Config := { whitespace := ['$'] }
    let quote : OpenQuote := { mode := .ansiC, start := 1 }
    OpensWithDollar config ['$'] '\'' [] quote ∧
      (¬∃ front, OwnsDollar config front ['$'] '\'' [] quote) ∧
      trace config ['$', '\'', 'a', '\''] =
        [.closedQuote ⟨.ansiC, 1, ['a']⟩, .splitWord 4 ['a']] := by
  intro config quote
  have hopens : OpensWithDollar config ['$'] '\'' [] quote := ⟨rfl, rfl, .inl rfl⟩
  refine ⟨hopens, ?_, ?_⟩
  · rintro ⟨front, howns⟩
    cases howns.appended
  · cbv

end ShellWords
