import ShellWords.Proofs.Dollar

/-! Double-quoted and locale sections. The machine takes the contents of a section in portions, a
character alone or an escape character with its operand, and keeps them as one text, which is
decoded when the section is closed. What comes of it is what the portions stand for, one after
another: `sections_doubleQuoted`. -/

namespace ShellWords

/-! ### The portions of a section -/

/-- What the machine takes at once inside a section. -/
inductive Portion where
  | char (c : Char)
  | pair (escape operand : Char)
deriving DecidableEq, Repr

namespace Portion

def text : Portion → Text
  | char c => [c]
  | pair escape c => [escape, c]

/-- What is kept of a portion until its section is closed. -/
def kept : Portion → Text
  | char c => [c]
  | pair escape c => if c = '\n' then [] else [escape, c]

/-- What a portion stands for between two double quotes, or in another section that `closing`
closes by the same rule. -/
def meaning (config : Config) (closing : Char) : Portion → Text
  | char c => [c]
  | pair escape c =>
    if c = '\n' then []
    else if c == closing || config.isEscape c then [c]
    else [escape, c]

/-- Only escape characters make pairs, and they always do where they escape. The closing quote
stands in a section only as an operand. -/
def Fits (config : Config) (mode : QuoteMode) : Portion → Prop
  | char c => ¬(config.isEscape c && mode.honorsEscapes config) = true ∧ c ≠ mode.closing
  | pair escape _ => (config.isEscape escape && mode.honorsEscapes config) = true

end Portion

/-- A quoted section that has been closed. -/
structure QuotedSection where
  closed : ClosedQuote
  portions : List Portion
  /-- The text of the word up to the section, without a dollar that belongs to the section. -/
  before : Text
  /-- The text of the word with the section. -/
  after : Text
deriving DecidableEq, Repr

namespace State

/-- The portions of the open section after a character that takes the machine to `next`. An escape
character alone completes no portion. -/
def portionsAfter (portions : List Portion) (state next : State) (c : Char) : List Portion :=
  match state.region, state.escape with
  | .quoted _ _, some (_, escape) => portions ++ [.pair escape c]
  | .quoted _ _, none => if next.escape.isSome then portions else portions ++ [.char c]
  | _, _ => []

/-- The sections that are closed in a text, which the machine begins to read in the given state and
at the given offset. The portions are those that it has taken if a section is open. -/
def sections (config : Config) (portions : List Portion) (state : State) (pos : Nat) :
    Text → List QuotedSection
  | [] => []
  | c :: rest =>
    let step := state.step config pos c
    match step.completed with
    | some (.quote closed) =>
      { closed
        portions
        before := state.region.pending.reverse
        after := step.state.region.pending.reverse } ::
          step.state.sections config [] (pos + c.utf8Size) rest
    | _ =>
      step.state.sections config (portionsAfter portions state step.state c) (pos + c.utf8Size) rest

end State

/-- The closed sections of a line. -/
def sections (config : Config) (line : Text) : List QuotedSection :=
  State.sections config [] {} 0 line

/-! ### Decoding what is kept -/

/-- A section that is decoded like one between double quotes. -/
def QuoteMode.DoubleQuoted (config : Config) (mode : QuoteMode) : Prop :=
  mode = .locale ∨ ∃ q, mode = .plain q ∧ q ∈ config.escapedQuotes

namespace QuoteMode.DoubleQuoted

variable {config : Config} {mode : QuoteMode} (h : mode.DoubleQuoted config)
include h

theorem honorsEscapes : mode.honorsEscapes config = true := by
  rcases h with rfl | ⟨q, rfl, hq⟩
  · rfl
  · exact List.contains_iff_mem.2 hq

theorem decode_eq (raw : Text) :
    mode.decode config raw = Escape.unescape config mode.closing raw := by
  rcases h with rfl | ⟨q, rfl, hq⟩
  · rfl
  · exact if_pos (List.contains_iff_mem.2 hq)

end QuoteMode.DoubleQuoted

/-- Taken apart for the second time, the kept text falls into the pairs that it was made of. -/
theorem unescape_flatMap_kept {config : Config} {mode : QuoteMode}
    (hmode : mode.honorsEscapes config = true) {portions : List Portion}
    (h : ∀ portion ∈ portions, portion.Fits config mode) (q : Char) :
    Escape.unescape config q (portions.flatMap Portion.kept) =
      portions.flatMap (Portion.meaning config q) := by
  induction portions with
  | nil => rfl
  | cons portion portions ih =>
    obtain ⟨hfits, hrest⟩ := List.forall_mem_cons.1 h
    rw [List.flatMap_cons, List.flatMap_cons, ← ih hrest]
    cases portion with
    | char c =>
      have hescape : config.isEscape c = false := by simpa [hmode] using hfits.1
      exact Escape.unescape_of_not_escape hescape _
    | pair escape c =>
      have hescape : config.isEscape escape = true := by simpa [Portion.Fits, hmode] using hfits
      by_cases hline : c = '\n'
      · simp only [Portion.kept, Portion.meaning, if_pos hline, List.nil_append]
      · simp only [Portion.kept, Portion.meaning, if_neg hline]
        cases hc : c == q || config.isEscape c with
        | true => exact Escape.unescape_pair hescape hc _
        | false => exact Escape.unescape_kept_pair hc _

/-! ### What the machine has taken of an open section -/

/-- The portions that the machine has taken of the section that is open after some text, and the
escape character whose operand comes next, if there is one: they are all that stands after the
opening of the section. -/
structure Taken (config : Config) (text : Text) (portions : List Portion) (quote : OpenQuote)
    (escape : Option (Nat × Char)) : Prop where
  body : quote.body.reverse = portions.flatMap Portion.kept
  fits : ∀ portion ∈ portions, portion.Fits config quote.mode
  escaping : ∀ e ∈ escape, (config.isEscape e.2 && quote.mode.honorsEscapes config) = true
  text_eq : ∃ front opening,
    text = front ++ opening ++ portions.flatMap Portion.text ++ escape.toList.map Prod.snd ∧
      quote.start = Text.byteLength front ∧
      (opening = [quote.mode.closing] ∨ opening = ['$', quote.mode.closing])

theorem Region.pushEscaped_quoted (escape c : Char) (before : Text) (quote : OpenQuote) :
    (quoted before quote).pushEscaped escape c =
      quoted before
        { quote with body := (Portion.kept (.pair escape c)).reverse ++ quote.body } := by
  by_cases hline : c = '\n'
  · simp only [pushEscaped, Portion.kept, if_pos hline, List.reverse_nil, List.nil_append]
  · simp only [pushEscaped, Portion.kept, if_neg hline]
    rfl

namespace Taken

variable {config : Config} {text : Text} {portions : List Portion} {quote : OpenQuote}

theorem operand {start : Nat} {escape : Char}
    (h : Taken config text portions quote (some (start, escape))) (c : Char) :
    Taken config (text ++ [c]) (portions ++ [.pair escape c])
      { quote with body := (Portion.kept (.pair escape c)).reverse ++ quote.body } none where
  body := by simp [h.body]
  fits := by
    rw [List.forall_mem_append, List.forall_mem_singleton]
    exact ⟨h.fits, h.escaping _ rfl⟩
  escaping := nofun
  text_eq := by
    obtain ⟨front, opening, rfl, hstart, hopening⟩ := h.text_eq
    exact ⟨front, opening, by simp [Portion.text], hstart, hopening⟩

theorem pending (h : Taken config text portions quote none) {c : Char} (pos : Nat)
    (hescape : (config.isEscape c && quote.mode.honorsEscapes config) = true) :
    Taken config (text ++ [c]) portions quote (some (pos, c)) where
  body := h.body
  fits := h.fits
  escaping := by
    rintro _ ⟨⟩
    exact hescape
  text_eq := by
    obtain ⟨front, opening, rfl, hstart, hopening⟩ := h.text_eq
    exact ⟨front, opening, by simp, hstart, hopening⟩

theorem char (h : Taken config text portions quote none) {c : Char}
    (hescape : ¬(config.isEscape c && quote.mode.honorsEscapes config) = true)
    (hclosing : c ≠ quote.mode.closing) :
    Taken config (text ++ [c]) (portions ++ [.char c]) { quote with body := c :: quote.body }
      none where
  body := by simp [h.body, Portion.kept]
  fits := by
    rw [List.forall_mem_append, List.forall_mem_singleton]
    exact ⟨h.fits, hescape, hclosing⟩
  escaping := nofun
  text_eq := by
    obtain ⟨front, opening, rfl, hstart, hopening⟩ := h.text_eq
    exact ⟨front, opening, by simp [Portion.text], hstart, hopening⟩

/-- A section that has just been opened begins with its quote, or with the dollar before it. -/
theorem opening {c : Char} {before : Text} {region : Region}
    (hopen : region.openQuote config (Text.byteLength text)
      (isBefore (State.after config text).dollar (Text.byteLength text)) c =
        .quoted before quote) :
    Taken config (text ++ [c]) [] quote none := by
  have hquote := Region.quote_of_openQuote hopen
  have hclosing : quote.mode.closing = c := by
    rw [hquote]
    exact QuoteMode.closing_opened c
  have hbody : quote.body = [] := congrArg OpenQuote.body hquote
  refine ⟨by rw [hbody]; rfl, nofun, nofun, ?_⟩
  rw [hclosing]
  obtain ⟨mode, hplain | ⟨hbefore, word, hpending, hdollar⟩⟩ :=
    region.openQuote_eq config (Text.byteLength text)
      (isBefore (State.after config text).dollar (Text.byteLength text)) c
  · rw [hplain] at hopen
    cases hopen
    exact ⟨text, [c], by simp, rfl, .inl rfl⟩
  · obtain ⟨front, hends⟩ := isBefore_iff.1 hbefore
    rw [hdollar] at hopen
    cases hopen
    refine ⟨front, ['$', c], by simp [hends.text_eq], ?_, .inr rfl⟩
    show Text.byteLength text - 1 = Text.byteLength front
    rw [hends.byteLength_eq, Nat.add_sub_cancel]

end Taken

/-- What the portions are known to be if a section is open in a state. -/
def State.HasTaken (config : Config) (text : Text) (portions : List Portion) (state : State) :
    Prop :=
  ∀ before quote, state.region = .quoted before quote →
    Taken config text portions quote state.escape

theorem State.hasTaken_of_outside {config : Config} {text : Text} {portions : List Portion}
    {state : State} (h : state.region.outside) : state.HasTaken config text portions := by
  intro before quote hregion
  rw [hregion] at h
  cases h

/-- A step takes the next portion of the section that is open, or opens one. -/
theorem State.hasTaken_concat {config : Config} {text : Text} {portions : List Portion} (c : Char)
    (h : (after config text).HasTaken config text portions) :
    (after config (text ++ [c])).HasTaken config (text ++ [c])
      (portionsAfter portions (after config text) (after config (text ++ [c])) c) := by
  have hstep := isStep_after config text c
  have hopening : ∀ (region : Region) before quote, region.openQuote config (Text.byteLength text)
      (isBefore (after config text).dollar (Text.byteLength text)) c = .quoted before quote →
        Taken config (text ++ [c]) [] quote none :=
    fun _ _ _ => Taken.opening
  rw [after_concat]
  generalize step config (Text.byteLength text) c (after config text) = step at hstep ⊢
  generalize after config text = state at h hstep hopening ⊢
  cases hstep with
  | @operand region start escape dollar =>
    by_cases houtside : region.outside
    · exact hasTaken_of_outside (Region.outside_pushEscaped houtside escape c)
    cases region with
    | gap | word => exact absurd rfl houtside
    | quoted before quote =>
      rw [Region.pushEscaped_quoted]
      rintro _ _ ⟨⟩
      exact (h before quote rfl).operand c
  | @escape region dollar hescape =>
    cases region with
    | gap | word => exact hasTaken_of_outside rfl
    | quoted before quote =>
      rintro _ _ ⟨⟩
      exact (h before quote rfl).pending _ hescape
  | close => exact hasTaken_of_outside rfl
  | @body before quote dollar hescape hclosing =>
    rintro _ _ ⟨⟩
    exact (h before quote rfl).char hescape hclosing
  | @quote region dollar houtside =>
    cases region with
    | gap | word => exact fun before quote hregion => hopening _ before quote hregion
    | quoted => cases houtside
  | blank => exact hasTaken_of_outside rfl
  | bare houtside => exact hasTaken_of_outside (Region.outside_push houtside c)

/-! ### The sections of a line -/

/-- A section is closed by its closing quote alone, and its text goes to the word. -/
theorem IsStep.eq_of_quote {config : Config} {pos : Nat} {c : Char} {state : State} {step : Step}
    {closed : ClosedQuote} (h : IsStep config pos c state step)
    (hcompleted : step.completed = some (.quote closed)) :
    ∃ before quote, state.region = .quoted before quote ∧ state.escape = none ∧
      c = quote.mode.closing ∧ closed = quote.close config ∧
      step.state.region = .word (closed.decoded.reverse ++ before) := by
  cases h with
  | operand | escape | body | quote | bare => cases hcompleted
  | @blank region => cases hword : region.word? <;> simp [hword] at hcompleted
  | @close before quote dollar hescape hclosing =>
    cases hcompleted
    exact ⟨before, quote, rfl, rfl, hclosing, rfl, rfl⟩

namespace State

variable {config : Config} {portions : List Portion} {state : State} {pos : Nat} {c : Char}
  {rest : Text}

theorem sections_of_quote {closed : ClosedQuote}
    (h : (state.step config pos c).completed = some (.quote closed)) :
    state.sections config portions pos (c :: rest) =
      { closed
        portions
        before := state.region.pending.reverse
        after := (state.step config pos c).state.region.pending.reverse } ::
          (state.step config pos c).state.sections config [] (pos + c.utf8Size) rest := by
  rw [sections, h]

theorem sections_of_ne
    (h : ∀ closed, (state.step config pos c).completed ≠ some (.quote closed)) :
    state.sections config portions pos (c :: rest) =
      (state.step config pos c).state.sections config
        (portionsAfter portions state (state.step config pos c).state c) (pos + c.utf8Size)
        rest := by
  rw [sections]
  split
  · rename_i closed hclosed
    exact absurd hclosed (h closed)
  · rfl

/-- Where a section is closed, all its portions have been taken, and the word gets what they are
decoded to. -/
theorem taken_of_mem_sections {text : Text} {s : QuotedSection}
    (h : (after config text).HasTaken config text portions)
    (hs : s ∈ (after config text).sections config portions (Text.byteLength text) rest) :
    ∃ text' rest' quote, text ++ rest = text' ++ quote.mode.closing :: rest' ∧
      Taken config text' s.portions quote none ∧ s.closed = quote.close config ∧
      s.after = s.before ++ s.closed.decoded := by
  induction rest generalizing text portions with
  | nil => cases hs
  | cons c rest ih =>
    have hnext := hasTaken_concat c h
    have hstep := isStep_after config text c
    have hpos : Text.byteLength text + c.utf8Size = Text.byteLength (text ++ [c]) := by simp
    have hline : text ++ c :: rest = (text ++ [c]) ++ rest := by simp
    by_cases hcompleted : ∃ closed,
        ((after config text).step config (Text.byteLength text) c).completed = some (.quote closed)
    · obtain ⟨closed, hclosed⟩ := hcompleted
      obtain ⟨before, quote, hregion, hescape, rfl, rfl, hword⟩ := hstep.eq_of_quote hclosed
      rw [sections_of_quote hclosed, List.mem_cons, ← after_concat, hpos] at hs
      rcases hs with rfl | hs
      · have htaken := h before quote hregion
        rw [hescape] at htaken
        refine ⟨text, rest, quote, rfl, htaken, rfl, ?_⟩
        rw [after_concat, hword, hregion]
        simp [Region.pending]
      · rw [hline]
        refine ih (hasTaken_of_outside ?_) hs
        rw [after_concat, hword]
        rfl
    · rw [not_exists] at hcompleted
      rw [sections_of_ne hcompleted, ← after_concat, hpos] at hs
      rw [hline]
      exact ih hnext hs

end State

/-- Every closed double-quoted or locale section of a line is made of the portions in which the
machine has taken it, and adds to its word what they stand for, one after another. -/
theorem sections_doubleQuoted {config : Config} {line : Text} {s : QuotedSection}
    (hs : s ∈ sections config line) (hmode : s.closed.mode.DoubleQuoted config) :
    (∃ front opening rest,
      line = front ++ opening ++ s.portions.flatMap Portion.text ++
          s.closed.mode.closing :: rest ∧
        s.closed.start = Text.byteLength front ∧
        (opening = [s.closed.mode.closing] ∨ opening = ['$', s.closed.mode.closing])) ∧
      (∀ portion ∈ s.portions, portion.Fits config s.closed.mode) ∧
      s.after = s.before ++ s.portions.flatMap (Portion.meaning config s.closed.mode.closing) := by
  have hinitial : (State.after config []).HasTaken config [] [] := State.hasTaken_of_outside rfl
  obtain ⟨text, rest, quote, hline, htaken, hclosed, hafter⟩ :=
    State.taken_of_mem_sections hinitial hs
  have hquote : s.closed.mode = quote.mode := by
    rw [hclosed]
    rfl
  rw [hquote] at hmode ⊢
  refine ⟨?_, htaken.fits, ?_⟩
  · obtain ⟨front, opening, rfl, hstart, hopening⟩ := htaken.text_eq
    refine ⟨front, opening, rest, by simpa using hline, ?_, hopening⟩
    rw [hclosed]
    exact hstart
  · have hdecoded : s.closed.decoded = quote.mode.decode config quote.body.reverse := by
      rw [hclosed]
      rfl
    rw [hafter, hdecoded, htaken.body, hmode.decode_eq,
      unescape_flatMap_kept hmode.honorsEscapes htaken.fits]

/-- The backslash, the caret and the line end escape, and the line begins with `w|\^^|\x`. Pairs of
all kinds stand between the two bars, the last two of them of line ends. -/
theorem sections_doubleQuoted_lines :
    let config : Config := { quotes := ['|'], escapes := ['\\', '^', '\n'], escapedQuotes := ['|'] }
    let line : Text :=
      ['w', '|', '\\', '^', '^', '|', '\\', 'x', '\\', '\n', '\n', 'y', '|', 'z']
    let s : QuotedSection :=
      { closed := ⟨.plain '|', 1, ['^', '|', '\\', 'x', '\n', 'y']⟩
        portions :=
          [.pair '\\' '^', .pair '^' '|', .pair '\\' 'x', .pair '\\' '\n', .pair '\n' 'y']
        before := ['w']
        after := ['w', '^', '|', '\\', 'x', '\n', 'y'] }
    s ∈ sections config line ∧ s.closed.mode.DoubleQuoted config ∧
      s.after = s.before ++ s.portions.flatMap (Portion.meaning config '|') := by
  intro config line s
  have hs : s ∈ sections config line := by
    have hsections : sections config line = [s] := by cbv
    rw [hsections]
    exact List.mem_singleton_self s
  have hmode : s.closed.mode.DoubleQuoted config := .inr ⟨'|', rfl, List.mem_singleton_self '|'⟩
  exact ⟨hs, hmode, (sections_doubleQuoted hs hmode).2.2⟩

end ShellWords
