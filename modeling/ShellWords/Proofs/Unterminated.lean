import ShellWords.Proofs.Layout.Append
import ShellWords.Proofs.Layout.Run

/-! The errors of a line tell the truth and can be repaired. The span of an error begins with what
was opened and not closed, the line up to there splits, and the line splits as a whole once what
the error asks for is added to it: `split_error`. -/

namespace ShellWords

/-- A line without error. -/
def Splits (config : Config) (line : Text) : Prop :=
  ∃ words, split config line = .ok words

/-- Whether a line ends with an escape character that waits for its operand. -/
def endsEscaping (config : Config) (line : Text) : Bool :=
  (Progress.readAll config {} line).state.escape.isSome

namespace SplitError

/-- The text that an error covers is of the kind that the error says. -/
def Names (config : Config) (covered : Text) : SplitError → Prop
  | unterminatedQuote q _ => [q] <+: covered ∨ (q = '\'' ∨ q = '"') ∧ ['$', q] <+: covered
  | unterminatedEscape c _ => covered = [c] ∧ c ∈ config.escapes

/-- The line splits once the missing quote, or any operand, is added to it. A quote right after an
escape character is only its operand, and it takes a second one to close the section. -/
def Repairs (config : Config) (line : Text) : SplitError → Prop
  | unterminatedQuote q _ =>
    if endsEscaping config line then Splits config (line ++ [q, q]) else Splits config (line ++ [q])
  | unterminatedEscape _ _ => ∀ c, Splits config (line ++ [c])

theorem Names.ne_nil {config : Config} {covered : Text} {error : SplitError}
    (h : error.Names config covered) : covered ≠ [] := by
  cases error with
  | unterminatedQuote q span =>
    rintro rfl
    rcases h with h | ⟨-, h⟩ <;> exact List.cons_ne_nil _ _ (List.prefix_nil.1 h)
  | unterminatedEscape c span =>
    rintro rfl
    exact List.cons_ne_nil _ _ h.1.symm

end SplitError

theorem Text.byteLength_pos {text : Text} (h : text ≠ []) : 0 < byteLength text := by
  cases text with
  | nil => exact absurd rfl h
  | cons c text =>
    have := c.utf8Size_pos
    simp
    omega

/-! ### Going on after the end of a line -/

def Region.outside : Region → Bool
  | quoted _ _ => false
  | _ => true

theorem Region.outside_pushEscaped {region : Region} (h : region.outside) (escape c : Char) :
    (region.pushEscaped escape c).outside := by
  unfold pushEscaped
  split
  · exact h
  · cases region with
    | quoted before quote => cases h
    | gap | word => rfl

namespace State

variable {config : Config} {state : State} {size pos : Nat}

theorem finish_quote {q : Char} {span : Span}
    (h : state.finish size = .error (.unterminatedQuote q span)) :
    ∃ before quote, state.region = .quoted before quote ∧ quote.mode.closing = q := by
  rcases state with ⟨_ | text | ⟨before, quote⟩, _ | ⟨start, escape⟩, dollar⟩
  case quoted.none | quoted.some =>
    simp only [finish, Except.error.injEq, SplitError.unterminatedQuote.injEq] at h
    exact ⟨before, quote, rfl, h.1⟩
  all_goals simp [finish] at h

theorem finish_escape {c : Char} {span : Span}
    (h : state.finish size = .error (.unterminatedEscape c span)) :
    state.region.outside ∧ state.escape.isSome := by
  rcases state with ⟨_ | text | ⟨before, quote⟩, _ | ⟨start, escape⟩, dollar⟩ <;>
    simp_all [finish, Region.outside]

/-- Outside quotes a line can end, unless an escape character waits for its operand. -/
theorem error?_outcome_nil (hescape : state.escape = none) (hregion : state.region.outside) :
    (state.outcome config pos []).error? = none := by
  rcases state with ⟨_ | text | ⟨before, quote⟩, escape, dollar⟩
  · simp_all [outcome, finish]
  · simp_all [outcome, finish]
  · cases hregion

theorem error?_outcome_cons {c : Char} {rest : Text} :
    (state.outcome config pos (c :: rest)).error? =
      ((state.step config pos c).state.outcome config (pos + c.utf8Size) rest).error? := rfl

theorem step_operand (config : Config) (pos : Nat) (c : Char) (hescape : state.escape.isSome) :
    ∃ escape, state.step config pos c =
      { state := { state with region := state.region.pushEscaped escape c, escape := none } } := by
  obtain ⟨⟨_, escape⟩, hsome⟩ := Option.isSome_iff_exists.1 hescape
  exact ⟨escape, by simp [step, hsome]⟩

theorem error?_outcome_closing {before : Text} {quote : OpenQuote}
    (hregion : state.region = .quoted before quote) (hescape : state.escape = none)
    (hclosing : config.isEscape quote.mode.closing = false) :
    (state.outcome config pos [quote.mode.closing]).error? = none := by
  have hstep : state.step config pos quote.mode.closing =
      state.stepQuoted config quote.mode.closing before quote := by
    simp [step, hescape, hclosing, hregion]
  rw [error?_outcome_cons, hstep]
  apply error?_outcome_nil
  · simpa [stepQuoted] using hescape
  · simp [stepQuoted, Region.outside]

/-- After an escape character in a section the quote has to come twice. -/
theorem error?_outcome_operand_closing {before : Text} {quote : OpenQuote} {c : Char}
    (hregion : state.region = .quoted before quote) (hescape : state.escape.isSome)
    (hclosing : config.isEscape quote.mode.closing = false) :
    (state.outcome config pos [c, quote.mode.closing]).error? = none := by
  obtain ⟨escape, hstep⟩ := step_operand config pos c hescape
  obtain ⟨quote', hregion', hmode⟩ : ∃ quote',
      state.region.pushEscaped escape c = .quoted before quote' ∧ quote'.mode = quote.mode := by
    rw [hregion]
    unfold Region.pushEscaped
    split
    · exact ⟨quote, rfl, rfl⟩
    · exact ⟨_, rfl, rfl⟩
  rw [error?_outcome_cons, hstep, ← hmode]
  exact error?_outcome_closing hregion' rfl (hmode ▸ hclosing)

theorem error?_outcome_operand {c : Char} (hescape : state.escape.isSome)
    (hregion : state.region.outside) : (state.outcome config pos [c]).error? = none := by
  obtain ⟨escape, hstep⟩ := step_operand config pos c hescape
  rw [error?_outcome_cons, hstep]
  exact error?_outcome_nil rfl (Region.outside_pushEscaped hregion escape c)

end State

theorem splits_append {config : Config} {a b : Text}
    (h : ((Progress.readAll config {} a).state.outcome config (Progress.readAll config {} a).pos
      b).error? = none) : Splits config (a ++ b) := by
  unfold Splits split Run.result
  rw [run_append]
  simp only [Run.error?_prepend, h]
  exact ⟨_, rfl⟩

theorem finish_of_split_error {config : Config} {line : Text} {error : SplitError}
    (h : split config line = .error error) :
    (Progress.readAll config {} line).state.finish (Progress.readAll config {} line).pos =
      .error error := by
  have herror := Run.result_eq_error_iff.1 h
  unfold run Progress.finish at herror
  split at herror
  · cases herror
  · rename_i hfinish
    cases herror
    exact hfinish

/-! ### What the layout says about an error -/

section Layout

variable {config : Config} {afterDollar : Bool} {text : Text}

/-- The ending of a layout is what some later part of the text begins with. -/
theorem isFront_ending (config : Config) (afterDollar : Bool) (text : Text) :
    ∃ flag rest, IsFront config flag rest (.stop (layout config afterDollar text).ending) := by
  induction afterDollar, text using layout_induction config with
  | stop afterDollar text ending h =>
    rw [h.layout_stop]
    exact ⟨afterDollar, text, h⟩
  | next afterDollar text piece flag rest h ih =>
    rw [h.layout_next]
    exact ih

theorem QuoteMode.closing_opened (q : Char) : (opened config afterDollar q).closing = q := by
  unfold opened
  split
  · rename_i h
    exact h.1.symm
  · split
    · rename_i h
      exact h.1.symm
    · rfl

theorem QuoteMode.eq_of_takesDollar {q : Char} (h : (opened config afterDollar q).takesDollar) :
    q = '\'' ∨ q = '"' := by
  unfold opened at h
  split at h
  · rename_i hq
    exact .inl hq.1
  · split at h
    · rename_i hq
      exact .inr hq.1
    · cases h

/-- An opening ends with the quote that closes its section, which escapes nothing. -/
theorem IsOpening.names {c : Char} {rest opening inside : Text} {mode : QuoteMode}
    (h : IsOpening config afterDollar c rest (opening, mode, inside))
    (hescape : config.isEscape c = false) :
    config.isEscape mode.closing = false ∧
      (opening = [mode.closing] ∨
        (mode.closing = '\'' ∨ mode.closing = '"') ∧ opening = ['$', mode.closing]) := by
  cases h with
  | quote hquote =>
    rw [QuoteMode.closing_opened]
    exact ⟨hescape, .inl rfl⟩
  | dollar hplain hblank hquote hq htakes =>
    rw [QuoteMode.closing_opened]
    exact ⟨hq, .inr ⟨QuoteMode.eq_of_takesDollar htakes, rfl⟩⟩

theorem Layout.error?_run {layout : Layout} {size : Nat} {gathered : Gathered} :
    (layout.run config size gathered).error? = layout.ending.error? size := by
  unfold run
  split <;> simp_all

theorem Layout.words_run {layout : Layout} {size : Nat} {gathered : Gathered}
    (h : layout.ending.error? size ≠ none) :
    (layout.run config size gathered).words = (gathered.addAll config layout.pieces).words := by
  unfold run
  split <;> simp_all

end Layout

theorem Ending.span_of_error? {ending : Ending} {size : Nat} {error : SplitError}
    (h : ending.error? size = some error) :
    error.span = ⟨size - Text.byteLength ending.text, size⟩ := by
  cases ending with
  | complete => cases h
  | escape c =>
    cases h
    rfl
  | quote opening mode inside =>
    cases h
    rfl

/-- The error of a line covers what comes after the pieces, up to the end. -/
theorem span_of_split_error {config : Config} {line : Text} {error : SplitError}
    (h : split config line = .error error) :
    error.span =
      ⟨Text.byteLength (Piece.texts (layout config false line).pieces), Text.byteLength line⟩ := by
  have herror := Run.result_eq_error_iff.1 h
  rw [run_eq_runByPieces, runByPieces, Layout.error?_run] at herror
  have hsize := congrArg Text.byteLength (texts_layout config false line)
  rw [Text.byteLength_append] at hsize
  rw [Ending.span_of_error? herror, ← hsize, Nat.add_sub_cancel]

theorem Span.slice_append (before covered after : Text) :
    Span.slice ⟨Text.byteLength before, Text.byteLength before + Text.byteLength covered⟩
      (before ++ (covered ++ after)) = covered := by
  have hstart : Text.seek? (Text.byteLength before) (before ++ (covered ++ after)) =
      some ⟨before.reverse, covered ++ after⟩ := Text.seek?_append before (covered ++ after)
  have hstop : Text.seek? (Text.byteLength covered) (covered ++ after) =
      some ⟨covered.reverse, after⟩ := Text.seek?_append covered after
  have hguard : (guard (Text.byteLength before ≤
      Text.byteLength before + Text.byteLength covered) : Option Unit) = some () :=
    if_pos (Nat.le_add_right _ _)
  unfold slice
  rw [hguard, hstart]
  show Option.getD (do
    let inner ← Text.seek? (Text.byteLength before + Text.byteLength covered -
      Text.byteLength before) (covered ++ after)
    return inner.before.reverse) [] = covered
  rw [Nat.add_sub_cancel_left, hstop]
  exact List.reverse_reverse covered

/-- The ending of a layout is what its error names, and an escape character is never the quote that
is missing. -/
theorem IsFront.names {config : Config} {afterDollar : Bool} {text : Text} {ending : Ending}
    {size : Nat} {error : SplitError} (h : IsFront config afterDollar text (.stop ending))
    (herror : ending.error? size = some error) :
    error.Names config ending.text ∧ (∀ q span, error = .unterminatedQuote q span →
      config.isEscape q = false) := by
  cases h with
  | complete => cases herror
  | escape hescape =>
    cases herror
    exact ⟨⟨rfl, by simpa [Config.isEscape] using hescape⟩, nofun⟩
  | quote hescape hopening hbody =>
    cases herror
    obtain ⟨hclosing, hnames⟩ := (isOpening hopening).names hescape
    constructor
    · rcases hnames with rfl | ⟨hquote, rfl⟩
      · exact .inl (List.prefix_append _ _)
      · exact .inr ⟨hquote, List.prefix_append _ _⟩
    · rintro q span ⟨⟩
      exact hclosing

/-- An error covers the rest of its line, from the end of `before` on. -/
structure SplitError.Covers (error : SplitError) (before covered : Text) : Prop where
  span_eq : error.span = ⟨Text.byteLength before, Text.byteLength (before ++ covered)⟩
  ne_nil : covered ≠ []

namespace SplitError.Covers

variable {error : SplitError} {before covered : Text} (h : error.Covers before covered)
include h

theorem min_start : min error.span.start (Text.byteLength (before ++ covered)) =
    Text.byteLength before := by
  rw [h.span_eq, Text.byteLength_append]
  exact Nat.min_eq_left (Nat.le_add_right _ _)

theorem slice_eq : error.span.slice (before ++ covered) = covered := by
  have hslice := Span.slice_append before covered []
  rwa [List.append_nil, ← Text.byteLength_append, ← h.span_eq] at hslice

end SplitError.Covers

theorem covers_of_split_error {config : Config} {line : Text} {error : SplitError}
    (h : split config line = .error error) :
    ∃ before covered, line = before ++ covered ∧ error.Covers before covered := by
  have herror := Run.result_eq_error_iff.1 h
  rw [run_eq_runByPieces, runByPieces, Layout.error?_run] at herror
  obtain ⟨flag, rest, hfront⟩ := isFront_ending config false line
  have hline := texts_layout config false line
  exact ⟨_, _, hline.symm, by rw [hline, span_of_split_error h], (hfront.names herror).1.ne_nil⟩

theorem repairs_of_split_error {config : Config} {line : Text} {error : SplitError}
    (h : split config line = .error error)
    (hclosing : ∀ q span, error = .unterminatedQuote q span → config.isEscape q = false) :
    error.Repairs config line := by
  have hfinish := finish_of_split_error h
  cases error with
  | unterminatedQuote q span =>
    obtain ⟨before, quote, hregion, rfl⟩ := State.finish_quote hfinish
    have hclosing := hclosing _ span rfl
    by_cases hescape : endsEscaping config line
    · simp only [SplitError.Repairs, hescape, if_true]
      exact splits_append (State.error?_outcome_operand_closing hregion hescape hclosing)
    · simp only [SplitError.Repairs, hescape]
      have hnone : (Progress.readAll config {} line).state.escape = none := by
        simpa [endsEscaping] using hescape
      exact splits_append (State.error?_outcome_closing hregion hnone hclosing)
  | unterminatedEscape c span =>
    obtain ⟨hregion, hescape⟩ := State.finish_escape hfinish
    intro d
    exact splits_append (State.error?_outcome_operand hescape hregion)

/-- What an error of a line means: `before` is the line up to the span of the error and `covered`
the rest of it, `words` are the words that come before the error, and `last` is the unfinished word
that the error cuts off, if one has started. -/
structure SplitError.Explains (config : Config) (line : Text) (error : SplitError)
    (before covered : Text) (words : List Text) (last : Option Text) : Prop where
  line_eq : line = before ++ covered
  span_eq : error.span = ⟨Text.byteLength before, Text.byteLength line⟩
  start_lt_stop : error.span.start < error.span.stop
  slice_eq : error.span.slice line = covered
  split_before : split config before = .ok (words ++ last.toList)
  gives : (Lexer.ofText config line).Gives (words.map .ok ++ [.error error])
  names : error.Names config covered
  repairs : error.Repairs config line

/-- Whenever a line does not split, its error is true and says how the line can be repaired. -/
theorem split_error {config : Config} {line : Text} {error : SplitError}
    (h : split config line = .error error) :
    ∃ before covered words last, error.Explains config line before covered words last := by
  let found := layout config false line
  let gathered := ({} : Gathered).addAll config found.pieces
  have hline : Piece.texts found.pieces ++ found.ending.text = line := texts_layout config false line
  have herror : found.ending.error? (Text.byteLength line) = some error := by
    have hrun := Run.result_eq_error_iff.1 h
    rwa [run_eq_runByPieces, runByPieces, Layout.error?_run] at hrun
  obtain ⟨flag, rest, hfront⟩ := isFront_ending config false line
  obtain ⟨hnames, hclosing⟩ := hfront.names herror
  have hspan : error.span = ⟨Text.byteLength (Piece.texts found.pieces), Text.byteLength line⟩ := by
    rw [Ending.span_of_error? herror, ← hline, Text.byteLength_append, Nat.add_sub_cancel]
  have hsize : Text.byteLength line =
      Text.byteLength (Piece.texts found.pieces) + Text.byteLength found.ending.text := by
    rw [← Text.byteLength_append, hline]
  refine ⟨Piece.texts found.pieces, found.ending.text, gathered.words, gathered.started,
    hline.symm, hspan, ?_, ?_, ?_, ?_, hnames, repairs_of_split_error h hclosing⟩
  · rw [hspan, hsize]
    exact Nat.lt_add_of_pos_right (Text.byteLength_pos hnames.ne_nil)
  · have hslice := Span.slice_append (Piece.texts found.pieces) found.ending.text []
    rw [List.append_nil, hline, ← hsize] at hslice
    rw [hspan, hslice]
  · rw [split, run_eq_runByPieces, runByPieces, layout_texts]
    rfl
  · have hgives := Lexer.gives_run config line
    have hwords : (run config line).words = gathered.words := by
      rw [run_eq_runByPieces]
      exact Layout.words_run (by simp [found, herror])
    rwa [Run.items, hwords, Run.result_eq_error_iff.1 h] at hgives

/-- The line ends with an escape character in an ANSI-C section, so its quote has to come twice. -/
theorem split_error_ansiC :
    split {} ['é', ' ', '$', '\'', '\\'] = .error (.unterminatedQuote '\'' ⟨3, 6⟩) ∧
      ∃ before covered words last, (SplitError.unterminatedQuote '\'' ⟨3, 6⟩).Explains {}
        ['é', ' ', '$', '\'', '\\'] before covered words last :=
  have h : split {} ['é', ' ', '$', '\'', '\\'] = .error (.unterminatedQuote '\'' ⟨3, 6⟩) := rfl
  ⟨h, split_error h⟩

end ShellWords
