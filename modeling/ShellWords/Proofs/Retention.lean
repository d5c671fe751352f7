import Mathlib
import ShellWords.Proofs.Layout.Contribution
import ShellWords.Proofs.Unterminated

/-! What splitting leaves out of a line. While ANSI-C sections are off, the characters of the words
are characters of the line, in their order there, and every other character of the line has a reason
to be missing, which its class and the characters next to it show: `split_retains`. -/

namespace ShellWords

/-- The reasons for which a character may be missing from the words, where it stands in a line
between `before` and `after`. -/
inductive Omissible (config : Config) : (before : Text) → (c : Char) → (after : Text) → Prop where
  | escape {before after : Text} {c : Char} (hescape : c ∈ config.escapes) :
    Omissible config before c after
  | quote {before after : Text} {c : Char} (hquote : c ∈ config.quotes) :
    Omissible config before c after
  | blank {before after : Text} {c : Char} (hblank : c ∈ config.whitespace) :
    Omissible config before c after
  | lineEnd {before after : Text} {escape : Char} (hescape : escape ∈ config.escapes) :
    Omissible config (before ++ [escape]) '\n' after
  | dollar {before after : Text} (hlocale : config.locale = true) :
    Omissible config before '$' ('"' :: after)

/-- `left` is what is left of `part`, a part of a line that stands after `before`, when some
characters that may be missing are left out. -/
inductive Retains (config : Config) : (before part left : Text) → Prop where
  | nil {before : Text} : Retains config before [] []
  | kept {before part left : Text} {c : Char} (hrest : Retains config (before ++ [c]) part left) :
    Retains config before (c :: part) (c :: left)
  | omitted {before part left : Text} {c : Char} (homissible : Omissible config before c part)
    (hrest : Retains config (before ++ [c]) part left) : Retains config before (c :: part) left

theorem Omissible.append {config : Config} {before after : Text} {c : Char}
    (h : Omissible config before c after) (more : Text) :
    Omissible config before c (after ++ more) := by
  cases h with
  | escape hescape => exact .escape hescape
  | quote hquote => exact .quote hquote
  | blank hblank => exact .blank hblank
  | lineEnd hescape => exact .lineEnd hescape
  | dollar hlocale => exact .dollar hlocale

namespace Retains

variable {config : Config} {before part left : Text}

theorem sublist (h : Retains config before part left) : left.Sublist part := by
  induction h with
  | nil => exact .slnil
  | kept _ ih => exact .cons_cons _ ih
  | omitted _ _ ih => exact .cons _ ih

theorem refl (before text : Text) : Retains config before text text := by
  induction text generalizing before with
  | nil => exact .nil
  | cons c text ih => exact .kept (ih _)

/-- Two parts of a line that stand next to each other. -/
theorem append {part' left' : Text} (h : Retains config before part left)
    (h' : Retains config (before ++ part) part' left') :
    Retains config before (part ++ part') (left ++ left') := by
  induction h with
  | nil => simpa using h'
  | kept _ ih => exact .kept (ih (by simpa using h'))
  | omitted homissible _ ih => exact .omitted (homissible.append part') (ih (by simpa using h'))

end Retains

/-! ### The pieces of a line -/

section Sections

variable {config : Config} {mode : QuoteMode} {body : Text}

/-- Where escape characters escape, a section loses some of them, and the line ends after some. -/
theorem IsBody.retains_unescape (h : IsBody config mode body)
    (hmode : mode.honorsEscapes config = true) (quote : Char) (before : Text) :
    Retains config before body (Escape.unescape config quote (mode.kept config body)) := by
  induction h generalizing before with
  | nil =>
    rw [QuoteMode.kept_nil]
    exact .nil
  | @pair c d body hescape hbody ih =>
    have hc : config.isEscape c = true := (Bool.and_eq_true_iff.1 hescape).1
    have homit : ∀ {before after : Text}, Omissible config before c after :=
      .escape (List.contains_iff_mem.1 hc)
    rw [QuoteMode.kept_pair hescape]
    by_cases hline : d = '\n'
    · rw [if_pos hline, hline]
      exact .omitted homit (.omitted (.lineEnd (List.contains_iff_mem.1 hc)) (ih _))
    · rw [if_neg hline]
      show Retains config before _ (Escape.unescape config quote (c :: d :: mode.kept config body))
      cases hd : d == quote || config.isEscape d with
      | true =>
        rw [Escape.unescape_pair hc hd]
        exact .omitted homit (.kept (ih _))
      | false =>
        rw [Escape.unescape_kept_pair hd]
        exact .kept (.kept (ih _))
  | @char c body hescape _ _ ih =>
    have hc : config.isEscape c = false := by simpa [hmode] using hescape
    rw [QuoteMode.kept_char hescape, Escape.unescape_of_not_escape hc]
    exact .kept (ih _)

/-- A section of any kind but the ANSI-C one. -/
theorem IsBody.retains_contribution (h : IsBody config mode body) (hansiC : mode ≠ .ansiC)
    (before : Text) : Retains config before body (mode.contribution config body) := by
  cases mode with
  | plain q =>
    cases hwithin : config.escapesWithin q with
    | true =>
      have hretains := h.retains_unescape hwithin q before
      simpa [QuoteMode.contribution, QuoteMode.decode, hwithin] using hretains
    | false =>
      have hcontribution : (QuoteMode.plain q).contribution config body = body := by
        simp [QuoteMode.contribution, QuoteMode.decode, QuoteMode.kept, QuoteMode.honorsEscapes,
          hwithin]
      rw [hcontribution]
      exact .refl before body
  | ansiC => exact absurd rfl hansiC
  | locale => exact h.retains_unescape rfl '"' before

end Sections

/-- The quote that closes a section is a quote of the configuration, and its opening leaves
nothing. -/
theorem IsOpening.retains_nil {config : Config} {afterDollar : Bool} {c : Char}
    {rest opening inside : Text} {mode : QuoteMode}
    (h : IsOpening config afterDollar c rest (opening, mode, inside))
    (hansiC : config.ansiC = false) (before : Text) :
    mode ≠ .ansiC ∧ mode.closing ∈ config.quotes ∧ Retains config before opening [] := by
  have hmode : ∀ afterDollar q, QuoteMode.opened config afterDollar q ≠ .ansiC := by
    intro afterDollar q
    unfold QuoteMode.opened
    rw [if_neg (by simp [hansiC])]
    split <;> exact nofun
  cases h with
  | quote hquote =>
    have hmem : c ∈ config.quotes := List.contains_iff_mem.1 hquote
    refine ⟨hmode _ _, ?_, .omitted (.quote hmem) .nil⟩
    rwa [QuoteMode.closing_opened]
  | @dollar q inside _ _ hquote _ htakes =>
    have hmem : q ∈ config.quotes := List.contains_iff_mem.1 hquote
    refine ⟨hmode _ _, ?_, ?_⟩
    · rwa [QuoteMode.closing_opened]
    · -- Only a locale section is left to take the dollar.
      obtain ⟨rfl, hlocale⟩ : q = '"' ∧ config.locale = true := by
        unfold QuoteMode.opened at htakes
        rw [if_neg (by simp [hansiC])] at htakes
        split at htakes
        · rename_i hopened
          exact ⟨hopened.1, hopened.2.2⟩
        · cases htakes
      exact .omitted (.dollar hlocale) (.omitted (.quote hmem) .nil)

theorem IsFront.retains_contribution {config : Config} {afterDollar flag : Bool} {text rest : Text}
    {piece : Piece} (h : IsFront config afterDollar text (.next piece flag rest))
    (hansiC : config.ansiC = false) (before : Text) :
    Retains config before piece.text (piece.contribution config) := by
  cases h with
  | @escaped e c _ hescape =>
    have hmem : e ∈ config.escapes := List.contains_iff_mem.1 hescape
    by_cases hline : c = '\n'
    · subst hline
      exact .omitted (.escape hmem) (.omitted (.lineEnd hmem) .nil)
    · rw [Piece.contribution, if_neg hline]
      exact .omitted (.escape hmem) (.kept .nil)
  | @quoted _ _ opening _ body _ mode _ hopening hbody =>
    obtain ⟨hmode, hclosing, hopened⟩ := (isOpening hopening).retains_nil hansiC before
    have hcontribution := (isBody hbody).1.retains_contribution hmode (before ++ opening)
    have hclosed : Retains config (before ++ (opening ++ body)) [mode.closing] [] :=
      .omitted (.quote hclosing) .nil
    simpa [Piece.text, Piece.contribution] using (hopened.append hcontribution).append hclosed
  | @blank c _ _ _ hblank => exact .omitted (.blank (List.contains_iff_mem.1 hblank)) .nil
  | bare => exact .kept .nil

/-- What the pieces of a line add is left of the text that they cover. -/
theorem retains_layout {config : Config} (hansiC : config.ansiC = false) (afterDollar : Bool)
    (before text : Text) :
    Retains config before (Piece.texts (layout config afterDollar text).pieces)
      ((layout config afterDollar text).pieces.flatMap (Piece.contribution config)) := by
  induction afterDollar, text using layout_induction config generalizing before with
  | stop afterDollar text ending h =>
    rw [h.layout_stop]
    exact .nil
  | next afterDollar text piece flag rest h ih =>
    rw [h.layout_next]
    exact (h.retains_contribution hansiC before).append (ih (before ++ piece.text))

/-- While ANSI-C sections are off, no character of a line that splits is lost without reason, none
is invented, and those of the words stand in the order of the line. -/
theorem split_retains {config : Config} {line : Text} {words : List Text}
    (hansiC : config.ansiC = false) (h : split config line = .ok words) :
    words.flatten.Sublist line ∧ Retains config [] line words.flatten := by
  have hretains := retains_layout hansiC false [] line
  rw [texts_of_split h, ← flatten_of_split h] at hretains
  exact ⟨hretains.sublist, hretains⟩

/-- The line is `a\⏎$"\⏎b\"c"` and `$'\'` with a blank between them and a line end for each arrow:
a dollar is missing before the double quote only, and both line ends are. -/
theorem split_retains_locale :
    let config : Config := { ansiC := false }
    let line : Text := ['a', '\\', '\n', '$', '"', '\\', '\n', 'b', '\\', '"', 'c', '"', ' ', '$',
      '\'', '\\', '\'']
    let words : List Text := [['a', 'b', '"', 'c'], ['$', '\\']]
    config.ansiC = false ∧ split config line = .ok words ∧
      words.flatten.Sublist line ∧ Retains config [] line words.flatten := by
  intro config line words
  have hsplit : split config line = .ok words := by cbv
  exact ⟨rfl, hsplit, split_retains rfl hsplit⟩

end ShellWords
