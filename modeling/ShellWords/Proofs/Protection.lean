import ShellWords.Proofs.Layout.Run

/-! Texts between quotes that honour escape characters. With an escape character before every quote
and before every other escape character, a section holds any text at all: the machine takes each of
these pairs as one, and so does the decoder after it. The main statement, `split_protected`, holds
of every configuration with such a quote, whatever its other classes are. -/

namespace ShellWords

/-! ### Sections whose contents are kept as written -/

/-- A body in which no escape character stands before a line end. -/
structure IsVerbatim (config : Config) (mode : QuoteMode) (body : Text) : Prop where
  isBody : IsBody config mode body
  kept_eq : mode.kept config body = body

namespace IsVerbatim

variable {config : Config} {mode : QuoteMode} {body : Text}

theorem nil (h : ¬(config.isEscape mode.closing && mode.honorsEscapes config) = true) :
    IsVerbatim config mode [] :=
  ⟨.nil h, QuoteMode.kept_nil⟩

theorem pair {c d : Char} (h : (config.isEscape c && mode.honorsEscapes config) = true)
    (hd : d ≠ '\n') (hbody : IsVerbatim config mode body) :
    IsVerbatim config mode (c :: d :: body) where
  isBody := .pair h hbody.isBody
  kept_eq := by rw [QuoteMode.kept_pair h, if_neg hd, hbody.kept_eq]; rfl

theorem char {c : Char} (h : ¬(config.isEscape c && mode.honorsEscapes config) = true)
    (hclosing : c ≠ mode.closing) (hbody : IsVerbatim config mode body) :
    IsVerbatim config mode (c :: body) where
  isBody := .char h hclosing hbody.isBody
  kept_eq := by rw [QuoteMode.kept_char h, hbody.kept_eq]

theorem chars {text : Text} (h : ∀ c ∈ text, config.isEscape c = false ∧ c ≠ mode.closing)
    (hbody : IsVerbatim config mode body) : IsVerbatim config mode (text ++ body) := by
  induction text with
  | nil => exact hbody
  | cons c text ih =>
    obtain ⟨hescape, hclosing⟩ := h c List.mem_cons_self
    exact .char (by simp [hescape]) hclosing (ih fun e he => h e (List.mem_cons_of_mem c he))

/-- Where no escape character escapes, all but the closing quote is kept. -/
theorem raw (hmode : mode.honorsEscapes config = false) (hbody : mode.closing ∉ body) :
    IsVerbatim config mode body where
  isBody := isBody_raw hmode hbody
  kept_eq := by simp [QuoteMode.kept, hmode]

end IsVerbatim

/-- A section is read as the text that its body decodes to, whatever comes after it. -/
theorem run_section {config : Config} {c : Char} {opening body text : Text} {mode : QuoteMode}
    (hescape : config.isEscape c = false)
    (hopening : ∀ inside, opening? config false c (opening ++ inside) =
      some (c :: opening, mode, inside))
    (hbody : IsVerbatim config mode body) (hdecode : mode.decode config body = text)
    (size : Nat) (gathered : Gathered) (after : Text) :
    (layout config false (c :: opening ++ (body ++ mode.closing :: after))).run config size
        gathered =
      (layout config false after).run config size (gathered.extend text) := by
  have hfront := IsFront.quoted hescape (hopening _) (hbody.isBody.body?_eq after)
  rw [List.cons_append, hfront.layout_next, Layout.run_cons, Gathered.add, QuoteMode.contribution,
    hbody.kept_eq, hdecode]

/-! ### Escape characters before quotes and escape characters -/

/-- What a character becomes between two quotes, when `escape` is put before the quote and before
every escape character. -/
def Config.protect (config : Config) (quote escape c : Char) : Text :=
  if c == quote || config.isEscape c then [escape, c] else [c]

section Protect

variable {config : Config} {quote escape : Char} (hescape : config.isEscape escape = true)
include hescape

/-- A protected text keeps the section open, and no line end is lost from it. -/
theorem isVerbatim_protect (mode : QuoteMode) (hmode : mode.honorsEscapes config = true)
    (hclosing : config.isEscape mode.closing = false) {text : Text}
    (hlines : ∀ c ∈ text, c = mode.closing ∨ config.isEscape c = true → c ≠ '\n') :
    IsVerbatim config mode (text.flatMap (config.protect mode.closing escape)) := by
  induction text with
  | nil => exact .nil (by simp [hclosing])
  | cons c text ih =>
    obtain ⟨hc, hlines⟩ := List.forall_mem_cons.1 hlines
    rw [List.flatMap_cons, Config.protect]
    split
    · rename_i hmeant
      rw [Bool.or_eq_true, beq_iff_eq] at hmeant
      exact .pair (by simp [hescape, hmode]) (hc hmeant) (ih hlines)
    · rename_i hmeant
      rw [Bool.or_eq_true, beq_iff_eq, not_or] at hmeant
      exact .char (by simp [hmeant.2]) hmeant.1 (ih hlines)

/-- Taken apart again, a protected text falls into the pairs that protected it. -/
theorem Escape.unescape_protect (text : Text) :
    unescape config quote (text.flatMap (config.protect quote escape)) = text := by
  induction text with
  | nil => rfl
  | cons c text ih =>
    rw [List.flatMap_cons, Config.protect]
    split
    · rename_i hmeant
      rw [List.cons_append, List.singleton_append, unescape_pair hescape hmeant, ih]
    · rename_i hmeant
      have hplain : config.isEscape c = false :=
        (Bool.or_eq_false_iff.1 (Bool.eq_false_iff.2 hmeant)).2
      rw [List.singleton_append, unescape_of_not_escape hplain, ih]

end Protect

/-- Between two quotes that honour escape characters, every text can be written as one word with an
escape character before each quote and each escape character, as long as none of these is a line
end. -/
theorem split_protected {config : Config} {quote escape : Char} {text : Text}
    (hquote : quote ∈ config.quotes) (hhonors : quote ∈ config.escapedQuotes)
    (hplain : quote ∉ config.escapes) (hescape : escape ∈ config.escapes)
    (hlines : ∀ c ∈ text, c = quote ∨ c ∈ config.escapes → c ≠ '\n') :
    split config (quote :: text.flatMap (config.protect quote escape) ++ [quote]) = .ok [text] := by
  have hclosing : config.isEscape quote = false := by simpa [Config.isEscape] using hplain
  have hescape : config.isEscape escape = true := List.contains_iff_mem.2 hescape
  have hwithin : config.escapesWithin quote = true := List.contains_iff_mem.2 hhonors
  have hopening : ∀ inside, opening? config false quote ([] ++ inside) =
      some ([quote], .plain quote, inside) := by
    intro inside
    simp [opening?, Config.isQuote, hquote]
  have hbody : IsVerbatim config (.plain quote) (text.flatMap (config.protect quote escape)) := by
    refine isVerbatim_protect hescape (.plain quote) hwithin hclosing ?_
    simpa [Config.isEscape, QuoteMode.closing] using hlines
  have hdecode : (QuoteMode.plain quote).decode config
      (text.flatMap (config.protect quote escape)) = text := by
    rw [QuoteMode.decode, if_pos hwithin, Escape.unescape_protect hescape]
  rw [split, run_eq_runByPieces, runByPieces]
  have hrun := run_section hclosing hopening hbody hdecode
    (Text.byteLength (quote :: text.flatMap (config.protect quote escape) ++ [quote])) {} []
  rw [IsFront.complete.layout_stop] at hrun
  exact congrArg Run.result hrun

/-- Three characters escape, and two of them also separate words; the caret protects them all, and
the line end after an escaped tilde stays. -/
theorem split_protected_overlapping :
    let config : Config :=
      { whitespace := [' ', '~'], quotes := ['|'], escapes := ['^', '~', ' ']
        escapedQuotes := ['|'] }
    let text : Text := ['|', '~', '\n', '^', ' ', '$', '|', '\'']
    '|' ∈ config.quotes ∧ '|' ∈ config.escapedQuotes ∧ '|' ∉ config.escapes ∧
      '^' ∈ config.escapes ∧ (∀ c ∈ text, c = '|' ∨ c ∈ config.escapes → c ≠ '\n') ∧
      '|' :: text.flatMap (config.protect '|' '^') ++ ['|'] =
        "|^|^~\n^^^ $^|'|".toList ∧
      split config ('|' :: text.flatMap (config.protect '|' '^') ++ ['|']) = .ok [text] :=
  have hlines : ∀ c ∈ (['|', '~', '\n', '^', ' ', '$', '|', '\''] : Text),
      c = '|' ∨ c ∈ ['^', '~', ' '] → c ≠ '\n' := by
    rintro c - hc rfl
    exact absurd hc (by decide)
  ⟨by decide, by decide, by decide, by decide, hlines, by decide,
    split_protected (by decide) (by decide) (by decide) (by decide) hlines⟩

end ShellWords
