import Mathlib.Algebra.Group.End
import Mathlib.Data.List.Basic
import ShellWords.Proofs.Layout.Renaming
import ShellWords.Proofs.Unterminated

/-! What a line comes to depends on its characters only through the classes that they are in. No
character but the line end has a meaning of its own while the sections with a dollar are off
(`split_rename`), and a character of several classes has the meaning of the first of them
(`split_resolved`). -/

namespace ShellWords

/-! ### Renaming the characters of a configuration -/

/-- A configuration with the characters of its classes renamed. -/
def Config.rename (rename : Char → Char) (config : Config) : Config :=
  { config with
    whitespace := config.whitespace.map rename
    quotes := config.quotes.map rename
    escapes := config.escapes.map rename
    escapedQuotes := config.escapedQuotes.map rename }

theorem Config.mirrors_rename {rename : Char → Char} {config : Config}
    (hinjective : rename.Injective) (hline : rename '\n' = '\n') (hansiC : config.ansiC = false)
    (hlocale : config.locale = false) : config.Mirrors rename (config.rename rename) := by
  have hcontains : ∀ (chars : Text) (c : Char),
      (chars.map rename).contains (rename c) = chars.contains c := by
    intro chars c
    rw [Bool.eq_iff_iff, List.contains_iff_mem, List.contains_iff_mem,
      List.mem_map_of_injective hinjective]
  constructor
  · exact hinjective
  · exact hline
  · exact fun c => hcontains config.escapes c
  · exact fun c _ => hcontains config.quotes c
  · exact fun c _ _ => hcontains config.whitespace c
  · exact fun q _ _ => hcontains config.escapedQuotes q
  · rfl
  · rfl
  · simp [hansiC, hlocale]

/-- The numbers of characters before the start and before the end of a span. -/
def Span.indices? (span : Span) (source : Text) : Option (Nat × Nat) := do
  let start ← Text.seek? span.start source
  let stop ← Text.seek? span.stop source
  return (start.before.length, stop.before.length)

theorem Span.indices?_of_append {before covered source : Text} (h : before ++ covered = source) :
    Span.indices? ⟨Text.byteLength before, Text.byteLength source⟩ source =
      some (before.length, source.length) := by
  subst h
  have hstop := Text.seek?_append (before ++ covered) []
  rw [List.append_nil] at hstop
  simp only [indices?, Text.seek?_append, hstop]
  simp [Nat.add_comm]

/-- While the sections with a dollar are off, no character but the line end has a meaning of its
own: a line and a configuration that are renamed together give the renamed words, or the error of
the same kind about the renamed character, which covers the same characters of the line. -/
theorem split_rename {config : Config} (hansiC : config.ansiC = false)
    (hlocale : config.locale = false) (rename : Equiv.Perm Char) (hline : rename '\n' = '\n')
    (line : Text) :
    (Splits (config.rename rename) (line.map rename) ↔ Splits config line) ∧
      (∀ words, split config line = .ok words →
        split (config.rename rename) (line.map rename) = .ok (words.map (·.map rename))) ∧
      ∀ error, split config line = .error error → ∃ span indices,
        split (config.rename rename) (line.map rename) = .error (error.rename rename span) ∧
          error.span.indices? line = some indices ∧
          span.indices? (line.map rename) = some indices := by
  have h := config.mirrors_rename rename.injective hline hansiC hlocale
  refine ⟨⟨?_, ?_⟩, fun words hsplit => split_rename_ok h hsplit, fun error hsplit => ?_⟩
  · rintro ⟨words, hwords⟩
    cases hsplit : split config line with
    | ok words => exact ⟨words, hsplit⟩
    | error error =>
      rw [split_rename_error h hsplit] at hwords
      cases hwords
  · rintro ⟨words, hsplit⟩
    exact ⟨_, split_rename_ok h hsplit⟩
  · have htexts := texts_layout config false line
    refine ⟨_, ((Piece.texts (layout config false line).pieces).length, line.length),
      split_rename_error h hsplit, ?_, ?_⟩
    · rw [span_of_split_error hsplit]
      exact Span.indices?_of_append htexts
    · have hrenamed := congrArg (List.map rename) htexts
      rw [List.map_append] at hrenamed
      simpa only [List.length_map] using Span.indices?_of_append hrenamed

/-- The blank and the quote change places with longer characters, and the backslash with the quote,
so that the open section starts at another byte but at the same character. -/
theorem split_rename_swapped :
    let config : Config := { escapedQuotes := ['\''], ansiC := false, locale := false }
    let rename : Equiv.Perm Char := Equiv.swap ' ' 'é' * Equiv.swap '\'' '\\'
    let line : Text := ['$', ' ', ' ', '\'', 'é', '\\']
    rename '\n' = '\n' ∧
      split config line = .error (.unterminatedQuote '\'' ⟨3, 7⟩) ∧
      line.map rename = ['$', 'é', 'é', '\\', ' ', '\''] ∧
      ∃ span indices,
        split (config.rename rename) (line.map rename) = .error (.unterminatedQuote '\\' span) ∧
          Span.indices? ⟨3, 7⟩ line = some indices ∧
          span.indices? (line.map rename) = some indices := by
  intro config rename line
  have hline : rename '\n' = '\n' := by decide
  have hsplit : split config line = .error (.unterminatedQuote '\'' ⟨3, 7⟩) := rfl
  exact ⟨hline, hsplit, by decide, (split_rename rfl rfl rename hline line).2.2 _ hsplit⟩

/-! ### Characters of several classes -/

/-- `config'` has the classes of `config` without what overlaps: a character that escapes is no
quote, one of either kind separates no words, and only quotes are listed as escaping ones. -/
structure Config.Resolves (config config' : Config) : Prop where
  escapes : ∀ c, c ∈ config'.escapes ↔ c ∈ config.escapes
  quotes : ∀ c, c ∈ config'.quotes ↔ c ∈ config.quotes ∧ c ∉ config.escapes
  whitespace : ∀ c, c ∈ config'.whitespace ↔
    c ∈ config.whitespace ∧ c ∉ config.escapes ∧ c ∉ config.quotes
  escapedQuotes : ∀ c, c ∈ config'.escapedQuotes ↔
    c ∈ config.escapedQuotes ∧ c ∈ config.quotes ∧ c ∉ config.escapes
  ansiC : config'.ansiC = config.ansiC
  locale : config'.locale = config.locale

/-- Two configurations have the same characters in each class, in whatever order and however often
they are listed. -/
structure Config.SameClasses (config config' : Config) : Prop where
  escapes : ∀ c, c ∈ config'.escapes ↔ c ∈ config.escapes
  quotes : ∀ c, c ∈ config'.quotes ↔ c ∈ config.quotes
  whitespace : ∀ c, c ∈ config'.whitespace ↔ c ∈ config.whitespace
  escapedQuotes : ∀ c, c ∈ config'.escapedQuotes ↔ c ∈ config.escapedQuotes
  ansiC : config'.ansiC = config.ansiC
  locale : config'.locale = config.locale

/-- A class matters only for characters that are in no class before it. -/
theorem Config.mirrors_id {config config' : Config}
    (hescapes : ∀ c, c ∈ config'.escapes ↔ c ∈ config.escapes)
    (hquotes : ∀ c, c ∉ config.escapes → (c ∈ config'.quotes ↔ c ∈ config.quotes))
    (hwhitespace : ∀ c, c ∉ config.escapes → c ∉ config.quotes →
      (c ∈ config'.whitespace ↔ c ∈ config.whitespace))
    (hescapedQuotes : ∀ q, q ∉ config.escapes → q ∈ config.quotes →
      (q ∈ config'.escapedQuotes ↔ q ∈ config.escapedQuotes))
    (hansiC : config'.ansiC = config.ansiC) (hlocale : config'.locale = config.locale) :
    config.Mirrors id config' := by
  have hcontains : ∀ {chars chars' : Text} {c : Char}, (c ∈ chars' ↔ c ∈ chars) →
      chars'.contains c = chars.contains c := by
    intro chars chars' c h
    rw [Bool.eq_iff_iff, List.contains_iff_mem, List.contains_iff_mem, h]
  have hnotMem : ∀ {chars : Text} {c : Char}, chars.contains c = false → c ∉ chars := by
    intro chars c h
    rw [← List.contains_iff_mem, h]
    exact Bool.false_ne_true
  constructor
  · exact Function.injective_id
  · rfl
  · exact fun c => hcontains (hescapes c)
  · exact fun c hescape => hcontains (hquotes c (hnotMem hescape))
  · exact fun c hescape hquote => hcontains (hwhitespace c (hnotMem hescape) (hnotMem hquote))
  · exact fun q hescape hquote =>
      hcontains (hescapedQuotes q (hnotMem hescape) (List.contains_iff_mem.1 hquote))
  · exact hansiC
  · exact hlocale
  · exact fun _ => rfl

theorem split_eq_of_mirrors {config config' : Config} (h : config.Mirrors id config')
    (line : Text) : split config' line = split config line := by
  cases hsplit : split config line with
  | ok words =>
    have hok := split_rename_ok h hsplit
    rwa [List.map_id, List.map_id'' (fun _ => List.map_id _)] at hok
  | error error =>
    have herror := split_rename_error h hsplit
    rw [List.map_id, List.map_id, ← span_of_split_error hsplit] at herror
    rw [herror]
    cases error <;> rfl

/-- A character of several classes escapes if it can, or else is a quote if it can be one: a line is
split in the same way if the classes are cleared of what overlaps, and the order and the repetition
of the characters of a class play no part. -/
theorem split_resolved (config config' : Config) :
    (config.Resolves config' → ∀ line, split config' line = split config line) ∧
      (config.SameClasses config' → ∀ line, split config' line = split config line) := by
  refine ⟨fun h => split_eq_of_mirrors ?_, fun h => split_eq_of_mirrors ?_⟩
  · refine Config.mirrors_id h.escapes ?_ ?_ ?_ h.ansiC h.locale
    · exact fun c hescape => by simp [h.quotes, hescape]
    · exact fun c hescape hquote => by simp [h.whitespace, hescape, hquote]
    · exact fun q hescape hquote => by simp [h.escapedQuotes, hescape, hquote]
  · exact Config.mirrors_id h.escapes (fun c _ => h.quotes c) (fun c _ _ => h.whitespace c)
      (fun q _ _ => h.escapedQuotes q) h.ansiC h.locale

/-- The bar is in all classes and the double quote separates words as well. Both lines end in an
open section, after the bar that escapes the second quote. -/
theorem split_resolved_overlapping :
    let config : Config :=
      { whitespace := ['"', ' ', '|'], quotes := ['|', '"', '\''], escapes := ['|']
        escapedQuotes := ['|', '"', 'x'] }
    let resolved : Config :=
      { whitespace := [' '], quotes := ['\'', '"'], escapes := ['|', '|'], escapedQuotes := ['"'] }
    let doubled : Config :=
      { whitespace := ['|', '|', '"', ' '], quotes := ['\'', '|', '"', '"'], escapes := ['|', '|']
        escapedQuotes := ['x', '|', '"'] }
    let line : Text := ['a', ' ', '$', '"', '|', '"']
    config.Resolves resolved ∧ config.SameClasses doubled ∧
      split config line = .error (.unterminatedQuote '"' ⟨2, 6⟩) ∧
      split resolved line = split config line ∧ split doubled line = split config line := by
  intro config resolved doubled line
  have hresolves : config.Resolves resolved := by
    constructor <;> simp only [config, resolved, List.mem_cons, List.not_mem_nil] <;> grind
  have hsame : config.SameClasses doubled := by
    constructor <;> simp only [config, doubled, List.mem_cons, List.not_mem_nil] <;> grind
  exact ⟨hresolves, hsame, rfl, (split_resolved config resolved).1 hresolves line,
    (split_resolved config doubled).2 hsame line⟩

end ShellWords
