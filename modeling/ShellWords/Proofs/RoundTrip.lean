import ShellWords.Proofs.Protection
import ShellWords.Quoting

/-! Joining words and splitting the line gives the words back. The quoted form of a word is a row
of pieces that together add the word, whatever comes after it; the main statement, `split_join`,
holds of every configuration that reads spaces, quotes and safe characters in the usual way. -/

namespace ShellWords

/-- A configuration that reads quoted words and the spaces between them as they were meant. -/
structure Config.ReadsQuoted (config : Config) : Prop where
  space_blank : config.isWhitespace ' '
  space_quote : config.isQuote ' ' = false
  space_escape : config.isEscape ' ' = false
  single_quote : config.isQuote '\''
  single_escape : config.isEscape '\'' = false
  /-- Escape characters do not escape between single quotes. -/
  single_raw : config.escapesWithin '\'' = false
  double_quote : config.isQuote '"'
  double_escape : config.isEscape '"' = false
  /-- The characters that are left without quotes have no meaning of their own. -/
  safe : (config.whitespace ++ config.quotes ++ config.escapes).all (!isSafe ·)

theorem readsQuoted_default : ({} : Config).ReadsQuoted := by
  constructor <;> decide

namespace Gathered

theorem extend_extend (gathered : Gathered) (a b : Text) :
    (gathered.extend a).extend b = gathered.extend (a ++ b) := by
  simp [extend]

theorem cut_extend (words : List Text) (word : Text) :
    (({ words } : Gathered).extend word).cut = { words := words ++ [word] } := by
  simp [extend, cut]

end Gathered

section Pieces

variable {config : Config} (h : config.ReadsQuoted) (size : Nat) (gathered : Gathered)
include h

theorem isFront_safe {c : Char} (hc : isSafe c) (rest : Text) :
    IsFront config false (c :: rest) (.next (.bare c) false rest) := by
  have hfree : ¬c ∈ config.whitespace ++ config.quotes ++ config.escapes := by
    intro hmem
    have hunsafe := List.all_eq_true.1 h.safe c hmem
    rw [hc] at hunsafe
    exact absurd hunsafe (by decide)
  simp only [List.mem_append, not_or] at hfree
  obtain ⟨⟨hblank, hquote⟩, hescape⟩ := hfree
  have hdollar : c ≠ '$' := by
    rintro rfl
    exact absurd hc (by decide)
  have hopening : opening? config false c rest = none := by
    cases rest <;> simp [opening?, Config.isQuote, hquote, hdollar]
  exact .bare (by simpa [Config.isEscape] using hescape) hopening
    (by simpa [Config.isWhitespace] using hblank)

theorem run_safe {c : Char} {word rest : Text} (hword : ∀ d ∈ c :: word, isSafe d) :
    (layout config false (c :: word ++ rest)).run config size gathered =
      (layout config false rest).run config size (gathered.extend (c :: word)) := by
  rw [List.cons_append, (isFront_safe h (hword c (by simp)) _).layout_next, Layout.run_cons]
  simp only [Gathered.add]
  induction word generalizing gathered c with
  | nil => rfl
  | cons d word ih =>
    have hrest : ∀ e ∈ d :: word, isSafe e := fun e he => hword e (List.mem_cons_of_mem c he)
    rw [List.cons_append, (isFront_safe h (hrest d (by simp)) _).layout_next, Layout.run_cons]
    simp only [Gathered.add]
    rw [ih _ hrest, Gathered.extend_extend]
    rfl

theorem run_single {text rest : Text} (htext : '\'' ∉ text) :
    (layout config false ('\'' :: text ++ '\'' :: rest)).run config size gathered =
      (layout config false rest).run config size (gathered.extend text) := by
  have hopening : ∀ inside, opening? config false '\'' ([] ++ inside) =
      some (['\''], .plain '\'', inside) := by
    simp [opening?, h.single_quote]
  have hdecode : (QuoteMode.plain '\'').decode config text = text := by
    simp [QuoteMode.decode, h.single_raw]
  exact run_section h.single_escape hopening (.raw h.single_raw htext) hdecode size gathered rest

theorem run_double (rest : Text) :
    (layout config false ('"' :: '\'' :: '"' :: rest)).run config size gathered =
      (layout config false rest).run config size (gathered.extend ['\'']) := by
  have hopening : ∀ inside, opening? config false '"' ([] ++ inside) =
      some (['"'], .plain '"', inside) := by
    simp [opening?, h.double_quote]
  have hclosing : ¬(config.isEscape '"' && (QuoteMode.plain '"').honorsEscapes config) = true := by
    simp [h.double_escape]
  have hchar : ¬(config.isEscape '\'' && (QuoteMode.plain '"').honorsEscapes config) = true := by
    simp [h.single_escape]
  have hbody : IsVerbatim config (.plain '"') ['\''] := .char hchar (by decide) (.nil hclosing)
  have hdecode : (QuoteMode.plain '"').decode config ['\''] = ['\''] := by
    simp [QuoteMode.decode, Escape.unescape]
  exact run_section h.double_escape hopening hbody hdecode size gathered rest

/-- The rest of a word, quoted from within an open section, is read as it was. -/
theorem run_quoteChar {text word rest : Text} (htext : '\'' ∉ text) :
    (layout config false ('\'' :: text ++ (word.flatMap quoteChar ++ '\'' :: rest))).run config size
        gathered =
      (layout config false rest).run config size (gathered.extend (text ++ word)) := by
  induction word generalizing gathered text with
  | nil =>
    rw [List.append_nil]
    exact run_single h size gathered htext
  | cons c word ih =>
    by_cases hc : c = '\''
    · -- The apostrophe closes the section, stands between double quotes and opens the next one.
      subst hc
      have hsplice : '\'' :: text ++ (('\'' :: word).flatMap quoteChar ++ '\'' :: rest) =
          '\'' :: text ++ '\'' :: ('"' :: '\'' :: '"' ::
            ('\'' :: [] ++ (word.flatMap quoteChar ++ '\'' :: rest))) := by
        simp [quoteChar]
      rw [hsplice, run_single h size gathered htext, run_double h, ih _ (by simp)]
      simp [Gathered.extend_extend]
    · have hmove : '\'' :: text ++ ((c :: word).flatMap quoteChar ++ '\'' :: rest) =
          '\'' :: (text ++ [c]) ++ (word.flatMap quoteChar ++ '\'' :: rest) := by
        simp [quoteChar, hc]
      rw [hmove, ih _ (by simp [htext, Ne.symm hc])]
      simp

/-- The quoted form of a word is read as the word, whatever comes after it. -/
theorem run_quote (word rest : Text) :
    (layout config false (quote word ++ rest)).run config size gathered =
      (layout config false rest).run config size (gathered.extend word) := by
  unfold quote
  split
  · rename_i hempty
    obtain rfl := List.isEmpty_iff.1 hempty
    exact run_single h size gathered List.not_mem_nil
  · split
    · rename_i hempty hsafe
      cases word with
      | nil => simp at hempty
      | cons c word => exact run_safe h size gathered (List.all_eq_true.1 hsafe)
    · rw [List.append_assoc]
      exact run_quoteChar h size gathered List.not_mem_nil

theorem run_space (rest : Text) :
    (layout config false (' ' :: rest)).run config size gathered =
      (layout config false rest).run config size gathered.cut := by
  have hopening : opening? config false ' ' rest = none := by
    cases rest <;> simp [opening?, h.space_quote]
  rw [(IsFront.blank h.space_escape hopening h.space_blank).layout_next, Layout.run_cons]
  rfl

theorem run_join (words done : List Text) :
    (layout config false (join words)).run config size { words := done } =
      { words := done ++ words } := by
  induction words generalizing done with
  | nil =>
    have hnil : layout config false (join []) = {} := IsFront.complete.layout_stop
    rw [hnil]
    simp [Layout.run, Ending.error?, Gathered.addAll, Gathered.cut]
  | cons word words ih =>
    cases words with
    | nil =>
      have hjoin : join [word] = quote word ++ [] := by simp [join, List.intercalate]
      rw [hjoin, run_quote h, IsFront.complete.layout_stop]
      simp [Layout.run, Ending.error?, Gathered.addAll, Gathered.cut_extend]
    | cons next words =>
      have hjoin : join (word :: next :: words) = quote word ++ ' ' :: join (next :: words) := by
        simp [join, List.intercalate]
      rw [hjoin, run_quote h, run_space h, Gathered.cut_extend, ih]
      simp

end Pieces

/-- Splitting a line of joined words gives the words back, whatever they contain: under every
configuration that reads quoted words, and so under the default one. -/
theorem split_join :
    (∀ config : Config, config.ReadsQuoted → ∀ words, split config (join words) = .ok words) ∧
      ∀ words, split {} (join words) = .ok words := by
  have hsplit : ∀ config : Config, config.ReadsQuoted →
      ∀ words, split config (join words) = .ok words := by
    intro config h words
    rw [split, run_eq_runByPieces, runByPieces, run_join h]
    rfl
  exact ⟨hsplit, hsplit {} readsQuoted_default⟩

/-- Pipes quote, carets escape and a semicolon separates, but words still come back. -/
theorem split_join_carets :
    let config : Config :=
      { whitespace := [' ', ';'], quotes := ['\'', '"', '|'], escapes := ['^'], ansiC := false }
    let words : List Text := [['\'', '$'], [], ['^', '\n', '\'', '\'', '"'], ['a', ';', '|']]
    config.ReadsQuoted ∧ split config (join words) = .ok words :=
  have h : Config.ReadsQuoted
      { whitespace := [' ', ';'], quotes := ['\'', '"', '|'], escapes := ['^'], ansiC := false } := by
    constructor <;> decide
  ⟨h, split_join.1 _ h _⟩

end ShellWords
