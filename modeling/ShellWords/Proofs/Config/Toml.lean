import ShellWords.Proofs.Config.Overlay
import ShellWords.Proofs.Toml

/-! Documents as lines of TOML. Each line states one entry, with blanks around its tokens, with a
bare or quoted key, and with its strings spelled in any way. Such lines are read as the statements
that they are, one by one. -/

namespace ShellWords

/-- What is written in TOML for a value. -/
def DocumentValue.toToml : DocumentValue → Toml.Value
  | text chars => .text chars
  | flag enabled => .boolean enabled
  | other => .array []

namespace Toml

open Reader

/-! ### Written lines -/

/-- A key and a value, with an equals sign between them and blanks around each. -/
inductive WritesLine : Text × DocumentValue → Text → Prop where
  | intro {name key written : Text} {value : DocumentValue} {before first second after : Text}
    (hbefore : Blank before) (hkey : WritesKey name key) (hfirst : Blank first)
    (hsecond : Blank second) (hvalue : value.Written Spells written) (hafter : Blank after) :
    WritesLine (name, value)
      (before ++ (key ++ (first ++ '=' :: (second ++ (written ++ after)))))

/-- A text goes on with a line end before `others`, or is at its end. -/
inductive EndsLine : (text others : Text) → Prop where
  | eof : EndsLine [] []
  | feed (others : Text) : EndsLine ('\n' :: others) others
  | returnFeed (others : Text) : EndsLine ('\r' :: '\n' :: others) others

/-- Lines, of which the last one need not be ended. -/
inductive WritesLines : Document → Text → Prop where
  | nil {blank : Text} (h : Blank blank) : WritesLines [] blank
  | cons {entry : Text × DocumentValue} {document : Document} {text rest others : Text}
    (h : WritesLine entry text) (hend : EndsLine rest others)
    (hothers : WritesLines document others) : WritesLines (entry :: document) (text ++ rest)

/-- The statement that states an entry. -/
def statementOf (entry : Text × DocumentValue) : Statement :=
  .ofPair (entry.1, entry.2.toToml)

/-! ### Reading them -/

theorem scalar_written {stated : DocumentValue} {written rest : Text}
    (h : stated.Written Spells written) (hrest : rest.head? ≠ some '"') :
    scalar (written ++ rest) = some (stated.toToml, rest) := by
  cases h with
  | @text chars spelled hspelled =>
    have hstring : scalar ('"' :: (spelled ++ '"' :: rest)) =
        some ((DocumentValue.text chars).toToml, rest) :=
      orElse_of_some (map_of_some (string_spelled hspelled hrest) _)
    simpa only [List.cons_append, List.append_assoc, List.nil_append] using hstring
  | enabled =>
    rw [scalar, orElse_of_none rfl]
    exact orElse_of_some (seqRight_of_some (literal_append "true".toList rest) _)
  | disabled =>
    rw [scalar, orElse_of_none rfl, orElse_of_none (seqRight_of_none rfl _)]
    exact orElse_of_some (seqRight_of_some (literal_append "false".toList rest) _)

theorem value_written {stated : DocumentValue} {written rest : Text}
    (h : stated.Written Spells written) (hrest : rest.head? ≠ some '"') (depth : Nat) :
    value depth (written ++ rest) = some (stated.toToml, rest) := by
  cases depth with
  | zero => exact scalar_written h hrest
  | succ depth => exact orElse_of_some (scalar_written h hrest)

theorem EndsLine.lineEnd_eq {rest others : Text} (h : EndsLine rest others) :
    lineEnd rest = some ((), others) := by
  cases h with
  | eof | feed | returnFeed => rfl

theorem trailing_written {after rest others : Text} (hafter : Blank after)
    (h : EndsLine rest others) : trailing (after ++ rest) = some ((), others) := by
  have hblanks : blanks (after ++ rest) = some ((), rest) := by
    rw [blanks_eq, hafter.dropWhile_append]
    cases h with
    | eof | feed | returnFeed => rfl
  have hcomment : (comment <|> pure ()) rest = some ((), rest) := by
    cases h with
    | eof | feed | returnFeed => rfl
  rw [trailing, bind_of_some hblanks, bind_of_some hcomment]
  exact h.lineEnd_eq

theorem pair_written {name key written first second rest : Text} {stated : DocumentValue}
    (hkey : WritesKey name key) (hfirst : Blank first) (hsecond : Blank second)
    (hvalue : stated.Written Spells written) (hrest : rest.head? ≠ some '"') (depth : Nat) :
    pair (value depth) (key ++ (first ++ '=' :: (second ++ (written ++ rest)))) =
      some ((⟨[], name⟩, stated.toToml), rest) := by
  have hblanks : blanks (second ++ (written ++ rest)) = some ((), written ++ rest) := by
    rw [blanks_eq, hsecond.dropWhile_append]
    cases hvalue with
    | text | enabled | disabled => rfl
  rw [pair, bind_of_some (key_written hkey hfirst _), bind_of_some (char_self _ _),
    bind_of_some hblanks, bind_of_some (value_written hvalue hrest depth)]
  rfl

/-- What starts with a key is neither a header nor a comment nor an empty line. -/
theorem line_of_pair {c : Char} (hc : StartsKey c) {more middle others : Text} {key : Key}
    {stated : Value} (hpair : pair (value (nestingLimit - 1)) (c :: more) =
      some ((key, stated), middle)) (htrailing : trailing middle = some ((), others)) :
    line (c :: more) = some (some (.pair key stated), others.dropWhile isBlank) := by
  have hbracket : c ≠ '[' := hc.ne (by decide) rfl
  have hstatement : statement (c :: more) = some (.pair key stated, others) := by
    rw [statement, orElse_of_none (bind_of_none (literal_of_ne hbracket _ _) _),
      orElse_of_none (bind_of_none (char_of_ne hbracket _) _), bind_of_some hpair]
    exact bind_of_some htrailing _
  have hcomment : comment (c :: more) = none :=
    bind_of_none (char_of_ne (hc.ne (by decide) rfl) _) _
  have hnewline : newline (c :: more) = none := by
    rw [newline, orElse_of_none (char_of_ne (hc.ne (by decide) rfl) _)]
    exact literal_of_ne (hc.ne (by decide) rfl) _ _
  refine seqLeft_of_some ?_ (blanks_eq others)
  rw [orElse_of_none (seqRight_of_none (seqRight_of_none hcomment _) _),
    orElse_of_none (seqRight_of_none hnewline _)]
  exact map_of_some hstatement some

/-- A line is read from its key on, with the blanks that start the next one. -/
theorem line_written {entry : Text × DocumentValue} {text rest others : Text}
    (h : WritesLine entry text) (hend : EndsLine rest others) :
    line ((text ++ rest).dropWhile isBlank) =
        some (some (statementOf entry), others.dropWhile isBlank) ∧
      rest.length < ((text ++ rest).dropWhile isBlank).length := by
  cases h with
  | @intro name key written stated before first second after hbefore hkey hfirst hsecond hvalue
      hafter =>
    have hhead : (after ++ rest).head? ≠ some '"' := by
      cases after with
      | nil =>
        cases hend with
        | eof | feed | returnFeed => simp
      | cons c after =>
        obtain rfl | rfl := hafter c List.mem_cons_self
        · simp
        · simp
    have hpair := pair_written hkey hfirst hsecond hvalue hhead (nestingLimit - 1)
    have htext : (before ++ (key ++ (first ++ '=' :: (second ++ (written ++ after)))) ++
        rest).dropWhile isBlank =
        key ++ (first ++ '=' :: (second ++ (written ++ (after ++ rest)))) := by
      obtain ⟨c, more, rfl, hc⟩ := hkey.head
      rw [List.append_assoc, hbefore.dropWhile_append]
      simp only [List.append_assoc, List.cons_append]
      exact hc.dropWhile_cons _
    rw [htext]
    constructor
    · obtain ⟨c, more, rfl, hc⟩ := hkey.head
      exact line_of_pair hc hpair (trailing_written hafter hend)
    · simp only [List.length_append, List.length_cons]
      omega

theorem takes_lines {document : Document} {text : Text} (h : WritesLines document text) :
    Takes line (text.dropWhile isBlank) (document.map (some ∘ statementOf)) [] := by
  induction h with
  | @nil blank hblank =>
    have hend : blank.dropWhile isBlank = [] := by
      rw [← List.append_nil blank, hblank.dropWhile_append]
      rfl
    rw [hend]
    exact .stop rfl
  | @cons entry document text rest others hline hend _ ih =>
    obtain ⟨hread, hlength⟩ := line_written hline hend
    refine .next hread (Nat.lt_of_le_of_lt ?_ hlength) ih
    calc (others.dropWhile isBlank).length
        ≤ others.length := (List.dropWhile_sublist isBlank).length_le
      _ ≤ rest.length := by
        cases hend with
        | eof => exact Nat.le_refl 0
        | feed => exact Nat.le_add_right _ 1
        | returnFeed => exact Nat.le_add_right _ 2

/-- No line starts with a byte order mark. -/
theorem WritesLines.head_ne {document : Document} {text : Text} (h : WritesLines document text) :
    text.head? ≠ some '\uFEFF' := by
  have hblank : ∀ {blank rest : Text}, Blank blank → rest.head? ≠ some '\uFEFF' →
      (blank ++ rest).head? ≠ some '\uFEFF' := by
    intro blank rest hblank hrest
    cases blank with
    | nil => exact hrest
    | cons c blank =>
      obtain rfl | rfl := hblank c List.mem_cons_self
      · simp
      · simp
  cases h with
  | nil h =>
    rw [← List.append_nil text]
    exact hblank h (by simp)
  | cons hline =>
    cases hline with
    | intro hbefore hkey =>
      obtain ⟨c, more, rfl, hc⟩ := hkey.head
      rw [List.append_assoc]
      refine hblank hbefore ?_
      have hc : c ≠ '\uFEFF' := hc.ne (by decide) rfl
      simpa using hc

/-- A document that is written in lines is read as the statements of its entries. -/
theorem document_written {document : Document} {text : Text} (h : WritesLines document text) :
    Toml.document.readAll? text = some (document.map statementOf) := by
  have hmark : (char '\uFEFF' <|> pure ()) text = some ((), text) := by
    have hhead := h.head_ne
    cases text with
    | nil => rfl
    | cons c text =>
      have hc : c ≠ '\uFEFF' := fun heq => hhead (congrArg some heq)
      exact orElse_of_none (char_of_ne hc text)
  have hread : Toml.document text = some (document.map statementOf, []) := by
    rw [Toml.document, bind_of_some hmark, bind_of_some (blanks_eq text),
      bind_of_some (takes_lines h).many_eq]
    have hlines : (document.map (some ∘ statementOf)).reduceOption = document.map statementOf := by
      show (document.map (some ∘ statementOf)).filterMap id = document.map statementOf
      rw [List.filterMap_map]
      exact congrFun List.filterMap_eq_map document
    rw [hlines]
    rfl
  simp only [readAll?, hread]

/-- There is a way to write every document. -/
theorem exists_lines {document : Document} (h : ∀ entry ∈ document, entry.2 ≠ .other) :
    ∃ text, WritesLines document text := by
  choose spell hspell using exists_spells
  induction document with
  | nil => exact ⟨[], .nil blank_nil⟩
  | cons entry document ih =>
    obtain ⟨hentry, hdocument⟩ := List.forall_mem_cons.1 h
    obtain ⟨others, hothers⟩ := ih hdocument
    obtain ⟨written, hwritten⟩ := DocumentValue.exists_written exists_spells hentry
    have hkey : WritesKey entry.1 _ := .quoted (.flatMap hspell entry.1)
    exact ⟨_, .cons (.intro blank_nil hkey blank_nil blank_nil hwritten blank_nil) (.feed others)
      hothers⟩

end Toml

end ShellWords
