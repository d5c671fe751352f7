import ShellWords.Quoting

/-! Quoted words as any shell reads them. A word of safe characters stays as it is, and every other
word becomes a row of blocks that leave no character without quotes: `quote_blocks`. What a character
is protected by does not hang on how a line is split here, but on the quotes alone. -/

namespace ShellWords

/-- An ASCII letter, a digit, or one of ten other characters. -/
def SafeChar (c : Char) : Prop :=
  ('A' ≤ c ∧ c ≤ 'Z') ∨ ('a' ≤ c ∧ c ≤ 'z') ∨ ('0' ≤ c ∧ c ≤ '9') ∨
    c ∈ ['@', '%', '_', '-', '+', '=', ':', ',', '.', '/']

/-- A word that needs no quotes. -/
def SafeWord (word : Text) : Prop :=
  word ≠ [] ∧ ∀ c ∈ word, SafeChar c

/-- A part of a quoted word. -/
inductive Block where
  /-- A text between two single quotes. -/
  | single (text : Text) (hquote : '\'' ∉ text)
  /-- A single quote between two double quotes. -/
  | apostrophe

namespace Block

def text : Block → Text
  | single text _ => text
  | apostrophe => ['\'']

def written : Block → Text
  | single text _ => '\'' :: text ++ ['\'']
  | apostrophe => ['"', '\'', '"']

end Block

/-- Where a character stands in a line. -/
inductive Place where
  | bare
  | single
  | double
deriving DecidableEq, Repr

/-- What may stand at a place without harm: outside quotes the safe characters, and between double
quotes, where shells still expand some characters, only a single quote. -/
def Place.Allows : Place → Char → Prop
  | bare, c => SafeChar c
  | single, _ => True
  | double, c => c = '\''

/-- The characters of a text that are left when the quotes around them are removed, each with the
place where it stands. The text begins at the given place. -/
def removeQuotes : Place → Text → List (Char × Place)
  | _, [] => []
  | .bare, c :: rest =>
    if c = '\'' then removeQuotes .single rest
    else if c = '"' then removeQuotes .double rest
    else (c, .bare) :: removeQuotes .bare rest
  | .single, c :: rest =>
    if c = '\'' then removeQuotes .bare rest else (c, .single) :: removeQuotes .single rest
  | .double, c :: rest =>
    if c = '"' then removeQuotes .bare rest else (c, .double) :: removeQuotes .double rest

/-! ### Safe words -/

theorem isSafe_iff {c : Char} : isSafe c = true ↔ SafeChar c := by
  have hupper : c.isUpper = true ↔ 'A' ≤ c ∧ c ≤ 'Z' := decide_eq_true_iff
  have hlower : c.isLower = true ↔ 'a' ≤ c ∧ c ≤ 'z' :=
    Bool.and_eq_true_iff.trans (and_congr decide_eq_true_iff decide_eq_true_iff)
  have hdigit : c.isDigit = true ↔ '0' ≤ c ∧ c ≤ '9' :=
    Bool.and_eq_true_iff.trans (and_congr decide_eq_true_iff decide_eq_true_iff)
  have halphanum : c.isAlphanum = (c.isUpper || c.isLower || c.isDigit) := rfl
  have hother : "@%_-+=:,./".toList = ['@', '%', '_', '-', '+', '=', ':', ',', '.', '/'] := rfl
  rw [isSafe, halphanum, hother, Bool.or_eq_true, Bool.or_eq_true, Bool.or_eq_true, hupper, hlower,
    hdigit, List.contains_iff_mem, or_assoc, or_assoc, SafeChar]

theorem quote_of_safeWord {word : Text} (h : SafeWord word) : quote word = word := by
  have hempty : word.isEmpty = false := by simpa using h.1
  have hsafe : word.all isSafe = true := List.all_eq_true.2 fun c hc => isSafe_iff.2 (h.2 c hc)
  rw [quote, hempty, hsafe]
  rfl

theorem quote_of_not_safeWord {word : Text} (h : ¬SafeWord word) :
    quote word = '\'' :: word.flatMap quoteChar ++ ['\''] := by
  unfold quote
  split
  · rename_i hempty
    rw [List.isEmpty_iff.1 hempty]
    rfl
  · rename_i hempty
    rw [if_neg]
    intro hsafe
    refine h ⟨by simpa using hempty, fun c hc => isSafe_iff.1 (List.all_eq_true.1 hsafe c hc)⟩

theorem length_le_length_flatMap_quoteChar (word : Text) :
    word.length ≤ (word.flatMap quoteChar).length := by
  induction word with
  | nil => exact Nat.le_refl 0
  | cons c word ih =>
    have hc : 0 < (quoteChar c).length := by
      unfold quoteChar
      split <;> simp
    rw [List.flatMap_cons, List.length_append, List.length_cons]
    omega

/-- Quotes make a word longer. -/
theorem quote_eq_self_iff {word : Text} : quote word = word ↔ SafeWord word := by
  refine ⟨fun h => ?_, quote_of_safeWord⟩
  by_cases hsafe : SafeWord word
  · exact hsafe
  · exfalso
    have hlength := length_le_length_flatMap_quoteChar word
    have heq := congrArg List.length ((quote_of_not_safeWord hsafe).symm.trans h)
    rw [List.length_append, List.length_cons, List.length_singleton] at heq
    omega

/-! ### Blocks -/

/-- The rest of a word, quoted from within a section that already holds some text. -/
theorem exists_blocks (text word : Text) (htext : '\'' ∉ text) :
    ∃ blocks : List Block,
      '\'' :: text ++ (word.flatMap quoteChar ++ ['\'']) = blocks.flatMap Block.written ∧
        blocks.flatMap Block.text = text ++ word := by
  induction word generalizing text with
  | nil => exact ⟨[.single text htext], by simp [Block.written], by simp [Block.text]⟩
  | cons c word ih =>
    by_cases hc : c = '\''
    · -- The section ends before the apostrophe, and an empty one begins after it.
      subst hc
      obtain ⟨blocks, hwritten, hblocks⟩ := ih [] List.not_mem_nil
      refine ⟨.single text htext :: .apostrophe :: blocks, ?_, ?_⟩
      · simp only [List.flatMap_cons, ← hwritten]
        simp [Block.written, quoteChar]
      · simp [Block.text, hblocks]
    · obtain ⟨blocks, hwritten, hblocks⟩ := ih (text ++ [c]) (by simp [htext, Ne.symm hc])
      refine ⟨blocks, ?_, ?_⟩
      · rw [← hwritten]
        simp [quoteChar, hc]
      · simp [hblocks]

/-! ### Places -/

def Block.place : Block → Place
  | single _ _ => .single
  | apostrophe => .double

theorem removeQuotes_single {text : Text} (htext : '\'' ∉ text) (rest : Text) :
    removeQuotes .single (text ++ '\'' :: rest) =
      text.map (·, .single) ++ removeQuotes .bare rest := by
  induction text with
  | nil => simp [removeQuotes]
  | cons c text ih =>
    obtain ⟨hc, htext⟩ := List.ne_and_not_mem_of_not_mem_cons htext
    simp [removeQuotes, hc.symm, ih htext]

theorem removeQuotes_block (block : Block) (rest : Text) :
    removeQuotes .bare (block.written ++ rest) =
      block.text.map (·, block.place) ++ removeQuotes .bare rest := by
  cases block with
  | single text htext =>
    have hsingle := removeQuotes_single htext rest
    simpa [Block.written, Block.text, Block.place, removeQuotes] using hsingle
  | apostrophe => rfl

theorem removeQuotes_blocks (blocks : List Block) :
    removeQuotes .bare (blocks.flatMap Block.written) =
      blocks.flatMap fun block => block.text.map (·, block.place) := by
  induction blocks with
  | nil => rfl
  | cons block blocks ih => rw [List.flatMap_cons, removeQuotes_block, ih, List.flatMap_cons]

theorem removeQuotes_safe {word : Text} (h : ∀ c ∈ word, SafeChar c) :
    removeQuotes .bare word = word.map (·, .bare) := by
  induction word with
  | nil => rfl
  | cons c word ih =>
    obtain ⟨hc, hword⟩ := List.forall_mem_cons.1 h
    have hquotes : c ≠ '\'' ∧ c ≠ '"' := by
      constructor
      · rintro rfl
        exact absurd hc (by unfold SafeChar; decide)
      · rintro rfl
        exact absurd hc (by unfold SafeChar; decide)
    simp [removeQuotes, hquotes, ih hword]

theorem Block.allows (block : Block) : ∀ c ∈ block.text, block.place.Allows c := by
  cases block with
  | single => exact fun _ _ => trivial
  | apostrophe => exact fun c hc => List.mem_singleton.1 hc

/-- A word is quoted as itself exactly if it is not empty and all its characters are safe. All other
words become a row of blocks whose texts, put together, are the word. When the quotes are removed
from a quoted word, the word is left, and none of its characters has stood where it could do harm. -/
theorem quote_blocks (word : Text) :
    (quote word = word ↔ SafeWord word) ∧
      (¬SafeWord word → ∃ blocks : List Block, quote word = blocks.flatMap Block.written ∧
        blocks.flatMap Block.text = word) ∧
      (removeQuotes .bare (quote word)).map Prod.fst = word ∧
      ∀ c place, (c, place) ∈ removeQuotes .bare (quote word) → place.Allows c := by
  have hblocks : ¬SafeWord word → ∃ blocks : List Block,
      quote word = blocks.flatMap Block.written ∧ blocks.flatMap Block.text = word := by
    intro hnot
    rw [quote_of_not_safeWord hnot]
    simpa using exists_blocks [] word List.not_mem_nil
  refine ⟨quote_eq_self_iff, hblocks, ?_⟩
  by_cases hsafe : SafeWord word
  · rw [quote_of_safeWord hsafe, removeQuotes_safe hsafe.2]
    refine ⟨by simp [Function.comp_def], fun c place hc => ?_⟩
    obtain ⟨_, hmem, ⟨⟩⟩ := List.mem_map.1 hc
    exact hsafe.2 c hmem
  · obtain ⟨blocks, hwritten, htext⟩ := hblocks hsafe
    rw [hwritten, removeQuotes_blocks]
    refine ⟨by simpa [List.map_flatMap, Function.comp_def] using htext, fun c place hc => ?_⟩
    obtain ⟨block, -, hc⟩ := List.mem_flatMap.1 hc
    obtain ⟨_, hmem, ⟨⟩⟩ := List.mem_map.1 hc
    exact block.allows c hmem

/-- The word is `'a''$`: its quoted form is `''"'"'a'"'"''"'"'$'`, with empty sections before the
first single quote and between the last two. -/
theorem quote_blocks_apostrophes :
    let word : Text := ['\'', 'a', '\'', '\'', '$']
    ¬SafeWord word ∧ ∃ blocks : List Block, blocks.flatMap Block.text = word ∧
      blocks.flatMap Block.written = "''\"'\"'a'\"'\"''\"'\"'$'".toList := by
  intro word
  have hnot : ¬SafeWord word := by
    intro h
    exact absurd (h.2 '$' (by decide)) (by unfold SafeChar; decide)
  obtain ⟨blocks, hwritten, htext⟩ := (quote_blocks word).2.1 hnot
  exact ⟨hnot, blocks, htext, hwritten.symm.trans (by decide)⟩

end ShellWords
