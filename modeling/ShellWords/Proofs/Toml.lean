import ShellWords.Proofs.Reader
import ShellWords.Toml.Parser

/-! TOML is read as it is written: a basic string as the text that is spelled in it, in whatever way
each character is (`Spells`), and a bare or quoted key as the name that it writes. Pairs of names
and values define the table that has them, if no name comes twice. -/

namespace ShellWords.Toml

open Reader

/-! ### Strings -/

/-- The letters that a backslash makes another character of, and that character. -/
def letters : List (Char × Char) :=
  [('b', '\x08'), ('t', '\t'), ('n', '\n'), ('f', '\x0c'), ('r', '\r'), ('"', '"'), ('\\', '\\')]

/-- The ways to write a character in a basic string: as it is, by a letter, or by its code point in
four or in eight digits. -/
inductive Spells (c : Char) : Text → Prop where
  | raw (hshown : c = '\t' ∨ 32 ≤ c.toNat ∧ c.toNat ≠ 127) (hquote : c ≠ '"')
    (hbackslash : c ≠ '\\') : Spells c [c]
  | letter {letter : Char} (h : (letter, c) ∈ letters) : Spells c ['\\', letter]
  | short {hex : Text} (h : Text.Numeral 16 4 c.toNat hex) : Spells c ('\\' :: 'u' :: hex)
  | long {hex : Text} (h : Text.Numeral 16 8 c.toNat hex) : Spells c ('\\' :: 'U' :: hex)

theorem isBasic_iff {c : Char} :
    isBasic c = true ↔ (c = '\t' ∨ 32 ≤ c.toNat ∧ c.toNat ≠ 127) ∧ c ≠ '"' ∧ c ≠ '\\' := by
  simp [isBasic, isShown, and_assoc]

theorem exists_spells (c : Char) : ∃ spelled, Spells c spelled := by
  have hcode : c.toNat < 16 ^ 8 := by
    have hvalid : c.toNat < 0xd800 ∨ 0xdfff < c.toNat ∧ c.toNat < 0x110000 := c.valid
    omega
  obtain ⟨hex, hhex⟩ := Text.exists_numeral hcode
  exact ⟨_, .long hhex⟩

theorem codePoint_numeral {c : Char} {width : Nat} {hex : Text}
    (h : Text.Numeral 16 width c.toNat hex) (rest : Text) :
    codePoint width (hex ++ rest) = some (c, rest) := by
  rw [codePoint, bind_of_some (digits_numeral h (Nat.le_refl _) rest), Text.charOfCode?_toNat]
  rfl

theorem escape_letter {letter c : Char} (h : (letter, c) ∈ letters) (rest : Text) :
    escape ('\\' :: letter :: rest) = some (c, rest) := by
  simp only [letters, List.mem_cons, Prod.mk.injEq, List.not_mem_nil, or_false] at h
  rcases h with ⟨rfl, rfl⟩ | ⟨rfl, rfl⟩ | ⟨rfl, rfl⟩ | ⟨rfl, rfl⟩ | ⟨rfl, rfl⟩ | ⟨rfl, rfl⟩ |
    ⟨rfl, rfl⟩
  all_goals rfl

/-- A character is read as it is spelled. -/
theorem Spells.reads {c : Char} {spelled : Text} (h : Spells c spelled) :
    spelled ≠ [] ∧ ∀ rest, (satisfy isBasic <|> escape) (spelled ++ rest) = some (c, rest) := by
  cases h with
  | raw hshown hquote hbackslash =>
    have hbasic := isBasic_iff.2 ⟨hshown, hquote, hbackslash⟩
    exact ⟨List.cons_ne_nil _ _, fun rest => orElse_of_some (if_pos hbasic)⟩
  | letter hletter =>
    refine ⟨List.cons_ne_nil _ _, fun rest => ?_⟩
    rw [orElse_of_none rfl]
    exact escape_letter hletter rest
  | short hhex | long hhex =>
    refine ⟨List.cons_ne_nil _ _, fun rest => ?_⟩
    rw [orElse_of_none rfl]
    exact codePoint_numeral hhex rest

/-- A basic string is read as the text that is spelled between its quotes. -/
theorem basicString_spelled {text written : Text} (h : Text.Spelled Spells text written)
    (rest : Text) : basicString ('"' :: (written ++ '"' :: rest)) = some (text, rest) := by
  have htakes : Takes (satisfy isBasic <|> escape) (written ++ '"' :: rest) text ('"' :: rest) :=
    takes_spelled Spells.reads rfl h
  rw [basicString, bind_of_some (char_self _ _), bind_of_some htakes.many_eq,
    bind_of_some (char_self _ _)]
  rfl

/-- No written character starts with a quote. -/
theorem Spells.head_ne {c : Char} {spelled : Text} (h : Spells c spelled) (more : Text) :
    ∃ first rest, spelled ++ more = first :: rest ∧ first ≠ '"' := by
  cases h with
  | raw _ hquote _ => exact ⟨c, more, rfl, hquote⟩
  | letter | short | long => exact ⟨_, _, rfl, by decide⟩

/-- A basic string is not taken for the beginning of one between tripled quotes. -/
theorem multilineBasicString_spelled {text written rest : Text}
    (h : Text.Spelled Spells text written) (hrest : rest.head? ≠ some '"') :
    multilineBasicString ('"' :: (written ++ '"' :: rest)) = none := by
  have hprefix : ['"', '"', '"'].isPrefixOf ('"' :: (written ++ '"' :: rest)) = false := by
    cases h with
    | nil =>
      cases rest with
      | nil => rfl
      | cons c rest =>
        have hc : ('"' == c) = false :=
          beq_eq_false_iff_ne.2 fun heq => hrest (congrArg some heq.symm)
        simp [List.isPrefixOf, hc]
    | @cons c spelled text written hc =>
      obtain ⟨first, more, heq, hfirst⟩ := hc.head_ne (written ++ '"' :: rest)
      rw [List.append_assoc, heq]
      simp [List.isPrefixOf, hfirst.symm]
  have hdelimiter : literal ['"', '"', '"'] ('"' :: (written ++ '"' :: rest)) = none := by
    rw [literal, hprefix]
    rfl
  exact bind_of_none hdelimiter _

theorem string_spelled {text written rest : Text} (h : Text.Spelled Spells text written)
    (hrest : rest.head? ≠ some '"') :
    string ('"' :: (written ++ '"' :: rest)) = some (text, rest) := by
  rw [string, orElse_of_none (multilineBasicString_spelled h hrest)]
  exact orElse_of_some (basicString_spelled h rest)

/-! ### Keys -/

theorem blanks_eq (text : Text) : blanks text = some ((), text.dropWhile isBlank) :=
  bind_of_some (takeWhile_eq isBlank text) _

/-- The ways to write a name in a pair: as it is, if all its characters may stand in keys, or as a
basic string. -/
inductive WritesKey (name : Text) : Text → Prop where
  | bare (hne : name ≠ []) (h : ∀ c ∈ name, c.isAlphanum ∨ c = '_' ∨ c = '-') : WritesKey name name
  | quoted {written : Text} (h : Text.Spelled Spells name written) :
    WritesKey name ('"' :: written ++ ['"'])

/-- A key starts with a quote or with a character that may stand in keys. -/
def StartsKey (c : Char) : Prop :=
  c = '"' ∨ isBareKeyChar c = true

theorem StartsKey.ne {c d : Char} (h : StartsKey c) (hquote : d ≠ '"')
    (hd : isBareKeyChar d = false) : c ≠ d := by
  rintro rfl
  rcases h with h | h
  · exact hquote h
  · rw [hd] at h
    cases h

theorem StartsKey.isBlank_eq {c : Char} (h : StartsKey c) : isBlank c = false := by
  rw [isBlank, Bool.or_eq_false_iff, beq_eq_false_iff_ne, beq_eq_false_iff_ne]
  exact ⟨h.ne (by decide) rfl, h.ne (by decide) rfl⟩

theorem StartsKey.dropWhile_cons {c : Char} (h : StartsKey c) (rest : Text) :
    (c :: rest).dropWhile isBlank = c :: rest :=
  List.dropWhile_cons_of_neg (by simp [h.isBlank_eq])

theorem isBareKeyChar_iff {c : Char} :
    isBareKeyChar c = true ↔ c.isAlphanum ∨ c = '_' ∨ c = '-' := by
  simp [isBareKeyChar, or_assoc]

theorem WritesKey.head {name key : Text} (h : WritesKey name key) :
    ∃ first rest, key = first :: rest ∧ StartsKey first := by
  cases h with
  | bare hne hchars =>
    obtain ⟨first, rest, rfl⟩ := List.exists_cons_of_ne_nil hne
    exact ⟨first, rest, rfl, .inr (isBareKeyChar_iff.2 (hchars first List.mem_cons_self))⟩
  | quoted => exact ⟨_, _, rfl, .inl rfl⟩

/-- A text of blanks. -/
def Blank (text : Text) : Prop :=
  ∀ c ∈ text, c = ' ' ∨ c = '\t'

theorem blank_nil : Blank [] :=
  nofun

theorem Blank.dropWhile_append {blank : Text} (h : Blank blank) (rest : Text) :
    (blank ++ rest).dropWhile isBlank = rest.dropWhile isBlank :=
  List.dropWhile_append_of_pos fun c hc => by simpa [isBlank] using h c hc

theorem Blank.blanks_append {blank : Text} (h : Blank blank) {c : Char} (hc : isBlank c = false)
    (rest : Text) : blanks (blank ++ c :: rest) = some ((), c :: rest) := by
  rw [blanks_eq, h.dropWhile_append, List.dropWhile_cons_of_neg (by simp [hc])]

theorem takeWhile1_bareKey {name blank : Text} (hne : name ≠ [])
    (h : ∀ c ∈ name, isBareKeyChar c = true) (hblank : Blank blank) (rest : Text) :
    takeWhile1 isBareKeyChar (name ++ (blank ++ '=' :: rest)) =
      some (name, blank ++ '=' :: rest) := by
  have hstop : (blank ++ '=' :: rest).takeWhile isBareKeyChar = [] ∧
      (blank ++ '=' :: rest).dropWhile isBareKeyChar = blank ++ '=' :: rest := by
    cases blank with
    | nil => exact ⟨rfl, rfl⟩
    | cons c blank =>
      obtain rfl | rfl := hblank c List.mem_cons_self
      · exact ⟨rfl, rfl⟩
      · exact ⟨rfl, rfl⟩
  have htaken : takeWhile isBareKeyChar (name ++ (blank ++ '=' :: rest)) =
      some (name, blank ++ '=' :: rest) := by
    rw [takeWhile_eq, List.takeWhile_append_of_pos h, List.dropWhile_append_of_pos h, hstop.1,
      hstop.2, List.append_nil]
  rw [takeWhile1, bind_of_some htaken]
  obtain ⟨c, name, rfl⟩ := List.exists_cons_of_ne_nil hne
  rfl

/-- A key is read as the name that it writes, with the blanks before its equals sign. -/
theorem keyPart_written {name written blank : Text} (h : WritesKey name written)
    (hblank : Blank blank) (rest : Text) :
    keyPart (written ++ (blank ++ '=' :: rest)) = some (name, '=' :: rest) := by
  have hname : (basicString <|> literalString <|> takeWhile1 isBareKeyChar)
      (written ++ (blank ++ '=' :: rest)) = some (name, blank ++ '=' :: rest) := by
    cases h with
    | bare hne hchars =>
      have hbare := takeWhile1_bareKey hne (fun c hc => isBareKeyChar_iff.2 (hchars c hc)) hblank
        rest
      obtain ⟨first, more, rfl⟩ := List.exists_cons_of_ne_nil hne
      have hfirst : isBareKeyChar first = true :=
        isBareKeyChar_iff.2 (hchars first List.mem_cons_self)
      have hquote : first ≠ '"' := by
        rintro rfl
        cases hfirst
      have happostrophe : first ≠ '\'' := by
        rintro rfl
        cases hfirst
      rw [List.cons_append] at hbare ⊢
      have hbasic : basicString (first :: (more ++ (blank ++ '=' :: rest))) = none :=
        bind_of_none (char_of_ne hquote _) _
      have hliteral : literalString (first :: (more ++ (blank ++ '=' :: rest))) = none :=
        bind_of_none (char_of_ne happostrophe _) _
      rw [orElse_of_none hbasic, orElse_of_none hliteral]
      exact hbare
    | @quoted spelled hspelled =>
      have hstring := basicString_spelled hspelled (blank ++ '=' :: rest)
      simpa only [List.cons_append, List.append_assoc, List.nil_append] using orElse_of_some hstring
  have hstart : blanks (written ++ (blank ++ '=' :: rest)) =
      some ((), written ++ (blank ++ '=' :: rest)) := by
    obtain ⟨first, more, rfl, hfirst⟩ := h.head
    rw [blanks_eq, List.cons_append, hfirst.dropWhile_cons]
  exact seqLeft_of_some ((seqRight_of_some hstart _).trans hname) (hblank.blanks_append rfl rest)

theorem key_written {name written blank : Text} (h : WritesKey name written)
    (hblank : Blank blank) (rest : Text) :
    key (written ++ (blank ++ '=' :: rest)) = some (⟨[], name⟩, '=' :: rest) := by
  have hparts : sepBy1 keyPart (char '.') (written ++ (blank ++ '=' :: rest)) =
      some ([name], '=' :: rest) :=
    (bind_of_some (keyPart_written h hblank rest) _).trans
      (bind_of_some (Takes.many_eq (.stop rfl)) _)
  rw [key, bind_of_some hparts]
  rfl

/-! ### Tables -/

/-- The statement of a pair whose key has a single part. -/
def Statement.ofPair (pair : Text × Value) : Statement :=
  .pair ⟨[], pair.1⟩ pair.2

theorem add?_ofPair (entries : Entries) (pair : Text × Value) :
    Definitions.add? { entries } (.ofPair pair) =
      (entries.add? pair.1 pair.2).map fun entries => { entries } := by
  -- there are no tables on the way to a key that has a single part
  have hadd : entries.addPair? ⟨[], pair.1⟩ pair.2 = entries.add? pair.1 pair.2 := rfl
  show (entries.addPair? ⟨[], pair.1⟩ pair.2).bind (fun entries =>
    some ({ entries } : Definitions)) = _
  rw [hadd]
  cases entries.add? pair.1 pair.2 with
  | none => rfl
  | some after => rfl

theorem add?_eq (entries : Entries) (pair : Text × Value) :
    entries.add? pair.1 pair.2 =
      if pair.1 ∈ entries.map Prod.fst then none else some (entries ++ [pair]) := by
  unfold Entries.add?
  split_ifs with hmem
  · obtain ⟨entry, hentry, hname⟩ := List.mem_map.1 hmem
    obtain ⟨value, hvalue⟩ : ∃ value, entries.lookup pair.1 = some value :=
      Option.isSome_iff_exists.1 (List.lookup_isSome_iff.2 ⟨entry, hentry, beq_iff_eq.2 hname.symm⟩)
    rw [hvalue]
  · have hnone : entries.lookup pair.1 = none :=
      List.lookup_eq_none_iff.2 fun entry hentry =>
        bne_iff_ne.2 fun hname => hmem (hname ▸ List.mem_map_of_mem hentry)
    rw [hnone]

/-- Pairs are added to a table one by one, until a name comes that the table has. -/
theorem foldlM_ofPair {entries : Entries} (h : (entries.map Prod.fst).Nodup)
    (pairs : List (Text × Value)) :
    (pairs.map Statement.ofPair).foldlM Definitions.add? { entries } =
      if ((entries ++ pairs).map Prod.fst).Nodup then some { entries := entries ++ pairs }
      else none := by
  induction pairs generalizing entries with
  | nil =>
    rw [List.append_nil, if_pos h]
    rfl
  | cons pair pairs ih =>
    rw [List.map_cons, List.foldlM_cons, add?_ofPair, add?_eq]
    by_cases hmem : pair.1 ∈ entries.map Prod.fst
    · have hnodup : ¬((entries ++ pair :: pairs).map Prod.fst).Nodup := by
        rw [List.map_append, List.map_cons, List.nodup_append]
        exact fun hnodup => hnodup.2.2 _ hmem _ List.mem_cons_self rfl
      rw [if_pos hmem, if_neg hnodup]
      rfl
    · have hadded : ((entries ++ [pair]).map Prod.fst).Nodup := by
        rw [List.map_append, List.map_singleton, List.nodup_append]
        refine ⟨h, List.pairwise_singleton _ _, fun name hname other hother => ?_⟩
        rw [List.mem_singleton.1 hother]
        exact fun heq => hmem (heq ▸ hname)
      have hrest := ih hadded
      rw [List.append_assoc, List.singleton_append] at hrest
      rw [if_neg hmem]
      exact hrest

/-- A table has the pairs that are stated, provided that no name is stated twice. -/
theorem define?_ofPair (pairs : List (Text × Value)) :
    define? (pairs.map Statement.ofPair) =
      if (pairs.map Prod.fst).Nodup then some pairs else none := by
  have hfold := @foldlM_ofPair [] List.nodup_nil pairs
  rw [List.nil_append] at hfold
  rw [define?, hfold]
  split <;> rfl

end ShellWords.Toml
