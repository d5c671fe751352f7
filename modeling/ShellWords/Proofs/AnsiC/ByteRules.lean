import ShellWords.Proofs.Buffer.Sound
import ShellWords.Proofs.Digits.UInt32
import ShellWords.Proofs.Size

/-! The rules of ANSI-C sections in bytes. A rule in bytes tells how many bytes its escape takes,
cuts its text at a number of characters as if it were a number of bytes, and reads numerals into 32
bits, so that it could fault, or drop an escape that is too large. `forall₂_byteRules` says that
each rule reads what the rule in characters reads, and always without a fault; so the escapes end
between two characters (`sound_of_mem_byteRules`). -/

namespace ShellWords.Escape.AnsiC

structure ByteDecoded where
  char : Char
  /-- The number of bytes of the escape, its escape character not counted. -/
  size : Nat
deriving DecidableEq, Repr

/-- A form of escape that is read by cutting its text at offsets. -/
abbrev ByteRule := (escape : Char) → (text : Text) → Except Fault (Option ByteDecoded)

def isOctalDigit (c : Char) : Bool :=
  '0' ≤ c && c ≤ '7'

def isHexDigit (c : Char) : Bool :=
  '0' ≤ c && c ≤ '9' || 'a' ≤ c && c ≤ 'f' || 'A' ≤ c && c ≤ 'F'

/-- The characters at the front of a text that `accepts` accepts, at most `limit` of them. It is
their number at which the text is cut. -/
def leading (limit : Nat) (accepts : Char → Bool) (text : Text) : Except Fault Text := do
  let (run, _) ← text.splitOff ((text.take limit).takeWhile accepts).length
  return run

/-- The character that a numeral denotes, and none if the numeral is not read. -/
def radixValue (base : Nat) (numeral : Text) : Option Char :=
  if numeral = [] then none
  else
    match Text.parseUInt32 base numeral with
    | .ok code => some (charOfCode code)
    | .error _ => none

def codePointInBytes (base limit : Nat) (accepts : Char → Bool) (text : Text) :
    Except Fault (Option ByteDecoded) := do
  let run ← leading limit accepts text
  return (radixValue base run).map (⟨·, Text.byteLength run⟩)

def literalInBytes : ByteRule := fun escape text =>
  .ok ((literal escape text).map fun decoded => ⟨decoded.char, decoded.char.utf8Size⟩)

def controlLetterInBytes : ByteRule := fun escape text =>
  .ok ((controlLetter escape text).map fun decoded => ⟨decoded.char, 1⟩)

def octalInBytes : ByteRule := fun _ text =>
  codePointInBytes 8 3 isOctalDigit text

def hexAfterInBytes (letter : Char) (limit : Nat) : ByteRule
  | _, c :: rest =>
    if c = letter then do
      let decoded? ← codePointInBytes 16 limit isHexDigit rest
      return decoded?.map fun decoded => { decoded with size := letter.utf8Size + decoded.size }
    else
      .ok none
  | _, [] => .ok none

/-- The operand may take any number of bytes, and its low five bits might be no code point. -/
def controlCharInBytes : ByteRule
  | _, 'c' :: c :: _ =>
    if c = '\n' ∨ c = '\r' ∨ c = '\u2028' ∨ c = '\u2029' then .ok none
    else if c = '?' then .ok (some ⟨'\x7f', 1 + c.utf8Size⟩)
    else if c = '@' then .ok (some ⟨'\x00', 1 + c.utf8Size⟩)
    else .ok ((Text.charOfCode? (c.toNat &&& 0x1f)).map (⟨·, 1 + c.utf8Size⟩))
  | _, _ => .ok none

def byteRules : List ByteRule :=
  [literalInBytes, controlLetterInBytes, octalInBytes, hexAfterInBytes 'x' 2,
    hexAfterInBytes 'u' 4, hexAfterInBytes 'U' 8, controlCharInBytes]

/-- What a rule reads in a text, with the bytes of its characters counted. -/
def Decoded.inBytes (text : Text) (decoded : Decoded) : ByteDecoded :=
  ⟨decoded.char, Text.byteLength (text.take decoded.used)⟩

/-- A rule in bytes that never faults and reads what a rule in characters reads. -/
def ByteRule.Agrees (byteRule : ByteRule) (rule : Rule) : Prop :=
  ∀ escape text, byteRule escape text = .ok ((rule escape text).map (Decoded.inBytes text))

/-! ### Numerals -/

theorem isOctalDigit_eq (c : Char) : isOctalDigit c = (Text.digit? 8 c).isSome := by
  rw [Text.digit?, Option.isSome_filter, Bool.eq_iff_iff]
  simp only [isOctalDigit, Text.digitValue?, Char.le_def, UInt32.le_iff_toNat_le,
    Char.toNat_val, Bool.and_eq_true, decide_eq_true_eq, Char.reduceToNat]
  grind

theorem isHexDigit_eq (c : Char) : isHexDigit c = (Text.digit? 16 c).isSome := by
  rw [Text.digit?, Option.isSome_filter, Bool.eq_iff_iff]
  simp only [isHexDigit, Text.digitValue?, Char.le_def, UInt32.le_iff_toNat_le,
    Char.toNat_val, Bool.and_eq_true, Bool.or_eq_true, decide_eq_true_eq, Char.reduceToNat]
  grind

section Numerals

variable {base limit : Nat} {accepts : Char → Bool}

/-- Only digits are accepted, so that the number of characters is a number of bytes. -/
theorem leading_eq (haccepts : ∀ c, accepts c = (Text.digit? base c).isSome) (limit : Nat)
    (text : Text) : leading limit accepts text = .ok (Text.digitRun base limit text) := by
  have hrun : (text.take limit).takeWhile accepts = Text.digitRun base limit text := by
    rw [funext haccepts, Text.digitRun]
  obtain ⟨rest, hrest⟩ := Text.digitRun_prefix base limit text
  have hcut := Text.splitOff_append (Text.digitRun base limit text) rest
  rw [hrest, Text.byteLength_of_digits (Text.forall₂_digitRun base limit text)] at hcut
  rw [leading, hrun, hcut]
  rfl

theorem codePointInBytes_eq (haccepts : ∀ c, accepts c = (Text.digit? base c).isSome)
    (hbase : 1 ≤ base) (hlimit : base ^ limit ≤ 2 ^ 32) (text : Text) :
    codePointInBytes base limit accepts text =
      .ok ((codePoint base limit text).map (Decoded.inBytes text)) := by
  have hread : (radixValue base (Text.digitRun base limit text)).map
      (ByteDecoded.mk · (Text.byteLength (Text.digitRun base limit text))) =
      (codePoint base limit text).map (Decoded.inBytes text) := by
    by_cases hne : Text.digits base limit text = []
    · rw [codePoint, hne, Text.digitRun_eq_nil_iff.2 hne]
      rfl
    · have hrun : Text.digitRun base limit text ≠ [] := mt Text.digitRun_eq_nil_iff.1 hne
      have htake : text.take (Text.digits base limit text).length =
          Text.digitRun base limit text := by
        rw [← Text.length_digitRun]
        exact (List.prefix_iff_eq_take.1 (Text.digitRun_prefix base limit text)).symm
      rw [codePoint_eq_some_iff.2 ⟨hne, rfl⟩, radixValue, if_neg hrun,
        Text.parseUInt32_digitRun hbase hlimit hrun]
      simp only [Option.map_some, Decoded.inBytes, htake]
  rw [codePointInBytes, leading_eq haccepts]
  exact congrArg Except.ok hread

end Numerals

/-! ### Rules -/

theorem literalInBytes_agrees : ByteRule.Agrees literalInBytes literal := by
  intro escape text
  unfold literalInBytes literal
  split
  · split <;> simp [Decoded.inBytes]
  · rfl

theorem controlLetterInBytes_agrees : ByteRule.Agrees controlLetterInBytes controlLetter := by
  intro escape text
  unfold controlLetterInBytes controlLetter
  split <;> rfl

theorem octalInBytes_agrees : ByteRule.Agrees octalInBytes octal :=
  fun _ text => codePointInBytes_eq isOctalDigit_eq (by decide) (by decide) text

/-- The longest numerals, of eight digits, are those of the numbers of 32 bits. -/
theorem hexAfterInBytes_agrees (letter : Char) {limit : Nat} (hlimit : limit ≤ 8) :
    ByteRule.Agrees (hexAfterInBytes letter limit) (hexAfter letter limit) := by
  have hfits : 16 ^ limit ≤ 2 ^ 32 := Nat.pow_le_pow_right (by decide) hlimit
  intro escape text
  cases text with
  | nil => rfl
  | cons c rest =>
    unfold hexAfterInBytes hexAfter
    by_cases hletter : c = letter
    · simp only [if_pos hletter, codePointInBytes_eq isHexDigit_eq (by decide) hfits]
      rw [hletter]
      cases codePoint 16 limit rest <;> rfl
    · simp only [if_neg hletter]
      rfl

theorem charOfCode?_and (c : Char) :
    Text.charOfCode? (c.toNat &&& 0x1f) = some (Char.ofNat (c.toNat % 32)) := by
  have hvalid : (c.toNat % 32).isValidChar :=
    .inl (Nat.lt_trans (Nat.mod_lt _ (by decide)) (by decide))
  rw [Nat.and_two_pow_sub_one_eq_mod c.toNat 5, Text.charOfCode?, if_pos hvalid]

theorem controlCharInBytes_agrees : ByteRule.Agrees controlCharInBytes controlChar := by
  intro escape text
  unfold controlCharInBytes
  split
  · rename_i c rest
    have hsize : Text.byteLength (List.take 2 ('c' :: c :: rest)) = 1 + c.utf8Size := rfl
    unfold controlChar
    by_cases hline : c = '\n' ∨ c = '\r' ∨ c = '\u2028' ∨ c = '\u2029'
    · simp only [if_pos hline, Option.map_none]
    by_cases hdelete : c = '?'
    · simp only [if_neg hline, if_pos hdelete, Option.map_some, Decoded.inBytes, hsize]
    by_cases hnul : c = '@'
    · rw [hnul]
      rfl
    · simp only [if_neg hline, if_neg hdelete, if_neg hnul, charOfCode?_and, Option.map_some,
        Decoded.inBytes, hsize]
  · rename_i hother
    have hnone : controlChar escape text = none := by
      unfold controlChar
      split
      · rename_i c rest
        exact absurd rfl (hother c rest)
      · rfl
    rw [hnone]
    rfl

theorem forall₂_byteRules : List.Forall₂ ByteRule.Agrees byteRules rules :=
  .cons literalInBytes_agrees <|
  .cons controlLetterInBytes_agrees <|
  .cons octalInBytes_agrees <|
  .cons (hexAfterInBytes_agrees 'x' (by decide)) <|
  .cons (hexAfterInBytes_agrees 'u' (by decide)) <|
  .cons (hexAfterInBytes_agrees 'U' (by decide)) <|
  .cons controlCharInBytes_agrees .nil

/-! ### Offsets -/

/-- What a rule may read in a text: some characters of it, told by an offset where it can be cut,
and a character with a code point. -/
structure ByteDecoded.Sound (decoded : ByteDecoded) (text : Text) : Prop where
  size_pos : 1 ≤ decoded.size
  size_le : decoded.size ≤ Text.byteLength text
  boundary : text.IsBoundary decoded.size
  scalar : decoded.char.toNat.isValidChar

/-- The digits at the front of a text are cut off without a fault and read without an error. -/
def ReadsNumeral (base limit : Nat) (accepts : Char → Bool) (text : Text) : Prop :=
  ∃ numeral, leading limit accepts text = .ok numeral ∧
    (numeral ≠ [] → ∃ code < 2 ^ 32, Text.parseUInt32 base numeral = .ok code)

section Rules

variable {escape : Char} {text : Text} {decoded : Decoded}

theorem codePoint_used_pos {base limit : Nat} (h : codePoint base limit text = some decoded) :
    1 ≤ decoded.used := by
  obtain ⟨hne, rfl⟩ := codePoint_eq_some_iff.1 h
  exact List.length_pos_iff.2 hne

theorem hexAfter_used_pos {letter : Char} {limit : Nat}
    (h : hexAfter letter limit escape text = some decoded) : 1 ≤ decoded.used := by
  unfold hexAfter at h
  split at h
  · split at h
    · obtain ⟨code, -, rfl⟩ := Option.map_eq_some_iff.1 h
      exact Nat.le_add_left 1 code.used
    · cases h
  · cases h

theorem used_pos_of_mem_rules {rule : Rule} (hrule : rule ∈ rules)
    (h : rule escape text = some decoded) : 1 ≤ decoded.used := by
  simp only [rules, List.mem_cons, List.not_mem_nil, or_false] at hrule
  rcases hrule with rfl | rfl | rfl | rfl | rfl | rfl | rfl
  · unfold literal at h
    split at h
    · split at h <;> cases h
      exact Nat.le_refl 1
    · cases h
  · unfold controlLetter at h
    split at h <;> cases h <;> exact Nat.le_refl 1
  · exact codePoint_used_pos h
  · exact hexAfter_used_pos h
  · exact hexAfter_used_pos h
  · exact hexAfter_used_pos h
  · unfold controlChar at h
    split at h
    · split at h
      · cases h
      · split at h <;> cases h <;> exact Nat.le_succ 1
    · cases h

/-- A rule takes at least one character and no more than there are, so that it takes at least one
byte and stops between two characters. -/
theorem sound_inBytes {rule : Rule} (hrule : rule ∈ rules) (h : rule escape text = some decoded) :
    (decoded.inBytes text).Sound text where
  size_pos := by
    have hused := used_pos_of_mem_rules hrule h
    have hlength := (fits_of_mem_rules hrule h).used_le
    have htake := Text.length_le_byteLength (text.take decoded.used)
    rw [List.length_take, Nat.min_eq_left hlength] at htake
    exact Nat.le_trans hused htake
  size_le := by
    have hsum := Text.byteLength_take_add_drop decoded.used text
    show Text.byteLength (text.take decoded.used) ≤ Text.byteLength text
    omega
  boundary :=
    ⟨text.take decoded.used, text.drop decoded.used, (List.take_append_drop _ _).symm, rfl⟩
  scalar := decoded.char.valid

theorem exists_agrees {byteRule : ByteRule} (h : byteRule ∈ byteRules) :
    ∃ rule ∈ rules, byteRule.Agrees rule := by
  obtain ⟨i, hi, rfl⟩ := List.mem_iff_getElem.1 h
  obtain ⟨hlength, hagrees⟩ := List.forall₂_iff_get.1 forall₂_byteRules
  exact ⟨_, List.getElem_mem (hlength ▸ hi), hagrees i hi (hlength ▸ hi)⟩

theorem sound_of_mem_byteRules {byteRule : ByteRule} (hrule : byteRule ∈ byteRules)
    (escape : Char) (text : Text) :
    ∃ decoded?, byteRule escape text = .ok decoded? ∧
      ∀ decoded ∈ decoded?, decoded.Sound text := by
  obtain ⟨rule, hmem, hagrees⟩ := exists_agrees hrule
  refine ⟨_, hagrees escape text, fun decoded hdecoded => ?_⟩
  obtain ⟨read, hread, rfl⟩ := Option.map_eq_some_iff.1 hdecoded
  exact sound_inBytes hmem hread

theorem readsNumeral {base limit : Nat} {accepts : Char → Bool}
    (haccepts : ∀ c, accepts c = (Text.digit? base c).isSome) (hbase : 1 ≤ base)
    (hlimit : base ^ limit ≤ 2 ^ 32) (text : Text) : ReadsNumeral base limit accepts text :=
  ⟨_, leading_eq haccepts limit text, fun hne =>
    ⟨_, Nat.lt_of_lt_of_le (Text.ofDigits_digits_lt hbase limit text) hlimit,
      Text.parseUInt32_digitRun hbase hlimit hne⟩⟩

end Rules

end ShellWords.Escape.AnsiC
