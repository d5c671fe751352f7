import ShellWords.Config
import ShellWords.Text.Digit

/-! Escapes in ANSI-C sections. Each form of escape is a rule that reads the text after the escape
character; `AnsiC.decode` replaces every escape that some rule reads and copies the rest. -/

namespace ShellWords.Escape.AnsiC

structure Decoded where
  char : Char
  /-- The number of characters of the escape, its escape character not counted. -/
  used : Nat
deriving DecidableEq, Repr

/-- A form of escape: reads the text after an escape character, which it is also given. -/
abbrev Rule := (escape : Char) → (text : Text) → Option Decoded

/-- A backslash, a quote, a question mark and the escape character itself stand for themselves. -/
def literal : Rule
  | escape, c :: _ =>
    if c = '\\' ∨ c = '\'' ∨ c = '"' ∨ c = '?' ∨ c = escape then some ⟨c, 1⟩ else none
  | _, [] => none

/-- A letter that names a control character. -/
def controlLetter : Rule
  | _, 'a' :: _ => some ⟨'\x07', 1⟩
  | _, 'b' :: _ => some ⟨'\x08', 1⟩
  | _, 'e' :: _ => some ⟨'\x1b', 1⟩
  | _, 'E' :: _ => some ⟨'\x1b', 1⟩
  | _, 'f' :: _ => some ⟨'\x0c', 1⟩
  | _, 'n' :: _ => some ⟨'\n', 1⟩
  | _, 'r' :: _ => some ⟨'\r', 1⟩
  | _, 't' :: _ => some ⟨'\t', 1⟩
  | _, 'v' :: _ => some ⟨'\x0b', 1⟩
  | _, _ => none

/-- The character with a code point, U+FFFD if there is none. -/
def charOfCode (code : Nat) : Char :=
  (Text.charOfCode? code).getD '\uFFFD'

/-- One to `limit` digits, as many as there are, that denote a code point. -/
def codePoint (base limit : Nat) (text : Text) : Option Decoded :=
  match Text.digits base limit text with
  | [] => none
  | values => some ⟨charOfCode (Text.ofDigits base values), values.length⟩

def octal : Rule
  | _, text => codePoint 8 3 text

/-- A letter followed by one to `limit` hexadecimal digits. -/
def hexAfter (letter : Char) (limit : Nat) : Rule
  | _, c :: rest =>
    if c = letter then
      (codePoint 16 limit rest).map fun decoded => { decoded with used := decoded.used + 1 }
    else
      none
  | _, [] => none

/-- The control character of `c` followed by a character, which keeps the low five bits of it.
A line end has none. -/
def controlChar : Rule
  | _, 'c' :: c :: _ =>
    if c = '\n' ∨ c = '\r' ∨ c = '\u2028' ∨ c = '\u2029' then none
    else if c = '?' then some ⟨'\x7f', 2⟩
    else some ⟨Char.ofNat (c.toNat % 32), 2⟩
  | _, _ => none

/-- All forms of escape; of two that read the same text, the earlier counts. -/
def rules : List Rule :=
  [literal, controlLetter, octal, hexAfter 'x' 2, hexAfter 'u' 4, hexAfter 'U' 8, controlChar]

/-- Reads the escape at the front of the text after an escape character. -/
def read? (escape : Char) (text : Text) : Option Decoded :=
  rules.findSome? fun rule => rule escape text

def escapeAfter? (config : Config) (c : Char) (text : Text) : Option Decoded :=
  if config.isEscape c then read? c text else none

/-- Replaces every escape that a rule reads. An escape character that begins no escape is copied,
and reading goes on right after it. -/
def decode (config : Config) : Text → Text
  | [] => []
  | c :: rest =>
    match escapeAfter? config c rest with
    | some decoded => decoded.char :: decode config (rest.drop decoded.used)
    | none => c :: decode config rest
termination_by text => text.length
decreasing_by all_goals simp only [List.length_drop, List.length_cons]; omega

section Decode

variable {config : Config} {c : Char} {text : Text} {decoded : Decoded}

theorem escapeAfter?_of_mem (h : c ∈ config.escapes) (text : Text) :
    escapeAfter? config c text = read? c text :=
  if_pos (List.contains_iff_mem.2 h)

theorem escapeAfter?_of_not_mem (h : c ∉ config.escapes) (text : Text) :
    escapeAfter? config c text = none :=
  if_neg fun hescape => h (List.contains_iff_mem.1 hescape)

theorem mem_of_escapeAfter? (h : escapeAfter? config c text = some decoded) :
    c ∈ config.escapes := by
  by_cases hmem : c ∈ config.escapes
  · exact hmem
  · rw [escapeAfter?_of_not_mem hmem] at h
    cases h

theorem decode_of_some (h : escapeAfter? config c text = some decoded) :
    decode config (c :: text) = decoded.char :: decode config (text.drop decoded.used) := by
  rw [decode, h]

theorem decode_of_none (h : escapeAfter? config c text = none) :
    decode config (c :: text) = c :: decode config text := by
  rw [decode, h]

/-- Of a configuration only the escape characters matter. -/
theorem decode_congr {config' : Config} (h : config'.isEscape = config.isEscape) (raw : Text) :
    decode config' raw = decode config raw := by
  have hafter : escapeAfter? config' = escapeAfter? config := by
    funext c text
    rw [escapeAfter?, escapeAfter?, h]
  fun_induction decode config raw with
  | case1 => simp [decode]
  | case2 c rest decoded hread ih => rw [decode_of_some (hafter ▸ hread), ih]
  | case3 c rest hread ih => rw [decode_of_none (hafter ▸ hread), ih]

end Decode

end ShellWords.Escape.AnsiC
