import ShellWords.Proofs.AnsiC.ByteRules

/-! A decoder of ANSI-C sections that goes through its text in rounds. Each round cuts off what it
has read at an offset that a rule in bytes tells, and would fault if that offset were inside a
character or past the end of the text. No round does, and there are no more rounds than characters:
`byteDecoder_sound`. -/

namespace ShellWords.Escape.AnsiC

/-- The decoder between two rounds. -/
structure ByteDecoder where
  out : Text := []
  /-- The text that is still to be read. -/
  rest : Text
deriving DecidableEq, Repr

/-- The first escape that one of the rules reads. -/
def firstInBytes (escape : Char) (text : Text) :
    List ByteRule → Except Fault (Option ByteDecoded)
  | [] => return none
  | rule :: rules => do
    match ← rule escape text with
    | some decoded => return some decoded
    | none => firstInBytes escape text rules

def escapeInBytes? (config : Config) (c : Char) (text : Text) :
    Except Fault (Option ByteDecoded) :=
  if config.isEscape c then firstInBytes c text byteRules else return none

namespace ByteDecoder

/-- Decodes what begins with the character `c`, which is the first one of the rest. -/
def round (config : Config) (c : Char) (decoder : ByteDecoder) : Except Fault ByteDecoder := do
  let (_, after) ← decoder.rest.splitOff c.utf8Size
  match ← escapeInBytes? config c after with
  | some decoded => do
    let (_, rest) ← after.splitOff decoded.size
    return { out := decoder.out ++ [decoded.char], rest }
  | none => return { out := decoder.out ++ [c], rest := after }

/-- Decodes in at most `limit` rounds. There is no result if some of the text is left after them. -/
def decodeWithin (config : Config) : (limit : Nat) → ByteDecoder → Except Fault (Option Text)
  | 0, decoder => return if decoder.rest = [] then some decoder.out else none
  | limit + 1, decoder =>
    match decoder.rest with
    | [] => return some decoder.out
    | c :: _ => do decodeWithin config limit (← decoder.round config c)

end ByteDecoder

/-! ### Rounds -/

theorem firstInBytes_eq {byteRules : List ByteRule} {rules : List Rule}
    (h : List.Forall₂ ByteRule.Agrees byteRules rules) (escape : Char) (text : Text) :
    firstInBytes escape text byteRules =
      .ok ((rules.findSome? fun rule => rule escape text).map (Decoded.inBytes text)) := by
  induction h with
  | nil => rfl
  | @cons byteRule rule byteRules rules hagrees _ ih =>
    rw [firstInBytes, hagrees escape text, List.findSome?_cons]
    cases rule escape text with
    | some decoded => rfl
    | none => exact ih

theorem escapeInBytes?_eq (config : Config) (c : Char) (text : Text) :
    escapeInBytes? config c text =
      .ok ((escapeAfter? config c text).map (Decoded.inBytes text)) := by
  unfold escapeInBytes? escapeAfter?
  split
  · exact firstInBytes_eq forall₂_byteRules c text
  · rfl

namespace ByteDecoder

variable {config : Config} {c : Char} {rest : Text}

theorem splitOff_head (c : Char) (rest : Text) :
    Text.splitOff c.utf8Size (c :: rest) = .ok ([c], rest) :=
  Text.splitOff_append [c] rest

theorem splitOff_inBytes (decoded : Decoded) (text : Text) :
    text.splitOff (decoded.inBytes text).size =
      .ok (text.take decoded.used, text.drop decoded.used) := by
  have hcut := Text.splitOff_append (text.take decoded.used) (text.drop decoded.used)
  rwa [List.take_append_drop] at hcut

/-- A round takes an escape that a rule reads as one character, however long it is. -/
theorem round_of_some {decoded : Decoded} (h : escapeAfter? config c rest = some decoded)
    (out : Text) :
    round config c ⟨out, c :: rest⟩ =
      .ok ⟨out ++ [decoded.char], rest.drop decoded.used⟩ := by
  simp only [round, splitOff_head, escapeInBytes?_eq, h, Option.map_some, bind, Except.bind,
    splitOff_inBytes]
  rfl

theorem round_of_none (h : escapeAfter? config c rest = none) (out : Text) :
    round config c ⟨out, c :: rest⟩ = .ok ⟨out ++ [c], rest⟩ := by
  simp only [round, splitOff_head, escapeInBytes?_eq, h, Option.map_none, bind, Except.bind]
  rfl

theorem decodeWithin_succ (config : Config) (limit : Nat) (out : Text) (c : Char) (rest : Text) :
    decodeWithin config (limit + 1) ⟨out, c :: rest⟩ =
      round config c ⟨out, c :: rest⟩ >>= decodeWithin config limit := rfl

/-- A round for each character is enough. -/
theorem decodeWithin_eq (config : Config) (rest : Text) (out : Text) {limit : Nat}
    (hlimit : rest.length ≤ limit) :
    decodeWithin config limit ⟨out, rest⟩ = .ok (some (out ++ decode config rest)) := by
  fun_induction decode config rest generalizing out limit with
  | case1 =>
    rw [List.append_nil]
    cases limit <;> rfl
  | case2 c rest decoded hread ih =>
    cases limit with
    | zero => exact absurd hlimit (Nat.not_succ_le_zero _)
    | succ limit =>
      -- The escape character pays for the round, whatever the escape takes after it.
      have hrest : (rest.drop decoded.used).length ≤ limit := by
        rw [List.length_cons] at hlimit
        rw [List.length_drop]
        omega
      rw [decodeWithin_succ, round_of_some hread,
        List.append_cons out decoded.char (decode config (rest.drop decoded.used))]
      exact ih _ hrest
  | case3 c rest hread ih =>
    cases limit with
    | zero => exact absurd hlimit (Nat.not_succ_le_zero _)
    | succ limit =>
      rw [decodeWithin_succ, round_of_none hread, List.append_cons out c (decode config rest)]
      exact ih _ (Nat.le_of_succ_le_succ hlimit)

end ByteDecoder

/-- The rules in bytes read what the rules in characters read, without a fault; what they read ends
where the text can be cut; no numeral is too large for 32 bits; and the decoder gives the decoded
text in no more rounds than there are characters. -/
theorem byteDecoder_sound :
    List.Forall₂ ByteRule.Agrees byteRules rules ∧
      (∀ byteRule ∈ byteRules, ∀ escape text, ∃ decoded?,
        byteRule escape text = .ok decoded? ∧ ∀ decoded ∈ decoded?, decoded.Sound text) ∧
      (∀ text, ReadsNumeral 8 3 isOctalDigit text) ∧
      (∀ limit ≤ 8, ∀ text, ReadsNumeral 16 limit isHexDigit text) ∧
      ∀ config raw limit, raw.length ≤ limit →
        ByteDecoder.decodeWithin config limit { rest := raw } = .ok (some (decode config raw)) := by
  refine ⟨forall₂_byteRules, fun byteRule hrule => sound_of_mem_byteRules hrule,
    readsNumeral isOctalDigit_eq (by decide) (by decide), fun limit hlimit => ?_,
    fun config raw limit hlimit => ?_⟩
  · have hfits : 16 ^ limit ≤ 2 ^ 32 := Nat.pow_le_pow_right (by decide) hlimit
    exact readsNumeral isHexDigit_eq (by decide) hfits
  · exact ByteDecoder.decodeWithin_eq config raw [] hlimit

/-- The text is `\c€\UFFFFFFFFé`. The operand of its control escape takes three bytes, and the
number after it is the largest one of 32 bits, which is no code point. -/
theorem byteDecoder_sound_wide_operand :
    let raw : Text := ['\\', 'c', '€', '\\', 'U', 'F', 'F', 'F', 'F', 'F', 'F', 'F', 'F', 'é']
    controlCharInBytes ∈ byteRules ∧
      controlCharInBytes '\\' (raw.drop 1) = .ok (some ⟨'\x0c', 4⟩) ∧
      ByteDecoded.Sound ⟨'\x0c', 4⟩ (raw.drop 1) ∧
      ReadsNumeral 16 8 isHexDigit (raw.drop 5) ∧
      ByteDecoder.decodeWithin {} 14 { rest := raw } = .ok (some ['\x0c', '\uFFFD', 'é']) := by
  intro raw
  have hrule : controlCharInBytes ∈ byteRules := by simp [byteRules]
  have hread : controlCharInBytes '\\' (raw.drop 1) = .ok (some ⟨'\x0c', 4⟩) := by decide
  have hdecode : decode {} raw = ['\x0c', '\uFFFD', 'é'] := by cbv
  obtain ⟨-, hsound, -, hnumeral, hdecoder⟩ := byteDecoder_sound
  obtain ⟨decoded?, hdecoded, hfits⟩ := hsound controlCharInBytes hrule '\\' (raw.drop 1)
  rw [hread] at hdecoded
  cases hdecoded
  refine ⟨hrule, hread, hfits _ rfl, hnumeral 8 (by decide) _, ?_⟩
  rw [← hdecode]
  exact hdecoder {} raw 14 (by decide)

end ShellWords.Escape.AnsiC
