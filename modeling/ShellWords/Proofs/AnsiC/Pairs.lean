import Mathlib
import ShellWords.Lexer.Run
import ShellWords.Proofs.AnsiC.Rules

/-! Escape characters that begin no escape. The decoder copies such a character and reads on right
after it, so that an escape may begin with the character there; `decodePairs` keeps the two as a
pair instead. While a configuration has one escape character there is no difference, and
`decode_eq_decodePairs_iff` says for which configurations there is none. -/

namespace ShellWords

/-- Two different escape characters are never read as one pair and as the beginning of an escape:
the second makes an escape with the first, or it is the letter of the control escapes, which reads
none of what can follow an unread one. -/
def Config.KeepsPairs (config : Config) : Prop :=
  ∀ e ∈ config.escapes, ∀ d ∈ config.escapes,
    d = e ∨ Escape.AnsiC.MakesEscape d ∨ d = 'c'

instance (config : Config) : Decidable config.KeepsPairs :=
  @List.decidableBAll _ _ (fun _ => List.decidableBAll _ _) _

namespace Escape.AnsiC

/-- Replaces every escape that a rule reads. An escape character that begins no escape is copied
together with the character after it, and reading goes on after both. -/
def decodePairs (config : Config) : Text → Text
  | [] => []
  | c :: rest =>
    match escapeAfter? config c rest with
    | some decoded => decoded.char :: decodePairs config (rest.drop decoded.used)
    | none =>
      if config.isEscape c then c :: rest.take 1 ++ decodePairs config (rest.drop 1)
      else c :: decodePairs config rest
termination_by text => text.length
decreasing_by all_goals simp only [List.length_drop, List.length_cons]; omega

/-- Decoding by pairs comes to a pair whose second character could have begun an escape. -/
inductive PassesOver (config : Config) : Text → Prop where
  | pair {c d : Char} {rest : Text} {decoded : Decoded} (hescape : config.isEscape c)
    (hkept : escapeAfter? config c (d :: rest) = none)
    (hread : escapeAfter? config d rest = some decoded) : PassesOver config (c :: d :: rest)
  | afterEscape {c : Char} {rest : Text} {decoded : Decoded}
    (hread : escapeAfter? config c rest = some decoded)
    (hrest : PassesOver config (rest.drop decoded.used)) : PassesOver config (c :: rest)
  | afterPair {c d : Char} {rest : Text} (hescape : config.isEscape c)
    (hkept : escapeAfter? config c (d :: rest) = none) (hrest : PassesOver config rest) :
    PassesOver config (c :: d :: rest)
  | afterChar {c : Char} {rest : Text} (hescape : config.isEscape c = false)
    (hrest : PassesOver config rest) : PassesOver config (c :: rest)

section Decode

variable {config : Config} {c : Char} {rest : Text}

theorem decodePairs_of_none (hescape : config.isEscape c)
    (h : escapeAfter? config c rest = none) :
    decodePairs config (c :: rest) = c :: rest.take 1 ++ decodePairs config (rest.drop 1) := by
  rw [decodePairs, h]
  exact if_pos hescape

/-- As long as no escape is passed over, the two decoders read the same. -/
theorem decode_eq_decodePairs {raw : Text} (h : ¬PassesOver config raw) :
    decode config raw = decodePairs config raw := by
  fun_induction decodePairs config raw with
  | case1 => simp [decode]
  | case2 c rest decoded hread ih =>
    rw [decode_of_some hread, ih fun hrest => h (.afterEscape hread hrest)]
  | case3 c rest hkept hescape ih =>
    rw [decode_of_none hkept]
    cases rest with
    | nil => simp [decode, decodePairs]
    | cons d rest =>
      have hread : escapeAfter? config d rest = none := by
        cases hread : escapeAfter? config d rest with
        | none => rfl
        | some decoded => exact absurd (.pair hescape hkept hread) h
      rw [decode_of_none hread]
      simp only [List.drop_succ_cons, List.drop_zero] at ih
      rw [ih fun hrest => h (.afterPair hescape hkept hrest)]
      rfl
  | case4 c rest hkept hescape ih =>
    rw [decode_of_none hkept, ih fun hrest => h (.afterChar (Bool.eq_false_iff.2 hescape) hrest)]

/-- What an unread control escape leaves begins no escape for the letter `c` either. -/
theorem read?_control_eq_none (h : ∀ d ∈ rest.head?, EndsLine d) : read? 'c' rest = none := by
  cases rest with
  | nil => rfl
  | cons d rest =>
    obtain ⟨hcontrol, hmakes, hhex⟩ : d ≠ 'c' ∧ ¬MakesEscape d ∧ d ∉ ['x', 'u', 'U'] := by
      have hline : EndsLine d := h d rfl
      simp only [EndsLine, List.mem_cons, List.not_mem_nil, or_false] at hline
      rcases hline with rfl | rfl | rfl | rfl <;> decide
    exact read?_eq_none_iff.2
      ⟨hcontrol, hmakes, fun hmem => absurd hmem hhex, fun heq => absurd heq hcontrol⟩

theorem not_passesOver (h : config.KeepsPairs) (raw : Text) : ¬PassesOver config raw := by
  intro hover
  induction hover with
  | @pair e d rest decoded hescape hkept hread =>
    have he : e ∈ config.escapes := List.contains_iff_mem.1 hescape
    have hd : d ∈ config.escapes := mem_of_escapeAfter? hread
    rw [escapeAfter?_of_mem he] at hkept
    rw [escapeAfter?_of_mem hd] at hread
    obtain ⟨hne, hmakes, -, hcontrol⟩ := read?_eq_none_iff.1 hkept
    rcases h e he d hd with rfl | hd' | rfl
    · exact hne rfl
    · exact hmakes hd'
    · rw [read?_control_eq_none (hcontrol rfl)] at hread
      cases hread
  | afterEscape _ _ ih | afterPair _ _ _ ih | afterChar _ _ ih => exact ih

theorem decodePairs_cons_ne_nil : decodePairs config (c :: rest) ≠ [] := by
  rw [decodePairs]
  split
  · exact List.cons_ne_nil _ _
  · split <;> exact List.cons_ne_nil _ _

/-- Of two escape characters that are not kept as a pair, the second makes a line end of the letter
`n` after it. -/
theorem decode_ne_decodePairs {e d : Char} (he : e ∈ config.escapes) (hd : d ∈ config.escapes)
    (hne : d ≠ e) (hmakes : ¬MakesEscape d) (hcontrol : d ≠ 'c') :
    decode config [e, d, 'n'] ≠ decodePairs config [e, d, 'n'] := by
  have hkept : escapeAfter? config e [d, 'n'] = none := by
    rw [escapeAfter?_of_mem he]
    refine read?_eq_none_iff.2 ⟨hne, hmakes, fun _ => ?_, fun heq => absurd heq hcontrol⟩
    rintro _ ⟨⟩
    decide
  have hread : escapeAfter? config d ['n'] = some ⟨'\n', 1⟩ := by
    have hliteral : literal d ['n'] = none :=
      literal_eq_none_iff.2 ⟨by decide, fun heq => hmakes (heq ▸ by decide)⟩
    rw [escapeAfter?_of_mem hd, read?, rules, List.findSome?_cons, hliteral]
    rfl
  have hdecode : decode config [e, d, 'n'] = [e, '\n'] := by
    rw [decode_of_none hkept, decode_of_some hread, List.drop_one, List.tail_cons, decode]
  have hpairs : decodePairs config [e, d, 'n'] = e :: d :: decodePairs config ['n'] :=
    decodePairs_of_none (List.contains_iff_mem.2 he) hkept
  rw [hdecode, hpairs]
  -- The line end is one character for the two that the pairs leave.
  intro heq
  injection heq with _ heq
  injection heq with _ heq
  exact decodePairs_cons_ne_nil heq.symm

end Decode

/-- The decoder keeps an escape character that begins no escape together with the character after
it in every text over which no escape is passed over, and in all texts exactly for the
configurations that keep pairs. -/
theorem decode_eq_decodePairs_iff (config : Config) :
    (∀ raw, ¬PassesOver config raw → decode config raw = decodePairs config raw) ∧
      ((∀ raw, decode config raw = decodePairs config raw) ↔ config.KeepsPairs) := by
  refine ⟨fun raw => decode_eq_decodePairs, fun h e he d hd => ?_,
    fun h raw => decode_eq_decodePairs (not_passesOver h raw)⟩
  by_cases hne : d = e
  · exact .inl hne
  by_cases hmakes : MakesEscape d
  · exact .inr (.inl hmakes)
  by_cases hcontrol : d = 'c'
  · exact .inr (.inr hcontrol)
  exact absurd (h _) (decode_ne_decodePairs he hd hne hmakes hcontrol)

/-- With two escape characters: an unread pair and an escape, each begun by another of the two. -/
theorem decode_eq_decodePairs_iff_carets :
    let carets : Config := { escapes := ['^', '~'] }
    let letters : Config := { escapes := ['\\', 'n', 'c'] }
    ¬PassesOver carets ['^', 'z', '~', 'n'] ∧
      decode carets ['^', 'z', '~', 'n'] = decodePairs carets ['^', 'z', '~', 'n'] ∧
      letters.KeepsPairs ∧
      decode letters ['\\', 'c', '\n', 'n', 't'] =
        decodePairs letters ['\\', 'c', '\n', 'n', 't'] := by
  intro carets letters
  have hover : ¬PassesOver carets ['^', 'z', '~', 'n'] := by
    rintro (⟨_, _, hread⟩ | ⟨hread, _⟩ | ⟨_, _, hrest⟩ | ⟨hescape, _⟩)
    · cases hread
    · cases hread
    · rcases hrest with ⟨_, hkept, _⟩ | ⟨hread, hrest⟩ | ⟨_, hkept, _⟩ | ⟨hescape, _⟩
      · cases hkept
      · cases hread
        cases hrest
      · cases hkept
      · cases hescape
    · cases hescape
  have hkeeps : letters.KeepsPairs := by decide
  exact ⟨hover, (decode_eq_decodePairs_iff carets).1 _ hover, hkeeps,
    (decode_eq_decodePairs_iff letters).2.2 hkeeps _⟩

/-- With two escape characters, the second of an unread pair begins an escape, also in a line. -/
theorem decode_ne_decodePairs_carets :
    let config : Config := { escapes := ['^', '~'] }
    decode config ['^', '~', 'n'] ≠ decodePairs config ['^', '~', 'n'] ∧
      split config ['$', '\'', '^', '~', 'n', '\''] = .ok [['^', '\n']] := by
  intro config
  exact ⟨decode_ne_decodePairs (by decide) (by decide) (by decide) (by decide) (by decide), by cbv⟩

end Escape.AnsiC

end ShellWords
