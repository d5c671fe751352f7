import ShellWords.Config

/-! Escapes in double-quoted and locale sections, where an escape character protects only another
escape character and the quote that closes the section. -/

namespace ShellWords.Escape

/-- Replaces each escape character followed by `quote` or an escape character by what follows, and
keeps all other pairs. -/
def unescape (config : Config) (quote : Char) : Text → Text
  | [] => []
  | [c] => [c]
  | c :: d :: rest =>
    if config.isEscape c && (d == quote || config.isEscape d) then
      d :: unescape config quote rest
    else
      c :: unescape config quote (d :: rest)

variable {config : Config} {quote c d : Char}

theorem unescape_of_not_escape (h : config.isEscape c = false) (text : Text) :
    unescape config quote (c :: text) = c :: unescape config quote text := by
  cases text <;> simp [unescape, h]

theorem unescape_pair (hc : config.isEscape c = true)
    (hd : (d == quote || config.isEscape d) = true) (text : Text) :
    unescape config quote (c :: d :: text) = d :: unescape config quote text := by
  rw [unescape, hc, hd, Bool.and_self, if_pos rfl]

/-- The second character of a pair that is kept begins no pair of its own. -/
theorem unescape_kept_pair (hd : (d == quote || config.isEscape d) = false) (text : Text) :
    unescape config quote (c :: d :: text) = c :: d :: unescape config quote text := by
  rw [Bool.or_eq_false_iff] at hd
  rw [unescape, hd.1, hd.2, Bool.or_self, Bool.and_false, if_neg Bool.false_ne_true,
    unescape_of_not_escape hd.2]

/-- Of a configuration only the escape characters matter. -/
theorem unescape_congr {config' : Config} (h : config'.isEscape = config.isEscape) (raw : Text) :
    unescape config' quote raw = unescape config quote raw := by
  fun_induction unescape config quote raw with
  | case1 | case2 => rfl
  | case3 c d rest hpair ih => rw [unescape, h, if_pos hpair, ih]
  | case4 c d rest hpair ih => rw [unescape, h, if_neg hpair, ih]

end ShellWords.Escape
