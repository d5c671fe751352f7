import ShellWords.Proofs.Buffer.Lexer
import ShellWords.Proofs.Report.Location
import ShellWords.Proofs.Unterminated

/-! What holds of a lexer with one buffer wherever it has come to in its line. Its offsets lie where
they should, in the line as in the buffer (`BufferLexer.Sound`), so that none of its operations
faults. Every character that is read keeps this, and so does the end of the line. -/

namespace ShellWords

theorem Text.isBoundary_byteLength (text : Text) : text.IsBoundary (byteLength text) :=
  ⟨text, [], (List.append_nil text).symm, rfl⟩

theorem Text.IsBoundary.append {text : Text} {offset : Nat} (h : text.IsBoundary offset)
    (more : Text) : (text ++ more).IsBoundary offset := by
  obtain ⟨before, after, rfl, hsize⟩ := h
  exact ⟨before, after ++ more, List.append_assoc _ _ _, hsize⟩

theorem Text.IsBoundary.le {text : Text} {offset : Nat} (h : text.IsBoundary offset) :
    offset ≤ byteLength text := by
  obtain ⟨before, after, rfl, rfl⟩ := h
  rw [byteLength_append]
  exact Nat.le_add_right _ _

theorem Text.IsBoundary.splitOff_eq {text : Text} {offset : Nat} (h : text.IsBoundary offset) :
    ∃ before after, text.splitOff offset = .ok (before, after) := by
  obtain ⟨before, after, rfl, rfl⟩ := h
  exact ⟨before, after, splitOff_append before after⟩

namespace BufferLexer

/-- An open section: its contents are in the buffer, from a boundary of the buffer on, and it
started at a boundary of the line that has been passed. Its quote can close it. -/
structure SoundQuote (lexer : BufferLexer) (quote : BufferQuote) : Prop where
  token : ∃ token, lexer.token = some token ∧ token.IsBoundary quote.segment ∧
    quote.segment ≤ Text.byteLength token
  start : lexer.line.IsBoundary quote.start
  start_lt : quote.start < lexer.pos
  closing : lexer.config.isEscape quote.mode.closing = false

/-- An escape character without operand: it is the last one that has been read, and where it stands
it escapes. -/
structure SoundEscape (lexer : BufferLexer) (pos : Nat) (escape : Char) : Prop where
  mem : escape ∈ lexer.config.escapes
  before : ∃ front, lexer.line = front ++ escape :: lexer.rest ∧ Text.byteLength front = pos ∧
    pos + escape.utf8Size = lexer.pos
  honored : ∀ quote ∈ lexer.quote, quote.mode.honorsEscapes lexer.config = true

structure Sound (lexer : BufferLexer) : Prop where
  cursor : ∃ front, lexer.line = front ++ lexer.rest ∧ Text.byteLength front = lexer.pos
  quote : ∀ quote ∈ lexer.quote, lexer.SoundQuote quote
  escape : ∀ pos c, lexer.escape = some (pos, c) → lexer.SoundEscape pos c
  dollar : ∀ d ∈ lexer.dollar, lexer.line.IsBoundary d ∧ d < lexer.pos

/-! ### The single operations -/

theorem sound_ofText (config : Config) (line : Text) : (ofText config line).Sound where
  cursor := ⟨[], rfl, rfl⟩
  quote := nofun
  escape := nofun
  dollar := nofun

/-- A section is of a kind with a dollar only where one has been read right before its quote. -/
theorem exists_dollar {config : Config} {dollar : Option Nat} {pos : Nat} {c : Char}
    (h : QuoteMode.opened config (isBefore dollar pos) c ≠ .plain c) :
    ∃ d, dollar = some d ∧ d + 1 = pos := by
  cases dollar with
  | none => exact absurd (QuoteMode.opened_false c) h
  | some d =>
    by_cases hnext : d + 1 = pos
    · exact ⟨d, rfl, hnext⟩
    · have hbefore : isBefore (some d) pos = false := by simp [isBefore, hnext]
      rw [hbefore] at h
      exact absurd (QuoteMode.opened_false c) h

theorem openQuote_of_dollar {lexer : BufferLexer} {pos : Nat} {c : Char} {front : Text}
    {mode : QuoteMode} (hmode : .opened lexer.config (isBefore lexer.dollar (pos + 1)) c = mode)
    (hplain : mode ≠ .plain c) (htoken : lexer.token.getD [] = front ++ ['$']) :
    lexer.openQuote (pos + 1) c = .ok { lexer with
      token := some front, quote := some ⟨mode, pos, Text.byteLength front⟩ } := by
  subst hmode
  have hdollar : QuoteMode.opened lexer.config (lexer.dollar.any (· + 1 == pos + 1)) c ≠ .plain c ∧
      (front ++ ['$']).getLast? = some '$' := ⟨hplain, List.getLast?_concat⟩
  simp only [openQuote, htoken, if_pos hdollar, List.dropLast_concat]
  rfl

theorem openQuote_of_bare {lexer : BufferLexer} {pos : Nat} {c : Char} {mode : QuoteMode}
    (hmode : .opened lexer.config (isBefore lexer.dollar pos) c = mode)
    (hbare : ¬(mode ≠ .plain c ∧ (lexer.token.getD []).getLast? = some '$')) :
    lexer.openQuote pos c = .ok { lexer with
      token := some (lexer.token.getD [])
      quote := some ⟨mode, pos, Text.byteLength (lexer.token.getD [])⟩ } := by
  subst hmode
  have hdollar : ¬(QuoteMode.opened lexer.config (lexer.dollar.any (· + 1 == pos)) c ≠ .plain c ∧
      (lexer.token.getD []).getLast? = some '$') := hbare
  simp only [openQuote, if_neg hdollar]
  rfl

theorem finish_of_quote {lexer : BufferLexer} {quote : BufferQuote}
    (hquote : lexer.quote = some quote) (hle : quote.start ≤ Text.byteLength lexer.line) :
    lexer.finish = .ok
      (some (.error (.unterminatedQuote quote.mode.closing
        ⟨quote.start, Text.byteLength lexer.line⟩)),
        { lexer with quote := none, finished := true }) := by
  have hbounds : Span.ofBounds quote.start (Text.byteLength lexer.line) =
      .ok ⟨quote.start, Text.byteLength lexer.line⟩ := if_pos hle
  simp only [finish, hquote, hbounds]
  rfl

theorem finish_of_escape {lexer : BufferLexer} {pos : Nat} {escape : Char}
    (hquote : lexer.quote = none) (hescape : lexer.escape = some (pos, escape)) :
    lexer.finish = .ok (some (.error (.unterminatedEscape escape (.charAt pos escape))),
      { lexer with escape := none, finished := true }) := by
  have hbounds : Span.ofBounds pos (pos + escape.utf8Size) = .ok (.charAt pos escape) :=
    if_pos (Nat.le_add_right _ _)
  simp only [finish, hquote, hescape, hbounds]
  rfl

theorem finish_of_complete {lexer : BufferLexer} (hquote : lexer.quote = none)
    (hescape : lexer.escape = none) :
    lexer.finish = .ok (lexer.token.map .ok,
      { lexer with token := none, finished := lexer.token.isNone }) := by
  simp only [finish, hquote, hescape]
  rfl

namespace Sound

variable {lexer : BufferLexer} {c : Char} {rest : Text}

theorem goPast (h : lexer.Sound) (hrest : lexer.rest = c :: rest) :
    (lexer.goPast c rest).Sound := by
  have hpos : lexer.pos < lexer.pos + c.utf8Size := Nat.lt_add_of_pos_right c.utf8Size_pos
  constructor
  · obtain ⟨front, hline, hsize⟩ := h.cursor
    refine ⟨front ++ [c], ?_, ?_⟩
    · show lexer.line = front ++ [c] ++ rest
      rw [hline, hrest, List.append_assoc, List.singleton_append]
    · simp [BufferLexer.goPast, hsize]
  · intro quote hquote
    obtain ⟨htoken, hstart, hlt, hclosing⟩ := h.quote quote hquote
    exact ⟨htoken, hstart, Nat.lt_trans hlt hpos, hclosing⟩
  · exact nofun
  · intro d hd
    obtain ⟨hdollar, hlt⟩ := h.dollar d hd
    exact ⟨hdollar, Nat.lt_trans hlt hpos⟩

/-- What is added to the buffer leaves the sections of it where they are. -/
theorem push (h : lexer.Sound) (c : Char) : (lexer.push c).Sound := by
  refine ⟨h.cursor, fun quote hquote => ?_, fun pos escape hescape => ?_, h.dollar⟩
  · obtain ⟨⟨token, htoken, hsegment, hle⟩, hstart, hlt, hclosing⟩ := h.quote quote hquote
    refine ⟨⟨token ++ [c], ?_, hsegment.append [c], (hsegment.append [c]).le⟩, hstart, hlt,
      hclosing⟩
    show some (lexer.token.getD [] ++ [c]) = some (token ++ [c])
    rw [htoken, Option.getD_some]
  · obtain ⟨hmem, hbefore, hhonored⟩ := h.escape pos escape hescape
    exact ⟨hmem, hbefore, hhonored⟩

theorem pushEscaped (h : lexer.Sound) (escape c : Char) : (lexer.pushEscaped escape c).Sound := by
  unfold BufferLexer.pushEscaped
  split
  · exact h
  · split
    · exact (h.push escape).push c
    · exact h.push c

/-- The buffer and the section can be replaced while no operand is awaited. -/
theorem replace (h : lexer.Sound) (hescape : lexer.escape = none) {token : Option Text}
    {open? : Option BufferQuote}
    (hquote : ∀ quote ∈ open?,
      ({ lexer with token, quote := open? } : BufferLexer).SoundQuote quote) :
    ({ lexer with token, quote := open? } : BufferLexer).Sound where
  cursor := h.cursor
  quote := hquote
  escape pos escape hsome := by
    rw [hescape] at hsome
    cases hsome
  dollar := h.dollar

/-- The section starts at the quote, or at the dollar that has been read right before it. -/
theorem openQuote {pos : Nat} (h : lexer.Sound) (hescape : lexer.escape = none)
    (hpos : lexer.line.IsBoundary pos) (hlt : pos < lexer.pos)
    (hclosing : lexer.config.isEscape c = false) :
    ∃ after, lexer.openQuote pos c = .ok after ∧ after.Sound := by
  let mode := QuoteMode.opened lexer.config (isBefore lexer.dollar pos) c
  have hsound : ∀ (token : Text) (start : Nat), lexer.line.IsBoundary start → start < lexer.pos →
      ({ lexer with
        token := some token
        quote := some ⟨mode, start, Text.byteLength token⟩ } : BufferLexer).Sound := by
    intro token start hstart hstart_lt
    refine h.replace hescape ?_
    rintro quote ⟨⟩
    refine ⟨⟨token, rfl, Text.isBoundary_byteLength token, Nat.le_refl _⟩, hstart, hstart_lt, ?_⟩
    rw [QuoteMode.closing_opened]
    exact hclosing
  by_cases hdollar : mode ≠ .plain c ∧ (lexer.token.getD []).getLast? = some '$'
  · obtain ⟨hplain, hlast⟩ := hdollar
    obtain ⟨front, htoken⟩ := List.getLast?_eq_some_iff.1 hlast
    obtain ⟨d, hd, rfl⟩ := exists_dollar hplain
    obtain ⟨hstart, hstart_lt⟩ := h.dollar d hd
    exact ⟨_, openQuote_of_dollar rfl hplain htoken, hsound front d hstart hstart_lt⟩
  · exact ⟨_, openQuote_of_bare rfl hdollar, hsound _ pos hpos hlt⟩

/-- The section is cut off where its contents begin. -/
theorem closeQuote {quote : BufferQuote} (h : lexer.Sound) (hescape : lexer.escape = none)
    (hquote : lexer.quote = some quote) :
    ∃ after, lexer.closeQuote quote = .ok after ∧ after.Sound := by
  obtain ⟨token, htoken, hsegment, -⟩ := (h.quote quote hquote).token
  obtain ⟨before, raw, hcut⟩ := hsegment.splitOff_eq
  have hclose : lexer.closeQuote quote = .ok { lexer with
      quote := none, token := some (before ++ quote.mode.decode lexer.config raw) } := by
    simp only [BufferLexer.closeQuote, htoken, Option.getD_some, hcut]
    rfl
  exact ⟨_, hclose, h.replace hescape nofun⟩

/-- Noting a dollar at a boundary that has been passed. -/
theorem note {pos : Nat} (h : lexer.Sound) (hpos : lexer.line.IsBoundary pos)
    (hlt : pos < lexer.pos) : ({ lexer with dollar := some pos } : BufferLexer).Sound where
  cursor := h.cursor
  quote quote hquote :=
    have hsound := h.quote quote hquote
    ⟨hsound.token, hsound.start, hsound.start_lt, hsound.closing⟩
  escape pos escape hescape :=
    have hsound := h.escape pos escape hescape
    ⟨hsound.mem, hsound.before, hsound.honored⟩
  dollar := by
    rintro d ⟨⟩
    exact ⟨hpos, hlt⟩

/-! ### Reading on -/

theorem readPlain {pos : Nat} (h : lexer.Sound) (hescape : lexer.escape = none)
    (hquote : lexer.quote = none) (hpos : lexer.line.IsBoundary pos) (hlt : pos < lexer.pos)
    (hclosing : lexer.config.isEscape c = false) :
    ∃ word? after, lexer.readPlain pos c = .ok (word?, after) ∧ after.Sound := by
  unfold BufferLexer.readPlain
  split
  · obtain ⟨after, hopen, hafter⟩ := h.openQuote hescape hpos hlt hclosing
    rw [hopen]
    exact ⟨none, after, rfl, hafter⟩
  · let noted : BufferLexer := if c = '$' then { lexer with dollar := some pos } else lexer
    have hnoted : noted.Sound ∧ noted.escape = none ∧ noted.quote = none := by
      unfold noted
      split
      · exact ⟨h.note hpos hlt, hescape, hquote⟩
      · exact ⟨h, hescape, hquote⟩
    obtain ⟨hsound, hnoted_escape, hnoted_quote⟩ := hnoted
    show ∃ word? after, (if noted.config.isWhitespace c then
      .ok (noted.token, { noted with token := none }) else .ok (none, noted.push c) :
        Except Fault (Option Text × BufferLexer)) = .ok (word?, after) ∧ after.Sound
    split
    · refine ⟨_, _, rfl, hsound.replace hnoted_escape ?_⟩
      rw [hnoted_quote]
      exact nofun
    · exact ⟨_, _, rfl, hsound.push c⟩

theorem readQuoted {quote : BufferQuote} (h : lexer.Sound) (hescape : lexer.escape = none)
    (hquote : lexer.quote = some quote) (c : Char) :
    ∃ word? after, lexer.readQuoted quote c = .ok (word?, after) ∧ after.Sound := by
  unfold BufferLexer.readQuoted
  split
  · obtain ⟨after, hclose, hafter⟩ := h.closeQuote hescape hquote
    rw [hclose]
    exact ⟨none, after, rfl, hafter⟩
  · exact ⟨_, _, rfl, h.push c⟩

/-- An escape character is remembered only where it escapes. -/
theorem await (h : lexer.Sound) (hrest : lexer.rest = c :: rest)
    (hactive : (lexer.config.isEscape c && lexer.escaping) = true) :
    ({ lexer.goPast c rest with escape := some (lexer.pos, c) } : BufferLexer).Sound := by
  obtain ⟨hescape, hhonored⟩ := Bool.and_eq_true_iff.1 hactive
  obtain ⟨front, hline, hsize⟩ := h.cursor
  have hmem : c ∈ lexer.config.escapes := by simpa [Config.isEscape] using hescape
  have hpast := h.goPast hrest
  refine ⟨hpast.cursor, fun quote hquote => ?_, ?_, hpast.dollar⟩
  · obtain ⟨htoken, hstart, hlt, hclosing⟩ := hpast.quote quote hquote
    exact ⟨htoken, hstart, hlt, hclosing⟩
  · rintro pos escape ⟨⟩
    refine ⟨hmem, ⟨front, ?_, hsize, rfl⟩, fun quote hquote => ?_⟩
    · rw [hrest] at hline
      exact hline
    · have hopen : lexer.quote = some quote := hquote
      rw [escaping, hopen] at hhonored
      exact hhonored

/-- Reading a character never faults. -/
theorem readChar (h : lexer.Sound) (hrest : lexer.rest = c :: rest) :
    ∃ word? after, lexer.readChar c rest = .ok (word?, after) ∧ after.Sound := by
  have hpast := h.goPast hrest
  have hlt : lexer.pos < (lexer.goPast c rest).pos := Nat.lt_add_of_pos_right c.utf8Size_pos
  obtain ⟨front, hline, hsize⟩ := h.cursor
  have hpos : lexer.line.IsBoundary lexer.pos := ⟨front, lexer.rest, hline, hsize⟩
  cases hescape : lexer.escape with
  | some pending => exact ⟨_, _, readChar_of_escape hescape rest, hpast.pushEscaped _ c⟩
  | none =>
    by_cases hactive : (lexer.config.isEscape c && lexer.escaping) = true
    · exact ⟨_, _, readChar_of_active hescape hactive rest, h.await hrest hactive⟩
    · cases hquote : lexer.quote with
      | some quote =>
        rw [readChar_of_quote hescape hactive hquote]
        exact hpast.readQuoted rfl hquote c
      | none =>
        have hclosing : lexer.config.isEscape c = false := by
          simpa [escaping, hquote] using hactive
        rw [readChar_of_plain hescape hactive hquote]
        exact hpast.readPlain rfl hquote hpos hlt hclosing

/-- The end of the line never faults. -/
theorem finish (h : lexer.Sound) :
    ∃ item? after, lexer.finish = .ok (item?, after) ∧ after.Sound := by
  cases hquote : lexer.quote with
  | some quote =>
    refine ⟨_, _, finish_of_quote hquote (h.quote quote hquote).start.le, h.cursor, nofun,
      fun pos escape hescape => ?_, h.dollar⟩
    obtain ⟨hmem, hbefore, -⟩ := h.escape pos escape hescape
    exact ⟨hmem, hbefore, nofun⟩
  | none =>
    cases hescape : lexer.escape with
    | some pending =>
      exact ⟨_, _, finish_of_escape hquote hescape, h.cursor, by simp [hquote], nofun, h.dollar⟩
    | none =>
      exact ⟨_, _, finish_of_complete hquote hescape, h.cursor, by simp [hquote],
        by simp [hescape], h.dollar⟩

end Sound

/-- What holds of a new lexer and is kept by reading holds all along. -/
theorem Reached.sound {config : Config} {line : Text} {lexer : BufferLexer}
    (h : Reached config line lexer) : lexer.Sound := by
  induction h with
  | new => exact sound_ofText config line
  | char _ _ hrest hread ih =>
    obtain ⟨word?, after, hafter, hsound⟩ := ih.readChar hrest
    rw [hread] at hafter
    cases hafter
    exact hsound
  | stop _ _ _ hfinish ih =>
    obtain ⟨item?, after, hafter, hsound⟩ := ih.finish
    rw [hfinish] at hafter
    cases hafter
    exact hsound

end BufferLexer

end ShellWords
