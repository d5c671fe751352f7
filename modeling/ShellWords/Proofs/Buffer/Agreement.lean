import ShellWords.Proofs.Buffer.Sound
import ShellWords.Proofs.Step

/-! The lexer with one buffer gives what the lexer gives. Where the one keeps the parts of a word
apart, the other has them behind each other in its buffer (`Lexer.buffer`), and both read a
character alike. -/

namespace ShellWords

/-! ### The parts of a word in one buffer -/

namespace Region

/-- The word that has started, with the contents of an open section as written. -/
def token? : Region → Option Text
  | gap => none
  | word text => some text.reverse
  | quoted before quote => some (before.reverse ++ quote.body.reverse)

def bufferQuote? : Region → Option BufferQuote
  | quoted before quote => some ⟨quote.mode, quote.start, Text.byteLength before⟩
  | _ => none

@[simp] theorem token?_push (c : Char) (region : Region) :
    (region.push c).token? = some (region.token?.getD [] ++ [c]) := by
  cases region <;> simp [push, token?]

@[simp] theorem bufferQuote?_push (c : Char) (region : Region) :
    (region.push c).bufferQuote? = region.bufferQuote? := by
  cases region <;> rfl

theorem bufferQuote?_of_outside {region : Region} (h : region.outside) :
    region.bufferQuote? = none := by
  cases region with
  | quoted => cases h
  | gap | word => rfl

end Region

theorem Step.word?_map (state : State) (word? : Option Text) :
    ({ state, completed := word?.map .word } : Step).word? = word? := by
  cases word? <;> rfl

namespace BufferLexer

/-- The lexer with the parts of a word behind each other in its buffer. -/
def holding (region : Region) (lexer : BufferLexer) : BufferLexer :=
  { lexer with quote := region.bufferQuote?, token := region.token? }

variable {lexer : BufferLexer} {region : Region}

theorem goPast_holding (c : Char) (rest : Text) :
    (lexer.holding region).goPast c rest = (lexer.goPast c rest).holding region := rfl

theorem push_holding (c : Char) :
    (lexer.holding region).push c = lexer.holding (region.push c) := by
  simp [push, holding]

theorem pushEscaped_holding (escape c : Char) :
    (lexer.holding region).pushEscaped escape c =
      lexer.holding (region.pushEscaped escape c) := by
  unfold pushEscaped Region.pushEscaped
  split
  · rfl
  · cases region with
    | gap | word => exact push_holding c
    | quoted before quote =>
      show ((lexer.holding (.quoted before quote)).push escape).push c = _
      rw [push_holding, push_holding]

theorem escaping_holding :
    (lexer.holding region).escaping = region.escaping lexer.config := by
  cases region <;> rfl

theorem not_active_holding {c : Char} (h : lexer.config.isEscape c = false) :
    ¬((lexer.holding region).config.isEscape c && (lexer.holding region).escaping) = true := by
  have hescape : (lexer.holding region).config.isEscape c = false := h
  simp [hescape]

/-- Outside quotes the buffer ends with what a section would be added to. -/
theorem token?_of_outside (h : region.outside) :
    region.token?.getD [] = region.pending.reverse := by
  cases region with
  | quoted => cases h
  | gap | word => rfl

theorem opened_ne_plain_iff {config : Config} {afterDollar : Bool} {c : Char} :
    QuoteMode.opened config afterDollar c ≠ .plain c ↔
      (QuoteMode.opened config afterDollar c).takesDollar = true := by
  unfold QuoteMode.opened
  split
  · simp [QuoteMode.takesDollar]
  · split <;> simp [QuoteMode.takesDollar]

theorem openQuote_holding {pos : Nat} {c : Char} (h : region.outside) :
    (lexer.holding region).openQuote pos c = .ok
      (lexer.holding (region.openQuote lexer.config pos (isBefore lexer.dollar pos) c)) := by
  have htoken : (lexer.holding region).token.getD [] = region.pending.reverse := token?_of_outside h
  have htakes := @opened_ne_plain_iff lexer.config (isBefore lexer.dollar pos) c
  by_cases hdollar : QuoteMode.opened lexer.config (isBefore lexer.dollar pos) c ≠ .plain c ∧
      region.pending.head? = some '$'
  · obtain ⟨hplain, hhead⟩ := hdollar
    obtain ⟨before, hpending⟩ := List.head?_eq_some_iff.1 hhead
    obtain ⟨d, -, rfl⟩ := exists_dollar hplain
    rw [hpending, List.reverse_cons] at htoken
    refine (@openQuote_of_dollar (lexer.holding region) d c _ _ rfl hplain htoken).trans ?_
    simp only [Region.openQuote, htakes.1 hplain, hpending]
    simp [holding, Region.token?, Region.bufferQuote?]
  · have hbare : ¬(QuoteMode.opened lexer.config (isBefore lexer.dollar pos) c ≠ .plain c ∧
        ((lexer.holding region).token.getD []).getLast? = some '$') := by
      rw [htoken, List.getLast?_reverse]
      exact hdollar
    have hopen : region.openQuote lexer.config pos (isBefore lexer.dollar pos) c =
        .quoted region.pending ⟨.opened lexer.config (isBefore lexer.dollar pos) c, pos, []⟩ := by
      rw [htakes] at hdollar
      simp only [Region.openQuote]
      split
      · rename_i before htrue hpending
        exact absurd ⟨htrue, by rw [hpending]; rfl⟩ hdollar
      · rfl
    refine (@openQuote_of_bare (lexer.holding region) pos c _ rfl hbare).trans ?_
    rw [htoken, hopen]
    simp [holding, Region.token?, Region.bufferQuote?]

theorem closeQuote_holding (before : Text) (quote : OpenQuote) :
    (lexer.holding (.quoted before quote)).closeQuote
        ⟨quote.mode, quote.start, Text.byteLength before⟩ =
      .ok (lexer.holding (.word ((quote.close lexer.config).decoded.reverse ++ before))) := by
  have hcut : Text.splitOff (Text.byteLength before) (before.reverse ++ quote.body.reverse) =
      .ok (before.reverse, quote.body.reverse) := by
    have hcut := Text.splitOff_append before.reverse quote.body.reverse
    rwa [Text.byteLength_reverse] at hcut
  have htoken : ((quote.close lexer.config).decoded.reverse ++ before).reverse =
      before.reverse ++ (quote.close lexer.config).decoded := by
    rw [List.reverse_append, List.reverse_reverse]
  show (Text.splitOff (Text.byteLength before) (before.reverse ++ quote.body.reverse) >>= _) = _
  rw [hcut]
  simp only [holding, Region.token?, htoken]
  rfl

end BufferLexer

/-! ### Reading on -/

/-- The lexer with one buffer at the same place of the line. -/
def Lexer.buffer (line : Text) (lexer : Lexer) : BufferLexer :=
  BufferLexer.holding lexer.state.region
    { config := lexer.config
      line
      rest := lexer.rest
      pos := lexer.pos
      escape := lexer.state.escape
      dollar := lexer.state.dollar
      finished := lexer.finished }

namespace BufferLexer

section Plain

variable {lexer : BufferLexer} {pos : Nat} {c : Char}

theorem readPlain_of_quote (h : lexer.config.isQuote c = true) :
    lexer.readPlain pos c = (none, ·) <$> lexer.openQuote pos c := by
  rw [readPlain, if_pos h]
  rfl

theorem readPlain_of_blank (h : lexer.config.isQuote c = false)
    (hblank : lexer.config.isWhitespace c = true) :
    lexer.readPlain pos c =
      .ok (lexer.token,
        { lexer with token := none, dollar := dollarAfter lexer.dollar pos c }) := by
  rw [readPlain, if_neg (Bool.eq_false_iff.1 h), dollarAfter]
  split <;> exact if_pos hblank

theorem readPlain_of_bare (h : lexer.config.isQuote c = false)
    (hblank : lexer.config.isWhitespace c = false) :
    lexer.readPlain pos c =
      .ok (none, { lexer.push c with dollar := dollarAfter lexer.dollar pos c }) := by
  rw [readPlain, if_neg (Bool.eq_false_iff.1 h), dollarAfter]
  split <;> exact if_neg (Bool.eq_false_iff.1 hblank)

end Plain

/-- Reading a character makes the same of both lexers. -/
theorem readChar_buffer (line : Text) (config : Config) (state : State) (pos : Nat) (c : Char)
    (rest : Text) :
    (Lexer.buffer line { config, rest := c :: rest, pos, state }).readChar c rest =
      .ok ((state.step config pos c).word?, Lexer.buffer line
        { config, rest, pos := pos + c.utf8Size, state := (state.step config pos c).state }) := by
  have hstep := State.isStep config pos c state
  generalize state.step config pos c = step at hstep ⊢
  unfold Lexer.buffer
  cases hstep with
  | operand =>
    rw [readChar_of_escape rfl, goPast_holding, pushEscaped_holding]
    rfl
  | escape hescape =>
    rw [readChar_of_active rfl (by rw [escaping_holding]; exact hescape)]
    rfl
  | @close before quote dollar hescape hclosing =>
    rw [readChar_of_quote rfl hescape rfl, goPast_holding, readQuoted, if_pos hclosing,
      closeQuote_holding]
    rfl
  | @body before quote dollar hescape hclosing =>
    rw [readChar_of_quote rfl hescape rfl, goPast_holding, readQuoted, if_neg hclosing,
      push_holding]
    rfl
  | @quote region dollar houtside hescape hquote =>
    rw [readChar_of_plain rfl (not_active_holding hescape)
      (Region.bufferQuote?_of_outside houtside), goPast_holding,
      readPlain_of_quote (by exact hquote), openQuote_holding houtside]
    rfl
  | @blank region dollar houtside hescape hquote hblank =>
    rw [readChar_of_plain rfl (not_active_holding hescape)
      (Region.bufferQuote?_of_outside houtside), goPast_holding,
      readPlain_of_blank (by exact hquote) (by exact hblank), Step.word?_map]
    cases region with
    | quoted => cases houtside
    | gap | word => rfl
  | @bare region dollar houtside hescape hquote hblank =>
    rw [readChar_of_plain rfl (not_active_holding hescape)
      (Region.bufferQuote?_of_outside houtside), goPast_holding,
      readPlain_of_bare (by exact hquote) (by exact hblank), push_holding]
    rfl

/-- A lexer and one with one buffer: they stand at the same place of the line with the same
contents, or both give nothing more. -/
inductive Represents (config : Config) (line : Text) : Lexer → BufferLexer → Prop where
  | reading (rest : Text) (pos : Nat) (state : State) :
    Represents config line { config, rest, pos, state }
      (Lexer.buffer line { config, rest, pos, state })
  | finished {lexer : Lexer} {after : BufferLexer} (hlexer : lexer.finished = true)
    (hafter : after.finished = true) (hconfig : after.config = config) (hline : after.line = line) :
    Represents config line lexer after

variable {config : Config} {line : Text}

/-- The end of the line comes to the same for both lexers. -/
theorem finish_buffer {pos : Nat} {state : State}
    (hsound : (Lexer.buffer line { config, rest := [], pos, state }).Sound) :
    ∃ after, (Lexer.buffer line { config, rest := [], pos, state }).finish =
        .ok ((Lexer.scan config state pos []).1, after) ∧
      Represents config line (Lexer.scan config state pos []).2 after := by
  obtain rfl : pos = Text.byteLength line := by
    obtain ⟨front, hline, hfront⟩ := hsound.cursor
    have hline : line = front := hline.trans (List.append_nil front)
    rw [hline]
    exact hfront.symm
  obtain ⟨region, escape, dollar⟩ := state
  cases region with
  | quoted before quote =>
    exact ⟨_, finish_of_quote rfl (hsound.quote _ rfl).start.le, .finished rfl rfl rfl rfl⟩
  | gap =>
    cases escape with
    | some pending => exact ⟨_, finish_of_escape rfl rfl, .finished rfl rfl rfl rfl⟩
    | none => exact ⟨_, finish_of_complete rfl rfl, .finished rfl rfl rfl rfl⟩
  | word text =>
    cases escape with
    | some pending => exact ⟨_, finish_of_escape rfl rfl, .finished rfl rfl rfl rfl⟩
    | none => exact ⟨_, finish_of_complete rfl rfl, .reading [] _ _⟩

/-- Both lexers read on to the same item, and stand at the same place after it. -/
theorem scan_buffer (text : Text) (pos : Nat) (state : State)
    (h : Reached config line (Lexer.buffer line { config, rest := text, pos, state })) :
    ∃ after, (Lexer.buffer line { config, rest := text, pos, state }).scan text =
        .ok ((Lexer.scan config state pos text).1, after) ∧
      Reached config line after ∧
      Represents config line (Lexer.scan config state pos text).2 after := by
  induction text generalizing pos state with
  | nil =>
    obtain ⟨after, hfinish, hafter⟩ := finish_buffer h.sound
    exact ⟨after, hfinish, .stop h rfl rfl hfinish, hafter⟩
  | cons c rest ih =>
    have hread := readChar_buffer line config state pos c rest
    have hnext := Reached.char h rfl rfl hread
    cases hword : (state.step config pos c).word? with
    | some word =>
      rw [hword] at hread
      refine ⟨_, ?_, hnext, ?_⟩
      · rw [scan, hread]
        simp only [Lexer.scan, hword]
        rfl
      · simp only [Lexer.scan, hword]
        exact .reading _ _ _
    | none =>
      rw [hword] at hread
      obtain ⟨after, hscan, hafter⟩ := ih _ _ hnext
      refine ⟨after, ?_, ?_⟩
      · rw [scan, hread]
        simp only [Lexer.scan, hword]
        exact hscan
      · simp only [Lexer.scan, hword]
        exact hafter

theorem Represents.next {lexer : Lexer} {buffer : BufferLexer}
    (h : Represents config line lexer buffer) (hreached : Reached config line buffer) :
    ∃ after, buffer.next = .ok (lexer.next.1, after) ∧ Reached config line after ∧
      Represents config line lexer.next.2 after := by
  cases h with
  | reading rest pos state => exact scan_buffer rest pos state hreached
  | finished hlexer hafter hconfig hline =>
    have hnext : lexer.next = (none, lexer) := if_pos hlexer
    rw [hnext]
    exact ⟨buffer, if_pos hafter, hreached, .finished hlexer hafter hconfig hline⟩

theorem Represents.take {lexer : Lexer} {buffer : BufferLexer}
    (h : Represents config line lexer buffer) (hreached : Reached config line buffer) (n : Nat) :
    buffer.take n = .ok (lexer.take n).1 := by
  induction n generalizing lexer buffer with
  | zero => rfl
  | succ n ih =>
    obtain ⟨after, hnext, hafter, hrepresents⟩ := h.next hreached
    rw [BufferLexer.take, hnext]
    show (after.take n >>= _) = _
    rw [ih hrepresents hafter]
    rfl

/-- Wherever the lexer with one buffer has come to, there is a lexer that stands at the same
place. -/
theorem Reached.represents {buffer : BufferLexer} (h : Reached config line buffer) :
    ∃ lexer, Represents config line lexer buffer := by
  induction h with
  | new => exact ⟨Lexer.ofText config line, .reading line 0 {}⟩
  | @char buffer after c rest word? _ hfinished hrest hread ih =>
    obtain ⟨lexer, hlexer⟩ := ih
    cases hlexer with
    | reading text pos state =>
      obtain rfl : text = c :: rest := hrest
      rw [readChar_buffer] at hread
      cases hread
      exact ⟨_, .reading _ _ _⟩
    | finished _ hbuffer =>
      rw [hfinished] at hbuffer
      cases hbuffer
  | @stop buffer after item? hbuffer hfinished hrest hfinish ih =>
    obtain ⟨lexer, hlexer⟩ := ih
    cases hlexer with
    | reading text pos state =>
      obtain rfl : text = [] := hrest
      obtain ⟨_, hafter, hrepresents⟩ := finish_buffer hbuffer.sound
      rw [hfinish] at hafter
      cases hafter
      exact ⟨_, hrepresents⟩
    | finished _ hbuffer =>
      rw [hfinished] at hbuffer
      cases hbuffer

theorem Represents.config_line {lexer : Lexer} {buffer : BufferLexer}
    (h : Represents config line lexer buffer) : buffer.config = config ∧ buffer.line = line := by
  cases h with
  | reading => exact ⟨rfl, rfl⟩
  | finished _ _ hconfig hline => exact ⟨hconfig, hline⟩

end BufferLexer

/-- Wherever the lexer with one buffer has come to in its line, its offsets lie where they should,
so that it goes on without a fault. It gives what the lexer gives. -/
theorem bufferLexer_sound (config : Config) (line : Text) :
    (∀ lexer : BufferLexer, lexer.Reached config line →
      (lexer.config = config ∧ lexer.line = line ∧ lexer.Sound) ∧
      (∀ c rest, lexer.rest = c :: rest →
        ∃ word? after, lexer.readChar c rest = .ok (word?, after)) ∧
      (∃ item? after, lexer.finish = .ok (item?, after)) ∧
      ∃ item? after, lexer.next = .ok (item?, after) ∧ after.Reached config line) ∧
    ∀ n, (BufferLexer.ofText config line).take n = .ok ((Lexer.ofText config line).take n).1 := by
  refine ⟨fun lexer hreached => ?_, fun n => ?_⟩
  · have hsound := hreached.sound
    obtain ⟨model, hmodel⟩ := hreached.represents
    obtain ⟨hconfig, hline⟩ := hmodel.config_line
    refine ⟨⟨hconfig, hline, hsound⟩, fun c rest hrest => ?_, ?_, ?_⟩
    · obtain ⟨word?, after, hread, -⟩ := hsound.readChar hrest
      exact ⟨word?, after, hread⟩
    · obtain ⟨item?, after, hfinish, -⟩ := hsound.finish
      exact ⟨item?, after, hfinish⟩
    · obtain ⟨after, hnext, hafter, -⟩ := hmodel.next hreached
      exact ⟨_, after, hnext, hafter⟩
  · have hnew : BufferLexer.Represents config line (.ofText config line) (.ofText config line) :=
      .reading line 0 {}
    exact hnew.take .new n

/-- The line ends with an escape character in a section that started at a dollar. -/
theorem bufferLexer_sound_open_section :
    ∃ lexer : BufferLexer, lexer.Reached {} ['x', '$', '\'', '\\'] ∧
      lexer.quote = some ⟨.ansiC, 1, 1⟩ ∧ lexer.escape = some (3, '\\') ∧ lexer.Sound := by
  have hreached : BufferLexer.Reached {} ['x', '$', '\'', '\\'] _ :=
    .char (.char (.char (.char .new rfl rfl rfl) rfl rfl rfl) rfl rfl rfl) rfl rfl rfl
  exact ⟨_, hreached, rfl, rfl, (((bufferLexer_sound _ _).1 _ hreached).1).2.2⟩

end ShellWords
