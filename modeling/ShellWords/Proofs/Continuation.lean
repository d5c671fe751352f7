import ShellWords.Proofs.Dollar

/-! Lines that go on after an escaped line end. An escape character and a line end, put in where
escape characters escape, leave no trace but that what stands after them has moved, and so has what
the machine remembers by its offset (`State.outcome_moved`). The words of the line are the same, and
its error moves with the text that it is about: `split_continuation`. -/

namespace ShellWords

/-! ### Moved offsets -/

/-- The offset that was `pos` before `room` bytes were put in at offset `point`. -/
def moveOffset (point room pos : Nat) : Nat :=
  if pos < point then pos else pos + room

theorem moveOffset_of_lt {point pos : Nat} (h : pos < point) (room : Nat) :
    moveOffset point room pos = pos :=
  if_pos h

theorem moveOffset_of_le {point pos : Nat} (h : point ≤ pos) (room : Nat) :
    moveOffset point room pos = pos + room :=
  if_neg (Nat.not_lt.2 h)

section Moved

variable (point room : Nat)

def Span.moved (span : Span) : Span :=
  ⟨moveOffset point room span.start, moveOffset point room span.stop⟩

/-- The same error in a line with more room. -/
def SplitError.moved : SplitError → SplitError
  | unterminatedQuote quote span => unterminatedQuote quote (span.moved point room)
  | unterminatedEscape escape span => unterminatedEscape escape (span.moved point room)

def Run.moved (run : Run) : Run :=
  { run with error? := run.error?.map (·.moved point room) }

def OpenQuote.moved (quote : OpenQuote) : OpenQuote :=
  { quote with start := moveOffset point room quote.start }

def Region.moved : Region → Region
  | gap => gap
  | word text => word text
  | quoted before quote => quoted before (quote.moved point room)

def State.moved (state : State) : State where
  region := state.region.moved point room
  escape := state.escape.map fun (pos, escape) => (moveOffset point room pos, escape)
  dollar := state.dollar.map (moveOffset point room)

def Completed.moved : Completed → Completed
  | word text => word text
  | quote closed => quote { closed with start := moveOffset point room closed.start }

def Step.moved (step : Step) : Step where
  state := step.state.moved point room
  completed := step.completed.map (·.moved point room)

end Moved

section Region

variable {point room : Nat}

theorem Region.moved_of_outside {region : Region} (h : region.outside) :
    region.moved point room = region := by
  cases region with
  | gap | word => rfl
  | quoted before quote => cases h

theorem Region.escaping_moved (config : Config) (region : Region) :
    (region.moved point room).escaping config = region.escaping config := by
  cases region <;> rfl

theorem Region.push_moved (c : Char) (region : Region) :
    (region.moved point room).push c = (region.push c).moved point room := by
  cases region <;> rfl

theorem Region.pushEscaped_moved (escape c : Char) (region : Region) :
    (region.moved point room).pushEscaped escape c =
      (region.pushEscaped escape c).moved point room := by
  unfold pushEscaped
  split
  · rfl
  · cases region <;> rfl

theorem Step.word?_moved (step : Step) : (step.moved point room).word? = step.word? := by
  obtain ⟨state, _ | _ | _⟩ := step <;> rfl

end Region

/-! ### Moved steps -/

/-- A step at offset `pos` looks back no further than to `point`. -/
structure State.Past (point pos : Nat) (state : State) : Prop where
  le : point ≤ pos
  /-- A dollar that a quote at `pos` may take stands after the point. -/
  dollar : isBefore state.dollar pos = true → point < pos
  escape : ∀ escape ∈ state.escape, point ≤ escape.1

section Step

variable {config : Config} {point room pos : Nat} {c : Char} {state : State} {step : Step}

theorem IsStep.past (h : IsStep config pos c state step) (hpast : state.Past point pos) :
    step.state.Past point (pos + c.utf8Size) := by
  have hpos := c.utf8Size_pos
  obtain ⟨hle, -, -⟩ := hpast
  have hescape : ∀ escape ∈ step.state.escape, point ≤ escape.1 := by
    cases h with
    | escape =>
      rintro _ ⟨⟩
      exact hle
    | operand | close | body | quote | blank | bare => exact nofun
  exact ⟨by omega, fun _ => by omega, hescape⟩

theorem isBefore_moved {dollar : Option Nat} (hle : point ≤ pos)
    (hdollar : isBefore dollar pos = true → point < pos) :
    isBefore (dollar.map (moveOffset point room)) (pos + room) = isBefore dollar pos := by
  cases dollar with
  | none => rfl
  | some d =>
    simp only [isBefore, Option.map_some, Option.any_some, beq_iff_eq] at hdollar ⊢
    rw [Bool.eq_iff_iff, beq_iff_eq, beq_iff_eq]
    unfold moveOffset
    split <;> omega

theorem dollarAfter_moved (hle : point ≤ pos) (dollar : Option Nat) :
    dollarAfter (dollar.map (moveOffset point room)) (pos + room) c =
      (dollarAfter dollar pos c).map (moveOffset point room) := by
  unfold dollarAfter
  split
  · rw [Option.map_some, moveOffset_of_le hle]
  · rfl

/-- A section opens at the moved quote, or at the moved dollar before it. -/
theorem Region.openQuote_moved {region : Region} {afterDollar : Bool} (hle : point ≤ pos)
    (hdollar : afterDollar = true → point < pos) :
    region.openQuote config (pos + room) afterDollar c =
      (region.openQuote config pos afterDollar c).moved point room := by
  simp only [openQuote]
  split
  · rename_i before htakes hpending
    have hpos : point < pos := by
      apply hdollar
      cases afterDollar with
      | true => rfl
      | false => simp [QuoteMode.takesDollar] at htakes
    have hstart : moveOffset point room (pos - 1) = pos + room - 1 := by
      rw [moveOffset_of_le (by omega)]
      omega
    simp only [moved, OpenQuote.moved, hstart]
  · simp only [moved, OpenQuote.moved, moveOffset_of_le hle]

/-- After the point every step has its moved counterpart. -/
theorem IsStep.moved (h : IsStep config pos c state step) (hpast : state.Past point pos) :
    IsStep config (pos + room) c (state.moved point room) (step.moved point room) := by
  obtain ⟨hle, hdollar, -⟩ := hpast
  cases h with
  | operand =>
    simp only [State.moved, Step.moved, Option.map_some, Option.map_none,
      ← Region.pushEscaped_moved]
    exact .operand
  | @escape region dollar hescape =>
    simp only [State.moved, Step.moved, Option.map_some, Option.map_none, moveOffset_of_le hle]
    apply IsStep.escape
    rw [Region.escaping_moved]
    exact hescape
  | close hescape hclosing => exact .close hescape hclosing
  | body hescape hclosing => exact .body hescape hclosing
  | @quote region dollar houtside hescape hquote =>
    have hbefore : isBefore (dollar.map (moveOffset point room)) (pos + room) =
        isBefore dollar pos := isBefore_moved hle hdollar
    simp only [State.moved, Step.moved, Option.map_none, Region.moved_of_outside houtside,
      ← Region.openQuote_moved hle hdollar]
    rw [← hbefore]
    exact .quote houtside hescape hquote
  | @blank region dollar houtside hescape hquote hblank =>
    have hword : (region.word?.map Completed.word).map (·.moved point room) =
        region.word?.map Completed.word := by
      cases region.word? <;> rfl
    simp only [State.moved, Step.moved, Option.map_none, Region.moved_of_outside houtside,
      ← dollarAfter_moved hle, hword]
    exact .blank houtside hescape hquote hblank
  | @bare region dollar houtside hescape hquote hblank =>
    simp only [State.moved, Step.moved, Option.map_none, ← Region.push_moved,
      Region.moved_of_outside houtside, ← dollarAfter_moved hle]
    exact .bare houtside hescape hquote hblank

end Step

/-! ### Moved runs -/

namespace State

variable {config : Config} {point room pos : Nat} {state : State}

theorem finish_moved (hpast : state.Past point pos) :
    (state.moved point room).finish (pos + room) =
      (state.finish pos).mapError (·.moved point room) := by
  have hsize : moveOffset point room pos = pos + room := moveOffset_of_le hpast.le room
  rcases state with ⟨_ | text | ⟨before, quote⟩, _ | ⟨start, escape⟩, dollar⟩
  case gap.none | word.none => rfl
  case quoted.none | quoted.some =>
    simp only [moved, Region.moved, finish, Except.mapError, SplitError.moved, Span.moved, hsize]
    rfl
  all_goals
    have hstart : point ≤ start := hpast.escape _ rfl
    have hstop : moveOffset point room (start + escape.utf8Size) =
        start + room + escape.utf8Size := by
      rw [moveOffset_of_le (by omega)]
      omega
    simp only [moved, Region.moved, finish, Option.map_some, Except.mapError, SplitError.moved,
      Span.moved, Span.charAt, moveOffset_of_le hstart, hstop]

/-- Read past the point, a text gives the same words, and the moved error. -/
theorem outcome_moved (hpast : state.Past point pos) (text : Text) :
    (state.moved point room).outcome config (pos + room) text =
      (state.outcome config pos text).moved point room := by
  induction text generalizing state pos with
  | nil =>
    simp only [outcome, finish_moved hpast]
    cases state.finish pos <;> rfl
  | cons c rest ih =>
    have hstep := isStep config pos c state
    have hpos : pos + room + c.utf8Size = pos + c.utf8Size + room := by omega
    rw [outcome_cons, outcome_cons, (hstep.moved hpast).step_eq, Step.word?_moved, hpos]
    rw [Step.moved, ih (hstep.past hpast)]
    rfl

/-- All that the machine remembers of a text stands before the end of it. -/
theorem moved_of_behind (hbehind : state.Behind point) (hescape : state.escape = none) :
    state.moved point room = state := by
  obtain ⟨region, escape, dollar⟩ := state
  obtain ⟨hdollar, hstart⟩ := hbehind
  obtain rfl : escape = none := hescape
  have hregion : region.moved point room = region := by
    cases region with
    | gap | word => rfl
    | quoted before quote =>
      have hlt : quote.start < point := hstart quote.start rfl
      simp only [Region.moved, OpenQuote.moved, moveOffset_of_lt hlt]
  have hnoted : dollar.map (moveOffset point room) = dollar := by
    cases dollar with
    | none => rfl
    | some d =>
      have hlt : d < point := hdollar d rfl
      rw [Option.map_some, moveOffset_of_lt hlt]
  simp only [moved, hregion, hnoted, Option.map_none]

end State

/-! ### Continued lines -/

/-- After a text a line can go on on the next line: an escape character would escape there, and the
text does not end with a dollar that a quote could still take. -/
structure Continues (config : Config) (text : Text) : Prop where
  unescaped : (State.after config text).escape = none
  escaping : (State.after config text).region.escaping config
  no_dollar : ¬∃ front, EndsWithDollar config front text

namespace Continues

variable {config : Config} {text : Text} {e : Char} (h : Continues config text)
include h

theorem past : (State.after config text).Past (Text.byteLength text) (Text.byteLength text) where
  le := Nat.le_refl _
  dollar hbefore := absurd (isBefore_iff.1 hbefore) h.no_dollar
  escape := by
    rw [h.unescaped]
    exact nofun

/-- The machine passes over an escaped line end. -/
theorem readAll_eq (he : config.isEscape e) :
    Progress.readAll config {} (text ++ [e, '\n']) =
      { Progress.readAll config {} text with
        pos := Text.byteLength text + (e.utf8Size + 1) } := by
  have hpos := Progress.pos_readAll_initial config text
  have hunescaped := h.unescaped
  have hescaping := h.escaping
  rw [Progress.readAll_append]
  unfold State.after at hunescaped hescaping
  generalize Progress.readAll config {} text = progress at *
  obtain ⟨pos, ⟨region, escape, dollar⟩, words⟩ := progress
  obtain rfl : escape = none := hunescaped
  obtain rfl : pos = Text.byteLength text := hpos
  have hsize : '\n'.utf8Size = 1 := rfl
  simp only [Progress.readAll, List.foldl_cons, List.foldl_nil, Progress.read, State.step, he,
    hescaping, Bool.and_self, if_true, Region.pushEscaped, hsize, Step.word?, Option.toList_none,
    List.nil_append, Nat.add_assoc]

theorem run_eq (he : config.isEscape e) (rest : Text) :
    run config (text ++ e :: '\n' :: rest) =
      (run config (text ++ rest)).moved (Text.byteLength text) (e.utf8Size + 1) := by
  have hline : text ++ e :: '\n' :: rest = (text ++ [e, '\n']) ++ rest := by simp
  have hstate : (State.after config text).moved (Text.byteLength text) (e.utf8Size + 1) =
      State.after config text := State.moved_of_behind (State.behind_after config text) h.unescaped
  have houtcome : (State.after config text).outcome config
        (Text.byteLength text + (e.utf8Size + 1)) rest =
      ((State.after config text).outcome config (Text.byteLength text) rest).moved
        (Text.byteLength text) (e.utf8Size + 1) := by
    rw [← State.outcome_moved h.past, hstate]
  rw [State.after] at houtcome
  rw [hline, run_append, run_append, h.readAll_eq he]
  simp only [houtcome, Progress.pos_readAll_initial]
  rfl

end Continues

/-- An escape character and a line end may stand wherever a line can go on: it has the same words,
or the error of the same kind about the same character, which starts where it did if that is before
the two characters and has moved with the text otherwise, and which ends with the line. -/
theorem split_continuation {config : Config} {e : Char} (he : e ∈ config.escapes) {a : Text}
    (ha : Continues config a) (b : Text) :
    split config (a ++ e :: '\n' :: b) =
        (split config (a ++ b)).mapError (·.moved (Text.byteLength a) (e.utf8Size + 1)) ∧
      (∀ error, split config (a ++ b) = .error error →
        error.span.stop = Text.byteLength (a ++ b)) ∧
      ∀ error, split config (a ++ e :: '\n' :: b) = .error error →
        error.span.stop = Text.byteLength (a ++ e :: '\n' :: b) := by
  have hescape : config.isEscape e := List.contains_iff_mem.2 he
  refine ⟨?_, fun error h => ?_, fun error h => ?_⟩
  · rw [split, split, ha.run_eq hescape]
    unfold Run.result
    cases herror : (run config (a ++ b)).error? <;> simp [Run.moved, herror, Except.mapError]
  · rw [span_of_split_error h]
  · rw [span_of_split_error h]

/-- The line `é$'\x41' "x` goes on within the number of its escape. The escape stays what it was,
and the section that is open at the end has moved by two bytes. -/
theorem split_continuation_hex :
    let a : Text := ['é', '$', '\'', '\\', 'x', '4']
    let b : Text := ['1', '\'', ' ', '"', 'x']
    '\\' ∈ ({} : Config).escapes ∧ Continues {} a ∧
      split {} (a ++ b) = .error (.unterminatedQuote '"' ⟨10, 12⟩) ∧
      split {} (a ++ '\\' :: '\n' :: b) = .error (.unterminatedQuote '"' ⟨12, 14⟩) := by
  intro a b
  have he : '\\' ∈ ({} : Config).escapes := List.mem_singleton_self _
  have ha : Continues {} a := by
    refine ⟨rfl, rfl, fun hdollar => ?_⟩
    cases isBefore_iff.2 hdollar
  have hsplit : split {} (a ++ b) = .error (.unterminatedQuote '"' ⟨10, 12⟩) := by cbv
  refine ⟨he, ha, hsplit, ?_⟩
  rw [(split_continuation he ha b).1, hsplit]
  rfl

end ShellWords
