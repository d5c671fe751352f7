import ShellWords.Proofs.Layout.Basic
import ShellWords.Proofs.Outcome

/-! The machine reads a line piece by piece. Between two pieces it stands outside quotes, with the
words and the started word that the pieces before have given; `resume_eq_run` carries this along
the layout of a line, and `gives_runByPieces` says it of the items of a lexer. -/

namespace ShellWords

namespace QuoteMode

variable {config : Config} {mode : QuoteMode}

@[simp] theorem kept_nil : mode.kept config [] = [] := by
  simp [kept, joinLines]

theorem kept_pair {c d : Char} {body : Text}
    (h : (config.isEscape c && mode.honorsEscapes config) = true) :
    mode.kept config (c :: d :: body) =
      (if d = '\n' then [] else [c, d]) ++ mode.kept config body := by
  simp only [Bool.and_eq_true] at h
  simp only [kept, h.2, if_true, joinLines, h.1]
  split <;> rfl

theorem kept_char {c : Char} {body : Text}
    (h : ¬(config.isEscape c && mode.honorsEscapes config) = true) :
    mode.kept config (c :: body) = c :: mode.kept config body := by
  simp only [kept]
  split
  · rename_i hhonors
    have hescape : config.isEscape c = false := by simpa [hhonors] using h
    cases body <;> simp [joinLines, hescape]
  · rfl

end QuoteMode

namespace State

/-- The machine in a section, with no escape character waiting. -/
abbrev inside (before : Text) (mode : QuoteMode) (start : Nat) (body : Text) (dollar : Option Nat) :
    State :=
  { region := .quoted before { mode, start, body }, dollar }

abbrev inWord (text : Text) (dollar : Option Nat) : State :=
  { region := .word text, dollar }

/-! ### Inside a section -/

variable {config : Config} {before : Text} {mode : QuoteMode} {start : Nat} {dollar : Option Nat}

theorem outcome_inside_pair {body rest : Text} {pos : Nat} {c d : Char}
    (h : (config.isEscape c && mode.honorsEscapes config) = true) :
    (inside before mode start body dollar).outcome config pos (c :: d :: rest) =
      (inside before mode start ((if d = '\n' then [] else [d, c]) ++ body) dollar).outcome config
        (pos + c.utf8Size + d.utf8Size) rest := by
  rw [outcome_cons, outcome_cons]
  simp only [step, Region.escaping, h, if_true, Step.word?, Option.toList_none, Run.prepend_nil,
    Region.pushEscaped]
  split <;> rfl

theorem outcome_inside_char {body rest : Text} {pos : Nat} {c : Char}
    (h : ¬(config.isEscape c && mode.honorsEscapes config) = true) (hclosing : ¬c = mode.closing) :
    (inside before mode start body dollar).outcome config pos (c :: rest) =
      (inside before mode start (c :: body) dollar).outcome config (pos + c.utf8Size) rest := by
  rw [outcome_cons]
  simp only [step, Region.escaping, h, stepQuoted, hclosing]
  rfl

theorem outcome_inside_closing {body rest : Text} {pos : Nat}
    (h : ¬(config.isEscape mode.closing && mode.honorsEscapes config) = true) :
    (inside before mode start body dollar).outcome config pos (mode.closing :: rest) =
      (inWord ((mode.decode config body.reverse).reverse ++ before) dollar).outcome config
        (pos + mode.closing.utf8Size) rest := by
  rw [outcome_cons]
  simp only [step, Region.escaping, h, stepQuoted]
  rfl

/-- A section without closing quote is an error that lasts to the end of the line. -/
theorem outcome_of_body_none {text body : Text} {pos : Nat} (h : mode.body? config text = none) :
    (inside before mode start body dollar).outcome config pos text =
      { words := []
        error? := some (.unterminatedQuote mode.closing ⟨start, pos + Text.byteLength text⟩) } := by
  fun_induction QuoteMode.body? config mode text generalizing body pos with
  | case1 => simp [outcome, finish]
  | case2 c hescape =>
    simp only [outcome, step, Region.escaping, hescape]
    simp [Step.word?, finish]
  | case3 c hescape d rest ih =>
    rw [outcome_inside_pair hescape, ih (by simpa using h)]
    simp [Nat.add_assoc]
  | case4 => simp at h
  | case5 c rest hescape hclosing ih =>
    rw [outcome_inside_char hescape hclosing, ih (by simpa using h)]
    simp [Nat.add_assoc]

/-- A closed section adds its decoded body to the word. -/
theorem outcome_of_isBody {kept body : Text} {pos : Nat} (h : IsBody config mode body)
    (after : Text) :
    (inside before mode start kept dollar).outcome config pos (body ++ mode.closing :: after) =
      (inWord ((mode.decode config (kept.reverse ++ mode.kept config body)).reverse ++ before)
        dollar).outcome config (pos + Text.byteLength body + mode.closing.utf8Size) after := by
  induction h generalizing kept pos with
  | nil hescape =>
    rw [List.nil_append, outcome_inside_closing hescape]
    simp
  | pair hescape hbody ih =>
    rw [List.cons_append, List.cons_append, outcome_inside_pair hescape, ih,
      QuoteMode.kept_pair hescape]
    congr 1
    · split <;> simp
    · simp [Nat.add_assoc]
  | char hescape hclosing hbody ih =>
    rw [List.cons_append, outcome_inside_char hescape hclosing, ih, QuoteMode.kept_char hescape]
    simp [Nat.add_assoc]

end State

/-! ### Outside quotes -/

namespace Gathered

/-- Where the machine stands between two pieces. -/
def region (gathered : Gathered) : Region :=
  match gathered.started with
  | none => .gap
  | some text => .word text.reverse

@[simp] theorem escaping_region (gathered : Gathered) (config : Config) :
    gathered.region.escaping config = true := by
  unfold region
  split <;> rfl

@[simp] theorem word?_region (gathered : Gathered) : gathered.region.word? = gathered.started := by
  unfold region
  split <;> simp_all [Region.word?]

theorem pending_region (gathered : Gathered) :
    gathered.region.pending = (gathered.started.getD []).reverse := by
  unfold region
  split <;> simp_all [Region.pending]

theorem push_region (gathered : Gathered) (c : Char) :
    gathered.region.push c = (gathered.extend [c]).region := by
  simp only [region, extend]
  split <;> simp_all [Region.push]

theorem pushEscaped_region (config : Config) (gathered : Gathered) (e c : Char) :
    gathered.region.pushEscaped e c = (gathered.add config (.escaped e c)).region := by
  simp only [Region.pushEscaped, add]
  split
  · rfl
  · rw [← push_region]
    cases hstarted : gathered.started <;> simp [region, hstarted]

@[simp] theorem region_cut (gathered : Gathered) : gathered.cut.region = .gap := rfl

@[simp] theorem words_extend (gathered : Gathered) (text : Text) :
    (gathered.extend text).words = gathered.words := rfl

end Gathered

abbrev State.between (gathered : Gathered) (dollar : Option Nat) : State :=
  { region := gathered.region, dollar }

/-- What comes of the rest of a line after some pieces. -/
def resume (config : Config) (gathered : Gathered) (dollar : Option Nat) (pos : Nat) (text : Text) :
    Run :=
  ((State.between gathered dollar).outcome config pos text).prepend gathered.words

/-- Whether the dollar that the machine remembers stands right before an offset. -/
def isBefore (dollar : Option Nat) (pos : Nat) : Bool :=
  dollar.any (· + 1 == pos)

theorem isBefore_eq_false {dollar : Option Nat} {pos pos' : Nat} (h : ∀ d ∈ dollar, d < pos)
    (hpos : pos < pos') : isBefore dollar pos' = false := by
  cases dollar with
  | none => rfl
  | some d =>
    have := h d rfl
    simp [isBefore]
    omega

/-- What the machine and the layout of the text ahead agree on between two pieces. -/
structure Seam (config : Config) (gathered : Gathered) (dollar : Option Nat) (pos : Nat)
    (afterDollar : Bool) (text : Text) : Prop where
  /-- The remembered dollar has been read. -/
  behind : ∀ d ∈ dollar, d < pos
  /-- A quote ahead has the same mode for both. -/
  mode : ∀ q rest, text = q :: rest → config.isEscape q = false → config.isQuote q →
    QuoteMode.opened config (isBefore dollar pos) q = QuoteMode.opened config afterDollar q
  /-- A dollar that separates words has left none started. -/
  gap : afterDollar → gathered.started = none

/-- Past the dollar that the machine remembers, the layout needs no flag. -/
theorem Seam.of_lt {config : Config} {gathered : Gathered} {dollar : Option Nat} {pos pos' : Nat}
    {text : Text} (h : ∀ d ∈ dollar, d < pos) (hpos : pos < pos') :
    Seam config gathered dollar pos' false text where
  behind d hd := Nat.lt_trans (h d hd) hpos
  mode q rest _ _ _ := by rw [isBefore_eq_false h hpos]
  gap := nofun

section Pieces

variable {config : Config} {gathered : Gathered} {dollar : Option Nat} {pos : Nat}

/-- The dollar that the machine remembers after a character outside quotes. -/
def dollarAfter (dollar : Option Nat) (pos : Nat) (c : Char) : Option Nat :=
  if c = '$' then some pos else dollar

theorem State.step_between {c : Char} (hescape : config.isEscape c = false) :
    (between gathered dollar).step config pos c =
      (between gathered dollar).stepPlain config pos c := by
  simp only [step, hescape, Bool.false_and]
  unfold Gathered.region
  cases gathered.started <;> rfl

theorem State.step_quote {q : Char} (hescape : config.isEscape q = false)
    (hquote : config.isQuote q) :
    (between gathered dollar).step config pos q =
      { state := { region := gathered.region.openQuote config pos (isBefore dollar pos) q
                   dollar } } := by
  rw [step_between hescape]
  simp only [stepPlain, hquote, if_true]
  rfl

theorem State.step_blank {c : Char} (hescape : config.isEscape c = false)
    (hquote : config.isQuote c = false) (hblank : config.isWhitespace c) :
    (between gathered dollar).step config pos c =
      { state := between gathered.cut (dollarAfter dollar pos c)
        completed := gathered.started.map .word } := by
  rw [step_between hescape]
  simp only [stepPlain, hquote, hblank, dollarAfter, Bool.false_eq_true, if_false, if_true]
  split <;> simp

theorem State.step_bare {c : Char} (hescape : config.isEscape c = false)
    (hquote : config.isQuote c = false) (hblank : config.isWhitespace c = false) :
    (between gathered dollar).step config pos c =
      { state := between (gathered.extend [c]) (dollarAfter dollar pos c) } := by
  rw [step_between hescape]
  simp only [stepPlain, hquote, hblank, dollarAfter, Bool.false_eq_true, if_false]
  split <;> simp [Gathered.push_region]

theorem resume_escaped {e c : Char} {rest : Text} (hescape : config.isEscape e) :
    resume config gathered dollar pos (e :: c :: rest) =
      resume config (gathered.add config (.escaped e c)) dollar (pos + e.utf8Size + c.utf8Size)
        rest := by
  have hwords : (gathered.add config (.escaped e c)).words = gathered.words := by
    simp only [Gathered.add]
    split <;> rfl
  simp only [resume, State.outcome_cons, State.step, hescape, Gathered.escaping_region,
    Bool.and_self, if_true, hwords, Gathered.pushEscaped_region config]
  rfl

theorem resume_blank {c : Char} {rest : Text} (hescape : config.isEscape c = false)
    (hquote : config.isQuote c = false) (hblank : config.isWhitespace c) :
    resume config gathered dollar pos (c :: rest) =
      resume config gathered.cut (dollarAfter dollar pos c) (pos + c.utf8Size) rest := by
  rw [resume, State.outcome_cons, State.step_blank hescape hquote hblank, Run.prepend_prepend]
  cases hstarted : gathered.started <;> simp [resume, Step.word?, Gathered.cut, hstarted]

theorem resume_bare {c : Char} {rest : Text} (hescape : config.isEscape c = false)
    (hquote : config.isQuote c = false) (hblank : config.isWhitespace c = false) :
    resume config gathered dollar pos (c :: rest) =
      resume config (gathered.extend [c]) (dollarAfter dollar pos c) (pos + c.utf8Size) rest := by
  rw [resume, State.outcome_cons, State.step_bare hescape hquote hblank]
  rfl

theorem resume_quote {q : Char} {rest : Text} (hescape : config.isEscape q = false)
    (hquote : config.isQuote q) :
    resume config gathered dollar pos (q :: rest) =
      (State.outcome config
        { region := gathered.region.openQuote config pos (isBefore dollar pos) q, dollar }
        (pos + q.utf8Size) rest).prepend gathered.words := by
  rw [resume, State.outcome_cons, State.step_quote hescape hquote]
  rfl

@[simp] theorem QuoteMode.opened_false (q : Char) : opened config false q = .plain q := by
  simp [opened]

theorem QuoteMode.opened_true {q : Char} (h : (opened config true q).takesDollar = false) :
    opened config true q = .plain q := by
  revert h
  unfold opened
  split
  · exact nofun
  · split
    · exact nofun
    · intro _
      rfl

/-- An opening leads into its section, which starts at the quote or at the dollar that belongs to
it. -/
theorem resume_opening {afterDollar : Bool} {c : Char} {rest opening text : Text} {mode : QuoteMode}
    (hescape : config.isEscape c = false)
    (hopening : IsOpening config afterDollar c rest (opening, mode, text))
    (hseam : Seam config gathered dollar pos afterDollar (c :: rest)) :
    ∃ dollar', (∀ d ∈ dollar', d < pos + Text.byteLength opening) ∧
      resume config gathered dollar pos (c :: rest) =
        ((State.inside (gathered.started.getD []).reverse mode pos [] dollar').outcome config
          (pos + Text.byteLength opening) text).prepend gathered.words := by
  cases hopening with
  | quote hquote =>
    have hbehind : ∀ d ∈ dollar, d < pos + Text.byteLength [c] := by
      intro d hd
      exact Nat.lt_of_lt_of_le (hseam.behind d hd) (Nat.le_add_right _ _)
    refine ⟨dollar, hbehind, ?_⟩
    have hregion : gathered.region.openQuote config pos (isBefore dollar pos) c =
        .quoted (gathered.started.getD []).reverse
          { mode := .opened config afterDollar c, start := pos } := by
      simp only [Region.openQuote, hseam.mode c rest rfl hescape hquote, Gathered.pending_region]
      cases afterDollar with
      | false => simp [QuoteMode.takesDollar]
      | true => simp [hseam.gap rfl]
    rw [resume_quote hescape hquote, hregion]
    rfl
  | @dollar q _ hplain hblank hquote hq htakes =>
    have hsize : '$'.utf8Size = 1 := rfl
    have hbehind : ∀ d ∈ some pos, d < pos + Text.byteLength ['$', q] := by
      rintro d ⟨⟩
      simp only [Text.byteLength_cons, hsize]
      omega
    refine ⟨some pos, hbehind, ?_⟩
    have hregion : (gathered.extend ['$']).region.openQuote config (pos + 1) true q =
        .quoted (gathered.started.getD []).reverse
          { mode := .opened config true q, start := pos } := by
      simp [Region.openQuote, htakes, Gathered.pending_region, Gathered.extend]
    have hbefore : isBefore (some pos) (pos + 1) = true := by simp [isBefore]
    rw [resume_bare hescape hplain hblank, resume_quote hq hquote, dollarAfter, if_pos rfl, hsize,
      hbefore, hregion]
    simp [hsize, Nat.add_assoc]

theorem State.finish_between : (between gathered dollar).finish pos = .ok gathered.started := by
  rcases gathered with ⟨words, _ | text⟩ <;> simp [finish, Gathered.region, Region.word?]

theorem Seam.blank {afterDollar : Bool} {c : Char} {rest : Text}
    (hseam : Seam config gathered dollar pos afterDollar (c :: rest)) :
    Seam config gathered.cut (dollarAfter dollar pos c) (pos + c.utf8Size) (c == '$') rest := by
  by_cases hc : c = '$'
  · subst hc
    have hsize : '$'.utf8Size = 1 := rfl
    constructor
    · simp [dollarAfter, hsize]
    · simp [dollarAfter, isBefore, hsize]
    · simp [Gathered.cut]
  · simp only [dollarAfter, hc, if_false, beq_eq_false_iff_ne.2 hc]
    exact .of_lt hseam.behind (Nat.lt_add_of_pos_right c.utf8Size_pos)

/-- The seam after a character that stands for itself. If it is a dollar, then no section opens
right after it whose mode it could change. -/
theorem Seam.bare {afterDollar : Bool} {c : Char} {rest : Text}
    (hseam : Seam config gathered dollar pos afterDollar (c :: rest))
    (hopening : opening? config afterDollar c rest = none) (hblank : config.isWhitespace c = false) :
    Seam config (gathered.extend [c]) (dollarAfter dollar pos c) (pos + c.utf8Size) false rest := by
  by_cases hc : c = '$'
  · subst hc
    have hsize : '$'.utf8Size = 1 := rfl
    constructor
    · simp [dollarAfter, hsize]
    · rintro q rest rfl hescape hquote
      have htakes := (opening?_eq_none hopening).2 q rest rfl rfl hblank hquote hescape
      simp [dollarAfter, isBefore, hsize, QuoteMode.opened_true htakes]
    · exact nofun
  · simp only [dollarAfter, hc, if_false]
    exact .of_lt hseam.behind (Nat.lt_add_of_pos_right c.utf8Size_pos)

/-- Reading the rest of a line on from between two pieces follows the layout of the rest. -/
theorem resume_eq_run {afterDollar : Bool} {text : Text}
    (hseam : Seam config gathered dollar pos afterDollar text) :
    resume config gathered dollar pos text =
      (layout config afterDollar text).run config (pos + Text.byteLength text) gathered := by
  induction afterDollar, text using layout_induction config
    generalizing gathered dollar pos with
  | stop afterDollar text ending h =>
    rw [h.layout_stop]
    cases h with
    | complete =>
      simp [resume, State.outcome, State.finish_between, Layout.run, Ending.error?,
        Gathered.addAll, Gathered.cut, Run.prepend]
    | @escape c hescape =>
      have hstep : (State.between gathered dollar).step config pos c =
          { state := { State.between gathered dollar with escape := some (pos, c) } } := by
        simp [State.step, hescape]
      have hfinish : ({ State.between gathered dollar with escape := some (pos, c) } : State).finish
          (pos + c.utf8Size) = .error (.unterminatedEscape c (.charAt pos c)) := by
        rcases gathered with ⟨words, _ | text⟩ <;> rfl
      rw [resume, State.outcome_cons, hstep]
      simp [State.outcome, hfinish, Layout.run, Ending.error?, Ending.text, Gathered.addAll,
        Step.word?, Run.prepend, Span.charAt]
    | quote hescape hopening hbody =>
      have htext := (isOpening hopening).text_eq
      obtain ⟨dollar', -, hresume⟩ := resume_opening hescape (isOpening hopening) hseam
      rw [hresume, State.outcome_of_body_none hbody, htext]
      simp [Layout.run, Ending.error?, Ending.text, Gathered.addAll, Run.prepend, Nat.add_assoc]
  | next afterDollar text piece flag rest h ih =>
    have hsize : pos + Text.byteLength text =
        pos + Text.byteLength piece.text + Text.byteLength rest := by
      rw [h.text_eq, Front.text, Text.byteLength_append, Nat.add_assoc]
    rw [h.layout_next, Layout.run_cons, hsize]
    cases h with
    | @escaped c d _ hescape =>
      have hpos := c.utf8Size_pos
      rw [resume_escaped hescape, ih (.of_lt hseam.behind (by omega))]
      simp [Piece.text, Nat.add_assoc]
    | @quoted _ _ opening _ body _ mode hescape hopening hbody =>
      obtain ⟨dollar', hdollar, hresume⟩ := resume_opening hescape (isOpening hopening) hseam
      obtain ⟨hbody, htext⟩ := isBody hbody
      have hpos : pos + Text.byteLength opening <
          pos + Text.byteLength (Piece.quoted opening mode body).text := by
        have := mode.closing.utf8Size_pos
        simp [Piece.text]
        omega
      have hword : State.inWord ((mode.decode config (mode.kept config body)).reverse ++
            (gathered.started.getD []).reverse) dollar' =
          State.between (gathered.add config (.quoted opening mode body)) dollar' := by
        simp [Gathered.add, Gathered.extend, Gathered.region, QuoteMode.contribution]
      rw [hresume, htext, State.outcome_of_isBody hbody]
      simp only [List.reverse_nil, List.nil_append, hword]
      rw [← ih (.of_lt hdollar hpos)]
      simp [resume, Gathered.add, Piece.text, Nat.add_assoc]
    | blank hescape hopening hblank =>
      rw [resume_blank hescape (opening?_eq_none hopening).1 hblank, ih hseam.blank]
      rfl
    | bare hescape hopening hblank =>
      rw [resume_bare hescape (opening?_eq_none hopening).1 hblank, ih (hseam.bare hopening hblank)]
      rfl

end Pieces

theorem run_eq_runByPieces (config : Config) (line : Text) :
    run config line = runByPieces config line := by
  have hseam : Seam config {} none 0 false line := ⟨nofun, fun _ _ _ _ _ => rfl, nofun⟩
  have hresume := resume_eq_run hseam
  rw [Nat.zero_add] at hresume
  rw [run_eq_outcome, runByPieces, ← hresume]
  rfl

/-- A lexer gives, one by one, the items that come of splitting the line piece by piece, and
splitting the line at once gives their result. -/
theorem gives_runByPieces (config : Config) (line : Text) :
    (Lexer.ofText config line).Gives (runByPieces config line).items ∧
      split config line = (runByPieces config line).result := by
  have hrun := run_eq_runByPieces config line
  constructor
  · rw [← hrun]
    exact Lexer.gives_run config line
  · rw [split, hrun]

end ShellWords
