import ShellWords.Lexer.Run

/-! Lines cut into pieces. Outside quotes a line is a row of pieces, each taken as a whole: an
escape character with its operand, a quoted section up to its closing quote, a separator, or a
character that stands for itself. `layout` cuts a line, and `runByPieces` reads its words off the
pieces and its error off what no piece covers. -/

namespace ShellWords

/-- A part of a line that is taken as a whole outside quotes. -/
inductive Piece where
  /-- An escape character and the character after it. -/
  | escaped (escape operand : Char)
  /-- A section from its opening, a quote or a dollar and a quote, to its closing quote. The body
  is what stands between them. -/
  | quoted (opening : Text) (mode : QuoteMode) (body : Text)
  | blank (c : Char)
  | bare (c : Char)
deriving DecidableEq, Repr

/-- What is left of a line after its last piece. -/
inductive Ending where
  | complete
  | escape (c : Char)
  /-- The opening of a section and the text in it, which does not close it. -/
  | quote (opening : Text) (mode : QuoteMode) (inside : Text)
deriving DecidableEq, Repr

/-- What a text outside quotes begins with. -/
inductive Front where
  | stop (ending : Ending)
  /-- A piece, and the text after it. The flag says whether the piece is a dollar that separates
  words, since such a dollar still gives a quote after it its mode. -/
  | next (piece : Piece) (afterDollar : Bool) (rest : Text)
deriving DecidableEq, Repr

/-- The pieces of a line and its ending. -/
structure Layout where
  pieces : List Piece := []
  ending : Ending := .complete
deriving DecidableEq, Repr

def Layout.cons (piece : Piece) (layout : Layout) : Layout :=
  { layout with pieces := piece :: layout.pieces }

/-! ### Cutting a line -/

/-- The text inside a section, cut at the closing quote into the body and what comes after. Where
escape characters escape, one of them and the character after it are passed over as a pair. -/
def QuoteMode.body? (config : Config) (mode : QuoteMode) : Text → Option (Text × Text)
  | [] => none
  | c :: rest =>
    if config.isEscape c && mode.honorsEscapes config then
      match rest with
      | [] => none
      | d :: rest => (mode.body? config rest).map fun (body, after) => (c :: d :: body, after)
    else if c = mode.closing then some ([], rest)
    else (mode.body? config rest).map fun (body, after) => (c :: body, after)

/-- The opening of a section at the front of a text, its mode, and the text inside. A dollar that
separates no words opens a section together with the quote after it if the quote needs it for its
mode. -/
def opening? (config : Config) (afterDollar : Bool) (c : Char) (rest : Text) :
    Option (Text × QuoteMode × Text) :=
  if config.isQuote c then some ([c], .opened config afterDollar c, rest)
  else
    match rest with
    | [] => none
    | q :: inside =>
      let mode := QuoteMode.opened config true q
      if c = '$' && !config.isWhitespace c && config.isQuote q && !config.isEscape q &&
          mode.takesDollar then
        some ([c, q], mode, inside)
      else none

/-- Takes the first piece off a text. -/
def front (config : Config) (afterDollar : Bool) : Text → Front
  | [] => .stop .complete
  | c :: rest =>
    if config.isEscape c then
      match rest with
      | [] => .stop (.escape c)
      | d :: rest => .next (.escaped c d) false rest
    else
      match opening? config afterDollar c rest with
      | some (opening, mode, inside) =>
        match mode.body? config inside with
        | none => .stop (.quote opening mode inside)
        | some (body, after) => .next (.quoted opening mode body) false after
      | none =>
        if config.isWhitespace c then .next (.blank c) (c == '$') rest
        else .next (.bare c) false rest

namespace Piece

def text : Piece → Text
  | escaped escape operand => [escape, operand]
  | quoted opening mode body => opening ++ body ++ [mode.closing]
  | blank c => [c]
  | bare c => [c]

end Piece

namespace Ending

def text : Ending → Text
  | complete => []
  | escape c => [c]
  | quote opening _ inside => opening ++ inside

end Ending

def Front.text : Front → Text
  | .stop ending => ending.text
  | .next piece _ rest => piece.text ++ rest

/-! ### The cases of the cut -/

namespace QuoteMode

variable {config : Config} {mode : QuoteMode} {c d : Char} {rest : Text}

theorem body?_pair (h : (config.isEscape c && mode.honorsEscapes config) = true) :
    mode.body? config (c :: d :: rest) =
      (mode.body? config rest).map fun (body, after) => (c :: d :: body, after) := by
  rw [body?, if_pos h]

theorem body?_closing (h : ¬(config.isEscape mode.closing && mode.honorsEscapes config) = true) :
    mode.body? config (mode.closing :: rest) = some ([], rest) := by
  cases rest <;> simp only [body?, if_neg h, if_true]

theorem body?_char (h : ¬(config.isEscape c && mode.honorsEscapes config) = true)
    (hclosing : c ≠ mode.closing) :
    mode.body? config (c :: rest) =
      (mode.body? config rest).map fun (body, after) => (c :: body, after) := by
  cases rest <;> simp only [body?, if_neg h, if_neg hclosing, Option.map_none]

end QuoteMode

/-- What can stand between the opening and the closing quote of a section. -/
inductive IsBody (config : Config) (mode : QuoteMode) : Text → Prop where
  | nil (hescape : ¬(config.isEscape mode.closing && mode.honorsEscapes config) = true) :
    IsBody config mode []
  | pair {c d : Char} {body : Text}
    (hescape : (config.isEscape c && mode.honorsEscapes config) = true)
    (hbody : IsBody config mode body) : IsBody config mode (c :: d :: body)
  | char {c : Char} {body : Text}
    (hescape : ¬(config.isEscape c && mode.honorsEscapes config) = true)
    (hclosing : c ≠ mode.closing) (hbody : IsBody config mode body) :
    IsBody config mode (c :: body)

section Body

variable {config : Config} {mode : QuoteMode} {body : Text}

theorem isBody {inside after : Text} (h : mode.body? config inside = some (body, after)) :
    IsBody config mode body ∧ inside = body ++ mode.closing :: after := by
  fun_induction QuoteMode.body? config mode inside generalizing body with
  | case1 | case2 => simp at h
  | case3 c hescape d rest ih =>
    obtain ⟨⟨body, _⟩, hbody, heq⟩ := Option.map_eq_some_iff.1 h
    cases heq
    obtain ⟨hrest, rfl⟩ := ih hbody
    exact ⟨.pair hescape hrest, rfl⟩
  | case4 rest hescape =>
    cases h
    exact ⟨.nil hescape, rfl⟩
  | case5 c rest hescape hclosing ih =>
    obtain ⟨⟨body, _⟩, hbody, heq⟩ := Option.map_eq_some_iff.1 h
    cases heq
    obtain ⟨hrest, rfl⟩ := ih hbody
    exact ⟨.char hescape hclosing hrest, rfl⟩

/-- A body is cut off at the quote that closes it, whatever comes after. -/
theorem IsBody.body?_eq (h : IsBody config mode body) (after : Text) :
    mode.body? config (body ++ mode.closing :: after) = some (body, after) := by
  induction h with
  | nil hescape => exact QuoteMode.body?_closing hescape
  | pair hescape hbody ih =>
    rw [List.cons_append, List.cons_append, QuoteMode.body?_pair hescape, ih]
    rfl
  | char hescape hclosing hbody ih =>
    rw [List.cons_append, QuoteMode.body?_char hescape hclosing, ih]
    rfl

theorem isBody_raw (hmode : mode.honorsEscapes config = false) (hbody : mode.closing ∉ body) :
    IsBody config mode body := by
  induction body with
  | nil => exact .nil (by simp [hmode])
  | cons c body ih =>
    obtain ⟨hc, hbody⟩ := List.ne_and_not_mem_of_not_mem_cons hbody
    exact .char (by simp [hmode]) hc.symm (ih hbody)

end Body

inductive IsOpening (config : Config) (afterDollar : Bool) :
    Char → Text → Text × QuoteMode × Text → Prop where
  | quote {q : Char} {inside : Text} (hquote : config.isQuote q) :
    IsOpening config afterDollar q inside ([q], .opened config afterDollar q, inside)
  | dollar {q : Char} {inside : Text} (hplain : config.isQuote '$' = false)
    (hblank : config.isWhitespace '$' = false) (hquote : config.isQuote q)
    (hescape : config.isEscape q = false) (htakes : (QuoteMode.opened config true q).takesDollar) :
    IsOpening config afterDollar '$' (q :: inside) (['$', q], .opened config true q, inside)

theorem isOpening {config : Config} {afterDollar : Bool} {c : Char} {rest : Text}
    {opening : Text × QuoteMode × Text} (h : opening? config afterDollar c rest = some opening) :
    IsOpening config afterDollar c rest opening := by
  revert h
  fun_cases opening? config afterDollar c rest with
  | case1 _ hquote =>
    rintro ⟨⟩
    exact .quote hquote
  | case3 hquote q inside mode hall =>
    rintro ⟨⟩
    simp only [Bool.and_eq_true, Bool.not_eq_true', decide_eq_true_eq] at hall
    obtain ⟨⟨⟨⟨rfl, hblank⟩, hq⟩, hescape⟩, htakes⟩ := hall
    exact .dollar (Bool.eq_false_iff.2 hquote) hblank hq hescape htakes
  | case2 | case4 => exact nofun

theorem opening?_eq_none {config : Config} {afterDollar : Bool} {c : Char} {rest : Text}
    (h : opening? config afterDollar c rest = none) :
    config.isQuote c = false ∧
      ∀ q inside, rest = q :: inside → c = '$' → config.isWhitespace c = false →
        config.isQuote q → config.isEscape q = false →
        (QuoteMode.opened config true q).takesDollar = false := by
  revert h
  fun_cases opening? config afterDollar c rest with
  | case1 | case3 => exact nofun
  | case2 hquote =>
    intro _
    exact ⟨Bool.eq_false_iff.2 hquote, nofun⟩
  | case4 hquote q inside mode hall =>
    intro _
    refine ⟨Bool.eq_false_iff.2 hquote, ?_⟩
    rintro _ _ ⟨⟩ hc hblank hq hescape
    simpa [hc ▸ hblank, hq, hescape, hc] using hall

/-- All that a text outside quotes can begin with, and when it does. -/
inductive IsFront (config : Config) (afterDollar : Bool) : Text → Front → Prop where
  | complete : IsFront config afterDollar [] (.stop .complete)
  | escape {c : Char} (hescape : config.isEscape c) :
    IsFront config afterDollar [c] (.stop (.escape c))
  | quote {c : Char} {rest opening inside : Text} {mode : QuoteMode}
    (hescape : config.isEscape c = false)
    (hopening : opening? config afterDollar c rest = some (opening, mode, inside))
    (hbody : mode.body? config inside = none) :
    IsFront config afterDollar (c :: rest) (.stop (.quote opening mode inside))
  | escaped {c d : Char} {rest : Text} (hescape : config.isEscape c) :
    IsFront config afterDollar (c :: d :: rest) (.next (.escaped c d) false rest)
  | quoted {c : Char} {rest opening inside body after : Text} {mode : QuoteMode}
    (hescape : config.isEscape c = false)
    (hopening : opening? config afterDollar c rest = some (opening, mode, inside))
    (hbody : mode.body? config inside = some (body, after)) :
    IsFront config afterDollar (c :: rest) (.next (.quoted opening mode body) false after)
  | blank {c : Char} {rest : Text} (hescape : config.isEscape c = false)
    (hopening : opening? config afterDollar c rest = none) (hblank : config.isWhitespace c) :
    IsFront config afterDollar (c :: rest) (.next (.blank c) (c == '$') rest)
  | bare {c : Char} {rest : Text} (hescape : config.isEscape c = false)
    (hopening : opening? config afterDollar c rest = none)
    (hblank : config.isWhitespace c = false) :
    IsFront config afterDollar (c :: rest) (.next (.bare c) false rest)

theorem isFront (config : Config) (afterDollar : Bool) (text : Text) :
    IsFront config afterDollar text (front config afterDollar text) := by
  fun_cases front config afterDollar text with
  | case1 => exact .complete
  | case2 c hescape => exact .escape hescape
  | case3 c hescape d rest => exact .escaped hescape
  | case4 c rest hescape opening mode inside hopening hbody =>
    exact .quote (Bool.eq_false_iff.2 hescape) hopening hbody
  | case5 c rest hescape opening mode inside hopening body after hbody =>
    exact .quoted (Bool.eq_false_iff.2 hescape) hopening hbody
  | case6 c rest hescape hopening hblank =>
    exact .blank (Bool.eq_false_iff.2 hescape) hopening hblank
  | case7 c rest hescape hopening hblank =>
    exact .bare (Bool.eq_false_iff.2 hescape) hopening (Bool.eq_false_iff.2 hblank)

theorem IsOpening.text_eq {config : Config} {afterDollar : Bool} {c : Char} {rest : Text}
    {opening : Text × QuoteMode × Text} (h : IsOpening config afterDollar c rest opening) :
    c :: rest = opening.1 ++ opening.2.2 := by
  cases h <;> rfl

theorem IsFront.text_eq {config : Config} {afterDollar : Bool} {text : Text} {front : Front}
    (h : IsFront config afterDollar text front) : text = front.text := by
  cases h with
  | complete | escape | escaped | blank | bare => rfl
  | quote _ hopening => exact (isOpening hopening).text_eq
  | quoted _ hopening hbody =>
    rw [(isOpening hopening).text_eq, (isBody hbody).2]
    simp [Front.text, Piece.text]

theorem IsFront.front_eq {config : Config} {afterDollar : Bool} {text : Text} {front' : Front}
    (h : IsFront config afterDollar text front') : front config afterDollar text = front' := by
  cases h <;> simp [front, *]

/-! ### The layout of a line -/

theorem Piece.text_ne_nil (piece : Piece) : piece.text ≠ [] := by
  cases piece <;> simp [text]

theorem IsFront.length_lt {config : Config} {afterDollar flag : Bool} {text rest : Text}
    {piece : Piece} (h : IsFront config afterDollar text (.next piece flag rest)) :
    rest.length < text.length := by
  have hpos := List.length_pos_iff.2 piece.text_ne_nil
  rw [h.text_eq, Front.text, List.length_append]
  omega

/-- Cuts a text into pieces. The flag says whether a dollar that separates words stands right
before the text. -/
def layout (config : Config) (afterDollar : Bool) (text : Text) : Layout :=
  match _h : front config afterDollar text with
  | .stop ending => { ending }
  | .next piece flag rest => (layout config flag rest).cons piece
termination_by text.length
decreasing_by exact (_h ▸ isFront config afterDollar text).length_lt

theorem IsFront.layout_stop {config : Config} {afterDollar : Bool} {text : Text} {ending : Ending}
    (h : IsFront config afterDollar text (.stop ending)) :
    layout config afterDollar text = { ending } := by
  have hfront := h.front_eq
  rw [layout]
  split <;> simp_all

theorem IsFront.layout_next {config : Config} {afterDollar flag : Bool} {text rest : Text}
    {piece : Piece}
    (h : IsFront config afterDollar text (.next piece flag rest)) :
    layout config afterDollar text = (layout config flag rest).cons piece := by
  have hfront := h.front_eq
  rw [layout]
  split <;> simp_all

/-- Induction on the pieces of a text. -/
theorem layout_induction (config : Config) {motive : Bool → Text → Prop}
    (stop : ∀ afterDollar text ending, IsFront config afterDollar text (.stop ending) →
      motive afterDollar text)
    (next : ∀ afterDollar text piece flag rest,
      IsFront config afterDollar text (.next piece flag rest) → motive flag rest →
      motive afterDollar text)
    (afterDollar : Bool) (text : Text) : motive afterDollar text := by
  fun_induction layout config afterDollar text with
  | case1 afterDollar text ending h =>
    exact stop _ _ ending (h ▸ isFront config afterDollar text)
  | case2 afterDollar text piece flag rest h ih =>
    exact next _ _ piece flag rest (h ▸ isFront config afterDollar text) ih

def Piece.texts (pieces : List Piece) : Text :=
  pieces.flatMap Piece.text

/-- The pieces of a line and its ending are the whole line. -/
theorem texts_layout (config : Config) (afterDollar : Bool) (text : Text) :
    Piece.texts (layout config afterDollar text).pieces ++
      (layout config afterDollar text).ending.text = text := by
  induction afterDollar, text using layout_induction config with
  | stop afterDollar text ending h =>
    rw [h.layout_stop]
    exact h.text_eq.symm
  | next afterDollar text piece flag rest h ih =>
    rw [h.layout_next, h.text_eq]
    simpa [Front.text, Layout.cons, Piece.texts] using ih

/-! ### The words of a line -/

/-- A body without the pairs of an escape character and a line end. -/
def joinLines (config : Config) : Text → Text
  | [] => []
  | [c] => [c]
  | c :: d :: rest =>
    if config.isEscape c then
      if d = '\n' then joinLines config rest else c :: d :: joinLines config rest
    else c :: joinLines config (d :: rest)

def QuoteMode.kept (config : Config) (mode : QuoteMode) (body : Text) : Text :=
  if mode.honorsEscapes config then joinLines config body else body

/-- The text that a section with the given body adds to its word. -/
def QuoteMode.contribution (config : Config) (mode : QuoteMode) (body : Text) : Text :=
  mode.decode config (mode.kept config body)

/-- The words that some pieces complete, and the word that they leave started. -/
structure Gathered where
  words : List Text := []
  started : Option Text := none
deriving DecidableEq, Repr

namespace Gathered

/-- Adds a text to the started word, and starts one if there is none. -/
def extend (text : Text) (gathered : Gathered) : Gathered :=
  { gathered with started := some (gathered.started.getD [] ++ text) }

def cut (gathered : Gathered) : Gathered :=
  { words := gathered.words ++ gathered.started.toList }

/-- What a piece does. An escaped line end does nothing. -/
def add (config : Config) (gathered : Gathered) : Piece → Gathered
  | .escaped _ c => if c = '\n' then gathered else gathered.extend [c]
  | .quoted _ mode body => gathered.extend (mode.contribution config body)
  | .blank _ => gathered.cut
  | .bare c => gathered.extend [c]

def addAll (config : Config) (gathered : Gathered) (pieces : List Piece) : Gathered :=
  pieces.foldl (add config) gathered

theorem addAll_cons (config : Config) (gathered : Gathered) (piece : Piece)
    (pieces : List Piece) :
    gathered.addAll config (piece :: pieces) =
      (gathered.add config piece).addAll config pieces := rfl

end Gathered

/-- The error of a line of `size` bytes, if it ends within a piece. -/
def Ending.error? (size : Nat) (ending : Ending) : Option SplitError :=
  let span : Span := ⟨size - Text.byteLength ending.text, size⟩
  match ending with
  | complete => none
  | escape c => some (.unterminatedEscape c span)
  | quote _ mode _ => some (.unterminatedQuote mode.closing span)

/-- What comes of a line of `size` bytes that ends with the given layout, after what has been
gathered from the pieces before. -/
def Layout.run (config : Config) (size : Nat) (gathered : Gathered) (layout : Layout) : Run :=
  let gathered := gathered.addAll config layout.pieces
  match layout.ending.error? size with
  | none => { words := gathered.cut.words }
  | some error => { words := gathered.words, error? := some error }

theorem Layout.run_cons (config : Config) (size : Nat) (gathered : Gathered) (piece : Piece)
    (layout : Layout) :
    (layout.cons piece).run config size gathered =
      layout.run config size (gathered.add config piece) := rfl

/-- Splits a line piece by piece. -/
def runByPieces (config : Config) (line : Text) : Run :=
  (layout config false line).run config (Text.byteLength line) {}

end ShellWords
