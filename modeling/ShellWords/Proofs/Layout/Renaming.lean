import Mathlib.Logic.Function.Basic
import ShellWords.Proofs.Layout.Run

/-! Layouts of renamed lines. Two configurations are mirrors of each other if a renaming of
characters carries the classes of the one to those of the other, as far as an earlier class does not
hide a later one. Then they cut a line and the renamed line into corresponding pieces
(`layout_rename`), and find corresponding words and errors (`run_rename`). -/

namespace ShellWords

/-- The classes that `config'` gives to renamed characters are those of `config`. A character that
escapes has no other meaning, a quote separates no words, and only quotes have sections. -/
structure Config.Mirrors (rename : Char → Char) (config config' : Config) : Prop where
  injective : rename.Injective
  lineEnd : rename '\n' = '\n'
  escape : ∀ c, config'.isEscape (rename c) = config.isEscape c
  quote : ∀ c, config.isEscape c = false → config'.isQuote (rename c) = config.isQuote c
  blank : ∀ c, config.isEscape c = false → config.isQuote c = false →
    config'.isWhitespace (rename c) = config.isWhitespace c
  escapesWithin : ∀ q, config.isEscape q = false → config.isQuote q →
    config'.escapesWithin (rename q) = config.escapesWithin q
  ansiC : config'.ansiC = config.ansiC
  locale : config'.locale = config.locale
  /-- Sections with a dollar have characters and escapes of their own, and so nothing is renamed
  while there are any. -/
  fixed : config.ansiC ∨ config.locale → rename = id

/-! ### Renamed pieces -/

def QuoteMode.rename (rename : Char → Char) : QuoteMode → QuoteMode
  | plain quote => plain (rename quote)
  | ansiC => ansiC
  | locale => locale

def Piece.rename (rename : Char → Char) : Piece → Piece
  | escaped escape operand => escaped (rename escape) (rename operand)
  | quoted opening mode body => quoted (opening.map rename) (mode.rename rename) (body.map rename)
  | blank c => blank (rename c)
  | bare c => bare (rename c)

def Ending.rename (rename : Char → Char) : Ending → Ending
  | complete => complete
  | escape c => escape (rename c)
  | quote opening mode inside => quote (opening.map rename) (mode.rename rename) (inside.map rename)

def Layout.rename (rename : Char → Char) (layout : Layout) : Layout where
  pieces := layout.pieces.map (·.rename rename)
  ending := layout.ending.rename rename

def Gathered.rename (rename : Char → Char) (gathered : Gathered) : Gathered where
  words := gathered.words.map (·.map rename)
  started := gathered.started.map (·.map rename)

/-- The same error about a renamed character and another span. -/
def SplitError.rename (rename : Char → Char) (span : Span) : SplitError → SplitError
  | unterminatedQuote quote _ => unterminatedQuote (rename quote) span
  | unterminatedEscape escape _ => unterminatedEscape (rename escape) span

@[simp] theorem QuoteMode.rename_id (mode : QuoteMode) : mode.rename id = mode := by
  cases mode <;> rfl

/-- Whether the first of two characters is a dollar that the second draws into the opening of a
section. -/
def Config.drawsDollar (config : Config) (c q : Char) : Bool :=
  c = '$' && !config.isWhitespace c && config.isQuote q && !config.isEscape q &&
    (QuoteMode.opened config true q).takesDollar

theorem Config.eq_dollar {config : Config} {c q : Char} (h : config.drawsDollar c q) :
    (c == '$') = true := by
  simp only [drawsDollar, Bool.and_eq_true, decide_eq_true_eq] at h
  simp [h.1.1.1.1]

theorem opening?_cons {config : Config} {afterDollar : Bool} {c q : Char} {inside : Text}
    (hquote : config.isQuote c = false) :
    opening? config afterDollar c (q :: inside) =
      if config.drawsDollar c q then some ([c, q], .opened config true q, inside) else none := by
  simp [opening?, hquote, Config.drawsDollar]

section Mirrors

variable {rename : Char → Char} {config config' : Config} (h : config.Mirrors rename config')
include h

/-! ### Sections -/

theorem joinLines_rename (body : Text) :
    joinLines config' (body.map rename) = (joinLines config body).map rename := by
  fun_induction joinLines config body with
  | case1 => rfl
  | case2 c => rfl
  | case3 c rest hescape ih =>
    simp [joinLines, h.escape, hescape, h.lineEnd, ih]
  | case4 c d rest hescape hd ih =>
    have hd' : rename d ≠ '\n' := fun heq => hd (h.injective (heq.trans h.lineEnd.symm))
    simp [joinLines, h.escape, hescape, hd', ih]
  | case5 c d rest hescape ih =>
    simp_all [joinLines, h.escape]

theorem unescape_rename (quote : Char) (raw : Text) :
    Escape.unescape config' (rename quote) (raw.map rename) =
      (Escape.unescape config quote raw).map rename := by
  fun_induction Escape.unescape config quote raw with
  | case1 => rfl
  | case2 c => rfl
  | case3 c d rest hpair ih =>
    have hquote : (rename d == rename quote) = (d == quote) := by
      simp [h.injective.eq_iff]
    simp only [List.map_cons, Escape.unescape, h.escape, hquote, hpair, if_true, ih]
  | case4 c d rest hpair ih =>
    have hquote : (rename d == rename quote) = (d == quote) := by
      simp [h.injective.eq_iff]
    simp only [List.map_cons] at ih
    simp only [List.map_cons, Escape.unescape, h.escape, hquote, hpair, ih]
    simp

/-- A quote gets corresponding modes after characters that correspond. -/
theorem opened_rename (c q : Char) :
    QuoteMode.opened config' (rename c == '$') (rename q) =
      (QuoteMode.opened config (c == '$') q).rename rename := by
  by_cases hon : config.ansiC ∨ config.locale
  · obtain rfl := h.fixed hon
    simp [QuoteMode.opened, h.ansiC, h.locale]
  · simp only [not_or, Bool.not_eq_true] at hon
    simp [QuoteMode.opened, h.ansiC, h.locale, hon, QuoteMode.rename]

end Mirrors

/-- The flags of two texts, which say whether a dollar stands before them, give a quote there
corresponding modes. -/
def SameModes (rename : Char → Char) (config config' : Config) (afterDollar afterDollar' : Bool) :
    Prop :=
  ∀ q, QuoteMode.opened config' afterDollar' (rename q) =
    (QuoteMode.opened config afterDollar q).rename rename

theorem sameModes_false (rename : Char → Char) (config config' : Config) :
    SameModes rename config config' false false := by
  intro q
  simp [QuoteMode.rename]

/-- A mode and the renamed one have corresponding sections. -/
structure QuoteMode.Mirrored (rename : Char → Char) (config config' : Config) (mode : QuoteMode) :
    Prop where
  closing : (mode.rename rename).closing = rename mode.closing
  honorsEscapes : (mode.rename rename).honorsEscapes config' = mode.honorsEscapes config
  contribution : ∀ body, (mode.rename rename).contribution config' (body.map rename) =
    (mode.contribution config body).map rename

/-- The modes that the sections of a line can have. -/
inductive QuoteMode.Opens (config : Config) : QuoteMode → Prop where
  | plain {q : Char} (hescape : config.isEscape q = false) (hquote : config.isQuote q) :
    Opens config (.plain q)
  | ansiC (hon : config.ansiC) : Opens config .ansiC
  | locale (hon : config.locale) : Opens config .locale

theorem QuoteMode.opens_opened {config : Config} {q : Char} (afterDollar : Bool)
    (hescape : config.isEscape q = false) (hquote : config.isQuote q) :
    (opened config afterDollar q).Opens config := by
  unfold opened
  split
  · rename_i hansiC
    exact .ansiC hansiC.2.2
  · split
    · rename_i hlocale
      exact .locale hlocale.2.2
    · exact .plain hescape hquote

theorem IsOpening.opens {config : Config} {afterDollar : Bool} {c : Char} {rest : Text}
    {opening : Text × QuoteMode × Text} (h : IsOpening config afterDollar c rest opening)
    (hescape : config.isEscape c = false) : opening.2.1.Opens config := by
  cases h with
  | quote hquote => exact QuoteMode.opens_opened _ hescape hquote
  | dollar _ _ hquote hq _ => exact QuoteMode.opens_opened _ hq hquote

/-- A section has a mode that some quote of the configuration gives it. -/
def Piece.Opens (config : Config) : Piece → Prop
  | quoted _ mode _ => mode.Opens config
  | _ => True

theorem opens_of_mem_pieces {config : Config} {afterDollar : Bool} {text : Text} :
    ∀ piece ∈ (layout config afterDollar text).pieces, piece.Opens config := by
  induction afterDollar, text using layout_induction config with
  | stop afterDollar text ending h =>
    rw [h.layout_stop]
    exact nofun
  | next afterDollar text piece flag rest h ih =>
    rw [h.layout_next]
    intro piece' hmem
    rcases List.mem_cons.1 hmem with rfl | hmem
    · cases h with
      | quoted hescape hopening _ => exact (isOpening hopening).opens hescape
      | escaped | blank | bare => trivial
    · exact ih piece' hmem

def Ending.Opens (config : Config) : Ending → Prop
  | quote _ mode _ => mode.Opens config
  | _ => True

theorem opens_ending (config : Config) (afterDollar : Bool) (text : Text) :
    (layout config afterDollar text).ending.Opens config := by
  induction afterDollar, text using layout_induction config with
  | stop afterDollar text ending h =>
    rw [h.layout_stop]
    cases h with
    | quote hescape hopening _ => exact (isOpening hopening).opens hescape
    | complete | escape => trivial
  | next afterDollar text piece flag rest h ih =>
    rw [h.layout_next]
    exact ih

section Mirrors

variable {rename : Char → Char} {config config' : Config} (h : config.Mirrors rename config')
include h

theorem Config.Mirrors.mode {mode : QuoteMode} (hmode : mode.Opens config) :
    mode.Mirrored rename config config' := by
  cases hmode with
  | @plain q hescape hquote =>
    have hwithin := h.escapesWithin q hescape hquote
    refine ⟨rfl, hwithin, fun body => ?_⟩
    simp only [QuoteMode.rename, QuoteMode.contribution, QuoteMode.kept, QuoteMode.honorsEscapes,
      QuoteMode.decode, hwithin]
    by_cases hhonors : config.escapesWithin q = true
    · simp only [hhonors, if_true]
      rw [joinLines_rename h, unescape_rename h]
    · simp only [hhonors, Bool.false_eq_true, if_false]
  | ansiC hon =>
    obtain rfl := h.fixed (.inl hon)
    refine ⟨rfl, rfl, fun body => ?_⟩
    have hjoin := joinLines_rename h body
    have hdecode := Escape.AnsiC.decode_congr (funext h.escape)
    simp only [List.map_id] at hjoin
    simp [QuoteMode.contribution, QuoteMode.kept, QuoteMode.honorsEscapes, QuoteMode.decode, hjoin,
      hdecode]
  | locale hon =>
    obtain rfl := h.fixed (.inr hon)
    refine ⟨rfl, rfl, fun body => ?_⟩
    have hjoin := joinLines_rename h body
    have hunescape := unescape_rename h '"' (joinLines config body)
    simp only [List.map_id, id] at hjoin hunescape
    simp [QuoteMode.contribution, QuoteMode.kept, QuoteMode.honorsEscapes, QuoteMode.decode, hjoin,
      hunescape]

/-! ### Cutting a renamed line -/

theorem body?_rename {mode : QuoteMode} (hmode : mode.Mirrored rename config config')
    (text : Text) :
    (mode.rename rename).body? config' (text.map rename) =
      (mode.body? config text).map fun (body, after) => (body.map rename, after.map rename) := by
  have hpair : ∀ c, (config'.isEscape (rename c) && (mode.rename rename).honorsEscapes config') =
      (config.isEscape c && mode.honorsEscapes config) := by
    intro c
    rw [h.escape, hmode.honorsEscapes]
  fun_induction QuoteMode.body? config mode text with
  | case1 => rfl
  | case2 c hescape =>
    rw [← hpair] at hescape
    simp [QuoteMode.body?, hescape]
  | case3 c hescape d rest ih =>
    rw [← hpair] at hescape
    rw [List.map_cons, List.map_cons, QuoteMode.body?_pair hescape, ih, Option.map_map,
      Option.map_map]
    rfl
  | case4 rest hescape =>
    rw [← hpair, ← hmode.closing] at hescape
    rw [List.map_cons, ← hmode.closing, QuoteMode.body?_closing hescape]
    rfl
  | case5 c rest hescape hclosing ih =>
    rw [← hpair] at hescape
    have hclosing' : rename c ≠ (mode.rename rename).closing := by
      rw [hmode.closing]
      exact fun heq => hclosing (h.injective heq)
    rw [List.map_cons, QuoteMode.body?_char hescape hclosing', ih, Option.map_map, Option.map_map]
    rfl

omit h in
@[simp] theorem takesDollar_rename (mode : QuoteMode) :
    (mode.rename rename).takesDollar = mode.takesDollar := by
  cases mode <;> rfl

/-- A quote after corresponding characters needs a dollar there on both sides or on neither. -/
theorem takesDollar_opened (c q : Char) :
    (decide (rename c = '$') && (QuoteMode.opened config' true (rename q)).takesDollar) =
      (decide (c = '$') && (QuoteMode.opened config true q).takesDollar) := by
  have hdraws : ∀ (config : Config) (c q : Char),
      (decide (c = '$') && (QuoteMode.opened config true q).takesDollar) =
        (QuoteMode.opened config (c == '$') q).takesDollar := by
    intro config c q
    by_cases hc : c = '$'
    · simp [hc]
    · have hflag : (c == '$') = false := by simpa using hc
      simp [hc, hflag, QuoteMode.takesDollar]
  rw [hdraws, hdraws, opened_rename h, takesDollar_rename]

theorem drawsDollar_rename {c : Char} (hescape : config.isEscape c = false)
    (hquote : config.isQuote c = false) (q : Char) :
    config'.drawsDollar (rename c) (rename q) = config.drawsDollar c q := by
  have htakes := takesDollar_opened h c q
  simp only [Config.drawsDollar, h.blank c hescape hquote, h.escape]
  cases hq : config.isEscape q with
  | true => simp
  | false =>
    rw [h.quote q hq]
    grind

theorem opening?_rename {afterDollar afterDollar' : Bool} {c : Char}
    (hflag : SameModes rename config config' afterDollar afterDollar')
    (hescape : config.isEscape c = false) (rest : Text) :
    opening? config' afterDollar' (rename c) (rest.map rename) =
      (opening? config afterDollar c rest).map fun (opening, mode, inside) =>
        (opening.map rename, mode.rename rename, inside.map rename) := by
  have hquote' := h.quote c hescape
  cases hquote : config.isQuote c with
  | true => simpa [opening?, hquote', hquote] using hflag c
  | false =>
    rw [hquote] at hquote'
    cases rest with
    | nil => simp [opening?, hquote', hquote]
    | cons q inside =>
      have hdraws' := drawsDollar_rename h hescape hquote q
      rw [List.map_cons, opening?_cons hquote', opening?_cons hquote, hdraws']
      cases hdraws : config.drawsDollar c q with
      | true =>
        have hmode := opened_rename h c q
        rw [Config.eq_dollar hdraws, Config.eq_dollar (hdraws'.trans hdraws)] at hmode
        simp [hmode]
      | false => rfl

theorem IsFront.rename_stop {afterDollar afterDollar' : Bool} {text : Text} {ending : Ending}
    (hflag : SameModes rename config config' afterDollar afterDollar')
    (hfront : IsFront config afterDollar text (.stop ending)) :
    IsFront config' afterDollar' (text.map rename) (.stop (ending.rename rename)) := by
  cases hfront with
  | complete => exact .complete
  | escape hescape => exact .escape ((h.escape _).trans hescape)
  | @quote c rest _ inside _ hescape hopening hbody =>
    have hmode := h.mode ((isOpening hopening).opens hescape)
    have hopening' := opening?_rename h hflag hescape rest
    have hbody' := body?_rename h hmode inside
    rw [hopening] at hopening'
    rw [hbody] at hbody'
    exact .quote ((h.escape _).trans hescape) hopening' hbody'

/-- After a piece and after the renamed one a quote gets corresponding modes again, although a
separator may be renamed to a dollar or from one. -/
theorem IsFront.rename_next {afterDollar afterDollar' flag : Bool} {text rest : Text}
    {piece : Piece} (hflag : SameModes rename config config' afterDollar afterDollar')
    (hfront : IsFront config afterDollar text (.next piece flag rest)) :
    ∃ flag', IsFront config' afterDollar' (text.map rename)
        (.next (piece.rename rename) flag' (rest.map rename)) ∧
      SameModes rename config config' flag flag' := by
  have hplain := sameModes_false rename config config'
  cases hfront with
  | escaped hescape => exact ⟨false, .escaped ((h.escape _).trans hescape), hplain⟩
  | @quoted c rest _ inside _ _ _ hescape hopening hbody =>
    have hmode := h.mode ((isOpening hopening).opens hescape)
    have hopening' := opening?_rename h hflag hescape rest
    have hbody' := body?_rename h hmode inside
    rw [hopening] at hopening'
    rw [hbody] at hbody'
    exact ⟨false, .quoted ((h.escape _).trans hescape) hopening' hbody', hplain⟩
  | @blank c _ hescape hopening hblank =>
    have hopening' := opening?_rename h hflag hescape rest
    have hquote := (opening?_eq_none hopening).1
    rw [hopening] at hopening'
    exact ⟨rename c == '$', .blank ((h.escape _).trans hescape) hopening'
      ((h.blank c hescape hquote).trans hblank), opened_rename h c⟩
  | @bare c _ hescape hopening hblank =>
    have hopening' := opening?_rename h hflag hescape rest
    have hquote := (opening?_eq_none hopening).1
    rw [hopening] at hopening'
    exact ⟨false, .bare ((h.escape _).trans hescape) hopening'
      ((h.blank c hescape hquote).trans hblank), hplain⟩

/-- The pieces of a renamed line are the renamed pieces. -/
theorem layout_rename {afterDollar afterDollar' : Bool} (text : Text)
    (hflag : SameModes rename config config' afterDollar afterDollar') :
    layout config' afterDollar' (text.map rename) =
      (layout config afterDollar text).rename rename := by
  induction afterDollar, text using layout_induction config generalizing afterDollar' with
  | stop afterDollar text ending hfront =>
    rw [hfront.layout_stop, (hfront.rename_stop h hflag).layout_stop]
    rfl
  | next afterDollar text piece flag rest hfront ih =>
    obtain ⟨flag', hfront', hflag'⟩ := hfront.rename_next h hflag
    rw [hfront.layout_next, hfront'.layout_next, ih hflag']
    rfl

/-! ### Words and errors of a renamed line -/

theorem Gathered.add_rename {piece : Piece} (hpiece : piece.Opens config) (gathered : Gathered) :
    (gathered.rename rename).add config' (piece.rename rename) =
      (gathered.add config piece).rename rename := by
  have hextend : ∀ text, (gathered.rename rename).extend (text.map rename) =
      (gathered.extend text).rename rename := by
    intro text
    cases hstarted : gathered.started <;> simp [Gathered.rename, extend, hstarted]
  cases piece with
  | escaped escape c =>
    by_cases hc : c = '\n'
    · simp [Piece.rename, add, hc, h.lineEnd]
    · have hc' : rename c ≠ '\n' := fun heq => hc (h.injective (heq.trans h.lineEnd.symm))
      simpa [Piece.rename, add, hc, hc'] using hextend [c]
  | quoted opening mode body =>
    simp only [Piece.rename, add, (h.mode hpiece).contribution, hextend]
  | blank c =>
    cases hstarted : gathered.started <;> simp [Piece.rename, add, Gathered.rename, cut, hstarted]
  | bare c => exact hextend [c]

theorem Gathered.addAll_rename {pieces : List Piece}
    (hpieces : ∀ piece ∈ pieces, piece.Opens config) (gathered : Gathered) :
    (gathered.rename rename).addAll config' (pieces.map (·.rename rename)) =
      (gathered.addAll config pieces).rename rename := by
  induction pieces generalizing gathered with
  | nil => rfl
  | cons piece pieces ih =>
    have hadd := Gathered.add_rename h (hpieces piece List.mem_cons_self) gathered
    have hrest := ih (fun piece' hmem => hpieces piece' (List.mem_cons_of_mem piece hmem))
      (gathered.add config piece)
    rw [← hadd] at hrest
    exact hrest

theorem Ending.error?_rename {ending : Ending} (hending : ending.Opens config) (size size' : Nat) :
    (ending.rename rename).error? size' =
      (ending.error? size).map
        (·.rename rename ⟨size' - Text.byteLength (ending.text.map rename), size'⟩) := by
  cases ending with
  | complete | escape c => rfl
  | quote opening mode inside =>
    simp [Ending.rename, error?, SplitError.rename, (h.mode hending).closing, text]

theorem Layout.run_rename {layout : Layout} (hpieces : ∀ piece ∈ layout.pieces, piece.Opens config)
    (hending : layout.ending.Opens config) (size size' : Nat) (gathered : Gathered) :
    (layout.rename rename).run config' size' (gathered.rename rename) =
      { words := (layout.run config size gathered).words.map (·.map rename)
        error? := (layout.run config size gathered).error?.map
          (·.rename rename ⟨size' - Text.byteLength (layout.ending.text.map rename), size'⟩) } := by
  simp only [run, Layout.rename, Gathered.addAll_rename h hpieces,
    Ending.error?_rename h hending size]
  generalize gathered.addAll config layout.pieces = gathered
  cases layout.ending.error? size with
  | none => cases hstarted : gathered.started <;> simp [Gathered.rename, Gathered.cut, hstarted]
  | some error => rfl

/-- A renamed line has the renamed words, and its error, if it has one, covers the renamed text. -/
theorem run_rename (line : Text) :
    run config' (line.map rename) =
      { words := (run config line).words.map (·.map rename)
        error? := (run config line).error?.map (·.rename rename
          ⟨Text.byteLength ((Piece.texts (layout config false line).pieces).map rename),
            Text.byteLength (line.map rename)⟩) } := by
  have hflag := sameModes_false rename config config'
  have hline := congrArg (fun text => Text.byteLength (text.map rename))
    (texts_layout config false line)
  simp only [List.map_append, Text.byteLength_append] at hline
  have hrun := Layout.run_rename h opens_of_mem_pieces (opens_ending config false line)
    (Text.byteLength line) (Text.byteLength (line.map rename)) {}
  rw [← layout_rename h line hflag, ← hline, Nat.add_sub_cancel, hline] at hrun
  rw [run_eq_runByPieces, run_eq_runByPieces]
  exact hrun

theorem split_rename_ok {line : Text} {words : List Text} (hsplit : split config line = .ok words) :
    split config' (line.map rename) = .ok (words.map (·.map rename)) := by
  rw [split, Run.result_eq_ok_iff, run_rename h, Run.result_eq_ok_iff.1 hsplit]
  rfl

theorem split_rename_error {line : Text} {error : SplitError}
    (hsplit : split config line = .error error) :
    split config' (line.map rename) = .error (error.rename rename
      ⟨Text.byteLength ((Piece.texts (layout config false line).pieces).map rename),
        Text.byteLength (line.map rename)⟩) := by
  rw [split, Run.result_eq_error_iff, run_rename h, Run.result_eq_error_iff.1 hsplit]
  rfl

end Mirrors

end ShellWords
