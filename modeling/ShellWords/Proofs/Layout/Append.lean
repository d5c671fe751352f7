import ShellWords.Proofs.Layout.Basic

/-! Layouts of lines that are parts of other lines. What follows a piece matters only as far as a
quote there could draw a dollar into its opening, so the pieces of a line stay what they are when
the line is cut off after them (`layout_texts`) or goes on with a separator
(`layout_append_blank`). -/

namespace ShellWords

variable {config : Config} {afterDollar flag : Bool} {text rest rest' : Text}

theorem IsOpening.replace {c : Char} {opening inside : Text} {mode : QuoteMode}
    (h : IsOpening config afterDollar c rest (opening, mode, inside)) (inside' : Text) :
    ∃ rest', opening ++ inside' = c :: rest' ∧
      opening? config afterDollar c rest' = some (opening, mode, inside') := by
  cases h with
  | quote hquote => exact ⟨inside', rfl, by simp [opening?, hquote]⟩
  | @dollar q _ hplain hblank hquote hescape htakes =>
    exact ⟨q :: inside', rfl, by simp [opening?, *]⟩

/-- A character that opens no section still opens none before another text, unless that begins with
a quote that was not there. -/
theorem opening?_replace {c : Char} (h : opening? config afterDollar c rest = none)
    (hhead : ∀ q ∈ rest'.head?, q ∈ rest.head? ∨ config.isQuote q = false) :
    opening? config afterDollar c rest' = none := by
  obtain ⟨hquote, hdollar⟩ := opening?_eq_none h
  cases rest' with
  | nil => simp [opening?, hquote]
  | cons q inside' =>
    rcases hhead q rfl with hq | hq
    · cases rest with
      | nil => simp at hq
      | cons p inside =>
        obtain rfl : p = q := by simpa using hq
        have htakes := hdollar p inside rfl
        simp only [opening?, hquote, Bool.false_eq_true, if_false]
        rw [if_neg]
        simp only [Bool.and_eq_true, Bool.not_eq_true', decide_eq_true_eq]
        rintro ⟨⟨⟨⟨hc, hblank⟩, hq⟩, hescape⟩, htrue⟩
        rw [htakes hc hblank hq hescape] at htrue
        exact absurd htrue (by decide)
    · simp [opening?, hquote, hq]

/-- A text keeps its first piece when what follows the piece is replaced. -/
theorem IsFront.replace {piece : Piece}
    (h : IsFront config afterDollar text (.next piece flag rest))
    (hhead : ∀ q ∈ rest'.head?, q ∈ rest.head? ∨ config.isQuote q = false) :
    IsFront config afterDollar (piece.text ++ rest') (.next piece flag rest') := by
  cases h with
  | escaped hescape => exact .escaped hescape
  | @quoted c _ opening inside body _ mode hescape hopening hbody =>
    have hbody' := (isBody hbody).1.body?_eq rest'
    obtain ⟨rest'', heq, hopening'⟩ :=
      (isOpening hopening).replace (body ++ mode.closing :: rest')
    have htext : (Piece.quoted opening mode body).text ++ rest' = c :: rest'' := by
      simp [Piece.text, ← heq]
    rw [htext]
    exact .quoted hescape hopening' hbody'
  | blank hescape hopening hblank =>
    exact .blank hescape (opening?_replace hopening hhead) hblank
  | bare hescape hopening hblank =>
    exact .bare hescape (opening?_replace hopening hhead) hblank

/-- The text that the pieces of a line cover has the same pieces and nothing else. -/
theorem layout_texts (config : Config) (afterDollar : Bool) (text : Text) :
    layout config afterDollar (Piece.texts (layout config afterDollar text).pieces) =
      { pieces := (layout config afterDollar text).pieces } := by
  induction afterDollar, text using layout_induction config with
  | stop afterDollar text ending h =>
    rw [h.layout_stop]
    exact IsFront.complete.layout_stop
  | next afterDollar text piece flag rest h ih =>
    rw [h.layout_next]
    have hhead : ∀ q ∈ (Piece.texts (layout config flag rest).pieces).head?,
        q ∈ rest.head? ∨ config.isQuote q = false := by
      intro q hq
      left
      rw [← texts_layout config flag rest, List.head?_append, Option.mem_def.1 hq]
      rfl
    have hnext := (h.replace hhead).layout_next
    rw [ih] at hnext
    exact hnext

/-- A separator that is neither a dollar nor of another class. -/
structure Config.Separates (config : Config) (w : Char) : Prop where
  blank : config.isWhitespace w
  quote : config.isQuote w = false
  escape : config.isEscape w = false
  dollar : w ≠ '$'

theorem Config.Separates.isFront {w : Char} (h : config.Separates w) (afterDollar : Bool)
    (rest : Text) :
    IsFront config afterDollar (w :: rest) (.next (.blank w) false rest) := by
  have hopening : opening? config afterDollar w rest = none := by
    cases rest <;> simp [opening?, h.quote, h.dollar]
  have hfront := IsFront.blank h.escape hopening h.blank
  rwa [beq_eq_false_iff_ne.2 h.dollar] at hfront

/-- After a line without error, a separator and a second line are read as if on their own. -/
theorem layout_append_blank {w : Char} (h : config.Separates w) (a b : Text)
    (ha : (layout config afterDollar a).ending = .complete) :
    layout config afterDollar (a ++ w :: b) =
      { layout config false b with
        pieces := (layout config afterDollar a).pieces ++
          .blank w :: (layout config false b).pieces } := by
  induction afterDollar, a using layout_induction config with
  | stop afterDollar a ending hfront =>
    rw [hfront.layout_stop] at ha ⊢
    obtain rfl : ending = .complete := ha
    have hnil : a = [] := hfront.text_eq
    rw [hnil, List.nil_append, (h.isFront afterDollar b).layout_next]
    rfl
  | next afterDollar a piece flag rest hfront ih =>
    rw [hfront.layout_next] at ha ⊢
    have hhead : ∀ q ∈ (rest ++ w :: b).head?, q ∈ rest.head? ∨ config.isQuote q = false := by
      cases rest with
      | nil =>
        rintro q ⟨⟩
        exact .inr h.quote
      | cons c rest =>
        intro q hq
        exact .inl hq
    have hnext := (hfront.replace hhead).layout_next
    rw [ih ha] at hnext
    rw [hfront.text_eq, Front.text, List.append_assoc]
    exact hnext

end ShellWords
