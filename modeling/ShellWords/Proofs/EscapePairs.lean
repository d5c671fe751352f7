import Mathlib
import ShellWords.Proofs.AnsiC.Rules
import ShellWords.Proofs.Digits
import ShellWords.Proofs.Layout.Run

/-! Escapes and pairs in ANSI-C sections. The machine takes the contents of a section apart into
pairs of a backslash and its operand, and the decoder then reads the contents a second time, by
rules of its own. The two agree, in that every escape begins where a pair does, except after a
control escape of a backslash: `escapesBeginPairs_iff`. -/

namespace ShellWords

/-! ### How the machine takes the contents of a section -/

/-- How a character of a section is taken: alone, or as the first or the second half of a pair. -/
inductive Role where
  | alone
  | first
  | second
deriving DecidableEq, Repr

abbrev Marked := List (Char × Role)

/-- What the machine adds to the contents of a section while it reads a text, with the role of each
character. -/
def State.marks (config : Config) (state : State) (pos : Nat) : Text → Marked
  | [] => []
  | c :: rest =>
    let next := (state.step config pos c).state
    let added : Marked :=
      match state.escape with
      | some (_, escape) => if c = '\n' then [] else [(escape, .first), (c, .second)]
      | none => if next.escape.isSome then [] else [(c, .alone)]
    added ++ next.marks config (pos + c.utf8Size) rest

section Marks

variable {config : Config} {before : Text} {mode : QuoteMode} {start pos : Nat}
  {kept body : Text} {dollar : Option Nat}

theorem State.marks_pair {c d : Char}
    (h : (config.isEscape c && mode.honorsEscapes config) = true) :
    (inside before mode start kept dollar).marks config pos (c :: d :: body) =
      (if d = '\n' then [] else [(c, .first), (d, .second)]) ++
        (inside before mode start ((if d = '\n' then [] else [d, c]) ++ kept) dollar).marks config
          (pos + c.utf8Size + d.utf8Size) body := by
  simp only [marks, step, Region.escaping, h, if_true, Option.isSome_some, List.nil_append,
    Region.pushEscaped]
  split <;> rfl

theorem State.marks_char {c : Char} (h : ¬(config.isEscape c && mode.honorsEscapes config) = true)
    (hclosing : ¬c = mode.closing) :
    (inside before mode start kept dollar).marks config pos (c :: body) =
      (c, .alone) ::
        (inside before mode start (c :: kept) dollar).marks config (pos + c.utf8Size) body := by
  simp only [marks, step, Region.escaping, h, stepQuoted, hclosing]
  rfl

/-- The marked characters are the contents that are decoded when the section is closed. -/
theorem IsBody.map_marks (h : IsBody config mode body) :
    ((State.inside before mode start kept dollar).marks config pos body).map Prod.fst =
      mode.kept config body := by
  induction h generalizing kept pos with
  | nil => simp [State.marks]
  | pair hescape _ ih =>
    rw [State.marks_pair hescape, List.map_append, ih, QuoteMode.kept_pair hescape]
    split <;> rfl
  | char hescape hclosing _ ih =>
    rw [State.marks_char hescape hclosing, List.map_cons, ih, QuoteMode.kept_char hescape]

end Marks

/-- Marked contents in which each backslash begins or ends a pair. -/
inductive Paired : Marked → Prop where
  | nil : Paired []
  | alone {c : Char} {marked : Marked} (hc : c ≠ '\\') (hrest : Paired marked) :
    Paired ((c, .alone) :: marked)
  | pair {d : Char} {marked : Marked} (hrest : Paired marked) :
    Paired (('\\', .first) :: (d, .second) :: marked)

theorem isEscape_default {c : Char} : ({} : Config).isEscape c = true ↔ c = '\\' := by
  simp [Config.isEscape]

theorem paired_marks {before kept body : Text} {start pos : Nat} {dollar : Option Nat}
    (h : IsBody {} .ansiC body) :
    Paired ((State.inside before .ansiC start kept dollar).marks {} pos body) := by
  induction h generalizing kept pos with
  | nil => exact .nil
  | @pair c d body hescape _ ih =>
    obtain rfl : c = '\\' := by simpa [QuoteMode.honorsEscapes, isEscape_default] using hescape
    rw [State.marks_pair hescape]
    split
    · exact ih
    · exact .pair ih
  | char hescape hclosing _ ih =>
    rw [State.marks_char hescape hclosing]
    exact .alone (by simpa [QuoteMode.honorsEscapes, isEscape_default] using hescape) ih

/-- The first half of a pair is followed by the second half. -/
theorem Paired.of_first {marked rest : Marked} {c : Char} (h : Paired marked)
    (hrest : (c, .first) :: rest <:+ marked) :
    ∃ d rest', rest = (d, .second) :: rest' ∧ Paired rest' := by
  induction h with
  | nil => simp at hrest
  | alone _ _ ih =>
    rcases List.suffix_cons_iff.1 hrest with heq | hrest
    · cases heq
    · exact ih hrest
  | pair hpaired ih =>
    rcases List.suffix_cons_iff.1 hrest with heq | hrest
    · cases heq
      exact ⟨_, _, rfl, hpaired⟩
    · rcases List.suffix_cons_iff.1 hrest with heq | hrest
      · cases heq
      · exact ih hrest

/-! ### How the decoder reads them -/

namespace Escape.AnsiC

/-- Decoding a text comes to one of its ends and reads on from there. -/
inductive Reaches (config : Config) (text : Text) : Text → Prop where
  | start : Reaches config text text
  | escape {c : Char} {rest : Text} {decoded : Decoded} (hreach : Reaches config text (c :: rest))
    (hread : escapeAfter? config c rest = some decoded) :
    Reaches config text (rest.drop decoded.used)
  | copied {c : Char} {rest : Text} (hreach : Reaches config text (c :: rest))
    (hread : escapeAfter? config c rest = none) : Reaches config text rest

/-- A text begins with an escape that some rule reads. -/
def BeginsEscape (config : Config) : Text → Prop
  | [] => False
  | c :: rest => (escapeAfter? config c rest).isSome

theorem Reaches.suffix {config : Config} {text rest : Text} (h : Reaches config text rest) :
    rest <:+ text := by
  induction h with
  | start => exact List.suffix_rfl
  | escape _ _ ih => exact (List.drop_suffix _ _).trans ((List.suffix_cons _ _).trans ih)
  | copied _ _ ih => exact (List.suffix_cons _ _).trans ih

/-- From where decoding comes to, it goes on as if the text began there. -/
theorem Reaches.decode_eq {config : Config} {text rest : Text} (h : Reaches config text rest) :
    ∃ done, decode config text = done ++ decode config rest := by
  induction h with
  | start => exact ⟨[], rfl⟩
  | @escape c rest decoded _ hread ih =>
    obtain ⟨done, ih⟩ := ih
    exact ⟨done ++ [decoded.char], by rw [ih, decode_of_some hread]; simp⟩
  | @copied c rest _ hread ih =>
    obtain ⟨done, ih⟩ := ih
    exact ⟨done ++ [c], by rw [ih, decode_of_none hread]; simp⟩

/-- The digits that are read at the front of a text are characters of it, and no backslashes. -/
theorem digits_eq_take (base limit : Nat) (text : Text) :
    ∃ run rest, text = run ++ rest ∧ run.length = (Text.digits base limit text).length ∧
      '\\' ∉ run := by
  obtain ⟨rest, hrest⟩ := Text.digitRun_prefix base limit text
  refine ⟨Text.digitRun base limit text, rest, hrest.symm, Text.length_digitRun base limit text,
    fun hmem => ?_⟩
  have hdigit : (Text.digit? base '\\').isSome := Text.isSome_of_mem_digitRun hmem
  have hnone : Text.digitValue? '\\' = none := by decide
  simp [Text.digit?, hnone] at hdigit

/-- An escape is a character and perhaps some more, none of them a backslash. -/
def TakesPlain (text : Text) (used : Nat) : Prop :=
  ∃ c run rest, text = c :: (run ++ rest) ∧ used = run.length + 1 ∧ '\\' ∉ run

theorem takesPlain_one (c : Char) (rest : Text) : TakesPlain (c :: rest) 1 :=
  ⟨c, [], rest, rfl, rfl, List.not_mem_nil⟩

theorem codePoint_used {base limit : Nat} {text : Text} {decoded : Decoded}
    (h : codePoint base limit text = some decoded) :
    ∃ run rest, text = run ++ rest ∧ decoded.used = run.length ∧ run ≠ [] ∧ '\\' ∉ run := by
  obtain ⟨run, rest, htext, hlength, hrun⟩ := digits_eq_take base limit text
  obtain ⟨hne, rfl⟩ := codePoint_eq_some_iff.1 h
  refine ⟨run, rest, htext, hlength.symm, ?_, hrun⟩
  rintro rfl
  exact hne (List.length_eq_zero_iff.1 hlength.symm)

/-- What the rules take: only a control escape can take a backslash after its first character. -/
theorem read?_used {text : Text} {decoded : Decoded} (h : read? '\\' text = some decoded) :
    TakesPlain text decoded.used ∨ ∃ c rest, text = 'c' :: c :: rest ∧ decoded.used = 2 := by
  obtain ⟨rule, hrule, hread⟩ := List.exists_of_findSome?_eq_some h
  have hhex : ∀ {letter limit}, hexAfter letter limit '\\' text = some decoded →
      TakesPlain text decoded.used := by
    intro letter limit hread
    unfold hexAfter at hread
    split at hread
    · split at hread
      · obtain ⟨code, hcode, rfl⟩ := Option.map_eq_some_iff.1 hread
        obtain ⟨run, rest, rfl, hused, -, hrun⟩ := codePoint_used hcode
        exact ⟨_, run, rest, rfl, by simp [hused], hrun⟩
      · cases hread
    · cases hread
  simp only [rules, List.mem_cons, List.not_mem_nil, or_false] at hrule
  rcases hrule with rfl | rfl | rfl | rfl | rfl | rfl | rfl
  · unfold literal at hread
    split at hread
    · split at hread
      · cases hread
        exact .inl (takesPlain_one _ _)
      · cases hread
    · cases hread
  · unfold controlLetter at hread
    split at hread <;> cases hread <;> exact .inl (takesPlain_one _ _)
  · obtain ⟨run, rest, rfl, hused, hne, hrun⟩ := codePoint_used hread
    obtain ⟨c, run, rfl⟩ := List.exists_cons_of_ne_nil hne
    exact .inl ⟨c, run, rest, rfl, hused, fun hmem => hrun (List.mem_cons_of_mem c hmem)⟩
  · exact .inl (hhex hread)
  · exact .inl (hhex hread)
  · exact .inl (hhex hread)
  · unfold controlChar at hread
    split at hread
    · split at hread
      · cases hread
      · split at hread <;> cases hread <;> exact .inr ⟨_, _, rfl, rfl⟩
    · cases hread

theorem read?_control_backslash (rest : Text) :
    read? '\\' ('c' :: '\\' :: rest) = some ⟨'\x1c', 2⟩ := rfl

theorem escapeAfter?_of_ne {c : Char} (h : c ≠ '\\') (text : Text) :
    escapeAfter? {} c text = none :=
  escapeAfter?_of_not_mem (fun hmem => h (List.mem_singleton.1 hmem)) text

theorem eq_backslash_of_escapeAfter? {c : Char} {text : Text} {decoded : Decoded}
    (h : escapeAfter? {} c text = some decoded) : c = '\\' :=
  List.mem_singleton.1 (mem_of_escapeAfter? h)

end Escape.AnsiC

/-! ### Where the two agree -/

open Escape.AnsiC

/-- A row of characters without backslashes ends where no pair is split. -/
theorem Paired.of_plain {marked : Marked} {run after : Text} (h : Paired marked)
    (htext : marked.map Prod.fst = run ++ after) (hrun : '\\' ∉ run) :
    ∃ rest, rest <:+ marked ∧ rest.map Prod.fst = after ∧ Paired rest := by
  induction run generalizing marked with
  | nil => exact ⟨marked, List.suffix_rfl, htext, h⟩
  | cons c run ih =>
    obtain ⟨hc, hrun⟩ := List.ne_and_not_mem_of_not_mem_cons hrun
    cases h with
    | nil => cases htext
    | alone _ hrest =>
      obtain ⟨rest, hsuffix, hafter, hpaired⟩ := ih hrest (List.cons.inj htext).2 hrun
      exact ⟨rest, hsuffix.trans (List.suffix_cons _ _), hafter, hpaired⟩
    | pair => exact absurd (List.cons.inj htext).1 hc

/-- Where the decoder stands in marked contents: before a pair or a character alone, or before the
second half of a pair that begins no escape. -/
structure InStep (whole marked : Marked) : Prop where
  suffix : marked <:+ whole
  place : Paired marked ∨ ∃ d rest, marked = (d, .second) :: rest ∧ Paired rest ∧
    ¬BeginsEscape {} (marked.map Prod.fst)

section InStep

variable {whole marked : Marked} {text : Text} {c : Char} {decoded : Decoded}

theorem InStep.copied (h : InStep whole marked) (htext : marked.map Prod.fst = c :: text)
    (hread : escapeAfter? {} c text = none) :
    ∃ rest, InStep whole rest ∧ rest.map Prod.fst = text := by
  obtain ⟨hsuffix, hpaired | ⟨d, rest, rfl, hpaired, -⟩⟩ := h
  · cases hpaired with
    | nil => cases htext
    | @alone _ rest _ hrest =>
      exact ⟨rest, ⟨(List.suffix_cons _ _).trans hsuffix, .inl hrest⟩, (List.cons.inj htext).2⟩
    | @pair d rest hrest =>
      obtain ⟨rfl, rfl⟩ := List.cons.inj htext
      refine ⟨(d, .second) :: rest, ⟨(List.suffix_cons _ _).trans hsuffix, ?_⟩, rfl⟩
      refine .inr ⟨d, rest, rfl, hrest, ?_⟩
      have hd : d ≠ '\\' := by
        rintro rfl
        cases hread
      simp [BeginsEscape, escapeAfter?_of_ne hd]
  · exact ⟨rest, ⟨(List.suffix_cons _ _).trans hsuffix, .inl hpaired⟩, (List.cons.inj htext).2⟩

/-- An escape ends between two pairs, or within the pair whose first half a control escape takes. -/
theorem InStep.escape (h : InStep whole marked) (htext : marked.map Prod.fst = c :: text)
    (hread : escapeAfter? {} c text = some decoded)
    (hcontrol : ∀ rest, text = 'c' :: '\\' :: rest → ¬BeginsEscape {} rest) :
    ∃ rest, InStep whole rest ∧ rest.map Prod.fst = text.drop decoded.used := by
  obtain ⟨hsuffix, hpaired | ⟨d, rest, rfl, -, hbegins⟩⟩ := h
  · cases hpaired with
    | nil => cases htext
    | alone hc =>
      obtain ⟨rfl, -⟩ := List.cons.inj htext
      exact absurd (eq_backslash_of_escapeAfter? hread) hc
    | @pair d marked hrest =>
      obtain ⟨rfl, rfl⟩ := List.cons.inj htext
      have hmarked : marked <:+ whole :=
        ((List.suffix_cons _ _).trans (List.suffix_cons _ _)).trans hsuffix
      rcases read?_used hread with ⟨_, run, after, heq, hused, hrun⟩ | ⟨e, after, heq, hused⟩
      · obtain ⟨rest, hrestsuffix, hafter, hpaired⟩ :=
          hrest.of_plain (List.cons.inj heq).2 hrun
        refine ⟨rest, ⟨hrestsuffix.trans hmarked, .inl hpaired⟩, ?_⟩
        rw [heq, hused, hafter]
        simp
      · rw [hused, heq]
        obtain ⟨hd, hafter⟩ := List.cons.inj heq
        cases hrest with
        | nil => cases hafter
        | @alone _ rest _ hrest =>
          exact ⟨rest, ⟨(List.suffix_cons _ _).trans hmarked, .inl hrest⟩,
            (List.cons.inj hafter).2⟩
        | @pair d' rest hrest =>
          obtain ⟨rfl, rfl⟩ := List.cons.inj hafter
          exact ⟨(d', .second) :: rest, ⟨(List.suffix_cons _ _).trans hmarked,
            .inr ⟨d', rest, rfl, hrest, hcontrol _ heq⟩⟩, rfl⟩
  · rw [htext] at hbegins
    exact absurd (by simp [BeginsEscape, hread]) hbegins

theorem Paired.inStep (h : Paired whole)
    (hcontrol : ∀ rest, Reaches {} (whole.map Prod.fst) ('\\' :: 'c' :: '\\' :: rest) →
      ¬BeginsEscape {} rest)
    (hreach : Reaches {} (whole.map Prod.fst) text) :
    ∃ marked, InStep whole marked ∧ marked.map Prod.fst = text := by
  induction hreach with
  | start => exact ⟨whole, ⟨List.suffix_rfl, .inl h⟩, rfl⟩
  | copied _ hread ih =>
    obtain ⟨marked, hstep, htext⟩ := ih
    exact hstep.copied htext hread
  | @escape c rest decoded hreach hread ih =>
    obtain ⟨marked, hstep, htext⟩ := ih
    refine hstep.escape htext hread fun after heq => ?_
    rw [eq_backslash_of_escapeAfter? hread, heq] at hreach
    exact hcontrol after hreach

end InStep

/-- Every escape that the decoder reads in marked contents begins at the first half of a pair. -/
def EscapesBeginPairs (marked : Marked) : Prop :=
  ∀ rest, rest <:+ marked → Reaches {} (marked.map Prod.fst) (rest.map Prod.fst) →
    BeginsEscape {} (rest.map Prod.fst) → rest.head?.map Prod.snd = some .first

section Agree

variable {marked : Marked} (h : Paired marked)
include h

/-- The second half of a pair begins an escape after a control escape of its first half. -/
theorem Paired.not_begins_of_control (hagree : EscapesBeginPairs marked) {rest : Text}
    (hreach : Reaches {} (marked.map Prod.fst) ('\\' :: 'c' :: '\\' :: rest)) :
    ¬BeginsEscape {} rest := by
  intro hbegins
  obtain ⟨before, hbefore⟩ := hreach.suffix
  obtain ⟨front, place, rfl, -, hplace⟩ := List.map_eq_append_iff.1 hbefore.symm
  have hfirst := hagree place (List.suffix_append _ _) (hplace ▸ hreach)
    (by rw [hplace]; exact rfl)
  cases place with
  | nil => cases hplace
  | cons m place =>
    obtain ⟨c, role⟩ := m
    obtain rfl : role = .first := by simpa using hfirst
    obtain ⟨d, place, rfl, hpaired⟩ := h.of_first (List.suffix_append _ _)
    simp only [List.map_cons, List.cons.injEq] at hplace
    obtain ⟨rfl, rfl, hplace⟩ := hplace
    cases hpaired with
    | nil => cases hplace
    | alone hc => exact hc (List.cons.inj hplace).1
    | @pair e place _ =>
      obtain rfl := (List.cons.inj hplace).2
      have hafter : (e, .second) :: place <:+ front ++ ('\\', .first) :: ('c', .second) ::
          ('\\', .first) :: (e, .second) :: place :=
        ⟨front ++ [('\\', .first), ('c', .second), ('\\', .first)], by simp⟩
      have hread := read?_control_backslash (e :: place.map Prod.fst)
      have hsecond := hagree _ hafter (hreach.escape hread) hbegins
      cases hsecond

theorem Paired.escapesBeginPairs
    (hcontrol : ∀ rest, Reaches {} (marked.map Prod.fst) ('\\' :: 'c' :: '\\' :: rest) →
      ¬BeginsEscape {} rest) : EscapesBeginPairs marked := by
  intro rest hsuffix hreach hbegins
  obtain ⟨place, ⟨hplace, hpaired⟩, htext⟩ := h.inStep hcontrol hreach
  have hlength : rest.length = place.length := by simpa using (congrArg List.length htext).symm
  obtain rfl : rest = place :=
    (List.suffix_of_suffix_length_le hsuffix hplace (Nat.le_of_eq hlength)).eq_of_length hlength
  rcases hpaired with hpaired | ⟨d, after, rfl, -, hnot⟩
  · cases hpaired with
    | nil => cases hbegins
    | alone hc => simp [BeginsEscape, escapeAfter?_of_ne hc] at hbegins
    | pair => rfl
  · exact absurd hbegins hnot

end Agree

theorem isBody_of_mem_pieces {config : Config} {afterDollar : Bool} {text opening body : Text}
    {mode : QuoteMode} (h : .quoted opening mode body ∈ (layout config afterDollar text).pieces) :
    IsBody config mode body := by
  induction afterDollar, text using layout_induction config with
  | stop afterDollar text ending hfront =>
    rw [hfront.layout_stop] at h
    cases h
  | next afterDollar text piece flag rest hfront ih =>
    rw [hfront.layout_next] at h
    rcases List.mem_cons.1 h with rfl | h
    · cases hfront with
      | quoted _ _ hbody => exact (isBody hbody).1
    · exact ih h

/-- In a closed ANSI-C section of a line every escape begins at the first half of a pair, whatever
the machine was doing before, exactly if no other escape follows a control escape of a backslash. -/
theorem escapesBeginPairs_iff {line opening body : Text}
    (h : .quoted opening .ansiC body ∈ (layout {} false line).pieces)
    (before : Text) (start pos : Nat) (dollar : Option Nat) :
    let marked := (State.inside before .ansiC start [] dollar).marks {} pos body
    marked.map Prod.fst = QuoteMode.ansiC.kept {} body ∧
      (EscapesBeginPairs marked ↔ ∀ rest,
        Reaches {} (QuoteMode.ansiC.kept {} body) ('\\' :: 'c' :: '\\' :: rest) →
          ¬BeginsEscape {} rest) := by
  intro marked
  have hbody : IsBody {} .ansiC body := isBody_of_mem_pieces h
  have hmap : marked.map Prod.fst = QuoteMode.ansiC.kept {} body := hbody.map_marks
  have hpaired : Paired marked := paired_marks hbody
  rw [← hmap]
  exact ⟨rfl, fun hagree _ hreach => hpaired.not_begins_of_control hagree hreach,
    hpaired.escapesBeginPairs⟩

/-- The line is `$'\x4\⏎1\\n'` with a line end for the arrow. The first escape goes on over the
place where a pair was dropped, and the second half of the last pair begins no escape. -/
theorem escapesBeginPairs_iff_joined :
    let line : Text := ['$', '\'', '\\', 'x', '4', '\\', '\n', '1', '\\', '\\', 'n', '\'']
    let body : Text := ['\\', 'x', '4', '\\', '\n', '1', '\\', '\\', 'n']
    let marked := (State.inside [] .ansiC 0 [] (some 0)).marks {} 2 body
    .quoted ['$', '\''] .ansiC body ∈ (layout {} false line).pieces ∧
      marked.map Prod.fst = QuoteMode.ansiC.kept {} body ∧
      (EscapesBeginPairs marked ↔ ∀ rest,
        Reaches {} (QuoteMode.ansiC.kept {} body) ('\\' :: 'c' :: '\\' :: rest) →
          ¬BeginsEscape {} rest) := by
  intro line body marked
  have hfront : IsFront {} false line (.next (.quoted ['$', '\''] .ansiC body) false []) :=
    .quoted (by decide) rfl rfl
  have hmem : .quoted ['$', '\''] .ansiC body ∈ (layout {} false line).pieces := by
    rw [hfront.layout_next]
    exact List.mem_cons_self
  exact ⟨hmem, escapesBeginPairs_iff hmem [] 0 2 (some 0)⟩

/-- The line is `$'\c\\n'`. The control escape takes the first half of a pair, and the second half
begins an escape of its own, so that the word ends with a line end. -/
theorem not_escapesBeginPairs_control :
    let line : Text := ['$', '\'', '\\', 'c', '\\', '\\', 'n', '\'']
    let body : Text := ['\\', 'c', '\\', '\\', 'n']
    .quoted ['$', '\''] .ansiC body ∈ (layout {} false line).pieces ∧
      ¬EscapesBeginPairs ((State.inside [] .ansiC 0 [] (some 0)).marks {} 2 body) ∧
      split {} line = .ok [['\x1c', '\n']] := by
  intro line body
  have hfront : IsFront {} false line (.next (.quoted ['$', '\''] .ansiC body) false []) :=
    .quoted (by decide) rfl rfl
  have hmem : .quoted ['$', '\''] .ansiC body ∈ (layout {} false line).pieces := by
    rw [hfront.layout_next]
    exact List.mem_cons_self
  refine ⟨hmem, ?_, ?_⟩
  · intro hagree
    have hread : escapeAfter? {} '\\' ['c', '\\', '\\', 'n'] = some ⟨'\x1c', 2⟩ :=
      read?_control_backslash ['\\', 'n']
    have hreach : Reaches {} body ['\\', 'n'] := Reaches.start.escape hread
    have hsecond := hagree [('\\', .second), ('n', .alone)]
      ⟨[('\\', .first), ('c', .second), ('\\', .first)], rfl⟩ hreach rfl
    cases hsecond
  · cbv

end ShellWords
