import ShellWords.Proofs.Report.Snippet

/-! The window that a snippet shows. Its bounds can be found as offsets, by going from the start of
the span back and forth over the characters, and all of the snippet can be cut from the text at
offsets. No cut goes through a character, and the window is what it should be:
`snippet_window`. -/

namespace ShellWords

namespace Text

/-- The characters of a text that begins at offset `pos`, each with its offset. -/
def offsets (pos : Nat) : Text → List (Nat × Char)
  | [] => []
  | c :: rest => (pos, c) :: offsets (pos + c.utf8Size) rest

/-- The part of a text between two offsets, unless a cut at one of them goes through a character. -/
def between? (start stop : Nat) (text : Text) : Option Text := do
  guard (start ≤ stop)
  let cursor ← seek? start text
  let inner ← seek? (stop - start) cursor.after
  return inner.before.reverse

theorem offsets_append (pos : Nat) (a b : Text) :
    offsets pos (a ++ b) = offsets pos a ++ offsets (pos + byteLength a) b := by
  induction a generalizing pos with
  | nil => rfl
  | cons c a ih => simp [offsets, ih, Nat.add_assoc]

@[simp] theorem length_offsets (pos : Nat) (text : Text) :
    (offsets pos text).length = text.length := by
  induction text generalizing pos with
  | nil => rfl
  | cons c rest ih => simp [offsets, ih]

theorem take_offsets (pos n : Nat) (text : Text) :
    (offsets pos text).take n = offsets pos (text.take n) := by
  induction text generalizing pos n with
  | nil => simp [offsets]
  | cons c rest ih => cases n <;> simp [offsets, ih]

theorem drop_offsets (pos n : Nat) (text : Text) :
    (offsets pos text).drop n = offsets (pos + byteLength (text.take n)) (text.drop n) := by
  induction text generalizing pos n with
  | nil => simp [offsets]
  | cons c rest ih => cases n <;> simp [offsets, ih, Nat.add_assoc]

theorem between?_append (before covered after : Text) :
    between? (byteLength before) (byteLength before + byteLength covered)
      (before ++ (covered ++ after)) = some covered := by
  have hguard : (guard (byteLength before ≤ byteLength before + byteLength covered) :
      Option Unit) = some () := if_pos (Nat.le_add_right _ _)
  rw [between?, hguard, seek?_append]
  show (seek? (byteLength before + byteLength covered - byteLength before)
    (covered ++ after)).bind (fun inner => some inner.before.reverse) = some covered
  rw [Nat.add_sub_cancel_left, seek?_append]
  exact congrArg some (List.reverse_reverse covered)

/-- Where a window begins that shows at most `context` characters at the end of a text of `size`
bytes: at the last character that is met on the way back, if any is. -/
def windowStart (context size : Nat) (text : Text) : Nat :=
  match ((offsets 0 text).reverse.take context).getLast? with
  | some (offset, _) => offset
  | none => size

/-- Where a window ends that shows a character, and at most `context` more, of a text that reaches
from `pos` to `size`: behind the last character that is met on the way forth, if any is. -/
def windowStop (context pos size : Nat) (text : Text) : Nat :=
  match ((offsets 0 text).take (context + 1)).getLast? with
  | some (offset, c) => pos + offset + c.utf8Size
  | none => size

theorem windowStart_eq (context : Nat) (text : Text) :
    windowStart context (byteLength text) text =
      byteLength (text.take (text.length - context)) := by
  have hlast : ((offsets 0 text).reverse.take context).getLast? =
      (offsets (byteLength (text.take (text.length - context)))
        (text.drop (text.length - context))).head? := by
    rw [List.take_reverse, List.getLast?_reverse, length_offsets, drop_offsets, Nat.zero_add]
  rw [windowStart, hlast]
  cases hdrop : text.drop (text.length - context) with
  | nil =>
    -- No character is met, so all of the text stands before the window.
    have htake := List.take_append_drop (text.length - context) text
    rw [hdrop, List.append_nil] at htake
    rw [htake]
    rfl
  | cons c shown => rfl

theorem windowStop_eq (context pos : Nat) (text : Text) :
    windowStop context pos (pos + byteLength text) text =
      pos + byteLength (text.take (context + 1)) := by
  rw [windowStop, take_offsets]
  rcases List.eq_nil_or_concat (text.take (context + 1)) with htake | ⟨front, c, htake⟩
  · obtain rfl : text = [] := by
      cases text with
      | nil => rfl
      | cons c rest => cases htake
    rfl
  · have hlast : (offsets 0 front ++ offsets (0 + byteLength front) [c]).getLast? =
        some (0 + byteLength front, c) := List.getLast?_concat
    rw [htake, List.concat_eq_append, offsets_append, hlast]
    simp [Nat.add_assoc]

end Text

namespace Span

/-- The bounds of the window that a snippet shows. -/
def window? (span : Span) (source : Text) (context : Nat) : Option Span := do
  let size := Text.byteLength source
  let anchor := min span.start size
  let before ← Text.between? 0 anchor source
  let after ← Text.between? anchor size source
  return ⟨Text.windowStart context anchor before, Text.windowStop context anchor size after⟩

/-- A snippet that is cut from its text by offsets. -/
def snippetByOffsets? (span : Span) (source : Text) (context : Nat) : Option Text := do
  let window ← span.window? source context
  let shown ← Text.between? window.start window.stop source
  let indent ← Text.between? window.start (min span.start (Text.byteLength source)) source
  return shown ++ '\n' ::
    (List.replicate indent.length ' ' ++ List.replicate (span.carets source) '^')

variable {span : Span} {before after : Text}

theorem window?_append (h : min span.start (Text.byteLength (before ++ after)) =
    Text.byteLength before) (context : Nat) :
    span.window? (before ++ after) context =
      some ⟨Text.byteLength (before.take (before.length - context)),
        Text.byteLength before + Text.byteLength (after.take (context + 1))⟩ := by
  have hbefore := Text.between?_append [] before after
  have hafter := Text.between?_append before after []
  rw [Text.byteLength_nil, Nat.zero_add, List.nil_append] at hbefore
  rw [List.append_nil, ← Text.byteLength_append] at hafter
  have hstop := Text.windowStop_eq context (Text.byteLength before) after
  rw [← Text.byteLength_append] at hstop
  simp only [window?, h, hbefore, hafter, Option.bind_eq_bind, Option.bind_some,
    Text.windowStart_eq, hstop]
  rfl

/-- Where counting characters finds no start of the window, there are no bounds of it either. -/
theorem window?_of_anchor?_eq_none {source : Text} (h : span.anchor? source = none)
    (context : Nat) : span.window? source context = none := by
  have hbefore : Text.between? 0 (min span.start (Text.byteLength source)) source = none := by
    have hseek : Text.seek? 0 source = some ⟨[], source⟩ := Text.seek?_append [] source
    have hguard : (guard (0 ≤ min span.start (Text.byteLength source)) : Option Unit) = some () :=
      if_pos (Nat.zero_le _)
    rw [anchor?] at h
    rw [Text.between?, hguard, hseek]
    show (Text.seek? (min span.start (Text.byteLength source)) source).bind
      (fun inner => some inner.before.reverse) = none
    rw [h]
    rfl
  simp [window?, hbefore]

end Span

/-- The parts of a text at a window of it: what it hides on the left, what it shows up to the start
of a span and from there on, and what it hides on the right. -/
structure Span.Windows (span : Span) (source : Text) (context : Nat)
    (hidden shown marked rest : Text) : Prop where
  source_eq : source = hidden ++ shown ++ (marked ++ rest)
  byteLength_eq : Text.byteLength (hidden ++ shown) = min span.start (Text.byteLength source)
  length_shown : shown.length = min context (hidden ++ shown).length
  length_marked : marked.length = min (context + 1) (marked ++ rest).length

namespace Span

variable {span : Span} {source : Text} {context : Nat}

theorem exists_windows (h : source.IsBoundary (min span.start (Text.byteLength source)))
    (context : Nat) :
    ∃ hidden shown marked rest, span.Windows source context hidden shown marked rest := by
  obtain ⟨before, after, rfl, hsize⟩ := h
  refine ⟨before.take (before.length - context), before.drop (before.length - context),
    after.take (context + 1), after.drop (context + 1), ?_⟩
  constructor
  · rw [List.take_append_drop, List.take_append_drop]
  · rw [List.take_append_drop, hsize]
  · rw [List.take_append_drop, List.length_drop]
    omega
  · rw [List.take_append_drop, List.length_take]

namespace Windows

variable {hidden shown marked rest : Text}
  (h : span.Windows source context hidden shown marked rest)
include h

theorem start_eq : min span.start (Text.byteLength (hidden ++ shown ++ (marked ++ rest))) =
    Text.byteLength (hidden ++ shown) := by
  rw [h.byteLength_eq, ← h.source_eq]

theorem length_hidden : (hidden ++ shown).length - context = hidden.length := by
  have hlength : (hidden ++ shown).length = hidden.length + shown.length := List.length_append
  have hshown := h.length_shown
  omega

theorem take_marked : (marked ++ rest).take (context + 1) = marked := by
  rw [List.take_eq_take_min, ← h.length_marked, List.take_left]

theorem window?_eq : span.window? source context =
    some ⟨Text.byteLength hidden, Text.byteLength (hidden ++ shown ++ marked)⟩ := by
  rw [h.source_eq, window?_append h.start_eq, h.length_hidden, List.take_left, h.take_marked,
    ← Text.byteLength_append]

theorem snippet?_eq : span.snippet? source context =
    some (shown ++ marked ++ '\n' :: (List.replicate shown.length ' ' ++
      List.replicate (span.carets source) '^')) := by
  rw [h.source_eq, snippet?_append h.start_eq, h.length_hidden, List.drop_left, h.take_marked]

/-- Cutting by offsets gives what counting characters gives. -/
theorem snippetByOffsets?_eq : span.snippetByOffsets? source context =
    some (shown ++ marked ++ '\n' :: (List.replicate shown.length ' ' ++
      List.replicate (span.carets source) '^')) := by
  have hwindow : Text.between? (Text.byteLength hidden)
      (Text.byteLength (hidden ++ shown ++ marked)) source = some (shown ++ marked) := by
    have hcut := Text.between?_append hidden (shown ++ marked) rest
    rw [← Text.byteLength_append] at hcut
    simpa only [h.source_eq, List.append_assoc] using hcut
  have hindent : Text.between? (Text.byteLength hidden)
      (min span.start (Text.byteLength source)) source = some shown := by
    have hcut := Text.between?_append hidden shown (marked ++ rest)
    rw [← Text.byteLength_append, h.byteLength_eq] at hcut
    simpa only [h.source_eq, List.append_assoc] using hcut
  simp only [snippetByOffsets?, h.window?_eq, hwindow, hindent, Option.bind_eq_bind,
    Option.bind_some]
  rfl

end Windows

theorem snippetByOffsets?_eq_snippet? (span : Span) (source : Text) (context : Nat) :
    span.snippetByOffsets? source context = span.snippet? source context := by
  cases hanchor : span.anchor? source with
  | none => simp [snippetByOffsets?, window?_of_anchor?_eq_none hanchor, snippet?, hanchor]
  | some cursor =>
    obtain ⟨hidden, shown, marked, rest, hwindows⟩ :=
      exists_windows (isBoundary_of_anchor? hanchor) context
    rw [hwindows.snippetByOffsets?_eq, hwindows.snippet?_eq]

end Span

/-- A span that does not start inside a character has a snippet. It shows a piece of the text: of
the characters before the start of the span the last `context`, or all if there are fewer, and of
those from there on the first `context` and one more, or all. Below it there is a space for each of
the former and then a caret for each character of the span, at least one. The piece and what is
before the start in it can be cut from the text at offsets that are found character by character. -/
theorem snippet_window {span : Span} {source : Text}
    (h : source.IsBoundary (min span.start (Text.byteLength source))) (context : Nat) :
    ∃ hidden shown marked rest, span.Windows source context hidden shown marked rest ∧
      span.window? source context =
        some ⟨Text.byteLength hidden, Text.byteLength (hidden ++ shown ++ marked)⟩ ∧
      span.snippet? source context = some (shown ++ marked ++ '\n' ::
        (List.replicate (min context (hidden ++ shown).length) ' ' ++
          List.replicate (max 1 (span.slice source).length) '^')) ∧
      span.snippetByOffsets? source context = span.snippet? source context := by
  obtain ⟨hidden, shown, marked, rest, hwindows⟩ := Span.exists_windows h context
  refine ⟨hidden, shown, marked, rest, hwindows, hwindows.window?_eq, ?_,
    Span.snippetByOffsets?_eq_snippet? span source context⟩
  rw [hwindows.snippet?_eq, hwindows.length_shown]
  rfl

/-- The span ends inside a character, so its slice is empty and there is one caret. -/
theorem snippet_window_split_character :
    let source : Text := ['é', '€', '\'', 'ü', 'x']
    source.IsBoundary (min 5 (Text.byteLength source)) ∧
      (⟨5, 7⟩ : Span).snippet? source 1 = some ['€', '\'', 'ü', '\n', ' ', '^'] ∧
      ∃ hidden shown marked rest, (⟨5, 7⟩ : Span).Windows source 1 hidden shown marked rest ∧
        (⟨5, 7⟩ : Span).window? source 1 =
          some ⟨Text.byteLength hidden, Text.byteLength (hidden ++ shown ++ marked)⟩ ∧
        (⟨5, 7⟩ : Span).snippet? source 1 = some (shown ++ marked ++ '\n' ::
          (List.replicate (min 1 (hidden ++ shown).length) ' ' ++
            List.replicate (max 1 ((⟨5, 7⟩ : Span).slice source).length) '^')) ∧
        (⟨5, 7⟩ : Span).snippetByOffsets? source 1 = (⟨5, 7⟩ : Span).snippet? source 1 :=
  have hstart : Text.IsBoundary ['é', '€', '\'', 'ü', 'x']
      (min 5 (Text.byteLength ['é', '€', '\'', 'ü', 'x'])) :=
    ⟨['é', '€'], ['\'', 'ü', 'x'], rfl, rfl⟩
  ⟨hstart, rfl, snippet_window hstart 1⟩

end ShellWords
