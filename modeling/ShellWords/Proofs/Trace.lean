import Mathlib
import ShellWords.Lexer.Trace
import ShellWords.Proofs.Step

/-! The record of a splitting tells the truth about its result: `trace_truthful`. Offsets only grow
along it, since each step moves the machine's frontier past what it records (`IsStep.offset`), and
the text of a section stays as it was decoded until its word ends, since later steps add to the text
that is settled and take nothing from it (`IsStep.text`). -/

namespace ShellWords

namespace Event

def token? : Event → Option Text
  | splitWord _ token => some token
  | _ => none

def decoded? : Event → Option Text
  | closedQuote closed => some closed.decoded
  | _ => none

/-- The end of a word, or the start of a section. -/
def offset? : Event → Option Nat
  | splitWord stop _ => some stop
  | closedQuote closed => some closed.start
  | splitFailed _ _ => none

/-- The text of the error that an event reports. -/
def failure? : Event → Option Text
  | splitFailed error _ => some error.message
  | _ => none

end Event

/-- The parts stand in a text in this order and without overlap. -/
def OccurIn : List Text → Text → Prop
  | [], _ => True
  | part :: parts, text => ∃ before after, text = before ++ part ++ after ∧ OccurIn parts after

theorem OccurIn.append_left {parts : List Text} {text : Text} (h : OccurIn parts text)
    (before : Text) : OccurIn parts (before ++ text) := by
  cases parts with
  | nil => trivial
  | cons part parts =>
    obtain ⟨front, after, rfl, h⟩ := h
    exact ⟨before ++ front, after, by simp, h⟩

/-! ### What a step settles -/

theorem Region.eq_word_of_pending {region : Region} {c : Char} {text : Text}
    (houtside : region.outside) (h : region.pending = c :: text) : region = .word (c :: text) := by
  cases region with
  | gap => cases h
  | word => exact congrArg word h
  | quoted => cases houtside

namespace State

variable {pos pos' : Nat} {state state' : State}

/-- The word so far ends with a dollar right before `pos`, which a section may still take. -/
def endsDollar (pos : Nat) (state : State) : Bool :=
  match state.region with
  | .word ('$' :: _) => isBefore state.dollar pos
  | _ => false

/-- Nothing more is recorded at offsets before this one. -/
def frontier (pos : Nat) (state : State) : Nat :=
  state.region.start?.getD (if state.endsDollar pos then pos - 1 else pos)

/-- The text of the word so far that no section takes anything from, backwards. -/
def settled (pos : Nat) (state : State) : Text :=
  if state.endsDollar pos then state.region.pending.tail else state.region.pending

theorem settled_suffix (pos : Nat) (state : State) :
    state.settled pos <:+ state.region.pending := by
  unfold settled
  split
  · exact List.tail_suffix _
  · exact List.suffix_rfl

theorem suffix_settled {c : Char} {text : Text} (h : state.region.pending = c :: text) :
    text <:+ state.settled pos := by
  unfold settled
  rw [h]
  split
  · exact List.suffix_rfl
  · exact List.suffix_cons c text

theorem endsDollar_eq_false (h : ∀ d ∈ state.dollar, d < pos) (hpos : pos < pos') :
    state.endsDollar pos' = false := by
  unfold endsDollar
  split
  · exact isBefore_eq_false h hpos
  · rfl

/-- A dollar read before the last character is settled with all that stands before it. -/
theorem suffix_settled_of_suffix {text : Text} (h : state.Behind pos) (hpos : pos < pos')
    (hdollar : state'.dollar = state.dollar) (htext : text <:+ state'.region.pending) :
    text <:+ state'.settled pos' := by
  rw [settled, endsDollar_eq_false (hdollar ▸ h.dollar) hpos]
  exact htext

theorem frontier_le (h : state.Behind pos) : state.frontier pos ≤ pos := by
  unfold frontier
  cases hstart : state.region.start? with
  | none =>
    rw [Option.getD_none]
    split
    · exact Nat.sub_le pos 1
    · exact Nat.le_refl pos
  | some start => exact Nat.le_of_lt (h.start start hstart)

theorem pred_le_frontier (h : state.region.start? = none) : pos - 1 ≤ state.frontier pos := by
  unfold frontier
  rw [h, Option.getD_none]
  split
  · exact Nat.le_refl _
  · exact Nat.sub_le pos 1

/-- The frontier does not move back while the same section, or none, is open. -/
theorem frontier_le_frontier (h : state.Behind pos) (hpos : pos < pos')
    (hstart : state'.region.start? = state.region.start?) :
    state.frontier pos ≤ state'.frontier pos' := by
  cases hopen : state.region.start? with
  | none =>
    have hle : state.frontier pos ≤ pos := frontier_le h
    have hpred : pos' - 1 ≤ state'.frontier pos' := pred_le_frontier (hstart.trans hopen)
    omega
  | some start =>
    simp only [frontier, hstart, hopen, Option.getD_some]
    exact Nat.le_refl start

end State

section Step

variable {config : Config} {pos : Nat} {c : Char} {state : State} {step : Step}

/-- What a step completes is recorded at the frontier or after it, and before the next frontier. -/
theorem IsStep.offset (h : IsStep config pos c state step) (hbehind : state.Behind pos) :
    state.frontier pos ≤ step.state.frontier (pos + c.utf8Size) ∧
      ∀ completed ∈ step.completed, ∀ offset ∈ (completed.event pos).offset?,
        state.frontier pos ≤ offset ∧ offset < step.state.frontier (pos + c.utf8Size) := by
  have hpos : pos < pos + c.utf8Size := Nat.lt_add_of_pos_right c.utf8Size_pos
  have hle := State.frontier_le hbehind
  cases h with
  | operand =>
    exact ⟨State.frontier_le_frontier hbehind hpos (Region.start?_pushEscaped _ _ _), nofun⟩
  | escape | body => exact ⟨State.frontier_le_frontier hbehind hpos rfl, nofun⟩
  | bare => exact ⟨State.frontier_le_frontier hbehind hpos (Region.start?_push _ _), nofun⟩
  | @close before quote dollar =>
    have hstart : quote.start < pos := hbehind.start quote.start rfl
    have hnext : quote.start < State.frontier (pos + c.utf8Size)
        { region := .word ((quote.close config).decoded.reverse ++ before), dollar } :=
      Nat.lt_of_lt_of_le (by omega) (State.pred_le_frontier rfl)
    refine ⟨Nat.le_of_lt hnext, ?_⟩
    rintro _ ⟨⟩ _ ⟨⟩
    exact ⟨Nat.le_refl quote.start, hnext⟩
  | @quote region dollar houtside =>
    refine ⟨?_, nofun⟩
    obtain ⟨mode, hopen | ⟨hbefore, before, hpending, hopen⟩⟩ :=
      region.openQuote_eq config pos (isBefore dollar pos) c
    · rw [hopen]
      exact hle
    · -- The section starts at the dollar, up to which the frontier was held back.
      obtain rfl := Region.eq_word_of_pending houtside hpending
      rw [hopen]
      show State.frontier pos { region := .word ('$' :: before), dollar } ≤ pos - 1
      simp [State.frontier, State.endsDollar, Region.start?, hbefore]
  | @blank region =>
    refine ⟨Nat.le_trans hle (Nat.le_of_lt hpos), ?_⟩
    cases region with
    | gap | quoted => nofun
    | word text =>
      rintro _ ⟨⟩ _ ⟨⟩
      exact ⟨hle, hpos⟩

/-- A step only adds to the settled text: a section what it decodes to, and a word ends with it. -/
theorem IsStep.text (h : IsStep config pos c state step) (hbehind : state.Behind pos) :
    match step.completed with
    | none => state.settled pos <:+ step.state.settled (pos + c.utf8Size)
    | some (.quote closed) =>
      closed.decoded.reverse ++ state.settled pos <:+ step.state.settled (pos + c.utf8Size)
    | some (.word text) => state.settled pos <:+ text.reverse := by
  have hpos : pos < pos + c.utf8Size := Nat.lt_add_of_pos_right c.utf8Size_pos
  have hsettled := State.settled_suffix pos state
  cases h with
  | @operand region start escape dollar =>
    have hpending : region.pending <:+ (region.pushEscaped escape c).pending := by
      unfold Region.pushEscaped
      split
      · exact List.suffix_rfl
      · cases region with
        | gap => exact List.nil_suffix
        | word text => exact List.suffix_cons c text
        | quoted before quote => exact List.suffix_rfl
    exact State.suffix_settled_of_suffix hbehind hpos rfl (hsettled.trans hpending)
  | escape | body => exact State.suffix_settled_of_suffix hbehind hpos rfl hsettled
  | close => exact State.suffix_settled_of_suffix hbehind hpos rfl List.suffix_rfl
  | @quote region dollar houtside =>
    refine State.suffix_settled_of_suffix hbehind hpos rfl ?_
    obtain ⟨mode, hopen | ⟨hbefore, before, hpending, hopen⟩⟩ :=
      region.openQuote_eq config pos (isBefore dollar pos) c
    · rw [hopen]
      exact hsettled
    · obtain rfl := Region.eq_word_of_pending houtside hpending
      rw [hopen]
      simp [State.settled, State.endsDollar, Region.pending, hbefore]
  | @blank region dollar houtside =>
    cases region with
    | gap => exact hsettled.trans List.nil_suffix
    | word text => simpa [Region.word?, Region.pending] using hsettled
    | quoted => cases houtside
  | @bare region dollar houtside =>
    have hpending : (region.push c).pending = c :: region.pending := by
      cases region with
      | gap | word => rfl
      | quoted => cases houtside
    exact hsettled.trans (State.suffix_settled hpending)

end Step

/-! ### What a run records -/

namespace State

variable {config : Config} {line : Text} {state : State} {pos : Nat} {text : Text}

theorem events_cons (config : Config) (line : Text) (state : State) (pos : Nat) (c : Char)
    (rest : Text) : state.events config line pos (c :: rest) =
      ((state.step config pos c).completed.map (·.event pos)).toList ++
        (state.step config pos c).state.events config line (pos + c.utf8Size) rest := rfl

theorem events_of_none {c : Char} {rest : Text} (h : (state.step config pos c).completed = none) :
    state.events config line pos (c :: rest) =
      (state.step config pos c).state.events config line (pos + c.utf8Size) rest := by
  rw [events_cons, h]
  rfl

theorem events_of_some {c : Char} {rest : Text} {completed : Completed}
    (h : (state.step config pos c).completed = some completed) :
    state.events config line pos (c :: rest) = completed.event pos ::
      (state.step config pos c).state.events config line (pos + c.utf8Size) rest := by
  rw [events_cons, h]
  rfl

/-- The words are recorded one by one, and then the error if there is one. -/
theorem events_eq_append (config : Config) (line : Text) (state : State) (pos : Nat) (text : Text) :
    ∃ front, state.events config line pos text =
        front ++ (state.outcome config pos text).error?.toList.map (.splitFailed · line) ∧
      front.filterMap Event.token? = (state.outcome config pos text).words ∧
      front.filterMap Event.failure? = [] := by
  induction text generalizing state pos with
  | nil =>
    unfold events outcome
    cases state.finish pos with
    | error error => exact ⟨[], rfl, rfl, rfl⟩
    | ok last =>
      refine ⟨last.toList.map (.splitWord pos), by simp, ?_, ?_⟩
      · cases last <;> rfl
      · cases last <;> rfl
  | cons c rest ih =>
    obtain ⟨front, hevents, htokens, hfailures⟩ :=
      ih (state.step config pos c).state (pos + c.utf8Size)
    refine ⟨((state.step config pos c).completed.map (·.event pos)).toList ++ front, ?_, ?_, ?_⟩
    · rw [events_cons, hevents, outcome_cons, Run.error?_prepend, List.append_assoc]
    · rw [List.filterMap_append, htokens, outcome_cons, Run.words_prepend, Step.word?]
      rcases (state.step config pos c).completed with _ | _ | _ <;> rfl
    · rw [List.filterMap_append, hfailures, List.append_nil]
      rcases (state.step config pos c).completed with _ | _ | _ <;> rfl

/-- The offsets of a record grow from the frontier to the end of the line. -/
theorem pairwise_offsets (config : Config) (line text : Text) (hbehind : state.Behind pos) :
    ((state.events config line pos text).filterMap Event.offset?).Pairwise (· < ·) ∧
      ∀ offset ∈ (state.events config line pos text).filterMap Event.offset?,
        state.frontier pos ≤ offset ∧ offset ≤ pos + Text.byteLength text := by
  induction text generalizing state pos with
  | nil =>
    unfold events
    cases state.finish pos with
    | error error => exact ⟨.nil, nofun⟩
    | ok last =>
      cases last with
      | none => exact ⟨.nil, nofun⟩
      | some word => simpa [Event.offset?] using frontier_le hbehind
  | cons c rest ih =>
    have hstep := State.isStep config pos c state
    obtain ⟨hmono, hcompleted⟩ := hstep.offset hbehind
    obtain ⟨hpairwise, hbounds⟩ := ih (hstep.behind hbehind)
    have hbounds' : ∀ offset ∈ ((state.step config pos c).state.events config line
        (pos + c.utf8Size) rest).filterMap Event.offset?,
        state.frontier pos ≤ offset ∧ offset ≤ pos + Text.byteLength (c :: rest) := by
      intro offset hoffset
      obtain ⟨hle, hsize⟩ := hbounds offset hoffset
      rw [Text.byteLength_cons]
      omega
    cases hevent : (state.step config pos c).completed with
    | none =>
      rw [events_of_none hevent]
      exact ⟨hpairwise, hbounds'⟩
    | some completed =>
      obtain ⟨offset, hoffset⟩ : ∃ offset, (completed.event pos).offset? = some offset := by
        cases completed <;> exact ⟨_, rfl⟩
      obtain ⟨hle, hlt⟩ := hcompleted completed hevent offset hoffset
      have hsize := frontier_le (hstep.behind hbehind)
      rw [events_of_some hevent, List.filterMap_cons_some hoffset, List.pairwise_cons,
        List.forall_mem_cons]
      refine ⟨⟨fun later hlater => ?_, hpairwise⟩, ⟨hle, ?_⟩, hbounds'⟩
      · exact Nat.lt_of_lt_of_le hlt (hbounds later hlater).1
      · rw [Text.byteLength_cons]
        omega

/-- At the end of a line at most one event is recorded, and a word is all that is pending. -/
theorem events_nil (config : Config) (line : Text) (state : State) (pos : Nat) :
    ∃ last : Option Event, state.events config line pos [] = last.toList ∧
      ∀ stop token, last = some (.splitWord stop token) → state.region.pending.reverse = token := by
  rcases state with ⟨_ | text | ⟨before, quote⟩, _ | ⟨start, escape⟩, dollar⟩
  case gap.none => exact ⟨none, rfl, nofun⟩
  case word.none =>
    refine ⟨some (.splitWord pos text.reverse), rfl, ?_⟩
    rintro _ _ ⟨⟩
    rfl
  all_goals exact ⟨some (.splitFailed _ line), rfl, nofun⟩

/-- The next word continues the settled text, with the sections that end before it in order. -/
theorem occurIn_next {stop : Nat} {token : Text} {group after : List Event}
    (hbehind : state.Behind pos)
    (hevents : state.events config line pos text = group ++ .splitWord stop token :: after)
    (hgroup : ∀ event ∈ group, event.token? = none) :
    ∃ rest, token = (state.settled pos).reverse ++ rest ∧
      OccurIn (group.filterMap Event.decoded?) rest := by
  induction text generalizing state pos group with
  | nil =>
    obtain ⟨last, hlast, htoken⟩ := events_nil config line state pos
    obtain ⟨rfl, hsome⟩ : group = [] ∧ last = some (.splitWord stop token) := by
      rw [hlast] at hevents
      cases last <;> cases group <;> simp_all
    obtain ⟨added, hadded⟩ := settled_suffix pos state
    refine ⟨added.reverse, ?_, trivial⟩
    rw [← htoken stop token hsome, ← hadded, List.reverse_append]
  | cons c rest ih =>
    have hstep := State.isStep config pos c state
    have htext := hstep.text hbehind
    cases hcompleted : (state.step config pos c).completed with
    | none =>
      rw [events_of_none hcompleted] at hevents
      simp only [hcompleted] at htext
      obtain ⟨tail, rfl, hoccur⟩ := ih (hstep.behind hbehind) hevents hgroup
      obtain ⟨added, hadded⟩ := htext
      refine ⟨added.reverse ++ tail, ?_, hoccur.append_left _⟩
      rw [← hadded, List.reverse_append, List.append_assoc]
    | some completed =>
      rw [events_of_some hcompleted] at hevents
      cases completed with
      | quote closed =>
        simp only [hcompleted] at htext
        cases group with
        | nil => cases hevents
        | cons event group =>
          obtain ⟨rfl, hlater⟩ := List.cons.inj hevents
          obtain ⟨tail, rfl, hoccur⟩ :=
            ih (hstep.behind hbehind) hlater (List.forall_mem_cons.1 hgroup).2
          obtain ⟨added, hadded⟩ := htext
          refine ⟨closed.decoded ++ (added.reverse ++ tail), ?_, [], added.reverse ++ tail, rfl,
            hoccur.append_left _⟩
          rw [← hadded]
          simp
      | word word =>
        simp only [hcompleted] at htext
        cases group with
        | nil =>
          obtain ⟨hevent, -⟩ := List.cons.inj hevents
          obtain ⟨-, rfl⟩ := Event.splitWord.inj hevent
          obtain ⟨added, hadded⟩ := htext
          refine ⟨added.reverse, ?_, trivial⟩
          rw [← List.reverse_append, hadded, List.reverse_reverse]
        | cons event group =>
          obtain ⟨rfl, -⟩ := List.cons.inj hevents
          cases (List.forall_mem_cons.1 hgroup).1

/-- Without its first event a record is that of a later state. -/
theorem events_tail (config : Config) (line text : Text) (hbehind : state.Behind pos) :
    ∃ state' pos' text', Behind pos' state' ∧
      (state.events config line pos text).tail = state'.events config line pos' text' := by
  induction text generalizing state pos with
  | nil =>
    obtain ⟨last, hlast, -⟩ := events_nil config line state pos
    refine ⟨{}, pos, [], behind_initial pos, ?_⟩
    rw [hlast]
    cases last <;> rfl
  | cons c rest ih =>
    have hbehind' := (State.isStep config pos c state).behind hbehind
    cases hcompleted : (state.step config pos c).completed with
    | none =>
      rw [events_of_none hcompleted]
      exact ih hbehind'
    | some completed =>
      rw [events_of_some hcompleted]
      exact ⟨_, _, rest, hbehind', rfl⟩

theorem events_suffix {front back : List Event} (hbehind : state.Behind pos)
    (hevents : state.events config line pos text = front ++ back) :
    ∃ state' pos' text', Behind pos' state' ∧ state'.events config line pos' text' = back := by
  induction front generalizing state pos text with
  | nil => exact ⟨state, pos, text, hbehind, hevents⟩
  | cons event front ih =>
    obtain ⟨state', pos', text', hbehind', htail⟩ := events_tail config line text hbehind
    rw [hevents] at htail
    exact ih hbehind' htail.symm

/-- The sections of a record that end before a word stand in it. -/
theorem occurIn_token {stop : Nat} {token : Text} {front group after : List Event}
    (hbehind : state.Behind pos)
    (hevents : state.events config line pos text =
      front ++ (group ++ .splitWord stop token :: after))
    (hgroup : ∀ event ∈ group, event.token? = none) :
    OccurIn (group.filterMap Event.decoded?) token := by
  obtain ⟨state', pos', text', hbehind', hevents'⟩ := events_suffix hbehind hevents
  obtain ⟨rest, rfl, hoccur⟩ := occurIn_next hbehind' hevents' hgroup
  exact hoccur.append_left _

end State

/-- What it means that a record tells the truth about the splitting of a line. -/
structure Truthful (config : Config) (line : Text) (events : List Event) : Prop where
  words : ∀ words, split config line = .ok words → events.filterMap Event.token? = words
  words_before : ∀ error, split config line = .error error →
    (Lexer.ofText config line).Gives ((events.filterMap Event.token?).map .ok ++ [.error error])
  /-- Each section starts after the last word before it and before the end of its own word. -/
  offsets : (events.filterMap Event.offset?).Pairwise (· < ·)
  offsets_le : ∀ offset ∈ events.filterMap Event.offset?, offset ≤ Text.byteLength line
  decoded : ∀ front group stop token after,
    events = front ++ (group ++ .splitWord stop token :: after) →
      (∀ event ∈ group, event.token? = none) → OccurIn (group.filterMap Event.decoded?) token
  not_failed : ∀ words, split config line = .ok words → events.filterMap Event.failure? = []
  failed : ∀ error, split config line = .error error →
    events.filterMap Event.failure? = [error.message] ∧
      events.getLast? = some (.splitFailed error line)

/-- The record of every splitting tells the truth about its result. -/
theorem trace_truthful (config : Config) (line : Text) :
    Truthful config line (trace config line) := by
  have hbehind := State.behind_initial 0
  obtain ⟨front, hevents, htokens, hfailures⟩ := State.events_eq_append config line {} 0 line
  obtain ⟨hpairwise, hbounds⟩ := State.pairwise_offsets config line line hbehind
  rw [← run_eq_outcome] at hevents htokens
  have htokens : (trace config line).filterMap Event.token? = (run config line).words := by
    rw [trace, hevents, List.filterMap_append, htokens]
    cases (run config line).error? <;> simp [Event.token?]
  constructor
  case words =>
    intro words h
    rw [htokens, Run.result_eq_ok_iff.1 h]
  case words_before =>
    intro error h
    have hgives := Lexer.gives_run config line
    rwa [Run.items, Run.result_eq_error_iff.1 h, ← htokens] at hgives
  case offsets => exact hpairwise
  case offsets_le =>
    intro offset hoffset
    simpa using (hbounds offset hoffset).2
  case decoded => exact fun _ _ _ _ _ => State.occurIn_token hbehind
  case not_failed =>
    intro words h
    rw [trace, hevents, Run.result_eq_ok_iff.1 h]
    simpa using hfailures
  case failed =>
    intro error h
    rw [trace, hevents, Run.result_eq_error_iff.1 h, List.filterMap_append, hfailures]
    simp [Event.failure?]

example : trace {} ['a', '$', '\'', 'b', '\'', 'c', ' ', 'd'] =
    [.closedQuote ⟨.ansiC, 1, ['b']⟩, .splitWord 6 ['a', 'b', 'c'], .splitWord 8 ['d']] := by
  cbv

end ShellWords
