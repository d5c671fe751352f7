import ShellWords.Proofs.Outcome
import ShellWords.Session

/-! Lexers at work side by side. However the requests on several lexers are mixed, each lexer
answers as the list of items that its line comes to, of which every pull takes one and a collection
takes the rest; and this list is what splitting the line at once gives: `answersTo_eq_replies`. -/

namespace ShellWords

/-! ### One lexer -/

/-- The words of some items, or the error among them. -/
def collect : List Item → Except SplitError (List Text)
  | [] => .ok []
  | .ok word :: items => (collect items).map (word :: ·)
  | .error error :: _ => .error error

@[simp] theorem collect_words (words : List Text) : collect (words.map .ok) = .ok words := by
  induction words with
  | nil => rfl
  | cons word words ih => simp [collect, ih, Except.map]

@[simp] theorem collect_error (words : List Text) (error : SplitError) :
    collect (words.map .ok ++ [.error error]) = .error error := by
  induction words with
  | nil => rfl
  | cons word words ih => simp [collect, ih, Except.map]

theorem Run.collect_items (run : Run) : collect run.items = run.result := by
  obtain ⟨words, error?⟩ := run
  cases error? <;> simp [items, result]

namespace Lexer

/-- Collecting gives the items that are still to come, although it reads the line in one go. -/
theorem remaining_eq_collect (lexer : Lexer) : lexer.remaining = collect lexer.items := by
  unfold remaining items
  split
  · rfl
  · simp only [Progress.finish_readAll, Run.collect_items]
    rfl

theorem items_take (lexer : Lexer) (n : Nat) : (lexer.take n).2.items = lexer.items.drop n := by
  induction n generalizing lexer with
  | zero => rfl
  | succ n ih =>
    rw [take, ih, lexer.next_spec.2, List.drop_tail]

theorem items_ofText (config : Config) (line : Text) :
    (ofText config line).items = (run config line).items := by
  rw [run_eq_outcome]
  rfl

theorem remaining_take (config : Config) (line : Text) (n : Nat) :
    ((ofText config line).take n).2.remaining = collect ((run config line).items.drop n) := by
  rw [remaining_eq_collect, items_take, items_ofText]

end Lexer

theorem items_of_split {config : Config} {line : Text} {words : List Text}
    (h : split config line = .ok words) : (run config line).items = words.map .ok := by
  rw [Run.result_eq_ok_iff.1 h]
  simp [Run.items]

theorem items_of_split_error {config : Config} {line : Text} {error : SplitError}
    (h : split config line = .error error) :
    (run config line).items = (run config line).words.map .ok ++ [.error error] := by
  rw [Run.items, Run.result_eq_error_iff.1 h]
  rfl

theorem collect_drop_words (words : List Text) (n : Nat) :
    collect ((words.map Except.ok).drop n) = .ok (words.drop n) := by
  rw [← List.map_drop, collect_words]

/-- After the words comes the error, and after the error nothing. -/
theorem collect_drop_error (words : List Text) (error : SplitError) (n : Nat) :
    collect ((words.map Except.ok ++ [Except.error error]).drop n) =
      if n ≤ words.length then .error error else .ok [] := by
  split
  · rename_i h
    rw [List.drop_append_of_le_length (by simpa using h), ← List.map_drop, collect_error]
  · rename_i h
    rw [List.drop_eq_nil_of_le (by simp; omega)]
    rfl

/-! ### Several lexers -/

namespace Session

def Request.name : Request → Text
  | openLexer name _ _ => name
  | next name => name
  | rest name => name

/-- The answers in a session to the requests on one lexer. -/
def answersTo (name : Text) (session : Session) (requests : List Request) : List Answer :=
  ((requests.zip (session.serveAll requests)).filter (·.1.name == name)).map Prod.snd

/-- What requests on a single lexer come to if these items are left to it, or none has been
opened. -/
def replies : Option (List Item) → List Request → List Answer
  | _, [] => []
  | _, .openLexer _ config line :: requests =>
    .opened :: replies (some (run config line).items) requests
  | none, _ :: requests => .noLexer :: replies none requests
  | some items, .next _ :: requests => .item items.head? :: replies (some items.tail) requests
  | some items, .rest _ :: requests => .rest (collect items) :: replies (some []) requests

@[simp] theorem find?_put_self (session : Session) (name : Text) (lexer : Lexer) :
    (session.put name lexer).find? name = some lexer := by
  simp [put, find?]

theorem find?_put_of_ne {name other : Text} (h : other ≠ name) (session : Session) (lexer : Lexer) :
    (session.put name lexer).find? other = session.find? other := by
  have hfilter : (session.filter (·.1 != name)).lookup other = session.lookup other := by
    induction session with
    | nil => rfl
    | cons entry session ih =>
      obtain ⟨key, lexer⟩ := entry
      by_cases hkey : key = name
      · have hother : (other == key) = false := by simpa [hkey] using h
        simp [hkey, List.lookup_cons, hkey ▸ hother, ih]
      · simp [hkey, List.lookup_cons, ih]
  have hother : (other == name) = false := by simpa using h
  simp [put, find?, List.lookup_cons, hother, hfilter]

theorem answersTo_cons (name : Text) (session : Session) (request : Request)
    (requests : List Request) :
    answersTo name session (request :: requests) =
      (if request.name = name then [(session.serve request).1] else []) ++
        answersTo name (session.serve request).2 requests := by
  simp only [answersTo, serveAll, List.zip_cons_cons, List.filter_cons]
  split <;> simp_all

/-- A request on another lexer changes nothing for this one. -/
theorem find?_serve_of_ne {name : Text} {request : Request} (h : request.name ≠ name)
    (session : Session) : (session.serve request).2.find? name = session.find? name := by
  have hname : name ≠ request.name := h.symm
  cases request with
  | openLexer other config line => exact find?_put_of_ne hname session _
  | next other | rest other =>
    simp only [serve]
    split
    · rfl
    · exact find?_put_of_ne hname session _

/-- The answers to the requests on a lexer depend on these requests and its own state alone. -/
theorem answersTo_eq (name : Text) (session : Session) (requests : List Request) :
    answersTo name session requests =
      replies ((session.find? name).map Lexer.items) (requests.filter (·.name == name)) := by
  induction requests generalizing session with
  | nil => simp [answersTo, serveAll, replies]
  | cons request requests ih =>
    rw [answersTo_cons, ih, List.filter_cons]
    by_cases hname : request.name = name
    · subst hname
      simp only [if_true, beq_self_eq_true]
      cases request with
      | openLexer name config line =>
        simp [serve, replies, Request.name, Lexer.items_ofText]
      | next name =>
        cases hfind : session.find? name with
        | none => simp [serve, replies, Request.name, hfind]
        | some lexer =>
          simp [serve, replies, Request.name, hfind, lexer.next_spec.1, lexer.next_spec.2]
      | rest name =>
        cases hfind : session.find? name with
        | none => simp [serve, replies, Request.name, hfind]
        | some lexer => simp [serve, replies, Request.name, hfind, lexer.remaining_eq_collect]
    · simp [hname, find?_serve_of_ne hname]

/-- In every session the answers to the requests on one lexer are those of a list of items, whatever
the other requests are; and the items of a line are the words that splitting it at once gives, or
the words before its error and then the error, as pulls give them one by one and a collection after
any number of pulls gives the rest of them. -/
theorem answersTo_eq_replies :
    (∀ name requests,
      answersTo name [] requests = replies none (requests.filter (·.name == name))) ∧
    ∀ config line,
      (∀ words, split config line = .ok words →
        (run config line).items = words.map .ok ∧
          (Lexer.ofText config line).Gives (words.map .ok) ∧
          ∀ n, ((Lexer.ofText config line).take n).2.remaining = .ok (words.drop n)) ∧
      ∀ error, split config line = .error error → ∃ words : List Text,
        (run config line).items = words.map .ok ++ [.error error] ∧
          (Lexer.ofText config line).Gives (words.map .ok ++ [.error error]) ∧
          ∀ n, ((Lexer.ofText config line).take n).2.remaining =
            if n ≤ words.length then .error error else .ok [] := by
  refine ⟨fun name requests => answersTo_eq name [] requests, fun config line => ⟨?_, ?_⟩⟩
  · intro words h
    have hitems := items_of_split h
    refine ⟨hitems, hitems ▸ Lexer.gives_run config line, fun n => ?_⟩
    rw [Lexer.remaining_take, hitems, collect_drop_words]
  · intro error h
    have hitems := items_of_split_error h
    refine ⟨_, hitems, hitems ▸ Lexer.gives_run config line, fun n => ?_⟩
    rw [Lexer.remaining_take, hitems, collect_drop_error]

/-- Two lexers are pulled in turn, and the one with the error is opened again after it. -/
theorem answersTo_eq_replies_reopened :
    let line : Text := ['a', ' ', '\'', 'b']
    let error : SplitError := .unterminatedQuote '\'' ⟨2, 4⟩
    let requests : List Request :=
      [.openLexer ['x'] {} line, .openLexer ['y'] {} ['c', ' ', 'd'], .next ['x'], .next ['y'],
        .next ['x'], .rest ['y'], .next ['x'], .openLexer ['x'] {} ['e'], .rest ['x'], .next ['x']]
    split {} line = .error error ∧
      answersTo ['x'] [] requests =
        [.opened, .item (some (.ok ['a'])), .item (some (.error error)), .item none, .opened,
          .rest (.ok [['e']]), .item none] ∧
      ∃ words : List Text, (run {} line).items = words.map .ok ++ [.error error] ∧
        (Lexer.ofText {} line).Gives (words.map .ok ++ [.error error]) ∧
        ∀ n, ((Lexer.ofText {} line).take n).2.remaining =
          if n ≤ words.length then .error error else .ok [] := by
  intro line error requests
  have hsplit : split {} line = .error error := rfl
  have hanswers := answersTo_eq_replies.1 ['x'] requests
  exact ⟨hsplit, hanswers.trans rfl, (answersTo_eq_replies.2 {} line).2 error hsplit⟩

end Session

end ShellWords
