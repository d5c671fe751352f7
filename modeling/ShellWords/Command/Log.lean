import ShellWords.Lexer.Trace

/-! The log of a run. A part of a run has its entries beside its result, and a part that fails keeps
those it has made. How many of the entries are shown depends on how often messages are asked for. -/

namespace ShellWords

/-- How much an entry matters, from most to least. -/
inductive Level where
  | info
  | debug
  | trace
deriving DecidableEq, Repr

/-- Unless messages are asked for, warnings alone are shown, and no entry is one. -/
def Level.isShown (level : Level) : (verbosity : Nat) → Bool
  | 0 => false
  | 1 => level ≠ .trace
  | _ => true

inductive LogEntry where
  | loaded (path : Text)
  /-- The configuration that the command works with. -/
  | configured (config : Config)
  | lexer (event : Event)
  /-- The line has been split into so many words. -/
  | splitInto (count : Nat)
  | joining (count : Nat)
deriving DecidableEq, Repr

namespace LogEntry

def level : LogEntry → Level
  | loaded _ => .info
  | lexer (.splitWord _ _) => .trace
  | lexer (.closedQuote _) => .trace
  | _ => .debug

def message : LogEntry → Text
  | loaded _ => "loaded lexer config".toList
  | configured _ => "lexer configuration".toList
  | lexer (.splitWord _ _) => "split word".toList
  | lexer (.closedQuote _) => "closed quote".toList
  | lexer (.splitFailed _ _) => "split failed".toList
  | splitInto _ => "split input".toList
  | joining _ => "joining words".toList

end LogEntry

/-- What comes of a part of a run, with the entries that it has made in the log. -/
structure Logged (ε α : Type) where
  log : List LogEntry
  result : Except ε α

namespace Logged

variable {ε α β : Type}

def tell (entry : LogEntry) : Logged ε Unit where
  log := [entry]
  result := .ok ()

def fail (error : ε) : Logged ε α where
  log := []
  result := .error error

instance : Monad (Logged ε) where
  pure value := ⟨[], .ok value⟩
  bind part next :=
    match part.result with
    | .ok value => ⟨part.log ++ (next value).log, (next value).result⟩
    | .error error => ⟨part.log, .error error⟩

theorem bind_of_ok {part : Logged ε α} {value : α} (h : part.result = .ok value)
    (next : α → Logged ε β) :
    part >>= next = ⟨part.log ++ (next value).log, (next value).result⟩ := by
  show (match part.result with | .ok _ => _ | .error _ => _) = _
  rw [h]

theorem bind_of_error {part : Logged ε α} {error : ε} (h : part.result = .error error)
    (next : α → Logged ε β) : part >>= next = ⟨part.log, .error error⟩ := by
  show (match part.result with | .ok _ => _ | .error _ => _) = _
  rw [h]

end Logged

end ShellWords
