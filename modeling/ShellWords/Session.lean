import ShellWords.Lexer.Basic

/-! Several lexers at work side by side, each known by a name. -/

namespace ShellWords

/-- The lexers that have been opened, the latest first; of two with one name the first counts. -/
abbrev Session := List (Text × Lexer)

namespace Session

inductive Request where
  /-- Puts a lexer for `line` under a name, in place of the one it had. -/
  | openLexer (name : Text) (config : Config) (line : Text)
  | next (name : Text)
  | rest (name : Text)
deriving DecidableEq, Repr

inductive Answer where
  | opened
  | item (item : Option Item)
  | rest (words : Except SplitError (List Text))
  /-- The name has never been opened. -/
  | noLexer
deriving Repr

def find? (session : Session) (name : Text) : Option Lexer :=
  session.lookup name

def put (session : Session) (name : Text) (lexer : Lexer) : Session :=
  (name, lexer) :: session.filter (·.1 != name)

/-- The answer to a request, and the session after it. -/
def serve (session : Session) : Request → Answer × Session
  | .openLexer name config line => (.opened, session.put name (.ofText config line))
  | .next name =>
    match session.find? name with
    | none => (.noLexer, session)
    | some lexer =>
      let (item, lexer) := lexer.next
      (.item item, session.put name lexer)
  | .rest name =>
    match session.find? name with
    | none => (.noLexer, session)
    | some lexer => (.rest lexer.remaining, session.put name lexer.close)

def serveAll (session : Session) : List Request → List Answer
  | [] => []
  | request :: requests =>
    let (answer, session) := session.serve request
    answer :: session.serveAll requests

end Session

end ShellWords
