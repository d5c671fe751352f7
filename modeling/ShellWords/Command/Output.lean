import ShellWords.Json.Printer

/-! What the commands write: words one on a line, or as JSON. -/

namespace ShellWords

inductive OutputFormat where
  | text
  | json
deriving DecidableEq, Repr

namespace OutputFormat

def ofName? (name : Text) : Option OutputFormat :=
  if name = "text".toList then some text
  else if name = "json".toList then some json
  else none

/-- Writes words: each on a line of its own, or all in one JSON array. -/
def formatWords (words : List Text) : OutputFormat → Text
  | text => words.flatMap fun word => word ++ ['\n']
  | json => (Json.ofTexts words).print ++ ['\n']

/-- Writes a line as it is, or as a JSON string. -/
def formatLine (line : Text) : OutputFormat → Text
  | text => line ++ ['\n']
  | json => (Json.ofText line).print ++ ['\n']

end OutputFormat

end ShellWords
