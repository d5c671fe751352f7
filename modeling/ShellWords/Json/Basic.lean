import ShellWords.Text.Basic

/-! JSON values. -/

namespace ShellWords

/-- A JSON value. Its strings and the names of its members are texts, or `none` where escapes leave
a surrogate unpaired, which the grammar allows but no text contains. -/
inductive Json where
  | null
  | bool (value : Bool)
  | number (literal : Text)
  | string (text : Option Text)
  | array (items : List Json)
  | object (members : List (Option Text × Json))
deriving Repr

namespace Json

def ofText (text : Text) : Json :=
  string (some text)

def ofNat (n : Nat) : Json :=
  number (Nat.toDigits 10 n)

def ofTexts (texts : List Text) : Json :=
  array (texts.map ofText)

def text? : Json → Option Text
  | string text => text
  | _ => none

def texts? : Json → Option (List Text)
  | array items => items.mapM text?
  | _ => none

/-- The value of the first member of an object with a name. -/
def member? (name : Text) : Json → Option Json
  | object members => members.lookup (some name)
  | _ => none

end Json

end ShellWords
