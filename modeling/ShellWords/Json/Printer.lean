import ShellWords.Json.Basic

/-! The compact written form of JSON: no blanks, and no escapes but those that the grammar asks
for. -/

namespace ShellWords.Json

/-- The written form of a character in a string: quotes, backslashes and control characters are
escaped, by a letter where they have one. -/
def printChar (c : Char) : Text :=
  if c = '"' then ['\\', '"']
  else if c = '\\' then ['\\', '\\']
  else if c = '\x08' then ['\\', 'b']
  else if c = '\x0c' then ['\\', 'f']
  else if c = '\n' then ['\\', 'n']
  else if c = '\r' then ['\\', 'r']
  else if c = '\t' then ['\\', 't']
  else if c.toNat < 16 then ['\\', 'u', '0', '0', '0', Nat.digitChar c.toNat]
  else if c.toNat < 32 then ['\\', 'u', '0', '0', '1', Nat.digitChar (c.toNat - 16)]
  else [c]

/-- The written form of a string. A lone surrogate stands for all strings that have no text. -/
def printString : Option Text → Text
  | some text => '"' :: text.flatMap printChar ++ ['"']
  | none => "\"\\ud800\"".toList

mutual

def print : Json → Text
  | null => "null".toList
  | bool true => "true".toList
  | bool false => "false".toList
  | number literal => literal
  | string text => printString text
  | array [] => ['[', ']']
  | array (item :: items) => '[' :: print item ++ printItems items
  | object [] => ['\x7b', '\x7d']
  | object ((name, value) :: members) =>
    '\x7b' :: printString name ++ ':' :: print value ++ printMembers members

/-- The items of an array after the first, and its end. -/
def printItems : List Json → Text
  | [] => [']']
  | item :: items => ',' :: print item ++ printItems items

/-- The members of an object after the first, and its end. -/
def printMembers : List (Option Text × Json) → Text
  | [] => ['\x7d']
  | (name, value) :: members =>
    ',' :: printString name ++ ':' :: print value ++ printMembers members

end

end ShellWords.Json
