import ShellWords.Text.Basic

/-! Quoting of words, so that a shell, or `split`, reads them back as they are. -/

namespace ShellWords

/-- Whether a character needs no quotes in any shell. -/
def isSafe (c : Char) : Bool :=
  c.isAlphanum || "@%_-+=:,./".toList.contains c

/-- What a character becomes between single quotes. A single quote closes the section, stands
between double quotes and opens the next section. -/
def quoteChar (c : Char) : Text :=
  if c = '\'' then "'\"'\"'".toList else [c]

/-- Quotes a word: words of safe characters stay as they are, and all others go between single
quotes. -/
def quote (word : Text) : Text :=
  if word.isEmpty then ['\'', '\'']
  else if word.all isSafe then word
  else '\'' :: word.flatMap quoteChar ++ ['\'']

def join (words : List Text) : Text :=
  List.intercalate [' '] (words.map quote)

end ShellWords
