import ShellWords.Lexer.Run
import ShellWords.Text.CharLiteral

/-! The record of a splitting: one event for each word and each quoted section, as they end, and
one for the error that stops it. -/

namespace ShellWords

/-- Something worth recording while a line is split. -/
inductive Event where
  /-- A word has ended before the blank at offset `stop`, or with the line of that length. -/
  | splitWord (stop : Nat) (token : Text)
  | closedQuote (closed : ClosedQuote)
  | splitFailed (error : SplitError) (line : Text)
deriving DecidableEq, Repr

/-- How a record names the mode of a section. -/
def QuoteMode.label : QuoteMode → Text
  | plain quote => "Plain(".toList ++ Text.charLiteral quote ++ [')']
  | ansiC => "AnsiC".toList
  | locale => "Locale".toList

def Completed.event (pos : Nat) : Completed → Event
  | .word text => .splitWord pos text
  | .quote closed => .closedQuote closed

/-- The events from the given state and offset to the end of `rest`, which ends `line`. -/
def State.events (config : Config) (line : Text) (state : State) (pos : Nat) : Text → List Event
  | [] =>
    match state.finish pos with
    | .ok last => last.toList.map (.splitWord pos)
    | .error error => [.splitFailed error line]
  | c :: rest =>
    let step := state.step config pos c
    (step.completed.map (·.event pos)).toList ++
      step.state.events config line (pos + c.utf8Size) rest

/-- The events of splitting a line, in order. -/
def trace (config : Config) (line : Text) : List Event :=
  State.events config line {} 0 line

end ShellWords
