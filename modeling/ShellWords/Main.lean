import ShellWords.Command.Run

/-! The command line program: it reads the file and the standard input that a run asks for, and
writes what comes of the run. -/

namespace ShellWords

/-- Short texts in place of those that a full reader of arguments or of TOML would give. -/
def plainWording : Wording where
  help _ := "usage: shellsplit [OPTIONS] split|quote|join [WORD]...\n".toList
  usage _ := "usage: shellsplit [OPTIONS] split|quote|join [WORD]...\n".toList
  explain _ := "not a configuration in TOML".toList
  logLine _ entry := entry.message ++ ['\n']

def readFile (path : Text) : IO (Except ReadError ByteArray) := do
  try
    return .ok (← IO.FS.readBinFile (String.ofList path))
  catch
    | .noFileOrDirectory .. => return .error .missing
    | error => return .error (.other (toString error).toList)

/-- Reads what an invocation asks for. The standard input is left alone unless it is the line to
split. -/
def Surroundings.read (invocation : Invocation) : IO Surroundings := do
  let contents ← invocation.options.config.mapM readFile
  let input ← if invocation.readsInput then (← IO.getStdin).readBinToEnd else pure .empty
  return { file := fun _ => contents.getD (.error .missing), input, wording := plainWording }

def runHere (arguments : List Text) : IO Outcome := do
  match Invocation.ofArguments arguments with
  | .ok invocation => return runProgram (← Surroundings.read invocation) arguments
  | .error _ =>
    let nothing := { file := fun _ => .error .missing, input := .empty, wording := plainWording }
    return runProgram nothing arguments

end ShellWords

/-- Runs the program and leaves with its exit code. -/
def main (arguments : List String) : IO UInt32 := do
  let outcome ← ShellWords.runHere (arguments.map String.toList)
  IO.print (String.ofList outcome.output)
  IO.eprint (String.ofList (outcome.report ShellWords.plainWording))
  return outcome.code.toUInt32
