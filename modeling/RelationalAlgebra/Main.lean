import RelationalAlgebra.Program

/-!
# The command line

Reads the arguments, the environment and the input, and prints what `Program` answers. Lines are
answered as they come. There is no reader for database files, so a call that names one is refused.
-/
namespace RelationalAlgebra

def printNow (s : String) : IO Unit := do
  let output ← IO.getStdout
  output.putStr s
  output.flush

/-- Prints an outcome and gives its exit code. -/
def Outcome.report (o : Outcome) : IO UInt32 := do
  printNow o.stdout
  IO.eprint o.stderr
  return o.code.toUInt32

/-- Answers lines until there are no more or one of them quits. -/
partial def Shell.Session.converse (s : Shell.Session) (input : IO.FS.Stream) : IO Unit := do
  printNow s.announcement
  let line ← input.getLine
  if line.isEmpty then return
  let (printed, next) := s.step line
  printNow printed
  match next with
  | some s => s.converse input
  | none => return

def Options.execute (o : Options) : IO UInt32 := do
  let filter := LogFilter.ofEnvironment (← IO.getEnv "RUST_LOG") o.verbose
  match o.database <|> (← IO.getEnv "RELALG_DATABASE") with
  | some path => Outcome.report ⟨"", "Error: there is no reader for " ++ path ++ "\n", 1⟩
  | none =>
    let (printed, task) := Program.start o none filter
    printNow printed
    match task with
    | .done outcome => outcome.report
    | .converse session =>
      session.converse (← IO.getStdin)
      return 0

end RelationalAlgebra

def main (args : List String) : IO UInt32 :=
  match RelationalAlgebra.Options.ofArgs args with
  | .ok o => o.execute
  | .error refusal => (RelationalAlgebra.Program.refuse refusal).report
