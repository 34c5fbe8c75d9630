import RelationalAlgebra.DataSet.Database
import RelationalAlgebra.DataSet.Sample
import RelationalAlgebra.Program.Options
import RelationalAlgebra.Shell
import RelationalAlgebra.Text.Lines

/-!
# The program

The program answers one expression or runs a shell, on the relations of a database or on the sample
data set. What it prints is a function of its arguments, the database, the log filter and its input
(`Program.run`).
-/
namespace RelationalAlgebra

/-- What a run leaves: the text on both outputs and the exit code. -/
structure Outcome where
  stdout : String
  stderr : String
  code : UInt8
  deriving DecidableEq, Repr

namespace Program

def usage : String := "\n".intercalate [
  "relalg 0.1.0",
  "Interactive relational algebra interpreter",
  "",
  "USAGE:",
  "    relalg [OPTIONS]",
  "",
  "OPTIONS:",
  "    -c, --command <command>      Evaluate one expression and exit",
  "    -d, --database <database>    Load relations from every table of a database",
  "        --history <history>      Line editor history file",
  "    -t, --tree                   Print the tree of intermediate relations for each query",
  "    -v, --verbose                Enable debug logging",
  "    -h, --help                   Print help information",
  "    -V, --version                Print version information"] ++ "\n"

def refuse : Refusal → Outcome
  | .help => ⟨usage, "", 0⟩
  | .version => ⟨"relalg 0.1.0\n", "", 0⟩
  | .misuse => ⟨"", "error: the arguments cannot be read\n\n" ++ usage, 1⟩

/-- The outcome of an error that ends the run. -/
def fail (e : Error) : Outcome := ⟨"", Shell.errorLine e, 1⟩

def dataSet (database : Option Database) : Except Error DataSet × List Event :=
  match database with
  | some d => d.load
  | none => (DataSet.sample, [])

/-- What a run does once its data set is there. -/
inductive Task where
  | done (outcome : Outcome)
  | converse (session : Shell.Session)

/-- The start of a run: what it prints, and what is left to do. A run that was given an expression
answers it and is done, and so is one that fails. -/
def start (o : Options) (database : Option Database) (filter : LogFilter) : String × Task :=
  let (loaded, events) := dataSet database
  match loaded with
  | .error e => (filter.write events, .done (fail e))
  | .ok d =>
    let ready := filter.write (events ++ [.ready d.size])
    match o.command with
    | none => (ready, .converse ⟨d, filter, o.showPlan⟩)
    | some text =>
      let (response, events) := respond d o.showPlan text
      match response with
      | .ok table => (ready ++ filter.write events, .done ⟨table ++ "\n", "", 0⟩)
      | .error e => (ready ++ filter.write events, .done (fail e))

def runWith (o : Options) (database : Option Database) (filter : LogFilter) (input : String) :
    Outcome :=
  let (printed, task) := start o database filter
  match task with
  | .done outcome => { outcome with stdout := printed ++ outcome.stdout }
  | .converse session => ⟨printed ++ session.run (Text.inputLines input), "", 0⟩

/-- The outcome of a run: its arguments, the database if one was given, the log filter of the
environment if there is one, and all that can be read from the input. -/
def run (args : List String) (database : Option Database) (logSetting : Option String)
    (input : String) : Outcome :=
  match Options.ofArgs args with
  | .error refusal => refuse refusal
  | .ok o => runWith o database (.ofEnvironment logSetting o.verbose) input

end Program

end RelationalAlgebra
