import RelationalAlgebra.Evaluation.Plan
import RelationalAlgebra.Log.Filter
import RelationalAlgebra.Report
import RelationalAlgebra.Text.Backspace
import RelationalAlgebra.Text.Blank

/-!
# The shell

The shell reads one line after the other. A line is a command or an expression, which is answered by
a table or an error. `Session.step` answers one line, `Session.run` a whole input. All that a line
can change for later ones is whether plans are shown.
-/
namespace RelationalAlgebra

/-- The table of an expression, under its plan if that is wanted, and the log. -/
def respond (d : DataSet) (showPlan : Bool) (text : String) : Except Error String × List Event :=
  let (result, events) := answer d text
  let response := do
    let a ← result
    let plan ← if showPlan then Plan.render <$> a.plan else pure ""
    return plan ++ a.relation.table ++ "\n" ++ a.relation.rowCount
  (response, events)

namespace Shell

inductive Command where
  | nothing
  | quit
  | help
  | tables
  | togglePlan
  | expression (text : String)
  deriving DecidableEq, Repr

/-- The command of a line after its backspaces, blanks around it aside. -/
def Command.ofLine (line : String) : Command :=
  match Text.trim (Text.erase line) with
  | "" => nothing
  | ".quit" => quit
  | ".help" => help
  | ".tables" => tables
  | ".tree" => togglePlan
  | text => expression text

def helpText : String := "\n".intercalate [
  "Relational operators (glyphs only):",
  "  π a, b (r)            projection",
  "  σ predicate (r)       selection",
  "  ρ s (r)               rename relation",
  "  ρ s [a, b] (r)        rename relation and attributes",
  "  r ∪ s   r ∩ s   r − s union, intersection, difference",
  "  r × s                 cartesian product",
  "  r ⨝ s                 natural join",
  "Predicates (glyph or ASCII):",
  "  =   ≠ !=   <   ≤ <=   >   ≥ >=   ∧   ∨   ¬ !",
  "Commands:",
  "  .tables  .tree  .help  .quit"]

/-- The schemas of the relations of a data set, one line each. -/
def listing (d : DataSet) : String :=
  String.join (d.entries.map fun (name, r) => r.describe name ++ "\n")

def errorLine (e : Error) : String := "Error: " ++ e.message ++ "\n"

/-- What there is to know before a line is answered. -/
structure Session where
  dataSet : DataSet
  filter : LogFilter
  showPlan : Bool

namespace Session

/-- What is printed before a line is read: the log says that nobody is asked for it. -/
def announcement (s : Session) : String := s.filter.write [.noTerminal]

def output (s : Session) : Command → String
  | .nothing | .quit => ""
  | .help => helpText ++ "\n"
  | .tables => listing s.dataSet
  | .togglePlan => if s.showPlan then "tree off\n" else "tree on\n"
  | .expression text =>
    let (response, events) := respond s.dataSet s.showPlan text
    s.filter.write events ++ match response with
      | .ok table => table ++ "\n"
      | .error e => errorLine e

/-- The session after a command; there is none after quitting. -/
def next (s : Session) : Command → Option Session
  | .quit => none
  | .togglePlan => some { s with showPlan := !s.showPlan }
  | .nothing | .help | .tables | .expression _ => some s

def step (s : Session) (line : String) : String × Option Session :=
  let command := Command.ofLine line
  (s.output command, s.next command)

/-- Everything that a session prints when it reads these lines. -/
def run (s : Session) : List String → String
  | [] => s.announcement
  | line :: lines =>
    let (printed, next) := s.step line
    s.announcement ++ printed ++ match next with
      | some s => s.run lines
      | none => ""

end Session

end Shell

end RelationalAlgebra
