import RelationalAlgebra.Relation.Checked

/-!
# The log

Reading and evaluating expressions leave a log of events. An event knows which part of the program
it comes from and how important it is; `Event.line` is how it is written.
-/
namespace RelationalAlgebra

/-- How important an event is, the most important first. -/
inductive Severity where
  | error
  | warn
  | info
  | debug
  | trace
  deriving DecidableEq, Repr

namespace Severity

def name : Severity → String
  | error => "ERROR"
  | warn => "WARN"
  | info => "INFO"
  | debug => "DEBUG"
  | trace => "TRACE"

/-- The higher the rank, the less important. -/
def rank : Severity → Nat
  | error => 1
  | warn => 2
  | info => 3
  | debug => 4
  | trace => 5

def column (s : Severity) : String := "".pushn ' ' (5 - s.name.length) ++ s.name

end Severity

inductive Event where
  | lexed (token : Token)
  | lookedUp (relation : String) (tuples : Nat)
  | projected (attributes tuples : Nat)
  | selected (predicate : Predicate Attribute) (before after : Nat)
  | renamed (relation : String) (attributes : Nat)
  | combined (op : BinaryOperator) (lhs rhs tuples : Nat)
  | loaded (table : String) (tuples : Nat)
  | ready (relations : Nat)
  | noTerminal
  deriving DecidableEq, Repr

def BinaryOperator.logName : BinaryOperator → String
  | set .union => "union"
  | set .intersection => "intersection"
  | set .difference => "difference"
  | product => "cartesian product"
  | join => "natural join"

namespace Event

def severity : Event → Severity
  | lexed _ => .trace
  | _ => .debug

/-- The part of the program that an event comes from, as log filters name it. -/
def source : Event → String
  | lexed _ => "relalg::lexer"
  | lookedUp _ _ | projected _ _ | selected _ _ _ | renamed _ _ | combined _ _ _ _ =>
    "relalg::engine"
  | loaded _ _ => "relalg::data_set"
  | ready _ => "relalg"
  | noTerminal => "rustyline"

def subject : Event → String
  | lexed _ => "lexed"
  | lookedUp _ _ => "lookup"
  | projected _ _ => "projection"
  | selected _ _ _ => "selection"
  | renamed _ _ => "rename"
  | combined op _ _ _ => op.logName
  | loaded _ _ => "loaded relation"
  | ready _ => "data set ready"
  | noTerminal => "stdin is not a tty"

def quoted (name : String) : String := "\"" ++ name ++ "\""

/-- The circumstances, each with its name. -/
def fields : Event → List (String × String)
  | lexed token => [("token", token.display)]
  | lookedUp relation tuples => [("relation", quoted relation), ("tuples", toString tuples)]
  | projected attributes tuples =>
    [("attributes", toString attributes), ("tuples", toString tuples)]
  | selected predicate before after =>
    [("predicate", predicate.display), ("before", toString before), ("after", toString after)]
  | renamed relation attributes =>
    [("relation", quoted relation), ("attributes", toString attributes)]
  | combined _ lhs rhs tuples =>
    [("lhs", toString lhs), ("rhs", toString rhs), ("tuples", toString tuples)]
  | loaded table tuples => [("table", table), ("tuples", toString tuples)]
  | ready relations => [("relations", toString relations)]
  | noTerminal => []

/-- The names of the fields that a filter can ask for. What happened is itself a field, and the
event of the terminal has further ones that are not written. -/
def fieldNames : Event → List String
  | noTerminal => ["message", "log.target", "log.module_path", "log.file", "log.line"]
  | e => "message" :: e.fields.map Prod.fst

/-- An event as one line without its end. -/
def line (e : Event) : String :=
  e.severity.column ++ " " ++ e.subject ++
    String.join (e.fields.map fun f => " " ++ f.1 ++ "=" ++ f.2)

end Event

end RelationalAlgebra
