/-!
# Tokens

A token has a kind and, for words, numbers and strings, the text it was read from. The kinds
`relation`, `reference` and `list` are never read from text: they label nodes of expressions.
-/
namespace RelationalAlgebra

inductive Kind where
  | eof
  | word
  | relation
  | number
  | string
  | reference
  | list
  | openParen
  | closeParen
  | openBracket
  | closeBracket
  | dot
  | comma
  | join
  | select
  | project
  | rename
  | union
  | intersection
  | difference
  | product
  | and
  | or
  | not
  | minus
  | greater
  | greaterEqual
  | equal
  | notEqual
  | less
  | lessEqual
  deriving DecidableEq, Repr, Inhabited

namespace Kind

def name : Kind → String
  | eof => "EOF"
  | word => "ID"
  | relation => "RELATION"
  | number => "NUMBER"
  | string => "STRING"
  | reference => "ATTR"
  | list => "LIST"
  | openParen => "("
  | closeParen => ")"
  | openBracket => "["
  | closeBracket => "]"
  | dot => "DOT"
  | comma => "COMMA"
  | join => "NJOIN"
  | select => "SELECT"
  | project => "PROJECT"
  | rename => "RENAME"
  | union => "UNION"
  | intersection => "ISECT"
  | difference => "DIFF"
  | product => "CPROD"
  | and => "AND"
  | or => "OR"
  | not => "NOT"
  | minus => "MINUS"
  | greater => "GRTR"
  | greaterEqual => "GEQ"
  | equal => "EQL"
  | notEqual => "NEQ"
  | less => "LESS"
  | lessEqual => "LEQ"

instance : ToString Kind := ⟨name⟩

def all : List Kind :=
  [eof, word, relation, number, string, reference, list, openParen, closeParen, openBracket,
    closeBracket, dot, comma, join, select, project, rename, union, intersection, difference,
    product, and, or, not, minus, greater, greaterEqual, equal, notEqual, less, lessEqual]

theorem mem_all (k : Kind) : k ∈ all := by
  cases k <;> decide

def ofName? (s : String) : Option Kind := all.find? (·.name = s)

/-- The operators that compare two values. -/
def isComparison : Kind → Bool
  | greater | greaterEqual | equal | notEqual | less | lessEqual => true
  | _ => false

end Kind

/-- A kind with the text it was read from, if that matters. -/
structure Token where
  kind : Kind
  literal : Option String
  deriving DecidableEq, Repr, Inhabited

namespace Token

/-- A token that is known by its kind alone. -/
def bare (kind : Kind) : Token := ⟨kind, none⟩

def lit (kind : Kind) (literal : String) : Token := ⟨kind, some literal⟩

/-- The token that stands for the end of the text. -/
def eof : Token := bare .eof

/-- The kind and the text between angle brackets. -/
def display (t : Token) : String := "<" ++ t.kind.name ++ ", " ++ t.literal.getD "null" ++ ">"

instance : ToString Token := ⟨display⟩

end Token

end RelationalAlgebra
