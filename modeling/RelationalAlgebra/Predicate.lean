import RelationalAlgebra.Error
import RelationalAlgebra.NameMap

/-!
# Predicates

A predicate compares attributes and literals and joins comparisons by connectives. As written it
names attributes by references (`Predicate Reference`); resolved against a schema it names them by
attributes (`Predicate Attribute`), and only then it can be evaluated on a tuple.
-/
namespace RelationalAlgebra

/-- One row of a relation: the value of each attribute under its qualified name. -/
abbrev Tuple := NameMap Value

inductive Comparison where
  | eq
  | ne
  | gt
  | ge
  | lt
  | le
  deriving DecidableEq, Repr

namespace Comparison

def code : Comparison → String
  | eq => "=="
  | ne => "!="
  | gt => ">"
  | ge => ">="
  | lt => "<"
  | le => "<="

def ofKind : Kind → Except Error Comparison
  | .equal => .ok eq
  | .notEqual => .ok ne
  | .greater => .ok gt
  | .greaterEqual => .ok ge
  | .less => .ok lt
  | .lessEqual => .ok le
  | _ => .error .illFormedPredicate

/-- Whether a comparison holds between values in this order. -/
def holds : Comparison → Ordering → Bool
  | eq, o => o == .eq
  | ne, o => o != .eq
  | gt, o => o == .gt
  | ge, o => o != .lt
  | lt, o => o == .lt
  | le, o => o != .gt

theorem ofKind_isOk_iff (k : Kind) : (ofKind k).isOk ↔ k.isComparison := by
  cases k <;> decide

end Comparison

inductive Operand (α : Type) where
  | named (a : α)
  | literal (v : Value)
  deriving DecidableEq, Repr

namespace Operand
variable {α : Type}

/-- Attributes by their names, literals by their bare values. -/
def display [ToString α] : Operand α → String
  | named a => toString a
  | literal v => v.spelling

def type : Operand Attribute → DataType
  | named a => a.type
  | literal v => v.type

/-- What an operand stands for in a tuple. -/
def value (t : Tuple) : Operand Attribute → Except Error Value
  | named a => match t.get? a.qualifiedName with
    | some v => .ok v
    | none => .error .illFormedPredicate
  | literal v => .ok v

end Operand

/-- Comparisons and their combinations. -/
inductive Predicate (α : Type) where
  | compare (op : Comparison) (lhs rhs : Operand α)
  | and (p q : Predicate α)
  | or (p q : Predicate α)
  | not (p : Predicate α)
  deriving DecidableEq, Repr

namespace Predicate
variable {α β : Type}

def display [ToString α] : Predicate α → String
  | compare op lhs rhs => lhs.display ++ " " ++ op.code ++ " " ++ rhs.display
  | and p q => "(" ++ p.display ++ " ∧ " ++ q.display ++ ")"
  | or p q => "(" ++ p.display ++ " ∨ " ++ q.display ++ ")"
  | not p => "¬(" ++ p.display ++ ")"

/-- Replaces the operands from left to right, stopping at the first failure. -/
def mapOperands (f : Operand α → Except Error (Operand β)) :
    Predicate α → Except Error (Predicate β)
  | compare op lhs rhs => do
    let lhs ← f lhs
    let rhs ← f rhs
    return compare op lhs rhs
  | and p q => do
    let p ← p.mapOperands f
    let q ← q.mapOperands f
    return and p q
  | or p q => do
    let p ← p.mapOperands f
    let q ← q.mapOperands f
    return or p q
  | not p => do
    let p ← p.mapOperands f
    return not p

/-- Tests a tuple. The right side of a connective is not looked at when the left side decides. -/
def evaluate (t : Tuple) : Predicate Attribute → Except Error Bool
  | compare op lhs rhs => do
    let a ← lhs.value t
    let b ← rhs.value t
    match a.compare? b with
    | some o => return op.holds o
    | none => throw .illFormedPredicate
  | and p q => do
    if ← p.evaluate t then q.evaluate t else return false
  | or p q => do
    if ← p.evaluate t then return true else q.evaluate t
  | not p => do
    return !(← p.evaluate t)

end Predicate

end RelationalAlgebra
