import RelationalAlgebra.Relation

/-!
# Resolving names against a schema

A qualified reference names the attribute with that qualifier and that name. A bare reference names
the only attribute with that name. A predicate is resolved operand by operand from left to right,
and then both sides of every comparison must have one type.
-/
namespace RelationalAlgebra

/-- The attribute of a schema that a reference names. -/
def Reference.resolve (r : Reference) (s : Schema) : Except Error Attribute :=
  match r.qualifier with
  | some qualifier =>
    match s.find? fun a => a.qualifier = qualifier && a.name = r.name with
    | some a => .ok a
    | none => .error (.attributeNotFound r)
  | none =>
    match s.filter fun a => a.name = r.name with
    | [] => .error (.attributeNotFound r)
    | [a] => .ok a
    | _ :: _ :: _ => .error (.ambiguousAttribute r.name)

def Reference.resolveAll (s : Schema) : List Reference → Except Error Schema
  | [] => .ok []
  | r :: rs => do
    let a ← r.resolve s
    let rest ← resolveAll s rs
    return a :: rest

def Operand.resolve (s : Schema) : Operand Reference → Except Error (Operand Attribute)
  | named r => do
    let a ← r.resolve s
    return named a
  | literal v => .ok (literal v)

namespace Predicate

/-- Checks that both sides of every comparison have one type. -/
def checkTypes : Predicate Attribute → Except Error Unit
  | compare _ lhs rhs =>
    if lhs.type = rhs.type then .ok ()
    else .error (.typeMismatch lhs.display lhs.type rhs.display rhs.type)
  | and p q => do
    p.checkTypes
    q.checkTypes
  | or p q => do
    p.checkTypes
    q.checkTypes
  | not p => p.checkTypes

/-- The predicate with its references replaced by the attributes they name, if they all name one and
the types agree. -/
def resolve (p : Predicate Reference) (s : Schema) : Except Error (Predicate Attribute) := do
  let q ← p.mapOperands (Operand.resolve s)
  q.checkTypes
  return q

end Predicate

end RelationalAlgebra
