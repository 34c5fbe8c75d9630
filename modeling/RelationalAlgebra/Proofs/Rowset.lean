import RelationalAlgebra.Proofs.Rows
import RelationalAlgebra.Relation.Checked

/-!
# Relations by position

A rowset is a schema with rows of values. Its operators look at the schemas first, which decides
whether they fail and what the schema of the result is, and then move values by the place of their
column. No value is ever looked up under a name, so none can be lost under one.
-/
namespace RelationalAlgebra

/-! ### Schemas -/

namespace Schema

def project (s : Schema) (references : List Reference) : Except Error Schema := do
  return (← Reference.resolveAll s references).eraseDups

def withNames (s : Schema) (names : List QualifiedName) : Schema :=
  s.zipWith Attribute.withName names

/-- The attributes under their own names and a new qualifier, or under the names that the references
give them. -/
def rename (s : Schema) (name : String) (references : List Reference) : Except Error Schema :=
  let targets := references.map (Relation.Checked.target name)
  if references = [] then
    if s.bareNames.Nodup then .ok (s.withNames (s.bareNames.map (QualifiedName.mk name)))
    else .error (.renameAmbiguous name)
  else if references.length ≠ s.length then .error (.renameArity name s.length)
  else if targets.Nodup then .ok (s.withNames targets)
  else .error (.renameDuplicates name)

/-- The attributes of `t` whose bare names `s` lacks. -/
def added (s t : Schema) : Schema := t.filter (·.name ∉ s.bareNames)

def combine : BinaryOperator → Schema → Schema → Except Error Schema
  | .set op, s, t => if s.types = t.types then .ok s else .error (.arityMismatch op)
  | .product, s, t =>
    if ((s ++ t).map Attribute.path).Nodup then .ok (s ++ t) else .error .ambiguousProduct
  | .join, s, t => .ok (s ++ s.added t)

end Schema

/-! ### Predicates -/

/-- What an operand stands for in a row. -/
def Operand.valueAt (s : Schema) (row : List Value) : Operand Attribute → Value
  | named a => s.value row a
  | literal v => v

/-- Whether a predicate holds of a row. Values of different types compare in no way. -/
def Predicate.holds (s : Schema) (row : List Value) : Predicate Attribute → Bool
  | compare op lhs rhs => ((lhs.valueAt s row).compare? (rhs.valueAt s row)).any op.holds
  | and p q => p.holds s row && q.holds s row
  | or p q => p.holds s row || q.holds s row
  | not p => !p.holds s row

/-! ### Rows -/

/-- A schema with rows of values. -/
structure Rowset where
  schema : Schema
  rows : List (List Value)
  deriving DecidableEq, Repr

namespace Rowset

/-- The texts of the values of a row, one behind the other. -/
def text (row : List Value) : String := String.join (row.map Value.spelling)

/-- Two rows hold equal values in every pair of columns of one bare name. -/
def agree (s t : Schema) (row more : List Value) : Bool :=
  s.all fun a => t.all fun b => a.name = b.name → s.value row a = t.value more b

def combineRows : BinaryOperator → Rowset → Rowset → List (List Value)
  | .set .union, x, y => x.rows ++ y.rows.filter fun row => text row ∉ x.rows.map text
  | .set .intersection, x, y => x.rows.filter fun row => text row ∈ y.rows.map text
  | .set .difference, x, y => x.rows.filter fun row => text row ∉ y.rows.map text
  | .product, x, y => x.rows.flatMap fun row => y.rows.map (row ++ ·)
  | .join, x, y => x.rows.flatMap fun row =>
    (y.rows.filter (agree x.schema y.schema row)).map fun more =>
      row ++ y.schema.pick (x.schema.added y.schema) more

def project (x : Rowset) (references : List Reference) : Except Error Rowset := do
  let s ← x.schema.project references
  return ⟨s, x.rows.map (x.schema.pick s)⟩

def select (x : Rowset) (p : Predicate Reference) : Except Error Rowset := do
  let p ← p.resolve x.schema
  return ⟨x.schema, x.rows.filter fun row => p.holds x.schema row⟩

def rename (x : Rowset) (name : String) (references : List Reference) : Except Error Rowset := do
  return ⟨← x.schema.rename name references, x.rows⟩

def combine (op : BinaryOperator) (x y : Rowset) : Except Error Rowset := do
  return ⟨← x.schema.combine op y.schema, combineRows op x y⟩

end Rowset

end RelationalAlgebra
