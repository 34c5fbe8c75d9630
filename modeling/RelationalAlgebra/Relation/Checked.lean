import RelationalAlgebra.Relation.Operators
import RelationalAlgebra.Relation.Resolution

/-!
# The operators behind their checks

Each operator resolves the names it is given and checks that its operands fit together before it
touches a tuple.
-/
namespace RelationalAlgebra

/-- The operators that take two relations. -/
inductive BinaryOperator where
  | set (op : SetOperation)
  | product
  | join
  deriving DecidableEq, Repr

namespace Relation.Checked

/-- Keeps the attributes that the references name, each once, where it is named first. -/
def project (r : Relation) (references : List Reference) : Except Error Relation := do
  let attributes ← Reference.resolveAll r.schema references
  return r.projection attributes.eraseDups

def select (r : Relation) (p : Predicate Reference) : Except Error Relation := do
  let p ← p.resolve r.schema
  r.selection p

/-- The full name that an attribute gets when a relation is renamed to `name`. -/
def target (name : String) (r : Reference) : QualifiedName := ⟨r.qualifier.getD name, r.name⟩

/-- Renames a relation. Without references every attribute keeps its name and takes `name` as its
qualifier; with references the attributes take the new names in order. -/
def rename (r : Relation) (name : String) (references : List Reference) : Except Error Relation :=
  let targets := references.map (target name)
  if references ≠ [] ∧ references.length ≠ r.schema.length then
    .error (.renameArity name r.schema.length)
  else if ¬targets.Nodup then .error (.renameDuplicates name)
  else if references = [] ∧ ¬r.schema.bareNames.Nodup then .error (.renameAmbiguous name)
  else
    let names := if references = [] then r.schema.bareNames.map (QualifiedName.mk name) else targets
    .ok (r.rename (.ofList (r.schema.qualifiedNames.zip names)))

/-- The set operators need as many attributes on both sides, with equal types in order. -/
def Compatible (x y : Relation) : Prop := x.schema.types = y.schema.types

instance (x y : Relation) : Decidable (Compatible x y) := inferInstanceAs (Decidable (_ = _))

def applySet : SetOperation → Relation → Relation → Relation
  | .union => Relation.union
  | .intersection => Relation.intersection
  | .difference => Relation.difference

/-- A set operation on compatible relations. -/
def set (op : SetOperation) (x y : Relation) : Except Error Relation :=
  if Compatible x y then .ok (applySet op x y) else .error (.arityMismatch op)

def union : Relation → Relation → Except Error Relation := set .union

def intersection : Relation → Relation → Except Error Relation := set .intersection

def difference : Relation → Relation → Except Error Relation := set .difference

/-- The product of relations that share no qualifier and name. -/
def product (x y : Relation) : Except Error Relation :=
  if ((x.schema ++ y.schema).map Attribute.path).Nodup then .ok (x.product y)
  else .error .ambiguousProduct

/-- The natural join, which has nothing to check. -/
def join (x y : Relation) : Except Error Relation := .ok (x.join y)

def apply : BinaryOperator → Relation → Relation → Except Error Relation
  | .set op => set op
  | .product => product
  | .join => join

end Relation.Checked

end RelationalAlgebra
