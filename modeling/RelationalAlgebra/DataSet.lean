import RelationalAlgebra.Relation

/-!
# Data sets

A data set holds the relations that an expression may name.
-/
namespace RelationalAlgebra

/-- Relations under their names, in name order. -/
abbrev DataSet := NameMap Relation

def DataSet.lookup (d : DataSet) (name : String) : Except Error Relation :=
  match d.get? name with
  | some r => .ok r
  | none => .error (.relationNotFound name)

end RelationalAlgebra
