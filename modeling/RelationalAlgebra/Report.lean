import RelationalAlgebra.Relation
import RelationalAlgebra.Text.Grid

/-!
# Relations as text

What users see of a relation: a table headed by the qualified names, the number of rows, and the
schema in one line.
-/
namespace RelationalAlgebra.Relation

def table (r : Relation) : String :=
  Grid.draw r.schema.qualifiedNames (r.rows.map (·.map Value.spelling))

/-- The number of tuples in words. -/
def rowCount (r : Relation) : String :=
  if r.size = 1 then "(1 row)" else "(" ++ toString r.size ++ " rows)"

/-- The attributes with their types, behind a name for the relation. -/
def describe (r : Relation) (name : String) : String :=
  name ++ "(" ++ ", ".intercalate (r.schema.map fun a => a.name ++ ": " ++ a.type.name) ++ ")"

end RelationalAlgebra.Relation
