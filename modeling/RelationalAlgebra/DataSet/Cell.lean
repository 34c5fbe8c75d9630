/-!
# Database cells

A cell of a database table has one of five storage classes. Integers and texts have values here;
of the other classes only the name matters.
-/
namespace RelationalAlgebra

/-- The storage classes that hold no value of this algebra. -/
inductive ForeignClass where
  | null
  | real
  | blob
  deriving DecidableEq, Repr

def ForeignClass.name : ForeignClass → String
  | null => "Null"
  | real => "Real"
  | blob => "Blob"

/-- What a database stores in one cell. A text is kept as its bytes, which need not be UTF-8. -/
inductive Cell where
  | integer (n : Int)
  | text (bytes : List UInt8)
  | foreign (storage : ForeignClass)
  deriving DecidableEq, Repr

end RelationalAlgebra
