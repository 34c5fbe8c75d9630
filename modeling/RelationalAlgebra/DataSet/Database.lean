import RelationalAlgebra.DataSet
import RelationalAlgebra.Log

/-!
# Loading a database

Every table of a database becomes a relation of the same name, qualified by that name; views and the
tables that the database keeps for itself are left out. Tables are loaded in the order of their
names, and the first one that cannot be loaded fails the whole.

A column has the type of its first cell, so a column with cells of two types is refused. A column
without cells is a column of numbers if its declared type starts with `INT`.
-/
namespace RelationalAlgebra

/-- What is read of a stored table: the columns that the database lists, with their declared types,
and the rows that it gives when everything is selected. A column that is computed from others is
not listed, but its cells stand in the rows; so rows are never shorter than the list, and may be
longer. -/
structure Table where
  name : String
  columns : List (String × String)
  rows : List (List Cell)
  deriving DecidableEq, Repr

/-- What a database lists by name. -/
inductive DatabaseEntry where
  | table (t : Table)
  | view (name : String)
  deriving DecidableEq, Repr

abbrev Database := List DatabaseEntry

namespace Database

/-- Matching by pattern: `%` stands for any run of characters and `_` for any one; ASCII letters
match in either case. -/
def like : List Char → List Char → Bool
  | [], text => text.isEmpty
  | '%' :: pattern, [] => like pattern []
  | '%' :: pattern, c :: text => like pattern (c :: text) || like ('%' :: pattern) text
  | _ :: _, [] => false
  | p :: pattern, c :: text => (p = '_' || p.toLower = c.toLower) && like pattern text
termination_by pattern text => pattern.length + text.length

/-- The tables that a database keeps for itself. -/
def isInternal (name : String) : Bool := like "sqlite_%".toList name.toList

/-- The tables to load, in the order of their names. Characters compare by their code points, as do
the bytes of names that are stored in UTF-8. -/
def tables (d : Database) : List Table :=
  let all := d.filterMap fun
    | .table t => some t
    | .view _ => none
  (all.filter (!isInternal ·.name)).mergeSort fun t u => t.name ≤ u.name

end Database

namespace Table

def value (table column : String) : Cell → Except Error Value
  | .integer n => .ok (.number n)
  | .text bytes =>
    match Utf8.decode bytes with
    | .ok s => .ok (.text s)
    | .error fault => .error (.dataSet (.notText table column fault))
  | .foreign storage => .error (.dataSet (.foreignCell table column storage))

/-- The values of the leading cells of a row, one for each listed column. No row is too short for
that, and the cells behind them are not read. -/
def rowValues (table : String) : List String → List Cell → Except Error (List Value)
  | column :: columns, cell :: cells => do
    let v ← value table column cell
    return v :: (← rowValues table columns cells)
  | _, _ => .ok []

def values (table : String) (columns : List String) :
    List (List Cell) → Except Error (List (List Value))
  | [] => .ok []
  | row :: rows => do
    let vs ← rowValues table columns row
    return vs :: (← values table columns rows)

/-- The type of a column without cells. -/
def declaredType (declared : String) : DataType :=
  if (declared.toList.map Char.toUpper).take 3 = ['I', 'N', 'T'] then .number else .string

def types (t : Table) (rows : List (List Value)) : List DataType :=
  match rows with
  | [] => t.columns.map (declaredType ·.2)
  | first :: _ => first.map Value.type

def schema (t : Table) (rows : List (List Value)) : Schema :=
  List.zipWith (fun column type => Attribute.mk t.name column.1 type) t.columns (t.types rows)

/-- The relation of a table. -/
def load (t : Table) : Except Error Relation := do
  let rows ← values t.name (t.columns.map (·.1)) t.rows
  let schema := t.schema rows
  Relation.make schema (rows.map (Relation.tupleOfRow schema))

end Table

/-- Loads tables one after the other into a data set, up to the first failure, and gives the log. -/
def DataSet.loadAll (d : DataSet) : List Table → Except Error DataSet × List Event
  | [] => (.ok d, [])
  | t :: ts =>
    match t.load with
    | .error e => (.error e, [])
    | .ok r =>
      let (result, events) := loadAll (d.insert t.name r) ts
      (result, .loaded t.name r.size :: events)

def Database.load (d : Database) : Except Error DataSet × List Event :=
  DataSet.loadAll .empty d.tables

end RelationalAlgebra
