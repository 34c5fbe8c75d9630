import RelationalAlgebra.Predicate

/-!
# Relations

A relation is a schema and a list of tuples. The order of the tuples and their repetitions are part
of it. `Relation.make` accepts exactly the well-formed relations: distinct qualified names, and
tuples that give every attribute a value of its type and hold nothing else (`make_eq_ok_iff`).
-/
namespace RelationalAlgebra

/-- A schema with tuples. -/
structure Relation where
  schema : Schema
  tuples : List Tuple
  deriving DecidableEq, Repr

namespace Relation

instance : Inhabited Relation := ⟨⟨[], []⟩⟩

def size (r : Relation) : Nat := r.tuples.length

def isEmpty (r : Relation) : Bool := r.tuples.isEmpty

/-- The values that a tuple has under some keys, in the order of the keys. -/
def valuesAt (keys : List String) (t : Tuple) : List Value := keys.filterMap t.get?

/-- The tuples as rows of values in schema order. -/
def rows (r : Relation) : List (List Value) := r.tuples.map (valuesAt r.schema.qualifiedNames)

/-- A tuple holds a value of an attribute's type. -/
def Holds (t : Tuple) (a : Attribute) : Prop :=
  ∃ v, t.get? a.qualifiedName = some v ∧ v.type = a.type

/-- A tuple holds exactly the attributes of a schema. -/
def Fits (s : Schema) (t : Tuple) : Prop := t.size = s.length ∧ ∀ a ∈ s, Holds t a

/-- Distinct qualified names, and tuples that hold exactly the schema's attributes. -/
def WellFormed (r : Relation) : Prop :=
  r.schema.qualifiedNames.Nodup ∧ ∀ t ∈ r.tuples, Fits r.schema t

def checkValue (row : Nat) (t : Tuple) (a : Attribute) : Except Error Unit :=
  match t.get? a.qualifiedName with
  | none => .error (.dataSet (.missingValue row a.qualifiedName))
  | some v =>
    if v.type = a.type then .ok ()
    else .error (.dataSet (.wrongType row v.type a.qualifiedName a.type))

def checkValues (row : Nat) (t : Tuple) : Schema → Except Error Unit
  | [] => .ok ()
  | a :: s => do
    checkValue row t a
    checkValues row t s

def checkTuple (s : Schema) (row : Nat) (t : Tuple) : Except Error Unit :=
  if t.size = s.length then checkValues row t s
  else .error (.dataSet (.tupleSize row t.size s.length))

/-- Checks that tuples, counted from `row`, fit a schema. -/
def checkTuples (s : Schema) (row : Nat) : List Tuple → Except Error Unit
  | [] => .ok ()
  | t :: ts => do
    checkTuple s row t
    checkTuples s (row + 1) ts

/-- The relation of a schema and tuples, if it is well-formed. -/
def make (s : Schema) (ts : List Tuple) : Except Error Relation :=
  match firstRepeated s.qualifiedNames with
  | some key => .error (.dataSet (.repeatedAttribute key))
  | none => do
    checkTuples s 0 ts
    return ⟨s, ts⟩

/-- The tuple that holds a row of values under the names of a schema. -/
def tupleOfRow (s : Schema) (row : List Value) : Tuple := .ofList (s.qualifiedNames.zip row)

/-- Checks that rows, counted from `row`, have one value for each column. -/
def checkRows (qualifier : String) (columns row : Nat) : List (List Value) → Except Error Unit
  | [] => .ok ()
  | values :: rest =>
    if values.length = columns then checkRows qualifier columns (row + 1) rest
    else .error (.dataSet (.rowSize row values.length qualifier columns))

/-- The relation of rows of values under columns that share a qualifier. -/
def ofRows (qualifier : String) (columns : List (String × DataType)) (rows : List (List Value)) :
    Except Error Relation := do
  let schema := columns.map fun c => Attribute.mk qualifier c.1 c.2
  checkRows qualifier schema.length 0 rows
  make schema (rows.map (tupleOfRow schema))

/-! ### What is accepted -/

theorem checkValue_eq_ok_iff (row : Nat) (t : Tuple) (a : Attribute) :
    checkValue row t a = .ok () ↔ Holds t a := by
  unfold checkValue Holds
  cases t.get? a.qualifiedName with
  | none => simp
  | some v => by_cases h : v.type = a.type <;> simp [h]

theorem checkValues_eq_ok_iff (row : Nat) (t : Tuple) (s : Schema) :
    checkValues row t s = .ok () ↔ ∀ a ∈ s, Holds t a := by
  induction s with
  | nil => simp [checkValues]
  | cons a s ih =>
    rw [List.forall_mem_cons, ← ih, ← checkValue_eq_ok_iff row, checkValues]
    cases checkValue row t a <;> simp [bind, Except.bind]

theorem checkTuple_eq_ok_iff (s : Schema) (row : Nat) (t : Tuple) :
    checkTuple s row t = .ok () ↔ Fits s t := by
  unfold checkTuple Fits
  split <;> simp_all [checkValues_eq_ok_iff]

theorem checkTuples_eq_ok_iff (s : Schema) (row : Nat) (ts : List Tuple) :
    checkTuples s row ts = .ok () ↔ ∀ t ∈ ts, Fits s t := by
  induction ts generalizing row with
  | nil => simp [checkTuples]
  | cons t ts ih =>
    rw [List.forall_mem_cons, ← ih (row + 1), ← checkTuple_eq_ok_iff s row, checkTuples]
    cases checkTuple s row t <;> simp [bind, Except.bind]

/-- A relation is made exactly of what is well-formed, and left as it is. -/
theorem make_eq_ok_iff {s : Schema} {ts : List Tuple} {r : Relation} :
    make s ts = .ok r ↔ r = ⟨s, ts⟩ ∧ WellFormed ⟨s, ts⟩ := by
  unfold make WellFormed
  cases h : firstRepeated s.qualifiedNames with
  | some key =>
    have : ¬s.qualifiedNames.Nodup := fun hn => by
      simp [(firstRepeated_eq_none_iff _).2 hn] at h
    simp [this]
  | none =>
    have hn := (firstRepeated_eq_none_iff _).1 h
    rw [← checkTuples_eq_ok_iff s 0 ts]
    cases checkTuples s 0 ts <;>
      simp [hn, bind, Except.bind, pure, Except.pure, eq_comm]

end Relation

end RelationalAlgebra
