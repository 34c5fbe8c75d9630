/-!
# Scalar values

A value is an integer of any size or a text. Values of one type are ordered: numbers by size, texts
by their characters. Values of different types are never comparable.
-/
namespace RelationalAlgebra

inductive DataType where
  | number
  | string
  deriving DecidableEq, Repr, Inhabited

def DataType.name : DataType → String
  | .number => "number"
  | .string => "string"

instance : ToString DataType := ⟨DataType.name⟩

/-- A scalar held by a tuple or written in a predicate. -/
inductive Value where
  | number (n : Int)
  | text (s : String)
  deriving DecidableEq, Repr, Inhabited

namespace Value

def type : Value → DataType
  | number _ => .number
  | text _ => .string

def number? : Value → Option Int
  | number n => some n
  | text _ => none

def text? : Value → Option String
  | number _ => none
  | text s => some s

/-- Numbers are spelt in decimal, texts as they are. -/
def spelling : Value → String
  | number n => toString n
  | text s => s

instance : ToString Value := ⟨spelling⟩

/-- The order of two values of one type. -/
def compare? : Value → Value → Option Ordering
  | number m, number n => some (compare m n)
  | text s, text t => some (compare s t)
  | _, _ => none

theorem compare?_isSome_iff (a b : Value) : (a.compare? b).isSome ↔ a.type = b.type := by
  cases a <;> cases b <;> simp [compare?, type]

theorem type_eq_number_iff (v : Value) : v.type = .number ↔ ∃ n, v = number n := by
  cases v <;> simp [type]

theorem type_eq_string_iff (v : Value) : v.type = .string ↔ ∃ s, v = text s := by
  cases v <;> simp [type]

end Value

end RelationalAlgebra
