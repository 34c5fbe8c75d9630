import RelationalAlgebra.Value

/-!
# Attributes and the ways to name them

A schema is a list of attributes. Within a tuple an attribute goes by its qualified name,
`qualifier.name`; an expression may also name it without the qualifier.
-/
namespace RelationalAlgebra

/-- A column of a schema. -/
structure Attribute where
  qualifier : String
  name : String
  type : DataType
  deriving DecidableEq, Repr, Inhabited

/-- The name under which tuples hold the attribute's value. -/
def Attribute.qualifiedName (a : Attribute) : String := a.qualifier ++ "." ++ a.name

instance : ToString Attribute := ⟨Attribute.qualifiedName⟩

/-- The columns of a relation, in order. -/
abbrev Schema := List Attribute

/-- An attribute as an expression names it. -/
structure Reference where
  qualifier : Option String
  name : String
  deriving DecidableEq, Repr, Inhabited

namespace Reference

def bare (name : String) : Reference := ⟨none, name⟩

def qualified (qualifier name : String) : Reference := ⟨some qualifier, name⟩

def spelling (r : Reference) : String :=
  match r.qualifier with
  | none => r.name
  | some qualifier => qualifier ++ "." ++ r.name

instance : ToString Reference := ⟨spelling⟩

end Reference

/-- The new name that a renaming gives to an attribute. -/
structure QualifiedName where
  qualifier : String
  name : String
  deriving DecidableEq, Repr, Inhabited

namespace Attribute

/-- The qualifier and the name, without the type. -/
def path (a : Attribute) : QualifiedName := ⟨a.qualifier, a.name⟩

/-- The reference that names the attribute in full. -/
def reference (a : Attribute) : Reference := .qualified a.qualifier a.name

def withName (a : Attribute) (n : QualifiedName) : Attribute := ⟨n.qualifier, n.name, a.type⟩

@[simp]
theorem withName_type (a : Attribute) (n : QualifiedName) : (a.withName n).type = a.type := rfl

@[simp]
theorem withName_path (a : Attribute) : a.withName a.path = a := rfl

end Attribute

namespace Schema

/-- The keys of the tuples of a relation with this schema. -/
def qualifiedNames (s : Schema) : List String := s.map Attribute.qualifiedName

def bareNames (s : Schema) : List String := s.map Attribute.name

def types (s : Schema) : List DataType := s.map Attribute.type

end Schema

section Repetition
variable {α : Type} [DecidableEq α]

/-- The first element that has occurred before it or among `seen`. -/
def firstRepeatedAfter (seen : List α) : List α → Option α
  | [] => none
  | x :: rest => if x ∈ seen then some x else firstRepeatedAfter (x :: seen) rest

/-- The first element that has occurred before, scanning from the left. -/
def firstRepeated (xs : List α) : Option α := firstRepeatedAfter [] xs

theorem firstRepeatedAfter_eq_none_iff (seen xs : List α) :
    firstRepeatedAfter seen xs = none ↔ xs.Nodup ∧ ∀ x ∈ xs, x ∉ seen := by
  induction xs generalizing seen with
  | nil => simp [firstRepeatedAfter]
  | cons x rest ih =>
    by_cases h : x ∈ seen
    · simp [firstRepeatedAfter, h]
    · simp only [firstRepeatedAfter, h, if_false, ih, List.nodup_cons, List.mem_cons]
      constructor
      · rintro ⟨hnodup, hfresh⟩
        exact ⟨⟨fun hx => hfresh x hx (.inl rfl), hnodup⟩, fun y hy => by
          rcases hy with rfl | hy
          · exact h
          · exact fun hs => hfresh y hy (.inr hs)⟩
      · rintro ⟨⟨hx, hnodup⟩, hfresh⟩
        exact ⟨hnodup, fun y hy hs => by
          rcases hs with rfl | hs
          · exact hx hy
          · exact hfresh y (.inr hy) hs⟩

theorem firstRepeated_eq_none_iff (xs : List α) :
    firstRepeated xs = none ↔ xs.Nodup := by
  simp [firstRepeated, firstRepeatedAfter_eq_none_iff]

end Repetition

end RelationalAlgebra
