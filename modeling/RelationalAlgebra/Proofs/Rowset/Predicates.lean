import RelationalAlgebra.Proofs.Rowset.Soundness

/-!
# Predicates on rows

Resolving a predicate against a schema leaves it well typed: its operands name attributes of the
schema, and both sides of every comparison have one type. A well-typed predicate cannot fail on the
tuple of a well-typed row, and holds there exactly when it holds of the row.
-/
namespace RelationalAlgebra

/-- An operand names no attribute outside a schema. -/
def Operand.Within (s : Schema) : Operand Attribute → Prop
  | named a => a ∈ s
  | literal _ => True

/-- Operands within a schema, and one type on both sides of every comparison. -/
def Predicate.WellTyped (s : Schema) : Predicate Attribute → Prop
  | compare _ lhs rhs => lhs.Within s ∧ rhs.Within s ∧ lhs.type = rhs.type
  | and p q => p.WellTyped s ∧ q.WellTyped s
  | or p q => p.WellTyped s ∧ q.WellTyped s
  | not p => p.WellTyped s

theorem Operand.within_of_resolve_eq_ok {s : Schema} {o : Operand Reference}
    {o' : Operand Attribute} (h : o.resolve s = .ok o') : o'.Within s := by
  cases o with
  | named r =>
    obtain ⟨a, ha, h⟩ := exists_of_bind_eq_ok h
    cases h
    exact Reference.mem_of_resolve_eq_ok ha
  | literal v =>
    cases h
    trivial

/-- An operand stands for the same value in a row and in its tuple, and has its type there. -/
theorem Operand.value_tupleOfRow {s : Schema} (hs : s.qualifiedNames.Nodup) {row : List Value}
    (hrow : s.Admits row) {o : Operand Attribute} (ho : o.Within s) :
    o.value (Relation.tupleOfRow s row) = .ok (o.valueAt s row) ∧
      (o.valueAt s row).type = o.type := by
  cases o with
  | named a =>
    rw [value, Relation.get?_tupleOfRow hs hrow.length_eq ho]
    exact ⟨rfl, hrow.type_value ho⟩
  | literal v => exact ⟨rfl, rfl⟩

/-- An operand stands for the same value in rows that hold the same under its schema. -/
theorem Operand.Within.valueAt_congr {s t : Schema} {row row' : List Value} {o : Operand Attribute}
    (ho : o.Within s) (h : ∀ a ∈ s, t.value row' a = s.value row a) :
    o.valueAt t row' = o.valueAt s row := by
  cases o with
  | named a => exact h a ho
  | literal v => rfl

namespace Predicate
variable {s t : Schema} {row row' : List Value}

theorem wellTyped_of_mapOperands_eq_ok {p : Predicate Reference} {q : Predicate Attribute}
    (h : p.mapOperands (Operand.resolve s) = .ok q) (ht : q.checkTypes = .ok ()) :
    q.WellTyped s := by
  induction p generalizing q with
  | compare op lhs rhs =>
    obtain ⟨l, hl, h⟩ := exists_of_bind_eq_ok h
    obtain ⟨r, hr, h⟩ := exists_of_bind_eq_ok h
    cases h
    refine ⟨Operand.within_of_resolve_eq_ok hl, Operand.within_of_resolve_eq_ok hr, ?_⟩
    by_contra hne
    simp [checkTypes, hne] at ht
  | and p₁ p₂ ih₁ ih₂ =>
    obtain ⟨q₁, h₁, h⟩ := exists_of_bind_eq_ok h
    obtain ⟨q₂, h₂, h⟩ := exists_of_bind_eq_ok h
    cases h
    obtain ⟨_, ht₁, ht₂⟩ := exists_of_bind_eq_ok ht
    exact ⟨ih₁ h₁ ht₁, ih₂ h₂ ht₂⟩
  | or p₁ p₂ ih₁ ih₂ =>
    obtain ⟨q₁, h₁, h⟩ := exists_of_bind_eq_ok h
    obtain ⟨q₂, h₂, h⟩ := exists_of_bind_eq_ok h
    cases h
    obtain ⟨_, ht₁, ht₂⟩ := exists_of_bind_eq_ok ht
    exact ⟨ih₁ h₁ ht₁, ih₂ h₂ ht₂⟩
  | not p ih =>
    obtain ⟨q, hq, h⟩ := exists_of_bind_eq_ok h
    cases h
    show q.WellTyped s
    exact ih hq ht

theorem wellTyped_of_resolve_eq_ok {p : Predicate Reference} {q : Predicate Attribute}
    (h : p.resolve s = .ok q) : q.WellTyped s := by
  obtain ⟨q', hq, h⟩ := exists_of_bind_eq_ok h
  obtain ⟨_, ht, h⟩ := exists_of_bind_eq_ok h
  cases h
  exact wellTyped_of_mapOperands_eq_ok hq ht

/-- A well-typed predicate fails on no well-typed row. -/
theorem WellTyped.evaluate_tupleOfRow (hs : s.qualifiedNames.Nodup) (hrow : s.Admits row)
    {p : Predicate Attribute} (hp : p.WellTyped s) :
    p.evaluate (Relation.tupleOfRow s row) = .ok (p.holds s row) := by
  induction p with
  | compare op lhs rhs =>
    obtain ⟨hl, hr, htypes⟩ := hp
    obtain ⟨hlv, hlt⟩ := Operand.value_tupleOfRow hs hrow hl
    obtain ⟨hrv, hrt⟩ := Operand.value_tupleOfRow hs hrow hr
    have hsome := (Value.compare?_isSome_iff _ _).2 (hlt.trans (htypes.trans hrt.symm))
    obtain ⟨o, ho⟩ := Option.isSome_iff_exists.1 hsome
    simp [evaluate, holds, hlv, hrv, ho, bind, Except.bind, pure, Except.pure]
  | and p q ihp ihq =>
    rw [evaluate, ihp hp.1, ihq hp.2]
    cases h : p.holds s row <;> simp [holds, h, bind, Except.bind, pure, Except.pure]
  | or p q ihp ihq =>
    rw [evaluate, ihp hp.1, ihq hp.2]
    cases h : p.holds s row <;> simp [holds, h, bind, Except.bind, pure, Except.pure]
  | not p ih =>
    rw [evaluate, ih hp]
    rfl

theorem WellTyped.holds_congr {p : Predicate Attribute} (hp : p.WellTyped s)
    (h : ∀ a ∈ s, t.value row' a = s.value row a) : p.holds t row' = p.holds s row := by
  induction p with
  | compare op lhs rhs => rw [holds, holds, hp.1.valueAt_congr h, hp.2.1.valueAt_congr h]
  | and p q ihp ihq => rw [holds, holds, ihp hp.1, ihq hp.2]
  | or p q ihp ihq => rw [holds, holds, ihp hp.1, ihq hp.2]
  | not p ih => rw [holds, holds, ih hp]

end Predicate

end RelationalAlgebra
