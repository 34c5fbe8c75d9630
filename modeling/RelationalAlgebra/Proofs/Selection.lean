import Mathlib.Data.String.Basic
import RelationalAlgebra.Proofs.Rowset.Simulation

/-!
# What a selection keeps

A predicate is true or false of a tuple by the order of the values that it compares and by the
connectives (`Predicate.TrueOf`); nothing is said about the order in which its parts are looked at,
nor about failures. Once a predicate is resolved against the schema of a well-formed relation,
testing a tuple of the relation finds out just this (`Predicate.WellTyped.evaluate_eq_ok`), and a
selection and the selection by the negation deal out the tuples between them
(`Relation.select_partition`).
-/
namespace RelationalAlgebra

/-! ### Truth -/

namespace Value
variable {v w : Value} {o : Ordering}

/-- Numbers stand before greater numbers, and texts before those that follow in the order of their
characters. Values of different types stand in no order. -/
def Before : Value → Value → Prop
  | number m, number n => m < n
  | text s, text t => s < t
  | _, _ => False

instance : DecidableRel Before
  | number m, number n => inferInstanceAs (Decidable (m < n))
  | text s, text t => inferInstanceAs (Decidable (s < t))
  | number _, text _ => isFalse id
  | text _, number _ => isFalse id

/-- Where two values are compared, the answer is how they stand in their order. -/
theorem compare?_spec (h : v.compare? w = some o) :
    (o = .lt ↔ v.Before w) ∧ (o = .eq ↔ v = w) ∧ (o = .gt ↔ w.Before v) := by
  cases v <;> cases w <;> cases h
  case number.number m n => simp [Before, compare_lt_iff_lt, compare_gt_iff_gt]
  case text.text s t => simp [Before, compare_lt_iff_lt, compare_gt_iff_gt]

end Value

namespace Comparison
variable {op : Comparison} {v w : Value} {o : Ordering}

/-- What a comparison says of two values. -/
def Relates : Comparison → Value → Value → Prop
  | eq, v, w => v = w
  | ne, v, w => v ≠ w
  | gt, v, w => w.Before v
  | ge, v, w => w.Before v ∨ v = w
  | lt, v, w => v.Before w
  | le, v, w => v.Before w ∨ v = w

instance decidableRelates : (op : Comparison) → (v w : Value) → Decidable (op.Relates v w)
  | eq, v, w => inferInstanceAs (Decidable (v = w))
  | ne, v, w => inferInstanceAs (Decidable (v ≠ w))
  | gt, v, w => inferInstanceAs (Decidable (w.Before v))
  | ge, v, w => inferInstanceAs (Decidable (w.Before v ∨ v = w))
  | lt, v, w => inferInstanceAs (Decidable (v.Before w))
  | le, v, w => inferInstanceAs (Decidable (v.Before w ∨ v = w))

theorem holds_iff_relates (h : v.compare? w = some o) : op.holds o ↔ op.Relates v w := by
  obtain ⟨hlt, heq, hgt⟩ := Value.compare?_spec h
  cases op <;> simp only [Relates, ne_eq, ← hlt, ← heq, ← hgt, holds] <;> cases o <;> decide

end Comparison

/-- What an operand stands for in a tuple, if the tuple has its attribute. -/
def Operand.value? (t : Tuple) : Operand Attribute → Option Value
  | named a => t.get? a.qualifiedName
  | literal v => some v

namespace Predicate

/-- Whether a predicate is true of a tuple. -/
def TrueOf (t : Tuple) : Predicate Attribute → Prop
  | compare op lhs rhs => ∃ v ∈ lhs.value? t, ∃ w ∈ rhs.value? t, op.Relates v w
  | and p q => p.TrueOf t ∧ q.TrueOf t
  | or p q => p.TrueOf t ∨ q.TrueOf t
  | not p => ¬p.TrueOf t

instance decidableTrueOf (t : Tuple) : (p : Predicate Attribute) → Decidable (p.TrueOf t)
  | compare op lhs rhs =>
    inferInstanceAs (Decidable (∃ v ∈ lhs.value? t, ∃ w ∈ rhs.value? t, op.Relates v w))
  | and p q =>
    have := decidableTrueOf t p
    have := decidableTrueOf t q
    inferInstanceAs (Decidable (p.TrueOf t ∧ q.TrueOf t))
  | or p q =>
    have := decidableTrueOf t p
    have := decidableTrueOf t q
    inferInstanceAs (Decidable (p.TrueOf t ∨ q.TrueOf t))
  | not p =>
    have := decidableTrueOf t p
    inferInstanceAs (Decidable (¬p.TrueOf t))

/-- Tests a tuple by looking at both sides of every connective. -/
def evaluateFully (t : Tuple) : Predicate Attribute → Except Error Bool
  | compare op lhs rhs => (compare op lhs rhs).evaluate t
  | and p q => do
    let left ← p.evaluateFully t
    let right ← q.evaluateFully t
    return left && right
  | or p q => do
    let left ← p.evaluateFully t
    let right ← q.evaluateFully t
    return left || right
  | not p => do
    return !(← p.evaluateFully t)

end Predicate

/-! ### Testing tuples -/

/-- An operand within a schema has a value of its type in every tuple that fits. -/
theorem Operand.Within.exists_value {s : Schema} {t : Tuple} {o : Operand Attribute}
    (ho : o.Within s) (ht : Relation.Fits s t) :
    ∃ v, o.value t = .ok v ∧ o.value? t = some v ∧ v.type = o.type := by
  cases o with
  | named a =>
    obtain ⟨v, hv, htype⟩ := ht.2 a ho
    exact ⟨v, by rw [value, hv], hv, htype⟩
  | literal v => exact ⟨v, rfl, rfl, rfl⟩

namespace Predicate
variable {s : Schema} {t : Tuple} {p : Predicate Attribute}

/-- A well-typed predicate fails on no tuple that fits, and finds out whether it is true of it. -/
theorem WellTyped.evaluate_eq_ok (hp : p.WellTyped s) (ht : Relation.Fits s t) :
    p.evaluate t = .ok (decide (p.TrueOf t)) := by
  induction p with
  | compare op lhs rhs =>
    obtain ⟨hl, hr, htypes⟩ := hp
    obtain ⟨v, hv, hv', hvtype⟩ := hl.exists_value ht
    obtain ⟨w, hw, hw', hwtype⟩ := hr.exists_value ht
    have hsome := (Value.compare?_isSome_iff v w).2 (hvtype.trans (htypes.trans hwtype.symm))
    obtain ⟨o, ho⟩ := Option.isSome_iff_exists.1 hsome
    have htrue : (compare op lhs rhs).TrueOf t ↔ op.holds o := by
      simp [TrueOf, hv', hw', Comparison.holds_iff_relates ho]
    rw [evaluate, hv, ok_bind, hw, ok_bind, ho]
    simp [htrue, pure, Except.pure]
  | and p q ihp ihq =>
    rw [evaluate, ihp hp.1, ok_bind, ihq hp.2]
    by_cases h : p.TrueOf t <;> simp [TrueOf, h, pure, Except.pure]
  | or p q ihp ihq =>
    rw [evaluate, ihp hp.1, ok_bind, ihq hp.2]
    by_cases h : p.TrueOf t <;> simp [TrueOf, h, pure, Except.pure]
  | not p ih =>
    rw [evaluate, ih hp, ok_bind]
    by_cases h : p.TrueOf t <;> simp [TrueOf, h, pure, Except.pure]

/-- Nothing changes when both sides of every connective are looked at. -/
theorem WellTyped.evaluateFully_eq (hp : p.WellTyped s) (ht : Relation.Fits s t) :
    p.evaluateFully t = p.evaluate t := by
  induction p with
  | compare op lhs rhs => rfl
  | and p q ihp ihq =>
    rw [evaluateFully, ihp hp.1, ihq hp.2, evaluate, hp.1.evaluate_eq_ok ht,
      hp.2.evaluate_eq_ok ht]
    cases decide (p.TrueOf t) <;> rfl
  | or p q ihp ihq =>
    rw [evaluateFully, ihp hp.1, ihq hp.2, evaluate, hp.1.evaluate_eq_ok ht,
      hp.2.evaluate_eq_ok ht]
    cases decide (p.TrueOf t) <;> rfl
  | not p ih => rw [evaluateFully, ih hp, evaluate]

theorem resolve_not {p : Predicate Reference} {q : Predicate Attribute}
    (h : p.resolve s = .ok q) : p.not.resolve s = .ok q.not := by
  obtain ⟨q', hq, h⟩ := exists_of_bind_eq_ok h
  obtain ⟨_, ht, h⟩ := exists_of_bind_eq_ok h
  cases h
  rw [resolve, mapOperands, hq, ok_bind]
  show (q.not.checkTypes >>= _) = _
  rw [checkTypes, ht]
  rfl

end Predicate

/-! ### Selections -/

namespace Relation
variable {r : Relation} {p : Predicate Reference} {q : Predicate Attribute}

/-- A selection by a predicate that resolves keeps the tuples of which it is true. -/
theorem WellFormed.select_eq_ok (hr : r.WellFormed) (hq : p.resolve r.schema = .ok q) :
    Checked.select r p = .ok ⟨r.schema, r.tuples.filter fun t => q.TrueOf t⟩ := by
  have hkept := tuplesWhere_eq_filter fun t ht =>
    (Predicate.wellTyped_of_resolve_eq_ok hq).evaluate_eq_ok (hr.2 t ht)
  rw [Checked.select, hq, ok_bind, selection, hkept]
  rfl

/-- A resolved predicate is true or false of every tuple of a well-formed relation, and testing
finds out which, in whatever order its parts are tested. Selecting by it and by its negation
succeeds, and deals out the tuples in their order. -/
theorem select_partition (hr : make r.schema r.tuples = .ok r) (hq : p.resolve r.schema = .ok q) :
    (∀ t ∈ r.tuples, q.evaluate t = .ok (decide (q.TrueOf t)) ∧
      q.evaluateFully t = q.evaluate t) ∧
    ∃ kept dropped, Checked.select r p = .ok ⟨r.schema, kept⟩ ∧
      Checked.select r p.not = .ok ⟨r.schema, dropped⟩ ∧
      r.tuples.partition (fun t => q.TrueOf t) = (kept, dropped) := by
  have hr := (make_eq_ok_iff.1 hr).2
  have hwell := Predicate.wellTyped_of_resolve_eq_ok hq
  constructor
  · exact fun t ht => ⟨hwell.evaluate_eq_ok (hr.2 t ht), hwell.evaluateFully_eq (hr.2 t ht)⟩
  · exact ⟨_, _, hr.select_eq_ok hq, hr.select_eq_ok (Predicate.resolve_not hq),
      partition_decide q.TrueOf r.tuples⟩

/-- A bare and a qualified name under all connectives; the second row decides the disjunction on its
left side and the last one on its right. -/
theorem select_partition_nested :
    let r := Rowset.relation ⟨[⟨"r", "a", .number⟩, ⟨"r", "b", .string⟩],
      [[.number 12, .text "u"], [.number (-3), .text "u"], [.number 12, .text "u"],
        [.number 5, .text "v"]]⟩
    let p : Predicate Reference :=
      .or (.compare .lt (.named (.bare "a")) (.literal (.number 4)))
        (.not (.and (.compare .le (.named (.qualified "r" "b")) (.literal (.text "u")))
          (.compare .ne (.literal (.number 5)) (.named (.bare "a")))))
    make r.schema r.tuples = .ok r ∧
    ∃ q kept dropped, p.resolve r.schema = .ok q ∧ Checked.select r p = .ok ⟨r.schema, kept⟩ ∧
      Checked.select r p.not = .ok ⟨r.schema, dropped⟩ ∧
      r.tuples.partition (fun t => q.TrueOf t) = (kept, dropped) ∧
      rows ⟨r.schema, kept⟩ = [[.number (-3), .text "u"], [.number 5, .text "v"]] ∧
      rows ⟨r.schema, dropped⟩ = [[.number 12, .text "u"], [.number 12, .text "u"]] := by
  intro r p
  have hr : make r.schema r.tuples = .ok r := by decide
  have hq : p.resolve r.schema = .ok
      (.or (.compare .lt (.named ⟨"r", "a", .number⟩) (.literal (.number 4)))
        (.not (.and (.compare .le (.named ⟨"r", "b", .string⟩) (.literal (.text "u")))
          (.compare .ne (.literal (.number 5)) (.named ⟨"r", "a", .number⟩))))) := by decide
  obtain ⟨_, kept, dropped, select, reject, split⟩ := select_partition hr hq
  have parts := Prod.mk.inj split.symm
  refine ⟨hr, _, kept, dropped, hq, select, reject, split, ?_, ?_⟩
  · rw [parts.1]
    decide
  · rw [parts.2]
    decide

end Relation

end RelationalAlgebra
