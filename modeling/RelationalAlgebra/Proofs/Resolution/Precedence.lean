import RelationalAlgebra.Proofs.Failures
import RelationalAlgebra.Proofs.Resolution

/-!
# Which fault of a predicate is reported

Resolving a predicate goes through it twice. The first pass replaces its names and stops at the
first that names nothing, or too much; only then the second compares the types on both sides of the
comparisons and stops at the first that differ. So a name that does not resolve is reported before
any comparison of two types, wherever the two stand, and of two faults of one kind the left one is
reported (`Predicate.resolve_precedence`).
-/
namespace RelationalAlgebra

theorem findSome?_eq_bind {α β : Type} {f : α → Option β} {p : α → Bool}
    (h : ∀ a, (f a).isSome = p a) (l : List α) : l.findSome? f = (l.find? p).bind f := by
  induction l with
  | nil => rfl
  | cons a l ih =>
    have ha := h a
    cases hf : f a <;> simp_all

/-! ### What a predicate is made of -/

/-- An operand with another name in place of its own. -/
def Operand.map {α β : Type} (f : α → β) : Operand α → Operand β
  | named a => named (f a)
  | literal v => literal v

def Operand.name? {α : Type} : Operand α → Option α
  | named a => some a
  | literal _ => none

namespace Predicate
variable {α β γ : Type}

/-- The predicate of the same shape, with the same comparisons and literals, and with other names in
place of its own. -/
def map (f : α → β) : Predicate α → Predicate β
  | compare op lhs rhs => compare op (lhs.map f) (rhs.map f)
  | and p q => and (p.map f) (q.map f)
  | or p q => or (p.map f) (q.map f)
  | not p => not (p.map f)

/-- The two sides of each comparison, from left to right. -/
def comparisons : Predicate α → List (Operand α × Operand α)
  | compare _ lhs rhs => [(lhs, rhs)]
  | and p q | or p q => p.comparisons ++ q.comparisons
  | not p => p.comparisons

def operands (p : Predicate α) : List (Operand α) := p.comparisons.flatMap fun c => [c.1, c.2]

def names (p : Predicate α) : List α := p.operands.filterMap Operand.name?

theorem comparisons_map (f : α → β) (p : Predicate α) :
    (p.map f).comparisons = p.comparisons.map fun c => (c.1.map f, c.2.map f) := by
  induction p with
  | compare op lhs rhs => rfl
  | and p q ihp ihq => rw [map, comparisons, ihp, ihq, comparisons, List.map_append]
  | or p q ihp ihq => rw [map, comparisons, ihp, ihq, comparisons, List.map_append]
  | not p ih => rw [map, comparisons, ih, comparisons]

@[simp]
theorem operands_compare (op : Comparison) (lhs rhs : Operand α) :
    (compare op lhs rhs).operands = [lhs, rhs] := rfl

@[simp]
theorem operands_and (p q : Predicate α) : (and p q).operands = p.operands ++ q.operands :=
  List.flatMap_append

@[simp]
theorem operands_or (p q : Predicate α) : (or p q).operands = p.operands ++ q.operands :=
  List.flatMap_append

@[simp]
theorem operands_not (p : Predicate α) : (not p).operands = p.operands := rfl

theorem mem_names_iff {p : Predicate α} {a : α} : a ∈ p.names ↔ .named a ∈ p.operands := by
  rw [names, List.mem_filterMap]
  constructor
  · rintro ⟨o, ho, h⟩
    cases o with
    | named b => cases h; exact ho
    | literal v => cases h
  · exact fun h => ⟨_, h, rfl⟩

theorem map_id (p : Predicate α) : p.map id = p := by
  have hoperand : ∀ o : Operand α, o.map id = o := fun o => by cases o <;> rfl
  induction p with
  | compare op lhs rhs => rw [map, hoperand, hoperand]
  | and p q ihp ihq => rw [map, ihp, ihq]
  | or p q ihp ihq => rw [map, ihp, ihq]
  | not p ih => rw [map, ih]

/-! ### The first pass -/

theorem error?_mapOperands (f : Operand α → Except Error (Operand β)) (p : Predicate α) :
    error? (p.mapOperands f) = p.operands.findSome? fun o => error? (f o) := by
  have hpure : ∀ q : Predicate β, error? (pure q) = none := fun _ => rfl
  have hboth : ∀ (x y : Except Error (Predicate β))
      (join : Predicate β → Predicate β → Predicate β),
      error? (do return join (← x) (← y)) = (error? x).or (error? y) := by
    intro x y join
    apply error?_bind
    intro q _
    rw [error?_bind fun q' _ => hpure (join q q'), Option.or_none]
  induction p with
  | compare op lhs rhs =>
    rw [mapOperands, error?_bind fun l _ => error?_bind fun r _ => hpure (compare op l r)]
    cases h : error? (f lhs) <;> cases h' : error? (f rhs) <;> simp [h, h']
  | and p q ihp ihq =>
    rw [operands_and, List.findSome?_append, ← ihp, ← ihq]
    exact hboth ..
  | or p q ihp ihq =>
    rw [operands_or, List.findSome?_append, ← ihp, ← ihq]
    exact hboth ..
  | not p ih =>
    rw [mapOperands, error?_bind fun q _ => hpure (not q), Option.or_none, ih, operands_not]

/-- Replacing operands that only differ in their names replaces the names. -/
theorem mapOperands_map_eq_ok {f : Operand β → Except Error (Operand γ)} {g : α → β} {h : α → γ}
    {p : Predicate α} (hp : ∀ o ∈ p.operands, f (o.map g) = .ok (o.map h)) :
    (p.map g).mapOperands f = .ok (p.map h) := by
  induction p with
  | compare op lhs rhs =>
    rw [map, mapOperands, hp lhs (by simp), hp rhs (by simp)]
    rfl
  | and p q ihp ihq =>
    rw [operands_and, List.forall_mem_append] at hp
    rw [map, mapOperands, ihp hp.1, ihq hp.2]
    rfl
  | or p q ihp ihq =>
    rw [operands_or, List.forall_mem_append] at hp
    rw [map, mapOperands, ihp hp.1, ihq hp.2]
    rfl
  | not p ih =>
    rw [map, mapOperands, ih hp]
    rfl

/-! ### The second pass -/

/-- The error for a comparison of operands of different types. -/
def mismatch? (c : Operand Attribute × Operand Attribute) : Option Error :=
  if c.1.type = c.2.type then none
  else some (.typeMismatch c.1.display c.1.type c.2.display c.2.type)

theorem isSome_mismatch? (c : Operand Attribute × Operand Attribute) :
    (mismatch? c).isSome = decide (c.1.type ≠ c.2.type) := by
  by_cases h : c.1.type = c.2.type <;> simp [mismatch?, h]

theorem error?_checkTypes (p : Predicate Attribute) :
    error? p.checkTypes = p.comparisons.findSome? mismatch? := by
  induction p with
  | compare op lhs rhs =>
    by_cases h : lhs.type = rhs.type <;> simp [checkTypes, comparisons, mismatch?, error?, h]
  | and p q ihp ihq =>
    rw [checkTypes, error?_bind fun _ _ => rfl, ihp, ihq, comparisons, List.findSome?_append]
  | or p q ihp ihq =>
    rw [checkTypes, error?_bind fun _ _ => rfl, ihp, ihq, comparisons, List.findSome?_append]
  | not p ih => exact ih

/-! ### Both passes -/

section Resolution
variable {s : Schema}

theorem error?_resolve_operand (o : Operand Reference) :
    error? (o.resolve s) = o.name?.bind fun r => error? (r.resolve s) := by
  cases o with
  | named r => cases h : r.resolve s <;> simp [Operand.resolve, Operand.name?, error?, h]
  | literal v => rfl

/-- The first pass stops at the first name that does not resolve. -/
theorem error?_mapOperands_resolve (p : Predicate Reference) :
    error? (p.mapOperands (Operand.resolve s)) =
      p.names.findSome? fun r => error? (r.resolve s) := by
  simp only [error?_mapOperands, error?_resolve_operand, names, ← List.head?_filterMap,
    List.filterMap_filterMap]

theorem resolve_eq_error_of_names {p : Predicate Reference} {e : Error}
    (h : (p.names.findSome? fun r => error? (r.resolve s)) = some e) : p.resolve s = .error e := by
  rw [← error?_mapOperands_resolve, error?_eq_some_iff] at h
  rw [resolve, h, error_bind]

/-- Once the names are replaced, the second pass decides. -/
theorem resolve_map_eq {α : Type} {g : α → Reference} {f : α → Attribute} {p : Predicate α}
    (h : ∀ a ∈ p.names, (g a).resolve s = .ok (f a)) :
    (p.map g).resolve s = (p.map f).checkTypes >>= fun _ => .ok (p.map f) := by
  have hoperands : ∀ o ∈ p.operands, (o.map g).resolve s = .ok (o.map f) := by
    intro o ho
    cases o with
    | named a =>
      rw [Operand.map, Operand.resolve, h a (mem_names_iff.2 ho)]
      rfl
    | literal v => rfl
  rw [resolve, mapOperands_map_eq_ok hoperands]
  rfl

/-- If all names resolve, some function gives the attributes that they resolve to. -/
theorem exists_resolve_eq_of_names {p : Predicate Reference}
    (h : (p.names.findSome? fun r => error? (r.resolve s)) = none) : ∃ f : Reference → Attribute,
      (∀ r ∈ p.names, r.resolve s = .ok (f r)) ∧
      p.resolve s = (p.map f).checkTypes >>= fun _ => .ok (p.map f) := by
  have hnames : ∀ r ∈ p.names, ∃ a, r.resolve s = .ok a := fun r hr =>
    error?_eq_none_iff.1 (List.findSome?_eq_none_iff.1 h r hr)
  choose! f hf using hnames
  have hmap := resolve_map_eq (g := id) hf
  rw [map_id] at hmap
  exact ⟨f, hf, hmap⟩

theorem checkTypes_eq_ok_iff {q : Predicate Attribute} :
    q.checkTypes = .ok () ↔ ∀ c ∈ q.comparisons, c.1.type = c.2.type := by
  have hunit : (∃ u, q.checkTypes = .ok u) ↔ q.checkTypes = .ok () :=
    ⟨fun ⟨_, h⟩ => h, fun h => ⟨_, h⟩⟩
  rw [← hunit, ← error?_eq_none_iff, error?_checkTypes, List.findSome?_eq_none_iff]
  apply forall₂_congr
  intro c _
  by_cases h : c.1.type = c.2.type <;> simp [mismatch?, h]

/-- A predicate resolves if its names do and both sides of each comparison have one type. -/
theorem resolve_map_eq_ok {α : Type} {g : α → Reference} {f : α → Attribute} {p : Predicate α}
    (h : ∀ a ∈ p.names, (g a).resolve s = .ok (f a))
    (ht : ∀ c ∈ (p.map f).comparisons, c.1.type = c.2.type) :
    (p.map g).resolve s = .ok (p.map f) := by
  rw [resolve_map_eq h, checkTypes_eq_ok_iff.2 ht, ok_bind]

/-- What a predicate resolves to has the attributes that its names resolve to in their places, and
one type on both sides of each comparison. -/
theorem exists_map_of_resolve_eq_ok {p : Predicate Reference} {q : Predicate Attribute}
    (h : p.resolve s = .ok q) : ∃ f : Reference → Attribute,
      (∀ r ∈ p.names, r.resolve s = .ok (f r)) ∧ q = p.map f ∧
      ∀ c ∈ q.comparisons, c.1.type = c.2.type := by
  have hnone := error?_eq_none_iff.2 ⟨q, mapOperands_of_resolve_eq_ok h⟩
  rw [error?_mapOperands_resolve] at hnone
  obtain ⟨f, hf, hmap⟩ := exists_resolve_eq_of_names hnone
  rw [h] at hmap
  obtain ⟨_, htypes, hq⟩ := exists_of_bind_eq_ok hmap.symm
  cases hq
  exact ⟨f, hf, rfl, checkTypes_eq_ok_iff.1 htypes⟩

end Resolution

end Predicate
end RelationalAlgebra
