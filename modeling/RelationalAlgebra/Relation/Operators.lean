import RelationalAlgebra.Relation

/-!
# The operators on relations

The operators take what they are given: attributes are resolved, predicates are checked and operands
are compatible, or else tuples lose values under names that meet. `Relation.Checked` holds the
operators that look first.

The set operators tell tuples apart by their `identity`, the texts of the values one behind the
other.
-/
namespace RelationalAlgebra

/-- The tuple that holds, under the first name of each pair, what `t` holds under the second. A name
that `t` lacks is left out. -/
def Tuple.relabel (t : Tuple) (names : List (String × String)) : Tuple :=
  .ofList (names.filterMap fun n => (t.get? n.2).map (n.1, ·))

namespace Relation

/-- Keeps the given attributes, in the given order. -/
def projection (r : Relation) (s : Schema) : Relation :=
  ⟨s, r.tuples.map (·.relabel (s.qualifiedNames.map fun key => (key, key)))⟩

/-- The tuples on which a predicate holds, unless it fails on one. -/
def tuplesWhere (p : Predicate Attribute) : List Tuple → Except Error (List Tuple)
  | [] => .ok []
  | t :: ts => do
    let keep ← p.evaluate t
    let rest ← tuplesWhere p ts
    return if keep then t :: rest else rest

theorem tuplesWhere_map {α : Type} {p : Predicate Attribute} {f : α → Tuple} {keep : α → Bool}
    {xs : List α} (h : ∀ x ∈ xs, p.evaluate (f x) = .ok (keep x)) :
    tuplesWhere p (xs.map f) = .ok ((xs.filter keep).map f) := by
  induction xs with
  | nil => rfl
  | cons x xs ih =>
    obtain ⟨hx, hxs⟩ := List.forall_mem_cons.1 h
    rw [List.map_cons, tuplesWhere, hx, ih hxs]
    cases hkeep : keep x <;> simp [hkeep, bind, Except.bind, pure, Except.pure]

theorem tuplesWhere_eq_filter {p : Predicate Attribute} {keep : Tuple → Bool} {ts : List Tuple}
    (h : ∀ t ∈ ts, p.evaluate t = .ok (keep t)) : tuplesWhere p ts = .ok (ts.filter keep) := by
  simpa using tuplesWhere_map (f := id) h

theorem partition_decide {α : Type} (keep : α → Prop) [DecidablePred keep] (xs : List α) :
    xs.partition (fun x => keep x) =
      (xs.filter fun x => keep x, xs.filter fun x => ¬keep x) := by
  rw [List.partition_eq_filter_filter]
  refine Prod.ext rfl ?_
  apply List.filter_congr
  intro x _
  exact decide_not.symm

/-- Keeps the tuples on which a predicate holds. -/
def selection (r : Relation) (p : Predicate Attribute) : Except Error Relation := do
  return ⟨r.schema, ← tuplesWhere p r.tuples⟩

/-- An attribute under the name that the bindings give it, or under its own. -/
def renamed (bindings : NameMap QualifiedName) (a : Attribute) : Attribute :=
  match bindings.get? a.qualifiedName with
  | some name => a.withName name
  | none => a

/-- Renames attributes, and with them the keys of the tuples. -/
def rename (r : Relation) (bindings : NameMap QualifiedName) : Relation :=
  let schema := r.schema.map (renamed bindings)
  ⟨schema, r.tuples.map (·.relabel (Schema.qualifiedNames schema |>.zip r.schema.qualifiedNames))⟩

/-- What the set operators know of a tuple: the spellings of its values, one behind the other. -/
def identity (keys : List String) (t : Tuple) : String :=
  String.join ((valuesAt keys t).map Value.spelling)

def identities (r : Relation) : List String := r.tuples.map (identity r.schema.qualifiedNames)

/-- Appends the tuples of `y` that `x` lacks, under the names of `x` position by position. -/
def union (x y : Relation) : Relation :=
  let xKeys := x.schema.qualifiedNames
  let yKeys := y.schema.qualifiedNames
  let known := x.identities
  let new := y.tuples.filter fun t => identity yKeys t ∉ known
  ⟨x.schema, x.tuples ++ new.map (·.relabel (xKeys.zip yKeys))⟩

/-- Keeps the tuples of `x` that `y` has. -/
def intersection (x y : Relation) : Relation :=
  let members := y.identities
  ⟨x.schema, x.tuples.filter fun t => identity x.schema.qualifiedNames t ∈ members⟩

/-- Keeps the tuples of `x` that `y` lacks. -/
def difference (x y : Relation) : Relation :=
  let members := y.identities
  ⟨x.schema, x.tuples.filter fun t => identity x.schema.qualifiedNames t ∉ members⟩

/-- Pairs every tuple of `x` with every tuple of `y`. -/
def product (x y : Relation) : Relation :=
  ⟨x.schema ++ y.schema, x.tuples.flatMap fun t => y.tuples.map t.merge⟩

/-- The keys of the attributes of a schema that have a bare name. -/
def keysNamed (s : Schema) (name : String) : List String :=
  Schema.qualifiedNames (s.filter (·.name = name))

/-- For each attribute of `x`, its key and the keys of the attributes of `y` that share its bare
name. -/
def sharedKeys (x y : Schema) : List (String × List String) :=
  x.map fun a => (a.qualifiedName, keysNamed y a.name)

/-- Two tuples agree on all shared keys. -/
def agree (shared : List (String × List String)) (t u : Tuple) : Bool :=
  shared.all fun pair => pair.2.all fun key => u.get? key = t.get? pair.1

/-- The attributes of `y` that share no bare name with `x`. -/
def unshared (x y : Schema) : Schema :=
  let bound := (sharedKeys x y).flatMap (·.2)
  y.filter (·.qualifiedName ∉ bound)

/-- Joins the tuples that agree on every bare name the schemas share, keeping the shared attributes
of `x`. -/
def join (x y : Relation) : Relation :=
  let shared := sharedKeys x.schema y.schema
  let added := unshared x.schema y.schema
  let keys := (Schema.qualifiedNames added).map fun key => (key, key)
  ⟨x.schema ++ added, x.tuples.flatMap fun t =>
    (y.tuples.filter (agree shared t)).map fun u => t.merge (u.relabel keys)⟩

end Relation

end RelationalAlgebra
