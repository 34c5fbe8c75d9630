import RelationalAlgebra.Proofs.Errors

/-!
# Relations as bags

The order of tuples is part of a relation, but no operator depends on it: operands that are
rearranged give the same error or a result that is rearranged (`simulates_rearranged`). Tuples are
tested one by one, the set operators only ask whether the other operand has a tuple of some
identity, and products and joins pair every tuple with every other. So the order of the stored
tuples decides nothing but the order of the result, repeated tuples included.
-/
namespace RelationalAlgebra

namespace Relation

/-- One schema, and the same tuples as often, perhaps in another order. -/
structure Rearranged (r r' : Relation) : Prop where
  schema : r.schema = r'.schema
  tuples : r.tuples.Perm r'.tuples

variable {r r' x x' y y' : Relation}

/-! ### Operators on rearranged operands -/

theorem Rearranged.projection (h : r.Rearranged r') (s : Schema) :
    (r.projection s).Rearranged (r'.projection s) :=
  ⟨rfl, h.tuples.map _⟩

theorem Rearranged.rename (h : r.Rearranged r') (bindings : NameMap QualifiedName) :
    (r.rename bindings).Rearranged (r'.rename bindings) := by
  simp only [Relation.rename, h.schema]
  exact ⟨rfl, h.tuples.map _⟩

theorem Rearranged.mem_identities_iff (h : r.Rearranged r') (text : String) :
    text ∈ r.identities ↔ text ∈ r'.identities := by
  rw [identities, identities, h.schema]
  exact (h.tuples.map _).mem_iff

theorem Rearranged.union (hx : x.Rearranged x') (hy : y.Rearranged y') :
    (x.union y).Rearranged (x'.union y') := by
  simp only [Relation.union, hx.schema, hy.schema, hx.mem_identities_iff]
  exact ⟨rfl, hx.tuples.append ((hy.tuples.filter _).map _)⟩

theorem Rearranged.intersection (hx : x.Rearranged x') (hy : y.Rearranged y') :
    (x.intersection y).Rearranged (x'.intersection y') := by
  simp only [Relation.intersection, hx.schema, hy.mem_identities_iff]
  exact ⟨rfl, hx.tuples.filter _⟩

theorem Rearranged.difference (hx : x.Rearranged x') (hy : y.Rearranged y') :
    (x.difference y).Rearranged (x'.difference y') := by
  simp only [Relation.difference, hx.schema, hy.mem_identities_iff]
  exact ⟨rfl, hx.tuples.filter _⟩

theorem Rearranged.product (hx : x.Rearranged x') (hy : y.Rearranged y') :
    (x.product y).Rearranged (x'.product y') := by
  simp only [Relation.product, hx.schema, hy.schema]
  refine ⟨rfl, hx.tuples.flatMap ?_⟩
  intro t _
  exact hy.tuples.map _

theorem Rearranged.join (hx : x.Rearranged x') (hy : y.Rearranged y') :
    (x.join y).Rearranged (x'.join y') := by
  simp only [Relation.join, hx.schema, hy.schema]
  refine ⟨rfl, hx.tuples.flatMap ?_⟩
  intro t _
  exact (hy.tuples.filter _).map _

end Relation

/-! ### Selection -/

theorem Operand.failsWith_value (t : Tuple) (o : Operand Attribute) :
    FailsWith (· = .illFormedPredicate) (o.value t) := by
  cases o with
  | named a =>
    rw [value]
    split
    · exact failsWith_ok _
    · exact failsWith_error rfl
  | literal v => exact failsWith_ok _

/-- There is one error that a predicate can fail with on a tuple. -/
theorem Predicate.failsWith_evaluate (t : Tuple) (p : Predicate Attribute) :
    FailsWith (· = .illFormedPredicate) (p.evaluate t) := by
  induction p with
  | compare op lhs rhs =>
    apply (lhs.failsWith_value t).bind
    intro a
    apply (rhs.failsWith_value t).bind
    intro b
    split
    · exact failsWith_ok _
    · exact failsWith_error rfl
  | and p q ihp ihq => exact ihp.bind fun keep => ihq.ite (failsWith_ok _)
  | or p q ihp ihq => exact ihp.bind fun keep => (failsWith_ok _).ite ihq
  | not p ih => exact ih.bind fun _ => failsWith_ok _

namespace Relation
variable {p : Predicate Attribute} {ts us : List Tuple}

theorem tuplesWhere_eq_ok (h : ∀ t ∈ ts, ∃ keep, p.evaluate t = .ok keep) :
    tuplesWhere p ts = .ok (ts.filter fun t => (p.evaluate t).toOption == some true) := by
  apply tuplesWhere_eq_filter
  intro t ht
  obtain ⟨keep, hkeep⟩ := h t ht
  rw [hkeep]
  cases keep <;> rfl

theorem tuplesWhere_eq_error {t : Tuple} (ht : t ∈ ts) {e : Error} (h : p.evaluate t = .error e) :
    tuplesWhere p ts = .error .illFormedPredicate := by
  induction ts with
  | nil => cases ht
  | cons u us ih =>
    rw [tuplesWhere]
    cases hu : p.evaluate u with
    | error e' =>
      rw [p.failsWith_evaluate u e' hu]
      rfl
    | ok keep =>
      rcases List.mem_cons.1 ht with rfl | ht
      · rw [h] at hu
        cases hu
      · rw [ok_bind, ih ht]
        rfl

theorem sameOutcome_tuplesWhere (p : Predicate Attribute) (h : ts.Perm us) :
    SameOutcome List.Perm (tuplesWhere p ts) (tuplesWhere p us) := by
  by_cases hall : ∀ t ∈ ts, ∃ keep, p.evaluate t = .ok keep
  · have hall' : ∀ t ∈ us, ∃ keep, p.evaluate t = .ok keep := fun t ht => hall t (h.mem_iff.2 ht)
    rw [tuplesWhere_eq_ok hall, tuplesWhere_eq_ok hall']
    exact h.filter _
  · push Not at hall
    obtain ⟨t, ht, hfails⟩ := hall
    cases he : p.evaluate t with
    | ok keep => exact absurd he (hfails keep)
    | error e =>
      rw [tuplesWhere_eq_error ht he, tuplesWhere_eq_error (h.mem_iff.1 ht) he]
      exact rfl

variable {r r' x x' y y' : Relation}

theorem Rearranged.selection (h : r.Rearranged r') (p : Predicate Attribute) :
    SameOutcome Rearranged (r.selection p) (r'.selection p) := by
  apply (sameOutcome_tuplesWhere p h.tuples).bind
  intro kept kept' hkept
  exact ⟨h.schema, hkept⟩

/-! ### Checked operators -/

theorem Rearranged.checkedProject (h : r.Rearranged r') (references : List Reference) :
    SameOutcome Rearranged (Checked.project r references) (Checked.project r' references) := by
  rw [Checked.project, Checked.project, h.schema]
  cases Reference.resolveAll r'.schema references with
  | error e => exact rfl
  | ok attributes => exact h.projection _

theorem Rearranged.checkedSelect (h : r.Rearranged r') (p : Predicate Reference) :
    SameOutcome Rearranged (Checked.select r p) (Checked.select r' p) := by
  rw [Checked.select, Checked.select, h.schema]
  cases p.resolve r'.schema with
  | error e => exact rfl
  | ok q => exact h.selection q

theorem Rearranged.checkedRename (h : r.Rearranged r') (name : String)
    (references : List Reference) :
    SameOutcome Rearranged (Checked.rename r name references)
      (Checked.rename r' name references) := by
  simp only [Checked.rename, h.schema]
  split
  · exact rfl
  · split
    · exact rfl
    · split
      · exact rfl
      · exact h.rename _

theorem Rearranged.checkedSet (hx : x.Rearranged x') (hy : y.Rearranged y')
    (op : SetOperation) :
    SameOutcome Rearranged (Checked.set op x y) (Checked.set op x' y') := by
  simp only [Checked.set, Checked.Compatible, hx.schema, hy.schema]
  by_cases hc : x'.schema.types = y'.schema.types
  · simp only [hc, if_true]
    cases op with
    | union => exact hx.union hy
    | intersection => exact hx.intersection hy
    | difference => exact hx.difference hy
  · simp only [hc, if_false]
    exact rfl

theorem Rearranged.checkedProduct (hx : x.Rearranged x') (hy : y.Rearranged y') :
    SameOutcome Rearranged (Checked.product x y) (Checked.product x' y') := by
  simp only [Checked.product, hx.schema, hy.schema]
  by_cases hn : ((x'.schema ++ y'.schema).map Attribute.path).Nodup
  · simp only [hn, if_true]
    exact hx.product hy
  · simp only [hn, if_false]
    exact rfl

theorem Rearranged.checkedApply (hx : x.Rearranged x') (hy : y.Rearranged y')
    (op : BinaryOperator) :
    SameOutcome Rearranged (Checked.apply op x y) (Checked.apply op x' y') := by
  cases op with
  | set op => exact hx.checkedSet hy op
  | product => exact hx.checkedProduct hy
  | join => exact hx.join hy

end Relation

/-! ### Queries and texts -/

/-- Under every name both data sets have a relation, one the rearrangement of the other, or neither
has any. -/
def DataSet.Rearranged (d d' : DataSet) : Prop :=
  ∀ name, Option.Rel Relation.Rearranged (d.get? name) (d'.get? name)

theorem DataSet.Rearranged.lookup {d d' : DataSet} (h : d.Rearranged d') (name : String) :
    SameOutcome Relation.Rearranged (d.lookup name) (d'.lookup name) := by
  have hname := h name
  rw [DataSet.lookup, DataSet.lookup]
  generalize d.get? name = found, d'.get? name = found' at hname ⊢
  cases hname with
  | some hr => exact hr
  | none => exact rfl

theorem simulates_rearranged {d d' : DataSet} (h : d.Rearranged d') :
    (Relation.operators d).Simulates Relation.Rearranged (Relation.operators d') where
  stored := h.lookup
  project references _ _ hr := hr.checkedProject references
  select p _ _ hr := hr.checkedSelect p
  rename name references _ _ _ _ hr := hr.checkedRename name references
  combine op _ _ _ _ hx hy := hx.checkedApply hy op

/-- On data sets whose relations are rearranged, evaluation fails with the same error or gives
rearranged relations. -/
theorem evaluate_rearranged {d d' : DataSet} (h : d.Rearranged d') (text : String) :
    SameOutcome Relation.Rearranged (evaluate d text) (evaluate d' text) := by
  cases hp : Expression.parse text with
  | error error =>
    rw [evaluate, evaluate, hp]
    exact rfl
  | ok e =>
    obtain ⟨q, hq, hplain, _⟩ := Expression.exists_query?_of_parse hp
    rw [evaluate_of_query? hp hq, evaluate_of_query? hp hq]
    exact (simulates_rearranged h).evaluate hplain

/-- The union keeps the repeated row of its right operand, and the rows in the order of the data. -/
theorem evaluate_rearranged_union :
    let one := [Value.number 1, .text "x"]
    let two := [Value.number 2, .text "y"]
    let three := [Value.number 3, .text "y"]
    let d := DataSet.numbered [two, one, two, three]
    let d' := DataSet.numbered [three, two, one, two]
    let text := "σ a < 2 (r) ∪ r"
    d.Rearranged d' ∧
    SameOutcome Relation.Rearranged (evaluate d text) (evaluate d' text) ∧
    (evaluate d text).map Relation.rows = .ok [one, two, two, three] ∧
    (evaluate d' text).map Relation.rows = .ok [one, three, two, two] := by
  intro one two three d d' text
  have rows : [two, one, two, three].Perm [three, two, one, two] := by decide
  have rearranged : d.Rearranged d' := by
    intro name
    simp only [d, d', DataSet.numbered, NameMap.get?_ofList, List.reverse_singleton,
      NameMap.lookup_cons]
    split
    · exact .some ⟨rfl, rows.map _⟩
    · exact .none
  have lexed : TokenStream.ofText text = ⟨[.bare .select, .lit .word "a", .bare .less,
    .lit .number "2", .bare .openParen, .lit .word "r", .bare .closeParen, .bare .union,
    .lit .word "r"], none⟩ := by decide +kernel
  have parsed : Expression.parse text = .ok (.branch .union [.branch .select
      [.branch .less [.leaf .word "a", .leaf .number "2"], .leaf .relation "r"],
      .leaf .relation "r"]) := by
    rw [Expression.parse_eq, lexed]
    cbv
  refine ⟨rearranged, evaluate_rearranged rearranged _, ?_, ?_⟩
  · rw [evaluate, parsed]
    decide +kernel
  · rw [evaluate, parsed]
    decide +kernel

end RelationalAlgebra
