import RelationalAlgebra.Proofs.Collisions
import RelationalAlgebra.Proofs.Join
import RelationalAlgebra.Proofs.Resolution
import RelationalAlgebra.Proofs.Semantics

/-!
# Joins through the other operators

A join without shared names is the product. Any other join selects, from the product, the tuples on
which all pairs of columns of one name hold equal values, and projects the columns that are no
repeats (`Relation.join_eq_project_select_product`). The names in the condition and in the
projection are written in full, so that each of them resolves to the column it is taken from, on
whichever side it stands.
-/
namespace RelationalAlgebra

/-! ### Attributes named in full -/

theorem eraseDups_of_nodup {α : Type} [DecidableEq α] {l : List α} (h : l.Nodup) :
    l.eraseDups = l := by
  induction l with
  | nil => rfl
  | cons a l ih =>
    obtain ⟨ha, hl⟩ := List.nodup_cons.1 h
    have hfilter : l.filter (fun b => !b == a) = l := by
      apply List.filter_eq_self.2
      intro b hb
      simpa using ne_of_mem_of_not_mem hb ha
    rw [List.eraseDups_cons, hfilter, ih hl]

theorem Rowset.project_reference {x : Rowset} (hs : (x.schema.map Attribute.path).Nodup)
    {chosen : Schema} (hn : chosen.Nodup) (hc : chosen ⊆ x.schema) :
    x.project (chosen.map Attribute.reference) =
      .ok ⟨chosen, x.rows.map (x.schema.pick chosen)⟩ := by
  rw [project, Schema.project, Reference.resolveAll_reference hs hc]
  show Except.ok (Rowset.mk chosen.eraseDups (x.rows.map (x.schema.pick chosen.eraseDups))) = _
  rw [eraseDups_of_nodup hn]

/-! ### Equalities and their conjunctions -/

/-- The predicate that two attributes, both named in full, hold equal values. -/
def Attribute.equality (a b : Attribute) : Predicate Reference :=
  .compare .eq (.named a.reference) (.named b.reference)

/-- The equalities of all pairs of attributes of one bare name. -/
def Schema.equalities (s t : Schema) : List (Predicate Reference) :=
  s.flatMap fun a => (t.filter (·.name = a.name)).map a.equality

theorem Schema.mem_equalities_iff {s t : Schema} {p : Predicate Reference} :
    p ∈ s.equalities t ↔ ∃ a ∈ s, ∃ b ∈ t, a.name = b.name ∧ a.equality b = p := by
  simp only [equalities, List.mem_flatMap, List.mem_map, List.mem_filter, decide_eq_true_eq]
  constructor
  · rintro ⟨a, ha, b, ⟨hb, hname⟩, heq⟩
    exact ⟨a, ha, b, hb, hname.symm, heq⟩
  · rintro ⟨a, ha, b, hb, hname, heq⟩
    exact ⟨a, ha, b, ⟨hb, hname.symm⟩, heq⟩

/-- What a conjunction joins, in the order of the text. -/
def Predicate.conjuncts {α : Type} : Predicate α → List (Predicate α)
  | and p q => p.conjuncts ++ q.conjuncts
  | p => [p]

/-- Comparisons can be joined to a conjunction, in their order. -/
theorem Predicate.exists_conjuncts_eq {α : Type} {ps : List (Predicate α)} (hne : ps ≠ [])
    (h : ∀ p ∈ ps, p.conjuncts = [p]) : ∃ p : Predicate α, p.conjuncts = ps := by
  induction ps with
  | nil => exact absurd rfl hne
  | cons p ps ih =>
    obtain ⟨hp, hps⟩ := List.forall_mem_cons.1 h
    by_cases hrest : ps = []
    · exact ⟨p, by rw [hp, hrest]⟩
    · obtain ⟨q, hq⟩ := ih hrest hps
      exact ⟨.and p q, by rw [conjuncts, hp, hq, List.singleton_append]⟩

theorem Value.any_eq_compare?_iff (v w : Value) :
    (v.compare? w).any Comparison.eq.holds = true ↔ v = w := by
  cases v <;> cases w <;> simp [compare?, Comparison.holds]

section Conjunctions
variable {s : Schema} {p : Predicate Reference}

theorem Attribute.equality_inj (hs : (s.map path).Nodup) {a b a' b' : Attribute} (ha : a ∈ s)
    (hb : b ∈ s) (ha' : a' ∈ s) (hb' : b' ∈ s) (h : a.equality b = a'.equality b') :
    a = a' ∧ b = b' := by
  simp only [equality, reference, Reference.qualified, Predicate.compare.injEq,
    Operand.named.injEq, Reference.mk.injEq, Option.some.injEq] at h
  obtain ⟨_, ⟨hq, hn⟩, hq', hn'⟩ := h
  constructor
  · exact List.inj_on_of_nodup_map hs ha ha' (by rw [path, path, hq, hn])
  · exact List.inj_on_of_nodup_map hs hb hb' (by rw [path, path, hq', hn'])

theorem Attribute.mapOperands_equality (hs : (s.map path).Nodup) {a b : Attribute} (ha : a ∈ s)
    (hb : b ∈ s) : (a.equality b).mapOperands (Operand.resolve s) =
      .ok (.compare .eq (.named a) (.named b)) := by
  rw [equality, Predicate.mapOperands, Operand.resolve, Operand.resolve,
    Reference.resolve_reference hs ha, Reference.resolve_reference hs hb]
  rfl

/-- A conjunction of equalities resolves, and holds of the rows on which they all hold. -/
theorem Predicate.exists_resolve_eq_ok (hs : (s.map Attribute.path).Nodup)
    (h : ∀ c ∈ p.conjuncts, ∃ a ∈ s, ∃ b ∈ s, a.type = b.type ∧ a.equality b = c) :
    ∃ q, p.resolve s = .ok q ∧ ∀ row, q.holds s row = true ↔
      ∀ a ∈ s, ∀ b ∈ s, a.equality b ∈ p.conjuncts → s.value row a = s.value row b := by
  -- Resolving ends with one check of all types, so what the induction carries comes before it.
  suffices hmap : ∃ q, p.mapOperands (Operand.resolve s) = .ok q ∧ q.checkTypes = .ok () ∧
      ∀ row, q.holds s row = true ↔
        ∀ a ∈ s, ∀ b ∈ s, a.equality b ∈ p.conjuncts → s.value row a = s.value row b by
    obtain ⟨q, hq, htypes, hholds⟩ := hmap
    refine ⟨q, ?_, hholds⟩
    rw [resolve, hq, ok_bind, htypes]
    rfl
  induction p with
  | compare op lhs rhs =>
    obtain ⟨a, ha, b, hb, htype, heq⟩ := h _ (List.mem_singleton_self _)
    rw [← heq]
    refine ⟨_, Attribute.mapOperands_equality hs ha hb, if_pos htype, ?_⟩
    intro row
    rw [holds, Value.any_eq_compare?_iff]
    constructor
    · intro hvalue a' ha' b' hb' hmem
      obtain ⟨rfl, rfl⟩ := Attribute.equality_inj hs ha' hb' ha hb (List.mem_singleton.1 hmem)
      exact hvalue
    · exact fun hall => hall a ha b hb (List.mem_singleton_self _)
  | and p p' ih ih' =>
    obtain ⟨h, h'⟩ := List.forall_mem_append.1 h
    obtain ⟨q, hq, htypes, hholds⟩ := ih h
    obtain ⟨q', hq', htypes', hholds'⟩ := ih' h'
    refine ⟨.and q q', ?_, ?_, ?_⟩
    · rw [mapOperands, hq, hq']
      rfl
    · rw [checkTypes, htypes, htypes']
      rfl
    · intro row
      rw [holds, Bool.and_eq_true, hholds, hholds', conjuncts]
      simp only [List.mem_append]
      constructor
      · rintro ⟨hall, hall'⟩ a ha b hb (hmem | hmem)
        · exact hall a ha b hb hmem
        · exact hall' a ha b hb hmem
      · intro hall
        exact ⟨fun a ha b hb hmem => hall a ha b hb (.inl hmem),
          fun a ha b hb hmem => hall a ha b hb (.inr hmem)⟩
  | or p p' =>
    obtain ⟨a, _, b, _, _, heq⟩ := h _ (List.mem_singleton_self _)
    cases heq
  | not p =>
    obtain ⟨a, _, b, _, _, heq⟩ := h _ (List.mem_singleton_self _)
    cases heq

end Conjunctions

/-! ### Selecting and projecting -/

namespace Rowset
variable {x y : Rowset}

/-- The equalities of the shared names hold of two rows in a row exactly when the rows agree. -/
theorem exists_resolve_equalities {s t : Schema} (hs : ((s ++ t).map Attribute.path).Nodup)
    (htypes : ∀ a ∈ s, ∀ b ∈ t, a.name = b.name → a.type = b.type) {p : Predicate Reference}
    (hp : p.conjuncts.Perm (s.equalities t)) :
    ∃ q, p.resolve (s ++ t) = .ok q ∧ ∀ row more, row.length = s.length →
      q.holds (s ++ t) (row ++ more) = agree s t row more := by
  have hdisjoint : ∀ b ∈ t, b ∉ s := by
    intro b hb ha
    rw [List.map_append, List.nodup_append] at hs
    exact hs.2.2 _ (List.mem_map_of_mem ha) _ (List.mem_map_of_mem hb) rfl
  have hconjuncts : ∀ c ∈ p.conjuncts, ∃ a ∈ s ++ t, ∃ b ∈ s ++ t, a.type = b.type ∧
      a.equality b = c := by
    intro c hc
    obtain ⟨a, ha, b, hb, hname, heq⟩ := Schema.mem_equalities_iff.1 (hp.mem_iff.1 hc)
    exact ⟨a, List.mem_append_left _ ha, b, List.mem_append_right _ hb, htypes a ha b hb hname, heq⟩
  obtain ⟨q, hq, hholds⟩ := Predicate.exists_resolve_eq_ok hs hconjuncts
  refine ⟨q, hq, ?_⟩
  intro row more hrow
  rw [Bool.eq_iff_iff, hholds, agree_iff]
  constructor
  · intro hall a ha b hb hname
    have hmem : a.equality b ∈ p.conjuncts :=
      hp.mem_iff.2 (Schema.mem_equalities_iff.2 ⟨a, ha, b, hb, hname, rfl⟩)
    have hvalue := hall a (List.mem_append_left _ ha) b (List.mem_append_right _ hb) hmem
    rwa [Schema.value_append_left hrow ha, Schema.value_append_right hrow (hdisjoint b hb)]
      at hvalue
  · intro hagree a ha b hb hmem
    obtain ⟨a', ha', b', hb', hname, heq⟩ := Schema.mem_equalities_iff.1 (hp.mem_iff.1 hmem)
    obtain ⟨rfl, rfl⟩ := Attribute.equality_inj hs (List.mem_append_left _ ha')
      (List.mem_append_right _ hb') ha hb heq
    rw [Schema.value_append_left hrow ha', Schema.value_append_right hrow (hdisjoint _ hb'),
      hagree _ ha' _ hb' hname]

theorem select_product (hx : x.Sound) (hs : ((x.schema ++ y.schema).map Attribute.path).Nodup)
    (htypes : ∀ a ∈ x.schema, ∀ b ∈ y.schema, a.name = b.name → a.type = b.type)
    {p : Predicate Reference} (hp : p.conjuncts.Perm (x.schema.equalities y.schema)) :
    (x.product y).select p = .ok ⟨x.schema ++ y.schema, x.rows.flatMap fun row =>
      (y.rows.filter (agree x.schema y.schema row)).map (row ++ ·)⟩ := by
  obtain ⟨q, hq, hholds⟩ := exists_resolve_equalities hs htypes hp
  have hrows : (x.product y).rows.filter (fun row => q.holds (x.schema ++ y.schema) row) =
      x.rows.flatMap fun row => (y.rows.filter (agree x.schema y.schema row)).map (row ++ ·) := by
    simp only [product, combineRows, List.filter_flatMap, List.filter_map]
    apply List.flatMap_congr
    intro row hrow
    have hlength := (hx.rows row hrow).length_eq
    congr 1
    apply List.filter_congr
    intro more _
    exact hholds row more hlength
  have hresolve : p.resolve (x.product y).schema = .ok q := hq
  rw [select, hresolve, ← hrows]
  rfl

theorem project_pairs (hx : x.Sound) (hy : y.Sound)
    (hs : ((x.schema ++ y.schema).map Attribute.path).Nodup) :
    project ⟨x.schema ++ y.schema, x.rows.flatMap fun row =>
        (y.rows.filter (agree x.schema y.schema row)).map (row ++ ·)⟩
      ((x.schema ++ x.schema.added y.schema).map Attribute.reference) = .ok (x.join y) := by
  have hchosen : x.schema ++ x.schema.added y.schema ⊆ x.schema ++ y.schema :=
    List.append_subset.2 ⟨List.subset_append_left _ _,
      List.Subset.trans (Schema.added_subset _ _) (List.subset_append_right _ _)⟩
  have hnodup := Schema.nodup_of_distinct (hx.schema.append_added hy.schema).distinct
  rw [project_reference hs hnodup hchosen]
  congr 2
  simp only [combineRows, List.map_flatMap, List.map_map]
  apply List.flatMap_congr
  intro row hrow
  have hlength := (hx.rows row hrow).length_eq
  apply List.map_congr_left
  intro more _
  have hleft : (x.schema ++ y.schema).pick x.schema (row ++ more) = row := by
    rw [Schema.pick_append_left hlength (List.Subset.refl _),
      Schema.pick_self (Schema.nodup_of_distinct hx.schema.distinct) hlength]
  have hright : (x.schema ++ y.schema).pick (x.schema.added y.schema) (row ++ more) =
      y.schema.pick (x.schema.added y.schema) more :=
    Schema.pick_append_right hlength fun _ => Schema.not_mem_of_mem_added
  rw [Function.comp_apply, Schema.pick_append, hleft, hright]

/-- Without shared names all rows agree, and every column of the right operand is new. -/
theorem join_eq_product_of_unshared (hy : y.Sound)
    (h : ∀ a ∈ x.schema, a.name ∉ y.schema.bareNames) : x.join y = x.product y := by
  have hfilter : ∀ row, y.rows.filter (agree x.schema y.schema row) = y.rows := by
    intro row
    apply List.filter_eq_self.2
    intro more _
    rw [agree_iff]
    intro a ha b hb hname
    exact absurd (hname ▸ List.mem_map_of_mem hb) (h a ha)
  simp only [join, product, combineRows, Schema.added_of_unshared h, hfilter, Rowset.mk.injEq,
    true_and]
  apply List.flatMap_congr
  intro row _
  apply List.map_congr_left
  intro more hmore
  rw [Schema.pick_self (Schema.nodup_of_distinct hy.schema.distinct) (hy.rows more hmore).length_eq]

theorem checkedProject_select_product (hx : x.Sound) (hy : y.Sound)
    (hs : ((x.schema ++ y.schema).map Attribute.path).Nodup)
    (htypes : ∀ a ∈ x.schema, ∀ b ∈ y.schema, a.name = b.name → a.type = b.type)
    {p : Predicate Reference} (hp : p.conjuncts.Perm (x.schema.equalities y.schema)) :
    (do
      let selected ← Relation.Checked.select (x.product y).relation p
      Relation.Checked.project selected
        ((x.schema ++ x.schema.added y.schema).map Attribute.reference)) =
      .ok (x.join y).relation := by
  have hselect := select_product hx hs htypes hp
  have hselected := (hx.product hy hs).select hselect
  rw [select_relation (hx.product hy hs).wellFormed, hselect]
  show Relation.Checked.project (relation _) _ = _
  rw [project_relation hselected.wellFormed, project_pairs hx hy hs]
  rfl

end Rowset

namespace Relation
variable {x y : Relation}

/-- Without shared names the join is the product. With shared names, if the product succeeds and
columns of one name have one type, the join is what is projected and selected from the product: the
columns of the left operand and those with new names, where a conjunction of the equalities of all
pairs of columns of one name holds. -/
theorem join_eq_project_select_product (hx : x.Sound) (hy : y.Sound) :
    ((∀ a ∈ x.schema, a.name ∉ y.schema.bareNames) →
      ∃ r, Checked.join x y = .ok r ∧ Checked.product x y = .ok r) ∧
    ((∃ a ∈ x.schema, a.name ∈ y.schema.bareNames) →
      (∀ a ∈ x.schema, ∀ b ∈ y.schema, a.name = b.name → a.type = b.type) →
      ∀ xy, Checked.product x y = .ok xy →
        (∃ p : Predicate Reference, p.conjuncts = x.schema.equalities y.schema) ∧
        ∀ p : Predicate Reference, p.conjuncts.Perm (x.schema.equalities y.schema) →
          ∃ r, Checked.join x y = .ok r ∧
            (do
              let selected ← Checked.select xy p
              Checked.project selected
                ((x.schema ++ x.schema.added y.schema).map Attribute.reference)) = .ok r) := by
  obtain ⟨x, hx', rfl⟩ := hx.exists_rowset
  obtain ⟨y, hy', rfl⟩ := hy.exists_rowset
  have hjoin : Checked.join x.relation y.relation = .ok (x.join y).relation :=
    congrArg Except.ok (hx'.join_relation hy')
  simp only [Rowset.schema_relation]
  constructor
  · intro h
    have hs : ((x.schema ++ y.schema).map Attribute.path).Nodup := by
      have hadded := Schema.nodup_paths_append_added hx'.schema.distinct hy'.schema.distinct
      rwa [Schema.added_of_unshared h] at hadded
    refine ⟨_, hjoin, ?_⟩
    rw [Rowset.checkedProduct_relation hx' hy' hs, Rowset.join_eq_product_of_unshared hy' h]
  · rintro ⟨a, ha, hname⟩ htypes xy hxy
    have hs : ((x.schema ++ y.schema).map Attribute.path).Nodup := by
      by_contra hs
      rw [Checked.product_of_not_nodup hs] at hxy
      cases hxy
    rw [Rowset.checkedProduct_relation hx' hy' hs] at hxy
    cases hxy
    constructor
    · apply Predicate.exists_conjuncts_eq
      · obtain ⟨b, hb, heq⟩ := List.mem_map.1 hname
        exact List.ne_nil_of_mem (Schema.mem_equalities_iff.2 ⟨a, ha, b, hb, heq.symm, rfl⟩)
      · intro c hc
        obtain ⟨_, _, _, _, _, rfl⟩ := Schema.mem_equalities_iff.1 hc
        rfl
    · intro p hp
      exact ⟨_, hjoin, Rowset.checkedProject_select_product hx' hy' hs htypes hp⟩

/-- Two columns `a` on the left meet one on the right, and the conjunction names them the other way
round. With a third relation, no name is shared. -/
theorem join_eq_project_select_product_two_columns :
    let x := Rowset.relation ⟨[⟨"o", "a", .number⟩, ⟨"p", "a", .number⟩],
      [[.number 1, .number 1], [.number 1, .number 2], [.number 1, .number 1]]⟩
    let y := Rowset.relation ⟨[⟨"q", "b", .string⟩, ⟨"q", "a", .number⟩],
      [[.text "u", .number 1], [.text "v", .number 2], [.text "w", .number 1]]⟩
    let z := Rowset.relation ⟨[⟨"o", "c", .string⟩], [[.text "u"], [.text "v"]]⟩
    let p := Predicate.and (Attribute.equality ⟨"p", "a", .number⟩ ⟨"q", "a", .number⟩)
      (Attribute.equality ⟨"o", "a", .number⟩ ⟨"q", "a", .number⟩)
    x.Sound ∧ y.Sound ∧ z.Sound ∧ p.conjuncts.Perm (x.schema.equalities y.schema) ∧
    (∃ r, Checked.join x y = .ok r ∧
      (do
        let selected ← Checked.select (x.product y) p
        Checked.project selected
          ((x.schema ++ x.schema.added y.schema).map Attribute.reference)) = .ok r ∧
      r.rows = [[.number 1, .number 1, .text "u"], [.number 1, .number 1, .text "w"],
        [.number 1, .number 1, .text "u"], [.number 1, .number 1, .text "w"]]) ∧
    ∃ r, Checked.join x z = .ok r ∧ Checked.product x z = .ok r ∧ r.size = 6 := by
  intro x y z p
  have hx : x.Sound := by decide
  have hy : y.Sound := by decide
  have hz : z.Sound := by decide
  have hp : p.conjuncts.Perm (x.schema.equalities y.schema) := by decide
  have shared : ∃ a ∈ x.schema, a.name ∈ y.schema.bareNames := by decide
  have types : ∀ a ∈ x.schema, ∀ b ∈ y.schema, a.name = b.name → a.type = b.type := by decide
  have product : Checked.product x y = .ok (x.product y) :=
    Checked.product_of_nodup (by decide)
  have unshared : ∀ a ∈ x.schema, a.name ∉ z.schema.bareNames := by decide
  refine ⟨hx, hy, hz, hp, ?_, ?_⟩
  · obtain ⟨r, join, selected⟩ :=
      ((join_eq_project_select_product hx hy).2 shared types _ product).2 p hp
    refine ⟨r, join, selected, ?_⟩
    cases join
    decide
  · obtain ⟨r, join, product⟩ := (join_eq_project_select_product hx hz).1 unshared
    refine ⟨r, join, product, ?_⟩
    cases product
    rfl

end Relation

end RelationalAlgebra
