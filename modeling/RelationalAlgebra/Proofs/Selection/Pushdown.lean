import RelationalAlgebra.Proofs.Collisions
import RelationalAlgebra.Proofs.Join
import RelationalAlgebra.Proofs.Resolution

/-!
# Selecting before multiplying and joining

A selection from a product or a join by a predicate that an operand could answer alone may be made
on that operand first (`Relation.select_pushdown`). Its references name the same columns on the
operand and on the combined schema, because one is part of the other, and in a combined row those
columns hold what the row of the operand holds. From a join this is so for the left operand only: of
the right one, columns may have been dropped.
-/
namespace RelationalAlgebra

/-- If a test of what comes of an element only looks at the element, the elements may be tested. -/
theorem filter_flatMap_of_left {α β : Type} {p : β → Bool} {keep : α → Bool} {f : α → List β}
    {l : List α} (h : ∀ a ∈ l, ∀ b ∈ f a, p b = keep a) :
    (l.flatMap f).filter p = (l.filter keep).flatMap f := by
  induction l with
  | nil => rfl
  | cons a l ih =>
    obtain ⟨ha, hl⟩ := List.forall_mem_cons.1 h
    rw [List.flatMap_cons, List.filter_append, ih hl]
    cases hkeep : keep a with
    | true =>
      have hall : (f a).filter p = f a :=
        List.filter_eq_self.2 fun b hb => (ha b hb).trans hkeep
      rw [hall, List.filter_cons_of_pos hkeep, List.flatMap_cons]
    | false =>
      have hnone : (f a).filter p = [] := by
        apply List.filter_eq_nil_iff.2
        intro b hb
        simp [ha b hb, hkeep]
      rw [hnone, List.filter_cons_of_neg (by simp [hkeep]), List.nil_append]

namespace Rowset
variable {x y : Rowset} {q : Predicate Attribute}

def keep (x : Rowset) (q : Predicate Attribute) : Rowset :=
  ⟨x.schema, x.rows.filter fun row => q.holds x.schema row⟩

/-- A selection that succeeds keeps rows by what its predicate resolves to. -/
theorem checkedSelect_eq_ok_iff (hx : x.WellFormed) {p : Predicate Reference} {r : Relation} :
    Relation.Checked.select x.relation p = .ok r ↔
      ∃ q, p.resolve x.schema = .ok q ∧ r = (x.keep q).relation := by
  rw [select_relation hx, select]
  cases p.resolve x.schema with
  | error e => simp [Except.map]
  | ok q => simp [keep, Except.map, pure, Except.pure, eq_comm]

theorem WellFormed.keep (hx : x.WellFormed) (q : Predicate Attribute) : (x.keep q).WellFormed :=
  ⟨hx.distinct, fun row hrow => hx.rows row (List.mem_filter.1 hrow).1⟩

theorem Sound.keep (hx : x.Sound) (q : Predicate Attribute) : (x.keep q).Sound :=
  ⟨hx.schema, (hx.wellFormed.keep q).rows⟩

/-! ### Rows that are kept before and after -/

/-- In front of any row, a row of the left schema answers as it does alone. -/
theorem holds_append_left {s t : Schema} (hq : q.WellTyped s) {row : List Value}
    (hrow : row.length = s.length) (more : List Value) :
    q.holds (s ++ t) (row ++ more) = q.holds s row :=
  hq.holds_congr fun _ ha => Schema.value_append_left hrow ha

/-- Behind a row of other columns, a row of the right schema answers as it does alone. -/
theorem holds_append_right {s t : Schema} (hq : q.WellTyped t) {row : List Value}
    (hrow : row.length = s.length) (ht : ∀ a ∈ t, a ∉ s) (more : List Value) :
    q.holds (s ++ t) (row ++ more) = q.holds t more :=
  hq.holds_congr fun a ha => Schema.value_append_right hrow (ht a ha)

theorem keep_product_left (hx : x.WellFormed) (hq : q.WellTyped x.schema) :
    (x.product y).keep q = (x.keep q).product y := by
  have hrows : ∀ row ∈ x.rows, ∀ joined ∈ y.rows.map (row ++ ·),
      q.holds (x.schema ++ y.schema) joined = q.holds x.schema row := by
    intro row hrow _ hjoined
    obtain ⟨more, _, rfl⟩ := List.mem_map.1 hjoined
    exact holds_append_left hq (hx.rows row hrow).length_eq more
  exact congrArg (Rowset.mk (x.schema ++ y.schema)) (filter_flatMap_of_left hrows)

theorem keep_product_right (hx : x.WellFormed) (hq : q.WellTyped y.schema)
    (hy : ∀ a ∈ y.schema, a ∉ x.schema) :
    (x.product y).keep q = x.product (y.keep q) := by
  simp only [keep, product, combineRows, List.filter_flatMap, List.filter_map]
  congr 1
  apply List.flatMap_congr
  intro row hrow
  congr 1
  apply List.filter_congr
  intro more _
  exact holds_append_right hq (hx.rows row hrow).length_eq hy more

theorem keep_join_left (hx : x.WellFormed) (hq : q.WellTyped x.schema) :
    (x.join y).keep q = (x.keep q).join y := by
  have hrows : ∀ row ∈ x.rows, ∀ joined ∈ (y.rows.filter (agree x.schema y.schema row)).map
      (fun more => row ++ y.schema.pick (x.schema.added y.schema) more),
      q.holds (x.schema ++ x.schema.added y.schema) joined = q.holds x.schema row := by
    intro row hrow _ hjoined
    obtain ⟨more, _, rfl⟩ := List.mem_map.1 hjoined
    exact holds_append_left hq (hx.rows row hrow).length_eq _
  exact congrArg (Rowset.mk (x.schema ++ x.schema.added y.schema)) (filter_flatMap_of_left hrows)

end Rowset

namespace Relation
variable {x y : Relation}

/-- A selection from a product that an operand accepts as well may be made on that operand, and a
selection from a join that the left operand accepts may be made there. Nothing fails then, and the
tuples are the same in the same order. -/
theorem select_pushdown (hx : x.Sound) (hy : y.Sound) (p : Predicate Reference) :
    (∀ xy selected, Checked.product x y = .ok xy → Checked.select xy p = .ok selected →
      (∀ x', Checked.select x p = .ok x' → Checked.product x' y = .ok selected) ∧
      ∀ y', Checked.select y p = .ok y' → Checked.product x y' = .ok selected) ∧
    ∀ xy selected x', Checked.join x y = .ok xy → Checked.select xy p = .ok selected →
      Checked.select x p = .ok x' → Checked.join x' y = .ok selected := by
  obtain ⟨x, hx', rfl⟩ := hx.exists_rowset
  obtain ⟨y, hy', rfl⟩ := hy.exists_rowset
  constructor
  · intro xy selected hxy hselected
    have hs : ((x.schema ++ y.schema).map Attribute.path).Nodup := by
      by_contra hs
      rw [Checked.product_of_not_nodup hs] at hxy
      cases hxy
    rw [Rowset.checkedProduct_relation hx' hy' hs] at hxy
    cases hxy
    have hxy := (hx'.product hy' hs).wellFormed
    obtain ⟨q, hq, rfl⟩ := (Rowset.checkedSelect_eq_ok_iff hxy).1 hselected
    constructor
    · intro x' hkept
      obtain ⟨q', hq', rfl⟩ := (Rowset.checkedSelect_eq_ok_iff hx'.wellFormed).1 hkept
      cases Predicate.resolve_eq_of_subset hs (List.subset_append_left _ _) hq' hq
      have hwell := Predicate.wellTyped_of_resolve_eq_ok hq'
      rw [Rowset.checkedProduct_relation (hx'.keep q) hy' hs,
        Rowset.keep_product_left hx'.wellFormed hwell]
    · intro y' hkept
      obtain ⟨q', hq', rfl⟩ := (Rowset.checkedSelect_eq_ok_iff hy'.wellFormed).1 hkept
      cases Predicate.resolve_eq_of_subset hs (List.subset_append_right _ _) hq' hq
      have hwell := Predicate.wellTyped_of_resolve_eq_ok hq'
      have hdisjoint : ∀ a ∈ y.schema, a ∉ x.schema := by
        rw [List.map_append, List.nodup_append] at hs
        intro a ha ha'
        exact hs.2.2 _ (List.mem_map_of_mem ha') _ (List.mem_map_of_mem ha) rfl
      rw [Rowset.checkedProduct_relation hx' (hy'.keep q) hs,
        Rowset.keep_product_right hx'.wellFormed hwell hdisjoint]
  · intro xy selected x' hxy hselected hkept
    have hjoin : x.relation.join y.relation = (x.join y).relation := hx'.join_relation hy'
    cases hxy
    rw [hjoin] at hselected
    have hxy := (hx'.join hy').wellFormed
    obtain ⟨q, hq, rfl⟩ := (Rowset.checkedSelect_eq_ok_iff hxy).1 hselected
    obtain ⟨q', hq', rfl⟩ := (Rowset.checkedSelect_eq_ok_iff hx'.wellFormed).1 hkept
    have hs := Schema.nodup_paths_append_added hx'.schema.distinct hy'.schema.distinct
    cases Predicate.resolve_eq_of_subset hs (List.subset_append_left _ _) hq' hq
    have hwell := Predicate.wellTyped_of_resolve_eq_ok hq'
    rw [Checked.join, (hx'.keep q).join_relation hy', Rowset.keep_join_left hx'.wellFormed hwell]

/-- The bare name `a` is ambiguous in the product and names the left column in the join. -/
theorem select_pushdown_shared_name :
    let s : Schema := [⟨"x", "a", .number⟩, ⟨"x", "b", .string⟩]
    let t : Schema := [⟨"y", "a", .number⟩, ⟨"y", "c", .number⟩]
    let x := Rowset.relation ⟨s, [[.number 1, .text "u"], [.number 2, .text "v"]]⟩
    let y := Rowset.relation ⟨t, [[.number 2, .number 7], [.number 1, .number 8],
      [.number 2, .number 9]]⟩
    let left : Predicate Reference :=
      .and (.compare .gt (.named (.qualified "x" "a")) (.literal (.number 1)))
        (.not (.compare .eq (.named (.bare "b")) (.literal (.text "u"))))
    let right : Predicate Reference := .compare .lt (.named (.bare "c")) (.literal (.number 8))
    let joined : Predicate Reference := .compare .eq (.literal (.number 2)) (.named (.bare "a"))
    x.Sound ∧ y.Sound ∧
    (∃ x' r, Checked.select x left = .ok x' ∧ Checked.select (x.product y) left = .ok r ∧
      Checked.product x' y = .ok r ∧ r.size = 3) ∧
    (∃ y' r, Checked.select y right = .ok y' ∧ Checked.select (x.product y) right = .ok r ∧
      Checked.product x y' = .ok r ∧ r.size = 2) ∧
    ∃ x' r, Checked.select x joined = .ok x' ∧ Checked.select (x.join y) joined = .ok r ∧
      Checked.join x' y = .ok r ∧
      r.rows = [[.number 2, .text "v", .number 7], [.number 2, .text "v", .number 9]] := by
  intro s t x y left right joined
  have hx : x.Sound := by decide
  have hy : y.Sound := by decide
  have product : Checked.product x y = .ok (x.product y) := Checked.product_of_nodup (by decide)
  have left_x : Checked.select x left = .ok ⟨s, x.tuples.drop 1⟩ := by decide
  have left_xy : Checked.select (x.product y) left =
      .ok ⟨s ++ t, (x.product y).tuples.drop 3⟩ := by decide
  have right_y : Checked.select y right = .ok ⟨t, y.tuples.take 1⟩ := by decide
  have right_xy : Checked.select (x.product y) right =
      .ok ⟨s ++ t, [0, 3].filterMap ((x.product y).tuples[·]?)⟩ := by decide
  have joined_x : Checked.select x joined = .ok ⟨s, x.tuples.drop 1⟩ := by decide
  have joined_xy : Checked.select (x.join y) joined =
      .ok ⟨(x.join y).schema, (x.join y).tuples.drop 1⟩ := by decide
  refine ⟨hx, hy, ⟨_, _, left_x, left_xy, ?_, by decide⟩, ⟨_, _, right_y, right_xy, ?_, by decide⟩,
    _, _, joined_x, joined_xy, ?_, by decide⟩
  · exact ((select_pushdown hx hy left).1 _ _ product left_xy).1 _ left_x
  · exact ((select_pushdown hx hy right).1 _ _ product right_xy).2 _ right_y
  · exact (select_pushdown hx hy joined).2 _ _ _ rfl joined_xy joined_x

end Relation

end RelationalAlgebra
