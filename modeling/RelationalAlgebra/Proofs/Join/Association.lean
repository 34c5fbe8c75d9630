import RelationalAlgebra.Proofs.Join
import RelationalAlgebra.Proofs.Semantics

/-!
# Products and joins associate

Products and joins may be grouped in any way: the result is the same relation, with the columns and
the tuples in the same order (`Relation.join_product_assoc`). For products this is so because
merging tuples associates, whatever their names. For joins it is so because equality is transitive:
three rows are joined, in either grouping, when each two of them agree, even if a column through
which two of them are compared is dropped before they meet (`Rowset.agree_assoc`).
-/
namespace RelationalAlgebra

namespace Rowset

section Rows
variable {s t u : Schema} {row more last : List Value}

theorem agree_assoc (hrow : row.length = s.length) (hmore : more.length = t.length) :
    (agree s t row more && agree (s ++ s.added t) u (row ++ t.pick (s.added t) more) last) =
      (agree s (t ++ t.added u) row (more ++ u.pick (t.added u) last) &&
        agree t u more last) := by
  cases h : agree s t row more with
  | true =>
    rw [agree_joined_left hrow h]
    cases h' : agree t u more last with
    | true => simp [agree_joined_right hmore h', h]
    | false => simp
  | false =>
    cases h' : agree t u more last with
    | true => simp [agree_joined_right hmore h', h]
    | false => simp

/-- Both groupings put the same values behind the row of the first operand. -/
theorem joined_assoc (row : List Value) (hmore : more.length = t.length) :
    row ++ t.pick (s.added t) more ++ u.pick ((s ++ s.added t).added u) last =
      row ++ (t ++ t.added u).pick (s.added (t ++ t.added u))
        (more ++ u.pick (t.added u) last) := by
  have hmiddle : (t ++ t.added u).pick (s.added t) (more ++ u.pick (t.added u) last) =
      t.pick (s.added t) more := Schema.pick_append_left hmore (Schema.added_subset s t)
  have hlast : (t ++ t.added u).pick (s.added (t.added u)) (more ++ u.pick (t.added u) last) =
      u.pick (s.added (t.added u)) last := by
    have hnew : ∀ c ∈ s.added (t.added u), c ∉ t := fun c hc =>
      Schema.not_mem_of_mem_added (Schema.added_subset _ _ hc)
    rw [Schema.pick_append_right hmore hnew, Schema.pick_pick (Schema.added_subset _ _)]
  rw [Schema.append_added_added, Schema.added_append, Schema.pick_append, hmiddle, hlast,
    List.append_assoc]

end Rows

variable {x y z : Rowset}

theorem flatMap_filter {α β : Type} (p : α → Bool) (f : α → List β) (l : List α) :
    (l.filter p).flatMap f = l.flatMap fun a => if p a then f a else [] := by
  induction l with
  | nil => rfl
  | cons a l ih => cases h : p a <;> simp [h, ih]

theorem join_assoc (hx : x.Sound) (hy : y.Sound) (z : Rowset) :
    (x.join y).join z = x.join (y.join z) := by
  simp only [join, combineRows, Rowset.mk.injEq]
  constructor
  · rw [Schema.append_added_added, Schema.added_append, List.append_assoc]
  · simp only [List.flatMap_assoc, List.flatMap_map, List.filter_flatMap, List.map_flatMap,
      flatMap_filter, List.filter_map, List.filter_filter, List.map_map]
    apply List.flatMap_congr
    intro row hrow
    apply List.flatMap_congr
    intro more hmore
    have hrow := (hx.rows row hrow).length_eq
    have hmore := (hy.rows more hmore).length_eq
    simp only [Function.comp_def, ← joined_assoc row hmore, ← agree_assoc hrow hmore]
    cases agree x.schema y.schema row more <;> simp

end Rowset

namespace Relation
variable {x y z : Relation}

theorem Sound.join_assoc (hx : x.Sound) (hy : y.Sound) (hz : z.Sound) :
    (x.join y).join z = x.join (y.join z) := by
  obtain ⟨x, hx', rfl⟩ := hx.exists_rowset
  obtain ⟨y, hy', rfl⟩ := hy.exists_rowset
  obtain ⟨z, hz', rfl⟩ := hz.exists_rowset
  rw [hx'.join_relation hy', (hx'.join hy').join_relation hz', hy'.join_relation hz',
    hx'.join_relation (hy'.join hz'), Rowset.join_assoc hx' hy']

theorem product_assoc (x y z : Relation) :
    (x.product y).product z = x.product (y.product z) := by
  have hmerge : ∀ t u : Tuple, (t.merge u).merge = t.merge ∘ u.merge := fun t u =>
    funext (NameMap.merge_assoc t u)
  simp only [product, List.append_assoc, List.flatMap_assoc, List.flatMap_map, List.map_flatMap,
    List.map_map, hmerge]

namespace Checked

/-- Whether names meet in the inner or in the outer product, the nested product is ambiguous. -/
theorem product_product_left (x y z : Relation) :
    (do product (← product x y) z) =
      if ((x.schema ++ y.schema ++ z.schema).map Attribute.path).Nodup
      then .ok ((x.product y).product z) else .error .ambiguousProduct := by
  by_cases h : ((x.schema ++ y.schema).map Attribute.path).Nodup
  · rw [product_of_nodup h]
    rfl
  · have hall : ¬((x.schema ++ y.schema ++ z.schema).map Attribute.path).Nodup := by
      rw [List.map_append]
      exact fun hall => h hall.of_append_left
    rw [product_of_not_nodup h, if_neg hall]
    rfl

theorem product_product_right (x y z : Relation) :
    (do product x (← product y z)) =
      if ((x.schema ++ y.schema ++ z.schema).map Attribute.path).Nodup
      then .ok (x.product (y.product z)) else .error .ambiguousProduct := by
  rw [List.append_assoc]
  by_cases h : ((y.schema ++ z.schema).map Attribute.path).Nodup
  · rw [product_of_nodup h]
    rfl
  · have hall : ¬((x.schema ++ (y.schema ++ z.schema)).map Attribute.path).Nodup := by
      rw [List.map_append]
      exact fun hall => h hall.of_append_right
    rw [product_of_not_nodup h, if_neg hall]
    rfl

end Checked

/-- Sound relations may be joined in either grouping, and multiplied in either grouping: both
products are ambiguous, or both succeed with one result. -/
theorem join_product_assoc (hx : x.Sound) (hy : y.Sound) (hz : z.Sound) :
    (x.join y).join z = x.join (y.join z) ∧
    let left := do Checked.product (← Checked.product x y) z
    let right := do Checked.product x (← Checked.product y z)
    (left = .error .ambiguousProduct ∧ right = .error .ambiguousProduct) ∨
      ∃ r, left = .ok r ∧ right = .ok r := by
  refine ⟨hx.join_assoc hy hz, ?_⟩
  rw [Checked.product_product_left, Checked.product_product_right, product_assoc]
  split
  · exact .inr ⟨_, rfl, rfl⟩
  · exact .inl ⟨rfl, rfl⟩

/-- The first operand has two columns `a`, and the columns `a` of the other two are compared with
each other in one grouping only. -/
theorem join_product_assoc_three_columns :
    let x := Rowset.relation ⟨[⟨"o", "a", .number⟩, ⟨"p", "a", .number⟩],
      [[.number 1, .number 1], [.number 1, .number 2], [.number 2, .number 2]]⟩
    let y := Rowset.relation ⟨[⟨"q", "a", .number⟩, ⟨"q", "b", .string⟩],
      [[.number 1, .text "u"], [.number 2, .text "v"]]⟩
    let z := Rowset.relation ⟨[⟨"r", "b", .string⟩, ⟨"r", "a", .number⟩, ⟨"r", "c", .number⟩],
      [[.text "u", .number 1, .number 8], [.text "u", .number 1, .number 7],
        [.text "v", .number 1, .number 9]]⟩
    x.Sound ∧ y.Sound ∧ z.Sound ∧
    (x.join y).join z = x.join (y.join z) ∧
    (x.join (y.join z)).rows = [[.number 1, .number 1, .text "u", .number 8],
      [.number 1, .number 1, .text "u", .number 7]] ∧
    ∃ r, (do Checked.product (← Checked.product x y) z) = .ok r ∧
      (do Checked.product x (← Checked.product y z)) = .ok r ∧ r.size = 18 := by
  intro x y z
  have hx : x.Sound := by decide
  have hy : y.Sound := by decide
  have hz : z.Sound := by decide
  obtain ⟨joins, products⟩ := join_product_assoc hx hy hz
  have succeeds : (do Checked.product (← Checked.product x y) z) =
      .ok ((x.product y).product z) := by
    rw [Checked.product_product_left, if_pos (by decide)]
  refine ⟨hx, hy, hz, joins, by decide, ?_⟩
  rcases products with ⟨fails, _⟩ | ⟨r, left, right⟩
  · rw [succeeds] at fails
    cases fails
  · refine ⟨r, left, right, ?_⟩
    rw [succeeds] at left
    cases left
    rfl

end Relation

end RelationalAlgebra
