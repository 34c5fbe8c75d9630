import RelationalAlgebra.Proofs.Rowset.Simulation

/-!
# Joined rows

The join of sound relations is the join of their rowsets (`Rowset.Sound.join_relation`). A joined
row holds the values of its left part, and those of its right part under the names that are new.
Under the other names the right part holds what the left part holds, so a further row agrees with
the joined row exactly when it agrees with both parts (`Rowset.agree_joined_left`).
-/
namespace RelationalAlgebra

/-! ### Joined schemas -/

namespace Schema
variable {s t u : Schema} {a b : Attribute} {name : String}

theorem mem_added_iff : b ∈ s.added t ↔ b ∈ t ∧ b.name ∉ s.bareNames := by
  simp [added]

theorem not_mem_of_mem_added (h : b ∈ s.added t) : b ∉ s := fun hb =>
  (mem_added_iff.1 h).2 (List.mem_map_of_mem hb)

theorem added_append (s t u : Schema) : s.added (t ++ u) = s.added t ++ s.added u :=
  List.filter_append ..

theorem added_of_unshared (h : ∀ a ∈ s, a.name ∉ t.bareNames) : s.added t = t := by
  apply List.filter_eq_self.2
  intro b hb
  rw [decide_eq_true_eq]
  intro hname
  obtain ⟨a, ha, heq⟩ := List.mem_map.1 hname
  exact h a ha (heq ▸ List.mem_map_of_mem hb)

theorem mem_bareNames_append_added :
    name ∈ (s ++ s.added t).bareNames ↔ name ∈ s.bareNames ∨ name ∈ t.bareNames := by
  rw [bareNames, List.map_append, List.mem_append]
  constructor
  · rintro (hname | hname)
    · exact .inl hname
    · exact .inr (List.map_subset _ (added_subset s t) hname)
  · rintro (hname | hname)
    · exact .inl hname
    · by_cases hs : name ∈ s.bareNames
      · exact .inl hs
      · obtain ⟨b, hb, rfl⟩ := List.mem_map.1 hname
        exact .inr (List.mem_map_of_mem (mem_added_iff.2 ⟨hb, hs⟩))

/-- What a third schema adds to a joined one is what it adds to both parts. -/
theorem append_added_added (s t u : Schema) :
    (s ++ s.added t).added u = s.added (t.added u) := by
  simp only [added, List.filter_filter, ← Bool.decide_and]
  apply List.filter_congr
  intro c _
  apply decide_eq_decide.2
  exact (not_congr mem_bareNames_append_added).trans not_or

end Schema

namespace Rowset

/-! ### Agreement -/

section Agreement
variable {s t u : Schema} {row more last : List Value}

theorem agree_iff : agree s t row more = true ↔
    ∀ a ∈ s, ∀ b ∈ t, a.name = b.name → s.value row a = t.value more b := by
  simp only [agree, List.all_eq_true, decide_eq_true_eq]

theorem agree_comm (s t : Schema) (row more : List Value) :
    agree s t row more = agree t s more row := by
  rw [Bool.eq_iff_iff, agree_iff, agree_iff]
  constructor
  · exact fun h b hb a ha hname => (h a ha b hb hname.symm).symm
  · exact fun h a ha b hb hname => (h b hb a ha hname.symm).symm

theorem value_joined_added (hrow : row.length = s.length) {b : Attribute} (hb : b ∈ s.added t) :
    (s ++ s.added t).value (row ++ t.pick (s.added t) more) b = t.value more b := by
  rw [Schema.value_append_right hrow (Schema.not_mem_of_mem_added hb), Schema.value_pick hb]

/-- A row agrees with a joined row exactly when it agrees with both of its parts. -/
theorem agree_joined_left (hrow : row.length = s.length) (h : agree s t row more = true) :
    agree (s ++ s.added t) u (row ++ t.pick (s.added t) more) last =
      (agree s u row last && agree t u more last) := by
  rw [Bool.eq_iff_iff, Bool.and_eq_true, agree_iff, agree_iff, agree_iff]
  rw [agree_iff] at h
  constructor
  · intro hjoined
    have hleft : ∀ a ∈ s, ∀ c ∈ u, a.name = c.name → s.value row a = u.value last c := by
      intro a ha c hc hname
      rw [← hjoined a (List.mem_append_left _ ha) c hc hname, Schema.value_append_left hrow ha]
    refine ⟨hleft, ?_⟩
    intro b hb c hc hname
    by_cases hshared : b.name ∈ s.bareNames
    · -- The joined row has no column `b`: the value is the one that `s` holds under this name.
      obtain ⟨a, ha, hab⟩ := List.mem_map.1 hshared
      rw [← h a ha b hb hab, hleft a ha c hc (hab.trans hname)]
    · have hadded := Schema.mem_added_iff.2 ⟨hb, hshared⟩
      rw [← hjoined b (List.mem_append_right _ hadded) c hc hname, value_joined_added hrow hadded]
  · rintro ⟨hleft, hright⟩ a ha c hc hname
    rcases List.mem_append.1 ha with ha | ha
    · rw [Schema.value_append_left hrow ha, hleft a ha c hc hname]
    · rw [value_joined_added hrow ha, hright a (Schema.added_subset s t ha) c hc hname]

theorem agree_joined_right (hrow : row.length = t.length) (h : agree t u row more = true)
    {first : List Value} :
    agree s (t ++ t.added u) first (row ++ u.pick (t.added u) more) =
      (agree s t first row && agree s u first more) := by
  rw [agree_comm, agree_joined_left hrow h, agree_comm t s, agree_comm u s]

end Agreement

/-! ### Products and joins of rowsets -/

variable {x y : Rowset}

/-- All pairs of rows. -/
def product (x y : Rowset) : Rowset := ⟨x.schema ++ y.schema, combineRows .product x y⟩

/-- The pairs of rows that agree, without the columns of the right row whose names the left has. -/
def join (x y : Rowset) : Rowset := ⟨x.schema ++ x.schema.added y.schema, combineRows .join x y⟩

theorem combine_product (h : ((x.schema ++ y.schema).map Attribute.path).Nodup) :
    combine .product x y = .ok (x.product y) := by
  rw [combine, Schema.combine, if_pos h]
  rfl

theorem combine_join (x y : Rowset) : combine .join x y = .ok (x.join y) := rfl

theorem checkedProduct_relation (hx : x.Sound) (hy : y.Sound)
    (hs : ((x.schema ++ y.schema).map Attribute.path).Nodup) :
    Relation.Checked.product x.relation y.relation = .ok (x.product y).relation := by
  rw [product_relation hx hy, combine_product hs]
  rfl

theorem Sound.product (hx : x.Sound) (hy : y.Sound)
    (hs : ((x.schema ++ y.schema).map Attribute.path).Nodup) : (x.product y).Sound :=
  hx.combine hy (combine_product hs)

theorem Sound.join (hx : x.Sound) (hy : y.Sound) : (x.join y).Sound :=
  hx.combine hy (combine_join x y)

theorem Sound.join_relation (hx : x.Sound) (hy : y.Sound) :
    x.relation.join y.relation = (x.join y).relation :=
  rawJoin_relation hx.wellFormed hy.wellFormed (hx.schema.append_added hy.schema).distinct

end Rowset

namespace Relation
variable {x y r : Relation}

theorem Sound.exists_rowset (hr : r.Sound) : ∃ x : Rowset, x.Sound ∧ x.relation = r :=
  ⟨r.rowset, hr.rowset, hr.relation_rowset⟩

theorem Checked.product_of_nodup (h : ((x.schema ++ y.schema).map Attribute.path).Nodup) :
    product x y = .ok (x.product y) := if_pos h

theorem Checked.product_of_not_nodup (h : ¬((x.schema ++ y.schema).map Attribute.path).Nodup) :
    product x y = .error .ambiguousProduct := if_neg h

end Relation

end RelationalAlgebra
