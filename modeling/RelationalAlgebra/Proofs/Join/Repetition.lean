import Mathlib.Algebra.BigOperators.Group.List.Basic
import RelationalAlgebra.Proofs.Join

/-!
# The join of a relation with itself

If no two columns share a bare name, a tuple agrees with its own copies only, and a join with the
same relation has no new columns. The join therefore holds each tuple in its place, once for every
copy of it, and it is the relation itself exactly when no tuple is repeated
(`Relation.join_self_eq_iff`). Operators never look for repeated tuples, so the join of a relation
that repeats one is longer than the relation.
-/
namespace RelationalAlgebra

theorem Schema.added_self (s : Schema) : s.added s = [] := by
  apply List.filter_eq_nil_iff.2
  intro a ha hnew
  exact of_decide_eq_true hnew (List.mem_map_of_mem ha)

/-! ### Repeated elements -/

section Copies
variable {α : Type} [DecidableEq α]

/-- The elements, each as often as it occurs, at each place where it occurs. -/
def copies (l : List α) : List α := l.flatMap fun a => List.replicate (l.count a) a

theorem copies_eq_flatMap_filter (l : List α) :
    copies l = l.flatMap fun a => l.filter fun b => b = a := by
  simp only [copies, List.filter_eq]

theorem count_copies (l : List α) (a : α) : (copies l).count a = l.count a * l.count a := by
  have hothers : ∀ b, b ≠ a → b ∈ l → (List.replicate (l.count b) b).count a = 0 := by
    intro b hne _
    exact List.count_eq_zero.2 fun hmem => hne (List.eq_of_mem_replicate hmem).symm
  rw [copies, List.count_flatMap]
  calc (l.map (List.count a ∘ fun b => List.replicate (l.count b) b)).sum
      = l.count a • (List.replicate (l.count a) a).count a :=
        List.sum_map_eq_nsmul_single a _ hothers
    _ = l.count a * l.count a := by rw [List.count_replicate_self, Nat.nsmul_eq_mul]

theorem copies_eq_self_iff {l : List α} : copies l = l ↔ l.Nodup := by
  constructor
  · intro h
    apply List.nodup_iff_count_le_one.2
    intro a
    have hcount : l.count a * l.count a = l.count a := by rw [← count_copies, h]
    rcases Nat.eq_zero_or_pos (l.count a) with hzero | hpos
    · rw [hzero]
      exact Nat.zero_le 1
    · apply Nat.le_of_mul_le_mul_left _ hpos
      exact Nat.le_of_eq (by rw [hcount, Nat.mul_one])
  · intro h
    have honce : ∀ a ∈ l, List.replicate (l.count a) a = [a] := by
      intro a ha
      rw [List.count_eq_one_of_mem h ha, List.replicate_one]
    rw [copies, List.flatMap_congr honce, List.flatMap_singleton']

theorem copies_map {β : Type} [DecidableEq β] {f : α → β} {l : List α}
    (hf : ∀ a ∈ l, ∀ b ∈ l, f a = f b → a = b) : copies (l.map f) = (copies l).map f := by
  rw [copies_eq_flatMap_filter, copies_eq_flatMap_filter, List.flatMap_map, List.map_flatMap]
  apply List.flatMap_congr
  intro a ha
  rw [List.filter_map]
  congr 1
  apply List.filter_congr
  intro b hb
  exact decide_eq_decide.2 ⟨hf b hb a ha, congrArg f⟩

end Copies

/-! ### Rows that agree with themselves -/

namespace Rowset
variable {x : Rowset}

theorem agree_self_iff {s : Schema} {row more : List Value} (hs : s.bareNames.Nodup)
    (hrow : row.length = s.length) (hmore : more.length = s.length) :
    agree s s row more = true ↔ more = row := by
  rw [agree_iff]
  constructor
  · intro h
    calc more = s.pick s more := (Schema.pick_self hs.of_map hmore).symm
      _ = s.pick s row := List.map_congr_left fun a ha => (h a ha a ha rfl).symm
      _ = row := Schema.pick_self hs.of_map hrow
  · rintro rfl a ha b hb hname
    rw [List.inj_on_of_nodup_map hs ha hb hname]

theorem join_self (hx : x.WellFormed) (hs : x.schema.bareNames.Nodup) :
    x.join x = ⟨x.schema, copies x.rows⟩ := by
  simp only [join, combineRows, Schema.added_self, Schema.pick, List.map_nil, List.append_nil,
    copies_eq_flatMap_filter, Rowset.mk.injEq, true_and]
  apply List.flatMap_congr
  intro row hrow
  have hfilter : x.rows.filter (agree x.schema x.schema row) =
      x.rows.filter fun more => more = row := by
    apply List.filter_congr
    intro more hmore
    rw [Bool.eq_iff_iff, decide_eq_true_eq]
    exact agree_self_iff hs (hx.rows row hrow).length_eq (hx.rows more hmore).length_eq
  rw [hfilter]
  apply (List.map_congr_left _).trans (List.map_id _)
  intro more hmore
  exact (of_decide_eq_true (List.mem_filter.1 hmore).2).symm

theorem tupleOfRow_inj (hx : x.WellFormed) : ∀ row ∈ x.rows, ∀ more ∈ x.rows,
    Relation.tupleOfRow x.schema row = Relation.tupleOfRow x.schema more → row = more := by
  intro row hrow more hmore heq
  rw [← valuesAt_tupleOfRow hx hrow, heq, valuesAt_tupleOfRow hx hmore]

theorem relation_join_self (hx : x.WellFormed) (hs : x.schema.bareNames.Nodup) :
    x.relation.join x.relation = ⟨x.schema, copies x.relation.tuples⟩ := by
  have hnames : (x.schema ++ x.schema.added x.schema).qualifiedNames.Nodup := by
    rw [Schema.added_self, List.append_nil]
    exact hx.distinct
  have hjoin : x.relation.join x.relation = (x.join x).relation := rawJoin_relation hx hx hnames
  rw [hjoin, join_self hx hs]
  exact congrArg (Relation.mk x.schema) (copies_map (tupleOfRow_inj hx)).symm

end Rowset

namespace Relation
variable {r : Relation}

/-- The join of a relation with itself has the schema of the relation and, in its order, every tuple
as often as there are copies of it, at the place of each copy. It is the relation exactly when there
is one copy of each. -/
theorem join_self_eq_iff (hr : make r.schema r.tuples = .ok r) (hs : r.schema.bareNames.Nodup) :
    r.join r = ⟨r.schema, copies r.tuples⟩ ∧
    (r.join r = r ↔ r.tuples.Nodup) := by
  have hwf : r.WellFormed := (make_eq_ok_iff.1 hr).2
  have hjoin : r.join r = ⟨r.schema, copies r.tuples⟩ := by
    rw [← hwf.relation_rowset]
    exact Rowset.relation_join_self hwf.rowset hs
  refine ⟨hjoin, ?_⟩
  rw [← copies_eq_self_iff, hjoin]
  cases r
  simp only [Relation.mk.injEq, true_and]

/-- One of three tuples is repeated, and has two copies in either place. -/
theorem join_self_eq_iff_three_rows :
    let r := Rowset.relation ⟨[⟨"r", "a", .number⟩, ⟨"s", "b", .string⟩],
      [[.number 1, .text "u"], [.number 2, .text "u"], [.number 1, .text "u"]]⟩
    make r.schema r.tuples = .ok r ∧ r.schema.bareNames.Nodup ∧
    (r.join r).schema = r.schema ∧
    (r.join r).rows = [[.number 1, .text "u"], [.number 1, .text "u"], [.number 2, .text "u"],
      [.number 1, .text "u"], [.number 1, .text "u"]] := by
  intro r
  have hr : make r.schema r.tuples = .ok r := by decide
  have hs : r.schema.bareNames.Nodup := by decide
  obtain ⟨hjoin, _⟩ := join_self_eq_iff hr hs
  rw [hjoin]
  exact ⟨hr, hs, rfl, by decide⟩

/-- Joining a relation with itself need not give the relation, even if no two columns share a name:
of two equal tuples it makes four. -/
theorem join_self_ne_of_repeated_row :
    let r := Rowset.relation ⟨[⟨"r", "a", .number⟩], [[.number 1], [.number 1]]⟩
    make r.schema r.tuples = .ok r ∧ r.schema.bareNames.Nodup ∧ r.join r ≠ r ∧
    (r.join r).rows = [[.number 1], [.number 1], [.number 1], [.number 1]] := by
  decide

end Relation

end RelationalAlgebra
