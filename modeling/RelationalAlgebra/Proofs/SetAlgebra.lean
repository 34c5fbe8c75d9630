import RelationalAlgebra.Proofs.Rowset.Simulation

/-!
# Laws of the set operators

The set operators tell tuples apart by the texts of their values, one behind the other, and never
look for repeated tuples. The laws of sets hold all the same, as equalities of lists
(`Relation.set_laws`). Each operator only asks which texts occur in an operand
(`Rowset.mem_texts_union` and those beside it), every tuple keeps its text when a union moves it
under other names, and each side of a law filters the same tuples by the same question.
-/
namespace RelationalAlgebra

namespace Rowset
variable {x y z : Rowset} {t : String}

def texts (x : Rowset) : List String := x.rows.map text

/-- A set operation on rows, whatever the types of the columns. -/
def set (op : SetOperation) (x y : Rowset) : Rowset := ⟨x.schema, combineRows (.set op) x y⟩

/-! ### Rows -/

theorem rows_union (x y : Rowset) :
    (set .union x y).rows = x.rows ++ y.rows.filter fun row => text row ∉ x.texts := rfl

theorem rows_intersection (x y : Rowset) :
    (set .intersection x y).rows = x.rows.filter fun row => text row ∈ y.texts := rfl

theorem rows_difference (x y : Rowset) :
    (set .difference x y).rows = x.rows.filter fun row => text row ∉ y.texts := rfl

theorem mem_texts_of_mem {row : List Value} (h : row ∈ x.rows) : text row ∈ x.texts :=
  List.mem_map_of_mem h

theorem mem_texts_filter (rows : List (List Value)) (keep : String → Bool) :
    t ∈ (rows.filter fun row => keep (text row)).map text ↔ t ∈ rows.map text ∧ keep t := by
  rw [← List.mem_filter, List.filter_map]
  rfl

theorem mem_texts_union : t ∈ (set .union x y).texts ↔ t ∈ x.texts ∨ t ∈ y.texts := by
  have hnew := mem_texts_filter (t := t) y.rows fun text => text ∉ x.texts
  rw [decide_eq_true_eq] at hnew
  rw [texts, rows_union, List.map_append, List.mem_append, hnew]
  constructor
  · exact Or.imp_right And.left
  · intro h
    by_cases hx : t ∈ x.texts
    · exact .inl hx
    · exact .inr ⟨h.resolve_left hx, hx⟩

theorem mem_texts_intersection :
    t ∈ (set .intersection x y).texts ↔ t ∈ x.texts ∧ t ∈ y.texts := by
  rw [texts, rows_intersection, mem_texts_filter x.rows fun text => text ∈ y.texts,
    decide_eq_true_eq]
  rfl

theorem mem_texts_difference :
    t ∈ (set .difference x y).texts ↔ t ∈ x.texts ∧ t ∉ y.texts := by
  rw [texts, rows_difference, mem_texts_filter x.rows fun text => text ∉ y.texts,
    decide_eq_true_eq]
  rfl

theorem eq_of_rows (hs : x.schema = y.schema) (hr : x.rows = y.rows) : x = y := by
  cases x
  cases y
  cases hs
  cases hr
  rfl

/-- The rows of `z` that are new to a union are new to its left operand and to its right one. -/
theorem union_assoc (x y z : Rowset) :
    set .union (set .union x y) z = set .union x (set .union y z) := by
  refine eq_of_rows rfl ?_
  simp only [rows_union, mem_texts_union, List.filter_append, List.filter_filter,
    List.append_assoc, not_or, Bool.decide_and]

theorem difference_union (x y z : Rowset) :
    set .difference x (set .union y z) = set .difference (set .difference x y) z := by
  refine eq_of_rows rfl ?_
  simp only [rows_difference, mem_texts_union, List.filter_filter]
  apply List.filter_congr
  intro row _
  rw [← Bool.decide_and]
  exact decide_eq_decide.2 (not_or.trans and_comm)

theorem difference_difference (x y : Rowset) :
    set .difference x (set .difference x y) = set .intersection x y := by
  refine eq_of_rows rfl ?_
  rw [rows_difference, rows_intersection]
  apply List.filter_congr
  intro row hrow
  have hx := mem_texts_of_mem hrow
  simp [mem_texts_difference, hx]

theorem union_intersection_self (x y : Rowset) :
    set .intersection (set .union x y) x = x := by
  refine eq_of_rows rfl ?_
  rw [rows_intersection, rows_union, List.filter_append, List.filter_filter]
  have hold : (x.rows.filter fun row => text row ∈ x.texts) = x.rows :=
    List.filter_eq_self.2 fun row hrow => decide_eq_true (mem_texts_of_mem hrow)
  have hnew : (y.rows.filter fun row => text row ∈ x.texts && text row ∉ x.texts) = [] :=
    List.filter_eq_nil_iff.2 fun row _ => by simp
  rw [hold, hnew, List.append_nil]

theorem union_eq_left (h : ∀ t ∈ y.texts, t ∈ x.texts) : set .union x y = x := by
  refine eq_of_rows rfl ?_
  have hnew : (y.rows.filter fun row => text row ∉ x.texts) = [] := by
    apply List.filter_eq_nil_iff.2
    intro row hrow
    simpa using h _ (mem_texts_of_mem hrow)
  rw [rows_union, hnew, List.append_nil]

theorem union_intersection (x y : Rowset) : set .union x (set .intersection x y) = x :=
  union_eq_left fun _ h => (mem_texts_intersection.1 h).1

theorem union_self (x : Rowset) : set .union x x = x := union_eq_left fun _ h => h

/-! ### Relations -/

theorem combine_set (op : SetOperation) (h : x.schema.types = y.schema.types) :
    combine (.set op) x y = .ok (set op x y) := by
  rw [combine, Schema.combine, if_pos h]
  rfl

theorem WellFormed.set (hx : x.WellFormed) (hy : y.WellFormed) (op : SetOperation)
    (h : x.schema.types = y.schema.types) : (set op x y).WellFormed := by
  have hschema : x.schema.combine (.set op) y.schema = .ok x.schema := if_pos h
  exact ⟨hx.distinct, fun _ hrow => admits_of_mem_combineRows hx hy hschema hrow⟩

theorem WellFormed.checkedSet (hx : x.WellFormed) (hy : y.WellFormed) (op : SetOperation)
    (h : x.schema.types = y.schema.types) :
    Relation.Checked.set op x.relation y.relation = .ok (Rowset.set op x y).relation := by
  rw [set_relation hx hy, combine_set op h]
  rfl

end Rowset

namespace Relation
variable {x y z : Relation}

namespace Checked

theorem set_of_not_compatible (op : SetOperation) (h : ¬Compatible x y) :
    set op x y = .error (.arityMismatch op) := if_neg h

/-- Unless all three fit together, a union of three fails in either grouping. -/
theorem union_of_not_compatible (h : ¬(Compatible x y ∧ Compatible x z)) :
    (do union (← union x y) z) = .error (.arityMismatch .union) ∧
      (do union x (← union y z)) = .error (.arityMismatch .union) := by
  constructor
  · by_cases hxy : Compatible x y
    · have hz : ¬Compatible (x.union y) z := fun hz => h ⟨hxy, hz⟩
      rw [union, set, if_pos hxy]
      exact set_of_not_compatible .union hz
    · rw [union, set_of_not_compatible .union hxy]
      rfl
  · by_cases hyz : Compatible y z
    · have hx : ¬Compatible x (y.union z) := fun hx => h ⟨hx, hx.trans hyz⟩
      rw [union, set, if_pos hyz]
      exact set_of_not_compatible .union hx
    · rw [union, set_of_not_compatible .union hyz]
      rfl

end Checked

/-- The laws of the set operators on three relations. No operator fails, and equal means equal in
schema and tuples, with their order and their repetitions. -/
structure SetLaws (x y z : Relation) : Prop where
  union_assoc : ∃ r, (do Checked.union (← Checked.union x y) z) = .ok r ∧
    (do Checked.union x (← Checked.union y z)) = .ok r
  difference_union : ∃ r, (do Checked.difference x (← Checked.union y z)) = .ok r ∧
    (do Checked.difference (← Checked.difference x y) z) = .ok r
  difference_difference : ∃ r, (do Checked.difference x (← Checked.difference x y)) = .ok r ∧
    Checked.intersection x y = .ok r
  union_intersection_self : (do Checked.intersection (← Checked.union x y) x) = .ok x
  union_intersection : (do Checked.union x (← Checked.intersection x y)) = .ok x
  union_self : Checked.union x x = .ok x
  /-- Intersection and difference deal out the tuples of `x` between them. -/
  split : ∃ common rest, Checked.intersection x y = .ok ⟨x.schema, common⟩ ∧
    Checked.difference x y = .ok ⟨x.schema, rest⟩ ∧
    x.tuples.partition (fun t => identity x.schema.qualifiedNames t ∈ y.identities) = (common, rest)

end Relation

namespace Rowset
variable {x y z : Rowset}

theorem WellFormed.setLaws (hx : x.WellFormed) (hy : y.WellFormed) (hz : z.WellFormed)
    (hxy : x.schema.types = y.schema.types) (hxz : x.schema.types = z.schema.types) :
    Relation.SetLaws x.relation y.relation z.relation := by
  have hyz : y.schema.types = z.schema.types := hxy.symm.trans hxz
  have union_xy := hx.checkedSet hy .union hxy
  have union_yz := hy.checkedSet hz .union hyz
  have intersection_xy := hx.checkedSet hy .intersection hxy
  have difference_xy := hx.checkedSet hy .difference hxy
  constructor
  case union_assoc =>
    refine ⟨(Rowset.set .union x (Rowset.set .union y z)).relation, ?_, ?_⟩
    · rw [Relation.Checked.union, union_xy, ← union_assoc]
      exact (hx.set hy .union hxy).checkedSet hz .union hxz
    · rw [Relation.Checked.union, union_yz]
      exact hx.checkedSet (hy.set hz .union hyz) .union hxy
  case difference_union =>
    refine ⟨(Rowset.set .difference x (Rowset.set .union y z)).relation, ?_, ?_⟩
    · rw [Relation.Checked.union, union_yz]
      exact hx.checkedSet (hy.set hz .union hyz) .difference hxy
    · rw [Relation.Checked.difference, difference_xy, difference_union]
      exact (hx.set hy .difference hxy).checkedSet hz .difference hxz
  case difference_difference =>
    refine ⟨(Rowset.set .intersection x y).relation, ?_, intersection_xy⟩
    rw [Relation.Checked.difference, difference_xy, ← difference_difference]
    exact hx.checkedSet (hx.set hy .difference hxy) .difference rfl
  case union_intersection_self =>
    rw [Relation.Checked.union, union_xy]
    have hset := (hx.set hy .union hxy).checkedSet hx .intersection rfl
    rwa [union_intersection_self] at hset
  case union_intersection =>
    rw [Relation.Checked.intersection, intersection_xy]
    have hset := hx.checkedSet (hx.set hy .intersection hxy) .union rfl
    rwa [union_intersection] at hset
  case union_self =>
    have hset := hx.checkedSet hx .union rfl
    rwa [union_self] at hset
  case split =>
    exact ⟨_, _, if_pos hxy, if_pos hxy, Relation.partition_decide _ _⟩

end Rowset

namespace Relation
variable {x y z : Relation}

/-- Three relations that fit together obey the laws of sets, coarse as the identity of tuples may be
and whichever of them are repeated. If they do not all fit, both groupings of their union fail. -/
theorem set_laws (hx : make x.schema x.tuples = .ok x) (hy : make y.schema y.tuples = .ok y)
    (hz : make z.schema z.tuples = .ok z) :
    (Checked.Compatible x y ∧ Checked.Compatible x z → SetLaws x y z) ∧
    (¬(Checked.Compatible x y ∧ Checked.Compatible x z) →
      (do Checked.union (← Checked.union x y) z) = .error (.arityMismatch .union) ∧
        (do Checked.union x (← Checked.union y z)) = .error (.arityMismatch .union)) := by
  refine ⟨?_, Checked.union_of_not_compatible⟩
  rintro ⟨hxy, hxz⟩
  have hx' := (make_eq_ok_iff.1 hx).2
  have hy' := (make_eq_ok_iff.1 hy).2
  have hz' := (make_eq_ok_iff.1 hz).2
  have hlaws := hx'.rowset.setLaws hy'.rowset hz'.rowset hxy hxz
  rwa [hx'.relation_rowset, hy'.relation_rowset, hz'.relation_rowset] at hlaws

/-- Rows that differ and have one text, repeated rows, and columns that go by other names. -/
theorem set_laws_split_texts :
    let x := Rowset.relation ⟨[⟨"x", "a", .string⟩, ⟨"x", "b", .number⟩],
      [[.text "1", .number 23], [.text "4", .number 5], [.text "4", .number 5]]⟩
    let y := Rowset.relation ⟨[⟨"y", "c", .string⟩, ⟨"y", "d", .number⟩],
      [[.text "12", .number 3], [.text "6", .number 7], [.text "6", .number 7]]⟩
    let z := Rowset.relation ⟨[⟨"x", "b", .string⟩, ⟨"x", "a", .number⟩],
      [[.text "67", .number 8], [.text "45", .number 0]]⟩
    make x.schema x.tuples = .ok x ∧ make y.schema y.tuples = .ok y ∧
    make z.schema z.tuples = .ok z ∧ SetLaws x y z ∧
    (do Checked.union x (← Checked.union y z)).map rows = .ok [[.text "1", .number 23],
      [.text "4", .number 5], [.text "4", .number 5], [.text "6", .number 7],
      [.text "6", .number 7], [.text "67", .number 8], [.text "45", .number 0]] ∧
    (Checked.intersection x y).map rows = .ok [[.text "1", .number 23]] := by
  intro x y z
  have hx : make x.schema x.tuples = .ok x := by decide
  have hy : make y.schema y.tuples = .ok y := by decide
  have hz : make z.schema z.tuples = .ok z := by decide
  have hlaws := (set_laws hx hy hz).1 (by decide)
  exact ⟨hx, hy, hz, hlaws, by decide, by decide⟩

end Relation

end RelationalAlgebra
