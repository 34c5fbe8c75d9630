import RelationalAlgebra.Proofs.Resolution.Precedence
import RelationalAlgebra.Proofs.Selection.Pushdown

/-!
# Asking less of fewer columns

Whatever a relation answers from some of its columns, its projection to these columns answers as
well: projections in two steps are projections in one, and selecting by a predicate on the columns
that stay may be done before or after the others are dropped (`Relation.answers_narrowed`). Taking
columns away cannot change what a reference names as long as the named column stays; a bare name can
only lose rivals.
-/
namespace RelationalAlgebra

namespace Schema
variable {s t chosen : Schema} {references : List Reference}

theorem nodup_paths_of_subset (hs : (s.map Attribute.path).Nodup) (ht : t.Nodup) (h : t ⊆ s) :
    (t.map Attribute.path).Nodup := by
  apply List.Nodup.map_on _ ht
  intro a ha b hb heq
  exact List.inj_on_of_nodup_map hs (h ha) (h hb) heq

/-- A projection finds its columns in any part of the schema that has them. -/
theorem project_of_subset (hs : (s.map Attribute.path).Nodup) (ht : t.Nodup) (h : t ⊆ s)
    (hchosen : s.project references = .ok chosen) (hsub : chosen ⊆ t) :
    t.project references = .ok chosen := by
  obtain ⟨named, hnamed, heq⟩ := exists_of_bind_eq_ok hchosen
  cases heq
  have hnamedt : named ⊆ t := fun a ha => hsub (List.mem_eraseDups.2 ha)
  rw [project, Reference.resolveAll_of_subset hs h (nodup_paths_of_subset hs ht h) hnamed hnamedt]
  rfl

end Schema

/-- A predicate becomes the same in any part of the schema that has the columns it names. -/
theorem Predicate.resolve_of_subset {s t : Schema} (hs : (s.map Attribute.path).Nodup)
    (ht : t.Nodup) (hsub : t ⊆ s) {p : Predicate Reference} {q : Predicate Attribute}
    (h : p.resolve s = .ok q) (hnames : ∀ r ∈ p.names, ∃ a ∈ t, r.resolve s = .ok a) :
    p.resolve t = .ok q := by
  obtain ⟨f, hf, rfl, htypes⟩ := exists_map_of_resolve_eq_ok h
  have hpaths := Schema.nodup_paths_of_subset hs ht hsub
  have hresolve : ∀ r ∈ p.names, r.resolve t = .ok (f r) := by
    intro r hr
    obtain ⟨a, ha, hra⟩ := hnames r hr
    cases hra.symm.trans (hf r hr)
    exact Reference.resolve_of_subset hs hsub hpaths hra ha
  have hmap := resolve_map_eq_ok (g := id) hresolve htypes
  rwa [map_id] at hmap

namespace Rowset
variable {x : Rowset} {s t : Schema} {q : Predicate Attribute}

/-- The columns of a schema. -/
def narrow (x : Rowset) (s : Schema) : Rowset := ⟨s, x.rows.map (x.schema.pick s)⟩

/-- A projection that succeeds keeps the columns that its references name. -/
theorem checkedProject_eq_ok_iff (hx : x.WellFormed) {references : List Reference} {r : Relation} :
    Relation.Checked.project x.relation references = .ok r ↔
      ∃ s, x.schema.project references = .ok s ∧ r = (x.narrow s).relation := by
  rw [project_relation hx, project]
  cases x.schema.project references with
  | error e => simp [Except.map]
  | ok s => simp [narrow, Except.map, pure, Except.pure, eq_comm]

theorem WellFormed.narrow (hx : x.WellFormed) (hs : s.Nodup) (h : s ⊆ x.schema) :
    (x.narrow s).WellFormed := by
  refine ⟨Schema.distinct_of_subset hx.distinct hs h, ?_⟩
  intro row hrow
  obtain ⟨whole, hwhole, rfl⟩ := List.mem_map.1 hrow
  exact (hx.rows whole hwhole).pick h

theorem narrow_narrow (h : t ⊆ s) : (x.narrow s).narrow t = x.narrow t := by
  simp only [narrow, List.map_map]
  congr 1
  apply List.map_congr_left
  intro row _
  exact Schema.pick_pick h

/-- Rows may be kept before or after columns are dropped that the predicate does not name. -/
theorem keep_narrow (hq : q.WellTyped s) : (x.narrow s).keep q = (x.keep q).narrow s := by
  simp only [narrow, keep, List.filter_map]
  congr 2
  apply List.filter_congr
  intro row _
  exact (hq.holds_congr fun a ha => (Schema.value_pick ha).symm).symm

end Rowset

namespace Relation
variable {r chosen : Relation} {references : List Reference}

/-- After a projection, every projection to columns that have stayed gives what it gave before; and
every selection whose references name such columns succeeds and gives the projection of what it gave
before. -/
theorem answers_narrowed (hr : make r.schema r.tuples = .ok r)
    (hchosen : Checked.project r references = .ok chosen) :
    (∀ others s, Checked.project r others = .ok s → s.schema ⊆ chosen.schema →
      Checked.project chosen others = .ok s) ∧
    ∀ p selected, Checked.select r p = .ok selected →
      (∀ n ∈ p.names, ∃ a ∈ chosen.schema, n.resolve r.schema = .ok a) →
      ∃ s, Checked.select chosen p = .ok s ∧ Checked.project selected references = .ok s := by
  obtain ⟨x, hx, rfl⟩ := WellFormed.exists_rowset (r := r) (make_eq_ok_iff.1 hr).2
  have hpaths := Schema.nodup_paths_of_distinct hx.distinct
  obtain ⟨s, hs, rfl⟩ := (Rowset.checkedProject_eq_ok_iff hx).1 hchosen
  obtain ⟨hnodup, hsub⟩ := Schema.project_eq_ok hs
  have hnarrow := hx.narrow hnodup hsub
  constructor
  · intro others _ hothers hschema
    obtain ⟨t, ht, rfl⟩ := (Rowset.checkedProject_eq_ok_iff hx).1 hothers
    change t ⊆ s at hschema
    refine (Rowset.checkedProject_eq_ok_iff hnarrow).2 ⟨t, ?_, ?_⟩
    · exact Schema.project_of_subset hpaths hnodup hsub ht hschema
    · rw [Rowset.narrow_narrow hschema]
  · intro p _ hselected hnames
    obtain ⟨q, hq, rfl⟩ := (Rowset.checkedSelect_eq_ok_iff hx).1 hselected
    have hresolve := Predicate.resolve_of_subset hpaths hnodup hsub hq hnames
    refine ⟨_, (Rowset.checkedSelect_eq_ok_iff hnarrow).2 ⟨q, hresolve, rfl⟩, ?_⟩
    refine (Rowset.checkedProject_eq_ok_iff (hx.keep q)).2 ⟨s, hs, ?_⟩
    rw [Rowset.keep_narrow (Predicate.wellTyped_of_resolve_eq_ok hresolve)]

/-- Of three columns the projection keeps two, in another order; one of them is named twice, and the
bare name of the other is ambiguous before the projection. -/
theorem answers_narrowed_repeated_reference :
    let r := Rowset.relation ⟨[⟨"r", "a", .number⟩, ⟨"r", "b", .string⟩, ⟨"s", "b", .number⟩],
      [[.number 1, .text "u", .number 7], [.number 2, .text "v", .number 8],
        [.number 1, .text "w", .number 9]]⟩
    let references : List Reference := [.qualified "r" "b", .bare "a", .qualified "r" "b"]
    let p : Predicate Reference := .and (.compare .eq (.named (.bare "a")) (.literal (.number 1)))
      (.not (.compare .gt (.named (.qualified "r" "b")) (.literal (.text "v"))))
    make r.schema r.tuples = .ok r ∧
    ∃ chosen, Checked.project r references = .ok chosen ∧
      chosen.rows = [[.text "u", .number 1], [.text "v", .number 2], [.text "w", .number 1]] ∧
      (∃ s, Checked.project r [.bare "a"] = .ok s ∧ Checked.project chosen [.bare "a"] = .ok s) ∧
      ∃ selected s, Checked.select r p = .ok selected ∧ Checked.select chosen p = .ok s ∧
        Checked.project selected references = .ok s ∧ s.rows = [[.text "u", .number 1]] := by
  intro r references p
  have hr : make r.schema r.tuples = .ok r := by decide
  have chosen : Checked.project r references =
      .ok (r.projection [⟨"r", "b", .string⟩, ⟨"r", "a", .number⟩]) := by decide
  have column : Checked.project r [.bare "a"] = .ok (r.projection [⟨"r", "a", .number⟩]) := by
    decide
  have selected : Checked.select r p = .ok ⟨r.schema, r.tuples.take 1⟩ := by decide
  have named : ∀ n ∈ p.names,
      ∃ a ∈ (r.projection [⟨"r", "b", .string⟩, ⟨"r", "a", .number⟩]).schema,
        n.resolve r.schema = .ok a := by decide
  obtain ⟨projects, selects⟩ := answers_narrowed hr chosen
  obtain ⟨s, select, project⟩ := selects p _ selected named
  refine ⟨hr, _, chosen, by decide, ⟨_, column, projects _ _ column (by decide)⟩, _, s, selected,
    select, project, ?_⟩
  have result : Checked.project ⟨r.schema, r.tuples.take 1⟩ references =
      .ok (Relation.projection ⟨r.schema, r.tuples.take 1⟩
        [⟨"r", "b", .string⟩, ⟨"r", "a", .number⟩]) := by decide
  cases project.symm.trans result
  decide

end Relation

end RelationalAlgebra
