import RelationalAlgebra.Proofs.Rowset.Simulation

/-!
# Qualified names that collide

Tuples hold their values under the texts `qualifier.name`. The checks in front of products and
renamings compare qualifiers with qualifiers and names with names, and a join compares names alone.
The two notions of identity agree exactly while every key of the result can be read in one way only
(`Schema.Legible`): then no value is lost, and otherwise every tuple of the result has lost one
(`keeps_of_checked`). Keys are legible if no qualifier holds a dot, and also if no name does.
-/
namespace RelationalAlgebra

/-! ### Keys of a schema -/

namespace Attribute
variable {a b : Attribute}

theorem path_eq_of_plain_names (ha : Plain a.name) (hb : Plain b.name)
    (h : a.qualifiedName = b.qualifiedName) : a.path = b.path := by
  -- read from the right, the first dot ends the name
  have hlist := congrArg (List.reverse ∘ String.toList) h
  simp only [Function.comp_apply, toList_qualifiedName, List.reverse_append, List.reverse_cons,
    List.append_assoc, List.singleton_append] at hlist
  have ha' : '.' ∉ a.name.toList.reverse := by rwa [List.mem_reverse]
  have hb' : '.' ∉ b.name.toList.reverse := by rwa [List.mem_reverse]
  obtain ⟨hn, hq⟩ := append_cons_inj_of_not_mem ha' hb' hlist
  rw [path, path, String.toList_inj.1 (List.reverse_inj.1 hq),
    String.toList_inj.1 (List.reverse_inj.1 hn)]

end Attribute

namespace Schema
variable {s t : Schema}

/-- Each key can be read in one way only: attributes with one key have one qualifier and one
name. -/
def Legible (s : Schema) : Prop :=
  ∀ a ∈ s, ∀ b ∈ s, a.qualifiedName = b.qualifiedName → a.path = b.path

theorem legible_of_plain (h : (∀ a ∈ s, Plain a.qualifier) ∨ ∀ a ∈ s, Plain a.name) :
    s.Legible := by
  intro a ha b hb heq
  rcases h with hq | hn
  · exact Attribute.path_eq_of_qualifiedName_eq (hq a ha) (hq b hb) heq
  · exact Attribute.path_eq_of_plain_names (hn a ha) (hn b hb) heq

theorem nodup_paths_of_distinct (h : s.qualifiedNames.Nodup) :
    (s.map Attribute.path).Nodup := by
  have hnames : s.qualifiedNames =
      (s.map Attribute.path).map fun n => n.qualifier ++ "." ++ n.name := by
    rw [List.map_map]
    rfl
  rw [hnames] at h
  exact h.of_map

/-- Attributes that differ in qualifier or name have distinct keys exactly when their keys are
legible. -/
theorem distinct_iff_legible (hp : (s.map Attribute.path).Nodup) :
    s.qualifiedNames.Nodup ↔ s.Legible := by
  constructor
  · intro hs a ha b hb heq
    rw [eq_of_qualifiedName_eq hs ha hb heq]
  · intro hs
    apply List.Nodup.map_on _ hp.of_map
    intro a ha b hb heq
    exact List.inj_on_of_nodup_map hp ha hb (hs a ha b hb heq)

theorem nodup_paths_append_added (hs : s.qualifiedNames.Nodup) (ht : t.qualifiedNames.Nodup) :
    ((s ++ s.added t).map Attribute.path).Nodup := by
  have hadded : ((s.added t).map Attribute.path).Nodup :=
    (nodup_paths_of_distinct ht).sublist (List.filter_sublist.map _)
  rw [List.map_append, List.nodup_append]
  refine ⟨nodup_paths_of_distinct hs, hadded, ?_⟩
  intro _ hleft _ hright heq
  obtain ⟨a, ha, rfl⟩ := List.mem_map.1 hleft
  obtain ⟨b, hb, rfl⟩ := List.mem_map.1 hright
  have hnew : b.name ∉ s.bareNames := by simpa using (List.mem_filter.1 hb).2
  have hname : a.name = b.name := congrArg QualifiedName.name heq
  exact hnew (hname ▸ List.mem_map_of_mem ha)

end Schema

/-! ### Keys of tuples -/

theorem Tuple.mem_names_relabel {t : Tuple} {names : List (String × String)} {key : String} :
    key ∈ (t.relabel names).names ↔ ∃ old, (key, old) ∈ names ∧ old ∈ t.names := by
  rw [relabel, NameMap.mem_names_ofList, List.map_filterMap, List.mem_filterMap]
  simp only [NameMap.mem_names_iff, Option.map_map, Option.map_eq_some_iff]
  constructor
  · rintro ⟨⟨new, old⟩, hmem, v, hv, rfl⟩
    exact ⟨old, hmem, v, hv⟩
  · rintro ⟨old, hmem, v, hv⟩
    exact ⟨(key, old), hmem, v, hv, rfl⟩

namespace Relation
variable {x y r : Relation} {z : Rowset}

theorem mem_names_tupleOfRow {s : Schema} {row : List Value} (h : row.length = s.length)
    {key : String} : key ∈ (tupleOfRow s row).names ↔ key ∈ s.qualifiedNames := by
  rw [tupleOfRow, NameMap.mem_names_ofList, List.map_fst_zip (by simp [Schema.qualifiedNames, h])]

/-- The tuples of a relation have the keys of its schema, whether or not these are distinct. -/
def Keyed (r : Relation) : Prop :=
  ∀ t ∈ r.tuples, ∀ key, key ∈ t.names ↔ key ∈ r.schema.qualifiedNames

theorem keyed_product (hx : x.WellFormed) (hy : y.WellFormed) : (x.product y).Keyed := by
  intro _ hresult key
  obtain ⟨t, ht, hmem⟩ := List.mem_flatMap.1 hresult
  obtain ⟨u, hu, rfl⟩ := List.mem_map.1 hmem
  rw [NameMap.mem_names_merge, (hx.2 t ht).mem_names_iff hx.1, (hy.2 u hu).mem_names_iff hy.1]
  simp [product, Schema.qualifiedNames]

theorem keyed_join (hx : x.WellFormed) (hy : y.WellFormed) : (x.join y).Keyed := by
  intro _ hresult key
  obtain ⟨t, ht, hmem⟩ := List.mem_flatMap.1 hresult
  obtain ⟨u, hu, rfl⟩ := List.mem_map.1 hmem
  have hu := hy.2 u (List.mem_filter.1 hu).1
  have hadded : key ∈ Schema.qualifiedNames (unshared x.schema y.schema) →
      key ∈ y.schema.qualifiedNames := fun h => (List.filter_sublist.map _).subset h
  rw [NameMap.mem_names_merge, (hx.2 t ht).mem_names_iff hx.1, Tuple.mem_names_relabel]
  simp only [List.mem_map, Prod.mk.injEq, hu.mem_names_iff hy.1]
  constructor
  · rintro (hkey | ⟨_, ⟨_, hkey, rfl, rfl⟩, _⟩)
    · exact (List.sublist_append_left ..).map _ |>.subset hkey
    · exact (List.sublist_append_right ..).map _ |>.subset hkey
  · intro hkey
    simp only [join, Schema.qualifiedNames, List.map_append, List.mem_append] at hkey
    rcases hkey with hkey | hkey
    · exact .inl hkey
    · exact .inr ⟨key, ⟨key, hkey, rfl, rfl⟩, hadded hkey⟩

/-! ### What the checks leave open -/

/-- The relation `r` is to be what an operator on rowsets gives. Its keys are distinct exactly when
they are legible, each of its tuples has the keys of its schema and one for each attribute exactly
when they are legible, and then `r` holds what it is to hold, row by row. Dots make keys illegible
only where they stand in qualifiers as well as in names. -/
structure Keeps (r : Relation) (z : Except Error Rowset) : Prop where
  distinct : r.schema.qualifiedNames.Nodup ↔ r.schema.Legible
  keyed : r.Keyed
  size : ∀ t ∈ r.tuples, t.size = r.schema.length ↔ r.schema.Legible
  rows : r.schema.Legible → z = .ok r.rowset
  plain : (∀ a ∈ r.schema, Plain a.qualifier) ∨ (∀ a ∈ r.schema, Plain a.name) →
    r.schema.Legible

theorem Keyed.keeps (hr : r.Keyed) (hp : (r.schema.map Attribute.path).Nodup)
    (h : r.schema.qualifiedNames.Nodup → z.WellFormed ∧ r = z.relation) : r.Keeps (.ok z) where
  distinct := Schema.distinct_iff_legible hp
  keyed := hr
  size := by
    intro t ht
    rw [← Schema.distinct_iff_legible hp, ← NameMap.size_eq_length_iff_nodup (hr t ht),
      Schema.qualifiedNames, List.length_map]
  rows := by
    intro hlegible
    obtain ⟨hz, rfl⟩ := h ((Schema.distinct_iff_legible hp).2 hlegible)
    rw [Rowset.rowset_relation hz]
  plain := Schema.legible_of_plain

theorem keeps_of_product (hx : x.WellFormed) (hy : y.WellFormed)
    (h : Checked.product x y = .ok r) : r.Keeps (Rowset.combine .product x.rowset y.rowset) := by
  unfold Checked.product at h
  split at h
  · rename_i hpaths
    cases h
    have hs : x.schema.combine .product y.schema = .ok (x.schema ++ y.schema) := if_pos hpaths
    have hz : Rowset.combine .product x.rowset y.rowset =
        .ok ⟨x.schema ++ y.schema, Rowset.combineRows .product x.rowset y.rowset⟩ := by
      show (x.schema.combine .product y.schema >>= _) = _
      rw [hs]
      rfl
    rw [hz]
    apply (keyed_product hx hy).keeps hpaths
    intro hdistinct
    refine ⟨⟨hdistinct, ?_⟩, ?_⟩
    · exact fun _ hrow => Rowset.admits_of_mem_combineRows hx.rowset hy.rowset hs hrow
    · have hraw := Rowset.rawProduct_relation hx.rowset hy.rowset hdistinct
      rwa [hx.relation_rowset, hy.relation_rowset] at hraw
  · cases h

theorem keeps_of_join (hx : x.WellFormed) (hy : y.WellFormed) (h : Checked.join x y = .ok r) :
    r.Keeps (Rowset.combine .join x.rowset y.rowset) := by
  cases h
  have hschema : (x.join y).schema = x.schema ++ x.schema.added y.schema := by
    rw [join, Rowset.unshared_eq_added hy.1]
  have hz : Rowset.combine .join x.rowset y.rowset = .ok
      ⟨x.schema ++ x.schema.added y.schema, Rowset.combineRows .join x.rowset y.rowset⟩ := rfl
  rw [hz]
  apply (keyed_join hx hy).keeps
  · rw [hschema]
    exact Schema.nodup_paths_append_added hx.1 hy.1
  · intro hdistinct
    rw [hschema] at hdistinct
    refine ⟨⟨hdistinct, ?_⟩, ?_⟩
    · have hs : x.schema.combine .join y.schema = .ok (x.schema ++ x.schema.added y.schema) := rfl
      exact fun _ hrow => Rowset.admits_of_mem_combineRows hx.rowset hy.rowset hs hrow
    · have hraw := Rowset.rawJoin_relation hx.rowset hy.rowset hdistinct
      rwa [hx.relation_rowset, hy.relation_rowset] at hraw

theorem keeps_of_rename (hx : x.WellFormed) {name : String} {references : List Reference}
    (h : Checked.rename x name references = .ok r) : r.Keeps (x.rowset.rename name references) := by
  have hrename := Rowset.rename_relation hx.rowset name references
  rw [hx.relation_rowset, h] at hrename
  cases hz : x.rowset.rename name references with
  | error e =>
    rw [hz] at hrename
    cases hrename
  | ok z =>
    rw [hz] at hrename
    cases hrename
    obtain ⟨s, hs, heq⟩ := exists_of_bind_eq_ok hz
    cases heq
    obtain ⟨names, rfl, hlength, hnames, _⟩ := Schema.rename_eq_ok hs
    have hrows : ∀ row ∈ x.rowset.rows, (x.rowset.schema.withNames names).Admits row := by
      intro row hrow
      rw [Schema.Admits, Schema.types_withNames hlength]
      exact hx.rowset.rows row hrow
    apply Keyed.keeps
    · intro _ ht key
      obtain ⟨row, hrow, rfl⟩ := List.mem_map.1 ht
      exact mem_names_tupleOfRow (hrows row hrow).length_eq
    · rw [Rowset.schema_relation, Schema.map_path_withNames hlength]
      exact hnames
    · exact fun hdistinct => ⟨⟨hdistinct, hrows⟩, rfl⟩

/-- Products, joins and renamings of relations with any names, when they succeed, keep every value
under a key of its own exactly when the keys of the result are legible. -/
theorem keeps_of_checked (hx : make x.schema x.tuples = .ok x)
    (hy : make y.schema y.tuples = .ok y) :
    (∀ r, Checked.product x y = .ok r → r.Keeps (Rowset.combine .product x.rowset y.rowset)) ∧
    (∀ r, Checked.join x y = .ok r → r.Keeps (Rowset.combine .join x.rowset y.rowset)) ∧
    ∀ name references r, Checked.rename x name references = .ok r →
      r.Keeps (x.rowset.rename name references) := by
  have hx := (make_eq_ok_iff.1 hx).2
  have hy := (make_eq_ok_iff.1 hy).2
  exact ⟨fun _ => keeps_of_product hx hy, fun _ => keeps_of_join hx hy,
    fun _ _ _ => keeps_of_rename hx⟩

def single (qualifier name : String) (n : Int) : Relation :=
  Rowset.relation ⟨[⟨qualifier, name, .number⟩], [[.number n]]⟩

def pair (m n : Int) : Relation :=
  Rowset.relation ⟨[⟨"r", "u", .number⟩, ⟨"r", "v", .number⟩], [[.number m, .number n]]⟩

/-- A dot in a qualifier alone does no harm. -/
theorem keeps_of_checked_dotted_qualifier :
    make (single "a.b" "c" 1).schema (single "a.b" "c" 1).tuples = .ok (single "a.b" "c" 1) ∧
    make (single "a" "d" 2).schema (single "a" "d" 2).tuples = .ok (single "a" "d" 2) ∧
    ∃ r, Checked.product (single "a.b" "c" 1) (single "a" "d" 2) = .ok r ∧
      r.rows = [[.number 1, .number 2]] := by
  have hx : make (single "a.b" "c" 1).schema (single "a.b" "c" 1).tuples =
    .ok (single "a.b" "c" 1) := by decide
  have hy : make (single "a" "d" 2).schema (single "a" "d" 2).tuples = .ok (single "a" "d" 2) := by
    decide
  have succeeds : Checked.product (single "a.b" "c" 1) (single "a" "d" 2) =
    .ok ((single "a.b" "c" 1).product (single "a" "d" 2)) := by decide
  have keeps := (keeps_of_checked hx hy).1 _ succeeds
  have rows := keeps.rows (keeps.plain (.inr (by decide)))
  refine ⟨hx, hy, _, succeeds, ?_⟩
  have positional : Rowset.combine .product (single "a.b" "c" 1).rowset (single "a" "d" 2).rowset =
    .ok ⟨[⟨"a.b", "c", .number⟩, ⟨"a", "d", .number⟩], [[.number 1, .number 2]]⟩ := by decide
  rw [positional] at rows
  exact congrArg Rowset.rows (Except.ok.inj rows).symm

/-- The keys `a.b.c` of `b.c` in `a` and of `c` in `a.b` meet. Product and join accept them, and so
does renaming to them; the result has two attributes with one key and one value under it. -/
theorem checked_loses_value :
    make (single "a" "b.c" 1).schema (single "a" "b.c" 1).tuples = .ok (single "a" "b.c" 1) ∧
    make (single "a.b" "c" 2).schema (single "a.b" "c" 2).tuples = .ok (single "a.b" "c" 2) ∧
    (∃ r, Checked.product (single "a" "b.c" 1) (single "a.b" "c" 2) = .ok r ∧
      ¬r.schema.qualifiedNames.Nodup ∧ r.tuples.map NameMap.size = [1] ∧
      r.rows = [[.number 2, .number 2]]) ∧
    (∃ r, Checked.join (single "a" "b.c" 1) (single "a.b" "c" 2) = .ok r ∧
      ¬r.schema.qualifiedNames.Nodup ∧ r.tuples.map NameMap.size = [1] ∧
      r.rows = [[.number 2, .number 2]]) ∧
    make (pair 1 2).schema (pair 1 2).tuples = .ok (pair 1 2) ∧
    ∃ r, Checked.rename (pair 1 2) "s" [.qualified "a" "b.c", .qualified "a.b" "c"] = .ok r ∧
      ¬r.schema.qualifiedNames.Nodup ∧ r.tuples.map NameMap.size = [1] ∧
      r.rows = [[.number 2, .number 2]] := by
  refine ⟨by decide, by decide, ⟨_, rfl, ?_⟩, ⟨_, rfl, ?_⟩, by decide, ⟨_, rfl, ?_⟩⟩ <;> decide

end Relation

end RelationalAlgebra
