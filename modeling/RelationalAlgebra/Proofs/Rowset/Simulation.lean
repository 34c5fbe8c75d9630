import RelationalAlgebra.Proofs.Rowset.Predicates

/-!
# Tuples by name and rows by position

Every well-formed relation is the relation of its rowset (`Relation.WellFormed.relation_rowset`),
and on such relations each operator does by name what the operator on rowsets does by position: it
fails with the same error, or gives the relation of the rowset that the other gives. Products and
joins bring the names of two schemas together, so for them the names have to stay distinct; in sound
relations they do.
-/
namespace RelationalAlgebra

/-- The rowset whose tuples are stored under the qualified names. -/
def Rowset.relation (x : Rowset) : Relation := ⟨x.schema, x.rows.map (Relation.tupleOfRow x.schema)⟩

namespace Relation

def rowset (r : Relation) : Rowset := ⟨r.schema, r.rows⟩

/-- Well-formed, and without a dot in any qualifier. -/
structure Sound (r : Relation) : Prop where
  wellFormed : r.WellFormed
  plain : ∀ a ∈ r.schema, Plain a.qualifier

theorem sound_of_make_eq_ok {r : Relation} (h : make r.schema r.tuples = .ok r)
    (hp : ∀ a ∈ r.schema, Plain a.qualifier) : r.Sound :=
  ⟨(make_eq_ok_iff.1 h).2, hp⟩

theorem Sound.make_eq_ok {r : Relation} (h : r.Sound) : make r.schema r.tuples = .ok r :=
  make_eq_ok_iff.2 ⟨rfl, h.wellFormed⟩

theorem sound_iff {r : Relation} :
    r.Sound ↔ make r.schema r.tuples = .ok r ∧ ∀ a ∈ r.schema, Plain a.qualifier :=
  ⟨fun h => ⟨h.make_eq_ok, h.plain⟩, fun h => sound_of_make_eq_ok h.1 h.2⟩

instance (r : Relation) : Decidable r.Sound := decidable_of_iff _ sound_iff.symm

theorem Sound.schema {r : Relation} (hr : r.Sound) : r.schema.Sound :=
  ⟨hr.wellFormed.1, hr.plain⟩

theorem WellFormed.rowset {r : Relation} (hr : r.WellFormed) : r.rowset.WellFormed := by
  refine ⟨hr.1, ?_⟩
  intro row hrow
  obtain ⟨t, ht, rfl⟩ := List.mem_map.1 hrow
  exact (hr.2 t ht).admits_valuesAt

theorem WellFormed.relation_rowset {r : Relation} (hr : r.WellFormed) : r.rowset.relation = r := by
  have htuples : r.rows.map (tupleOfRow r.schema) = r.tuples := by
    rw [rows, List.map_map]
    apply (List.map_congr_left _).trans (List.map_id _)
    intro t ht
    exact (hr.2 t ht).tupleOfRow_valuesAt hr.1
  rw [Relation.rowset, Rowset.relation, htuples]

theorem WellFormed.exists_rowset {r : Relation} (hr : r.WellFormed) :
    ∃ x : Rowset, x.WellFormed ∧ x.relation = r := ⟨r.rowset, hr.rowset, hr.relation_rowset⟩

theorem Sound.rowset {r : Relation} (hr : r.Sound) : r.rowset.Sound :=
  ⟨hr.schema, hr.wellFormed.rowset.rows⟩

theorem Sound.relation_rowset {r : Relation} (hr : r.Sound) : r.rowset.relation = r :=
  hr.wellFormed.relation_rowset

end Relation

namespace Rowset
variable {x y : Rowset}

@[simp]
theorem schema_relation (x : Rowset) : x.relation.schema = x.schema := rfl

theorem wellFormed_relation (hx : x.WellFormed) : x.relation.WellFormed := by
  refine ⟨hx.distinct, ?_⟩
  intro t ht
  obtain ⟨row, hrow, rfl⟩ := List.mem_map.1 ht
  exact Relation.fits_tupleOfRow hx.distinct (hx.rows row hrow)

theorem sound_relation (hx : x.Sound) : x.relation.Sound :=
  ⟨wellFormed_relation hx.wellFormed, hx.schema.plain⟩

theorem valuesAt_tupleOfRow (hx : x.WellFormed) {row : List Value} (hrow : row ∈ x.rows) :
    Relation.valuesAt x.schema.qualifiedNames (Relation.tupleOfRow x.schema row) = row :=
  Relation.valuesAt_tupleOfRow_self hx.distinct (hx.rows row hrow).length_eq

theorem rowset_relation (hx : x.WellFormed) : x.relation.rowset = x := by
  have hrows : x.relation.rows = x.rows :=
    Relation.rows_map_tupleOfRow hx.distinct fun row hrow => (hx.rows row hrow).length_eq
  rw [Relation.rowset, hrows]
  rfl

/-! ### Projection -/

theorem map_pair_self (keys : List String) : keys.map (fun key => (key, key)) = keys.zip keys :=
  List.zipWith_self.symm

theorem projection_relation (hx : x.WellFormed) {s : Schema} (hs : s ⊆ x.schema) :
    x.relation.projection s = relation ⟨s, x.rows.map (x.schema.pick s)⟩ := by
  simp only [Relation.projection, relation, List.map_map, map_pair_self]
  congr 1
  apply List.map_congr_left
  intro row hrow
  exact Relation.relabel_tupleOfRow hx.distinct (hx.rows row hrow).length_eq hs _

theorem project_relation (hx : x.WellFormed) (references : List Reference) :
    Relation.Checked.project x.relation references = (x.project references).map relation := by
  simp only [Relation.Checked.project, project, Schema.project, schema_relation]
  cases hr : Reference.resolveAll x.schema references with
  | error e => rfl
  | ok attributes =>
    have hs : attributes.eraseDups ⊆ x.schema := by
      intro a ha
      exact Reference.subset_of_resolveAll_eq_ok hr (List.mem_eraseDups.1 ha)
    exact congrArg Except.ok (projection_relation hx hs)

/-! ### Renaming -/

theorem map_renamed {s : Schema} {names : List QualifiedName} (hs : s.qualifiedNames.Nodup)
    (h : names.length = s.length) :
    s.map (Relation.renamed (.ofList (s.qualifiedNames.zip names))) = s.withNames names := by
  have hkeys : ((s.qualifiedNames.zip names).map (·.1)).Nodup := by
    rw [List.map_fst_zip (by simp [Schema.qualifiedNames, h])]
    exact hs
  apply List.ext_getElem (by simp [Schema.withNames, h])
  intro i hi _
  have hs' : i < s.length := by simpa using hi
  have hget : (NameMap.ofList (s.qualifiedNames.zip names)).get? s[i].qualifiedName =
      some (names.get ⟨i, h ▸ hs'⟩) := by
    rw [NameMap.get?_ofList_eq_some_iff hkeys]
    refine List.mem_iff_getElem.2 ⟨i, by simp [Schema.qualifiedNames, h, hs'], ?_⟩
    simp [Schema.qualifiedNames]
  simp [Relation.renamed, hget, Schema.withNames]

theorem withNames_relation (hx : x.WellFormed) {names : List QualifiedName}
    (h : names.length = x.schema.length) :
    x.relation.rename (.ofList (x.schema.qualifiedNames.zip names)) =
      relation ⟨x.schema.withNames names, x.rows⟩ := by
  simp only [Relation.rename, relation, map_renamed hx.distinct h, List.map_map]
  congr 1
  apply List.map_congr_left
  intro row hrow
  have hlength := (hx.rows row hrow).length_eq
  rw [Function.comp_apply,
    Relation.relabel_tupleOfRow hx.distinct hlength (List.Subset.refl _),
    Schema.pick_self (Schema.nodup_of_distinct hx.distinct) hlength]
  rfl

theorem rename_relation (hx : x.WellFormed) (name : String) (references : List Reference) :
    Relation.Checked.rename x.relation name references =
      (x.rename name references).map relation := by
  simp only [Relation.Checked.rename, rename, Schema.rename, schema_relation]
  by_cases hr : references = []
  · subst hr
    have hlength : (x.schema.bareNames.map (QualifiedName.mk name)).length = x.schema.length := by
      simp [Schema.bareNames]
    by_cases hn : x.schema.bareNames.Nodup
    · simp only [hn]
      exact congrArg Except.ok (withNames_relation hx hlength)
    · simp [hn, bind, Except.bind, Except.map]
  · by_cases hlength : references.length = x.schema.length
    · by_cases hn : (references.map (Relation.Checked.target name)).Nodup
      · have hnames : (references.map (Relation.Checked.target name)).length = x.schema.length := by
          simp [hlength]
        simp [hr, hlength, hn, withNames_relation hx hnames, bind, Except.bind, pure, Except.pure,
          Except.map]
      · simp [hr, hlength, hn, bind, Except.bind, Except.map]
    · simp [hr, hlength, bind, Except.bind, Except.map]

/-! ### Selection -/

theorem tuplesWhere_map_tupleOfRow {s : Schema} (hs : s.qualifiedNames.Nodup)
    {p : Predicate Attribute} (hp : p.WellTyped s) {rows : List (List Value)}
    (hrows : ∀ row ∈ rows, s.Admits row) :
    Relation.tuplesWhere p (rows.map (Relation.tupleOfRow s)) =
      .ok ((rows.filter fun row => p.holds s row).map (Relation.tupleOfRow s)) :=
  Relation.tuplesWhere_map fun row hrow => hp.evaluate_tupleOfRow hs (hrows row hrow)

theorem select_relation (hx : x.WellFormed) (p : Predicate Reference) :
    Relation.Checked.select x.relation p = (x.select p).map relation := by
  simp only [Relation.Checked.select, select, schema_relation]
  cases hp : p.resolve x.schema with
  | error e => rfl
  | ok q =>
    have htuples := tuplesWhere_map_tupleOfRow hx.distinct
      (Predicate.wellTyped_of_resolve_eq_ok hp) hx.rows
    show x.relation.selection q = _
    rw [Relation.selection]
    show Relation.tuplesWhere q (x.rows.map _) >>= _ = _
    rw [htuples]
    rfl

/-! ### Set operations -/

theorem identity_tupleOfRow (hx : x.WellFormed) {row : List Value} (hrow : row ∈ x.rows) :
    Relation.identity x.schema.qualifiedNames (Relation.tupleOfRow x.schema row) = text row := by
  rw [Relation.identity, valuesAt_tupleOfRow hx hrow, text]

theorem identities_relation (hx : x.WellFormed) : x.relation.identities = x.rows.map text := by
  rw [Relation.identities, relation, List.map_map]
  apply List.map_congr_left
  intro row hrow
  exact identity_tupleOfRow hx hrow

/-- Keeping tuples by their identity is keeping rows by their text. -/
theorem filter_identity (hx : x.WellFormed) (keep : String → Bool) :
    (x.relation.tuples.filter fun t => keep (Relation.identity x.schema.qualifiedNames t)) =
      (x.rows.filter fun row => keep (text row)).map (Relation.tupleOfRow x.schema) := by
  rw [relation, List.filter_map]
  congr 1
  apply List.filter_congr
  intro row hrow
  rw [Function.comp_apply, identity_tupleOfRow hx hrow]

theorem union_relation (hx : x.WellFormed) (hy : y.WellFormed)
    (h : x.schema.types = y.schema.types) :
    x.relation.union y.relation = relation ⟨x.schema, combineRows (.set .union) x y⟩ := by
  have hlength : y.schema.length = x.schema.length := by
    have := congrArg List.length h
    simpa [Schema.types] using this.symm
  have hrelabel : ∀ row ∈ y.rows, (Relation.tupleOfRow y.schema row).relabel
      (x.schema.qualifiedNames.zip y.schema.qualifiedNames) = Relation.tupleOfRow x.schema row := by
    intro row hrow
    have hrow' := (hy.rows row hrow).length_eq
    rw [Relation.relabel_tupleOfRow hy.distinct hrow' (List.Subset.refl _),
      Schema.pick_self (Schema.nodup_of_distinct hy.distinct) hrow']
    rfl
  have hnew := filter_identity hy fun text => decide (text ∉ x.rows.map Rowset.text)
  simp only [Relation.union, identities_relation hx, schema_relation, hnew, List.map_map]
  rw [relation, relation, combineRows, List.map_append]
  congr 2
  apply List.map_congr_left
  intro row hrow
  exact hrelabel row (List.mem_filter.1 hrow).1

theorem set_relation (hx : x.WellFormed) (hy : y.WellFormed) (op : SetOperation) :
    Relation.Checked.set op x.relation y.relation = (combine (.set op) x y).map relation := by
  simp only [Relation.Checked.set, combine, Schema.combine, Relation.Checked.Compatible,
    schema_relation]
  by_cases h : x.schema.types = y.schema.types
  · simp only [h]
    refine congrArg Except.ok ?_
    cases op with
    | union => exact union_relation hx hy h
    | intersection =>
      have hkeep := filter_identity hx fun text => decide (text ∈ y.rows.map Rowset.text)
      simp only [Relation.Checked.applySet, Relation.intersection, identities_relation hy,
        schema_relation, hkeep]
      rfl
    | difference =>
      have hkeep := filter_identity hx fun text => decide (text ∉ y.rows.map Rowset.text)
      simp only [Relation.Checked.applySet, Relation.difference, identities_relation hy,
        schema_relation, hkeep]
      rfl
  · simp only [h]
    rfl

/-! ### Products and joins -/

theorem rawProduct_relation (hx : x.WellFormed) (hy : y.WellFormed)
    (hs : (x.schema ++ y.schema).qualifiedNames.Nodup) : x.relation.product y.relation =
      relation ⟨x.schema ++ y.schema, combineRows .product x y⟩ := by
  simp only [Relation.product, relation, combineRows, List.flatMap_map, List.map_flatMap,
    List.map_map]
  congr 1
  apply List.flatMap_congr
  intro row hrow
  apply List.map_congr_left
  intro more hmore
  exact Relation.merge_tupleOfRow hs (hx.rows row hrow).length_eq (hy.rows more hmore).length_eq

theorem product_relation (hx : x.Sound) (hy : y.Sound) :
    Relation.Checked.product x.relation y.relation = (combine .product x y).map relation := by
  simp only [Relation.Checked.product, combine, Schema.combine, schema_relation]
  by_cases h : ((x.schema ++ y.schema).map Attribute.path).Nodup
  · have hc : x.schema.combine .product y.schema = .ok (x.schema ++ y.schema) := if_pos h
    have hs := hx.schema.combine hy.schema hc
    simp only [h, rawProduct_relation hx.wellFormed hy.wellFormed hs.distinct]
    rfl
  · simp only [h]
    rfl

theorem mem_keysNamed {t : Schema} {name key : String} :
    key ∈ Relation.keysNamed t name ↔ ∃ b ∈ t, b.name = name ∧ b.qualifiedName = key := by
  simp [Relation.keysNamed, Schema.qualifiedNames, and_assoc]

/-- The attributes that a join adds are those whose bare name is new. -/
theorem unshared_eq_added {s t : Schema} (ht : t.qualifiedNames.Nodup) :
    Relation.unshared s t = s.added t := by
  apply List.filter_congr
  intro b hb
  apply decide_eq_decide.2
  apply not_congr
  simp only [Relation.sharedKeys, List.flatMap_map, List.mem_flatMap, mem_keysNamed,
    Schema.bareNames, List.mem_map]
  constructor
  · rintro ⟨a, ha, c, hc, hname, hkey⟩
    cases Schema.eq_of_qualifiedName_eq ht hc hb hkey
    exact ⟨a, ha, hname.symm⟩
  · rintro ⟨a, ha, hname⟩
    exact ⟨a, ha, b, hb, hname.symm, rfl⟩

theorem agree_tupleOfRow {s t : Schema} {row more : List Value} (hs : s.qualifiedNames.Nodup)
    (ht : t.qualifiedNames.Nodup) (hrow : row.length = s.length) (hmore : more.length = t.length) :
    Relation.agree (Relation.sharedKeys s t) (Relation.tupleOfRow s row)
      (Relation.tupleOfRow t more) = agree s t row more := by
  rw [Bool.eq_iff_iff]
  simp only [Relation.agree, Relation.sharedKeys, agree, List.all_map, List.all_eq_true,
    Function.comp_apply, decide_eq_true_eq, mem_keysNamed]
  apply forall₂_congr
  intro a ha
  rw [Relation.get?_tupleOfRow hs hrow ha]
  constructor
  · intro h b hb hname
    have hkey := h _ ⟨b, hb, hname.symm, rfl⟩
    rw [Relation.get?_tupleOfRow ht hmore hb] at hkey
    exact (Option.some.inj hkey).symm
  · rintro h _ ⟨b, hb, hname, rfl⟩
    rw [Relation.get?_tupleOfRow ht hmore hb, h b hb hname.symm]

theorem rawJoin_relation (hx : x.WellFormed) (hy : y.WellFormed)
    (hs : (x.schema ++ x.schema.added y.schema).qualifiedNames.Nodup) :
    x.relation.join y.relation =
      relation ⟨x.schema ++ x.schema.added y.schema, combineRows .join x y⟩ := by
  simp only [Relation.join, schema_relation, unshared_eq_added hy.distinct, map_pair_self]
  rw [relation, relation, relation, combineRows, List.flatMap_map, List.map_flatMap]
  congr 1
  apply List.flatMap_congr
  intro row hrow
  rw [List.filter_map, List.map_map, List.map_map]
  have hrow' := (hx.rows row hrow).length_eq
  have hfilter : y.rows.filter ((Relation.agree (Relation.sharedKeys x.schema y.schema)
      (Relation.tupleOfRow x.schema row)) ∘ Relation.tupleOfRow y.schema) =
      y.rows.filter (agree x.schema y.schema row) := by
    apply List.filter_congr
    intro more hmore
    have hmore' := (hy.rows more hmore).length_eq
    exact agree_tupleOfRow hx.distinct hy.distinct hrow' hmore'
  rw [hfilter]
  apply List.map_congr_left
  intro more hmore
  have hmore' := (hy.rows more (List.mem_filter.1 hmore).1).length_eq
  rw [Function.comp_apply, Relation.relabel_tupleOfRow hy.distinct hmore'
    (Schema.added_subset _ _)]
  exact Relation.merge_tupleOfRow hs hrow' (by simp [Schema.pick])

theorem join_relation (hx : x.Sound) (hy : y.Sound) :
    Relation.Checked.join x.relation y.relation = (combine .join x y).map relation :=
  congrArg Except.ok (rawJoin_relation hx.wellFormed hy.wellFormed
    (hx.schema.append_added hy.schema).distinct)

theorem apply_relation (hx : x.Sound) (hy : y.Sound) (op : BinaryOperator) :
    Relation.Checked.apply op x.relation y.relation = (combine op x y).map relation := by
  cases op with
  | set op => exact set_relation hx.wellFormed hy.wellFormed op
  | product => exact product_relation hx hy
  | join => exact join_relation hx hy

end Rowset

end RelationalAlgebra
