import RelationalAlgebra.Proofs.Resolution.Precedence
import RelationalAlgebra.Proofs.Selection.Pushdown

/-!
# Renaming changes names only

As long as the new names give distinct keys, a renaming leaves every value in its place, whichever
names it exchanges or passes on from one column to another. Renaming to the old names in full undoes
it, and a predicate that names attributes in full selects the same before and after, once its names
are exchanged as well (`Relation.rename_isomorphism`).
-/
namespace RelationalAlgebra

/-! ### Places in two schemas -/

namespace Schema
variable {s t : Schema} {a : Attribute} {row : List Value} {name : String}

/-- The attribute of `t` in the place that an attribute has in `s`. -/
def counterpart (s t : Schema) (a : Attribute) : Attribute := t.getD (s.idxOf a) a

theorem length_eq_of_types_eq (h : t.types = s.types) : t.length = s.length := by
  have := congrArg List.length h
  simpa [types] using this

theorem counterpart_eq_getElem (h : t.length = s.length) (ha : a ∈ s) :
    s.counterpart t a = t.get ⟨s.idxOf a, h ▸ List.idxOf_lt_length_of_mem ha⟩ := by
  rw [counterpart, List.getD_eq_getElem?_getD, List.getElem?_eq_getElem, Option.getD_some,
    List.get_eq_getElem]

theorem counterpart_mem (h : t.length = s.length) (ha : a ∈ s) : s.counterpart t a ∈ t := by
  rw [counterpart_eq_getElem h ha]
  exact List.get_mem ..

theorem type_counterpart (h : t.types = s.types) (a : Attribute) :
    (s.counterpart t a).type = a.type := by
  by_cases ha : a ∈ s
  · have hi := List.idxOf_lt_length_of_mem ha
    have hplace : t.types[s.idxOf a]? = s.types[s.idxOf a]? := by rw [h]
    have hi' : s.idxOf a < t.length := length_eq_of_types_eq h ▸ hi
    rw [types, types, List.getElem?_map, List.getElem?_map, List.getElem?_eq_getElem hi',
      List.getElem?_eq_getElem hi, List.getElem_idxOf hi] at hplace
    rw [counterpart_eq_getElem (length_eq_of_types_eq h) ha]
    exact Option.some.inj hplace
  · rw [counterpart, List.idxOf_eq_length ha, ← length_eq_of_types_eq h,
      List.getD_eq_default _ _ (Nat.le_refl _)]

theorem value_counterpart (ht : t.Nodup) (h : t.length = s.length) (ha : a ∈ s) :
    t.value row (s.counterpart t a) = s.value row a := by
  have hi : s.idxOf a < t.length := h ▸ List.idxOf_lt_length_of_mem ha
  rw [value, value, counterpart_eq_getElem h ha, List.get_eq_getElem, ht.idxOf_getElem _ hi]

/-- The types stay, so all that a schema loses by new names are the old ones. -/
theorem withNames_path (h : t.types = s.types) : t.withNames (s.map Attribute.path) = s := by
  have hlength := length_eq_of_types_eq h
  apply List.ext_getElem (by simp [withNames, hlength])
  intro i hi hs
  have ht : i < t.length := hlength ▸ hs
  have htype : (t.types)[i]? = (s.types)[i]? := by rw [h]
  simp only [types, List.getElem?_map, List.getElem?_eq_getElem ht, List.getElem?_eq_getElem hs,
    Option.map_some, Option.some.injEq] at htype
  simp [withNames, Attribute.withName, Attribute.path, htype]

theorem rename_reference (hs : (s.map Attribute.path).Nodup) (h : t.types = s.types) :
    t.rename name (s.map Attribute.reference) = .ok s := by
  have htargets : (s.map Attribute.reference).map (Relation.Checked.target name) =
      s.map Attribute.path := by
    rw [List.map_map]
    rfl
  have hlength := length_eq_of_types_eq h
  by_cases hempty : s = []
  · subst hempty
    obtain rfl := List.length_eq_zero_iff.1 hlength
    rfl
  · simp [rename, htargets, hempty, hlength, hs, withNames_path h]

end Schema

namespace Reference
variable {s t : Schema} {a : Attribute}

/-- The full name in `t` of what has the full name `r` in `s`. -/
def moved (s t : Schema) (r : Reference) : Reference :=
  (t.map Attribute.reference).getD ((s.map Attribute.reference).idxOf r) r

theorem moved_reference (hs : (s.map Attribute.path).Nodup) (h : t.length = s.length)
    (ha : a ∈ s) : moved s t a.reference = (s.counterpart t a).reference := by
  have hi := List.idxOf_lt_length_of_mem ha
  have hi' : s.idxOf a < t.length := h ▸ hi
  have hreferences : (s.map Attribute.reference).Nodup := by
    have hinj : Function.Injective fun n : QualifiedName => qualified n.qualifier n.name := by
      rintro ⟨_, _⟩ ⟨_, _⟩ heq
      cases heq
      rfl
    have hmap := hs.map hinj
    rwa [List.map_map] at hmap
  have hplace : (s.map Attribute.reference).idxOf a.reference = s.idxOf a := by
    have hget := hreferences.idxOf_getElem (s.idxOf a) (by simpa using hi)
    rwa [List.getElem_map, List.getElem_idxOf hi] at hget
  rw [moved, hplace, List.getD_eq_getElem?_getD, List.getElem?_map,
    List.getElem?_eq_getElem hi', Schema.counterpart_eq_getElem h ha]
  rfl

/-- A reference with a qualifier names what it resolves to in full. -/
theorem eq_reference_of_resolve_eq_ok {r : Reference} (hr : r.qualifier ≠ none)
    (h : r.resolve s = .ok a) : r = a.reference := by
  obtain ⟨q, hq⟩ := Option.ne_none_iff_exists'.1 hr
  obtain ⟨hname, hqualifier⟩ := names_of_resolve_eq_ok h
  obtain ⟨qualifier, name⟩ := r
  cases hq
  rw [Attribute.reference, hname, hqualifier q rfl]
  rfl

end Reference

/-! ### Predicates under other names -/

theorem Operand.type_map {f : Attribute → Attribute} (h : ∀ a, (f a).type = a.type)
    (o : Operand Attribute) : (o.map f).type = o.type := by
  cases o with
  | named a => exact h a
  | literal v => rfl

namespace Predicate
variable {s t : Schema}

theorem map_map {α β γ : Type} (f : α → β) (g : β → γ) (p : Predicate α) :
    (p.map f).map g = p.map (g ∘ f) := by
  have hoperand : ∀ o : Operand α, (o.map f).map g = o.map (g ∘ f) := fun o => by cases o <;> rfl
  induction p with
  | compare op lhs rhs => rw [map, map, hoperand, hoperand, map]
  | and p q ihp ihq => rw [map, map, ihp, ihq, map]
  | or p q ihp ihq => rw [map, map, ihp, ihq, map]
  | not p ih => rw [map, map, ih, map]

/-- Under other names a predicate holds of a row that has the same values under them. -/
theorem WellTyped.holds_map {row row' : List Value} {f : Attribute → Attribute}
    (h : ∀ a ∈ s, t.value row' (f a) = s.value row a) {q : Predicate Attribute}
    (hq : q.WellTyped s) : (q.map f).holds t row' = q.holds s row := by
  have hoperand : ∀ o : Operand Attribute, o.Within s →
      (o.map f).valueAt t row' = o.valueAt s row := by
    intro o ho
    cases o with
    | named a => exact h a ho
    | literal v => rfl
  induction q with
  | compare op lhs rhs => rw [map, holds, holds, hoperand _ hq.1, hoperand _ hq.2.1]
  | and p q ihp ihq => rw [map, holds, holds, ihp hq.1, ihq hq.2]
  | or p q ihp ihq => rw [map, holds, holds, ihp hq.1, ihq hq.2]
  | not p ih => rw [map, holds, holds, ih hq]

/-- A predicate that names attributes in full resolves under the new names to the counterparts. -/
theorem resolve_moved (hs : (s.map Attribute.path).Nodup) (ht : (t.map Attribute.path).Nodup)
    (h : t.types = s.types) {p : Predicate Reference} {q : Predicate Attribute}
    (hp : ∀ r ∈ p.names, r.qualifier ≠ none) (hq : p.resolve s = .ok q) :
    (p.map (Reference.moved s t)).resolve t = .ok (q.map (s.counterpart t)) := by
  obtain ⟨f, hf, rfl, htypes⟩ := exists_map_of_resolve_eq_ok hq
  have hlength := Schema.length_eq_of_types_eq h
  rw [map_map]
  apply resolve_map_eq_ok
  · intro r hr
    have hmem := Reference.mem_of_resolve_eq_ok (hf r hr)
    have hfull := Reference.eq_reference_of_resolve_eq_ok (hp r hr) (hf r hr)
    rw [hfull, Reference.moved_reference hs hlength hmem, ← hfull]
    exact Reference.resolve_reference ht (Schema.counterpart_mem hlength hmem)
  · intro c hc
    rw [← map_map, comparisons_map] at hc
    obtain ⟨before, hbefore, rfl⟩ := List.mem_map.1 hc
    have htype := Operand.type_map (Schema.type_counterpart h)
    rw [htype, htype, htypes before hbefore]

end Predicate

/-! ### Relations -/

namespace Rowset
variable {x : Rowset} {t : Schema} {q : Predicate Attribute}

theorem checkedRename_eq_ok_iff (hx : x.WellFormed) {name : String} {references : List Reference}
    {r : Relation} : Relation.Checked.rename x.relation name references = .ok r ↔
      ∃ t, x.schema.rename name references = .ok t ∧ r = relation ⟨t, x.rows⟩ := by
  rw [rename_relation hx, rename]
  cases x.schema.rename name references with
  | error e => simp [Except.map]
  | ok t => simp [Except.map, pure, Except.pure, eq_comm]

theorem WellFormed.withSchema (hx : x.WellFormed) (ht : t.qualifiedNames.Nodup)
    (h : t.types = x.schema.types) : WellFormed ⟨t, x.rows⟩ := by
  refine ⟨ht, ?_⟩
  intro row hrow
  rw [Schema.Admits, h]
  exact hx.rows row hrow

theorem rows_relation (hx : x.WellFormed) : x.relation.rows = x.rows :=
  congrArg Rowset.rows (rowset_relation hx)

theorem keep_counterpart (ht : t.Nodup) (h : t.types = x.schema.types)
    (hq : q.WellTyped x.schema) :
    keep ⟨t, x.rows⟩ (q.map (x.schema.counterpart t)) = ⟨t, (x.keep q).rows⟩ := by
  have hlength := Schema.length_eq_of_types_eq h
  simp only [keep, mk.injEq, true_and]
  apply List.filter_congr
  intro row _
  exact hq.holds_map fun a ha => Schema.value_counterpart ht hlength ha

end Rowset

namespace Relation
variable {r renamed : Relation} {name : String} {references : List Reference}

/-- A renaming to distinct keys gives the columns the names that are asked for and keeps the types
and the values in their places. Renaming back to the old names in full gives the relation that was
renamed. What a predicate selects that names attributes in full, the predicate under the new names
selects from the renamed relation. -/
theorem rename_isomorphism (hr : make r.schema r.tuples = .ok r)
    (hrenamed : Checked.rename r name references = .ok renamed)
    (hkeys : renamed.schema.qualifiedNames.Nodup) :
    r.schema.rename name references = .ok renamed.schema ∧
    renamed.schema.types = r.schema.types ∧ renamed.rows = r.rows ∧
    (∀ other, Checked.rename renamed other (r.schema.map Attribute.reference) = .ok r) ∧
    ∀ p selected, (∀ n ∈ p.names, n.qualifier ≠ none) → Checked.select r p = .ok selected →
      ∃ s, Checked.select renamed (p.map (Reference.moved r.schema renamed.schema)) = .ok s ∧
        Checked.rename selected name references = .ok s := by
  obtain ⟨x, hx, rfl⟩ := WellFormed.exists_rowset (r := r) (make_eq_ok_iff.1 hr).2
  obtain ⟨t, ht, rfl⟩ := (Rowset.checkedRename_eq_ok_iff hx).1 hrenamed
  change t.qualifiedNames.Nodup at hkeys
  have htypes := Schema.types_rename ht
  have hy : Rowset.WellFormed ⟨t, x.rows⟩ := hx.withSchema hkeys htypes
  have hpaths := Schema.nodup_paths_of_distinct hx.distinct
  refine ⟨ht, htypes, ?_, ?_, ?_⟩
  · rw [Rowset.rows_relation hx, Rowset.rows_relation hy]
  · intro other
    exact (Rowset.checkedRename_eq_ok_iff hy).2 ⟨_, Schema.rename_reference hpaths htypes, rfl⟩
  · intro p _ hp hselected
    obtain ⟨q, hq, rfl⟩ := (Rowset.checkedSelect_eq_ok_iff hx).1 hselected
    have hpaths' := Schema.nodup_paths_of_distinct hkeys
    have hmoved := Predicate.resolve_moved hpaths hpaths' htypes hp hq
    refine ⟨_, (Rowset.checkedSelect_eq_ok_iff hy).2 ⟨_, hmoved, rfl⟩, ?_⟩
    refine (Rowset.checkedRename_eq_ok_iff (hx.keep q)).2 ⟨t, ht, ?_⟩
    have hwell := Predicate.wellTyped_of_resolve_eq_ok hq
    exact congrArg Rowset.relation
      (Rowset.keep_counterpart (Schema.nodup_of_distinct hkeys) htypes hwell)

/-- Two columns exchange their names and the third gets another qualifier. The predicate follows the
columns, not the names. -/
theorem rename_isomorphism_exchange :
    let r := Rowset.relation ⟨[⟨"r", "a", .number⟩, ⟨"r", "b", .number⟩, ⟨"r", "c", .string⟩],
      [[.number 1, .number 2, .text "u"], [.number 2, .number 1, .text "v"],
        [.number 1, .number 3, .text "v"]]⟩
    let references : List Reference := [.bare "b", .bare "a", .qualified "s" "c"]
    let p : Predicate Reference :=
      .and (.compare .lt (.named (.qualified "r" "a")) (.named (.qualified "r" "b")))
        (.not (.compare .eq (.named (.qualified "r" "c")) (.literal (.text "v"))))
    make r.schema r.tuples = .ok r ∧
    ∃ renamed, Checked.rename r "r" references = .ok renamed ∧
      r.schema.rename "r" references = .ok renamed.schema ∧
      renamed.schema.qualifiedNames = ["r.b", "r.a", "s.c"] ∧ renamed.rows = r.rows ∧
      Checked.rename renamed "t" (r.schema.map Attribute.reference) = .ok r ∧
      p.map (Reference.moved r.schema renamed.schema) =
        .and (.compare .lt (.named (.qualified "r" "b")) (.named (.qualified "r" "a")))
          (.not (.compare .eq (.named (.qualified "s" "c")) (.literal (.text "v")))) ∧
      ∃ selected s, Checked.select r p = .ok selected ∧
        Checked.select renamed (p.map (Reference.moved r.schema renamed.schema)) = .ok s ∧
        Checked.rename selected "r" references = .ok s ∧
        selected.rows = [[.number 1, .number 2, .text "u"]] := by
  intro r references p
  have hr : make r.schema r.tuples = .ok r := by decide
  have exchanged : Checked.rename r "r" references = .ok (Rowset.relation
      ⟨[⟨"r", "b", .number⟩, ⟨"r", "a", .number⟩, ⟨"s", "c", .string⟩], r.rows⟩) := by decide
  have qualified : ∀ n ∈ p.names, n.qualifier ≠ none := by decide
  have selected : Checked.select r p = .ok ⟨r.schema, r.tuples.take 1⟩ := by decide
  obtain ⟨names, _, rows, back, selects⟩ := rename_isomorphism hr exchanged (by decide)
  obtain ⟨s, select, rename⟩ := selects p _ qualified selected
  exact ⟨hr, _, exchanged, names, by decide, rows, back "t", by decide, _, s, selected, select,
    rename, by decide⟩

end Relation

end RelationalAlgebra
