import RelationalAlgebra.Proofs.Rowset

/-!
# Sound rowsets

A rowset is well-formed if its qualified names are distinct and every row has a value of the
declared type for each column; it is sound if its schema is sound besides. The operators on schemas
keep schemas sound, and what they give is all that the operators on rowsets need to keep rows well
typed.
-/
namespace RelationalAlgebra

@[simp]
theorem ok_bind {α β : Type} (a : α) (f : α → Except Error β) : (Except.ok a >>= f) = f a := rfl

@[simp]
theorem error_bind {α β : Type} (e : Error) (f : α → Except Error β) :
    (Except.error e >>= f) = .error e := rfl

theorem exists_of_bind_eq_ok {α β : Type} {x : Except Error α} {f : α → Except Error β} {b : β}
    (h : x >>= f = .ok b) : ∃ a, x = .ok a ∧ f a = .ok b := by
  cases x with
  | error e => cases h
  | ok a => exact ⟨a, rfl, h⟩

theorem nodup_eraseDups {α : Type} [DecidableEq α] (l : List α) : l.eraseDups.Nodup := by
  induction h : l.length using Nat.strongRecOn generalizing l with
  | ind n ih =>
    cases l with
    | nil => simp
    | cons a l =>
      have hlength : (l.filter fun b => !b == a).length < n := by
        have := List.length_filter_le (fun b => !b == a) l
        rw [List.length_cons] at h
        omega
      rw [List.eraseDups_cons, List.nodup_cons]
      refine ⟨?_, ih _ hlength _ rfl⟩
      simp [List.mem_eraseDups]

/-- A reference whose qualifier, if any, holds no dot. -/
def Reference.Plain (r : Reference) : Prop := ∀ q ∈ r.qualifier, RelationalAlgebra.Plain q

/-! ### Resolution -/

theorem Reference.mem_of_resolve_eq_ok {r : Reference} {s : Schema} {a : Attribute}
    (h : r.resolve s = .ok a) : a ∈ s := by
  unfold resolve at h
  split at h
  · split at h
    · rename_i b hb
      cases h
      exact List.mem_of_find?_eq_some hb
    · cases h
  · split at h
    · cases h
    · rename_i b hb
      cases h
      have : a ∈ s.filter fun a => a.name = r.name := by simp [hb]
      exact (List.mem_filter.1 this).1
    · cases h

theorem Reference.subset_of_resolveAll_eq_ok {s chosen : Schema} {rs : List Reference}
    (h : resolveAll s rs = .ok chosen) : chosen ⊆ s := by
  induction rs generalizing chosen with
  | nil =>
    cases h
    exact List.nil_subset s
  | cons r rs ih =>
    obtain ⟨a, ha, h⟩ := exists_of_bind_eq_ok h
    obtain ⟨rest, hrest, h⟩ := exists_of_bind_eq_ok h
    cases h
    exact List.cons_subset.2 ⟨mem_of_resolve_eq_ok ha, ih hrest⟩

/-! ### Schemas -/

namespace Schema
variable {s t u : Schema} {name : String} {references : List Reference}

theorem project_eq_ok (h : s.project references = .ok t) : t.Nodup ∧ t ⊆ s := by
  obtain ⟨chosen, hc, h⟩ := exists_of_bind_eq_ok h
  cases h
  refine ⟨nodup_eraseDups chosen, ?_⟩
  intro a ha
  exact Reference.subset_of_resolveAll_eq_ok hc (List.mem_eraseDups.1 ha)

theorem Sound.project (hs : s.Sound) (h : s.project references = .ok t) : t.Sound := by
  obtain ⟨hnodup, hsubset⟩ := project_eq_ok h
  exact hs.subset hnodup hsubset

theorem map_path_withNames {names : List QualifiedName} (h : names.length = s.length) :
    (s.withNames names).map Attribute.path = names := by
  apply List.ext_getElem (by simp [withNames, h])
  intro i _ _
  simp [withNames, Attribute.withName, Attribute.path]

theorem types_withNames {names : List QualifiedName} (h : names.length = s.length) :
    (s.withNames names).types = s.types := by
  apply List.ext_getElem (by simp [withNames, types, h])
  intro i _ _
  simp [withNames, types]

/-- What a renaming gives: distinct new names, qualified by `name` or by a reference. -/
theorem rename_eq_ok (h : s.rename name references = .ok t) :
    ∃ names, t = s.withNames names ∧ names.length = s.length ∧ names.Nodup ∧
      ∀ n ∈ names, n.qualifier = name ∨ ∃ r ∈ references, n.qualifier ∈ r.qualifier := by
  simp only [rename] at h
  split at h
  · split at h
    · rename_i hn
      cases h
      refine ⟨_, rfl, by simp [bareNames], ?_, ?_⟩
      · exact hn.map fun a b heq => (QualifiedName.mk.inj heq).2
      · intro n hmem
        obtain ⟨_, _, rfl⟩ := List.mem_map.1 hmem
        exact .inl rfl
    · cases h
  · split at h
    · cases h
    · rename_i hlength
      split at h
      · rename_i hn
        cases h
        refine ⟨_, rfl, by simpa using hlength, hn, ?_⟩
        intro n hmem
        obtain ⟨r, hr, rfl⟩ := List.mem_map.1 hmem
        cases hq : r.qualifier with
        | none => exact .inl (by simp [Relation.Checked.target, hq])
        | some q => exact .inr ⟨r, hr, by simp [Relation.Checked.target, hq]⟩
      · cases h

theorem types_rename (h : s.rename name references = .ok t) : t.types = s.types := by
  obtain ⟨names, rfl, hlength, _⟩ := rename_eq_ok h
  exact types_withNames hlength

theorem sound_rename (hname : Plain name) (hr : ∀ r ∈ references, r.Plain)
    (h : s.rename name references = .ok t) : t.Sound := by
  obtain ⟨names, rfl, hlength, hn, hqualifier⟩ := rename_eq_ok h
  have hpaths := map_path_withNames hlength
  have hplain : ∀ a ∈ s.withNames names, Plain a.qualifier := by
    intro a ha
    have hmem : a.path ∈ names := hpaths ▸ List.mem_map_of_mem ha
    rcases hqualifier _ hmem with heq | ⟨r, hr', hq⟩
    · rw [← heq] at hname
      exact hname
    · exact hr r hr' _ hq
  refine ⟨distinct_of_nodup_paths hplain ?_, hplain⟩
  rw [hpaths]
  exact hn

theorem added_subset (s t : Schema) : s.added t ⊆ t := fun _ ha => (List.mem_filter.1 ha).1

theorem Sound.added (ht : t.Sound) : (s.added t).Sound :=
  ht.subset ((nodup_of_distinct ht.distinct).filter _) (added_subset s t)

theorem Sound.append_added (hs : s.Sound) (ht : t.Sound) : (s ++ s.added t).Sound := by
  apply hs.append ht.added
  intro a ha b hb heq
  have hnew : b.name ∉ s.bareNames := by simpa using (List.mem_filter.1 hb).2
  have hname : a.name = b.name := congrArg QualifiedName.name heq
  exact hnew (hname ▸ List.mem_map_of_mem ha)

theorem Sound.combine {op : BinaryOperator} (hs : s.Sound) (ht : t.Sound)
    (h : s.combine op t = .ok u) : u.Sound := by
  cases op with
  | set op =>
    simp only [Schema.combine] at h
    split at h
    · cases h
      exact hs
    · cases h
  | product =>
    simp only [Schema.combine] at h
    split at h
    · rename_i hpaths
      cases h
      rw [List.map_append, List.nodup_append] at hpaths
      apply hs.append ht
      intro a ha b hb
      exact hpaths.2.2 _ (List.mem_map_of_mem ha) _ (List.mem_map_of_mem hb)
    · cases h
  | join =>
    cases h
    exact hs.append_added ht

end Schema

/-! ### Rowsets -/

namespace Rowset
variable {x y z : Rowset}

/-- Distinct qualified names and well-typed rows. -/
structure WellFormed (x : Rowset) : Prop where
  distinct : x.schema.qualifiedNames.Nodup
  rows : ∀ row ∈ x.rows, x.schema.Admits row

/-- A sound schema and well-typed rows. -/
structure Sound (x : Rowset) : Prop where
  schema : x.schema.Sound
  rows : ∀ row ∈ x.rows, x.schema.Admits row

theorem Sound.wellFormed (hx : x.Sound) : x.WellFormed := ⟨hx.schema.distinct, hx.rows⟩

theorem Sound.project (hx : x.Sound) {references : List Reference}
    (h : x.project references = .ok y) : y.Sound := by
  obtain ⟨s, hs, h⟩ := exists_of_bind_eq_ok h
  cases h
  refine ⟨hx.schema.project hs, ?_⟩
  intro row hrow
  obtain ⟨whole, hwhole, rfl⟩ := List.mem_map.1 hrow
  exact (hx.rows whole hwhole).pick (Schema.project_eq_ok hs).2

theorem Sound.select (hx : x.Sound) {p : Predicate Reference} (h : x.select p = .ok y) :
    y.Sound := by
  obtain ⟨q, _, h⟩ := exists_of_bind_eq_ok h
  cases h
  exact ⟨hx.schema, fun row hrow => hx.rows row (List.mem_filter.1 hrow).1⟩

theorem Sound.rename (hx : x.Sound) {name : String} {references : List Reference}
    (hname : Plain name) (hr : ∀ r ∈ references, r.Plain) (h : x.rename name references = .ok y) :
    y.Sound := by
  obtain ⟨s, hs, h⟩ := exists_of_bind_eq_ok h
  cases h
  refine ⟨Schema.sound_rename hname hr hs, ?_⟩
  intro row hrow
  rw [Schema.Admits, Schema.types_rename hs]
  exact hx.rows row hrow

theorem admits_of_mem_combineRows {op : BinaryOperator} {s : Schema} {row : List Value}
    (hx : x.WellFormed) (hy : y.WellFormed) (hs : x.schema.combine op y.schema = .ok s)
    (hrow : row ∈ combineRows op x y) : s.Admits row := by
  cases op with
  | set op =>
    simp only [Schema.combine] at hs
    split at hs
    · rename_i htypes
      cases hs
      cases op with
      | union =>
        rcases List.mem_append.1 hrow with hrow | hrow
        · exact hx.rows row hrow
        · rw [Schema.Admits, htypes]
          exact hy.rows row (List.mem_filter.1 hrow).1
      | intersection => exact hx.rows row (List.mem_filter.1 hrow).1
      | difference => exact hx.rows row (List.mem_filter.1 hrow).1
    · cases hs
  | product =>
    simp only [Schema.combine] at hs
    split at hs
    · cases hs
      obtain ⟨left, hleft, hrow⟩ := List.mem_flatMap.1 hrow
      obtain ⟨right, hright, rfl⟩ := List.mem_map.1 hrow
      exact (hx.rows left hleft).append (hy.rows right hright)
    · cases hs
  | join =>
    cases hs
    obtain ⟨left, hleft, hrow⟩ := List.mem_flatMap.1 hrow
    obtain ⟨right, hright, rfl⟩ := List.mem_map.1 hrow
    have hright' := hy.rows right (List.mem_filter.1 hright).1
    exact (hx.rows left hleft).append (hright'.pick (Schema.added_subset _ _))

theorem Sound.combine {op : BinaryOperator} (hx : x.Sound) (hy : y.Sound)
    (h : combine op x y = .ok z) : z.Sound := by
  obtain ⟨s, hs, h⟩ := exists_of_bind_eq_ok h
  cases h
  refine ⟨hx.schema.combine hy.schema hs, ?_⟩
  exact fun _ hrow => admits_of_mem_combineRows hx.wellFormed hy.wellFormed hs hrow

end Rowset

end RelationalAlgebra
