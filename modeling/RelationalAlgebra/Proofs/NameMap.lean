import Mathlib.Data.List.Nodup
import Mathlib.Data.List.Perm.Subperm
import RelationalAlgebra.NameMap

/-!
# Maps made of pairs with distinct names

Later pairs replace earlier ones of the same name, so a map made of pairs holds all of them only if
their names are distinct. Then membership says everything about it: the order of the pairs does not
matter, and none is lost.
-/
namespace RelationalAlgebra.NameMap

variable {α : Type} {pairs left right : List (String × α)} {name : String} {value : α}
variable {names : List String} {m : NameMap α}

theorem nodup_names (m : NameMap α) : m.names.Nodup := by
  rw [names, List.Nodup, List.pairwise_map]
  refine m.sorted.imp ?_
  intro a b hlt heq
  rw [heq] at hlt
  exact String.lt_irrefl _ hlt

theorem lookup_eq_some_iff_mem (h : (pairs.map (·.1)).Nodup) :
    pairs.lookup name = some value ↔ (name, value) ∈ pairs := by
  induction pairs with
  | nil => simp
  | cons pair pairs ih =>
    obtain ⟨hfresh, hrest⟩ := List.nodup_cons.1 h
    rw [lookup_cons]
    by_cases hname : name = pair.1
    · obtain ⟨first, second⟩ := pair
      cases hname
      have habsent : (first, value) ∉ pairs := fun hmem =>
        hfresh (List.mem_map.2 ⟨_, hmem, rfl⟩)
      simp [habsent, eq_comm]
    · have hne : (name, value) ≠ pair := fun heq => hname (heq ▸ rfl)
      simp [hname, hne, ih hrest]

theorem get?_eq_some_iff (m : NameMap α) : m.get? name = some value ↔ (name, value) ∈ m.entries :=
  lookup_eq_some_iff_mem m.nodup_names

theorem mem_names_iff : name ∈ m.names ↔ ∃ value, m.get? name = some value := by
  simp [names, get?_eq_some_iff]

theorem get?_ofList_eq_some_iff (h : (pairs.map (·.1)).Nodup) :
    (ofList pairs).get? name = some value ↔ (name, value) ∈ pairs := by
  have hreverse : (pairs.reverse.map (·.1)).Nodup := by
    rw [List.map_reverse]
    exact List.nodup_reverse.2 h
  rw [get?_ofList, lookup_eq_some_iff_mem hreverse, List.mem_reverse]

theorem mem_names_ofList : name ∈ (ofList pairs).names ↔ name ∈ pairs.map (·.1) := by
  have hlookup : ∀ entries : List (String × α),
      (∃ value, entries.lookup name = some value) ↔ name ∈ entries.map (·.1) := by
    intro entries
    induction entries with
    | nil => simp
    | cons entry entries ih =>
      rw [lookup_cons]
      by_cases h : name = entry.1 <;> simp [h] at ih ⊢
      exact ih
  rw [mem_names_iff, get?_ofList, hlookup]
  simp

theorem eq_of_get?_eq_some_iff {m n : NameMap α}
    (h : ∀ name value, m.get? name = some value ↔ n.get? name = some value) : m = n :=
  ext_get? fun name => Option.ext (h name)

theorem entries_ofList_perm (h : (pairs.map (·.1)).Nodup) : (ofList pairs).entries.Perm pairs := by
  refine (List.perm_ext_iff_of_nodup (ofList pairs).nodup_names.of_map h.of_map).2 ?_
  rintro ⟨name, value⟩
  rw [← get?_eq_some_iff, get?_ofList_eq_some_iff h]

theorem size_ofList (h : (pairs.map (·.1)).Nodup) : (ofList pairs).size = pairs.length :=
  (entries_ofList_perm h).length_eq

theorem get?_merge (m n : NameMap α) (name : String) :
    (m.merge n).get? name = (n.get? name).or (m.get? name) := by
  have hreverse : n.entries.reverse.lookup name = n.entries.lookup name := by
    have hn : (n.entries.reverse.map (·.1)).Nodup := by
      rw [List.map_reverse]
      exact List.nodup_reverse.2 n.nodup_names
    ext value
    rw [lookup_eq_some_iff_mem hn, List.mem_reverse]
    exact n.get?_eq_some_iff.symm
  rw [merge, get?_insertAll, hreverse]
  rfl

theorem merge_assoc (m n k : NameMap α) : (m.merge n).merge k = m.merge (n.merge k) := by
  apply ext_get?
  intro name
  rw [get?_merge, get?_merge, get?_merge, get?_merge, Option.or_assoc]

theorem mem_names_merge {n : NameMap α} :
    name ∈ (m.merge n).names ↔ name ∈ m.names ∨ name ∈ n.names := by
  simp only [mem_names_iff, get?_merge]
  cases m.get? name <;> cases n.get? name <;> simp

/-- A map whose names are those of a list has as many entries as the list exactly when the list
repeats none. -/
theorem size_eq_length_iff_nodup (h : ∀ name, name ∈ m.names ↔ name ∈ names) :
    m.size = names.length ↔ names.Nodup := by
  have hsize : m.names.length = m.size := List.length_map ..
  rw [← hsize]
  constructor
  · intro hlength
    have hsubperm := m.nodup_names.subperm fun _ => (h _).1
    have hperm := hsubperm.perm_of_length_le (Nat.le_of_eq hlength.symm)
    exact hperm.nodup_iff.1 m.nodup_names
  · intro hnodup
    exact ((List.perm_ext_iff_of_nodup m.nodup_names hnodup).2 h).length_eq

/-- Merging keeps the pairs of both sides if no name is on both. -/
theorem merge_ofList (h : ((left ++ right).map (·.1)).Nodup) :
    (ofList left).merge (ofList right) = ofList (left ++ right) := by
  have hboth := h
  rw [List.map_append, List.nodup_append] at hboth
  obtain ⟨hleft, hright, hdisjoint⟩ := hboth
  apply eq_of_get?_eq_some_iff
  intro name value
  rw [get?_merge, Option.or_eq_some_iff, get?_ofList_eq_some_iff hright,
    get?_ofList_eq_some_iff hleft, get?_ofList_eq_some_iff h, List.mem_append]
  constructor
  · rintro (hmem | ⟨_, hmem⟩)
    · exact .inr hmem
    · exact .inl hmem
  · rintro (hmem | hmem)
    · refine .inr ⟨?_, hmem⟩
      apply Option.eq_none_iff_forall_ne_some.2
      intro other hother
      rw [get?_ofList_eq_some_iff hright] at hother
      exact hdisjoint name (List.mem_map_of_mem hmem) name (List.mem_map_of_mem hother) rfl
    · exact .inl hmem

end RelationalAlgebra.NameMap
