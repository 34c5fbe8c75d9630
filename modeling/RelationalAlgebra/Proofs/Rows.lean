import Mathlib.Data.List.GetD
import Mathlib.Data.List.Perm.Subperm
import RelationalAlgebra.Proofs.NameMap
import RelationalAlgebra.Proofs.QualifiedNames
import RelationalAlgebra.Relation.Operators

/-!
# Rows and tuples

A tuple holds the values of a row under the qualified names of a schema. As long as those names are
distinct, row and tuple determine each other (`tupleOfRow_valuesAt`, `valuesAt_tupleOfRow`), and
what the operators do to tuples by name is what they do to rows by position: relabelling picks
columns, and merging appends rows.
-/
namespace RelationalAlgebra

namespace Schema
variable {s chosen : Schema} {row : List Value} {a : Attribute}

/-- A row has one value of the declared type for each column. -/
def Admits (s : Schema) (row : List Value) : Prop := row.map Value.type = s.types

/-- The value of a column in a row. -/
def value (s : Schema) (row : List Value) (a : Attribute) : Value := row.getD (s.idxOf a) default

/-- The values of some columns in a row. -/
def pick (s chosen : Schema) (row : List Value) : List Value := chosen.map (s.value row)

theorem Admits.length_eq (h : s.Admits row) : row.length = s.length := by
  have := congrArg List.length h
  simpa [types] using this

theorem value_eq_getElem (h : row.length = s.length) (ha : a ∈ s) :
    s.value row a = row.get ⟨s.idxOf a, h ▸ List.idxOf_lt_length_of_mem ha⟩ := by
  rw [value, List.getD_eq_getElem?_getD, List.getElem?_eq_getElem, Option.getD_some,
    List.get_eq_getElem]

theorem zip_eq_map_value (hs : s.Nodup) (h : row.length = s.length) :
    s.zip row = s.map fun a => (a, s.value row a) := by
  apply List.ext_getElem (by simp [h])
  intro i hzip hmap
  have hi : i < s.length := by simpa using hmap
  have hvalue : s.value row s[i] = row[i] := by
    rw [value_eq_getElem h (List.getElem_mem hi)]
    simp only [hs.idxOf_getElem i hi, List.get_eq_getElem]
  simp [hvalue]

theorem pick_self (hs : s.Nodup) (h : row.length = s.length) : s.pick s row = row := by
  have hrow : (s.zip row).map Prod.snd = row := List.map_snd_zip (by omega)
  rw [zip_eq_map_value hs h, List.map_map] at hrow
  exact hrow

theorem pick_append (s chosen more : Schema) (row : List Value) :
    s.pick (chosen ++ more) row = s.pick chosen row ++ s.pick more row := List.map_append

/-! A row put in front of another is found in the left part of the joint schema. -/

theorem value_append_left {t : Schema} {more : List Value} (h : row.length = s.length)
    (ha : a ∈ s) : (s ++ t).value (row ++ more) a = s.value row a := by
  have hi : s.idxOf a < row.length := h ▸ List.idxOf_lt_length_of_mem ha
  rw [value, value, List.idxOf_append_of_mem ha, List.getD_append _ _ _ _ hi]

theorem value_append_right {t : Schema} {more : List Value} (h : row.length = s.length)
    (ha : a ∉ s) : (s ++ t).value (row ++ more) a = t.value more a := by
  rw [value, value, List.idxOf_append_of_notMem ha, ← h,
    List.getD_append_right _ _ _ _ (Nat.le_add_right ..), Nat.add_sub_cancel_left]

theorem value_pick (ha : a ∈ chosen) : chosen.value (s.pick chosen row) a = s.value row a := by
  have hi := List.idxOf_lt_length_of_mem ha
  rw [value, pick, List.getD_eq_getElem?_getD, List.getElem?_map, List.getElem?_eq_getElem hi,
    List.getElem_idxOf hi]
  rfl

theorem pick_append_left {t : Schema} {more : List Value} (h : row.length = s.length)
    (hc : chosen ⊆ s) : (s ++ t).pick chosen (row ++ more) = s.pick chosen row :=
  List.map_congr_left fun _ ha => value_append_left h (hc ha)

theorem pick_append_right {t : Schema} {more : List Value} (h : row.length = s.length)
    (hc : ∀ a ∈ chosen, a ∉ s) : (s ++ t).pick chosen (row ++ more) = t.pick chosen more :=
  List.map_congr_left fun a ha => value_append_right h (hc a ha)

theorem pick_pick {inner : Schema} (hi : inner ⊆ chosen) :
    chosen.pick inner (s.pick chosen row) = s.pick inner row :=
  List.map_congr_left fun _ ha => value_pick (hi ha)

theorem Admits.type_value (h : s.Admits row) (ha : a ∈ s) : (s.value row a).type = a.type := by
  have hi := List.idxOf_lt_length_of_mem ha
  have htypes : (row.map Value.type)[s.idxOf a]? = s.types[s.idxOf a]? := by rw [h]
  have hrow : s.idxOf a < row.length := h.length_eq ▸ hi
  rw [types, List.getElem?_map, List.getElem?_map, List.getElem?_eq_getElem hi,
    List.getElem?_eq_getElem hrow, List.getElem_idxOf hi] at htypes
  rw [value_eq_getElem h.length_eq ha]
  exact Option.some.inj htypes

theorem Admits.pick (h : s.Admits row) (hc : chosen ⊆ s) : chosen.Admits (s.pick chosen row) := by
  simp only [Admits, Schema.pick, types, List.map_map]
  exact List.map_congr_left fun a ha => h.type_value (hc ha)

theorem Admits.append {t : Schema} {more : List Value} (h : s.Admits row) (h' : t.Admits more) :
    (s ++ t).Admits (row ++ more) := by
  simp only [Admits, types, List.map_append] at *
  rw [h, h']

end Schema

namespace Relation
variable {s chosen : Schema} {row : List Value} {a : Attribute} {t : Tuple}

theorem tupleOfRow_eq (hs : s.qualifiedNames.Nodup) (h : row.length = s.length) :
    tupleOfRow s row = .ofList (s.map fun a => (a.qualifiedName, s.value row a)) := by
  have hzip : s.qualifiedNames.zip row = (s.zip row).map (Prod.map Attribute.qualifiedName id) :=
    List.zip_map_left ..
  rw [tupleOfRow, hzip, Schema.zip_eq_map_value (Schema.nodup_of_distinct hs) h, List.map_map]
  rfl

theorem get?_tupleOfRow (hs : s.qualifiedNames.Nodup) (h : row.length = s.length) (ha : a ∈ s) :
    (tupleOfRow s row).get? a.qualifiedName = some (s.value row a) := by
  have hkeys : ((s.map fun a => (a.qualifiedName, s.value row a)).map (·.1)).Nodup := by
    rw [List.map_map]
    exact hs
  rw [tupleOfRow_eq hs h, NameMap.get?_ofList_eq_some_iff hkeys]
  exact List.mem_map_of_mem ha

theorem valuesAt_tupleOfRow (hs : s.qualifiedNames.Nodup) (h : row.length = s.length)
    (hc : chosen ⊆ s) : valuesAt chosen.qualifiedNames (tupleOfRow s row) = s.pick chosen row := by
  rw [valuesAt, Schema.qualifiedNames, List.filterMap_map, Schema.pick, ← List.filterMap_eq_map]
  exact List.filterMap_congr fun a ha => get?_tupleOfRow hs h (hc ha)

theorem valuesAt_tupleOfRow_self (hs : s.qualifiedNames.Nodup) (h : row.length = s.length) :
    valuesAt s.qualifiedNames (tupleOfRow s row) = row := by
  rw [valuesAt_tupleOfRow hs h (List.Subset.refl _),
    Schema.pick_self (Schema.nodup_of_distinct hs) h]

theorem rows_map_tupleOfRow {rows : List (List Value)} (hs : s.qualifiedNames.Nodup)
    (h : ∀ row ∈ rows, row.length = s.length) :
    Relation.rows ⟨s, rows.map (tupleOfRow s)⟩ = rows := by
  rw [Relation.rows, List.map_map]
  apply (List.map_congr_left _).trans (List.map_id _)
  intro row hrow
  exact valuesAt_tupleOfRow_self hs (h row hrow)

theorem relabel_tupleOfRow (hs : s.qualifiedNames.Nodup) (h : row.length = s.length)
    (hc : chosen ⊆ s) (names : List String) :
    (tupleOfRow s row).relabel (names.zip chosen.qualifiedNames) =
      .ofList (names.zip (s.pick chosen row)) := by
  have hpairs : ∀ n ∈ names.zip chosen, ((tupleOfRow s row).get? n.2.qualifiedName).map (n.1, ·) =
      some (n.1, s.value row n.2) := by
    intro n hn
    rw [get?_tupleOfRow hs h (hc (List.of_mem_zip hn).2)]
    rfl
  rw [Tuple.relabel, Schema.qualifiedNames, Schema.pick, List.zip_map_right, List.zip_map_right,
    List.filterMap_map, ← List.filterMap_eq_map]
  congr 1
  exact List.filterMap_congr hpairs

theorem merge_tupleOfRow {u : Schema} {more : List Value} (hs : (s ++ u).qualifiedNames.Nodup)
    (h : row.length = s.length) (h' : more.length = u.length) :
    (tupleOfRow s row).merge (tupleOfRow u more) = tupleOfRow (s ++ u) (row ++ more) := by
  have hzip : (s ++ u).qualifiedNames.zip (row ++ more) =
      s.qualifiedNames.zip row ++ u.qualifiedNames.zip more := by
    rw [Schema.qualifiedNames, List.map_append, List.zip_append (by simp [h])]
    rfl
  have hkeys : ((s.qualifiedNames.zip row ++ u.qualifiedNames.zip more).map (·.1)).Nodup := by
    rw [← hzip, List.map_fst_zip (by simp [Schema.qualifiedNames, h, h'])]
    exact hs
  rw [tupleOfRow, tupleOfRow, tupleOfRow, NameMap.merge_ofList hkeys, hzip]

theorem size_tupleOfRow (hs : s.qualifiedNames.Nodup) (h : row.length = s.length) :
    (tupleOfRow s row).size = s.length := by
  rw [tupleOfRow_eq hs h, NameMap.size_ofList (by rw [List.map_map]; exact hs), List.length_map]

theorem fits_tupleOfRow (hs : s.qualifiedNames.Nodup) (h : s.Admits row) :
    Fits s (tupleOfRow s row) := by
  constructor
  · exact size_tupleOfRow hs h.length_eq
  · exact fun a ha => ⟨_, get?_tupleOfRow hs h.length_eq ha, h.type_value ha⟩

/-- The names in a tuple that fits are those of the schema. -/
theorem Fits.mem_names_iff (hs : s.qualifiedNames.Nodup) (ht : Fits s t) {name : String} :
    name ∈ t.names ↔ name ∈ s.qualifiedNames := by
  have hsub : s.qualifiedNames ⊆ t.names := by
    intro name hname
    obtain ⟨a, ha, rfl⟩ := List.mem_map.1 hname
    obtain ⟨v, hv, _⟩ := ht.2 a ha
    exact List.mem_map_of_mem (t.get?_eq_some_iff.1 hv)
  have hlength : t.names.length ≤ s.qualifiedNames.length := by
    simpa [NameMap.names, Schema.qualifiedNames, NameMap.size] using Nat.le_of_eq ht.1
  exact ((hs.subperm hsub).perm_of_length_le hlength).symm.mem_iff

theorem Fits.valuesAt_eq_map (ht : Fits s t) :
    ∃ f : Attribute → Value, valuesAt s.qualifiedNames t = s.map f ∧
      ∀ a ∈ s, t.get? a.qualifiedName = some (f a) ∧ (f a).type = a.type := by
  refine ⟨fun a => (t.get? a.qualifiedName).getD default, ?_, ?_⟩
  · rw [valuesAt, Schema.qualifiedNames, List.filterMap_map, ← List.filterMap_eq_map]
    apply List.filterMap_congr
    intro a ha
    obtain ⟨v, hv, _⟩ := ht.2 a ha
    simp [hv]
  · intro a ha
    obtain ⟨v, hv, htype⟩ := ht.2 a ha
    simp [hv, htype]

theorem Fits.admits_valuesAt (ht : Fits s t) : s.Admits (valuesAt s.qualifiedNames t) := by
  obtain ⟨f, hf, hall⟩ := ht.valuesAt_eq_map
  simp only [Schema.Admits, hf, Schema.types, List.map_map]
  exact List.map_congr_left fun a ha => (hall a ha).2

/-- A tuple that fits is the tuple of its row. -/
theorem Fits.tupleOfRow_valuesAt (hs : s.qualifiedNames.Nodup) (ht : Fits s t) :
    tupleOfRow s (valuesAt s.qualifiedNames t) = t := by
  obtain ⟨f, hf, hall⟩ := ht.valuesAt_eq_map
  have hpairs : s.qualifiedNames.zip (s.map f) = s.map fun a => (a.qualifiedName, f a) :=
    List.zip_map' ..
  have hkeys : ((s.map fun a => (a.qualifiedName, f a)).map (·.1)).Nodup := by
    rw [List.map_map]
    exact hs
  rw [tupleOfRow, hf, hpairs]
  apply NameMap.eq_of_get?_eq_some_iff
  intro name value
  rw [NameMap.get?_ofList_eq_some_iff hkeys]
  constructor
  · intro hmem
    obtain ⟨a, ha, heq⟩ := List.mem_map.1 hmem
    cases heq
    exact (hall a ha).1
  · intro hget
    have hname := (ht.mem_names_iff hs).1 (List.mem_map_of_mem (t.get?_eq_some_iff.1 hget))
    obtain ⟨a, ha, rfl⟩ := List.mem_map.1 hname
    rw [(hall a ha).1] at hget
    cases hget
    exact List.mem_map_of_mem ha

end Relation

end RelationalAlgebra
