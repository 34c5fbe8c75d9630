import RelationalAlgebra.Proofs.Rows

/-!
# Making relations

A schema and tuples make a relation if the qualified names are distinct and every tuple is one over
the schema. The check counts the entries of a tuple and then looks up the names of the schema only;
with distinct names no entry can be left over. Rows make a relation if the columns have different
names and every row has a value of the right type in each column, and the relation gives back these
rows (`Relation.constructors_exact`).
-/
namespace RelationalAlgebra

/-- A tuple over a schema: its keys are the qualified names, and each value has the type of its
attribute. -/
structure Tuple.Over (s : Schema) (t : Tuple) : Prop where
  keys : ∀ key, key ∈ t.names ↔ key ∈ s.qualifiedNames
  types : ∀ a ∈ s, ∀ v, t.get? a.qualifiedName = some v → v.type = a.type

namespace Schema
variable {qualifier : String} {columns : List (String × DataType)} {row : List Value}

/-- The schema of columns that share a qualifier. -/
def ofColumns (qualifier : String) (columns : List (String × DataType)) : Schema :=
  columns.map fun c => ⟨qualifier, c.1, c.2⟩

theorem qualifiedNames_ofColumns (qualifier : String) (columns : List (String × DataType)) :
    (ofColumns qualifier columns).qualifiedNames =
      (columns.map Prod.fst).map (qualifier ++ "." ++ ·) := by
  simp only [qualifiedNames, ofColumns, List.map_map]
  congr 1

theorem distinct_ofColumns_iff :
    (ofColumns qualifier columns).qualifiedNames.Nodup ↔ (columns.map Prod.fst).Nodup := by
  rw [qualifiedNames_ofColumns]
  exact List.nodup_map_iff fun _ _ heq => (String.append_right_inj _).1 heq

theorem admits_ofColumns_iff : (ofColumns qualifier columns).Admits row ↔
    List.Forall₂ (fun c v => v.type = c.2) columns row := by
  have htypes : (ofColumns qualifier columns).types = columns.map Prod.snd := by
    simp only [types, ofColumns, List.map_map]
    congr 1
  rw [Admits, htypes, eq_comm, ← List.forall₂_eq_eq_eq, List.forall₂_map_left_iff,
    List.forall₂_map_right_iff]
  simp only [eq_comm]

end Schema

namespace Relation
variable {s : Schema} {t : Tuple} {row : List Value} {r : Relation}

/-- With distinct names, a tuple of the right size that has every name has no other. -/
theorem fits_iff_over (hs : s.qualifiedNames.Nodup) : Fits s t ↔ t.Over s := by
  constructor
  · intro ht
    refine ⟨fun key => ht.mem_names_iff hs, ?_⟩
    intro a ha v hv
    obtain ⟨w, hw, htype⟩ := ht.2 a ha
    rw [hv] at hw
    cases hw
    exact htype
  · intro ht
    constructor
    · have hsize := (NameMap.size_eq_length_iff_nodup ht.keys).2 hs
      rwa [Schema.qualifiedNames, List.length_map] at hsize
    · intro a ha
      obtain ⟨v, hv⟩ := NameMap.mem_names_iff.1 ((ht.keys _).2 (List.mem_map_of_mem ha))
      exact ⟨v, hv, ht.types a ha v hv⟩

theorem exists_make_iff {ts : List Tuple} :
    (∃ r, make s ts = .ok r) ↔ s.qualifiedNames.Nodup ∧ ∀ t ∈ ts, t.Over s := by
  have hmake : (∃ r, make s ts = .ok r) ↔ WellFormed ⟨s, ts⟩ := by
    simp only [make_eq_ok_iff, exists_eq_left]
  rw [hmake, WellFormed]
  refine and_congr_right fun hs => forall₂_congr fun t _ => ?_
  exact fits_iff_over hs

/-! ### Rows -/

theorem checkRows_eq_ok_iff {qualifier : String} {columns index : Nat} {rows : List (List Value)} :
    checkRows qualifier columns index rows = .ok () ↔ ∀ row ∈ rows, row.length = columns := by
  induction rows generalizing index with
  | nil => simp [checkRows]
  | cons row rows ih =>
    rw [List.forall_mem_cons, ← @ih (index + 1), checkRows]
    split <;> simp_all

theorem fits_tupleOfRow_iff (hs : s.qualifiedNames.Nodup) (h : row.length = s.length) :
    Fits s (tupleOfRow s row) ↔ s.Admits row := by
  constructor
  · intro ht
    have hadmits := ht.admits_valuesAt
    rwa [valuesAt_tupleOfRow_self hs h] at hadmits
  · exact fits_tupleOfRow hs

theorem wellFormed_map_tupleOfRow_iff {rows : List (List Value)} :
    ((∀ row ∈ rows, row.length = s.length) ∧ WellFormed ⟨s, rows.map (tupleOfRow s)⟩) ↔
      s.qualifiedNames.Nodup ∧ ∀ row ∈ rows, s.Admits row := by
  rw [WellFormed, List.forall_mem_map]
  constructor
  · rintro ⟨hlength, hs, hrows⟩
    exact ⟨hs, fun row hrow => (fits_tupleOfRow_iff hs (hlength row hrow)).1 (hrows row hrow)⟩
  · rintro ⟨hs, hrows⟩
    exact ⟨fun row hrow => (hrows row hrow).length_eq, hs,
      fun row hrow => fits_tupleOfRow hs (hrows row hrow)⟩

variable {qualifier : String} {columns : List (String × DataType)} {rows : List (List Value)}

/-- Rows that fit their columns make the relation of their tuples, and other rows make none. -/
theorem ofRows_eq_ok_iff : ofRows qualifier columns rows = .ok r ↔
    r = ⟨.ofColumns qualifier columns, rows.map (tupleOfRow (.ofColumns qualifier columns))⟩ ∧
      (columns.map Prod.fst).Nodup ∧
        ∀ row ∈ rows, List.Forall₂ (fun c v => v.type = c.2) columns row := by
  have hchecked : checkRows qualifier (Schema.ofColumns qualifier columns).length 0 rows = .ok () ↔
      ∀ row ∈ rows, row.length = (Schema.ofColumns qualifier columns).length := checkRows_eq_ok_iff
  have hfit := @wellFormed_map_tupleOfRow_iff (.ofColumns qualifier columns) rows
  rw [Schema.distinct_ofColumns_iff] at hfit
  simp only [Schema.admits_ofColumns_iff] at hfit
  rw [← hfit, ← hchecked, and_left_comm, ← make_eq_ok_iff]
  unfold ofRows
  show (checkRows qualifier (Schema.ofColumns qualifier columns).length 0 rows >>= _) = _ ↔ _
  cases checkRows qualifier (Schema.ofColumns qualifier columns).length 0 rows with
  | error e => simp [bind, Except.bind]
  | ok _ => simp [bind, Except.bind, Schema.ofColumns]

theorem rows_of_ofRows (h : ofRows qualifier columns rows = .ok r) : r.rows = rows := by
  obtain ⟨rfl, hcolumns, hrows⟩ := ofRows_eq_ok_iff.1 h
  apply rows_map_tupleOfRow (Schema.distinct_ofColumns_iff.2 hcolumns)
  intro row hrow
  exact (Schema.admits_ofColumns_iff.2 (hrows row hrow)).length_eq

/-- A schema and tuples make a relation exactly when the qualified names are distinct and the tuples
are over the schema, and columns and rows make one exactly when the columns have different names and
every row has a value of its type for each column. The relation is made of what was given: the
schema and the tuples, or the columns under their qualifier and the rows in their order. -/
theorem constructors_exact (s : Schema) (ts : List Tuple) (qualifier : String)
    (columns : List (String × DataType)) (rows : List (List Value)) :
    ((∃ r, make s ts = .ok r) ↔ s.qualifiedNames.Nodup ∧ ∀ t ∈ ts, t.Over s) ∧
    (∀ r, make s ts = .ok r → r = ⟨s, ts⟩) ∧
    ((∃ r, ofRows qualifier columns rows = .ok r) ↔ (columns.map Prod.fst).Nodup ∧
      ∀ row ∈ rows, List.Forall₂ (fun c v => v.type = c.2) columns row) ∧
    ∀ r, ofRows qualifier columns rows = .ok r →
      r.schema = columns.map (fun c => ⟨qualifier, c.1, c.2⟩) ∧ r.rows = rows := by
  refine ⟨exists_make_iff, ?_, ?_, ?_⟩
  · intro r h
    exact (make_eq_ok_iff.1 h).1
  · simp only [ofRows_eq_ok_iff, exists_eq_left]
  · intro r h
    constructor
    · rw [(ofRows_eq_ok_iff.1 h).1, Schema.ofColumns]
    · exact rows_of_ofRows h

/-- Two columns with rows are taken as they are. Two columns of one name are refused, and so is a
tuple that has a stray key in place of the one it needs. -/
theorem constructors_exact_two_columns :
    let rows := [[.number 12, .text ""], [.number (-3), .text "x"], [.number 12, .text ""]]
    (∃ r, ofRows "r" [("a", .number), ("b", .string)] rows = .ok r ∧ r.rows = rows) ∧
    (¬∃ r, ofRows "r" [("a", .number), ("a", .number)] [[.number 1, .number 1]] = .ok r) ∧
    ¬∃ r, make [⟨"r", "a", .number⟩] [.ofList [("r.b", .number 1)]] = .ok r := by
  intro rows
  have taken := constructors_exact [] [] "r" [("a", .number), ("b", .string)] rows
  have twice := constructors_exact [] [] "r" [("a", .number), ("a", .number)]
    [[.number 1, .number 1]]
  have stray := constructors_exact [⟨"r", "a", .number⟩] [.ofList [("r.b", .number 1)]] "" [] []
  refine ⟨?_, ?_, ?_⟩
  · have accepted : ∃ r, ofRows "r" [("a", .number), ("b", .string)] rows = .ok r := by
      rw [taken.2.2.1]
      simp [rows, Value.type]
    obtain ⟨r, hr⟩ := accepted
    exact ⟨r, hr, (taken.2.2.2 r hr).2⟩
  · rw [twice.2.2.1]
    simp
  · rw [stray.1]
    rintro ⟨_, hover⟩
    have hkey := ((hover _ List.mem_cons_self).keys "r.b").1 (NameMap.mem_names_ofList.2 (by simp))
    simp [Schema.qualifiedNames, Attribute.qualifiedName] at hkey

end Relation

end RelationalAlgebra
