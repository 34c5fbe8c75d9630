import RelationalAlgebra.DataSet.Database
import RelationalAlgebra.Proofs.Failures
import RelationalAlgebra.Proofs.Rows
import RelationalAlgebra.Proofs.Utf8

/-!
# The faults of a table

A table is read twice. The first pass takes the value of every cell and stops at the first cell that
holds none, row by row; only then the second compares the types of the values with those of the
first row, again row by row. So the first cell without a value is the fault that is reported, and a
cell of another type than the first of its column only if all cells hold values
(`Table.error?_load`).
-/
namespace RelationalAlgebra

/-! ### Cells -/

namespace Cell
variable {c first : Cell} {v : Value} {table column : String}

/-- The value in a cell: the number of an integer, and the text whose UTF-8 bytes are stored. -/
inductive Holds : Cell → Value → Prop
  | integer (n : Int) : Holds (.integer n) (.number n)
  | text {bytes : List UInt8} {s : String} (h : Utf8.encode s = bytes) :
    Holds (.text bytes) (.text s)

/-- The type of the value that a cell holds, if it is an integer or a text in UTF-8. -/
def type? : Cell → Option DataType
  | integer _ => some .number
  | text bytes =>
    match Utf8.decode bytes with
    | .ok _ => some .string
    | .error _ => none
  | foreign _ => none

def fault? (table column : String) : Cell → Option DataFault
  | integer _ => none
  | text bytes =>
    match Utf8.decode bytes with
    | .ok _ => none
    | .error fault => some (.notText table column fault)
  | foreign storage => some (.foreignCell table column storage)

/-- The fault of a cell whose value has another type than that of the first cell in its column. -/
def clash? (row : Nat) (key : String) (first c : Cell) : Option DataFault :=
  match first.type?, c.type? with
  | some declared, some found =>
    if found = declared then none else some (.wrongType row found key declared)
  | _, _ => none

theorem Holds.type?_eq (h : c.Holds v) : c.type? = some v.type := by
  cases h with
  | integer n => rfl
  | text h => simp [type?, Utf8.decode_eq_ok_iff.2 h, Value.type]

theorem exists_holds_of_type?_eq_some {type : DataType} (h : c.type? = some type) :
    ∃ v, c.Holds v := by
  cases c with
  | integer n => exact ⟨_, .integer n⟩
  | text bytes =>
    cases hs : Utf8.decode bytes with
    | error fault => simp [type?, hs] at h
    | ok s => exact ⟨_, .text (Utf8.decode_eq_ok_iff.1 hs)⟩
  | foreign storage => cases h

theorem holds_of_value_eq_ok (h : Table.value table column c = .ok v) : c.Holds v := by
  cases c with
  | integer n =>
    cases h
    exact .integer n
  | text bytes =>
    cases hs : Utf8.decode bytes with
    | error fault => simp [Table.value, hs] at h
    | ok s =>
      simp only [Table.value, hs, Except.ok.injEq] at h
      subst h
      exact .text (Utf8.decode_eq_ok_iff.1 hs)
  | foreign storage => cases h

theorem error?_value (table column : String) (c : Cell) :
    error? (Table.value table column c) = (c.fault? table column).map .dataSet := by
  cases c with
  | integer n => rfl
  | text bytes =>
    simp only [Table.value, fault?]
    cases Utf8.decode bytes <;> rfl
  | foreign storage => rfl

theorem fault?_eq_none_iff : c.fault? table column = none ↔ ∃ v, c.Holds v := by
  constructor
  · intro h
    have herror := error?_value table column c
    rw [h, Option.map_none, error?_eq_none_iff] at herror
    obtain ⟨v, hv⟩ := herror
    exact ⟨v, holds_of_value_eq_ok hv⟩
  · rintro ⟨v, hv⟩
    cases hv with
    | integer n => rfl
    | text h => simp [fault?, Utf8.decode_eq_ok_iff.2 h]

theorem clash?_eq_none_iff {row : Nat} {key : String} (hfirst : ∃ v, first.Holds v)
    (hc : ∃ v, c.Holds v) : first.clash? row key c = none ↔ c.type? = first.type? := by
  obtain ⟨v, hv⟩ := hfirst
  obtain ⟨w, hw⟩ := hc
  simp [clash?, hv.type?_eq, hw.type?_eq]

end Cell

/-! ### Tables -/

namespace Table
variable {t : Table} {row first : List Cell} {rows : List (List Cell)} {vs : List Value}
  {vss : List (List Value)} {s : Schema}

/-! The schema that the values of a table are read into. -/

theorem schema_eq (t : Table) (vss : List (List Value)) : t.schema vss =
    (t.columns.zip (t.types vss)).map fun c => Attribute.mk t.name c.1.1 c.2 := by
  rw [schema, ← List.map_uncurry_zip_eq_zipWith]
  rfl

theorem types_schema (h : (t.types vss).length = t.columns.length) :
    (t.schema vss).types = t.types vss := by
  rw [schema_eq, Schema.types, List.map_map]
  exact List.map_snd_zip (by omega)

theorem length_schema (h : (t.types vss).length = t.columns.length) :
    (t.schema vss).length = t.columns.length := by
  rw [schema_eq, List.length_map, List.length_zip]
  omega

theorem paths_schema (h : (t.types vss).length = t.columns.length) :
    (t.schema vss).map Attribute.path = t.columns.map fun c => ⟨t.name, c.1⟩ := by
  have hcolumns : (t.columns.zip (t.types vss)).map Prod.fst = t.columns :=
    List.map_fst_zip (by omega)
  rw [schema_eq, List.map_map]
  nth_rewrite 2 [← hcolumns]
  rw [List.map_map]
  rfl

/-- The names under which the tuples of a table hold its columns. -/
def keys (t : Table) : List String := t.columns.map (t.name ++ "." ++ ·.1)

theorem qualifiedNames_schema (h : (t.types vss).length = t.columns.length) :
    (t.schema vss).qualifiedNames = t.keys := by
  have hnames : (t.schema vss).qualifiedNames =
      ((t.schema vss).map Attribute.path).map fun n => n.qualifier ++ "." ++ n.name := by
    rw [List.map_map]
    rfl
  rw [hnames, paths_schema h, List.map_map]
  rfl

theorem nodup_keys (h : (t.columns.map Prod.fst).Nodup) : t.keys.Nodup := by
  have hkeys : t.keys = (t.columns.map Prod.fst).map (t.name ++ "." ++ ·) := by
    rw [List.map_map]
    rfl
  rw [hkeys]
  exact h.map fun _ _ heq => (String.append_right_inj _).1 heq

/-! The conditions on a table, and its faults. -/

/-- The columns have different names, and a row has no cells but theirs: none is computed. -/
structure Regular (t : Table) : Prop where
  columns : (t.columns.map Prod.fst).Nodup
  rows : ∀ row ∈ t.rows, row.length = t.columns.length

/-- Every cell is an integer, or a text in UTF-8. -/
def Readable (t : Table) : Prop := ∀ row ∈ t.rows, ∀ c ∈ row, ∃ v, c.Holds v

/-- All rows have the same types, so the cells in a column have one type. -/
def Uniform (t : Table) : Prop :=
  ∀ row ∈ t.rows, ∀ other ∈ t.rows, row.map Cell.type? = other.map Cell.type?

/-- The cells hold values, and those of each column have one type. -/
def Consistent (t : Table) : Prop := t.Readable ∧ t.Uniform

/-- The first cell without a value, row by row. -/
def cellFault? (t : Table) : Option DataFault :=
  t.rows.findSome? fun row => (t.columns.zip row).findSome? fun x => x.2.fault? t.name x.1.1

/-- The first cell in a row that differs in type from the cell above it in the first row. -/
def rowClash? (keys : List String) (first : List Cell) (index : Nat) (row : List Cell) :
    Option DataFault :=
  (keys.zip (first.zip row)).findSome? fun x => x.2.1.clash? index x.1 x.2.2

theorem rowClash?_cons {key : String} {keys : List String} {index : Nat} {c d : Cell} :
    rowClash? (key :: keys) (d :: first) index (c :: row) =
      (d.clash? index key c).or (rowClash? keys first index row) :=
  findSome?_cons_eq_or _ _ _

/-- The first cell that differs in type from the first cell of its column, row by row. -/
def typeFault? (t : Table) : Option DataFault :=
  t.rows.zipIdx.findSome? fun x => rowClash? t.keys (t.rows.headD []) x.2 x.1

/-! The pass over the cells. -/

theorem error?_rowValues (table : String) (columns : List (String × String)) (row : List Cell) :
    error? (rowValues table (columns.map (·.1)) row) =
      ((columns.zip row).findSome? fun x => x.2.fault? table x.1.1).map .dataSet := by
  induction columns generalizing row with
  | nil => rfl
  | cons column columns ih =>
    cases row with
    | nil => rfl
    | cons c row =>
      rw [List.map_cons, rowValues, error?_cons, ih, Cell.error?_value, List.zip_cons_cons,
        findSome?_cons_eq_or, Option.map_or]

theorem error?_values (t : Table) :
    error? (values t.name (t.columns.map (·.1)) t.rows) = t.cellFault?.map .dataSet := by
  obtain ⟨name, columns, rows⟩ := t
  induction rows with
  | nil => rfl
  | cons row rows ih =>
    rw [values, error?_cons, ih, error?_rowValues, cellFault?, cellFault?, findSome?_cons_eq_or,
      Option.map_or]

theorem forall₂_holds_of_rowValues {table : String} {columns : List String}
    (hrow : row.length = columns.length) (h : rowValues table columns row = .ok vs) :
    List.Forall₂ Cell.Holds row vs := by
  induction columns generalizing row vs with
  | nil =>
    rw [List.length_nil, List.length_eq_zero_iff] at hrow
    subst hrow
    cases h
    exact .nil
  | cons column columns ih =>
    obtain ⟨c, row, rfl⟩ := List.exists_cons_of_length_eq_add_one hrow
    obtain ⟨v, rest, hv, hrest, rfl⟩ := cons_eq_ok_iff.1 h
    exact .cons (Cell.holds_of_value_eq_ok hv) (ih (Nat.succ.inj hrow) hrest)

theorem forall₂_holds_of_values {table : String} {columns : List String}
    (hrows : ∀ row ∈ rows, row.length = columns.length)
    (h : values table columns rows = .ok vss) :
    List.Forall₂ (List.Forall₂ Cell.Holds) rows vss := by
  induction rows generalizing vss with
  | nil =>
    cases h
    exact .nil
  | cons row rows ih =>
    obtain ⟨hrow, hrows⟩ := List.forall_mem_cons.1 hrows
    obtain ⟨vs, rest, hvs, hrest, rfl⟩ := cons_eq_ok_iff.1 h
    exact .cons (forall₂_holds_of_rowValues hrow hvs) (ih hrows hrest)

/-- What the first pass makes of a table: in every row the values of its cells. -/
theorem Regular.forall₂_holds (h : t.Regular)
    (hvss : values t.name (t.columns.map (·.1)) t.rows = .ok vss) :
    List.Forall₂ (List.Forall₂ Cell.Holds) t.rows vss :=
  forall₂_holds_of_values (fun row hrow => by rw [h.rows row hrow, List.length_map]) hvss

theorem length_of_forall₂_holds {n : Nat} (h : List.Forall₂ (List.Forall₂ Cell.Holds) rows vss)
    (hrows : ∀ row ∈ rows, row.length = n) : ∀ vs ∈ vss, vs.length = n := by
  induction h with
  | nil => simp
  | cons hrow _ ih =>
    obtain ⟨hlength, hrows⟩ := List.forall_mem_cons.1 hrows
    exact List.forall_mem_cons.2 ⟨hrow.length_eq ▸ hlength, ih hrows⟩

theorem map_type?_eq (h : List.Forall₂ Cell.Holds row vs) :
    row.map Cell.type? = (vs.map Value.type).map some := by
  induction h with
  | nil => rfl
  | cons hc _ ih => rw [List.map_cons, List.map_cons, List.map_cons, hc.type?_eq, ih]

theorem length_types (h : t.Regular) (hvss : List.Forall₂ (List.Forall₂ Cell.Holds) t.rows vss) :
    (t.types vss).length = t.columns.length := by
  cases hrows : t.rows with
  | nil =>
    rw [hrows] at hvss
    cases hvss
    rw [types, List.length_map]
  | cons first rows =>
    rw [hrows] at hvss
    cases hvss with
    | cons hfirst _ =>
    rw [types, List.length_map, ← hfirst.length_eq]
    exact h.rows first (hrows ▸ List.mem_cons_self)

theorem Regular.length_row (h : t.Regular) (htypes : (t.types vss).length = t.columns.length) :
    ∀ row ∈ t.rows, row.length = (t.schema vss).length := by
  intro row hrow
  rw [h.rows row hrow, length_schema htypes]

/-! The pass over the types. -/

theorem forall₂_get?_tupleOfRow (hs : s.qualifiedNames.Nodup) (h : vs.length = s.length) :
    List.Forall₂ (fun a v => (Relation.tupleOfRow s vs).get? a.qualifiedName = some v) s vs := by
  rw [List.forall₂_iff_zip]
  refine ⟨h.symm, ?_⟩
  intro a v hmem
  rw [Schema.zip_eq_map_value (Schema.nodup_of_distinct hs) h] at hmem
  obtain ⟨b, hb, heq⟩ := List.mem_map.1 hmem
  cases heq
  exact Relation.get?_tupleOfRow hs h hb

theorem error?_checkValues {tuple : Tuple} (index : Nat)
    (hfirst : first.map Cell.type? = s.types.map some) (hrow : List.Forall₂ Cell.Holds row vs)
    (htuple : List.Forall₂ (fun a v => tuple.get? a.qualifiedName = some v) s vs) :
    error? (Relation.checkValues index tuple s) =
      (rowClash? s.qualifiedNames first index row).map .dataSet := by
  induction htuple generalizing first row with
  | nil => rfl
  | @cons a v s vs hv _ ih =>
    obtain ⟨d, first, rfl, hd, hfirst⟩ := List.map_eq_cons_iff.1 hfirst
    cases hrow with
    | @cons c _ row _ hc hrow =>
    have hcell : error? (Relation.checkValue index tuple a) =
        (d.clash? index a.qualifiedName c).map .dataSet := by
      rw [Relation.checkValue, hv]
      simp only [Cell.clash?, hd, hc.type?_eq]
      split <;> rfl
    rw [Relation.checkValues, error?_bind fun _ _ => ih hfirst hrow, hcell, ← Option.map_or]
    exact congrArg _ rowClash?_cons.symm

theorem error?_checkTuples (hs : s.qualifiedNames.Nodup) (index : Nat)
    (hfirst : first.map Cell.type? = s.types.map some)
    (hlength : ∀ row ∈ rows, row.length = s.length)
    (h : List.Forall₂ (List.Forall₂ Cell.Holds) rows vss) :
    error? (Relation.checkTuples s index (vss.map (Relation.tupleOfRow s))) =
      ((rows.zipIdx index).findSome? fun x => rowClash? s.qualifiedNames first x.2 x.1).map
        .dataSet := by
  induction h generalizing index with
  | nil => rfl
  | @cons row vs rows vss hrow _ ih =>
    obtain ⟨hlength, hmore⟩ := List.forall_mem_cons.1 hlength
    have hvs : vs.length = s.length := by rw [← hrow.length_eq, hlength]
    have htuple : error? (Relation.checkTuple s index (Relation.tupleOfRow s vs)) =
        (rowClash? s.qualifiedNames first index row).map .dataSet := by
      rw [Relation.checkTuple, if_pos (Relation.size_tupleOfRow hs hvs)]
      exact error?_checkValues index hfirst hrow (forall₂_get?_tupleOfRow hs hvs)
    rw [List.map_cons, Relation.checkTuples, error?_bind fun _ _ => ih (index + 1) hmore, htuple,
      List.zipIdx_cons, findSome?_cons_eq_or, Option.map_or]

theorem error?_make (hs : s.qualifiedNames.Nodup) (tuples : List Tuple) :
    error? (Relation.make s tuples) = error? (Relation.checkTuples s 0 tuples) := by
  rw [Relation.make, (firstRepeated_eq_none_iff _).2 hs]
  cases Relation.checkTuples s 0 tuples <;> rfl

/-- The values of all cells can be taken, and then the types decide. -/
theorem error?_make_schema (h : t.Regular)
    (hvss : List.Forall₂ (List.Forall₂ Cell.Holds) t.rows vss) :
    error? (Relation.make (t.schema vss) (vss.map (Relation.tupleOfRow (t.schema vss)))) =
      t.typeFault?.map .dataSet := by
  have htypes := length_types h hvss
  have hkeys : (t.schema vss).qualifiedNames.Nodup := by
    rw [qualifiedNames_schema htypes]
    exact nodup_keys h.columns
  rw [error?_make hkeys, typeFault?, ← qualifiedNames_schema htypes]
  cases hrows : t.rows with
  | nil =>
    rw [hrows] at hvss
    cases hvss
    rfl
  | cons first rows =>
    have hfirst : first.map Cell.type? = (t.schema vss).types.map some := by
      rw [types_schema htypes]
      rw [hrows] at hvss
      cases hvss with
      | cons hfirst _ => exact map_type?_eq hfirst
    rw [← hrows, error?_checkTuples hkeys 0 hfirst (h.length_row htypes) hvss, hrows]
    rfl

/-- A table fails to load with its first cell without a value, or else with its first cell of
another type. -/
theorem error?_load (h : t.Regular) :
    error? t.load = (t.cellFault?.or t.typeFault?).map .dataSet := by
  have hmake : ∀ vss, values t.name (t.columns.map (·.1)) t.rows = .ok vss → error?
      (Relation.make (t.schema vss) (vss.map (Relation.tupleOfRow (t.schema vss)))) =
        t.typeFault?.map .dataSet := by
    intro vss hvss
    exact error?_make_schema h (h.forall₂_holds hvss)
  rw [load, error?_bind hmake, error?_values, Option.map_or]

/-! ### What the faults are -/

theorem cellFault?_eq_none_iff (h : t.Regular) : t.cellFault? = none ↔ t.Readable := by
  rw [cellFault?, List.findSome?_eq_none_iff]
  refine forall₂_congr fun row hrow => ?_
  rw [List.findSome?_eq_none_iff]
  have hcells : (t.columns.zip row).map Prod.snd = row :=
    List.map_snd_zip (by rw [h.rows row hrow])
  nth_rewrite 2 [← hcells]
  rw [List.forall_mem_map]
  exact forall₂_congr fun x _ => Cell.fault?_eq_none_iff

theorem rowClash?_eq_none_iff {keys : List String} (index : Nat)
    (hfirst : first.length = keys.length) (hrow : row.length = keys.length)
    (hreadable : ∀ c ∈ first, ∃ v, c.Holds v) (hvalues : ∀ c ∈ row, ∃ v, c.Holds v) :
    rowClash? keys first index row = none ↔ row.map Cell.type? = first.map Cell.type? := by
  induction keys generalizing first row with
  | nil =>
    rw [List.length_nil, List.length_eq_zero_iff] at hfirst hrow
    subst hfirst hrow
    simp [rowClash?]
  | cons key keys ih =>
    obtain ⟨d, first, rfl⟩ := List.exists_cons_of_length_eq_add_one hfirst
    obtain ⟨c, row, rfl⟩ := List.exists_cons_of_length_eq_add_one hrow
    obtain ⟨hd, hreadable⟩ := List.forall_mem_cons.1 hreadable
    obtain ⟨hc, hvalues⟩ := List.forall_mem_cons.1 hvalues
    have hrest := ih (Nat.succ.inj hfirst) (Nat.succ.inj hrow) hreadable hvalues
    rw [rowClash?_cons, Option.or_eq_none_iff, Cell.clash?_eq_none_iff hd hc, hrest, List.map_cons,
      List.map_cons, List.cons.injEq]

theorem typeFault?_eq_none_iff (h : t.Regular) (hreadable : t.Readable) :
    t.typeFault? = none ↔ t.Uniform := by
  rw [typeFault?, List.findSome?_eq_none_iff]
  cases hrows : t.rows with
  | nil => simp [Uniform, hrows]
  | cons first rows =>
    have hhead : t.rows.headD [] = first := by
      rw [hrows]
      rfl
    rw [← hrows, hhead]
    have hfirst : first ∈ t.rows := hrows ▸ List.mem_cons_self
    have hlength : ∀ row ∈ t.rows, row.length = t.keys.length := fun row hrow => by
      rw [h.rows row hrow, keys, List.length_map]
    have hclash : ∀ row ∈ t.rows, ∀ index, rowClash? t.keys first index row = none ↔
        row.map Cell.type? = first.map Cell.type? := fun row hrow index =>
      rowClash?_eq_none_iff index (hlength first hfirst) (hlength row hrow)
        (hreadable first hfirst) (hreadable row hrow)
    constructor
    · intro hnone
      have hsame : ∀ row ∈ t.rows, row.map Cell.type? = first.map Cell.type? := by
        intro row hrow
        rw [← List.zipIdx_map_fst 0 t.rows] at hrow
        obtain ⟨⟨row, index⟩, hmem, rfl⟩ := List.mem_map.1 hrow
        exact (hclash row (List.fst_mem_of_mem_zipIdx hmem) index).1 (hnone _ hmem)
      exact fun row hrow other hother => (hsame row hrow).trans (hsame other hother).symm
    · intro huniform x hx
      have hrow := List.fst_mem_of_mem_zipIdx hx
      exact (hclash x.1 hrow x.2).2 (huniform x.1 hrow first hfirst)

theorem exists_load_iff (h : t.Regular) : (∃ r, t.load = .ok r) ↔ t.Consistent := by
  rw [← error?_eq_none_iff, error?_load h, Option.map_eq_none_iff, Option.or_eq_none_iff,
    cellFault?_eq_none_iff h]
  exact and_congr_right (typeFault?_eq_none_iff h)

/-- A table that is not loaded has a fault in a cell, or else in the types. -/
theorem exists_fault_of_load_eq_error (h : t.Regular) {e : Error} (hload : t.load = .error e) :
    ∃ fault, e = .dataSet fault ∧ (¬t.Readable → t.cellFault? = some fault) ∧
      (t.Readable → t.typeFault? = some fault) := by
  have herror : (t.cellFault?.or t.typeFault?).map .dataSet = some e := by
    rw [← error?_load h, hload]
    rfl
  obtain ⟨fault, hfault, rfl⟩ := Option.map_eq_some_iff.1 herror
  refine ⟨fault, rfl, ?_, ?_⟩
  · intro hreadable
    obtain ⟨first, hfirst⟩ :=
      Option.ne_none_iff_exists'.1 (mt (cellFault?_eq_none_iff h).1 hreadable)
    rwa [hfirst, Option.some_or, ← hfirst] at hfault
  · intro hreadable
    rwa [(cellFault?_eq_none_iff h).2 hreadable, Option.none_or] at hfault

end Table
end RelationalAlgebra
