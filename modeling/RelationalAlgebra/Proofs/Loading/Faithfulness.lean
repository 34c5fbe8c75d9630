import RelationalAlgebra.Proofs.Loading

/-!
# Loading is faithful, and all or nothing

A database is loaded if all its tables can be, and then each table becomes the relation of its rows.
Otherwise the tables are read in the order of their names up to the first with a fault, and nothing
of the others is kept (`Database.load_faithful`).

This takes tables whose rows have just the cells of the listed columns. A computed column is not
listed, although the rows hold its cells: columns behind it are loaded with the cells of others
(`Table.copies_ofColumns_iff`).
-/
namespace RelationalAlgebra

/-! ### Letter case -/

/-- Case changes the ASCII letters only: what depends on it is tested on the ASCII characters. -/
theorem forall_of_ascii {P : Char → Prop} (hascii : ∀ n < 128, P (Char.ofNat n))
    (hother : ∀ c : Char, ¬c.toNat < 128 → P c) (c : Char) : P c := by
  by_cases h : c.toNat < 128
  · simpa using hascii c.toNat h
  · exact hother c h

theorem toUpper_of_not_ascii {c : Char} (h : ¬c.toNat < 128) : c.toUpper = c := by
  have hsmall : ¬c.val ≤ 'z'.val := fun hle => h (Nat.lt_of_le_of_lt hle (by decide))
  exact dif_neg fun hletter => hsmall hletter.2

theorem toLower_of_not_ascii {c : Char} (h : ¬c.toNat < 128) : c.toLower = c := by
  have hcapital : ¬c.val ≤ 'Z'.val := fun hle => h (Nat.lt_of_le_of_lt hle (by decide))
  exact dif_neg fun hletter => hcapital hletter.2

theorem toLower_toUpper (c : Char) : c.toUpper.toLower = c.toLower := by
  refine forall_of_ascii (P := fun c => c.toUpper.toLower = c.toLower) (by decide) ?_ c
  intro c h
  rw [toUpper_of_not_ascii h]

theorem toUpper_toLower (c : Char) : c.toLower.toUpper = c.toUpper := by
  refine forall_of_ascii (P := fun c => c.toLower.toUpper = c.toUpper) (by decide) ?_ c
  intro c h
  rw [toLower_of_not_ascii h]

/-! ### Tables -/

/-- A relation has the columns of a table, qualified by its name, and the values of its cells. A
column has the type of its first cell; one without cells holds numbers if it is declared so. -/
structure Relation.Copies (r : Relation) (t : Table) : Prop where
  columns : r.schema.map Attribute.path = t.columns.map fun c => ⟨t.name, c.1⟩
  types : ∀ first ∈ t.rows.head?, first.map Cell.type? = r.schema.types.map some
  declared : t.rows = [] →
    List.Forall₂ (fun c a => a.type = .number ↔ Database.Starts "int" c.2) t.columns r.schema
  rows : List.Forall₂ (List.Forall₂ Cell.Holds) t.rows r.rows

namespace Table
variable {t : Table} {r : Relation} {vss : List (List Value)}

theorem declaredType_eq_number_iff (declared : String) :
    declaredType declared = .number ↔ Database.Starts "int" declared := by
  have hlower : (declared.toList.map Char.toUpper).map Char.toLower =
      declared.toList.map Char.toLower := by
    simp [toLower_toUpper]
  have hupper : (declared.toList.map Char.toLower).map Char.toUpper =
      declared.toList.map Char.toUpper := by
    simp [toUpper_toLower]
  have htake : declaredType declared = .number ↔
      (declared.toList.map Char.toUpper).take 3 = ['I', 'N', 'T'] := by
    rw [declaredType]
    split <;> simp_all
  have hstarts : Database.Starts "int" declared ↔
      (declared.toList.map Char.toLower).take 3 = ['i', 'n', 't'] := by
    rw [Database.Starts, List.prefix_iff_eq_take, eq_comm]
    rfl
  rw [htake, hstarts]
  constructor
  · intro h
    rw [← hlower, ← List.map_take, h]
    decide
  · intro h
    rw [← hupper, ← List.map_take, h]
    decide

theorem copies_of_load_eq_ok (h : t.Regular) (hload : t.load = .ok r) : r.Copies t := by
  cases hvss : values t.name (t.columns.map (·.1)) t.rows with
  | error e =>
    rw [load, hvss] at hload
    cases hload
  | ok vss =>
    rw [load, hvss] at hload
    obtain ⟨rfl, hwell⟩ := Relation.make_eq_ok_iff.1 hload
    have hcells := h.forall₂_holds hvss
    have htypes := length_types h hcells
    have hrows := length_of_forall₂_holds hcells (h.length_row htypes)
    refine ⟨paths_schema htypes, ?_, ?_, ?_⟩
    · intro first hfirst
      rw [types_schema htypes]
      obtain ⟨rows, hrows⟩ := List.head?_eq_some_iff.1 hfirst
      rw [hrows] at hcells
      cases hcells with
      | cons hfirst _ => exact map_type?_eq hfirst
    · intro hnone
      rw [hnone] at hcells
      cases hcells
      rw [schema, types, List.zipWith_map_right, List.zipWith_self, List.forall₂_map_right_iff,
        List.forall₂_same]
      exact fun c _ => declaredType_eq_number_iff c.2
    · rw [Relation.rows_map_tupleOfRow hwell.1 hrows]
      exact hcells

end Table

/-! ### Databases -/

theorem DataSet.error?_loadAll (d : DataSet) (ts : List Table) :
    error? (d.loadAll ts).1 = ts.findSome? fun t => error? t.load := by
  induction ts generalizing d with
  | nil => rfl
  | cons t ts ih =>
    rw [findSome?_cons_eq_or, loadAll]
    cases t.load with
    | error e => rfl
    | ok r => exact ih _

namespace Database
variable {d : Database} {t : Table} {e : Error}

/-- A table is one to load: it does not count as internal. -/
def Loads (d : Database) (t : Table) : Prop := .table t ∈ d ∧ ¬isInternal t.name

theorem mem_tables_iff : t ∈ d.tables ↔ d.Loads t := by
  rw [d.tables_perm.mem_iff, List.mem_filter, mem_allTables, Bool.not_eq_true', Loads,
    Bool.not_eq_true]

theorem pairwise_tables (d : Database) : d.tables.Pairwise fun t u => t.name ≤ u.name := by
  have hsorted : d.tables.Pairwise fun t u => decide (t.name ≤ u.name) :=
    List.pairwise_mergeSort
      (fun t u v htu huv => by simpa using le_trans (by simpa using htu) (by simpa using huv))
      (fun t u => by simpa using le_total t.name u.name) _
  exact hsorted.imp fun h => of_decide_eq_true h

theorem nodup_tables (h : (d.allTables.map Table.name).Nodup) :
    (d.tables.map Table.name).Nodup := by
  rw [(d.tables_perm.map Table.name).nodup_iff]
  exact h.sublist (List.filter_sublist.map Table.name)

/-- The tables to load have different names, and each has different columns and whole rows. -/
structure Regular (d : Database) : Prop where
  names : (d.tables.map Table.name).Nodup
  tables : ∀ t, d.Loads t → t.Regular

theorem exists_load_iff : (∃ ds, d.load.1 = .ok ds) ↔ ∀ t ∈ d.tables, ∃ r, t.load = .ok r := by
  rw [← error?_eq_none_iff, load, DataSet.error?_loadAll, List.findSome?_eq_none_iff]
  simp only [error?_eq_none_iff]

/-- The error of a database is that of the first table, in the order of names, that has one. -/
theorem exists_first_of_load_eq_error (h : d.load.1 = .error e) : ∃ t ∈ d.tables,
    t.load = .error e ∧ ∀ u ∈ d.tables, (¬∃ r, u.load = .ok r) → t.name ≤ u.name := by
  rw [← error?_eq_some_iff, load, DataSet.error?_loadAll, List.findSome?_eq_some_iff] at h
  obtain ⟨front, t, back, htables, ht, hfront⟩ := h
  have hsorted := d.pairwise_tables
  rw [htables, List.pairwise_append, List.pairwise_cons] at hsorted
  rw [htables]
  refine ⟨t, List.mem_append_right _ List.mem_cons_self, error?_eq_some_iff.1 ht, ?_⟩
  intro u hu hfails
  obtain hu | hu | hu := (List.mem_append.1 hu).imp_right List.mem_cons.1
  · exact absurd (error?_eq_none_iff.1 (hfront u hu)) hfails
  · rw [hu]
  · exact hsorted.2.1.1 u hu

theorem Regular.exists_load_iff (h : d.Regular) :
    (∃ ds, d.load.1 = .ok ds) ↔ ∀ t, d.Loads t → t.Consistent := by
  rw [Database.exists_load_iff]
  refine forall_congr' fun t => ?_
  rw [mem_tables_iff]
  exact forall_congr' fun ht => Table.exists_load_iff (h.tables t ht)

/-- What is loaded is there under its name, and nothing else is. -/
theorem Regular.get?_of_load_eq_ok (h : d.Regular) {ds : DataSet} (hds : d.load.1 = .ok ds) :
    (∀ name, (∃ r, ds.get? name = some r) ↔ ∃ t, d.Loads t ∧ t.name = name) ∧
      ∀ t, d.Loads t → ∃ r, ds.get? t.name = some r ∧ r.Copies t := by
  obtain ⟨loaded, hloaded, hget, hothers⟩ :=
    DataSet.exists_loadAll (d := .empty) h.names (Database.exists_load_iff.1 ⟨ds, hds⟩)
  cases hloaded.symm.trans hds
  have htables : ∀ t, d.Loads t → ∃ r, ds.get? t.name = some r ∧ r.Copies t := by
    intro t ht
    obtain ⟨r, hr, hname⟩ := hget t (mem_tables_iff.2 ht)
    exact ⟨r, hname, Table.copies_of_load_eq_ok (h.tables t ht) hr⟩
  refine ⟨?_, htables⟩
  intro name
  constructor
  · rintro ⟨r, hr⟩
    have hname : name ∈ d.tables.map Table.name := by
      by_contra hnone
      rw [hothers name hnone, NameMap.get?_empty] at hr
      cases hr
    obtain ⟨t, ht, hname⟩ := List.mem_map.1 hname
    exact ⟨t, mem_tables_iff.1 ht, hname⟩
  · rintro ⟨t, ht, rfl⟩
    obtain ⟨r, hr, _⟩ := htables t ht
    exact ⟨r, hr⟩

/-- The first table, by the bytes of its name, that is not consistent fails the database. -/
theorem Regular.exists_fault (h : d.Regular) (hfails : ∃ t, d.Loads t ∧ ¬t.Consistent) :
    ∃ t fault, d.Loads t ∧ ¬t.Consistent ∧
      (∀ u, d.Loads u → ¬u.Consistent → Utf8.encode t.name ≤ Utf8.encode u.name) ∧
      t.load = .error (.dataSet fault) ∧ d.load.1 = .error (.dataSet fault) ∧
      (¬t.Readable → t.cellFault? = some fault) ∧ (t.Readable → t.typeFault? = some fault) := by
  obtain ⟨u, hu, hinconsistent⟩ := hfails
  obtain ⟨e, he⟩ : ∃ e, d.load.1 = .error e := by
    cases hload : d.load.1 with
    | ok ds => exact absurd (h.exists_load_iff.1 ⟨ds, hload⟩ u hu) hinconsistent
    | error e => exact ⟨e, rfl⟩
  obtain ⟨t, ht, hload, hfirst⟩ := exists_first_of_load_eq_error he
  rw [mem_tables_iff] at ht
  have hregular := h.tables t ht
  obtain ⟨fault, rfl, hfault⟩ := Table.exists_fault_of_load_eq_error hregular hload
  refine ⟨t, fault, ht, ?_, ?_, hload, he, hfault⟩
  · rw [← Table.exists_load_iff hregular, hload]
    rintro ⟨r, ⟨⟩⟩
  · intro v hv hfails
    rw [← Table.exists_load_iff (h.tables v hv)] at hfails
    exact Utf8.encode_le_encode_iff.2 (hfirst v (mem_tables_iff.2 hv) hfails)

/-- Tables are loaded all together, each as it is, or none: then with the fault of the first table
that has one, where a cell without a value comes before any difference of types. -/
theorem load_faithful (h : d.Regular) :
    ((∃ ds, d.load.1 = .ok ds) ↔ ∀ t, d.Loads t → t.Consistent) ∧
    (∀ ds, d.load.1 = .ok ds →
      (∀ name, (∃ r, ds.get? name = some r) ↔ ∃ t, d.Loads t ∧ t.name = name) ∧
      ∀ t, d.Loads t → ∃ r, ds.get? t.name = some r ∧ r.Copies t) ∧
    ((∃ t, d.Loads t ∧ ¬t.Consistent) → ∃ t fault, d.Loads t ∧ ¬t.Consistent ∧
      (∀ u, d.Loads u → ¬u.Consistent → Utf8.encode t.name ≤ Utf8.encode u.name) ∧
      t.load = .error (.dataSet fault) ∧ d.load.1 = .error (.dataSet fault) ∧
      (¬t.Readable → t.cellFault? = some fault) ∧ (t.Readable → t.typeFault? = some fault)) := by
  refine ⟨h.exists_load_iff, ?_, h.exists_fault⟩
  intro ds hds
  exact h.get?_of_load_eq_ok hds

/-- A table with a text under a number, and no value under the text. -/
def mixedTable : Table :=
  ⟨"t", [("a", "INTEGER")], [[.integer 1], [.text [0x78]], [.foreign .null]]⟩

/-- A table with a value that no relation holds. -/
def realTable : Table := ⟨"u", [("a", "REAL")], [[.foreign .real]]⟩

theorem loads_iff_eq_realTable_or_eq_mixedTable :
    Loads [.table realTable, .view "v", .table mixedTable] t ↔ t = realTable ∨ t = mixedTable := by
  have hnames : ¬isInternal realTable.name ∧ ¬isInternal mixedTable.name :=
    ⟨mt (isInternal_iff _).1 (by decide), mt (isInternal_iff _).1 (by decide)⟩
  simp only [Loads, List.mem_cons, DatabaseEntry.table.injEq, List.not_mem_nil, or_false,
    reduceCtorEq, false_or]
  refine ⟨And.left, fun ht => ⟨ht, ?_⟩⟩
  obtain rfl | rfl := ht
  · exact hnames.1
  · exact hnames.2

/-- The missing value is reported, although a text comes before it in its table, and another table
before the table. -/
theorem load_faithful_mixed : Regular [.table realTable, .view "v", .table mixedTable] ∧
    (load [.table realTable, .view "v", .table mixedTable]).1 =
      .error (.dataSet (.foreignCell "t" "a" .null)) := by
  have hregular : Regular [.table realTable, .view "v", .table mixedTable] := by
    refine ⟨nodup_tables (by decide), ?_⟩
    intro t ht
    obtain rfl | rfl := loads_iff_eq_realTable_or_eq_mixedTable.1 ht
    · exact ⟨by decide, by decide⟩
    · exact ⟨by decide, by decide⟩
  have hloads := loads_iff_eq_realTable_or_eq_mixedTable.2 (.inr (Eq.refl mixedTable))
  have hunreadable : ¬mixedTable.Readable := by
    intro h
    obtain ⟨v, ⟨⟩⟩ := h [.foreign .null] (by simp [mixedTable]) (.foreign .null) (by simp)
  obtain ⟨t, fault, ht, -, hfirst, -, hload, hcell, -⟩ :=
    (load_faithful hregular).2.2 ⟨_, hloads, fun h => hunreadable h.1⟩
  have hname := Utf8.encode_le_encode_iff.1 (hfirst _ hloads fun h => hunreadable h.1)
  refine ⟨hregular, ?_⟩
  obtain rfl | rfl := loads_iff_eq_realTable_or_eq_mixedTable.1 ht
  · exact absurd hname (by decide)
  · have hfault : some (DataFault.foreignCell "t" "a" .null) = some fault := hcell hunreadable
    cases hfault
    exact hload

end Database

/-! ### Computed columns -/

theorem Relation.Copies.length_row_le {r : Relation} {t : Table} (h : r.Copies t) {row : List Cell}
    (hrow : row ∈ t.rows) : row.length ≤ t.columns.length := by
  have hlengths : t.rows.map List.length = r.rows.map List.length := by
    rw [← List.forall₂_eq_eq_eq, List.forall₂_map_left_iff, List.forall₂_map_right_iff]
    exact h.rows.imp fun _ _ hcells => hcells.length_eq
  have hmem : row.length ∈ r.rows.map List.length := hlengths ▸ List.mem_map_of_mem hrow
  obtain ⟨vs, hvs, hsame⟩ := List.mem_map.1 hmem
  obtain ⟨tuple, _, rfl⟩ := List.mem_map.1 hvs
  calc row.length = (valuesAt r.schema.qualifiedNames tuple).length := hsame.symm
    _ ≤ r.schema.qualifiedNames.length := List.length_filterMap_le ..
    _ = (r.schema.map Attribute.path).length := by simp [Schema.qualifiedNames]
    _ = t.columns.length := by rw [h.columns, List.length_map]

namespace Table

/-- A column as a table declares it. The cells of a computed column follow from the others. -/
structure Column where
  name : String
  declared : String
  computed : Bool
  deriving DecidableEq, Repr

/-- What is read of a table with all its columns: the computed ones are not listed. -/
def ofColumns (name : String) (columns : List Column) (rows : List (List Cell)) : Table where
  name := name
  columns := (columns.filter (!·.computed)).map fun c => (c.name, c.declared)
  rows := rows

/-- A table cut to the cells that its list of columns counts. -/
def leading (t : Table) : Table := { t with rows := t.rows.map (List.take t.columns.length) }

section Columns
variable {name : String} {columns : List Column} {rows : List (List Cell)} {r : Relation}

theorem length_columns_ofColumns (name : String) (columns : List Column) (rows : List (List Cell)) :
    (ofColumns name columns rows).columns.length = (columns.filter (!·.computed)).length :=
  List.length_map _

/-- The conditions on a table leave out just the computed columns. -/
theorem regular_ofColumns_iff (hnames : (columns.map Column.name).Nodup)
    (hrows : ∀ row ∈ rows, row.length = columns.length) (hrow : rows ≠ []) :
    (ofColumns name columns rows).Regular ↔ ∀ c ∈ columns, !c.computed := by
  rw [← List.length_filter_eq_length_iff, ← length_columns_ofColumns name columns rows]
  constructor
  · intro h
    obtain ⟨row, hmem⟩ := List.exists_mem_of_ne_nil rows hrow
    rw [← hrows row hmem]
    exact (h.rows row hmem).symm
  · intro hlength
    refine ⟨?_, fun row hmem => (hrows row hmem).trans hlength.symm⟩
    have hlisted : (ofColumns name columns rows).columns.map Prod.fst =
        (columns.filter (!·.computed)).map Column.name := List.map_map
    rw [hlisted]
    exact hnames.sublist (List.filter_sublist.map Column.name)

/-- What is loaded has all columns and cells of a table just when none of its columns is
computed. -/
theorem copies_ofColumns_iff (hnames : (columns.map Column.name).Nodup)
    (hrows : ∀ row ∈ rows, row.length = columns.length) (hrow : rows ≠ [])
    (hload : (ofColumns name columns rows).load = .ok r) :
    r.Copies (ofColumns name columns rows) ↔ ∀ c ∈ columns, !c.computed := by
  constructor
  · intro h
    obtain ⟨row, hmem⟩ := List.exists_mem_of_ne_nil rows hrow
    rw [← List.length_filter_eq_length_iff]
    apply Nat.le_antisymm (List.length_filter_le ..)
    rw [← hrows row hmem, ← length_columns_ofColumns name columns rows]
    exact h.length_row_le hmem
  · intro h
    exact copies_of_load_eq_ok ((regular_ofColumns_iff hnames hrows hrow).2 h) hload

end Columns

theorem rowValues_take (table : String) (columns : List String) (row : List Cell) :
    rowValues table columns (row.take columns.length) = rowValues table columns row := by
  induction columns generalizing row with
  | nil => cases row <;> rfl
  | cons column columns ih =>
    cases row with
    | nil => rfl
    | cons c row => rw [List.length_cons, List.take_succ_cons, rowValues, rowValues, ih]

theorem values_map_take (table : String) (columns : List String) (rows : List (List Cell)) :
    values table columns (rows.map (List.take columns.length)) = values table columns rows := by
  induction rows with
  | nil => rfl
  | cons row rows ih => rw [List.map_cons, values, values, rowValues_take, ih]

theorem load_leading (t : Table) : t.leading.load = t.load := by
  have hvalues : values t.name (t.columns.map (·.1)) t.leading.rows =
      values t.name (t.columns.map (·.1)) t.rows := by
    have h := values_map_take t.name (t.columns.map (·.1)) t.rows
    rwa [List.length_map] at h
  rw [load, load]
  show (values t.name (t.columns.map (·.1)) t.leading.rows >>= _) = _
  rw [hvalues]
  rfl

/-- Whatever its rows hold besides, a table is loaded as its leading cells: the columns are filled
in the order in which they are listed. -/
theorem copies_leading {t : Table} {r : Relation} (hcolumns : (t.columns.map Prod.fst).Nodup)
    (hrows : ∀ row ∈ t.rows, t.columns.length ≤ row.length) (hload : t.load = .ok r) :
    r.Copies t.leading := by
  have hregular : t.leading.Regular := by
    refine ⟨hcolumns, ?_⟩
    intro _ hrow
    obtain ⟨row, hmem, rfl⟩ := List.mem_map.1 hrow
    exact List.length_take_of_le (hrows row hmem)
  exact copies_of_load_eq_ok hregular (t.load_leading.trans hload)

end Table

namespace Database

/-- A table `t(a, b, c)` whose column `b` is computed as twice `a`, with one row. -/
def doubledTable : Table :=
  .ofColumns "t" [⟨"a", "INTEGER", false⟩, ⟨"b", "INTEGER", true⟩, ⟨"c", "INTEGER", false⟩]
    [[.integer 1, .integer 2, .integer 10]]

/-- The column behind the computed one is loaded with the value of that one, and its own is lost. -/
theorem load_shifts_cells :
    let d : Database := [.table doubledTable]
    (d.tables.map Table.name).Nodup ∧ (doubledTable.columns.map Prod.fst).Nodup ∧
    d.Loads doubledTable ∧ doubledTable.Consistent ∧
    ∃ ds r, d.load.1 = .ok ds ∧ ds.get? "t" = some r ∧
      r.schema = [⟨"t", "a", .number⟩, ⟨"t", "c", .number⟩] ∧
      r.rows = [[.number 1, .number 2]] ∧ ¬r.Copies doubledTable := by
  intro d
  have hnames : (d.tables.map Table.name).Nodup := nodup_tables (by decide)
  have hloads : d.Loads doubledTable :=
    ⟨List.mem_singleton_self _, mt (isInternal_iff _).1 (by decide)⟩
  have hconsistent : doubledTable.Consistent := by
    constructor
    · intro row hrow c hc
      cases List.mem_singleton.1 hrow
      have hcell : c = .integer 1 ∨ c = .integer 2 ∨ c = .integer 10 := by simpa using hc
      obtain rfl | rfl | rfl := hcell
      all_goals exact ⟨_, .integer _⟩
    · intro row hrow other hother
      rw [List.mem_singleton.1 hrow, List.mem_singleton.1 hother]
  let s : Schema := [⟨"t", "a", .number⟩, ⟨"t", "c", .number⟩]
  let r : Relation := ⟨s, [Relation.tupleOfRow s [.number 1, .number 2]]⟩
  have hload : doubledTable.load = .ok r := by decide
  have hloaded : ∀ t ∈ d.tables, ∃ r, t.load = .ok r := by
    intro t ht
    cases List.mem_singleton.1 (mem_tables_iff.1 ht).1
    exact ⟨r, hload⟩
  obtain ⟨ds, hds, hget, _⟩ := DataSet.exists_loadAll (d := .empty) hnames hloaded
  obtain ⟨_, hr, hname⟩ := hget doubledTable (mem_tables_iff.2 hloads)
  cases hload.symm.trans hr
  refine ⟨hnames, by decide, hloads, hconsistent, ds, r, hds, hname, rfl, by decide, ?_⟩
  rw [doubledTable, Table.copies_ofColumns_iff (by decide) (by decide) (by decide) hload]
  decide

end Database
end RelationalAlgebra
