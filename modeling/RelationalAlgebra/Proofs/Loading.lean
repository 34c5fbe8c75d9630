import RelationalAlgebra.Proofs.Loading.Faults

/-!
# What is loaded from a database

A table of integers and texts, each column of one type, is loaded as a relation. A database of such
tables is loaded, with every table under its own name except those whose names the pattern for
internal tables matches (`Database.get?_load`). Its underscore matches any character, so these are
more than the names that databases reserve.
-/
namespace RelationalAlgebra

/-! ### Patterns -/

namespace Database
variable {p : Char} {letters pattern text : List Char}

theorem like_percent (text : List Char) : like ['%'] text = true := by
  induction text with
  | nil => simp [like]
  | cons c text ih => simp [like, ih]

theorem like_cons (hp : p ≠ '%') : like (p :: pattern) text ↔
    ∃ c rest, text = c :: rest ∧ (p = '_' ∨ p.toLower = c.toLower) ∧ like pattern rest := by
  cases text with
  | nil => simp [like]
  | cons c text => simp [like]

/-- Letters in a pattern match the same letters in either case. -/
theorem like_append (hletters : ∀ p ∈ letters, p ≠ '%' ∧ p ≠ '_') :
    like (letters ++ pattern) text ↔ ∃ front rest, text = front ++ rest ∧
      front.map Char.toLower = letters.map Char.toLower ∧ like pattern rest := by
  induction letters generalizing text with
  | nil =>
    constructor
    · exact fun h => ⟨[], text, rfl, rfl, h⟩
    · rintro ⟨front, rest, rfl, hfront, h⟩
      rwa [List.map_eq_nil_iff.1 hfront]
  | cons p letters ih =>
    obtain ⟨⟨hpercent, hany⟩, hletters⟩ := List.forall_mem_cons.1 hletters
    rw [List.cons_append, like_cons hpercent]
    constructor
    · rintro ⟨c, rest, rfl, hc, h⟩
      obtain ⟨front, rest, rfl, hfront, h⟩ := (ih hletters).1 h
      have hsame := hc.resolve_left hany
      exact ⟨c :: front, rest, rfl, by rw [List.map_cons, List.map_cons, hsame, hfront], h⟩
    · rintro ⟨front, rest, rfl, hfront, h⟩
      cases front with
      | nil => cases hfront
      | cons c front =>
        obtain ⟨hsame, hfront⟩ := List.cons.inj hfront
        exact ⟨c, front ++ rest, rfl, .inr hsame.symm,
          (ih hletters).2 ⟨front, rest, rfl, hfront, h⟩⟩

/-- A name starts with a text in small letters, in either case. -/
def Starts (start name : String) : Prop := start.toList <+: name.toList.map Char.toLower

instance (start name : String) : Decidable (Starts start name) :=
  inferInstanceAs (Decidable (_ <+: _))

/-- A table counts as internal if its name is `sqlite` with something behind it. -/
theorem isInternal_iff (name : String) :
    isInternal name ↔ Starts "sqlite" name ∧ 6 < name.toList.length := by
  have hletters : ∀ p ∈ "sqlite".toList, p ≠ '%' ∧ p ≠ '_' := by simp
  have hlower : "sqlite".toList.map Char.toLower = "sqlite".toList := by decide
  have hpattern : "sqlite_%".toList = "sqlite".toList ++ ['_', '%'] := by decide
  rw [isInternal, hpattern, like_append hletters, hlower]
  constructor
  · rintro ⟨front, rest, htext, hfront, h⟩
    obtain ⟨c, more, rfl, _⟩ := (like_cons (by decide)).1 h
    have hlength := congrArg List.length hfront
    rw [Starts, htext, List.map_append, hfront]
    refine ⟨List.prefix_append _ _, ?_⟩
    simp at hlength ⊢
    omega
  · rintro ⟨⟨rest, hrest⟩, hlength⟩
    obtain ⟨front, more, htext, hfront, hmore⟩ := List.map_eq_append_iff.1 hrest.symm
    refine ⟨front, more, htext, hfront, (like_cons (by decide)).2 ?_⟩
    cases more with
    | nil =>
      have hsix := congrArg List.length hfront
      rw [htext] at hlength
      simp at hsix hlength
      omega
    | cons c more => exact ⟨c, more, rfl, .inl rfl, like_percent more⟩

end Database

/-! ### Tables that can be loaded -/

namespace Table
variable {t : Table}

/-- The columns have different names and cells of one type each, which are integers or texts. -/
structure Loadable (t : Table) : Prop where
  columns : (t.columns.map Prod.fst).Nodup
  cells : ∃ types : List DataType, types.length = t.columns.length ∧
    ∀ row ∈ t.rows, row.map Cell.type? = types.map some

theorem Loadable.regular (h : t.Loadable) : t.Regular := by
  refine ⟨h.columns, ?_⟩
  obtain ⟨types, hcolumns, hcells⟩ := h.cells
  intro row hrow
  simpa [hcolumns] using congrArg List.length (hcells row hrow)

theorem Loadable.consistent (h : t.Loadable) : t.Consistent := by
  obtain ⟨types, _, hcells⟩ := h.cells
  constructor
  · intro row hrow c hc
    have htype : c.type? ∈ types.map some := hcells row hrow ▸ List.mem_map_of_mem hc
    obtain ⟨type, _, htype⟩ := List.mem_map.1 htype
    exact Cell.exists_holds_of_type?_eq_some htype.symm
  · intro row hrow other hother
    rw [hcells row hrow, hcells other hother]

theorem Loadable.exists_load (h : t.Loadable) : ∃ r, t.load = .ok r :=
  (exists_load_iff h.regular).2 h.consistent

end Table

/-! ### Databases that can be loaded -/

namespace DataSet
variable {d : DataSet} {ts : List Table}

theorem exists_loadAll (hnames : (ts.map Table.name).Nodup) (h : ∀ t ∈ ts, ∃ r, t.load = .ok r) :
    ∃ ds, (d.loadAll ts).1 = .ok ds ∧
      (∀ t ∈ ts, ∃ r, t.load = .ok r ∧ ds.get? t.name = some r) ∧
      ∀ name ∉ ts.map Table.name, ds.get? name = d.get? name := by
  induction ts generalizing d with
  | nil => exact ⟨d, rfl, by simp, fun _ _ => rfl⟩
  | cons t ts ih =>
    obtain ⟨hname, hnames⟩ := List.nodup_cons.1 hnames
    obtain ⟨⟨r, hr⟩, h⟩ := List.forall_mem_cons.1 h
    obtain ⟨ds, hds, hloaded, hothers⟩ := ih hnames h
    refine ⟨ds, ?_, List.forall_mem_cons.2 ⟨⟨r, hr, ?_⟩, hloaded⟩, ?_⟩
    · rw [loadAll, hr]
      exact hds
    · rw [hothers t.name hname, NameMap.get?_insert_self]
    · intro name hmem
      obtain ⟨hne, hmem⟩ := not_or.1 (mt List.mem_cons.2 hmem)
      rw [hothers name hmem, NameMap.get?_insert, if_neg hne]

end DataSet

namespace Database
variable {d : Database}

def allTables (d : Database) : List Table :=
  d.filterMap fun
    | .table t => some t
    | .view _ => none

theorem mem_allTables {t : Table} : t ∈ d.allTables ↔ .table t ∈ d := by
  rw [allTables, List.mem_filterMap]
  constructor
  · rintro ⟨entry, hentry, h⟩
    cases entry with
    | table u =>
      cases h
      exact hentry
    | view name => cases h
  · exact fun h => ⟨_, h, rfl⟩

theorem tables_perm (d : Database) : d.tables.Perm (d.allTables.filter (!isInternal ·.name)) :=
  List.mergeSort_perm _ _

/-- As in every database the tables have different names, and each can be loaded. -/
structure Loadable (d : Database) : Prop where
  names : (d.allTables.map Table.name).Nodup
  tables : ∀ t, .table t ∈ d → t.Loadable

/-- A database is loaded with all its tables, each under its own name, but for those that count as
internal. -/
theorem get?_load (h : d.Loadable) : ∃ ds, d.load.1 = .ok ds ∧ ∀ t, .table t ∈ d →
    (¬(Starts "sqlite" t.name ∧ 6 < t.name.toList.length) →
      ∃ r, t.load = .ok r ∧ ds.get? t.name = some r) ∧
    (Starts "sqlite" t.name ∧ 6 < t.name.toList.length → ds.get? t.name = none) := by
  have hsub : (d.tables.map Table.name).Nodup := by
    rw [(d.tables_perm.map Table.name).nodup_iff]
    exact h.names.sublist (List.filter_sublist.map Table.name)
  have hmem : ∀ t, t ∈ d.tables ↔ .table t ∈ d ∧ isInternal t.name = false := by
    intro t
    rw [d.tables_perm.mem_iff, List.mem_filter, mem_allTables, Bool.not_eq_true']
  have hload : ∀ t ∈ d.tables, ∃ r, t.load = .ok r := by
    intro t ht
    exact (h.tables t ((hmem t).1 ht).1).exists_load
  obtain ⟨ds, hds, hloaded, hothers⟩ := DataSet.exists_loadAll hsub hload
  refine ⟨ds, hds, ?_⟩
  intro t ht
  rw [← isInternal_iff]
  constructor
  · intro hname
    exact hloaded t ((hmem t).2 ⟨ht, by simpa using hname⟩)
  · intro hname
    rw [hothers t.name, NameMap.get?_empty]
    intro hin
    -- A loaded table of this name would have a name that is not internal.
    obtain ⟨u, hu, hsame⟩ := List.mem_map.1 hin
    have hother := ((hmem u).1 hu).2
    rw [hsame, hname] at hother
    cases hother

/-- A database with tables of these names, each with one number. -/
def named (names : List String) : Database :=
  names.map fun name => .table ⟨name, [("a", "INTEGER")], [[.integer 1]]⟩

theorem loadable_named {names : List String} (h : names.Nodup) : (named names).Loadable where
  names := by
    have hnames : (named names).allTables.map Table.name = names := by
      induction names with
      | nil => rfl
      | cons name names ih => exact congrArg (name :: ·) (ih (List.nodup_cons.1 h).2)
    rwa [hnames]
  tables := by
    intro t ht
    obtain ⟨name, _, heq⟩ := List.mem_map.1 ht
    cases heq
    exact ⟨by simp, [.number], rfl, by simp [Cell.type?]⟩

/-- Of two tables the one whose name is reserved is left out. -/
theorem get?_load_lakes : (named ["lakes", "sqlite_stat1"]).Loadable ∧
    ∃ ds, (named ["lakes", "sqlite_stat1"]).load.1 = .ok ds ∧ (∃ r, ds.get? "lakes" = some r) ∧
      ds.get? "sqlite_stat1" = none := by
  have hloadable : (named ["lakes", "sqlite_stat1"]).Loadable := loadable_named (by decide)
  obtain ⟨ds, hds, htables⟩ := get?_load hloadable
  have hlakes := htables ⟨"lakes", [("a", "INTEGER")], [[.integer 1]]⟩ (by simp [named])
  have hinternal := htables ⟨"sqlite_stat1", [("a", "INTEGER")], [[.integer 1]]⟩ (by simp [named])
  obtain ⟨r, _, hr⟩ := hlakes.1 (by decide)
  exact ⟨hloadable, ds, hds, ⟨r, hr⟩, hinternal.2 (by decide)⟩

/-- A table is left out although no database reserves its name. -/
theorem load_drops_sqlitex : (named ["sqlitex"]).Loadable ∧ ¬Starts "sqlite_" "sqlitex" ∧
    ∃ ds, (named ["sqlitex"]).load.1 = .ok ds ∧ ds.get? "sqlitex" = none := by
  have hinternal : isInternal "sqlitex" := (isInternal_iff _).2 (by decide)
  have htables : (named ["sqlitex"]).tables = [] := by
    apply List.Perm.eq_nil
    apply (tables_perm _).trans
    simp [named, allTables, hinternal]
  refine ⟨loadable_named (by decide), by decide, .empty, ?_, rfl⟩
  rw [load, htables]
  rfl

end Database
end RelationalAlgebra
