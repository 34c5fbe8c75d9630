import RelationalAlgebra.Proofs.Query.Evaluation
import RelationalAlgebra.Proofs.Query.Parsing
import RelationalAlgebra.Proofs.Rowset.Simulation

/-!
# What texts evaluate to

On sound data sets, evaluating a text agrees with evaluating its query by position
(`simulates_rowset`). By position it is plain to see that errors and schemas never depend on rows
(`simulates_schema`); so they do not depend on the tuples of the data set either.
-/
namespace RelationalAlgebra

/-- Every relation would be accepted as it is, and no qualifier holds a dot. -/
def DataSet.Sound (d : DataSet) : Prop :=
  ∀ name r, d.get? name = some r →
    Relation.make r.schema r.tuples = .ok r ∧ ∀ a ∈ r.schema, Plain a.qualifier

theorem DataSet.sound_iff_forall_entries (d : DataSet) :
    d.Sound ↔ ∀ entry ∈ d.entries, Relation.make entry.2.schema entry.2.tuples = .ok entry.2 ∧
      ∀ a ∈ entry.2.schema, Plain a.qualifier := by
  constructor
  · exact fun h entry hentry => h entry.1 entry.2 (d.get?_eq_some_iff.2 hentry)
  · exact fun h name r hr => h (name, r) (d.get?_eq_some_iff.1 hr)

instance (d : DataSet) : Decidable d.Sound :=
  decidable_of_iff _ d.sound_iff_forall_entries.symm

/-- What a query stands for by position. -/
def Query.positional (d : DataSet) (q : Query) : Except Error Rowset :=
  q.evaluate (Rowset.operators fun name => (d.lookup name).map Relation.rowset)

def Query.static (d : DataSet) (q : Query) : Except Error Schema :=
  q.evaluate (Schema.operators fun name => (d.lookup name).map Relation.schema)

theorem evaluate_of_query? {d : DataSet} {text : String} {e : Expression} {q : Query}
    (hp : Expression.parse text = .ok e) (hq : e.query? = some q) :
    evaluate d text = q.evaluate (Relation.operators d) := by
  rw [evaluate, hp]
  exact Expression.evaluate_of_query? hq

/-! ### By name and by position -/

/-- A relation is that of a sound rowset. -/
def Relation.Represents (r : Relation) (x : Rowset) : Prop := x.Sound ∧ r = x.relation

theorem Relation.Represents.rowset_eq {r : Relation} {x : Rowset} (h : r.Represents x) :
    r.rowset = x := by
  rw [h.2, Rowset.rowset_relation h.1.wellFormed]

theorem sameOutcome_of_eq_map {a : Except Error Relation} {x : Except Error Rowset}
    (h : a = x.map Rowset.relation) (hsound : ∀ y, x = .ok y → y.Sound) :
    SameOutcome Relation.Represents a x := by
  subst h
  cases x with
  | error e => exact rfl
  | ok y => exact ⟨hsound y rfl, rfl⟩

theorem DataSet.lookup_represents {d : DataSet} (hd : d.Sound) (name : String) :
    SameOutcome Relation.Represents (d.lookup name) ((d.lookup name).map Relation.rowset) := by
  rw [lookup]
  cases h : d.get? name with
  | none => exact rfl
  | some r =>
    obtain ⟨hmake, hplain⟩ := hd name r h
    have hr := Relation.sound_of_make_eq_ok hmake hplain
    exact ⟨hr.rowset, hr.relation_rowset.symm⟩

/-- The checked operators do by name what the operators on rowsets do by position. -/
theorem simulates_rowset {d : DataSet} (hd : d.Sound) :
    (Relation.operators d).Simulates Relation.Represents
      (Rowset.operators fun name => (d.lookup name).map Relation.rowset) where
  stored := DataSet.lookup_represents hd
  project := by
    rintro references _ x ⟨hx, rfl⟩
    have hproject := Rowset.project_relation hx.wellFormed references
    exact sameOutcome_of_eq_map hproject fun y => hx.project
  select := by
    rintro p _ x ⟨hx, rfl⟩
    exact sameOutcome_of_eq_map (Rowset.select_relation hx.wellFormed p) fun y => hx.select
  rename := by
    rintro name references _ x hname hreferences ⟨hx, rfl⟩
    exact sameOutcome_of_eq_map (Rowset.rename_relation hx.wellFormed name references) fun y =>
      hx.rename hname hreferences
  combine := by
    rintro op _ x _ y ⟨hx, rfl⟩ ⟨hy, rfl⟩
    exact sameOutcome_of_eq_map (Rowset.apply_relation hx hy op) fun z => hx.combine hy

theorem evaluate_represents {d : DataSet} (hd : d.Sound) {q : Query} (hq : q.Plain) :
    SameOutcome Relation.Represents (q.evaluate (Relation.operators d)) (q.positional d) :=
  (simulates_rowset hd).evaluate hq

/-- Evaluating a text by name agrees with evaluating the query that its tree lays out by position:
the error, or the schema and the rows in order, are the same. -/
theorem evaluate_eq_positional {d : DataSet} (hd : d.Sound) (text : String) :
    (∀ error, Expression.parse text = .error error → evaluate d text = .error error) ∧
    ∀ e, Expression.parse text = .ok e → ∃ q, e.query? = some q ∧
      (evaluate d text).map Relation.rowset = q.positional d := by
  constructor
  · intro error h
    rw [evaluate, h]
    rfl
  · intro e h
    obtain ⟨q, hq, hplain, _⟩ := Expression.exists_query?_of_parse h
    refine ⟨q, hq, ?_⟩
    rw [evaluate_of_query? h hq]
    have hmap := (evaluate_represents hd hplain).map_eq fun _ _ hr => hr.rowset_eq
    exact hmap.trans (congrFun Except.map_id _)

/-- A data set with one relation `r`, of numbers `a` and texts `b`. -/
def DataSet.numbered (rows : List (List Value)) : DataSet :=
  .ofList [("r", Rowset.relation ⟨[⟨"r", "a", .number⟩, ⟨"r", "b", .string⟩], rows⟩)]

/-- The selection drops the second row and keeps the others in order; the union adds what is new. -/
theorem evaluate_eq_positional_projection :
    let d := DataSet.numbered
      [[.number 1, .text "x"], [.number 2, .text "y"], [.number 1, .text "z"]]
    d.Sound ∧ (evaluate d "π b (σ a = 1 (r)) ∪ π b (r)").map Relation.rowset =
      .ok ⟨[⟨"r", "b", .string⟩], [[.text "x"], [.text "z"], [.text "y"]]⟩ := by
  intro d
  have sound : d.Sound := by decide
  have parsed : Expression.parse "π b (σ a = 1 (r)) ∪ π b (r)" = .ok (.branch .union [
      .branch .project [.branch .list [.leaf .word "b"], .branch .select
        [.branch .equal [.leaf .word "a", .leaf .number "1"], .leaf .relation "r"]],
      .branch .project [.branch .list [.leaf .word "b"], .leaf .relation "r"]]) := by
    have lexed : TokenStream.ofText "π b (σ a = 1 (r)) ∪ π b (r)" = ⟨[.bare .project,
      .lit .word "b", .bare .openParen, .bare .select, .lit .word "a", .bare .equal,
      .lit .number "1", .bare .openParen, .lit .word "r", .bare .closeParen, .bare .closeParen,
      .bare .union, .bare .project, .lit .word "b", .bare .openParen, .lit .word "r",
      .bare .closeParen], none⟩ := by decide +kernel
    rw [Expression.parse_eq, lexed]
    cbv
  obtain ⟨q, hq, agrees⟩ := (evaluate_eq_positional sound _).2 _ parsed
  cases hq
  rw [agrees]
  exact ⟨sound, by decide⟩

/-! ### Schemas without rows -/

/-- The operators on rowsets give schemas as the operators on schemas do. -/
theorem simulates_schema (stored : String → Except Error Rowset) :
    (Rowset.operators stored).Simulates (fun x s => x.schema = s)
      (Schema.operators fun name => (stored name).map Rowset.schema) where
  stored name := by
    show SameOutcome _ (stored name) ((stored name).map Rowset.schema)
    cases stored name <;> exact rfl
  project := by
    rintro references x _ rfl
    show SameOutcome _ (x.schema.project references >>= _) (x.schema.project references)
    cases x.schema.project references <;> exact rfl
  select := by
    rintro p x _ rfl
    show SameOutcome _ (p.resolve x.schema >>= _) ((p.resolve x.schema).map _)
    cases p.resolve x.schema <;> exact rfl
  rename := by
    rintro name references x _ _ _ rfl
    show SameOutcome _ (x.schema.rename name references >>= _) (x.schema.rename name references)
    cases x.schema.rename name references <;> exact rfl
  combine := by
    rintro op x _ y _ rfl rfl
    show SameOutcome _ (x.schema.combine op y.schema >>= _) (x.schema.combine op y.schema)
    cases x.schema.combine op y.schema <;> exact rfl

theorem map_schema_positional (d : DataSet) {q : Query} (hq : q.Plain) :
    (q.positional d).map Rowset.schema = q.static d := by
  have hstatic := (simulates_schema fun name => (d.lookup name).map Relation.rowset).evaluate hq
  have hstored : (fun name => ((d.lookup name).map Relation.rowset).map Rowset.schema) =
      fun name => (d.lookup name).map Relation.schema := by
    funext name
    cases d.lookup name <;> rfl
  rw [hstored] at hstatic
  have hmap := hstatic.map_eq fun _ _ h => h
  exact hmap.trans (congrFun Except.map_id _)

theorem map_schema_evaluate {d : DataSet} (hd : d.Sound) {q : Query} (hq : q.Plain) :
    (q.evaluate (Relation.operators d)).map Relation.schema = q.static d := by
  rw [← map_schema_positional d hq]
  apply (evaluate_represents hd hq).map_eq
  intro r x h
  rw [← h.rowset_eq]
  rfl

theorem static_congr {d d' : DataSet}
    (h : ∀ name, (d.get? name).map Relation.schema = (d'.get? name).map Relation.schema)
    (q : Query) : q.static d = q.static d' := by
  have hstored : (fun name => (d.lookup name).map Relation.schema) =
      fun name => (d'.lookup name).map Relation.schema := by
    funext name
    have hname := h name
    rw [DataSet.lookup, DataSet.lookup]
    cases hr : d.get? name <;> cases hr' : d'.get? name <;> simp_all [Except.map]
  rw [Query.static, Query.static, hstored]

/-- On data sets with the same schemas under the same names, evaluation fails with the same error or
gives the same schema, whatever the tuples are. -/
theorem schema_evaluate_congr {d d' : DataSet} (hd : d.Sound) (hd' : d'.Sound)
    (h : ∀ name, (d.get? name).map Relation.schema = (d'.get? name).map Relation.schema)
    (text : String) :
    (evaluate d text).map Relation.schema = (evaluate d' text).map Relation.schema := by
  cases hp : Expression.parse text with
  | error error => simp [evaluate, hp]
  | ok e =>
    obtain ⟨q, hq, hplain, _⟩ := Expression.exists_query?_of_parse hp
    rw [evaluate_of_query? hp hq, evaluate_of_query? hp hq, map_schema_evaluate hd hplain,
      map_schema_evaluate hd' hplain, static_congr h]

theorem parse_renaming : Expression.parse "ρ s (r)" =
    .ok (.branch .rename [.leaf .word "s", .leaf .relation "r"]) := by
  have lexed : TokenStream.ofText "ρ s (r)" = ⟨[.bare .rename, .lit .word "s", .bare .openParen,
    .lit .word "r", .bare .closeParen], none⟩ := by decide +kernel
  rw [Expression.parse_eq, lexed]
  cbv

/-- With or without a row, renaming gives the same schema. -/
theorem schema_evaluate_congr_rename :
    (DataSet.numbered [[.number 1, .text "x"]]).Sound ∧ (DataSet.numbered []).Sound ∧
    (evaluate (DataSet.numbered [[.number 1, .text "x"]]) "ρ s (r)").map Relation.schema =
      (evaluate (DataSet.numbered []) "ρ s (r)").map Relation.schema ∧
    (evaluate (DataSet.numbered []) "ρ s (r)").map Relation.schema =
      .ok [⟨"s", "a", .number⟩, ⟨"s", "b", .string⟩] := by
  have sound : (DataSet.numbered [[.number 1, .text "x"]]).Sound := by decide
  have sound' : (DataSet.numbered []).Sound := by decide
  have schemas : ∀ name, ((DataSet.numbered [[.number 1, .text "x"]]).get? name).map
      Relation.schema = ((DataSet.numbered []).get? name).map Relation.schema := by
    intro name
    simp only [DataSet.numbered, NameMap.get?_ofList, List.reverse_singleton, NameMap.lookup_cons]
    split <;> rfl
  refine ⟨sound, sound', schema_evaluate_congr sound sound' schemas _, ?_⟩
  rw [evaluate, parse_renaming]
  decide +kernel

end RelationalAlgebra
