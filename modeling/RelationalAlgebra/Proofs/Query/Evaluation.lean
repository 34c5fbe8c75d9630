import RelationalAlgebra.Proofs.Query

/-!
# Evaluating the trees of queries

Visiting a tree that lays out a query gives what the checked operators make of the query
(`evaluate_of_query?`). The parts of a query, names, references, values and predicates, mean
themselves.
-/
namespace RelationalAlgebra

/-! ### Children of a node -/

@[simp]
theorem Visit.result_liftM {α : Type} (x : Except Error α) : (liftM x : Visit α).result = x := rfl

namespace Site
variable (t : Token) (c c' : Child) (cs : List Child)

theorem literal_eq_of_eq_ok {s : Site} {name : String} (h : s.literal = .ok name) :
    s.token.literal = some name := by
  unfold literal at h
  split at h
  · rename_i hliteral
    cases h
    exact hliteral
  · cases h

@[simp]
theorem result_child_zero : (child ⟨t, c :: cs⟩ 0).result = c.visited.meaning := rfl

@[simp]
theorem result_child_one : (child ⟨t, c :: c' :: cs⟩ 1).result = c'.visited.meaning := rfl

@[simp]
theorem result_namedChild (s : Site) (i : Nat) :
    (s.namedChild i).result = (s.child i).result.map Meaning.inAttributePosition := by
  rw [namedChild, Visit.result_bind]
  cases (s.child i).result <;> rfl

@[simp]
theorem result_operand (s : Site) (i : Nat) :
    (s.operand i).result = (s.child i).result >>= Meaning.asRelation := by
  rw [operand, Visit.result_bind]
  rfl

end Site

namespace Expression
variable {d : DataSet} {e : Expression}

theorem meaning_visit_node (d : DataSet) (t : Token) (cs : List Expression) :
    (visit d (node (some t) cs)).meaning = (Site.meaning d ⟨t, childrenOf d cs⟩).result := rfl

/-! ### Parts of queries -/

theorem meaning_of_name? {name : String} (h : e.name? = some name) :
    (e.visit d).meaning = .ok (.name name) := by
  unfold name? at h
  split at h
  · cases h
    rfl
  · cases h

theorem meaning_of_reference? {r : Reference} (h : e.reference? = some r) :
    (e.visit d).meaning.map Meaning.inAttributePosition = .ok (.reference r) := by
  unfold reference? at h
  split at h
  · cases h
    rfl
  · rename_i qualifier name
    simp only [Option.bind_eq_bind, Option.pure_def, Option.bind_eq_some_iff] at h
    obtain ⟨q, hq, n, hn, heq⟩ := h
    cases heq
    simp [meaning_visit_node, Site.meaning, childrenOf, meaning_of_name? hq, meaning_of_name? hn,
      Meaning.asName, Except.map, Meaning.inAttributePosition]
  · cases h

theorem result_referencesOf {es : List Expression} {rs : List Reference}
    (h : es.mapM reference? = some rs) : (Site.referencesOf (childrenOf d es)).result = .ok rs := by
  induction es generalizing rs with
  | nil =>
    simp only [List.mapM_nil, Option.pure_def, Option.some.injEq] at h
    subst h
    rfl
  | cons e es ih =>
    simp only [List.mapM_cons, Option.bind_eq_bind, Option.pure_def, Option.bind_eq_some_iff] at h
    obtain ⟨r, hr, rest, hrest, heq⟩ := h
    cases heq
    have hmeaning := meaning_of_reference? (d := d) hr
    simp only [childrenOf, Site.referencesOf, Visit.result_bind, Visit.result_ofChild]
    cases hm : (e.visit d).meaning with
    | error x => rw [hm] at hmeaning; cases hmeaning
    | ok m =>
      rw [hm] at hmeaning
      have hr := Except.ok.inj hmeaning
      simp [hr, ih hrest, Meaning.asReference, pure]

theorem meaning_of_references? {rs : List Reference} (h : e.references? = some rs) :
    (e.visit d).meaning = .ok (.references rs) := by
  unfold references? at h
  split at h
  · simp [meaning_visit_node, Site.meaning, result_referencesOf h]
  · cases h

theorem meaning_of_integer? {n : Int} (h : e.integer? = some n) :
    (e.visit d).meaning = .ok (.value (.number n)) := by
  unfold integer? at h
  split at h
  · simp [meaning_visit_node, Site.meaning, Site.number, Site.literal, h, pure, Except.pure]
  · cases h

theorem meaning_of_value? {v : Value} (h : e.value? = some v) :
    (e.visit d).meaning = .ok (.value v) := by
  unfold value? at h
  split at h
  · cases h
    rfl
  · obtain ⟨n, hn, rfl⟩ := Option.map_eq_some_iff.1 h
    simp [meaning_visit_node, Site.meaning, childrenOf, meaning_of_integer? hn, Meaning.asNumber]
  · obtain ⟨n, hn, rfl⟩ := Option.map_eq_some_iff.1 h
    exact meaning_of_integer? hn

theorem meaning_of_operand? {o : Operand Reference} (h : e.operand? = some o) :
    ∃ m, (e.visit d).meaning.map Meaning.inAttributePosition = .ok m ∧ m.asOperand = .ok o := by
  rw [operand?, Option.or_eq_some_iff] at h
  rcases h with h | ⟨_, h⟩
  · obtain ⟨r, hr, rfl⟩ := Option.map_eq_some_iff.1 h
    exact ⟨_, meaning_of_reference? hr, rfl⟩
  · obtain ⟨v, hv, rfl⟩ := Option.map_eq_some_iff.1 h
    rw [meaning_of_value? hv]
    exact ⟨_, rfl, rfl⟩

theorem meaning_comparison {kind : Kind} {op : Comparison} (h : Comparison.ofKind? kind = some op)
    (literal : Option String) (cs : List Child) :
    Site.meaning d ⟨⟨kind, literal⟩, cs⟩ = Site.comparison ⟨⟨kind, literal⟩, cs⟩ := by
  cases kind <;> first | rfl | cases h

theorem meaning_of_predicate? {p : Predicate Reference} (h : e.predicate? = some p) :
    (e.visit d).meaning = .ok (.predicate p) := by
  fun_induction predicate? e generalizing p with
  | case1 literal p q ihp ihq =>
    simp only [Option.bind_eq_bind, Option.pure_def, Option.bind_eq_some_iff] at h
    obtain ⟨_, hp, _, hq, heq⟩ := h
    cases heq
    simp [meaning_visit_node, Site.meaning, Site.connective, childrenOf, ihp hp, ihq hq,
      Meaning.asPredicate]
  | case2 literal p q ihp ihq =>
    simp only [Option.bind_eq_bind, Option.pure_def, Option.bind_eq_some_iff] at h
    obtain ⟨_, hp, _, hq, heq⟩ := h
    cases heq
    simp [meaning_visit_node, Site.meaning, Site.connective, childrenOf, ihp hp, ihq hq,
      Meaning.asPredicate]
  | case3 literal p ih =>
    simp only [Option.bind_eq_bind, Option.pure_def, Option.bind_eq_some_iff] at h
    obtain ⟨_, hp, heq⟩ := h
    cases heq
    simp [meaning_visit_node, Site.meaning, childrenOf, ih hp, Meaning.asPredicate]
  | case4 kind literal lhs rhs =>
    simp only [Option.bind_eq_bind, Option.pure_def, Option.bind_eq_some_iff] at h
    obtain ⟨op, hop, l, hl, r, hr, heq⟩ := h
    cases heq
    obtain ⟨ml, hml, hl⟩ := meaning_of_operand? (d := d) hl
    obtain ⟨mr, hmr, hr⟩ := meaning_of_operand? (d := d) hr
    rw [meaning_visit_node, meaning_comparison hop]
    simp [Site.comparison, childrenOf, Comparison.ofKind_eq_ok_iff.2 hop, hml, hmr, hl, hr]
  | case5 => cases h

/-! ### Queries -/

theorem meaning_combine {kind : Kind} {op : BinaryOperator}
    (h : BinaryOperator.ofKind? kind = some op) (literal : Option String) (cs : List Child) :
    Site.meaning d ⟨⟨kind, literal⟩, cs⟩ = Site.combine op ⟨⟨kind, literal⟩, cs⟩ := by
  cases kind <;> first | (cases h; rfl) | cases h

theorem kind?_of_references? {rs : List Reference} (h : e.references? = some rs) :
    e.kind? = some .list := by
  unfold references? at h
  split at h
  · rfl
  · cases h

/-- A rename has a plain name as its target, or no meaning. -/
theorem kind?_of_reference? {r : Reference} (h : e.reference? = some r) :
    (e.kind? = some .word ∧ r = .bare r.name ∧ (e.visit d).meaning = .ok (.name r.name)) ∨
      (e.kind? ≠ some .word ∧ r.qualifier.isSome) := by
  unfold reference? at h
  split at h
  · cases h
    exact .inl ⟨rfl, rfl, rfl⟩
  · simp only [Option.bind_eq_bind, Option.pure_def, Option.bind_eq_some_iff] at h
    obtain ⟨q, hq, n, hn, heq⟩ := h
    cases heq
    exact .inr ⟨by simp [kind?, token?], rfl⟩
  · cases h

theorem map_relation_bind (x : Except Error Relation) (f : Relation → Except Error Relation) :
    (x.map Meaning.relation >>= fun m => m.asRelation >>= fun r => f r >>= fun result =>
      Except.ok (Meaning.relation result)) = (x >>= f).map Meaning.relation := by
  cases x with
  | error e => rfl
  | ok r =>
    show (f r >>= _) = (f r).map Meaning.relation
    cases f r <;> rfl

theorem result_project {list : Expression} {references : List Reference}
    (hl : list.references? = some references) {x : Except Error Relation}
    (hx : (e.visit d).meaning = x.map Meaning.relation) (literal : Option String) :
    (Site.project ⟨⟨.project, literal⟩, childrenOf d [list, e]⟩).result =
      (x >>= fun r => Relation.Checked.project r references).map Meaning.relation := by
  have hproject := map_relation_bind x fun r => Relation.Checked.project r references
  simpa [Site.project, childrenOf, meaning_of_references? hl, hx, Meaning.asReferences] using
    hproject

theorem result_select {condition : Expression} {p : Predicate Reference}
    (hc : condition.predicate? = some p) {x : Except Error Relation}
    (hx : (e.visit d).meaning = x.map Meaning.relation) (literal : Option String) :
    (Site.select ⟨⟨.select, literal⟩, childrenOf d [condition, e]⟩).result =
      (x >>= fun r => Relation.Checked.select r p).map Meaning.relation := by
  have hselect := map_relation_bind x fun r => Relation.Checked.select r p
  simpa [Site.select, Relation.Checked.select, childrenOf, meaning_of_predicate? hc, hx,
    Meaning.asPredicate] using hselect

theorem result_rename {r : Reference} {cs : List Child} {target : Expression}
    (hr : target.reference? = some r) {x : Except Error Relation} {references : List Reference}
    {i : Nat} {literal : Option String}
    (hnames : (Site.newNames ⟨⟨.rename, literal⟩, ⟨target.kind?, target.visit d⟩ :: cs⟩).result =
      .ok (references, i))
    (hx : (Site.child ⟨⟨.rename, literal⟩, ⟨target.kind?, target.visit d⟩ :: cs⟩ i).result =
      x.map Meaning.relation) :
    (Site.rename ⟨⟨.rename, literal⟩, ⟨target.kind?, target.visit d⟩ :: cs⟩).result =
      if r.qualifier.isSome then .error (.malformedTree .renameTarget)
      else (x >>= fun y => Relation.Checked.rename y r.name references).map Meaning.relation := by
  rcases kind?_of_reference? (d := d) hr with ⟨hkind, hr, hname⟩ | ⟨hkind, hq⟩
  · have hq : r.qualifier.isSome = false := by rw [hr]; rfl
    rw [hkind] at hnames hx ⊢
    have hrename := map_relation_bind x fun y => Relation.Checked.rename y r.name references
    simpa [Site.rename, Site.get, hname, Meaning.asName, hnames, hx, hq] using hrename
  · simp [Site.rename, Site.get, hkind, hq]
    rfl

theorem result_combine (op : BinaryOperator) (t : Token) {e e' : Expression}
    {x y : Except Error Relation} (hx : (e.visit d).meaning = x.map Meaning.relation)
    (hy : (e'.visit d).meaning = y.map Meaning.relation) :
    (Site.combine op ⟨t, childrenOf d [e, e']⟩).result =
      (do
        let r ← x
        let r' ← y
        Relation.Checked.apply op r r').map Meaning.relation := by
  simp only [Site.combine, childrenOf, Visit.result_bind, Site.result_operand,
    Site.result_child_zero, Site.result_child_one, hx, hy]
  cases x with
  | error e => rfl
  | ok r =>
    cases y with
    | error e => rfl
    | ok r' =>
      show (Relation.Checked.apply op r r' >>= _) = (Relation.Checked.apply op r r').map _
      cases Relation.Checked.apply op r r' <;> rfl

theorem meaning_of_query? {q : Query} (h : e.query? = some q) :
    (e.visit d).meaning = (q.evaluate (Relation.operators d)).map Meaning.relation := by
  fun_induction query? e generalizing q with
  | case1 name =>
    cases h
    rw [meaning_visit_node]
    show (liftM (d.lookup name) >>= fun r => _ : Visit Meaning).result =
      (d.lookup name).map Meaning.relation
    cases d.lookup name <;> rfl
  | case2 literal list e ih =>
    simp only [Option.bind_eq_bind, Option.pure_def, Option.bind_eq_some_iff] at h
    obtain ⟨rs, hrs, q, hq, heq⟩ := h
    cases heq
    exact result_project hrs (ih hq) literal
  | case3 literal condition e ih =>
    simp only [Option.bind_eq_bind, Option.pure_def, Option.bind_eq_some_iff] at h
    obtain ⟨p, hp, q, hq, heq⟩ := h
    cases heq
    exact result_select hp (ih hq) literal
  | case4 literal target e ih =>
    simp only [Option.bind_eq_bind, Option.pure_def, Option.bind_eq_some_iff] at h
    obtain ⟨⟨qualifier, name⟩, hr, q, hq, heq⟩ := h
    cases heq
    have hchild : (Site.child ⟨⟨.rename, literal⟩, childrenOf d [target, e]⟩ 1).result =
      (q.evaluate (Relation.operators d)).map Meaning.relation := ih hq
    have hrename := result_rename hr rfl hchild
    cases qualifier <;> exact hrename
  | case5 literal target list e ih =>
    simp only [Option.bind_eq_bind, Option.pure_def, Option.bind_eq_some_iff] at h
    obtain ⟨⟨qualifier, name⟩, hr, rs, hrs, q, hq, heq⟩ := h
    cases heq
    have hnames : (Site.newNames ⟨⟨.rename, literal⟩, childrenOf d [target, list, e]⟩).result =
        .ok (rs, 2) := by
      simp [Site.newNames, childrenOf, kind?_of_references? hrs, meaning_of_references? hrs,
        Meaning.asReferences]
    have hchild : (Site.child ⟨⟨.rename, literal⟩, childrenOf d [target, list, e]⟩ 2).result =
      (q.evaluate (Relation.operators d)).map Meaning.relation := ih hq
    have hrename := result_rename hr hnames hchild
    cases qualifier <;> exact hrename
  | case6 kind literal x y _ _ _ ihx ihy =>
    simp only [Option.bind_eq_bind, Option.pure_def, Option.bind_eq_some_iff] at h
    obtain ⟨op, hop, qx, hx, qy, hy, heq⟩ := h
    cases heq
    rw [meaning_visit_node, meaning_combine hop]
    exact result_combine op ⟨kind, literal⟩ (ihx hx) (ihy hy)
  | case7 => cases h

theorem evaluate_of_query? {q : Query} (h : e.query? = some q) :
    e.evaluate d = q.evaluate (Relation.operators d) := by
  rw [evaluate, meaning_of_query? h]
  cases q.evaluate (Relation.operators d) <;> rfl

end Expression

end RelationalAlgebra
