import RelationalAlgebra.Proofs.Query.Parts
import RelationalAlgebra.Proofs.Semantics

/-!
# Errors of parsed expressions

Parser and evaluator agree on the layout of trees. On sound data sets a text that parses can only
fail to evaluate over its names and types (`Error.OfNames`), or because it renames a relation to a
qualified name, which the grammar allows and the evaluation refuses. Errors are those of the
evaluation on schemas, where no tuple is looked at, so no predicate fails on one.
-/
namespace RelationalAlgebra

/-! ### Renaming to a qualified name -/

def Expression.IsQualifiedRename (e : Expression) : Prop :=
  e.kind? = some .rename ∧ ∃ target ∈ e.children.head?, target.kind? = some .reference

/-- Some node of the tree renames to a qualified name. -/
def Expression.RenamesToQualified (e : Expression) : Prop :=
  ∃ path s, e.at? path = some s ∧ s.IsQualifiedRename

def Query.RenamesToQualified : Query → Prop
  | stored _ => False
  | project _ q => q.RenamesToQualified
  | select _ q => q.RenamesToQualified
  | rename target _ q => target.qualifier.isSome ∨ q.RenamesToQualified
  | combine _ x y => x.RenamesToQualified ∨ y.RenamesToQualified

namespace Expression
variable {e : Expression} {token : Option Token} {cs : List Expression}

theorem renamesToQualified_node_iff : (node token cs).RenamesToQualified ↔
    (node token cs).IsQualifiedRename ∨ ∃ c ∈ cs, c.RenamesToQualified := by
  have h : (∀ path s, (node token cs).at? path = some s → ¬s.IsQualifiedRename) ↔ _ :=
    forall_at?_node_iff
  rw [← not_iff_not]
  simpa [RenamesToQualified, not_or] using h

theorem not_renamesToQualified_node {t : Token} (ht : t.kind ≠ .rename)
    (h : ∀ c ∈ cs, ¬c.RenamesToQualified) : ¬(node (some t) cs).RenamesToQualified := by
  rw [renamesToQualified_node_iff]
  rintro (⟨hkind, _⟩ | ⟨c, hc, hrename⟩)
  · exact ht (Option.some.inj hkind)
  · exact h c hc hrename

theorem NoOperators.not_renamesToQualified (h : e.NoOperators) : ¬e.RenamesToQualified := by
  intro hrename
  obtain ⟨path, s, hs, hkind, _⟩ := hrename
  exact h path s hs ⟨_, hkind, rfl⟩

theorem isQualifiedRename_iff {r : Reference} {target : Expression} {literal : Option String}
    (h : target.reference? = some r) :
    (node (some ⟨.rename, literal⟩) (target :: cs)).IsQualifiedRename ↔ r.qualifier.isSome := by
  have hiff : (node (some ⟨.rename, literal⟩) (target :: cs)).IsQualifiedRename ↔
      target.kind? = some .reference := by
    simp [IsQualifiedRename, kind?, token?, children]
  rw [hiff]
  unfold reference? at h
  split at h
  · cases h
    simp [kind?, token?, Reference.bare]
  · simp only [Option.bind_eq_bind, Option.pure_def, Option.bind_eq_some_iff] at h
    obtain ⟨_, _, _, _, heq⟩ := h
    cases heq
    simp [kind?, token?, Reference.qualified]
  · cases h

theorem not_isQualifiedRename {t : Token} (h : t.kind ≠ .rename) :
    ¬(node (some t) cs).IsQualifiedRename := fun hrename => h (Option.some.inj hrename.1)

/-- A tree and the query that it lays out rename to a qualified name alike. -/
theorem renamesToQualified_iff {q : Query} (h : e.query? = some q) :
    e.RenamesToQualified ↔ q.RenamesToQualified := by
  fun_induction query? e generalizing q with
  | case1 name =>
    cases h
    exact iff_of_false (not_renamesToQualified_node (by simp) (by simp)) id
  | case2 literal list e ih =>
    simp only [Option.bind_eq_bind, Option.pure_def, Option.bind_eq_some_iff] at h
    obtain ⟨rs, hrs, q, hq, heq⟩ := h
    cases heq
    rw [renamesToQualified_node_iff]
    simp [not_isQualifiedRename, (noOperators_of_references? hrs).not_renamesToQualified, ih hq,
      Query.RenamesToQualified]
  | case3 literal condition e ih =>
    simp only [Option.bind_eq_bind, Option.pure_def, Option.bind_eq_some_iff] at h
    obtain ⟨p, hp, q, hq, heq⟩ := h
    cases heq
    rw [renamesToQualified_node_iff]
    simp [not_isQualifiedRename, (noOperators_of_predicate? hp).not_renamesToQualified, ih hq,
      Query.RenamesToQualified]
  | case4 literal target e ih =>
    simp only [Option.bind_eq_bind, Option.pure_def, Option.bind_eq_some_iff] at h
    obtain ⟨r, hr, q, hq, heq⟩ := h
    cases heq
    rw [renamesToQualified_node_iff, isQualifiedRename_iff hr]
    simp [(noOperators_of_reference? hr).not_renamesToQualified, ih hq, Query.RenamesToQualified]
  | case5 literal target list e ih =>
    simp only [Option.bind_eq_bind, Option.pure_def, Option.bind_eq_some_iff] at h
    obtain ⟨r, hr, rs, hrs, q, hq, heq⟩ := h
    cases heq
    rw [renamesToQualified_node_iff, isQualifiedRename_iff hr]
    simp [(noOperators_of_reference? hr).not_renamesToQualified,
      (noOperators_of_references? hrs).not_renamesToQualified, ih hq, Query.RenamesToQualified]
  | case6 kind literal x y _ _ hkind ihx ihy =>
    simp only [Option.bind_eq_bind, Option.pure_def, Option.bind_eq_some_iff] at h
    obtain ⟨op, hop, qx, hx, qy, hy, heq⟩ := h
    cases heq
    have hrename : kind ≠ .rename := by
      rintro rfl
      cases hop
    rw [renamesToQualified_node_iff]
    simp [not_isQualifiedRename, hrename, ihx hx, ihy hy, Query.RenamesToQualified]
  | case7 => cases h

end Expression

/-! ### Errors of names and types -/

/-- The errors that the names and the types in an expression can cause. -/
def Error.OfNames : Error → Prop
  | relationNotFound _ | attributeNotFound _ | ambiguousAttribute _ | typeMismatch _ _ _ _ => True
  | renameArity _ _ | renameDuplicates _ | renameAmbiguous _ => True
  | arityMismatch _ | ambiguousProduct => True
  | lex _ | parse _ | illFormedPredicate | noHandler _ | malformedTree _ | dataSet _ => False

/-- Whatever a computation fails with has a property. -/
def FailsWith {α : Type} (P : Error → Prop) (x : Except Error α) : Prop := ∀ e, x = .error e → P e

section FailsWith
variable {α β : Type} {P : Error → Prop} {x y : Except Error α} {f : α → Except Error β}

theorem failsWith_ok (a : α) : FailsWith P (.ok a) := by
  rintro _ ⟨⟩

theorem failsWith_error {e : Error} (h : P e) : FailsWith P (.error e : Except Error α) := by
  rintro _ ⟨⟩
  exact h

theorem FailsWith.bind (hx : FailsWith P x) (hf : ∀ a, FailsWith P (f a)) :
    FailsWith P (x >>= f) := by
  cases x with
  | error e => exact failsWith_error (hx e rfl)
  | ok a => exact hf a

theorem FailsWith.map (hx : FailsWith P x) (g : α → β) : FailsWith P (x.map g) := by
  cases x with
  | error e => exact failsWith_error (hx e rfl)
  | ok a => exact failsWith_ok (g a)

theorem FailsWith.ite {c : Prop} [Decidable c] (hx : FailsWith P x) (hy : FailsWith P y) :
    FailsWith P (if c then x else y) := by
  split
  · exact hx
  · exact hy

end FailsWith

theorem Reference.failsWith_resolve (r : Reference) (s : Schema) :
    FailsWith Error.OfNames (r.resolve s) := by
  unfold resolve
  split
  · split
    · exact failsWith_ok _
    · exact failsWith_error trivial
  · split
    · exact failsWith_error trivial
    · exact failsWith_ok _
    · exact failsWith_error trivial

theorem Reference.failsWith_resolveAll (s : Schema) (rs : List Reference) :
    FailsWith Error.OfNames (resolveAll s rs) := by
  induction rs with
  | nil => exact failsWith_ok _
  | cons r rs ih => exact (r.failsWith_resolve s).bind fun _ => ih.bind fun _ => failsWith_ok _

theorem Operand.failsWith_resolve (s : Schema) (o : Operand Reference) :
    FailsWith Error.OfNames (o.resolve s) := by
  cases o with
  | named r => exact (r.failsWith_resolve s).bind fun _ => failsWith_ok _
  | literal v => exact failsWith_ok _

theorem Predicate.failsWith_resolve (p : Predicate Reference) (s : Schema) :
    FailsWith Error.OfNames (p.resolve s) := by
  have hoperands : FailsWith Error.OfNames (p.mapOperands (Operand.resolve s)) := by
    induction p with
    | compare op lhs rhs =>
      exact (lhs.failsWith_resolve s).bind fun _ => (rhs.failsWith_resolve s).bind fun _ =>
        failsWith_ok _
    | and p q ihp ihq | or p q ihp ihq =>
      exact ihp.bind fun _ => ihq.bind fun _ => failsWith_ok _
    | not p ih => exact ih.bind fun _ => failsWith_ok _
  have htypes : ∀ q : Predicate Attribute, FailsWith Error.OfNames q.checkTypes := by
    intro q
    induction q with
    | compare op lhs rhs => exact (failsWith_ok _).ite (failsWith_error trivial)
    | and p q ihp ihq | or p q ihp ihq => exact ihp.bind fun _ => ihq
    | not p ih => exact ih
  exact hoperands.bind fun q => (htypes q).bind fun _ => failsWith_ok _

namespace Schema
variable (s t : Schema)

theorem failsWith_rename (name : String) (references : List Reference) :
    FailsWith Error.OfNames (s.rename name references) :=
  ((failsWith_ok _).ite (failsWith_error trivial)).ite
    ((failsWith_error trivial).ite ((failsWith_ok _).ite (failsWith_error trivial)))

theorem failsWith_combine (op : BinaryOperator) :
    FailsWith Error.OfNames (Schema.combine op s t) := by
  cases op with
  | set op => exact (failsWith_ok _).ite (failsWith_error trivial)
  | product => exact (failsWith_ok _).ite (failsWith_error trivial)
  | join => exact failsWith_ok _

end Schema

/-! ### Queries -/

namespace Query
variable {d : DataSet} {q : Query}

/-- Renaming to a qualified name is the one fault of a query that names and types do not cause. -/
theorem failsWith_static (d : DataSet) (q : Query) : FailsWith
    (fun e => e.OfNames ∨ e = .malformedTree .renameTarget ∧ q.RenamesToQualified)
    (q.static d) := by
  have weaken {α : Type} {x : Except Error α} (P : Prop) (h : FailsWith Error.OfNames x) :
      FailsWith (fun e => e.OfNames ∨ e = .malformedTree .renameTarget ∧ P) x :=
    fun e he => .inl (h e he)
  induction q with
  | stored name =>
    apply weaken
    apply FailsWith.map
    rw [DataSet.lookup]
    split
    · exact failsWith_ok _
    · exact failsWith_error trivial
  | project attributes q ih =>
    apply FailsWith.bind ih
    intro s
    exact weaken _ ((Reference.failsWith_resolveAll s attributes).bind fun _ => failsWith_ok _)
  | select condition q ih =>
    apply FailsWith.bind ih
    intro s
    exact weaken _ ((condition.failsWith_resolve s).map _)
  | rename target attributes q ih =>
    obtain ⟨qualifier, name⟩ := target
    cases qualifier with
    | none =>
      apply FailsWith.bind
      · exact fun e he => (ih e he).imp_right fun h => ⟨h.1, .inr h.2⟩
      · exact fun s => weaken _ (s.failsWith_rename name attributes)
    | some qualifier => exact failsWith_error (.inr ⟨rfl, .inl rfl⟩)
  | combine op x y ihx ihy =>
    apply FailsWith.bind
    · exact fun e he => (ihx e he).imp_right fun h => ⟨h.1, .inl h.2⟩
    intro s
    apply FailsWith.bind
    · exact fun e he => (ihy e he).imp_right fun h => ⟨h.1, .inr h.2⟩
    · exact fun t => weaken _ (Schema.failsWith_combine s t op)

/-- A query that renames to a qualified name does not evaluate, with any operators. -/
theorem not_renamesToQualified_of_evaluate {α : Type} {o : Operators α} {a : α}
    (h : q.evaluate o = .ok a) : ¬q.RenamesToQualified := by
  induction q generalizing a with
  | stored name => exact id
  | project attributes q ih =>
    obtain ⟨_, hq, _⟩ := exists_of_bind_eq_ok h
    exact ih hq
  | select condition q ih =>
    obtain ⟨_, hq, _⟩ := exists_of_bind_eq_ok h
    exact ih hq
  | rename target attributes q ih =>
    obtain ⟨qualifier, name⟩ := target
    cases qualifier with
    | none =>
      obtain ⟨_, hq, _⟩ := exists_of_bind_eq_ok h
      simpa [RenamesToQualified] using ih hq
    | some qualifier => cases h
  | combine op x y ihx ihy =>
    obtain ⟨_, hx, h⟩ := exists_of_bind_eq_ok h
    obtain ⟨_, hy, _⟩ := exists_of_bind_eq_ok h
    simpa [RenamesToQualified] using ⟨ihx hx, ihy hy⟩

end Query

/-! ### Texts -/

/-- On sound data sets a text that parses fails to evaluate with no error of reading, of the data or
of the layout of its tree, except that a renaming to a qualified name is refused; and where there is
such a renaming, it never evaluates. -/
theorem evaluate_errors_of_parse {d : DataSet} (hd : d.Sound) {text : String} {e : Expression}
    (hp : Expression.parse text = .ok e) :
    (∀ error, evaluate d text = .error error →
      (∀ kind, error ≠ .noHandler kind) ∧ error ≠ .illFormedPredicate ∧
      (∀ fault, error ≠ .dataSet fault) ∧ (∀ x, error ≠ .lex x) ∧ (∀ x, error ≠ .parse x) ∧
      ∀ fault, error = .malformedTree fault → fault = .renameTarget ∧ e.RenamesToQualified) ∧
    (e.RenamesToQualified → ∀ r, evaluate d text ≠ .ok r) := by
  obtain ⟨q, hq, hplain, _⟩ := Expression.exists_query?_of_parse hp
  rw [evaluate_of_query? hp hq, Expression.renamesToQualified_iff hq]
  constructor
  · intro error herror
    have hstatic : q.static d = .error error := by
      rw [← map_schema_evaluate hd hplain, herror]
      rfl
    rcases q.failsWith_static d error hstatic with hnames | ⟨rfl, hrename⟩
    · have hne : ∀ other : Error, ¬other.OfNames → error ≠ other := by
        rintro _ hother rfl
        exact hother hnames
      exact ⟨fun _ => hne _ id, hne _ id, fun _ => hne _ id, fun _ => hne _ id, fun _ => hne _ id,
        fun _ h => absurd h (hne _ id)⟩
    · simp [hrename]
  · intro hrename r hr
    exact Query.not_renamesToQualified_of_evaluate hr hrename

/-- The grammar lets a relation be renamed to a qualified name, the evaluation does not. -/
theorem evaluate_errors_of_parse_renaming :
    (DataSet.numbered [[.number 1, .text "x"]]).Sound ∧
    ∃ e, Expression.parse "ρ s.t (r)" = .ok e ∧ e.RenamesToQualified ∧
      (∀ r, evaluate (DataSet.numbered [[.number 1, .text "x"]]) "ρ s.t (r)" ≠ .ok r) ∧
      evaluate (DataSet.numbered [[.number 1, .text "x"]]) "ρ s.t (r)" =
        .error (.malformedTree .renameTarget) := by
  have sound : (DataSet.numbered [[.number 1, .text "x"]]).Sound := by decide
  have lexed : TokenStream.ofText "ρ s.t (r)" = ⟨[.bare .rename, .lit .word "s", .bare .dot,
    .lit .word "t", .bare .openParen, .lit .word "r", .bare .closeParen], none⟩ := by
    decide +kernel
  have parsed : Expression.parse "ρ s.t (r)" = .ok (.branch .rename
      [.branch .reference [.leaf .word "s", .leaf .word "t"], .leaf .relation "r"]) := by
    rw [Expression.parse_eq, lexed]
    cbv
  have renames : (Expression.branch .rename [.branch .reference [.leaf .word "s", .leaf .word "t"],
    .leaf .relation "r"]).RenamesToQualified := ⟨[], _, rfl, rfl, _, rfl, rfl⟩
  have evaluated := evaluate_errors_of_parse sound parsed
  refine ⟨sound, _, parsed, renames, evaluated.2 renames, ?_⟩
  rw [evaluate, parsed]
  decide +kernel

end RelationalAlgebra
