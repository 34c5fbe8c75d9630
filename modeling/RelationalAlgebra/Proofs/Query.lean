import RelationalAlgebra.Evaluation
import RelationalAlgebra.Proofs.Rowset.Soundness
import RelationalAlgebra.Proofs.Subexpressions

/-!
# Queries

A query is what an expression says, apart from the layout of its tree: `Expression.query?` reads it
off the trees that texts spell. It can be evaluated with any operators that fail with the errors of
this library, by name on relations, by position on rowsets, or on schemas alone.
-/
namespace RelationalAlgebra

/-- An expression of the algebra. -/
inductive Query where
  | stored (name : String)
  | project (attributes : List Reference) (operand : Query)
  | select (condition : Predicate Reference) (operand : Query)
  | rename (target : Reference) (attributes : List Reference) (operand : Query)
  | combine (op : BinaryOperator) (left right : Query)
  deriving DecidableEq, Repr

/-! ### Reading queries off trees -/

/-- The binary operator that a kind of token stands for. -/
def BinaryOperator.ofKind? : Kind → Option BinaryOperator
  | .union => some (.set .union)
  | .intersection => some (.set .intersection)
  | .difference => some (.set .difference)
  | .product => some .product
  | .join => some .join
  | _ => none

/-- The comparison that a kind of token stands for. -/
def Comparison.ofKind? : Kind → Option Comparison
  | .equal => some .eq
  | .notEqual => some .ne
  | .greater => some .gt
  | .greaterEqual => some .ge
  | .less => some .lt
  | .lessEqual => some .le
  | _ => none

theorem Comparison.ofKind_eq_ok_iff {kind : Kind} {op : Comparison} :
    ofKind kind = .ok op ↔ ofKind? kind = some op := by
  cases kind <;> simp [ofKind, ofKind?]

namespace Expression

def name? : Expression → Option String
  | node (some ⟨.word, some name⟩) [] => some name
  | _ => none

def reference? : Expression → Option Reference
  | node (some ⟨.word, some name⟩) [] => some (.bare name)
  | node (some ⟨.reference, _⟩) [qualifier, name] => do
    return .qualified (← qualifier.name?) (← name.name?)
  | _ => none

def references? : Expression → Option (List Reference)
  | node (some ⟨.list, _⟩) es => es.mapM reference?
  | _ => none

def integer? : Expression → Option Int
  | node (some ⟨.number, some digits⟩) [] => Numeral.integer? digits.toList
  | _ => none

def value? : Expression → Option Value
  | node (some ⟨.string, some text⟩) [] => some (.text text)
  | node (some ⟨.minus, _⟩) [e] => e.integer?.map fun n => .number (-n)
  | e => e.integer?.map .number

def operand? (e : Expression) : Option (Operand Reference) :=
  (e.reference?.map .named).or (e.value?.map .literal)

def predicate? : Expression → Option (Predicate Reference)
  | node (some ⟨.and, _⟩) [p, q] => do return .and (← p.predicate?) (← q.predicate?)
  | node (some ⟨.or, _⟩) [p, q] => do return .or (← p.predicate?) (← q.predicate?)
  | node (some ⟨.not, _⟩) [p] => do return .not (← p.predicate?)
  | node (some ⟨kind, _⟩) [lhs, rhs] => do
    return .compare (← Comparison.ofKind? kind) (← lhs.operand?) (← rhs.operand?)
  | _ => none

/-- The query that a tree lays out. -/
def query? : Expression → Option Query
  | node (some ⟨.relation, some name⟩) [] => some (.stored name)
  | node (some ⟨.project, _⟩) [list, e] => do return .project (← list.references?) (← e.query?)
  | node (some ⟨.select, _⟩) [condition, e] => do
    return .select (← condition.predicate?) (← e.query?)
  | node (some ⟨.rename, _⟩) [target, e] => do
    return .rename (← target.reference?) [] (← e.query?)
  | node (some ⟨.rename, _⟩) [target, list, e] => do
    return .rename (← target.reference?) (← list.references?) (← e.query?)
  | node (some ⟨kind, _⟩) [x, y] => do
    return .combine (← BinaryOperator.ofKind? kind) (← x.query?) (← y.query?)
  | _ => none

end Expression

/-! ### Names in queries -/

/-- The names that a query gives to relations hold no dot. -/
def Query.Plain : Query → Prop
  | stored _ => True
  | project _ q => q.Plain
  | select _ q => q.Plain
  | rename target attributes q =>
    RelationalAlgebra.Plain target.name ∧ (∀ r ∈ attributes, r.Plain) ∧ q.Plain
  | combine _ x y => x.Plain ∧ y.Plain

namespace Expression
variable {e : Expression}

theorem plain_of_name? {name : String} (h : e.name? = some name) (he : e.Plain) :
    RelationalAlgebra.Plain name := by
  unfold name? at h
  split at h
  · cases h
    exact (plain_node_iff.1 he).1 _ rfl rfl _ rfl
  · cases h

theorem plain_of_reference? {r : Reference} (h : e.reference? = some r) (he : e.Plain) :
    r.Plain ∧ RelationalAlgebra.Plain r.name := by
  unfold reference? at h
  split at h
  · cases h
    exact ⟨by simp [Reference.Plain, Reference.bare], (plain_node_iff.1 he).1 _ rfl rfl _ rfl⟩
  · simp only [Option.bind_eq_bind, Option.pure_def, Option.bind_eq_some_iff] at h
    obtain ⟨q, hq, n, hn, heq⟩ := h
    cases heq
    obtain ⟨_, hcs⟩ := plain_node_iff.1 he
    have hqualifier := plain_of_name? hq (hcs _ (by simp))
    have hname := plain_of_name? hn (hcs _ (by simp))
    refine ⟨?_, hname⟩
    rintro _ ⟨⟩
    exact hqualifier
  · cases h

theorem plain_of_references? {rs : List Reference} (h : e.references? = some rs) (he : e.Plain) :
    ∀ r ∈ rs, r.Plain := by
  unfold references? at h
  split at h
  · rename_i literal es
    obtain ⟨_, hes⟩ := plain_node_iff.1 he
    clear he
    induction es generalizing rs with
    | nil =>
      cases h
      exact fun _ hr => by cases hr
    | cons e es ih =>
      simp only [List.mapM_cons, Option.bind_eq_bind, Option.pure_def,
        Option.bind_eq_some_iff] at h
      obtain ⟨r, hr, rest, hrest, heq⟩ := h
      cases heq
      rw [List.forall_mem_cons] at hes ⊢
      exact ⟨(plain_of_reference? hr hes.1).1, ih hrest hes.2⟩
  · cases h

theorem plain_of_query? {q : Query} (h : e.query? = some q) (he : e.Plain) : q.Plain := by
  fun_induction query? e generalizing q with
  | case1 name =>
    cases h
    trivial
  | case2 literal list e ih | case3 literal condition e ih =>
    simp only [Option.bind_eq_bind, Option.pure_def, Option.bind_eq_some_iff] at h
    obtain ⟨_, _, q, hq, heq⟩ := h
    cases heq
    show q.Plain
    exact ih hq ((plain_node_iff.1 he).2 e (by simp))
  | case4 literal target e ih =>
    simp only [Option.bind_eq_bind, Option.pure_def, Option.bind_eq_some_iff] at h
    obtain ⟨r, hr, q, hq, heq⟩ := h
    cases heq
    obtain ⟨_, hcs⟩ := plain_node_iff.1 he
    have htarget := plain_of_reference? hr (hcs target (by simp))
    exact ⟨htarget.2, by simp, ih hq (hcs e (by simp))⟩
  | case5 literal target list e ih =>
    simp only [Option.bind_eq_bind, Option.pure_def, Option.bind_eq_some_iff] at h
    obtain ⟨r, hr, rs, hrs, q, hq, heq⟩ := h
    cases heq
    obtain ⟨_, hcs⟩ := plain_node_iff.1 he
    have htarget := plain_of_reference? hr (hcs target (by simp))
    have hlist := plain_of_references? hrs (hcs list (by simp))
    exact ⟨htarget.2, hlist, ih hq (hcs e (by simp))⟩
  | case6 kind literal x y _ _ _ ihx ihy =>
    simp only [Option.bind_eq_bind, Option.pure_def, Option.bind_eq_some_iff] at h
    obtain ⟨op, _, qx, hx, qy, hy, heq⟩ := h
    cases heq
    obtain ⟨_, hcs⟩ := plain_node_iff.1 he
    exact ⟨ihx hx (hcs x (by simp)), ihy hy (hcs y (by simp))⟩
  | case7 => cases h

end Expression

/-! ### Evaluation -/

/-- What the operators do on values of one type. -/
structure Operators (α : Type) where
  stored : String → Except Error α
  project : List Reference → α → Except Error α
  select : Predicate Reference → α → Except Error α
  rename : String → List Reference → α → Except Error α
  combine : BinaryOperator → α → α → Except Error α

/-- What a query stands for. Operands come first, from left to right, but no relation is renamed to
a qualified name. -/
def Query.evaluate {α : Type} (o : Operators α) : Query → Except Error α
  | stored name => o.stored name
  | project attributes q => do o.project attributes (← q.evaluate o)
  | select condition q => do o.select condition (← q.evaluate o)
  | rename ⟨none, name⟩ attributes q => do o.rename name attributes (← q.evaluate o)
  | rename ⟨some _, _⟩ _ _ => .error (.malformedTree .renameTarget)
  | combine op x y => do
    let x ← x.evaluate o
    let y ← y.evaluate o
    o.combine op x y

/-- The checked operators on the relations of a data set. -/
def Relation.operators (d : DataSet) : Operators Relation where
  stored := d.lookup
  project references r := Checked.project r references
  select p r := Checked.select r p
  rename name references r := Checked.rename r name references
  combine := Checked.apply

def Rowset.operators (stored : String → Except Error Rowset) : Operators Rowset where
  stored := stored
  project references x := x.project references
  select p x := x.select p
  rename name references x := x.rename name references
  combine := combine

def Schema.operators (stored : String → Except Error Schema) : Operators Schema where
  stored := stored
  project references s := s.project references
  select p s := (p.resolve s).map fun _ => s
  rename name references s := s.rename name references
  combine := combine

/-! ### Simulation -/

/-- Both fail with one error, or both succeed with related results. -/
def SameOutcome {α β : Type} (R : α → β → Prop) : Except Error α → Except Error β → Prop
  | .ok a, .ok b => R a b
  | .error e, .error e' => e = e'
  | _, _ => False

section Simulation
variable {α β γ δ : Type} {R : α → β → Prop} {S : γ → δ → Prop}

theorem SameOutcome.bind {x : Except Error α} {y : Except Error β} {f : α → Except Error γ}
    {g : β → Except Error δ} (h : SameOutcome R x y)
    (hnext : ∀ a b, R a b → SameOutcome S (f a) (g b)) : SameOutcome S (x >>= f) (y >>= g) := by
  cases x with
  | error e =>
    cases y with
    | error e' => exact h
    | ok b => cases h
  | ok a =>
    cases y with
    | error e' => cases h
    | ok b => exact hnext a b h

theorem SameOutcome.map_eq {x : Except Error α} {y : Except Error β} {f : α → γ} {g : β → γ}
    (h : SameOutcome R x y) (heq : ∀ a b, R a b → f a = g b) : x.map f = y.map g := by
  cases x with
  | error e =>
    cases y with
    | error e' => exact congrArg Except.error h
    | ok b => cases h
  | ok a =>
    cases y with
    | error e' => cases h
    | ok b => exact congrArg Except.ok (heq a b h)

/-- Operators that take related operands to the same outcome. -/
structure Operators.Simulates (R : α → β → Prop) (o : Operators α) (o' : Operators β) : Prop where
  stored : ∀ name, SameOutcome R (o.stored name) (o'.stored name)
  project : ∀ references a b, R a b → SameOutcome R (o.project references a)
    (o'.project references b)
  select : ∀ p a b, R a b → SameOutcome R (o.select p a) (o'.select p b)
  rename : ∀ name references a b, Plain name → (∀ r ∈ references, r.Plain) → R a b →
    SameOutcome R (o.rename name references a) (o'.rename name references b)
  combine : ∀ op a b a' b', R a b → R a' b' →
    SameOutcome R (o.combine op a a') (o'.combine op b b')

/-- Operators that simulate each other evaluate queries to the same outcome. -/
theorem Operators.Simulates.evaluate {o : Operators α} {o' : Operators β} (h : o.Simulates R o')
    {q : Query} (hq : q.Plain) : SameOutcome R (q.evaluate o) (q.evaluate o') := by
  induction q with
  | stored name => exact h.stored name
  | project attributes q ih => exact (ih hq).bind (h.project attributes)
  | select condition q ih => exact (ih hq).bind (h.select condition)
  | rename target attributes q ih =>
    obtain ⟨hname, hattributes, hq⟩ := hq
    obtain ⟨qualifier, name⟩ := target
    cases qualifier with
    | none => exact (ih hq).bind fun a b => h.rename name attributes a b hname hattributes
    | some qualifier => exact rfl
  | combine op x y ihx ihy =>
    apply (ihx hq.1).bind
    intro a b hab
    apply (ihy hq.2).bind
    intro a' b' hab'
    exact h.combine op a b a' b' hab hab'

end Simulation

end RelationalAlgebra
