import RelationalAlgebra.Expression
import RelationalAlgebra.Proofs.QualifiedNames

/-!
# Subexpressions

A path of child indices leads from an expression to each of its subexpressions. An expression is
plain if the words in it hold no dot. Nodes of some kinds stand for relations; these may have others
among their children as operands.
-/
namespace RelationalAlgebra

namespace Expression

def at? : List Nat → Expression → Option Expression
  | [], e => some e
  | i :: path, e => e.children[i]?.bind (at? path)

theorem at?_cons {i : Nat} {path : List Nat} {e s : Expression} :
    e.at? (i :: path) = some s ↔ ∃ c, e.children[i]? = some c ∧ c.at? path = some s :=
  Option.bind_eq_some_iff

/-- The words of an expression hold no dot. -/
def Plain (e : Expression) : Prop :=
  ∀ path s, e.at? path = some s → ∀ t ∈ s.token?, t.kind = .word →
    ∀ name ∈ t.literal, RelationalAlgebra.Plain name

theorem forall_at?_node_iff {P : Expression → Prop} {token : Option Token}
    {cs : List Expression} : (∀ path s, (node token cs).at? path = some s → P s) ↔
      P (node token cs) ∧ ∀ c ∈ cs, ∀ path s, c.at? path = some s → P s := by
  constructor
  · intro h
    refine ⟨h [] _ rfl, ?_⟩
    intro c hc path s hs
    obtain ⟨i, hi, rfl⟩ := List.mem_iff_getElem.1 hc
    exact h (i :: path) s (at?_cons.2 ⟨_, List.getElem?_eq_getElem hi, hs⟩)
  · rintro ⟨hroot, hchildren⟩ path s hs
    cases path with
    | nil =>
      cases hs
      exact hroot
    | cons i path =>
      obtain ⟨c, hc, hs⟩ := at?_cons.1 hs
      exact hchildren c (List.mem_of_getElem? hc) path s hs

theorem plain_node_iff {token : Option Token} {cs : List Expression} :
    (node token cs).Plain ↔
      (∀ t ∈ token, t.kind = .word → ∀ name ∈ t.literal, RelationalAlgebra.Plain name) ∧
        ∀ c ∈ cs, c.Plain := forall_at?_node_iff

theorem at?_append {path path' : List Nat} {e s : Expression} (h : e.at? path = some s) :
    e.at? (path ++ path') = s.at? path' := by
  induction path generalizing e with
  | nil =>
    cases h
    rfl
  | cons i path ih =>
    obtain ⟨c, hc, hs⟩ := at?_cons.1 h
    rw [List.cons_append, at?, hc]
    exact ih hs

theorem Plain.at? {e s : Expression} (he : e.Plain) {path : List Nat} (h : e.at? path = some s) :
    s.Plain := by
  intro path' s' hs'
  exact he (path ++ path') s' ((at?_append h).trans hs')

/-- A node that is no word is plain if its children are. -/
theorem plain_node {t : Token} (ht : t.kind ≠ .word) {cs : List Expression}
    (h : ∀ c ∈ cs, c.Plain) : (node (some t) cs).Plain := by
  apply plain_node_iff.2
  refine ⟨?_, h⟩
  rintro _ ⟨⟩ hword
  exact absurd hword ht

end Expression

/-! ### Operators and their operands -/

namespace Kind

def isRelational : Kind → Bool
  | relation | project | select | rename => true
  | union | intersection | difference | product | join => true
  | _ => false

/-- How many operands the nodes of a kind have. -/
def arity : Kind → Nat
  | project | select | rename => 1
  | union | intersection | difference | product | join => 2
  | _ => 0

/-- The places of the operands among the children of a node, given their number. The operand of a
renaming is the last child, behind its target. -/
def operandPlaces : Kind → Nat → List Nat
  | project, _ | select, _ => [1]
  | rename, n + 2 => [n + 1]
  | union, _ | intersection, _ | difference, _ | product, _ | join, _ => [0, 1]
  | _, _ => []

end Kind

namespace Expression

def IsRelational (e : Expression) : Prop := ∃ kind, e.kind? = some kind ∧ kind.isRelational = true

def operandPlaces (e : Expression) : List Nat :=
  e.kind?.elim [] fun kind => kind.operandPlaces e.children.length

/-- No node stands for a relation. -/
def NoOperators (e : Expression) : Prop := ∀ path s, e.at? path = some s → ¬s.IsRelational

theorem isRelational_node {t : Token} {cs : List Expression} :
    (node (some t) cs).IsRelational ↔ t.kind.isRelational = true := by
  simp [IsRelational, kind?, token?]

theorem noOperators_node {t : Token} {cs : List Expression} (ht : t.kind.isRelational = false)
    (h : ∀ c ∈ cs, c.NoOperators) : (node (some t) cs).NoOperators := by
  have hroot : ¬(node (some t) cs).IsRelational := by
    rw [isRelational_node, ht]
    exact Bool.false_ne_true
  exact (forall_at?_node_iff (P := fun s => ¬s.IsRelational)).2 ⟨hroot, h⟩

end Expression

end RelationalAlgebra
