import Mathlib.Data.List.Forall2
import RelationalAlgebra.Proofs.Semantics
import RelationalAlgebra.Proofs.Workings.Success

/-!
# Naming intermediate results

An expression may stand in place of the name of the relation that it stands for: evaluating with the
expression in the leaves of that name gives what evaluating with the relation under the name gives
(`evaluate_substitute`). For a node only sees what its children mean and, in two places, whether a
child is a word or a list (`Site.Alike`); a tree that stands for a relation is neither, and so is a
leaf that names one.
-/
namespace RelationalAlgebra

namespace Expression

mutual

/-- The tree with another in place of every leaf that names a stored relation `name`. A node that
names a relation has no use for children, so it is replaced with what hangs below it. -/
def substitute : Expression → String → Expression → Expression
  | node token cs, name, s =>
    if token = some (.lit .relation name) then s else node token (substituteAll cs name s)

def substituteAll : List Expression → String → Expression → List Expression
  | [], _, _ => []
  | c :: cs, name, s => c.substitute name s :: substituteAll cs name s

end

end Expression

/-! ### What a node sees of its children -/

/-- Children that mean the same, and are words or lists alike. -/
structure Child.Alike (c c' : Child) : Prop where
  meaning : c.visited.meaning = c'.visited.meaning
  word : c.kind? = some .word ↔ c'.kind? = some .word
  list : c.kind? = some .list ↔ c'.kind? = some .list

namespace Site

/-- Nodes with one token whose children are alike one by one. -/
structure Alike (s s' : Site) : Prop where
  token : s.token = s'.token
  children : List.Forall₂ Child.Alike s.children s'.children

namespace Alike
variable {s s' : Site}

theorem label_eq (h : s.Alike s') : s.label = s'.label := by
  have hempty : s.children.isEmpty = s'.children.isEmpty := by
    rw [Bool.eq_iff_iff, List.isEmpty_iff_length_eq_zero, List.isEmpty_iff_length_eq_zero,
      h.children.length_eq]
  rw [label, label, h.token, hempty]

theorem literal_eq (h : s.Alike s') : s.literal = s'.literal := by
  rw [literal, literal, h.label_eq, h.token]

theorem get_cases (h : s.Alike s') (i : Nat) :
    (∃ c c', c.Alike c' ∧ s.get i = .ok c ∧ s'.get i = .ok c') ∨
      ∃ e, s.get i = .error e ∧ s'.get i = .error e := by
  have hlength := h.children.length_eq
  by_cases hi : i < s.children.length
  · left
    have hi' : i < s'.children.length := hlength ▸ hi
    refine ⟨s.children[i], s'.children[i], h.children.get hi hi', ?_, ?_⟩
    · simp [get, hi]
    · simp [get, hi']
  · right
    have hi' : ¬i < s'.children.length := hlength ▸ hi
    refine ⟨.malformedTree (.missingChild s.label i), ?_, ?_⟩
    · simp [get, List.getElem?_eq_none (Nat.le_of_not_lt hi)]
    · simp [get, List.getElem?_eq_none (Nat.le_of_not_lt hi'), h.label_eq]

theorem result_child (h : s.Alike s') (i : Nat) : (s.child i).result = (s'.child i).result := by
  rw [child, child]
  rcases h.get_cases i with ⟨c, c', hc, hget, hget'⟩ | ⟨e, hget, hget'⟩
  · rw [hget, hget']
    exact hc.meaning
  · rw [hget, hget']

theorem result_operand (h : s.Alike s') (i : Nat) :
    (s.operand i).result = (s'.operand i).result := by
  rw [Site.result_operand, Site.result_operand, h.result_child]

theorem result_namedChild (h : s.Alike s') (i : Nat) :
    (s.namedChild i).result = (s'.namedChild i).result := by
  rw [Site.result_namedChild, Site.result_namedChild, h.result_child]

theorem result_referencesOf {cs cs' : List Child} (h : List.Forall₂ Child.Alike cs cs') :
    (referencesOf cs).result = (referencesOf cs').result := by
  induction h with
  | nil => rfl
  | cons hc _ ih =>
    simp only [referencesOf, Visit.result_bind, Visit.result_ofChild, hc.meaning, ih]

theorem result_comparison (h : s.Alike s') : s.comparison.result = s'.comparison.result := by
  simp only [comparison, Visit.result_bind, h.token, h.result_namedChild]

theorem result_connective (h : s.Alike s')
    (join : Predicate Reference → Predicate Reference → Predicate Reference) :
    (s.connective join).result = (s'.connective join).result := by
  simp only [connective, Visit.result_bind, h.result_child]

theorem result_project (h : s.Alike s') : s.project.result = s'.project.result := by
  simp only [project, Visit.result_bind, h.result_child, h.result_operand]

theorem result_select (h : s.Alike s') : s.select.result = s'.select.result := by
  simp only [select, Visit.result_bind, h.result_child, h.result_operand]

theorem result_combine (h : s.Alike s') (op : BinaryOperator) :
    (s.combine op).result = (s'.combine op).result := by
  simp only [combine, Visit.result_bind, h.result_operand]

/-- Whether there is a list of new names is seen from the kind of the child in the middle. -/
theorem result_newNames (h : s.Alike s') : s.newNames.result = s'.newNames.result := by
  have hchild := h.result_child 1
  have hchildren := h.children
  obtain ⟨token, cs⟩ := s
  obtain ⟨token', cs'⟩ := s'
  cases hchildren with
  | nil => rfl
  | cons _ hrest =>
    cases hrest with
    | nil => rfl
    | cons hmiddle hrest =>
      cases hrest with
      | nil => rfl
      | cons _ hrest =>
        cases hrest with
        | nil =>
          simp only [newNames, hmiddle.list]
          split
          · simp only [Visit.result_bind, hchild]
          · rfl
        | cons _ hrest => simp only [newNames, List.length_cons, hrest.length_eq]

theorem result_rename (h : s.Alike s') : s.rename.result = s'.rename.result := by
  rw [rename, rename, Visit.result_bind, Visit.result_bind]
  rcases h.get_cases 0 with ⟨c, c', hc, hget, hget'⟩ | ⟨e, hget, hget'⟩
  · rw [hget, hget']
    show Visit.result (if _ then _ else _) = Visit.result (if _ then _ else _)
    by_cases hword : c.kind? = some .word
    · rw [if_neg (not_not.2 hword), if_neg (not_not.2 (hc.word.1 hword))]
      simp only [Visit.result_bind, h.result_child, h.result_newNames, h.result_operand]
    · rw [if_pos hword, if_pos (mt hc.word.2 hword)]
  · rw [hget, hget']
    rfl

theorem result_lookup {d d' : DataSet} (h : s.Alike s')
    (hd : ∀ name, s.token = .lit .relation name → d.lookup name = d'.lookup name)
    (hkind : s.token.kind = .relation) : (s.lookup d).result = (s'.lookup d').result := by
  simp only [lookup, Visit.result_bind, ← h.literal_eq, Visit.result_liftM]
  cases hl : s.literal with
  | error e => rfl
  | ok name =>
    have htoken : s.token = .lit .relation name := by
      rw [Token.lit, ← hkind, ← literal_eq_of_eq_ok hl]
    simp only [ok_bind, hd name htoken]

/-- What a node means is settled by its token, by what its children mean and by the stored
relation that the token names. -/
theorem result_meaning {d d' : DataSet} (h : s.Alike s')
    (hd : ∀ name, s.token = .lit .relation name → d.lookup name = d'.lookup name) :
    (s.meaning d).result = (s'.meaning d').result := by
  obtain ⟨⟨kind, literal⟩, cs⟩ := s
  obtain ⟨token', cs'⟩ := s'
  obtain rfl := h.token
  cases kind with
  | relation => exact h.result_lookup hd rfl
  | number =>
    simp only [meaning, Visit.result_liftM, number, h.literal_eq]
  | string | word =>
    simp only [meaning, Visit.result_bind, Visit.result_liftM, h.literal_eq]
  | minus | not => simp only [meaning, Visit.result_bind, h.result_child]
  | reference => simp only [meaning, Visit.result_bind, h.result_child]
  | list => simp only [meaning, Visit.result_bind, result_referencesOf h.children]
  | greater | greaterEqual | equal | notEqual | less | lessEqual => exact h.result_comparison
  | and | or => exact h.result_connective _
  | project => exact h.result_project
  | select => exact h.result_select
  | rename => exact h.result_rename
  | union | intersection | difference | product | join => exact h.result_combine _
  | eof | openParen | closeParen | openBracket | closeBracket | dot | comma => rfl

end Alike
end Site

/-! ### Expressions -/

theorem DataSet.lookup_insert_self (d : DataSet) (name : String) (r : Relation) :
    DataSet.lookup (d.insert name r) name = .ok r := by
  rw [lookup, NameMap.get?_insert_self]

theorem DataSet.lookup_insert_of_ne (d : DataSet) {name other : String} (r : Relation)
    (h : other ≠ name) : DataSet.lookup (d.insert name r) other = d.lookup other := by
  rw [lookup, lookup, NameMap.get?_insert, if_neg h]

namespace Expression
variable {d : DataSet} {s : Expression} {r : Relation}

theorem substituteAll_eq_map (cs : List Expression) (name : String) (s : Expression) :
    substituteAll cs name s = cs.map fun c => c.substitute name s := by
  induction cs with
  | nil => rfl
  | cons c cs ih => rw [substituteAll, List.map_cons, ih]

/-- A tree that stands for a relation is neither a word nor a list. -/
theorem kind?_ne_of_evaluate (h : s.evaluate d = .ok r) :
    s.kind? ≠ some .word ∧ s.kind? ≠ some .list := by
  obtain ⟨kind, hkind, hrelational⟩ := (isSome_relation?_iff (evaluate_eq_ok_iff.1 h)).1 rfl
  rw [hkind]
  constructor
  · intro hword
    obtain rfl := Option.some.inj hword
    cases hrelational
  · intro hlist
    obtain rfl := Option.some.inj hlist
    cases hrelational

theorem meaning_lookup {name : String} {cs : List Expression} (h : d.lookup name = .ok r) :
    ((node (some (.lit .relation name)) cs).visit d).meaning = .ok (.relation r) := by
  rw [meaning_visit_node]
  show (liftM (d.lookup name) >>= fun r => _ : Visit Meaning).result = _
  rw [h]
  rfl

/-- As children of a node, a tree with a relation under a name and the tree with an expression for
that relation in place of the name are alike. -/
theorem alike_substitute (h : s.evaluate d = .ok r) (name : String) (t : Expression) :
    Child.Alike ⟨(t.substitute name s).kind?, (t.substitute name s).visit d⟩
      ⟨t.kind?, t.visit (d.insert name r)⟩ := by
  induction t using Expression.induction with
  | node token cs ih =>
    rw [substitute, substituteAll_eq_map]
    by_cases htoken : token = some (.lit .relation name)
    · rw [if_pos htoken]
      subst htoken
      obtain ⟨hword, hlist⟩ := kind?_ne_of_evaluate h
      refine ⟨?_, iff_of_false hword (by simp [kind?, token?, Token.lit]),
        iff_of_false hlist (by simp [kind?, token?, Token.lit])⟩
      rw [evaluate_eq_ok_iff.1 h, meaning_lookup (d.lookup_insert_self name r)]
    · rw [if_neg htoken]
      refine ⟨?_, Iff.rfl, Iff.rfl⟩
      cases token with
      | none => rfl
      | some token =>
        rw [meaning_visit_node, meaning_visit_node]
        apply Site.Alike.result_meaning
        · refine ⟨rfl, ?_⟩
          rw [childrenOf_eq_map, childrenOf_eq_map, List.map_map, List.forall₂_map_left_iff,
            List.forall₂_map_right_iff, List.forall₂_same]
          exact ih
        · intro other hother
          have hne : other ≠ name := by
            intro heq
            exact htoken (by rw [← heq, ← hother])
          exact (d.lookup_insert_of_ne r hne).symm

/-- An expression may be put in place of the name of the relation that it stands for. -/
theorem evaluate_substitute (h : s.evaluate d = .ok r) (name : String) (t : Expression) :
    (t.substitute name s).evaluate d = t.evaluate (d.insert name r) := by
  rw [evaluate, evaluate, (alike_substitute h name t).meaning]

/-- A renaming renames the union that stands in place of a stored relation: the union is taken for
its operand, not for a list of new names. -/
theorem evaluate_substitute_rename :
    let d := DataSet.numbered [[.number 1, .text "x"], [.number 1, .text "x"]]
    let s := branch .union [leaf .relation "r", leaf .relation "r"]
    let t := branch .rename [leaf .word "t", leaf .relation "v"]
    let r := Rowset.relation ⟨[⟨"r", "a", .number⟩, ⟨"r", "b", .string⟩],
      [[.number 1, .text "x"], [.number 1, .text "x"]]⟩
    s.evaluate d = .ok r ∧
    (t.substitute "v" s).evaluate d = t.evaluate (d.insert "v" r) ∧
    (t.substitute "v" s).evaluate d = .ok (Rowset.relation
      ⟨[⟨"t", "a", .number⟩, ⟨"t", "b", .string⟩],
        [[.number 1, .text "x"], [.number 1, .text "x"]]⟩) := by
  intro d s t r
  have evaluates : s.evaluate d = .ok r := by decide +kernel
  exact ⟨evaluates, evaluate_substitute evaluates "v" t, by decide +kernel⟩

end Expression
end RelationalAlgebra
