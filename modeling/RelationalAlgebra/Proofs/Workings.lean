import RelationalAlgebra.Evaluation
import RelationalAlgebra.Proofs.Subexpressions

/-!
# Where relations are recorded

A node visits its children from left to right and leaves out none before the last that it visits
(`Site.children_isPrefix`), so its workings are laid out like the tree below it. Hence the relation
found under a path is what the subexpression at that path stands for, visited by itself
(`Expression.exists_at?_of_get?`).
-/
namespace RelationalAlgebra

def Site.workings (s : Site) : List Workings := s.children.map (·.visited.workings)

namespace Visit
variable {α β : Type} {x : Visit α} {f : α → Visit β} {ws : List Workings}

/-- Of the workings to come, a computation takes the first, and after a success leaves `rest`. -/
def Takes (x : Visit α) (ws : List Workings) (rest : α → List Workings) : Prop :=
  x.children <+: ws ∧ ∀ a, x.result = .ok a → ws = x.children ++ rest a

theorem bind_eq_of_ok {a : α} (h : x.result = .ok a) : x >>= f =
    ⟨(f a).result, x.events ++ (f a).events, x.children ++ (f a).children⟩ := by
  show x.bind f = _
  simp only [bind, h]

theorem bind_eq_of_error {e : Error} (h : x.result = .error e) :
    x >>= f = ⟨.error e, x.events, x.children⟩ := by
  show x.bind f = _
  simp only [bind, h]

/-- Steps may be grouped in any way: an error ends them all, and what was seen before it stays. -/
instance : LawfulMonad Visit := LawfulMonad.mk' Visit
  (fun x => by
    show x >>= pure = x
    cases h : x.result with
    | error e => rw [bind_eq_of_error h, ← h]
    | ok a =>
      rw [bind_eq_of_ok h]
      simp [pure, ← h])
  (fun a f => by
    rw [bind_eq_of_ok rfl]
    rfl)
  (fun x f g => by
    cases h : x.result with
    | error e => rw [bind_eq_of_error h, bind_eq_of_error h, bind_eq_of_error rfl]
    | ok a =>
      rw [bind_eq_of_ok h, bind_eq_of_ok h]
      cases hf : (f a).result with
      | error e => rw [bind_eq_of_error hf, bind_eq_of_error rfl]
      | ok b => rw [bind_eq_of_ok hf, bind_eq_of_ok rfl, List.append_assoc, List.append_assoc])

theorem children_bind_of_ok {a : α} (h : x.result = .ok a) :
    (x >>= f).children = x.children ++ (f a).children := by
  rw [bind_eq_of_ok h]

theorem children_bind_of_error {e : Error} (h : x.result = .error e) :
    (x >>= f).children = x.children := by
  rw [bind_eq_of_error h]

theorem Takes.bind {rest : α → List Workings} {rest' : β → List Workings} (hx : x.Takes ws rest)
    (hf : ∀ a, (f a).Takes (rest a) rest') : (x >>= f).Takes ws rest' := by
  cases h : x.result with
  | error e =>
    constructor
    · rw [children_bind_of_error h]
      exact hx.1
    · intro b hb
      rw [result_bind, h] at hb
      cases hb
  | ok a =>
    have hws := hx.2 a h
    constructor
    · rw [children_bind_of_ok h, hws]
      exact List.prefix_append_right_inj _ |>.2 (hf a).1
    · intro b hb
      rw [result_bind, h] at hb
      rw [children_bind_of_ok h, List.append_assoc, ← (hf a).2 b hb]
      exact hws

/-- The first computation takes some workings, the second goes on with what is left. -/
theorem Takes.isPrefix_bind {rest : α → List Workings} (hx : x.Takes ws rest)
    (hf : ∀ a, (f a).children <+: rest a) : (x >>= f).children <+: ws := by
  cases h : x.result with
  | error e =>
    rw [children_bind_of_error h]
    exact hx.1
  | ok a =>
    rw [children_bind_of_ok h, hx.2 a h]
    exact List.prefix_append_right_inj _ |>.2 (hf a)

theorem takes_pure (a : α) : (pure a : Visit α).Takes ws fun _ => ws :=
  ⟨List.nil_prefix, fun _ _ => rfl⟩

theorem takes_liftM (y : Except Error α) : (liftM y : Visit α).Takes ws fun _ => ws :=
  ⟨List.nil_prefix, fun _ _ => rfl⟩

theorem takes_log (e : Event) : (log e).Takes ws fun _ => ws := ⟨List.nil_prefix, fun _ _ => rfl⟩

end Visit

namespace Site
variable (s : Site)

theorem takes_child (i : Nat) :
    (s.child i).Takes (s.workings.drop i) fun _ => s.workings.drop (i + 1) := by
  cases h : s.children[i]? with
  | none =>
    have hget : s.get i = .error (.malformedTree (.missingChild s.label i)) := by simp [get, h]
    rw [child, hget]
    exact ⟨List.nil_prefix, fun _ hm => by cases hm⟩
  | some c =>
    have hget : s.get i = .ok c := by simp [get, h]
    have hw : s.workings[i]? = some c.visited.workings := by simp [workings, h]
    obtain ⟨hi, heq⟩ := List.getElem?_eq_some_iff.1 hw
    have hdrop := List.drop_eq_getElem_cons hi
    rw [heq] at hdrop
    rw [child, hget, hdrop]
    exact ⟨⟨_, rfl⟩, fun _ _ => rfl⟩

theorem takes_namedChild (i : Nat) :
    (s.namedChild i).Takes (s.workings.drop i) fun _ => s.workings.drop (i + 1) :=
  (s.takes_child i).bind fun _ => Visit.takes_pure _

theorem takes_operand (i : Nat) :
    (s.operand i).Takes (s.workings.drop i) fun _ => s.workings.drop (i + 1) :=
  (s.takes_child i).bind fun _ => Visit.takes_liftM _

theorem takes_newNames :
    s.newNames.Takes (s.workings.drop 1) fun names => s.workings.drop names.2 := by
  unfold newNames
  split
  · split
    · exact (s.takes_child 1).bind fun _ => (Visit.takes_liftM _).bind fun _ =>
        ⟨List.nil_prefix, fun names h => by cases h; rfl⟩
    · exact ⟨List.nil_prefix, fun _ h => by cases h⟩
  · exact ⟨List.nil_prefix, fun names h => by cases h; rfl⟩
  · exact ⟨List.nil_prefix, fun _ h => by cases h⟩

theorem takes_referencesOf (cs : List Child) :
    (referencesOf cs).Takes (cs.map (·.visited.workings)) fun _ => [] := by
  induction cs with
  | nil => exact Visit.takes_pure _
  | cons c cs ih =>
    have hc : (Visit.ofChild c.visited).Takes ((c :: cs).map (·.visited.workings)) fun _ =>
        cs.map (·.visited.workings) := ⟨⟨_, rfl⟩, fun _ _ => rfl⟩
    exact hc.bind fun _ => (Visit.takes_liftM _).bind fun _ => ih.bind fun _ => Visit.takes_pure _

theorem takes_comparison : s.comparison.Takes s.workings fun _ => s.workings.drop 2 :=
  (Visit.takes_liftM _).bind fun _ => (s.takes_namedChild 0).bind fun _ =>
    (Visit.takes_liftM _).bind fun _ => (s.takes_namedChild 1).bind fun _ =>
      (Visit.takes_liftM _).bind fun _ => Visit.takes_pure _

theorem takes_connective (join : Predicate Reference → Predicate Reference → Predicate Reference) :
    (s.connective join).Takes s.workings fun _ => s.workings.drop 2 :=
  (s.takes_child 0).bind fun _ => (Visit.takes_liftM _).bind fun _ =>
    (s.takes_child 1).bind fun _ => (Visit.takes_liftM _).bind fun _ => Visit.takes_pure _

theorem takes_project : s.project.Takes s.workings fun _ => s.workings.drop 2 :=
  (s.takes_child 0).bind fun _ => (Visit.takes_liftM _).bind fun _ =>
    (s.takes_operand 1).bind fun _ => (Visit.takes_liftM _).bind fun _ =>
      (Visit.takes_log _).bind fun _ => Visit.takes_pure _

theorem takes_select : s.select.Takes s.workings fun _ => s.workings.drop 2 :=
  (s.takes_child 0).bind fun _ => (Visit.takes_liftM _).bind fun _ =>
    (s.takes_operand 1).bind fun _ => (Visit.takes_liftM _).bind fun _ =>
      (Visit.takes_liftM _).bind fun _ => (Visit.takes_log _).bind fun _ => Visit.takes_pure _

theorem takes_combine (op : BinaryOperator) :
    (s.combine op).Takes s.workings fun _ => s.workings.drop 2 :=
  (s.takes_operand 0).bind fun _ => (s.takes_operand 1).bind fun _ =>
    (Visit.takes_liftM _).bind fun _ => (Visit.takes_log _).bind fun _ => Visit.takes_pure _

theorem children_rename_isPrefix : s.rename.children <+: s.workings := by
  apply (Visit.takes_liftM _).isPrefix_bind
  intro target
  split
  · exact List.nil_prefix
  · apply (s.takes_child 0).isPrefix_bind
    intro _
    apply (Visit.takes_liftM _).isPrefix_bind
    intro _
    apply s.takes_newNames.isPrefix_bind
    intro names
    apply (s.takes_operand names.2).isPrefix_bind
    intro _
    apply (Visit.takes_liftM _).isPrefix_bind
    intro _
    exact (Visit.takes_log _).isPrefix_bind fun _ => List.nil_prefix

theorem children_isPrefix (d : DataSet) : (s.meaning d).children <+: s.workings := by
  obtain ⟨⟨kind, literal⟩, cs⟩ := s
  cases kind with
  | number => exact List.nil_prefix
  | string | word => exact (Visit.takes_liftM _).isPrefix_bind fun _ => List.nil_prefix
  | relation =>
    exact (Visit.takes_liftM _).isPrefix_bind fun _ => (Visit.takes_liftM _).isPrefix_bind fun _ =>
      (Visit.takes_log _).isPrefix_bind fun _ => List.nil_prefix
  | minus | not =>
    exact (takes_child _ 0).isPrefix_bind fun _ => (Visit.takes_liftM _).isPrefix_bind fun _ =>
      List.nil_prefix
  | reference =>
    exact (takes_child _ 0).isPrefix_bind fun _ => (Visit.takes_liftM _).isPrefix_bind fun _ =>
      (takes_child _ 1).isPrefix_bind fun _ => (Visit.takes_liftM _).isPrefix_bind fun _ =>
        List.nil_prefix
  | list => exact (takes_referencesOf cs).isPrefix_bind fun _ => List.nil_prefix
  | greater | greaterEqual | equal | notEqual | less | lessEqual => exact (takes_comparison _).1
  | and | or => exact (takes_connective _ _).1
  | project => exact (takes_project _).1
  | select => exact (takes_select _).1
  | rename => exact children_rename_isPrefix _
  | union | intersection | difference | product | join => exact (takes_combine _ _).1
  | eof | openParen | closeParen | openBracket | closeBracket | dot | comma =>
    exact List.nil_prefix

end Site

namespace Workings

theorem get?_empty (path : List Nat) : empty.get? path = none := by
  induction path with
  | nil => rfl
  | cons i path ih => exact ih

/-- The workings of the node that a path leads to. -/
def under (w : Workings) : List Nat → Workings
  | [] => w
  | i :: path => (w.child i).under path

theorem get?_eq_relation?_under (w : Workings) (path : List Nat) :
    w.get? path = (w.under path).relation? := by
  induction path generalizing w with
  | nil => rfl
  | cons i path ih => exact ih (w.child i)

/-- Below a node something is recorded only under a child that was visited. -/
theorem getElem?_of_get?_cons {relation : Option Relation} {ws : List Workings} {i : Nat}
    {path : List Nat} {r : Relation} (h : (node relation ws).get? (i :: path) = some r) :
    ws[i]? = some ((node relation ws).child i) := by
  have hchild : (node relation ws).child i = (ws[i]?).getD empty := List.getD_eq_getElem?_getD
  rw [get?] at h
  rw [hchild] at h ⊢
  cases hw : ws[i]? with
  | none =>
    rw [hw, Option.getD_none, get?_empty] at h
    cases h
  | some w => rfl

end Workings

namespace Expression
variable {d : DataSet} {path : List Nat} {e : Expression} {r : Relation}

theorem childrenOf_eq_map (d : DataSet) (cs : List Expression) :
    childrenOf d cs = cs.map fun c => ⟨c.kind?, c.visit d⟩ := by
  induction cs with
  | nil => rfl
  | cons c cs ih => rw [childrenOf, List.map_cons, ih]

theorem workings_childrenOf (d : DataSet) (cs : List Expression) :
    (childrenOf d cs).map (·.visited.workings) = cs.map fun c => (c.visit d).workings := by
  rw [childrenOf_eq_map, List.map_map]
  rfl

theorem meaning_of_relation? (h : (e.visit d).workings.relation? = some r) :
    (e.visit d).meaning = .ok (.relation r) := by
  obtain ⟨token, cs⟩ := e
  cases token with
  | none => cases h
  | some t =>
    change (Site.meaning d ⟨t, childrenOf d cs⟩).result.toOption.bind Meaning.relation? = _ at h
    change (Site.meaning d ⟨t, childrenOf d cs⟩).result = _
    cases hm : (Site.meaning d ⟨t, childrenOf d cs⟩).result with
    | error x =>
      rw [hm] at h
      cases h
    | ok m =>
      rw [hm] at h
      cases m <;> cases h
      rfl

/-- What is recorded below a node is recorded by visiting a child. -/
theorem exists_child_of_get? {i : Nat} (h : (e.visit d).workings.get? (i :: path) = some r) :
    ∃ c, e.children[i]? = some c ∧ (e.visit d).workings.child i = (c.visit d).workings := by
  obtain ⟨token, cs⟩ := e
  cases token with
  | none => cases Workings.getElem?_of_get?_cons h
  | some t =>
    have hw := Workings.getElem?_of_get?_cons h
    obtain ⟨rest, hrest⟩ := Site.children_isPrefix ⟨t, childrenOf d cs⟩ d
    have hi := (List.getElem?_eq_some_iff.1 hw).1
    have hws : (cs.map fun c => (c.visit d).workings)[i]? =
        some ((visit d (node (some t) cs)).workings.child i) := by
      rw [← workings_childrenOf]
      change (Site.workings ⟨t, childrenOf d cs⟩)[i]? = _
      rw [← hrest, List.getElem?_append_left hi]
      exact hw
    rw [List.getElem?_map, Option.map_eq_some_iff] at hws
    obtain ⟨c, hc, hchild⟩ := hws
    exact ⟨c, hc, hchild.symm⟩

/-- Where something is recorded, the workings are those of the subexpression there. -/
theorem exists_under_of_get? (h : (e.visit d).workings.get? path = some r) :
    ∃ s, e.at? path = some s ∧ (e.visit d).workings.under path = (s.visit d).workings := by
  induction path generalizing e with
  | nil => exact ⟨e, rfl, rfl⟩
  | cons i path ih =>
    obtain ⟨c, hc, hchild⟩ := exists_child_of_get? h
    have hget : (c.visit d).workings.get? path = some r := hchild ▸ h
    obtain ⟨s, hs, hunder⟩ := ih hget
    refine ⟨s, at?_cons.2 ⟨c, hc, hs⟩, ?_⟩
    rw [Workings.under, hchild, hunder]

/-- What is recorded at a place is what the subexpression there stands for. -/
theorem exists_at?_of_get? (h : (e.visit d).workings.get? path = some r) :
    ∃ s, e.at? path = some s ∧ (s.visit d).meaning = .ok (.relation r) := by
  obtain ⟨s, hs, hunder⟩ := exists_under_of_get? h
  rw [Workings.get?_eq_relation?_under, hunder] at h
  exact ⟨s, hs, meaning_of_relation? h⟩

end Expression

end RelationalAlgebra
