import RelationalAlgebra.Proofs.Rowset.Soundness
import RelationalAlgebra.Proofs.Workings

/-!
# What a node has visited when it succeeds

A node that has a meaning has visited some of its first children: those that mean no relation in
front, its operands behind them (`Site.exists_split`). How many of either there are depends on the
kind of the node, and for renamings on whether there is a list of new names.
-/
namespace RelationalAlgebra

namespace Meaning
variable {m : Meaning}

/-! ### Meanings that are no relations -/

theorem relation?_of_asName {s : String} (h : m.asName = .ok s) : m.relation? = none := by
  cases m <;> first | rfl | cases h

theorem relation?_of_asNumber {n : Int} (h : m.asNumber = .ok n) : m.relation? = none := by
  cases m <;> first | rfl | cases h

theorem relation?_of_asReferences {rs : List Reference} (h : m.asReferences = .ok rs) :
    m.relation? = none := by
  cases m <;> first | rfl | cases h

theorem relation?_of_asPredicate {p : Predicate Reference} (h : m.asPredicate = .ok p) :
    m.relation? = none := by
  cases m <;> first | rfl | cases h

theorem relation?_of_asReference {r : Reference}
    (h : m.inAttributePosition.asReference = .ok r) : m.relation? = none := by
  cases m <;> first | rfl | cases h

theorem relation?_of_asOperand {o : Operand Reference}
    (h : m.inAttributePosition.asOperand = .ok o) : m.relation? = none := by
  cases m <;> first | rfl | cases h

theorem asRelation_eq_ok_iff {r : Relation} : m.asRelation = .ok r ↔ m = .relation r := by
  cases m <;> simp [asRelation]

end Meaning

/-! ### Computations that succeed -/

namespace Visit
variable {α β : Type} {x : Visit α} {f : α → Visit β} {a a' : α} {b : β} {ws : List Workings}

/-- The computation succeeds, and the children that it visits leave these workings. -/
def Yields (x : Visit α) (a : α) (ws : List Workings) : Prop := x.result = .ok a ∧ x.children = ws

theorem yields_bind : (x >>= f).Yields b ws ↔
    ∃ a us, x.Yields a us ∧ ∃ vs, (f a).Yields b vs ∧ ws = us ++ vs := by
  cases h : x.result with
  | error e =>
    have hbind := bind_eq_of_error (f := f) h
    constructor
    · intro hyields
      rw [hbind] at hyields
      cases hyields.1
    · intro hyields
      obtain ⟨a, us, hx, _⟩ := hyields
      cases h.symm.trans hx.1
  | ok a =>
    rw [bind_eq_of_ok h]
    simp [Yields, h, eq_comm]

theorem yields_pure : (pure a : Visit α).Yields a' ws ↔ a = a' ∧ ws = [] := by
  simp [Yields, pure, eq_comm]

theorem yields_liftM {y : Except Error α} :
    (liftM y : Visit α).Yields a ws ↔ y = .ok a ∧ ws = [] := by
  rw [Yields, eq_comm (b := ws)]
  rfl

theorem yields_liftM_bind {y : Except Error α} : ((liftM y : Visit α) >>= f).Yields b ws ↔
    ∃ a, y = .ok a ∧ (f a).Yields b ws := by
  simp [yields_bind, yields_liftM, and_assoc]

theorem yields_log_bind {e : Event} {f : Unit → Visit β} :
    (log e >>= f).Yields b ws ↔ (f ()).Yields b ws := by
  have hlog : ∀ u us, (log e).Yields u us ↔ us = [] := by simp [Yields, log, eq_comm]
  simp only [yields_bind, hlog]
  constructor
  · intro h
    obtain ⟨_, _, rfl, vs, hf, rfl⟩ := h
    exact hf
  · intro h
    exact ⟨(), [], rfl, ws, h, rfl⟩

theorem yields_ofChild_bind {v : Visited} {f : Meaning → Visit β} :
    (ofChild v >>= f).Yields b ws ↔
      ∃ m, v.meaning = .ok m ∧ ∃ vs, (f m).Yields b vs ∧ ws = v.workings :: vs := by
  have hchild : ∀ m us, (ofChild v).Yields m us ↔ v.meaning = .ok m ∧ us = [v.workings] := by
    simp [Yields, ofChild, eq_comm]
  simp [yields_bind, hchild, and_assoc]

theorem not_yields_fail {e : Error} : ¬(fail e : Visit α).Yields a ws := by
  intro h
  cases h.1

end Visit

namespace Site
variable {s : Site} {d : DataSet} {m : Meaning} {ws : List Workings}

theorem get_eq_ok_iff {c : Child} : s.get i = .ok c ↔ s.children[i]? = some c := by
  unfold get
  split <;> simp_all

/-! ### What a node has visited -/

/-- A node that means `m` has visited `parts`, which mean no relations, and its operands behind. -/
structure Split (s : Site) (m : Meaning) (ws : List Workings) (parts operands : List Child) :
    Prop where
  isRelational : m.relation?.isSome = s.token.kind.isRelational
  isPrefix : parts ++ operands <+: s.children
  workings : ws = (parts ++ operands).map (·.visited.workings)
  forall_parts : ∀ c ∈ parts, ∃ n, c.visited.meaning = .ok n ∧ n.relation? = none
  forall_operands : ∀ c ∈ operands, ∃ r, c.visited.meaning = .ok (.relation r)
  arity : operands.length = s.token.kind.arity
  places : s.token.kind.operandPlaces s.children.length =
    List.range' parts.length operands.length

theorem singleton_isPrefix {α : Type} {a : α} {cs : List α} (h : cs[0]? = some a) : [a] <+: cs := by
  cases cs with
  | nil => cases h
  | cons c cs =>
    cases h
    exact ⟨cs, rfl⟩

theorem pair_isPrefix {α : Type} {a b : α} {cs : List α} (h : cs[0]? = some a)
    (h' : cs[1]? = some b) : [a, b] <+: cs := by
  cases cs with
  | nil => cases h
  | cons c cs =>
    cases h
    obtain ⟨rest, rfl⟩ := singleton_isPrefix h'
    exact ⟨rest, rfl⟩

/-- Nodes of the other kinds have no operands. -/
theorem split_parts {cs : List Child} (hkind : s.token.kind.isRelational = false)
    (hm : m.relation? = none) (hcs : cs <+: s.children)
    (hparts : ∀ c ∈ cs, ∃ n, c.visited.meaning = .ok n ∧ n.relation? = none) :
    s.Split m (cs.map (·.visited.workings)) cs [] where
  isRelational := by rw [hm, hkind]; rfl
  isPrefix := by rwa [List.append_nil]
  workings := by rw [List.append_nil]
  forall_parts := hparts
  forall_operands := by simp
  arity := by
    unfold Kind.arity
    split <;> simp_all [Kind.isRelational]
  places := by
    unfold Kind.operandPlaces
    split <;> simp_all [Kind.isRelational]

theorem exists_split_liftM {y : Except Error Meaning} (hkind : s.token.kind.isRelational = false)
    (hy : ∀ n, y = .ok n → n.relation? = none) (h : (liftM y : Visit Meaning).Yields m ws) :
    ∃ parts operands, s.Split m ws parts operands := by
  obtain ⟨hm, rfl⟩ := Visit.yields_liftM.1 h
  exact ⟨[], [], split_parts hkind (hy m hm) List.nil_prefix (by simp)⟩

theorem exists_split_lookup {literal : Option String} {cs : List Child}
    (h : (lookup d ⟨⟨.relation, literal⟩, cs⟩).Yields m ws) :
    ∃ parts operands, Split ⟨⟨.relation, literal⟩, cs⟩ m ws parts operands := by
  simp only [lookup, Visit.yields_liftM_bind, Visit.yields_log_bind, Visit.yields_pure] at h
  obtain ⟨_, _, r, _, rfl, rfl⟩ := h
  exact ⟨[], [], rfl, List.nil_prefix, rfl, by simp, by simp, rfl, rfl⟩

theorem exists_split_project {literal : Option String} {cs : List Child}
    (h : (project ⟨⟨.project, literal⟩, cs⟩).Yields m ws) :
    ∃ parts operands, Split ⟨⟨.project, literal⟩, cs⟩ m ws parts operands := by
  simp only [project, child, operand, bind_assoc, Visit.yields_liftM_bind, Visit.yields_log_bind,
    Visit.yields_ofChild_bind, Visit.yields_pure, get_eq_ok_iff, Meaning.asRelation_eq_ok_iff] at h
  obtain ⟨list, hlist, n, hn, _, ⟨_, hreferences, c, hc, _, hmeaning, _, hresult, rfl⟩, rfl⟩ := h
  obtain ⟨r, rfl, _, _, rfl, rfl⟩ := hresult
  refine ⟨[list], [c], rfl, pair_isPrefix hlist hc, rfl, ?_, ?_, rfl, rfl⟩
  · simpa using ⟨n, hn, Meaning.relation?_of_asReferences hreferences⟩
  · simpa using ⟨r, hmeaning⟩

theorem exists_split_select {literal : Option String} {cs : List Child}
    (h : (select ⟨⟨.select, literal⟩, cs⟩).Yields m ws) :
    ∃ parts operands, Split ⟨⟨.select, literal⟩, cs⟩ m ws parts operands := by
  simp only [select, child, operand, bind_assoc, Visit.yields_liftM_bind, Visit.yields_log_bind,
    Visit.yields_ofChild_bind, Visit.yields_pure, get_eq_ok_iff, Meaning.asRelation_eq_ok_iff] at h
  obtain ⟨p, hp, n, hn, _, ⟨_, hpredicate, c, hc, _, hmeaning, _, hresult, rfl⟩, rfl⟩ := h
  obtain ⟨r, rfl, _, _, _, _, rfl, rfl⟩ := hresult
  refine ⟨[p], [c], rfl, pair_isPrefix hp hc, rfl, ?_, ?_, rfl, rfl⟩
  · simpa using ⟨n, hn, Meaning.relation?_of_asPredicate hpredicate⟩
  · simpa using ⟨r, hmeaning⟩

theorem exists_split_combine {op : BinaryOperator} (hkind : s.token.kind.isRelational = true)
    (harity : s.token.kind.arity = 2)
    (hplaces : s.token.kind.operandPlaces s.children.length = [0, 1])
    (h : (s.combine op).Yields m ws) : ∃ parts operands, s.Split m ws parts operands := by
  simp only [combine, child, operand, bind_assoc, Visit.yields_liftM_bind, Visit.yields_log_bind,
    Visit.yields_ofChild_bind, Visit.yields_pure, get_eq_ok_iff, Meaning.asRelation_eq_ok_iff] at h
  obtain ⟨a, ha, _, hx, _, ⟨x, rfl, b, hb, _, hy, _, ⟨y, rfl, _, _, rfl, rfl⟩, rfl⟩, rfl⟩ := h
  refine ⟨[], [a, b], hkind.symm, pair_isPrefix ha hb, rfl, by simp, ?_, harity.symm, hplaces⟩
  simpa using ⟨⟨x, hx⟩, ⟨y, hy⟩⟩

/-- Between the target of a renaming and its operand stands a list of new names, or nothing. -/
theorem exists_of_yields_newNames {names : List Reference × Nat} (h : s.newNames.Yields names ws) :
    ∃ target parts operand, s.children = target :: parts ++ [operand] ∧
      ws = parts.map (·.visited.workings) ∧ names.2 = parts.length + 1 ∧
      ∀ c ∈ parts, ∃ n, c.visited.meaning = .ok n ∧ n.relation? = none := by
  obtain ⟨token, cs⟩ := s
  unfold newNames at h
  split at h
  · rename_i target list operand hcs
    cases hcs
    split at h
    · simp only [child, bind_assoc, Visit.yields_liftM_bind, Visit.yields_ofChild_bind,
        Visit.yields_pure, get_eq_ok_iff] at h
      obtain ⟨_, hlist, n, hn, _, ⟨_, hreferences, rfl, rfl⟩, rfl⟩ := h
      cases hlist
      refine ⟨target, [list], operand, rfl, rfl, rfl, ?_⟩
      simpa using ⟨n, hn, Meaning.relation?_of_asReferences hreferences⟩
    · exact absurd h Visit.not_yields_fail
  · rename_i target operand hcs
    cases hcs
    obtain ⟨rfl, rfl⟩ := Visit.yields_pure.1 h
    exact ⟨target, [], operand, rfl, rfl, rfl, by simp⟩
  · exact absurd h Visit.not_yields_fail

theorem exists_split_rename {literal : Option String} {cs : List Child}
    (h : (rename ⟨⟨.rename, literal⟩, cs⟩).Yields m ws) :
    ∃ parts operands, Split ⟨⟨.rename, literal⟩, cs⟩ m ws parts operands := by
  rw [rename, Visit.yields_liftM_bind] at h
  obtain ⟨_, _, h⟩ := h
  split at h
  · exact absurd h Visit.not_yields_fail
  simp only [child, bind_assoc, Visit.yields_liftM_bind, Visit.yields_ofChild_bind,
    get_eq_ok_iff] at h
  obtain ⟨_, htarget, n, hn, _, ⟨_, hname, h⟩, rfl⟩ := h
  rw [Visit.yields_bind] at h
  obtain ⟨⟨_, i⟩, _, hnames, _, hrest, rfl⟩ := h
  simp only [operand, child, bind_assoc, Visit.yields_liftM_bind, Visit.yields_log_bind,
    Visit.yields_ofChild_bind, Visit.yields_pure, get_eq_ok_iff,
    Meaning.asRelation_eq_ok_iff] at hrest
  obtain ⟨_, hoperand, _, hr, _, ⟨r, rfl, _, _, rfl, rfl⟩, rfl⟩ := hrest
  obtain ⟨target, parts, operand, hcs, rfl, hi, hparts⟩ := exists_of_yields_newNames hnames
  dsimp only at hcs hi htarget hoperand
  subst hcs hi
  rw [List.getElem?_append_right (by simp)] at hoperand
  obtain rfl := Option.some.inj htarget
  simp only [List.length_cons, Nat.sub_self, List.getElem?_cons_zero, Option.some.injEq] at hoperand
  subst hoperand
  refine ⟨target :: parts, [operand], rfl, List.prefix_rfl, by simp, ?_, ?_, rfl, ?_⟩
  · intro c hc
    rcases List.mem_cons.1 hc with rfl | hc
    · exact ⟨n, hn, Meaning.relation?_of_asName hname⟩
    · exact hparts c hc
  · simpa using ⟨r, hr⟩
  · simp [Kind.operandPlaces]

theorem workings_of_yields_referencesOf {cs : List Child} {rs : List Reference}
    (h : (referencesOf cs).Yields rs ws) : ws = cs.map (·.visited.workings) ∧
      ∀ c ∈ cs, ∃ n, c.visited.meaning = .ok n ∧ n.relation? = none := by
  induction cs generalizing rs ws with
  | nil => simpa using (Visit.yields_pure.1 h).2
  | cons c cs ih =>
    rw [referencesOf, Visit.yields_ofChild_bind] at h
    obtain ⟨n, hn, _, h, rfl⟩ := h
    rw [Visit.yields_liftM_bind] at h
    obtain ⟨_, hreference, h⟩ := h
    rw [Visit.yields_bind] at h
    obtain ⟨_, _, hrest, _, hpure, rfl⟩ := h
    obtain ⟨_, rfl⟩ := Visit.yields_pure.1 hpure
    obtain ⟨rfl, hcs⟩ := ih hrest
    refine ⟨by simp, List.forall_mem_cons.2 ⟨?_, hcs⟩⟩
    exact ⟨n, hn, Meaning.relation?_of_asReference hreference⟩

theorem exists_split_comparison (hkind : s.token.kind.isRelational = false)
    (h : s.comparison.Yields m ws) : ∃ parts operands, s.Split m ws parts operands := by
  simp only [comparison, namedChild, child, bind_assoc, pure_bind, Visit.yields_liftM_bind,
    Visit.yields_ofChild_bind, Visit.yields_pure, get_eq_ok_iff] at h
  obtain ⟨_, _, a, ha, n, hn, _, ⟨_, hlhs, b, hb, n', hn', _, ⟨_, hrhs, rfl, rfl⟩, rfl⟩, rfl⟩ := h
  refine ⟨[a, b], [], split_parts hkind rfl (pair_isPrefix ha hb) ?_⟩
  simpa using ⟨⟨n, hn, Meaning.relation?_of_asOperand hlhs⟩,
    ⟨n', hn', Meaning.relation?_of_asOperand hrhs⟩⟩

theorem exists_split_connective
    {join : Predicate Reference → Predicate Reference → Predicate Reference}
    (hkind : s.token.kind.isRelational = false) (h : (s.connective join).Yields m ws) :
    ∃ parts operands, s.Split m ws parts operands := by
  simp only [connective, child, bind_assoc, Visit.yields_liftM_bind, Visit.yields_ofChild_bind,
    Visit.yields_pure, get_eq_ok_iff] at h
  obtain ⟨a, ha, n, hn, _, ⟨_, hp, b, hb, n', hn', _, ⟨_, hq, rfl, rfl⟩, rfl⟩, rfl⟩ := h
  refine ⟨[a, b], [], split_parts hkind rfl (pair_isPrefix ha hb) ?_⟩
  simpa using ⟨⟨n, hn, Meaning.relation?_of_asPredicate hp⟩,
    ⟨n', hn', Meaning.relation?_of_asPredicate hq⟩⟩

/-- A node that has a meaning has visited children that mean no relations, then its operands. -/
theorem exists_split (h : (s.meaning d).Yields m ws) :
    ∃ parts operands, s.Split m ws parts operands := by
  obtain ⟨⟨kind, literal⟩, cs⟩ := s
  cases kind with
  | relation => exact exists_split_lookup h
  | number =>
    apply exists_split_liftM rfl ?_ h
    intro n hn
    obtain ⟨_, _, hn⟩ := exists_of_bind_eq_ok hn
    split at hn <;> cases hn
    rfl
  | string | word =>
    obtain ⟨_, _, h⟩ := Visit.yields_liftM_bind.1 h
    obtain ⟨rfl, rfl⟩ := Visit.yields_pure.1 h
    exact ⟨[], [], split_parts rfl rfl List.nil_prefix (by simp)⟩
  | minus =>
    simp only [meaning, child, bind_assoc, Visit.yields_liftM_bind, Visit.yields_ofChild_bind,
      Visit.yields_pure, get_eq_ok_iff] at h
    obtain ⟨a, ha, n, hn, _, ⟨_, hnumber, rfl, rfl⟩, rfl⟩ := h
    refine ⟨[a], [], split_parts rfl rfl (singleton_isPrefix ha) ?_⟩
    simpa using ⟨n, hn, Meaning.relation?_of_asNumber hnumber⟩
  | reference =>
    simp only [meaning, child, bind_assoc, Visit.yields_liftM_bind, Visit.yields_ofChild_bind,
      Visit.yields_pure, get_eq_ok_iff] at h
    obtain ⟨a, ha, n, hn, _, ⟨_, hname, b, hb, n', hn', _, ⟨_, hname', rfl, rfl⟩, rfl⟩, rfl⟩ := h
    refine ⟨[a, b], [], split_parts rfl rfl (pair_isPrefix ha hb) ?_⟩
    simpa using ⟨⟨n, hn, Meaning.relation?_of_asName hname⟩,
      ⟨n', hn', Meaning.relation?_of_asName hname'⟩⟩
  | list =>
    rw [meaning, Visit.yields_bind] at h
    obtain ⟨_, _, hreferences, _, h, rfl⟩ := h
    obtain ⟨rfl, rfl⟩ := Visit.yields_pure.1 h
    obtain ⟨rfl, hcs⟩ := workings_of_yields_referencesOf hreferences
    rw [List.append_nil]
    exact ⟨cs, [], split_parts rfl rfl List.prefix_rfl hcs⟩
  | greater | greaterEqual | equal | notEqual | less | lessEqual =>
    exact exists_split_comparison rfl h
  | and | or => exact exists_split_connective rfl h
  | not =>
    simp only [meaning, child, bind_assoc, Visit.yields_liftM_bind, Visit.yields_ofChild_bind,
      Visit.yields_pure, get_eq_ok_iff] at h
    obtain ⟨a, ha, n, hn, _, ⟨_, hp, rfl, rfl⟩, rfl⟩ := h
    refine ⟨[a], [], split_parts rfl rfl (singleton_isPrefix ha) ?_⟩
    simpa using ⟨n, hn, Meaning.relation?_of_asPredicate hp⟩
  | project => exact exists_split_project h
  | select => exact exists_split_select h
  | rename => exact exists_split_rename h
  | union | intersection | difference | product | join => exact exists_split_combine rfl rfl rfl h
  | eof | openParen | closeParen | openBracket | closeBracket | dot | comma =>
    exact absurd h Visit.not_yields_fail

end Site

namespace Expression
variable {d : DataSet} {e : Expression}

theorem evaluate_eq_ok_iff {r : Relation} :
    e.evaluate d = .ok r ↔ (e.visit d).meaning = .ok (.relation r) := by
  rw [evaluate]
  constructor
  · intro h
    obtain ⟨m, hm, hr⟩ := exists_of_bind_eq_ok h
    rw [hm, Meaning.asRelation_eq_ok_iff.1 hr]
  · intro h
    rw [h]
    rfl

/-- A tree means a relation, if anything, by the kind of its root. -/
theorem isSome_relation?_iff {m : Meaning} (h : (e.visit d).meaning = .ok m) :
    m.relation?.isSome ↔ e.IsRelational := by
  obtain ⟨token, cs⟩ := e
  cases token with
  | none => cases h
  | some t =>
    obtain ⟨_, _, hsplit⟩ := Site.exists_split (s := ⟨t, childrenOf d cs⟩) ⟨h, rfl⟩
    rw [isRelational_node, hsplit.isRelational]

end Expression

end RelationalAlgebra
