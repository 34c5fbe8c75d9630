import Mathlib.Data.List.Forall2
import RelationalAlgebra.Evaluation.Plan
import RelationalAlgebra.Proofs.Query.Parts
import RelationalAlgebra.Proofs.Semantics
import RelationalAlgebra.Proofs.Workings.Success

/-!
# Workings, plans and evaluations

Evaluating a tree records relations at its nodes, and the plan is read off the tree and these
records. Both choose the operands of a node by themselves. Still they mirror each other: wherever a
relation is recorded, the plan of the node there succeeds, holds that relation, and has the plans of
exactly those children as its operands at which a relation is recorded (`Expression.Mirrored`).
-/
namespace RelationalAlgebra

namespace Workings

theorem sizeAll_append (ws us : List Workings) : sizeAll (ws ++ us) = sizeAll ws + sizeAll us := by
  induction ws with
  | nil => simp [sizeAll]
  | cons w ws ih => simp [sizeAll, ih, Nat.add_assoc]

theorem sizeAll_eq_zero {ws : List Workings} (h : ∀ w ∈ ws, w.size = 0) : sizeAll ws = 0 := by
  induction ws with
  | nil => rfl
  | cons w ws ih =>
    obtain ⟨hw, hws⟩ := List.forall_mem_cons.1 h
    rw [sizeAll, hw, ih hws]

end Workings

namespace Expression

variable {d : DataSet} {e : Expression} {m : Meaning} {r : Relation}

/-! ### Trees that have a meaning -/

theorem relation?_workings (d : DataSet) (e : Expression) :
    (e.visit d).workings.relation? = (e.visit d).meaning.toOption.bind Meaning.relation? := by
  obtain ⟨_ | t, cs⟩ := e <;> rfl

/-- A tree that means `m` has visited `parts`, which mean no relations, and its operands behind. -/
structure Split (d : DataSet) (e : Expression) (m : Meaning) (parts operands : List Expression) :
    Prop where
  isPrefix : parts ++ operands <+: e.children
  workings : (e.visit d).workings =
    .node m.relation? ((parts ++ operands).map fun c => (c.visit d).workings)
  forall_parts : ∀ c ∈ parts, ∃ n, (c.visit d).meaning = .ok n ∧ n.relation? = none
  forall_operands : ∀ c ∈ operands, ∃ r, (c.visit d).meaning = .ok (.relation r)
  isRelational : e.kind?.map Kind.isRelational = some m.relation?.isSome
  arity : e.kind?.map Kind.arity = some operands.length
  places : e.operandPlaces = List.range' parts.length operands.length

theorem exists_split (h : (e.visit d).meaning = .ok m) :
    ∃ parts operands, e.Split d m parts operands := by
  obtain ⟨token, cs⟩ := e
  cases token with
  | none => cases h
  | some t =>
    obtain ⟨_, _, hsplit⟩ := Site.exists_split (s := ⟨t, childrenOf d cs⟩) ⟨h, rfl⟩
    have hplaces := hsplit.places
    obtain ⟨_, hchildren⟩ := hsplit.isPrefix
    rw [childrenOf_eq_map] at hchildren hplaces
    obtain ⟨_, rest, rfl, hfront, rfl⟩ := List.append_eq_map_iff.1 hchildren
    obtain ⟨parts, operands, rfl, rfl, rfl⟩ := List.map_eq_append_iff.1 hfront
    refine ⟨parts, operands, List.prefix_append _ _, ?_, ?_, ?_, ?_, ?_, ?_⟩
    · have hworkings := hsplit.workings
      rw [← List.map_append, List.map_map] at hworkings
      show Workings.node ((Site.meaning d _).result.toOption.bind _) _ = _
      rw [hworkings, show (Site.meaning d _).result = .ok m from h]
      rfl
    · simpa using hsplit.forall_parts
    · simpa using hsplit.forall_operands
    · simpa [kind?, token?] using hsplit.isRelational.symm
    · simpa [kind?, token?] using hsplit.arity.symm
    · simpa [operandPlaces, kind?, token?, children] using hplaces

/-! ### The plan of a node -/

theorem Split.operands_eq_nil {parts operands : List Expression} (h : e.Split d m parts operands)
    (hm : m.relation? = none) : operands = [] := by
  have hkind := h.isRelational
  have harity := h.arity
  rw [hm] at hkind
  obtain ⟨kind, hk, hkind⟩ := Option.map_eq_some_iff.1 hkind
  rw [hk] at harity
  have hzero : kind.arity = 0 := by
    cases kind <;> first | rfl | cases hkind
  exact List.eq_nil_of_length_eq_zero ((Option.some.inj harity).symm.trans hzero)

theorem size_workings_eq_zero (hm : (e.visit d).meaning = .ok m) (hnone : m.relation? = none) :
    (e.visit d).workings.size = 0 := by
  induction e using Expression.induction generalizing m with
  | node token cs ih =>
    obtain ⟨parts, _, hsplit⟩ := exists_split hm
    obtain rfl := hsplit.operands_eq_nil hnone
    have hsize : ∀ w ∈ parts.map fun c => (c.visit d).workings, w.size = 0 := by
      intro w hw
      obtain ⟨c, hc, rfl⟩ := List.mem_map.1 hw
      obtain ⟨n, hn, hnone⟩ := hsplit.forall_parts c hc
      exact ih c (hsplit.isPrefix.subset (List.mem_append_left _ hc)) hn hnone
    rw [hsplit.workings, hnone, List.append_nil, Workings.size, Workings.sizeAll_eq_zero hsize]
    rfl

end Expression

namespace Plan

theorem getElem?_ofWorkingsAll (cs : List Expression) (ws : List Workings) (i : Nat) :
    (ofWorkingsAll cs ws)[i]? = cs[i]?.map fun c => ofWorkings c (ws.getD i .empty) := by
  induction cs generalizing ws i with
  | nil => rfl
  | cons c cs ih =>
    cases ws <;> cases i <;> simp [ofWorkingsAll, ih]

theorem length_ofWorkingsAll (cs : List Expression) (ws : List Workings) :
    (ofWorkingsAll cs ws).length = cs.length := by
  induction cs generalizing ws with
  | nil => rfl
  | cons c cs ih => cases ws <;> simp [ofWorkingsAll, ih]

namespace Site

theorem sequence_map_ok (ps : List Plan) : sequence (ps.map .ok) = .ok ps := by
  induction ps with
  | nil => rfl
  | cons p ps ih =>
    show (sequence (ps.map .ok) >>= fun ps => Except.ok (p :: ps)) = _
    rw [ih]
    rfl

variable {s : Site} {r : Relation}

theorem assemble_eq_ok (hr : s.relation? = some r) (name : String) (ps : List Plan) :
    s.assemble name (ps.map .ok) = .ok (.node name r ps) := by
  rw [assemble, hr, sequence_map_ok]
  rfl

theorem binary_eq_ok {p q : Plan} (hr : s.relation? = some r) (op : BinaryOperator)
    (hp : s.children[0]? = some (.ok p)) (hq : s.children[1]? = some (.ok q)) :
    s.binary op = .ok (.node op.glyph r [p, q]) := by
  rw [binary, child, child, hp, hq]
  exact assemble_eq_ok hr op.glyph [p, q]

theorem rename_eq_ok {p : Plan} {literal : Option String} {a b : Except Error Plan}
    {cs : List (Except Error Plan)} (hp : (a :: b :: cs)[cs.length + 1]? = some (.ok p)) :
    plan ⟨⟨.rename, literal⟩, a :: b :: cs, some r⟩ = .ok (.node "ρ" r [p]) := by
  have hlast : (b :: cs).getLast (List.cons_ne_nil b cs) = .ok p := by
    rw [List.getLast_eq_getElem]
    exact (List.getElem?_eq_some_iff.1 hp).2
  simp only [plan, hlast]
  exact assemble_eq_ok rfl "ρ" [p]

/-- A node that has a relation has a plan if its operands have. -/
theorem exists_plan {ps : List Plan} (hr : s.relation? = some r)
    (hkind : s.token.kind.isRelational = true) (harity : s.token.kind.arity = ps.length)
    (hps : List.Forall₂ (fun i p => s.children[i]? = some (.ok p))
      (s.token.kind.operandPlaces s.children.length) ps) :
    ∃ name, s.plan = .ok (.node name r ps) := by
  have hassemble := assemble_eq_ok hr
  obtain ⟨⟨kind, literal⟩, cs, _⟩ := s
  obtain rfl := hr
  cases kind with
  | relation =>
    cases hps
    exact ⟨_, hassemble _ []⟩
  | project | select =>
    simp only [Kind.operandPlaces, List.forall₂_cons_left_iff, List.forall₂_nil_left_iff] at hps
    obtain ⟨p, _, hp, rfl, rfl⟩ := hps
    simp only [plan, child, hp]
    exact ⟨_, hassemble _ [p]⟩
  | rename =>
    rcases cs with _ | ⟨a, _ | ⟨b, cs⟩⟩
    · cases hps
      cases harity
    · cases hps
      cases harity
    · simp only [Kind.operandPlaces, List.length_cons, List.forall₂_cons_left_iff,
        List.forall₂_nil_left_iff] at hps
      obtain ⟨p, _, hp, rfl, rfl⟩ := hps
      exact ⟨_, rename_eq_ok hp⟩
  | union | intersection | difference | product | join =>
    simp only [Kind.operandPlaces, List.forall₂_cons_left_iff, List.forall₂_nil_left_iff] at hps
    obtain ⟨p, _, hp, ⟨q, _, hq, rfl, rfl⟩, rfl⟩ := hps
    exact ⟨_, binary_eq_ok rfl _ hp hq⟩
  | _ => cases hkind

end Site
end Plan

namespace Expression
variable {d : DataSet} {e : Expression} {m : Meaning} {r : Relation}

theorem forall₂_places {α : Type} {R : Nat → α → Prop} {S : Expression → α → Prop}
    {parts operands : List Expression} {ps : List α} (h : List.Forall₂ S operands ps)
    (hR : ∀ i c p, (parts ++ operands)[i]? = some c → S c p → R i p) :
    List.Forall₂ R (List.range' parts.length operands.length) ps := by
  induction h generalizing parts with
  | nil => exact .nil
  | @cons c p operands ps hc _ ih =>
    refine .cons (hR _ c p (by simp) hc) ?_
    have hrest : List.Forall₂ R (List.range' (parts ++ [c]).length operands.length) ps :=
      ih fun i c' p hi => hR i c' p (by simpa using hi)
    simpa using hrest

theorem exists_forall₂ {α β : Type} {S : α → β → Prop} {as : List α} (h : ∀ a ∈ as, ∃ b, S a b) :
    ∃ bs, List.Forall₂ S as bs := by
  induction as with
  | nil => exact ⟨[], .nil⟩
  | cons a as ih =>
    obtain ⟨⟨b, hb⟩, has⟩ := List.forall_mem_cons.1 h
    obtain ⟨bs, hbs⟩ := ih has
    exact ⟨b :: bs, .cons hb hbs⟩

theorem Split.child_workings {parts operands : List Expression} {c : Expression} {i : Nat}
    (h : e.Split d m parts operands) (hi : (parts ++ operands)[i]? = some c) :
    e.children[i]? = some c ∧ (e.visit d).workings.child i = (c.visit d).workings := by
  constructor
  · obtain ⟨rest, hrest⟩ := h.isPrefix
    rw [← hrest, List.getElem?_append_left (List.getElem?_eq_some_iff.1 hi).1, hi]
  · rw [h.workings, Workings.child, Workings.children, List.getD_eq_getElem?_getD,
      List.getElem?_map, hi]
    rfl

/-- Only operands hold relations, beside the root. -/
theorem Split.size_workings {parts operands : List Expression} {ps : List Plan}
    (h : e.Split d (.relation r) parts operands)
    (hps : List.Forall₂ (fun c q => (c.visit d).workings.size = q.size) operands ps) :
    (e.visit d).workings.size = 1 + Plan.sizeAll ps := by
  have hparts : ∀ w ∈ parts.map fun c => (c.visit d).workings, w.size = 0 := by
    intro w hw
    obtain ⟨c, hc, rfl⟩ := List.mem_map.1 hw
    obtain ⟨n, hn, hnone⟩ := h.forall_parts c hc
    exact size_workings_eq_zero hn hnone
  have hoperands : Workings.sizeAll (operands.map fun c => (c.visit d).workings) =
      Plan.sizeAll ps := by
    clear h
    induction hps with
    | nil => rfl
    | cons hc _ ih => rw [List.map_cons, Workings.sizeAll, hc, ih, Plan.sizeAll]
  rw [h.workings, List.map_append, Workings.size, Workings.sizeAll_append,
    Workings.sizeAll_eq_zero hparts, hoperands, Nat.zero_add]
  rfl

/-- The plan of a tree that stands for a relation: it has a node for each relation on the way, and
its operands are the plans of the operands. -/
theorem exists_plan (h : (e.visit d).meaning = .ok (.relation r)) :
    ∃ p, Plan.ofWorkings e (e.visit d).workings = .ok p ∧ p.relation = r ∧
      (e.visit d).workings.size = p.size ∧
      List.Forall₂ (fun i q => ∃ c, e.children[i]? = some c ∧
        Plan.ofWorkings c ((e.visit d).workings.child i) = .ok q) e.operandPlaces p.operands := by
  induction e using Expression.induction generalizing r with
  | node token cs ih =>
    cases token with
    | none => cases h
    | some t =>
      obtain ⟨parts, operands, hsplit⟩ := exists_split h
      have hoperands : ∀ c ∈ operands, ∃ q, Plan.ofWorkings c (c.visit d).workings = .ok q ∧
          (c.visit d).workings.size = q.size := by
        intro c hc
        obtain ⟨r', hr'⟩ := hsplit.forall_operands c hc
        obtain ⟨q, hq, _, hsize, _⟩ :=
          ih c (hsplit.isPrefix.subset (List.mem_append_right _ hc)) hr'
        exact ⟨q, hq, hsize⟩
      obtain ⟨ps, hps⟩ := exists_forall₂ hoperands
      have hplaces : List.Forall₂ (fun i q => ∃ c, cs[i]? = some c ∧
          Plan.ofWorkings c (((node (some t) cs).visit d).workings.child i) = .ok q)
          (node (some t) cs).operandPlaces ps := by
        rw [hsplit.places]
        refine forall₂_places hps fun i c q hi hq => ?_
        obtain ⟨hc, hworkings⟩ := hsplit.child_workings hi
        exact ⟨c, hc, hworkings ▸ hq.1⟩
      have hplan : ∃ name, Plan.ofWorkings (node (some t) cs)
          ((node (some t) cs).visit d).workings = .ok (.node name r ps) := by
        rw [Plan.ofWorkings]
        apply Plan.Site.exists_plan
        · rw [hsplit.workings]
          rfl
        · exact Option.some.inj hsplit.isRelational
        · rw [← hps.length_eq]
          exact Option.some.inj hsplit.arity
        · rw [Plan.length_ofWorkingsAll]
          refine hplaces.imp fun i q hq => ?_
          obtain ⟨c, hc, hq⟩ := hq
          rw [Plan.getElem?_ofWorkingsAll, hc]
          exact congrArg some hq
      obtain ⟨name, hplan⟩ := hplan
      exact ⟨_, hplan, rfl, hsplit.size_workings (hps.imp fun _ _ => And.right), hplaces⟩

/-- The operands are the children at which a relation is recorded. -/
theorem mem_operandPlaces_iff (h : (e.visit d).meaning = .ok (.relation r)) (i : Nat) :
    i ∈ e.operandPlaces ↔ ((e.visit d).workings.get? [i]).isSome := by
  obtain ⟨parts, operands, hsplit⟩ := exists_split h
  have hget : (e.visit d).workings.get? [i] = ((e.visit d).workings.child i).relation? := rfl
  rw [hsplit.places, List.mem_range'_1, hget]
  by_cases hi : i < (parts ++ operands).length
  · have hc := List.getElem?_eq_getElem hi
    rw [(hsplit.child_workings hc).2, relation?_workings]
    rw [List.length_append] at hi
    by_cases hparts : i < parts.length
    · rw [List.getElem_append_left hparts]
      obtain ⟨n, hn, hnone⟩ := hsplit.forall_parts _ (List.getElem_mem hparts)
      refine iff_of_false (by omega) ?_
      simp [hn, hnone, Except.toOption]
    · have hoperand : i - parts.length < operands.length := by omega
      rw [List.getElem_append_right (by omega)]
      obtain ⟨r', hr'⟩ := hsplit.forall_operands _ (List.getElem_mem hoperand)
      refine iff_of_true (by omega) ?_
      rw [hr']
      rfl
  · have hchild : (e.visit d).workings.child i = .empty := by
      rw [hsplit.workings, Workings.child, Workings.children, List.getD_eq_getElem?_getD,
        List.getElem?_map, List.getElem?_eq_none (Nat.le_of_not_lt hi)]
      rfl
    rw [List.length_append] at hi
    rw [hchild]
    exact iff_of_false (by omega) Bool.false_ne_true

/-! ### The mirror -/

theorem get?_nil_eq_some_iff :
    (e.visit d).workings.get? [] = some r ↔ e.evaluate d = .ok r := by
  rw [evaluate_eq_ok_iff]
  constructor
  · exact meaning_of_relation?
  · intro h
    rw [Workings.get?, relation?_workings, h]
    rfl

/-- In the tree of a query that evaluates, every node that stands for a relation is recorded. -/
theorem isSome_get?_of_query? {q : Query} (hq : e.query? = some q) (h : e.evaluate d = .ok r)
    {path : List Nat} {s : Expression} (hs : e.at? path = some s) (hrelational : s.IsRelational) :
    ((e.visit d).workings.get? path).isSome := by
  induction path generalizing e q r with
  | nil =>
    rw [get?_nil_eq_some_iff.2 h]
    rfl
  | cons i path ih =>
    obtain ⟨c, hc, hs⟩ := at?_cons.1 hs
    rcases operand_or_noOperators hq hc with ⟨hi, q', hq'⟩ | hnone
    · obtain ⟨r', hr'⟩ := Option.isSome_iff_exists.1
        ((mem_operandPlaces_iff (evaluate_eq_ok_iff.1 h) i).1 hi)
      obtain ⟨c', hc', hchild⟩ := exists_child_of_get? hr'
      obtain rfl := Option.some.inj (hc.symm.trans hc')
      have hevaluate : c.evaluate d = .ok r' := get?_nil_eq_some_iff.1 (hchild ▸ hr')
      rw [Workings.get?, hchild]
      exact ih hq' hevaluate hs
    · exact absurd hrelational (hnone path s hs)

/-- What the workings `w` of a tree tell about it where they record `r`: the tree evaluates to `r`,
and its plan holds `r` over the plans of the operands, the children with a relation of their own. -/
structure Mirrored (d : DataSet) (e : Expression) (w : Workings) (r : Relation) : Prop where
  evaluates : e.evaluate d = .ok r
  operands : ∀ i, i ∈ e.operandPlaces ↔ (w.get? [i]).isSome
  plan : ∃ p, Plan.ofWorkings e w = .ok p ∧ p.relation = r ∧
    List.Forall₂ (fun i q => ∃ c, e.children[i]? = some c ∧ Plan.ofWorkings c (w.child i) = .ok q)
      e.operandPlaces p.operands

theorem mirrored_of_evaluate (h : e.evaluate d = .ok r) :
    e.Mirrored d (e.visit d).workings r := by
  have hmeaning := evaluate_eq_ok_iff.1 h
  obtain ⟨p, hp, hr, _, hoperands⟩ := exists_plan hmeaning
  exact ⟨h, mem_operandPlaces_iff hmeaning, p, hp, hr, hoperands⟩

/-- Whether a tree evaluates or not, what is recorded on the way mirrors its nodes: the root is
recorded if and only if the tree evaluates, a recorded relation is what the node stands for by
itself, and the plan of the node succeeds, over the plans of its operands. A tree that evaluates has
as many relations recorded as its plan has nodes; if a text spells the tree, these are the relations
of all its operators and stored relations. -/
theorem workings_mirrored (d : DataSet) (e : Expression) :
    (∀ r, (e.visit d).workings.get? [] = some r ↔ e.evaluate d = .ok r) ∧
    (∀ path r, (e.visit d).workings.get? path = some r →
      ∃ s, e.at? path = some s ∧ s.Mirrored d ((e.visit d).workings.under path) r) ∧
    (∀ r, e.evaluate d = .ok r → ∃ p, Plan.ofWorkings e (e.visit d).workings = .ok p ∧
      (e.visit d).workings.size = p.size) ∧
    ∀ text r, parse text = .ok e → e.evaluate d = .ok r → ∀ path,
      ((e.visit d).workings.get? path).isSome ↔ ∃ s, e.at? path = some s ∧ s.IsRelational := by
  refine ⟨fun r => get?_nil_eq_some_iff, ?_, ?_, ?_⟩
  · intro path r h
    obtain ⟨s, hs, hunder⟩ := exists_under_of_get? h
    rw [Workings.get?_eq_relation?_under, hunder] at h
    exact ⟨s, hs, hunder ▸ mirrored_of_evaluate (get?_nil_eq_some_iff.1 h)⟩
  · intro r h
    obtain ⟨p, hp, _, hsize, _⟩ := exists_plan (evaluate_eq_ok_iff.1 h)
    exact ⟨p, hp, hsize⟩
  · intro text r hparse h path
    obtain ⟨q, hq, _⟩ := exists_query?_of_parse hparse
    constructor
    · intro hrecorded
      obtain ⟨r', hr'⟩ := Option.isSome_iff_exists.1 hrecorded
      obtain ⟨s, hs, hmeaning⟩ := exists_at?_of_get? hr'
      exact ⟨s, hs, (isSome_relation?_iff hmeaning).1 rfl⟩
    · intro hnode
      obtain ⟨s, hs, hrelational⟩ := hnode
      exact isSome_get?_of_query? hq h hs hrelational

/-- A projection with its operand, and the same projection to a column that the operand lacks: it
fails, but the operand is recorded. -/
theorem workings_mirrored_projection :
    let d := DataSet.numbered [[.number 1, .text "x"]]
    let r := Rowset.relation ⟨[⟨"r", "a", .number⟩, ⟨"r", "b", .string⟩], [[.number 1, .text "x"]]⟩
    let e := branch .project [branch .list [leaf .word "b"], leaf .relation "r"]
    let e' := branch .project [branch .list [leaf .word "c"], leaf .relation "r"]
    (∃ result, parse "π b (r)" = .ok e ∧ e.evaluate d = .ok result ∧
      (e.visit d).workings.get? [] = some result ∧
      (∃ p, Plan.ofWorkings e (e.visit d).workings = .ok p ∧
        (e.visit d).workings.size = p.size) ∧
      ∀ path, ((e.visit d).workings.get? path).isSome ↔
        ∃ s, e.at? path = some s ∧ s.IsRelational) ∧
    e'.evaluate d = .error (.attributeNotFound (.bare "c")) ∧
    (e'.visit d).workings.get? [1] = some r ∧
    ∃ s, e'.at? [1] = some s ∧ s.Mirrored d ((e'.visit d).workings.under [1]) r := by
  intro d r e e'
  have lexed : TokenStream.ofText "π b (r)" = ⟨[.bare .project, .lit .word "b", .bare .openParen,
    .lit .word "r", .bare .closeParen], none⟩ := by decide +kernel
  have parsed : parse "π b (r)" = .ok e := by
    rw [parse_eq, lexed]
    cbv
  have evaluates : e.evaluate d =
      .ok (Rowset.relation ⟨[⟨"r", "b", .string⟩], [[.text "x"]]⟩) := by decide +kernel
  have recorded : (e'.visit d).workings.get? [1] = some r := by decide +kernel
  obtain ⟨root, _, plan, nodes⟩ := workings_mirrored d e
  obtain ⟨_, mirrored, _⟩ := workings_mirrored d e'
  exact ⟨⟨_, parsed, evaluates, (root _).2 evaluates, plan _ evaluates,
    nodes _ _ parsed evaluates⟩, by decide +kernel, recorded, mirrored [1] r recorded⟩

end Expression

end RelationalAlgebra
