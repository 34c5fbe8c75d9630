import RelationalAlgebra.Proofs.Semantics
import RelationalAlgebra.Proofs.Workings

/-!
# What evaluation reads

An expression reads the stored relations that its nodes name, and no others: qualifiers of
attributes, targets of renamings and other words are never looked up. Data sets that agree on the
footprint of an expression cannot be told apart by visiting it (`Expression.visit_congr`), whatever
the shape of the tree and wherever the visit ends.
-/
namespace RelationalAlgebra

/-- The stored relation that a token names. -/
def Token.stored? (t : Token) : Option String := if t.kind = .relation then t.literal else none

theorem Token.stored?_eq_some_iff {t : Token} {name : String} :
    t.stored? = some name ↔ t = .lit .relation name := by
  obtain ⟨kind, literal⟩ := t
  simp [stored?, lit]

namespace Expression

mutual

/-- The names of the stored relations at all nodes, also at those that no visit reaches. -/
def footprint : Expression → List String
  | node token cs => (token.bind Token.stored?).toList ++ footprintAll cs

def footprintAll : List Expression → List String
  | [] => []
  | c :: cs => c.footprint ++ footprintAll cs

end

variable {e : Expression} {name : String} {d d' : DataSet}

theorem footprintAll_eq_flatMap (cs : List Expression) :
    footprintAll cs = cs.flatMap footprint := by
  induction cs with
  | nil => rfl
  | cons c cs ih => rw [footprintAll, List.flatMap_cons, ih]

theorem mem_footprint_node {token : Option Token} {cs : List Expression} :
    name ∈ (node token cs).footprint ↔
      token = some (.lit .relation name) ∨ ∃ c ∈ cs, name ∈ c.footprint := by
  rw [footprint, footprintAll_eq_flatMap, List.mem_append, List.mem_flatMap, Option.mem_toList,
    Option.bind_eq_some_iff]
  simp only [Token.stored?_eq_some_iff, exists_eq_right]

/-- The footprint holds the literals of the nodes that name stored relations. -/
theorem mem_footprint_iff :
    name ∈ e.footprint ↔ ∃ path s, e.at? path = some s ∧ s.token? = some (.lit .relation name) := by
  induction e using Expression.induction with
  | node token cs ih =>
    rw [mem_footprint_node]
    constructor
    · rintro (htoken | ⟨c, hc, hname⟩)
      · exact ⟨[], _, rfl, htoken⟩
      · obtain ⟨path, s, hs, htoken⟩ := (ih c hc).1 hname
        obtain ⟨i, hi, rfl⟩ := List.mem_iff_getElem.1 hc
        exact ⟨i :: path, s, at?_cons.2 ⟨_, List.getElem?_eq_getElem hi, hs⟩, htoken⟩
    · rintro ⟨path, s, hs, htoken⟩
      cases path with
      | nil =>
        cases hs
        exact .inl htoken
      | cons i path =>
        obtain ⟨c, hc, hs⟩ := at?_cons.1 hs
        have hmem : c ∈ cs := List.mem_of_getElem? hc
        exact .inr ⟨c, hmem, (ih c hmem).2 ⟨path, s, hs, htoken⟩⟩

end Expression

/-! ### Visits on two data sets -/

/-- A node that names a stored relation asks for that relation; no other node asks for any. -/
theorem Site.meaning_congr {d d' : DataSet} {s : Site}
    (h : ∀ name, s.token = .lit .relation name → d.lookup name = d'.lookup name) :
    s.meaning d = s.meaning d' := by
  obtain ⟨⟨kind, literal⟩, cs⟩ := s
  cases kind with
  | relation =>
    cases literal with
    | none => rfl
    | some name =>
      show (liftM (d.lookup name) >>= fun r => _ : Visit Meaning) =
        liftM (d'.lookup name) >>= fun r => _
      rw [h name rfl]
  | _ => rfl

namespace Expression
variable {e : Expression} {d d' : DataSet}

/-- A visit leaves the same meaning, log and workings on data sets that agree on the footprint. -/
theorem visit_congr (h : ∀ name ∈ e.footprint, d.get? name = d'.get? name) :
    e.visit d = e.visit d' := by
  induction e using Expression.induction with
  | node token cs ih =>
    cases token with
    | none => rfl
    | some token =>
      have hchildren : childrenOf d cs = childrenOf d' cs := by
        rw [childrenOf_eq_map, childrenOf_eq_map]
        apply List.map_congr_left
        intro c hc
        rw [ih c hc fun name hname => h name (mem_footprint_node.2 (.inr ⟨c, hc, hname⟩))]
      have hmeaning : ∀ s : Site, s.token = token → s.meaning d = s.meaning d' := by
        rintro s rfl
        apply Site.meaning_congr
        intro name htoken
        rw [DataSet.lookup, DataSet.lookup, h name (mem_footprint_node.2 (.inl (by rw [htoken])))]
      rw [visit, visit, hchildren, hmeaning _ rfl]

/-- Evaluating a tree gives the same relation or the same error on data sets that agree on the
relations that the tree names, and the same relations are recorded on the way. -/
theorem evaluate_congr_of_footprint (h : ∀ name ∈ e.footprint, d.get? name = d'.get? name) :
    e.evaluate d = e.evaluate d' ∧
      ∀ path, (e.visit d).workings.get? path = (e.visit d').workings.get? path := by
  rw [evaluate, evaluate, visit_congr h]
  exact ⟨rfl, fun _ => rfl⟩

/-- The qualifier `s` is not looked up, although one data set stores a relation `s`. The relations
found before the failure are the same. -/
theorem evaluate_congr_of_footprint_qualifier :
    let d := DataSet.numbered [[.number 1, .text "x"]]
    let r := Rowset.relation ⟨[⟨"r", "a", .number⟩, ⟨"r", "b", .string⟩], [[.number 1, .text "x"]]⟩
    let d' := d.insert "s" r
    let e := branch .union [leaf .relation "r", branch .project
      [branch .list [branch .reference [leaf .word "s", leaf .word "a"]], leaf .relation "r"]]
    (∀ name ∈ e.footprint, d.get? name = d'.get? name) ∧
    e.evaluate d = e.evaluate d' ∧
    (∀ path, (e.visit d).workings.get? path = (e.visit d').workings.get? path) ∧
    e.evaluate d' = .error (.attributeNotFound (.qualified "s" "a")) ∧
    (e.visit d').workings.get? [1, 1] = some r := by
  intro d r d' e
  have agree : ∀ name ∈ e.footprint, d.get? name = d'.get? name := by decide
  obtain ⟨same, recorded⟩ := evaluate_congr_of_footprint agree
  exact ⟨agree, same, recorded, by decide +kernel, by decide +kernel⟩

end Expression

end RelationalAlgebra
