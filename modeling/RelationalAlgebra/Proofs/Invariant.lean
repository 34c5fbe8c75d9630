import RelationalAlgebra.Proofs.Semantics
import RelationalAlgebra.Proofs.Workings

/-!
# Every relation on the way is well-formed

No operator checks what it builds. Still, on sound data sets whatever a node with plain words means
is sound (`Expression.sound_of_meaning`): the names that it makes are free of dots, and the
relations that it makes would be accepted if they were checked. With the layout of the workings, all
relations that the answer to a text holds are well-formed.
-/
namespace RelationalAlgebra

namespace Visit
variable {α β : Type} {x : Visit α} {f : α → Visit β} {P : α → Prop} {Q : β → Prop}

/-- What a computation gives, if it succeeds, has a property. -/
def Ensures (x : Visit α) (P : α → Prop) : Prop := ∀ a, x.result = .ok a → P a

theorem Ensures.bind (hx : x.Ensures P) (hf : ∀ a, P a → (f a).Ensures Q) :
    (x >>= f).Ensures Q := by
  intro b hb
  rw [result_bind] at hb
  obtain ⟨a, ha, hb⟩ := exists_of_bind_eq_ok hb
  exact hf a (hx a ha) b hb

theorem ensures_result (x : Visit α) : x.Ensures fun a => x.result = .ok a := fun _ => id

theorem ensures_pure {a : α} (h : P a) : (pure a : Visit α).Ensures P := by
  intro b hb
  cases hb
  exact h

theorem ensures_liftM {y : Except Error α} (h : ∀ a, y = .ok a → P a) :
    (liftM y : Visit α).Ensures P := h

theorem ensures_log (e : Event) : (log e).Ensures fun _ => True := fun _ _ => trivial

theorem ensures_fail (e : Error) : (fail e : Visit α).Ensures P := by
  intro a ha
  cases ha

end Visit

/-- Sound relations, and names without a dot. -/
def Meaning.Sound : Meaning → Prop
  | relation r => r.Sound
  | name s => Plain s
  | reference r => r.Plain
  | references rs => ∀ r ∈ rs, r.Plain
  | value _ | predicate _ => True

namespace Meaning
variable {m : Meaning}

theorem Sound.inAttributePosition (h : m.Sound) : m.inAttributePosition.Sound := by
  cases m with
  | name s => exact fun _ hq => by cases hq
  | _ => exact h

theorem Sound.asRelation (h : m.Sound) : ∀ r, m.asRelation = .ok r → r.Sound := by
  cases m with
  | relation r => rintro _ ⟨⟩; exact h
  | _ => rintro _ ⟨⟩

theorem Sound.asName (h : m.Sound) : ∀ s, m.asName = .ok s → Plain s := by
  cases m with
  | name s => rintro _ ⟨⟩; exact h
  | _ => rintro _ ⟨⟩

theorem Sound.asReference (h : m.Sound) : ∀ r, m.asReference = .ok r → r.Plain := by
  cases m with
  | reference r => rintro _ ⟨⟩; exact h
  | _ => rintro _ ⟨⟩

theorem Sound.asReferences (h : m.Sound) : ∀ rs, m.asReferences = .ok rs → ∀ r ∈ rs, r.Plain := by
  cases m with
  | references rs => rintro _ ⟨⟩; exact h
  | _ => rintro _ ⟨⟩

end Meaning

/-! ### Operators -/

section Operators
variable {r r' s : Relation}

theorem SameOutcome.sound {a : Except Error Relation} {x : Except Error Rowset}
    (h : SameOutcome Relation.Represents a x) (ha : a = .ok r) : r.Sound := by
  subst ha
  cases x with
  | error e => cases h
  | ok x => exact h.2 ▸ Rowset.sound_relation h.1

theorem Relation.Sound.represents (hr : r.Sound) : r.Represents r.rowset :=
  ⟨hr.rowset, hr.relation_rowset.symm⟩

end Operators

/-! ### Nodes -/

/-- A node whose children mean something sound, and whose word, if it is one, holds no dot. -/
structure Site.Sound (s : Site) : Prop where
  children : ∀ c ∈ s.children, ∀ m, c.visited.meaning = .ok m → m.Sound
  word : s.token.kind = .word → ∀ name ∈ s.token.literal, Plain name

namespace Site
variable {s : Site} {d : DataSet}

theorem mem_of_get_eq_ok {i : Nat} {c : Child} (h : s.get i = .ok c) : c ∈ s.children := by
  unfold get at h
  split at h
  · rename_i hc
    cases h
    exact List.mem_of_getElem? hc
  · cases h

theorem Sound.child (hs : s.Sound) (i : Nat) : (s.child i).Ensures Meaning.Sound :=
  (Visit.ensures_liftM fun _ => mem_of_get_eq_ok).bind fun c hc => hs.children c hc

theorem Sound.operand (hs : s.Sound) (i : Nat) : (s.operand i).Ensures Relation.Sound :=
  (hs.child i).bind fun _ hm => Visit.ensures_liftM hm.asRelation

theorem ensures_referencesOf {cs : List Child}
    (h : ∀ c ∈ cs, ∀ m, c.visited.meaning = .ok m → m.Sound) :
    (referencesOf cs).Ensures fun rs => ∀ r ∈ rs, r.Plain := by
  induction cs with
  | nil => exact Visit.ensures_pure (by simp)
  | cons c cs ih =>
    obtain ⟨hc, hcs⟩ := List.forall_mem_cons.1 h
    have hchild : (Visit.ofChild c.visited).Ensures Meaning.Sound := hc
    refine hchild.bind fun _ hm => ?_
    refine (Visit.ensures_liftM hm.inAttributePosition.asReference).bind fun r hr => ?_
    refine (ih hcs).bind fun rs hrs => ?_
    exact Visit.ensures_pure (List.forall_mem_cons.2 ⟨hr, hrs⟩)

theorem ensures_number : (liftM s.number : Visit Meaning).Ensures Meaning.Sound := by
  refine Visit.ensures_liftM fun m hm => ?_
  obtain ⟨digits, _, hm⟩ := exists_of_bind_eq_ok hm
  split at hm
  · cases hm
    trivial
  · cases hm

theorem ensures_comparison : s.comparison.Ensures Meaning.Sound :=
  (Visit.ensures_result _).bind fun _ _ => (Visit.ensures_result _).bind fun _ _ =>
    (Visit.ensures_result _).bind fun _ _ => (Visit.ensures_result _).bind fun _ _ =>
      (Visit.ensures_result _).bind fun _ _ => Visit.ensures_pure trivial

theorem ensures_connective
    (join : Predicate Reference → Predicate Reference → Predicate Reference) :
    (s.connective join).Ensures Meaning.Sound :=
  (Visit.ensures_result _).bind fun _ _ => (Visit.ensures_result _).bind fun _ _ =>
    (Visit.ensures_result _).bind fun _ _ => (Visit.ensures_result _).bind fun _ _ =>
      Visit.ensures_pure trivial

/-- An operator ends by logging its result and giving it as the meaning of the node. -/
theorem ensures_recorded {y : Except Error Relation} (event : Relation → Event)
    (h : ∀ r, y = .ok r → r.Sound) :
    (do
      let result ← liftM y
      Visit.log (event result)
      pure (.relation result) : Visit Meaning).Ensures Meaning.Sound := by
  refine (Visit.ensures_liftM h).bind fun result hresult => ?_
  refine (Visit.ensures_log _).bind fun _ _ => ?_
  exact Visit.ensures_pure hresult

theorem ensures_lookup (hd : d.Sound) : (s.lookup d).Ensures Meaning.Sound := by
  refine (Visit.ensures_result _).bind fun name _ => ?_
  have hlookup := DataSet.lookup_represents hd name
  exact ensures_recorded _ fun _ => hlookup.sound

theorem Sound.project (hs : s.Sound) (hd : d.Sound) : s.project.Ensures Meaning.Sound := by
  refine (hs.child 0).bind fun _ hm => ?_
  refine (Visit.ensures_liftM hm.asReferences).bind fun references _ => ?_
  refine (hs.operand 1).bind fun r hr => ?_
  have hproject := (simulates_rowset hd).project references r _ hr.represents
  exact ensures_recorded _ fun _ => hproject.sound

theorem Sound.select (hs : s.Sound) (hd : d.Sound) : s.select.Ensures Meaning.Sound := by
  refine (hs.child 0).bind fun _ _ => ?_
  refine (Visit.ensures_result _).bind fun p _ => ?_
  refine (hs.operand 1).bind fun r hr => ?_
  refine (Visit.ensures_result _).bind fun q hq => ?_
  have hselect : ∀ r', r.selection q = .ok r' → r'.Sound := by
    intro r' hr'
    refine ((simulates_rowset hd).select p r _ hr.represents).sound ?_
    change p.resolve r.schema = .ok q at hq
    show (p.resolve r.schema >>= r.selection) = _
    rw [hq]
    exact hr'
  exact ensures_recorded _ hselect

theorem Sound.newNames (hs : s.Sound) :
    s.newNames.Ensures fun names => ∀ r ∈ names.1, r.Plain := by
  unfold Site.newNames
  split
  · split
    · exact (hs.child 1).bind fun _ hm => (Visit.ensures_liftM hm.asReferences).bind fun _ hrs =>
        Visit.ensures_pure hrs
    · exact Visit.ensures_fail _
  · exact Visit.ensures_pure (by simp)
  · exact Visit.ensures_fail _

theorem Sound.rename (hs : s.Sound) (hd : d.Sound) : s.rename.Ensures Meaning.Sound := by
  refine (Visit.ensures_result _).bind fun target _ => ?_
  split
  · exact Visit.ensures_fail _
  · refine (hs.child 0).bind fun _ hm => ?_
    refine (Visit.ensures_liftM hm.asName).bind fun name hname => ?_
    refine hs.newNames.bind fun names hnames => ?_
    refine (hs.operand names.2).bind fun r hr => ?_
    have hrename := (simulates_rowset hd).rename name names.1 r _ hname hnames hr.represents
    exact ensures_recorded _ fun _ => hrename.sound

theorem Sound.combine (hs : s.Sound) (hd : d.Sound) (op : BinaryOperator) :
    (s.combine op).Ensures Meaning.Sound := by
  refine (hs.operand 0).bind fun x hx => ?_
  refine (hs.operand 1).bind fun y hy => ?_
  have hcombine := (simulates_rowset hd).combine op x _ y _ hx.represents hy.represents
  exact ensures_recorded _ fun _ => hcombine.sound

theorem Sound.meaning (hs : s.Sound) (hd : d.Sound) : (s.meaning d).Ensures Meaning.Sound := by
  obtain ⟨⟨kind, literal⟩, cs⟩ := s
  cases kind with
  | relation => exact ensures_lookup hd
  | number => exact ensures_number
  | string => exact (Visit.ensures_result _).bind fun _ _ => Visit.ensures_pure trivial
  | word =>
    refine (Visit.ensures_result _).bind fun name hname => ?_
    have hplain : Plain name := hs.word rfl name (literal_eq_of_eq_ok hname)
    exact Visit.ensures_pure hplain
  | minus =>
    exact (hs.child 0).bind fun _ _ => (Visit.ensures_result _).bind fun _ _ =>
      Visit.ensures_pure trivial
  | reference =>
    refine (hs.child 0).bind fun _ hm => ?_
    refine (Visit.ensures_liftM hm.asName).bind fun qualifier hq => ?_
    refine (hs.child 1).bind fun _ _ => ?_
    refine (Visit.ensures_result _).bind fun name _ => ?_
    apply Visit.ensures_pure
    rintro _ ⟨⟩
    exact hq
  | list => exact (ensures_referencesOf hs.children).bind fun _ hrs => Visit.ensures_pure hrs
  | greater | greaterEqual | equal | notEqual | less | lessEqual => exact ensures_comparison
  | and | or => exact ensures_connective _
  | not =>
    exact (hs.child 0).bind fun _ _ => (Visit.ensures_result _).bind fun _ _ =>
      Visit.ensures_pure trivial
  | project => exact hs.project hd
  | select => exact hs.select hd
  | rename => exact hs.rename hd
  | union | intersection | difference | product | join => exact hs.combine hd _
  | eof | openParen | closeParen | openBracket | closeBracket | dot | comma =>
    exact Visit.ensures_fail _

end Site

/-! ### Expressions -/

theorem Expression.sound_of_meaning {d : DataSet} (hd : d.Sound) {e : Expression} (he : e.Plain)
    {m : Meaning} (hm : (e.visit d).meaning = .ok m) : m.Sound := by
  induction e using Expression.induction generalizing m with
  | node token cs ih =>
    obtain ⟨htoken, hcs⟩ := plain_node_iff.1 he
    cases token with
    | none => cases hm
    | some t =>
      have hsite : (⟨t, childrenOf d cs⟩ : Site).Sound := by
        refine ⟨fun c hc m hm => ?_, htoken t rfl⟩
        rw [childrenOf_eq_map] at hc
        obtain ⟨e, he, rfl⟩ := List.mem_map.1 hc
        exact ih e he (hcs e he) hm
      exact hsite.meaning hd m hm

theorem Expression.sound_of_evaluate {d : DataSet} (hd : d.Sound) {e : Expression} (he : e.Plain)
    {r : Relation} (h : e.evaluate d = .ok r) : r.Sound := by
  obtain ⟨m, hm, hr⟩ := exists_of_bind_eq_ok h
  exact (sound_of_meaning hd he hm).asRelation r hr

theorem Expression.sound_of_get? {d : DataSet} (hd : d.Sound) {e : Expression} (he : e.Plain)
    {path : List Nat} {r : Relation} (h : (e.visit d).workings.get? path = some r) : r.Sound := by
  obtain ⟨s, hs, hm⟩ := exists_at?_of_get? h
  exact sound_of_meaning hd (he.at? hs) hm

/-! ### Texts -/

/-- What `Relation.make` accepts, in full: distinct qualified names, and tuples that hold exactly
the names of the schema, with values of the declared types. -/
structure Relation.Invariant (r : Relation) : Prop where
  accepted : make r.schema r.tuples = .ok r
  distinct : r.schema.qualifiedNames.Nodup
  names : ∀ t ∈ r.tuples, ∀ name, name ∈ t.names ↔ name ∈ r.schema.qualifiedNames
  types : ∀ t ∈ r.tuples, ∀ a ∈ r.schema, Holds t a

theorem Relation.Sound.invariant {r : Relation} (h : r.Sound) : r.Invariant where
  accepted := h.make_eq_ok
  distinct := h.wellFormed.1
  names := fun t ht _ => (h.wellFormed.2 t ht).mem_names_iff h.wellFormed.1
  types := fun t ht => (h.wellFormed.2 t ht).2

theorem exists_answer_of_evaluate {d : DataSet} {text : String} {r : Relation}
    (h : evaluate d text = .ok r) :
    ∃ e, Expression.parse text = .ok e ∧ e.evaluate d = .ok r ∧
      (answer d text).1 = .ok ⟨e, r, (e.visit d).workings⟩ := by
  obtain ⟨e, hp, he⟩ := exists_of_bind_eq_ok h
  refine ⟨e, hp, he, ?_⟩
  rw [answer_eq, hp]
  show (e.evaluate d >>= fun r => _) = _
  rw [he]
  rfl

/-- A text that evaluates has an answer with the same relation, and the invariant holds of it and of
every relation recorded on the way. -/
theorem invariant_of_evaluate {d : DataSet} (hd : d.Sound) {text : String} {r : Relation}
    (h : evaluate d text = .ok r) :
    ∃ a, (answer d text).1 = .ok a ∧ a.relation = r ∧ r.Invariant ∧
      ∀ path s, a.workings.get? path = some s → s.Invariant := by
  obtain ⟨e, hp, he, hanswer⟩ := exists_answer_of_evaluate h
  obtain ⟨_, _, _, hplain⟩ := Expression.exists_query?_of_parse hp
  refine ⟨_, hanswer, rfl, (Expression.sound_of_evaluate hd hplain he).invariant, ?_⟩
  exact fun path s hs => (Expression.sound_of_get? hd hplain hs).invariant

/-- The product of a relation with its renaming has four columns and a row for each pair; what the
renaming gives is recorded at its node. -/
theorem invariant_of_evaluate_product :
    let d := DataSet.numbered [[.number 1, .text "x"], [.number 2, .text "y"]]
    let renamed := Rowset.relation ⟨[⟨"s", "a", .number⟩, ⟨"s", "b", .string⟩],
      [[.number 1, .text "x"], [.number 2, .text "y"]]⟩
    d.Sound ∧ ∃ r a, evaluate d "r × ρ s (r)" = .ok r ∧ (answer d "r × ρ s (r)").1 = .ok a ∧
      a.relation = r ∧ r.schema.length = 4 ∧ r.size = 4 ∧ r.Invariant ∧
      a.workings.get? [1] = some renamed ∧ renamed.Invariant ∧
      ∀ path s, a.workings.get? path = some s → s.Invariant := by
  intro d renamed
  have sound : d.Sound := by decide
  have lexed : TokenStream.ofText "r × ρ s (r)" = ⟨[.lit .word "r", .bare .product, .bare .rename,
    .lit .word "s", .bare .openParen, .lit .word "r", .bare .closeParen], none⟩ := by
    decide +kernel
  have parsed : Expression.parse "r × ρ s (r)" = .ok (.branch .product
      [.leaf .relation "r", .branch .rename [.leaf .word "s", .leaf .relation "r"]]) := by
    rw [Expression.parse_eq, lexed]
    cbv
  have evaluates : evaluate d "r × ρ s (r)" = .ok (Rowset.relation ⟨[⟨"r", "a", .number⟩,
      ⟨"r", "b", .string⟩, ⟨"s", "a", .number⟩, ⟨"s", "b", .string⟩],
      [[.number 1, .text "x", .number 1, .text "x"], [.number 1, .text "x", .number 2, .text "y"],
        [.number 2, .text "y", .number 1, .text "x"],
        [.number 2, .text "y", .number 2, .text "y"]]⟩) := by
    rw [evaluate, parsed]
    decide +kernel
  obtain ⟨a, answers, same, result, invariant⟩ := invariant_of_evaluate sound evaluates
  have workings : (answer d "r × ρ s (r)").1.map (·.workings.get? [1]) = .ok (some renamed) := by
    rw [answer_eq, parsed]
    decide +kernel
  rw [answers] at workings
  have recorded : a.workings.get? [1] = some renamed := Except.ok.inj workings
  exact ⟨sound, _, a, evaluates, answers, same, rfl, rfl, result, recorded,
    invariant [1] renamed recorded, invariant⟩

end RelationalAlgebra
