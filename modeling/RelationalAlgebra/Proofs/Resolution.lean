import RelationalAlgebra.Proofs.Rowset.Predicates

/-!
# What references name

In a schema whose attributes differ in qualifier or name, a reference resolves to an attribute
exactly when this is the only one that goes by it (`Reference.resolve_eq_ok_iff`). So a reference
that resolves in two schemas, one of which is part of the other, names the same attribute in both,
and a predicate becomes the same predicate (`Predicate.resolve_eq_of_subset`).
-/
namespace RelationalAlgebra

theorem filter_eq_singleton_iff {α : Type} {p : α → Bool} {l : List α} (hl : l.Nodup) {a : α} :
    l.filter p = [a] ↔ a ∈ l ∧ p a ∧ ∀ b ∈ l, p b → b = a := by
  constructor
  · intro h
    have hmem : ∀ b, b ∈ l ∧ p b ↔ b = a := by
      intro b
      rw [← List.mem_filter, h, List.mem_singleton]
    obtain ⟨ha, hpa⟩ := (hmem a).2 rfl
    exact ⟨ha, hpa, fun b hb hpb => (hmem b).1 ⟨hb, hpb⟩⟩
  · rintro ⟨ha, hpa, hunique⟩
    have hall : ∀ b ∈ l.filter p, b = a := fun b hb =>
      hunique b (List.mem_filter.1 hb).1 (List.mem_filter.1 hb).2
    have hmem : a ∈ l.filter p := List.mem_filter.2 ⟨ha, hpa⟩
    have hreplicate := List.eq_replicate_of_mem hall
    have hcount : (l.filter p).length ≤ 1 := by
      have hnodup := hl.filter p
      rwa [hreplicate, List.nodup_replicate] at hnodup
    have hpos := List.length_pos_of_mem hmem
    have hone : (l.filter p).length = 1 := by omega
    rw [hreplicate, hone, List.replicate_one]

namespace Reference
variable {r : Reference} {s t : Schema} {a b : Attribute} {q name : String}

/-- An attribute has the name in a reference, and its qualifier if it has one. -/
def Names (r : Reference) (a : Attribute) : Prop :=
  a.name = r.name ∧ ∀ q ∈ r.qualifier, a.qualifier = q

theorem names_qualified : Names ⟨some q, name⟩ a ↔ a.name = name ∧ a.qualifier = q := by
  simp [Names]

theorem names_bare : Names ⟨none, name⟩ a ↔ a.name = name := by
  simp [Names]

theorem resolve_qualified_eq_ok_iff : resolve ⟨some q, name⟩ s = .ok a ↔
    s.find? (fun b => b.qualifier = q && b.name = name) = some a := by
  simp only [resolve]
  cases s.find? fun b => b.qualifier = q && b.name = name <;> simp

theorem resolve_bare_eq_ok_iff : resolve ⟨none, name⟩ s = .ok a ↔
    s.filter (fun b => b.name = name) = [a] := by
  simp only [resolve]
  generalize s.filter (fun b => b.name = name) = named
  rcases named with _ | ⟨b, _ | ⟨c, rest⟩⟩ <;> simp

theorem names_of_resolve_eq_ok (h : r.resolve s = .ok a) : r.Names a := by
  obtain ⟨qualifier, name⟩ := r
  cases qualifier with
  | some q =>
    have ha := List.find?_some (resolve_qualified_eq_ok_iff.1 h)
    simp only [Bool.and_eq_true, decide_eq_true_eq] at ha
    exact names_qualified.2 ha.symm
  | none =>
    have ha : a ∈ s.filter fun b => b.name = name := by
      rw [resolve_bare_eq_ok_iff.1 h]
      exact List.mem_singleton_self a
    exact names_bare.2 (of_decide_eq_true (List.mem_filter.1 ha).2)

/-- In a schema whose attributes differ in qualifier or name, a reference resolves to the only
attribute that it names. -/
theorem resolve_eq_ok_iff (hs : (s.map Attribute.path).Nodup) :
    r.resolve s = .ok a ↔ a ∈ s ∧ r.Names a ∧ ∀ b ∈ s, r.Names b → b = a := by
  obtain ⟨qualifier, name⟩ := r
  cases qualifier with
  | some q =>
    have hunique : ∀ b ∈ s, ∀ c ∈ s, Names ⟨some q, name⟩ b → Names ⟨some q, name⟩ c →
        b = c := by
      intro b hb c hc hnames hnames'
      obtain ⟨hname, hqualifier⟩ := names_qualified.1 hnames
      obtain ⟨hname', hqualifier'⟩ := names_qualified.1 hnames'
      have hpath : b.path = c.path := congrArg₂ QualifiedName.mk
        (hqualifier.trans hqualifier'.symm) (hname.trans hname'.symm)
      exact List.inj_on_of_nodup_map hs hb hc hpath
    constructor
    · intro h
      have ha := mem_of_resolve_eq_ok h
      have hnames := names_of_resolve_eq_ok h
      exact ⟨ha, hnames, fun b hb hb' => hunique b hb a ha hb' hnames⟩
    · rintro ⟨ha, hnames, _⟩
      rw [resolve_qualified_eq_ok_iff]
      cases hfind : s.find? fun b => b.qualifier = q && b.name = name with
      | some b =>
        have hb := mem_of_resolve_eq_ok (resolve_qualified_eq_ok_iff.2 hfind)
        have hb' := names_of_resolve_eq_ok (resolve_qualified_eq_ok_iff.2 hfind)
        rw [hunique b hb a ha hb' hnames]
      | none =>
        have hnone := List.find?_eq_none.1 hfind a ha
        simp [names_qualified.1 hnames] at hnone
  | none =>
    simp only [resolve_bare_eq_ok_iff, filter_eq_singleton_iff hs.of_map, names_bare,
      decide_eq_true_eq]

theorem resolve_reference (hs : (s.map Attribute.path).Nodup) (ha : a ∈ s) :
    a.reference.resolve s = .ok a := by
  refine (resolve_eq_ok_iff hs).2 ⟨ha, names_qualified.2 ⟨rfl, rfl⟩, ?_⟩
  intro b hb hnames
  obtain ⟨hname, hqualifier⟩ := names_qualified.1 hnames
  exact List.inj_on_of_nodup_map hs hb ha (congrArg₂ QualifiedName.mk hqualifier hname)

theorem resolveAll_reference (hs : (s.map Attribute.path).Nodup) (ht : t ⊆ s) :
    resolveAll s (t.map Attribute.reference) = .ok t := by
  induction t with
  | nil => rfl
  | cons a t ih =>
    obtain ⟨ha, ht⟩ := List.cons_subset.1 ht
    rw [List.map_cons, resolveAll, resolve_reference hs ha, ih ht]
    rfl

/-- A reference names in a schema what it names in a part of it. -/
theorem resolve_eq_of_subset (hs : (s.map Attribute.path).Nodup) (ht : t ⊆ s)
    (h : r.resolve t = .ok a) (h' : r.resolve s = .ok b) : a = b :=
  ((resolve_eq_ok_iff hs).1 h').2.2 a (ht (mem_of_resolve_eq_ok h)) (names_of_resolve_eq_ok h)

/-- What a reference names stays its only attribute when others are taken away. -/
theorem resolve_of_subset (hs : (s.map Attribute.path).Nodup) (ht : t ⊆ s)
    (hpaths : (t.map Attribute.path).Nodup) (h : r.resolve s = .ok a) (ha : a ∈ t) :
    r.resolve t = .ok a := by
  obtain ⟨_, hnames, hunique⟩ := (resolve_eq_ok_iff hs).1 h
  exact (resolve_eq_ok_iff hpaths).2 ⟨ha, hnames, fun b hb => hunique b (ht hb)⟩

theorem resolveAll_of_subset {rs : List Reference} {chosen : Schema}
    (hs : (s.map Attribute.path).Nodup) (ht : t ⊆ s) (hpaths : (t.map Attribute.path).Nodup)
    (h : resolveAll s rs = .ok chosen) (hc : chosen ⊆ t) : resolveAll t rs = .ok chosen := by
  induction rs generalizing chosen with
  | nil => exact h
  | cons r rs ih =>
    obtain ⟨a, ha, h⟩ := exists_of_bind_eq_ok h
    obtain ⟨rest, hrest, h⟩ := exists_of_bind_eq_ok h
    cases h
    obtain ⟨hat, hrestt⟩ := List.cons_subset.1 hc
    rw [resolveAll, resolve_of_subset hs ht hpaths ha hat, ih hrest hrestt]
    rfl

end Reference

theorem Operand.resolve_eq_of_subset {o : Operand Reference} {o' o'' : Operand Attribute}
    {s t : Schema} (hs : (s.map Attribute.path).Nodup) (ht : t ⊆ s) (h : o.resolve t = .ok o')
    (h' : o.resolve s = .ok o'') : o' = o'' := by
  cases o with
  | named r =>
    obtain ⟨a, ha, h⟩ := exists_of_bind_eq_ok h
    obtain ⟨b, hb, h'⟩ := exists_of_bind_eq_ok h'
    cases h
    cases h'
    rw [Reference.resolve_eq_of_subset hs ht ha hb]
  | literal v =>
    cases h
    cases h'
    rfl

namespace Predicate

/-- Replacements that agree on every operand where neither fails agree on predicates. -/
theorem mapOperands_unique {α β : Type} {f g : Operand α → Except Error (Operand β)}
    (hfg : ∀ o o' o'', f o = .ok o' → g o = .ok o'' → o' = o'') {p : Predicate α}
    {q q' : Predicate β} (h : p.mapOperands f = .ok q) (h' : p.mapOperands g = .ok q') :
    q = q' := by
  induction p generalizing q q' with
  | compare op lhs rhs =>
    obtain ⟨l, hl, h⟩ := exists_of_bind_eq_ok h
    obtain ⟨r, hr, h⟩ := exists_of_bind_eq_ok h
    obtain ⟨l', hl', h'⟩ := exists_of_bind_eq_ok h'
    obtain ⟨r', hr', h'⟩ := exists_of_bind_eq_ok h'
    cases h
    cases h'
    rw [hfg _ _ _ hl hl', hfg _ _ _ hr hr']
  | and p₁ p₂ ih₁ ih₂ =>
    obtain ⟨q₁, h₁, h⟩ := exists_of_bind_eq_ok h
    obtain ⟨q₂, h₂, h⟩ := exists_of_bind_eq_ok h
    obtain ⟨q₁', h₁', h'⟩ := exists_of_bind_eq_ok h'
    obtain ⟨q₂', h₂', h'⟩ := exists_of_bind_eq_ok h'
    cases h
    cases h'
    rw [ih₁ h₁ h₁', ih₂ h₂ h₂']
  | or p₁ p₂ ih₁ ih₂ =>
    obtain ⟨q₁, h₁, h⟩ := exists_of_bind_eq_ok h
    obtain ⟨q₂, h₂, h⟩ := exists_of_bind_eq_ok h
    obtain ⟨q₁', h₁', h'⟩ := exists_of_bind_eq_ok h'
    obtain ⟨q₂', h₂', h'⟩ := exists_of_bind_eq_ok h'
    cases h
    cases h'
    rw [ih₁ h₁ h₁', ih₂ h₂ h₂']
  | not p ih =>
    obtain ⟨r, hr, h⟩ := exists_of_bind_eq_ok h
    obtain ⟨r', hr', h'⟩ := exists_of_bind_eq_ok h'
    cases h
    cases h'
    rw [ih hr hr']

theorem mapOperands_of_resolve_eq_ok {s : Schema} {p : Predicate Reference}
    {q : Predicate Attribute} (h : p.resolve s = .ok q) :
    p.mapOperands (Operand.resolve s) = .ok q := by
  obtain ⟨q', hq, h⟩ := exists_of_bind_eq_ok h
  obtain ⟨_, _, h⟩ := exists_of_bind_eq_ok h
  cases h
  exact hq

/-- A predicate that resolves in a schema and in a part of it becomes the same predicate. -/
theorem resolve_eq_of_subset {s t : Schema} (hs : (s.map Attribute.path).Nodup) (ht : t ⊆ s)
    {p : Predicate Reference} {q q' : Predicate Attribute} (h : p.resolve t = .ok q)
    (h' : p.resolve s = .ok q') : q = q' :=
  mapOperands_unique (fun _ _ _ => Operand.resolve_eq_of_subset hs ht)
    (mapOperands_of_resolve_eq_ok h) (mapOperands_of_resolve_eq_ok h')

end Predicate

end RelationalAlgebra
