import RelationalAlgebra.Proofs.Parsing.Soundness

/-!
# The parser reads every phrase

In front of a phrase a production gives the tree of the phrase and stops behind it, provided that
the token behind it could not go on with the phrase. For a level this holds in a form that leaves
the last operator open: reading the level is as good as going on with its loop behind the phrase
(`goesOn_of_derives`). That form is what the induction needs, because a derivation
adds operands at the right end while the loop takes them from the left.
-/
namespace RelationalAlgebra

open Expression (branch leaf node)

variable {α β : Type}

namespace Parsed
variable {p q : Parser} {takes : Bool} {a : α} {b : β} {f : Option LexError}
variable {t : Token} {us vs : List Token}

/-- A production succeeds and leaves the tokens `us` to come. -/
def Stops (x : Parsed p takes α) (a : α) (f : Option LexError) (us : List Token) : Prop :=
  ∃ q : Parser, x.outcome = (.ok a, q) ∧ q.Faces f us

theorem Stops.relax {x : Parsed p true α} (h : x.Stops a f us) : x.relax.Stops a f us := by
  obtain ⟨q, hx, hq⟩ := h
  exact ⟨q, by rw [outcome_relax, hx], hq⟩

theorem Stops.map {x : Parsed p takes α} (h : x.Stops a f us) (g : α → β) :
    (x.map g).Stops (g a) f us := by
  obtain ⟨q, hx, hq⟩ := h
  exact ⟨q, by rw [outcome_map, hx]; rfl, hq⟩

theorem Stops.andThen {x : Parsed p true α}
    {next : α → (q : Parser) → q.remaining < p.remaining → Parsed q takes β} (h : x.Stops a f us)
    (hn : ∀ q lt, q.Faces f us → (next a q lt).Stops b f vs) : (x.andThen next).Stops b f vs := by
  obtain ⟨q, hx, hq⟩ := h
  obtain ⟨lt, ho⟩ := outcome_andThen_of_ok hx next
  obtain ⟨r, hr, hf⟩ := hn q lt hq
  exact ⟨r, ho.trans hr, hf⟩

theorem stops_pure (hp : p.Faces f us) : (Parsed.pure a : Parsed p false α).Stops a f us :=
  ⟨p, rfl, hp⟩

theorem stops_take (hp : p.Faces f (t :: us)) (hf : us = [] → f = none) (h : p.kind ≠ .eof) :
    (take p h).Stops t f us := by
  obtain ⟨hne, rfl⟩ := hp
  refine ⟨⟨us.headD .eof, ⟨us.tail, f⟩⟩, ?_⟩
  rw [outcome_take]
  cases us with
  | nil =>
    cases hf rfl
    exact ⟨rfl, rfl, rfl⟩
  | cons u us => exact ⟨rfl, fun v hv => hne v (List.mem_cons_of_mem _ hv), rfl⟩

theorem stops_token {k : Kind} (hp : p.Faces f (t :: us)) (hf : us = [] → f = none)
    (hk : t.kind = k) (h : k ≠ .eof) : (token p k h).Stops t f us := by
  have hpk : p.kind = k := hp.kind_eq.trans hk
  simpa only [token, dif_pos hpk] using stops_take hp hf (hpk ▸ h)

end Parsed

/-- The kinds of tokens that would go on with the last operand of a level. -/
def Level.continuations : Level → List Kind
  | relation | product => []
  | join => [.product]
  | difference => [.product, .join]
  | union => [.product, .join, .difference]
  | operand | conjunction => [.dot]
  | disjunction => [.dot, .and]

namespace Grammar

theorem Chain.operators_eq {l m : Level} {ops : List Kind} (h : Chain l ops m) :
    l.operators = ops := by
  cases h <;> rfl

theorem Chain.inner_eq {l m : Level} {ops : List Kind} (h : Chain l ops m) : l.inner = m := by
  cases h <;> rfl

/-- What does not go on with the last operand of a level is no operator inside that operand. -/
theorem Chain.not_mem_inner {l m : Level} {ops : List Kind} (h : Chain l ops m) {k : Kind}
    (hk : k ∉ l.continuations) : k ∉ m.continuations ∧ k ∉ m.operators := by
  cases h <;> simp_all [Level.continuations, Level.operators]

/-- An operator of a level does not go on with the operand before it. -/
theorem Chain.operator_not_mem {l m : Level} {ops : List Kind} (h : Chain l ops m) {k : Kind}
    (hk : k ∈ ops) : k ∉ l.continuations := by
  cases h <;> revert hk <;> cases k <;> decide

theorem Chain.ne_eof {l m : Level} {ops : List Kind} (h : Chain l ops m) {k : Kind}
    (hk : k ∈ ops) : k ≠ .eof := by
  rintro rfl
  cases h <;> simp at hk

theorem Enclosed.firstKind_append {v w : List Token} (h : Enclosed v w) (us : List Token) :
    Token.firstKind (w ++ us) = .openParen := by
  cases h with
  | intro ho hc => exact ho

theorem Attribute.firstKind_append {w : List Token} {e : Expression} (h : Attribute w e)
    (us : List Token) : Token.firstKind (w ++ us) = .word := by
  cases h with
  | bare h => exact h
  | qualified hq _ _ => exact hq

theorem Comparable.firstKind_append {w : List Token} {e : Expression} (h : Comparable w e)
    (us : List Token) : Token.firstKind (w ++ us) ∈ [Kind.word, .number, .minus, .string] := by
  cases h with
  | named h => rw [h.firstKind_append]; decide
  | number h =>
    cases h with
    | plain h => simp [Token.firstKind, h]
    | negative hs _ => simp [Token.firstKind, hs]
  | string h => simp [Token.firstKind, h]

theorem Comparison.firstKind_append {w : List Token} {e : Expression} (h : Comparison w e)
    (us : List Token) : Token.firstKind (w ++ us) ∈ [Kind.word, .number, .minus, .string] := by
  cases h with
  | compare left _ _ => rw [List.append_assoc]; exact left.firstKind_append _

end Grammar

namespace Parser
open Parsed
variable {p : Parser} {f : Option LexError} {w us : List Token} {e : Expression}

/-! ### Attributes and comparisons -/

theorem stops_number (h : Grammar.Number w e) (hp : p.Faces f (w ++ us))
    (hf : us = [] → f = none) : (number p).Stops e f us := by
  have hkind := hp.kind_eq
  unfold number
  cases h with
  | plain hd =>
    have hminus : p.kind ≠ .minus := by
      rw [hkind]
      simp [Token.firstKind, hd]
    rw [if_neg hminus]
    exact (stops_token hp hf hd _).map _
  | negative hs hd =>
    have hminus : p.kind = .minus := hkind.trans hs
    rw [if_pos hminus]
    exact (stops_token hp (by simp) hs _).andThen fun q _ hq => (stops_token hq hf hd _).map _

theorem stops_reference (h : Grammar.Attribute w e) (hp : p.Faces f (w ++ us))
    (hf : us = [] → f = none) (hk : Token.firstKind us ≠ .dot) : (reference p).Stops e f us := by
  unfold reference
  cases h with
  | bare hn =>
    apply (stops_token hp hf hn _).andThen
    intro q _ hq
    have hdot : q.kind ≠ .dot := by
      rw [hq.kind_eq]
      exact hk
    rw [if_neg hdot]
    exact stops_pure hq
  | qualified hq hd hn =>
    apply (stops_token hp (by simp) hq _).andThen
    intro q _ hq
    have hdot : q.kind = .dot := hq.kind_eq.trans hd
    rw [if_pos hdot]
    exact ((stops_token hq (by simp) hd _).andThen fun r _ hr =>
      (stops_token hr hf hn _).map _).relax

/-- Reading a list of attributes is going on behind any of its beginnings. -/
theorem exists_moreReferences_of_attributes {es : List Expression} (h : Grammar.Attributes w es)
    (hp : p.Faces f (w ++ us)) (hf : us = [] → f = none) (hk : Token.firstKind us ≠ .dot) :
    ∃ q, q.Faces f us ∧ (references p).outcome = (moreReferences es q).outcome := by
  induction h generalizing us with
  | one h =>
    obtain ⟨q, ho, hq⟩ := stops_reference h hp hf hk
    obtain ⟨_, hn⟩ := outcome_andThen_of_ok ho fun first q _ => moreReferences [first] q
    exact ⟨q, hq, hn⟩
  | @more v es w e comma first hc next ih =>
    rw [List.append_assoc] at hp
    have hcomma : Token.firstKind (comma :: w ++ us) = .comma := hc
    have hdot : Token.firstKind (comma :: w ++ us) ≠ .dot := by
      rw [hcomma]
      decide
    obtain ⟨q, hq, ho⟩ := ih hp (by simp) hdot
    obtain ⟨r, hr, hrf⟩ := stops_token hq (by simpa using fun _ => hf) hc (by decide)
    obtain ⟨s, hs, hsf⟩ := stops_reference next hrf hf hk
    refine ⟨s, hsf, ?_⟩
    rw [ho, moreReferences, if_pos (hq.kind_eq.trans hc), outcome_relax]
    obtain ⟨_, h₁⟩ := outcome_andThen_of_ok hr fun _ p _ =>
      (reference p).andThen fun next p _ => moreReferences (es ++ [next]) p
    obtain ⟨_, h₂⟩ := outcome_andThen_of_ok hs fun next p _ => moreReferences (es ++ [next]) p
    exact h₁.trans h₂

theorem stops_references {es : List Expression} (h : Grammar.Attributes w es)
    (hp : p.Faces f (w ++ us)) (hf : us = [] → f = none)
    (hk : Token.firstKind us ∉ [Kind.dot, .comma]) :
    (references p).Stops (branch .list es) f us := by
  simp only [List.mem_cons, List.not_mem_nil, or_false, not_or] at hk
  obtain ⟨q, hq, ho⟩ := exists_moreReferences_of_attributes h hp hf hk.1
  have hcomma : q.kind ≠ .comma := by
    rw [hq.kind_eq]
    exact hk.2
  rw [moreReferences, if_neg hcomma] at ho
  exact ⟨q, ho, hq⟩

theorem stops_comparable (h : Grammar.Comparable w e) (hp : p.Faces f (w ++ us))
    (hf : us = [] → f = none) (hk : Token.firstKind us ≠ .dot) : (comparable p).Stops e f us := by
  have hkind := hp.kind_eq
  unfold comparable
  cases h with
  | named h =>
    rw [h.firstKind_append] at hkind
    rw [hkind]
    exact stops_reference h hp hf hk
  | number h =>
    have hnumber := stops_number h hp hf
    cases h with
    | plain hd => rw [hkind]; simpa only [Token.firstKind, List.cons_append, hd] using hnumber
    | negative hs hd => rw [hkind]; simpa only [Token.firstKind, List.cons_append, hs] using hnumber
  | string h =>
    rw [hkind]
    simp only [Token.firstKind, List.cons_append, h]
    exact (stops_token hp hf h _).map _

theorem stops_comparison (h : Grammar.Comparison w e) (hp : p.Faces f (w ++ us))
    (hf : us = [] → f = none) (hk : Token.firstKind us ≠ .dot) : (comparison p).Stops e f us := by
  unfold comparison
  cases h with
  | @compare v lhs w rhs op left ho right =>
    rw [List.append_assoc] at hp
    have hop : op.kind ≠ .dot := by
      intro hd
      rw [hd] at ho
      exact absurd ho (by decide)
    apply (stops_comparable left hp (by simp) hop).andThen
    intro q _ hq
    have hoperator : (comparisonOperator q).Stops (node (some op) []) f (w ++ us) := by
      have hqk : q.kind.isComparison = true := by
        rw [hq.kind_eq]
        exact (mem_comparisonOperators_iff _).1 ho
      unfold comparisonOperator
      rw [dif_pos hqk]
      exact (stops_take hq (by simpa using fun _ => hf) _).map _
    exact hoperator.andThen fun r _ hr => (stops_comparable right hr hf hk).map _

/-! ### Levels -/

/-- Reading a level is going on with its operators behind the phrase `w`. -/
def GoesOn (l : Level) (w : List Token) (e : Expression) : Prop :=
  ∀ {p : Parser} {f : Option LexError} {us : List Token}, p.Faces f (w ++ us) →
    (us = [] → f = none) → Token.firstKind us ∉ l.continuations →
      ∃ q, q.Faces f us ∧ (level l p).outcome = (moreOperands l e q).outcome

theorem moreOperands_of_not_mem {l : Level} (e : Expression) (hk : p.kind ∉ l.operators) :
    (moreOperands l e p).outcome = (.ok e, p) := by
  rw [moreOperands, dif_neg hk]
  rfl

/-- Without an operator behind the phrase the level ends there. -/
theorem GoesOn.stops {l : Level} (h : GoesOn l w e) (hp : p.Faces f (w ++ us))
    (hf : us = [] → f = none) (hc : Token.firstKind us ∉ l.continuations)
    (ho : Token.firstKind us ∉ l.operators) : (level l p).Stops e f us := by
  obtain ⟨q, hq, hlevel⟩ := h hp hf hc
  have hop : q.kind ∉ l.operators := by rwa [hq.kind_eq]
  rw [moreOperands_of_not_mem e hop] at hlevel
  exact ⟨q, hlevel, hq⟩

theorem level_eq_of_chain {l m : Level} {ops : List Kind} (h : Grammar.Chain l ops m)
    (p : Parser) :
    level l p = (level m p).andThen fun first q _ => moreOperands l first q := by
  cases h <;> (conv => lhs; rw [level])

theorem goesOn_first {l m : Level} {ops : List Kind} (hl : Grammar.Chain l ops m)
    (h : GoesOn m w e) : GoesOn l w e := by
  intro p f us hp hf hk
  obtain ⟨hc, ho⟩ := hl.not_mem_inner hk
  obtain ⟨q, hlevel, hq⟩ := h.stops hp hf hc ho
  obtain ⟨_, hn⟩ := outcome_andThen_of_ok hlevel fun first q _ => moreOperands l first q
  exact ⟨q, hq, by rw [level_eq_of_chain hl, hn]⟩

theorem goesOn_more {l m : Level} {ops : List Kind} {v : List Token} {lhs rhs : Expression}
    {op : Token} (hl : Grammar.Chain l ops m) (hleft : GoesOn l v lhs) (hop : op.kind ∈ ops)
    (hright : GoesOn m w rhs) : GoesOn l (v ++ op :: w) (node (some op) [lhs, rhs]) := by
  intro p f us hp hf hk
  rw [List.append_assoc] at hp
  obtain ⟨q, hq, hlevel⟩ := hleft hp (by simp) (hl.operator_not_mem hop)
  obtain ⟨hc, ho⟩ := hl.not_mem_inner hk
  have hmem : q.kind ∈ l.operators := by
    rw [hl.operators_eq, hq.kind_eq]
    exact hop
  have hne : q.kind ≠ .eof := Level.ne_eof_of_mem_operators hmem
  obtain ⟨r, hr, hrf⟩ := stops_take hq (by simpa using fun _ => hf) hne
  obtain ⟨s, hs, hsf⟩ := hright.stops hrf hf hc ho
  rw [← hl.inner_eq] at hs
  refine ⟨s, hsf, ?_⟩
  rw [hlevel, moreOperands, dif_pos hmem, outcome_relax]
  obtain ⟨_, h₁⟩ := outcome_andThen_of_ok hr fun op p _ =>
    (level l.inner p).andThen fun rhs p _ => moreOperands l (node (some op) [lhs, rhs]) p
  obtain ⟨_, h₂⟩ := outcome_andThen_of_ok hs fun rhs p _ =>
    moreOperands l (node (some op) [lhs, rhs]) p
  exact h₁.trans h₂

/-- A level without operators goes on by stopping. -/
theorem goesOn_of_stops {l : Level} (hl : l.operators = [])
    (h : ∀ {p : Parser} {f : Option LexError} {us : List Token}, p.Faces f (w ++ us) →
      (us = [] → f = none) → Token.firstKind us ∉ l.continuations → (level l p).Stops e f us) :
    GoesOn l w e := by
  intro p f us hp hf hk
  obtain ⟨q, hlevel, hq⟩ := h hp hf hk
  have hop : q.kind ∉ l.operators := by simp [hl]
  exact ⟨q, hq, by rw [hlevel, moreOperands_of_not_mem e hop]⟩

theorem stops_enclosed {l : Level} {v : List Token} (g : Expression → Expression)
    (hw : Grammar.Enclosed v w) (h : GoesOn l v e) (hc : Kind.closeParen ∉ l.continuations)
    (ho : Kind.closeParen ∉ l.operators) (hp : p.Faces f (w ++ us)) (hf : us = [] → f = none) :
    ((Parsed.token p .openParen).andThen fun _ p _ =>
      (level l p).andThen fun body p _ =>
        (Parsed.token p .closeParen).map fun _ => g body).Stops (g e) f us := by
  cases hw with
  | @intro opening closing hopen hclose =>
    rw [List.cons_append, List.append_assoc] at hp
    apply (stops_token hp (by simp) hopen _).andThen
    intro q _ hq
    have hkind : Token.firstKind ([closing] ++ us) = .closeParen := hclose
    apply (h.stops hq (by simp) (by rwa [hkind]) (by rwa [hkind])).andThen
    intro r _ hr
    exact (stops_token hr hf hclose _).map _

theorem stops_parenthesized {v : List Token} (hw : Grammar.Enclosed v w) (h : GoesOn .union v e)
    (hp : p.Faces f (w ++ us)) (hf : us = [] → f = none) : (parenthesized p).Stops e f us := by
  rw [parenthesized]
  exact stops_enclosed id hw h (by decide) (by decide) hp hf

theorem goesOn_of_derives {l : Level} (h : Grammar.Derives l w e) : GoesOn l w e := by
  induction h with
  | first hl _ ih => exact goesOn_first hl ih
  | more hl _ ho _ left right => exact goesOn_more hl left ho right
  | @comparison w e h =>
    apply goesOn_of_stops rfl
    intro p f us hp hf hk
    have hkind := h.firstKind_append us
    have hdot : Token.firstKind us ≠ .dot := by simpa [Level.continuations] using hk
    have hstops := stops_comparison h hp hf hdot
    simp only [← hp.kind_eq, List.mem_cons, List.not_mem_nil, or_false] at hkind
    rcases hkind with hkind | hkind | hkind | hkind
    all_goals
      rw [level, operand, hkind]
      exact hstops
  | group _ hw ih =>
    apply goesOn_of_stops rfl
    intro p f us hp hf _
    rw [level, operand, hp.kind_eq, hw.firstKind_append]
    exact stops_enclosed id hw ih (by decide) (by decide) hp hf
  | not ho _ hw ih =>
    apply goesOn_of_stops rfl
    intro p f us hp hf _
    rw [level, operand, hp.kind_eq]
    simp only [Token.firstKind, List.cons_append, ho]
    exact (stops_token hp (by cases hw; simp) ho _).andThen fun q _ hq =>
      stops_enclosed _ hw ih (by decide) (by decide) hq hf
  | stored hn =>
    apply goesOn_of_stops rfl
    intro p f us hp hf _
    rw [level, relation, hp.kind_eq]
    simp only [Token.firstKind, List.cons_append, hn]
    exact (stops_token hp hf hn _).map _
  | parenthesized _ hw ih =>
    apply goesOn_of_stops rfl
    intro p f us hp hf _
    rw [level, relation, hp.kind_eq, hw.firstKind_append]
    exact stops_parenthesized hw ih hp hf
  | project ho attributes _ hw ih =>
    apply goesOn_of_stops rfl
    intro p f us hp hf _
    rw [List.cons_append, List.append_assoc] at hp
    rw [level, relation, hp.kind_eq]
    simp only [Token.firstKind, ho]
    apply (stops_token hp (by cases hw; simp) ho _).andThen
    intro q _ hq
    apply (stops_references attributes hq (by cases hw; simp)
      (by rw [hw.firstKind_append]; decide)).andThen
    intro r _ hr
    exact (stops_parenthesized hw ih hr hf).map _
  | select ho _ _ hw predicate ih =>
    apply goesOn_of_stops rfl
    intro p f us hp hf _
    rw [List.cons_append, List.append_assoc] at hp
    rw [level, relation, hp.kind_eq]
    simp only [Token.firstKind, ho]
    apply (stops_token hp (by cases hw; simp) ho _).andThen
    intro q _ hq
    apply (predicate.stops hq (by cases hw; simp) (by rw [hw.firstKind_append]; decide)
      (by rw [hw.firstKind_append]; decide)).andThen
    intro r _ hr
    exact (stops_parenthesized hw ih hr hf).map _
  | rename ho name _ hw ih =>
    apply goesOn_of_stops rfl
    intro p f us hp hf _
    rw [List.cons_append, List.append_assoc] at hp
    rw [level, relation, hp.kind_eq]
    simp only [Token.firstKind, ho]
    apply (stops_token hp (by cases hw; simp) ho _).andThen
    intro q _ hq
    apply (stops_reference name hq (by cases hw; simp)
      (by rw [hw.firstKind_append]; decide)).andThen
    intro r _ hr
    have hbracket : r.kind ≠ .openBracket := by
      rw [hr.kind_eq, hw.firstKind_append]
      decide
    rw [if_neg hbracket]
    exact (stops_parenthesized hw ih hr hf).map _
  | renameAll ho name hl attributes hr _ hw ih =>
    apply goesOn_of_stops rfl
    intro p f us hp hf _
    simp only [List.cons_append, List.append_assoc] at hp
    rw [level, relation, hp.kind_eq]
    simp only [Token.firstKind, ho]
    apply (stops_token hp (by simp) ho _).andThen
    intro q _ hq
    apply (stops_reference name hq (by simp)
      (by simp [Token.firstKind, hl])).andThen
    intro r _ hrf
    have hbracket : r.kind = .openBracket := hrf.kind_eq.trans hl
    rw [if_pos hbracket]
    apply (stops_token hrf (by simp) hl _).andThen
    intro s _ hs
    apply (stops_references attributes hs (by simp)
      (by simp [Token.firstKind, hr])).andThen
    intro t _ ht
    apply (stops_token ht (by cases hw; simp) hr _).andThen
    intro u _ hu
    exact (stops_parenthesized hw ih hu hf).map _

end Parser
end RelationalAlgebra
