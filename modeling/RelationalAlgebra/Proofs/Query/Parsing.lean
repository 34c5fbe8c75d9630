import RelationalAlgebra.Proofs.Parsing
import RelationalAlgebra.Proofs.Query

/-!
# Parsed trees lay out queries

The tree of every phrase has the layout of what the phrase is to stand for: attributes of a
reference, operands of a value or reference, the levels of predicates of a predicate, and the levels
of relations of a query (`Derives.reads`). All words in it are plain.
-/
namespace RelationalAlgebra

open Expression (branch leaf node)

namespace Token
variable {t : Token}

theorem Lexed.word (h : t.Lexed) (hk : t.kind = .word) :
    ∃ name, t = .lit .word name ∧ Plain name := by
  obtain ⟨kind, literal⟩ := t
  cases hk
  obtain ⟨name, hname, hplain⟩ := h
  cases hname
  exact ⟨name, rfl, hplain⟩

theorem Lexed.number (h : t.Lexed) (hk : t.kind = .number) :
    ∃ digits n, t = .lit .number digits ∧ Numeral.integer? digits.toList = some n := by
  obtain ⟨kind, literal⟩ := t
  cases hk
  obtain ⟨digits, n, hdigits, hn⟩ := h
  cases hdigits
  exact ⟨digits, n, rfl, hn⟩

theorem Lexed.string (h : t.Lexed) (hk : t.kind = .string) : ∃ text, t = .lit .string text := by
  obtain ⟨kind, literal⟩ := t
  cases hk
  obtain ⟨text, htext⟩ := h
  cases htext
  exact ⟨text, rfl⟩

end Token

namespace Expression

theorem plain_word {name : String} (h : RelationalAlgebra.Plain name) :
    (node (some (.lit .word name)) []).Plain := by
  apply plain_node_iff.2
  constructor
  · rintro t ⟨⟩ _ s ⟨⟩
    exact h
  · intro _ hc
    cases hc

theorem plain_leaf {k : Kind} (h : k ≠ .word) (literal : String) : (leaf k literal).Plain := by
  apply plain_node h
  intro _ hc
  cases hc

theorem plain_pair {t : Token} (h : t.kind ≠ .word) {x y : Expression} (hx : x.Plain)
    (hy : y.Plain) : (node (some t) [x, y]).Plain := by
  apply plain_node h
  intro c hc
  simp only [List.mem_cons, List.not_mem_nil, or_false] at hc
  rcases hc with rfl | rfl
  · exact hx
  · exact hy

end Expression

namespace Grammar
variable {w : List Token} {e : Expression} {es : List Expression}

theorem Number.reads (h : Number w e) (hw : ∀ t ∈ w, t.Lexed) :
    (∃ v, e.value? = some v) ∧ e.Plain := by
  cases h with
  | plain hd =>
    obtain ⟨digits, n, rfl, hn⟩ := (hw _ (.head _)).number hd
    refine ⟨⟨.number n, ?_⟩, Expression.plain_leaf (by decide) digits⟩
    simp [Expression.value?, Token.lit, Expression.integer?, hn]
  | negative hs hd =>
    rename_i sign _
    obtain ⟨digits, n, rfl, hn⟩ := (hw _ (.tail _ (.head _))).number hd
    obtain ⟨kind, literal⟩ := sign
    cases hs
    have hdigits := Expression.plain_leaf (by decide : Kind.number ≠ .word) digits
    refine ⟨⟨.number (-n), ?_⟩, Expression.plain_node (by simp) ?_⟩
    · simp [Expression.value?, Token.lit, Expression.integer?, hn]
    · intro c hc
      rwa [List.mem_singleton.1 hc]

theorem Attribute.reads (h : Attribute w e) (hw : ∀ t ∈ w, t.Lexed) :
    (∃ r, e.reference? = some r) ∧ e.Plain := by
  cases h with
  | bare hn =>
    obtain ⟨name, rfl, hplain⟩ := (hw _ (.head _)).word hn
    exact ⟨⟨.bare name, rfl⟩, Expression.plain_word hplain⟩
  | qualified hq hd hn =>
    obtain ⟨qualifier, rfl, hqualifier⟩ := (hw _ (.head _)).word hq
    obtain ⟨name, rfl, hname⟩ := (hw _ (.tail _ (.tail _ (.head _)))).word hn
    have hplain := Expression.plain_pair (t := .bare .reference) (by decide)
      (Expression.plain_word hqualifier) (Expression.plain_word hname)
    exact ⟨⟨.qualified qualifier name, rfl⟩, hplain⟩

theorem Attributes.reads (h : Attributes w es) (hw : ∀ t ∈ w, t.Lexed) :
    (∃ rs, es.mapM Expression.reference? = some rs) ∧ ∀ e ∈ es, e.Plain := by
  induction h with
  | one h =>
    obtain ⟨⟨r, hr⟩, hplain⟩ := h.reads hw
    exact ⟨⟨[r], by simp [hr]⟩, by simpa using hplain⟩
  | more _ _ next ih =>
    rw [List.forall_mem_append, List.forall_mem_cons] at hw
    obtain ⟨⟨rs, hrs⟩, hes⟩ := ih hw.1
    obtain ⟨⟨r, hr⟩, hplain⟩ := next.reads hw.2.2
    refine ⟨⟨rs ++ [r], by simp [List.mapM_append, hrs, hr]⟩, ?_⟩
    rw [List.forall_mem_append]
    exact ⟨hes, by simpa using hplain⟩

theorem Attributes.reads_list (h : Attributes w es) (hw : ∀ t ∈ w, t.Lexed) :
    (∃ rs, (branch .list es).references? = some rs) ∧ (branch .list es).Plain :=
  ⟨(h.reads hw).1, Expression.plain_node (by decide) (h.reads hw).2⟩

theorem Comparable.reads (h : Comparable w e) (hw : ∀ t ∈ w, t.Lexed) :
    (∃ o, e.operand? = some o) ∧ e.Plain := by
  cases h with
  | named h =>
    obtain ⟨⟨r, hr⟩, hplain⟩ := h.reads hw
    exact ⟨⟨.named r, by simp [Expression.operand?, hr]⟩, hplain⟩
  | number h =>
    obtain ⟨⟨v, hv⟩, hplain⟩ := h.reads hw
    refine ⟨?_, hplain⟩
    cases hr : e.reference? with
    | none => exact ⟨.literal v, by simp [Expression.operand?, hr, hv]⟩
    | some r => exact ⟨.named r, by simp [Expression.operand?, hr]⟩
  | string h =>
    obtain ⟨text, rfl⟩ := (hw _ (.head _)).string h
    exact ⟨⟨.literal (.text text), rfl⟩, Expression.plain_leaf (by decide) text⟩

theorem Comparison.reads (h : Comparison w e) (hw : ∀ t ∈ w, t.Lexed) :
    (∃ p, e.predicate? = some p) ∧ e.Plain := by
  cases h with
  | compare left ho right =>
    rename_i op
    rw [List.forall_mem_append, List.forall_mem_cons] at hw
    obtain ⟨⟨l, hl⟩, hleft⟩ := left.reads hw.1
    obtain ⟨⟨r, hr⟩, hright⟩ := right.reads hw.2.2
    obtain ⟨kind, literal⟩ := op
    simp only [comparisonOperators, List.mem_cons, List.not_mem_nil, or_false] at ho
    rcases ho with rfl | rfl | rfl | rfl | rfl | rfl <;>
      exact ⟨by simp [Expression.predicate?, Comparison.ofKind?, hl, hr],
        Expression.plain_pair (by simp) hleft hright⟩

end Grammar

/-! ### Levels -/

/-- What the trees of a level lay out: a predicate or a query. -/
def Level.Reads : Level → Expression → Prop
  | .operand, e | .conjunction, e | .disjunction, e => ∃ p, e.predicate? = some p
  | .relation, e | .product, e | .join, e | .difference, e | .union, e => ∃ q, e.query? = some q

theorem Expression.exists_query?_binary {t : Token} {op : BinaryOperator}
    (h : BinaryOperator.ofKind? t.kind = some op) {x y : Expression}
    (hx : ∃ q, x.query? = some q) (hy : ∃ q, y.query? = some q) :
    ∃ q, (node (some t) [x, y]).query? = some q := by
  obtain ⟨qx, hx⟩ := hx
  obtain ⟨qy, hy⟩ := hy
  obtain ⟨kind, literal⟩ := t
  refine ⟨.combine op qx qy, ?_⟩
  cases kind <;> cases h <;> simp [query?, BinaryOperator.ofKind?, hx, hy]

namespace Expression
variable {target condition list e : Expression} {r : Reference} {rs : List Reference}
variable {p : Predicate Reference} {q : Query}

theorem query?_project (hl : list.references? = some rs) (he : e.query? = some q) :
    (branch .project [list, e]).query? = some (.project rs q) := by
  simp [branch, Token.bare, query?, hl, he]

theorem query?_select (hc : condition.predicate? = some p) (he : e.query? = some q) :
    (branch .select [condition, e]).query? = some (.select p q) := by
  simp [branch, Token.bare, query?, hc, he]

theorem query?_rename (ht : target.reference? = some r) (he : e.query? = some q) :
    (branch .rename [target, e]).query? = some (.rename r [] q) := by
  simp [branch, Token.bare, query?, ht, he]

theorem query?_renameAll (ht : target.reference? = some r) (hl : list.references? = some rs)
    (he : e.query? = some q) :
    (branch .rename [target, list, e]).query? = some (.rename r rs q) := by
  simp [branch, Token.bare, query?, ht, hl, he]

end Expression

namespace Grammar
variable {l m : Level} {ops : List Kind} {w : List Token} {e : Expression}

theorem Chain.reads_first (h : Chain l ops m) (he : m.Reads e) : l.Reads e := by
  cases h <;> exact he

theorem Chain.reads_more (h : Chain l ops m) {op : Token} (ho : op.kind ∈ ops) {x y : Expression}
    (hx : l.Reads x) (hy : m.Reads y) : l.Reads (node (some op) [x, y]) := by
  cases h with
  | union =>
    simp only [List.mem_cons, List.not_mem_nil, or_false] at ho
    rcases ho with ho | ho
    · exact Expression.exists_query?_binary (by rw [ho]; rfl) hx hy
    · exact Expression.exists_query?_binary (by rw [ho]; rfl) hx hy
  | difference | join | product =>
    have ho := List.mem_singleton.1 ho
    exact Expression.exists_query?_binary (by rw [ho]; rfl) hx hy
  | disjunction | conjunction =>
    obtain ⟨kind, literal⟩ := op
    obtain ⟨p, hp⟩ := hx
    obtain ⟨q, hq⟩ := hy
    cases List.mem_singleton.1 ho
    exact ⟨_, by simp [Expression.predicate?, hp, hq]; rfl⟩

theorem Chain.ne_word (h : Chain l ops m) {k : Kind} (hk : k ∈ ops) : k ≠ .word := by
  revert hk
  cases h <;> revert k <;> decide

theorem Enclosed.forall_mem {P : Token → Prop} {v : List Token} (h : Enclosed v w)
    (hw : ∀ t ∈ w, P t) : ∀ t ∈ v, P t := by
  cases h with
  | intro _ _ => exact fun t ht => hw t (by simp [ht])

/-- Every phrase has the layout of its level, and plain words. -/
theorem Derives.reads (h : Derives l w e) (hw : ∀ t ∈ w, t.Lexed) : l.Reads e ∧ e.Plain := by
  induction h with
  | first hl _ ih => exact ⟨hl.reads_first (ih hw).1, (ih hw).2⟩
  | more hl _ ho _ left right =>
    rw [List.forall_mem_append, List.forall_mem_cons] at hw
    obtain ⟨hx, hxp⟩ := left hw.1
    obtain ⟨hy, hyp⟩ := right hw.2.2
    exact ⟨hl.reads_more ho hx hy, Expression.plain_pair (hl.ne_word ho) hxp hyp⟩
  | comparison h => exact h.reads hw
  | group _ hv ih => exact ih (hv.forall_mem hw)
  | @not v w e op ho _ hv ih =>
    rw [List.forall_mem_cons] at hw
    obtain ⟨⟨p, hp⟩, hplain⟩ := ih (hv.forall_mem hw.2)
    obtain ⟨kind, literal⟩ := op
    cases ho
    exact ⟨⟨.not p, by simp [Expression.predicate?, hp]⟩,
      Expression.plain_node (by simp) (by simpa using hplain)⟩
  | stored hn =>
    obtain ⟨name, rfl, _⟩ := (hw _ (.head _)).word hn
    exact ⟨⟨.stored name, rfl⟩, Expression.plain_leaf (by decide) name⟩
  | parenthesized _ hv ih => exact ih (hv.forall_mem hw)
  | project _ attributes _ hv ih =>
    rw [List.forall_mem_cons, List.forall_mem_append] at hw
    obtain ⟨⟨rs, hrs⟩, hlist⟩ := attributes.reads_list hw.2.1
    obtain ⟨⟨q, hq⟩, hplain⟩ := ih (hv.forall_mem hw.2.2)
    exact ⟨⟨_, Expression.query?_project hrs hq⟩, Expression.plain_pair (by decide) hlist hplain⟩
  | select _ _ _ hv predicate ih =>
    rw [List.forall_mem_cons, List.forall_mem_append] at hw
    obtain ⟨⟨p, hp⟩, hcondition⟩ := predicate hw.2.1
    obtain ⟨⟨q, hq⟩, hplain⟩ := ih (hv.forall_mem hw.2.2)
    exact ⟨⟨_, Expression.query?_select hp hq⟩,
      Expression.plain_pair (by decide) hcondition hplain⟩
  | rename _ name _ hv ih =>
    rw [List.forall_mem_cons, List.forall_mem_append] at hw
    obtain ⟨⟨r, hr⟩, htarget⟩ := name.reads hw.2.1
    obtain ⟨⟨q, hq⟩, hplain⟩ := ih (hv.forall_mem hw.2.2)
    exact ⟨⟨_, Expression.query?_rename hr hq⟩,
      Expression.plain_pair (by decide) htarget hplain⟩
  | renameAll _ name _ attributes _ _ hv ih =>
    simp only [List.forall_mem_cons, List.forall_mem_append] at hw
    obtain ⟨_, hname, _, hattributes, _, hoperand⟩ := hw
    obtain ⟨⟨r, hr⟩, htarget⟩ := name.reads hname
    obtain ⟨⟨rs, hrs⟩, hlist⟩ := attributes.reads_list hattributes
    obtain ⟨⟨q, hq⟩, hplain⟩ := ih (hv.forall_mem hoperand)
    refine ⟨⟨_, Expression.query?_renameAll hr hrs hq⟩, Expression.plain_node (by decide) ?_⟩
    simp [htarget, hlist, hplain]

end Grammar

/-! ### Texts -/

/-- Every tree that is parsed lays out a query and has plain words. -/
theorem Expression.exists_query?_of_parse {text : String} {e : Expression}
    (h : parse text = .ok e) : ∃ q, e.query? = some q ∧ q.Plain ∧ e.Plain := by
  obtain ⟨_, he⟩ := (parse_eq_ok_iff text e).1 h
  obtain ⟨⟨q, hq⟩, hplain⟩ := he.reads (TokenStream.lexed text)
  exact ⟨q, hq, plain_of_query? hq hplain, hplain⟩

end RelationalAlgebra
