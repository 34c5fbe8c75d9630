import Mathlib.Data.Nat.Basic
import Mathlib.Order.Basic
import RelationalAlgebra.Proofs.Parsing
import RelationalAlgebra.Proofs.Spelling

/-!
# Tokens of expressions

Every tree that a text can spell has a list of tokens with parentheses only where the levels need
them: around an operand whose operator binds no tighter than its place asks for. The tokens derive
the tree (`derives_tokens_of_isRelation`), and no shorter list of tokens does
(`Derives.length_tokens_le`).
-/
namespace RelationalAlgebra

open Grammar Cursor
open Expression (branch leaf node)

/-! ### Trees that texts spell -/

namespace Expression

/-- An attribute, bare or qualified. -/
inductive IsAttribute : Expression → Prop
  | bare {name : String} (h : isWord name.toList) : IsAttribute (leaf .word name)
  | qualified {qualifier name : String} (hq : isWord qualifier.toList) (hn : isWord name.toList) :
      IsAttribute (branch .reference [leaf .word qualifier, leaf .word name])

/-- An attribute, a number, perhaps behind a minus sign, or a string. -/
inductive IsComparable : Expression → Prop
  | named {e} (h : IsAttribute e) : IsComparable e
  | number {digits : String} (h : isNumber digits.toList) : IsComparable (leaf .number digits)
  | negative {digits : String} (h : isNumber digits.toList) :
      IsComparable (branch .minus [leaf .number digits])
  | string {content : String} (h : '"' ∉ content.toList) : IsComparable (leaf .string content)

/-- Comparisons under the connectives. -/
inductive IsPredicate : Expression → Prop
  | compare {op lhs rhs} (ho : op ∈ comparisonOperators) (left : IsComparable lhs)
      (right : IsComparable rhs) : IsPredicate (branch op [lhs, rhs])
  | connect {op p q} (ho : op ∈ [Kind.and, .or]) (left : IsPredicate p) (right : IsPredicate q) :
      IsPredicate (branch op [p, q])
  | not {p} (h : IsPredicate p) : IsPredicate (branch .not [p])

/-- Relations under the operators of the algebra. -/
inductive IsRelation : Expression → Prop
  | stored {name : String} (h : isWord name.toList) : IsRelation (leaf .relation name)
  | project {list e} (hne : list ≠ []) (attributes : ∀ a ∈ list, IsAttribute a)
      (h : IsRelation e) : IsRelation (branch .project [branch .list list, e])
  | select {p e} (condition : IsPredicate p) (h : IsRelation e) :
      IsRelation (branch .select [p, e])
  | rename {target e} (name : IsAttribute target) (h : IsRelation e) :
      IsRelation (branch .rename [target, e])
  | renameAll {target list e} (name : IsAttribute target) (hne : list ≠ [])
      (attributes : ∀ a ∈ list, IsAttribute a) (h : IsRelation e) :
      IsRelation (branch .rename [target, branch .list list, e])
  | combine {op x y} (ho : op ∈ [Kind.union, .intersection, .difference, .join, .product])
      (left : IsRelation x) (right : IsRelation y) : IsRelation (branch op [x, y])

end Expression

/-! ### Printing -/

def Kind.level? : Kind → Option Level
  | union | intersection => some .union
  | difference => some .difference
  | join => some .join
  | product => some .product
  | or => some .disjunction
  | and => some .conjunction
  | _ => none

def Token.parens (w : List Token) : List Token :=
  .bare .openParen :: (w ++ [.bare .closeParen])

/-- A phrase of level `m` where one of level `l` is wanted. -/
def Level.fit (l m : Level) (w : List Token) : List Token :=
  if m.height ≤ l.height then w else Token.parens w

namespace Expression
open Token (parens)

def attributeTokens : Expression → List Token
  | node (some t) [] => [t]
  | node _ [node (some qualifier) [], node (some name) []] => [qualifier, .bare .dot, name]
  | _ => []

/-- Attributes with commas between them. -/
def listTokens : List Expression → List Token
  | [] => []
  | e :: es => attributeTokens e ++ es.flatMap fun e => .bare .comma :: attributeTokens e

def comparableTokens : Expression → List Token
  | node (some sign) [node (some digits) []] => [sign, digits]
  | e => attributeTokens e

/-- The tokens of a relation or a predicate where a phrase of a level is wanted. -/
def tokens : Expression → Level → List Token
  | node (some t) [], _ => [⟨.word, t.literal⟩]
  | node (some t) [e], _ => t :: parens (e.tokens .disjunction)
  | node (some t) [x, y], l =>
    match t.kind with
    | .project => t :: (listTokens x.children ++ parens (y.tokens .union))
    | .select => t :: (x.tokens .disjunction ++ parens (y.tokens .union))
    | .rename => t :: (attributeTokens x ++ parens (y.tokens .union))
    | kind => match kind.level? with
      | some m => l.fit m (x.tokens m ++ t :: y.tokens m.inner)
      | none => comparableTokens x ++ t :: comparableTokens y
  | node (some t) [target, list, e], _ =>
    t :: (attributeTokens target ++ .bare .openBracket ::
      (listTokens list.children ++ .bare .closeBracket :: parens (e.tokens .union)))
  | _, _ => []

end Expression

/-! ### Levels -/

namespace Level

/-- What stands at the bottom of a level: relations, or operands of predicates. -/
def base : Level → Level
  | relation | product | join | difference | union => relation
  | operand | conjunction | disjunction => operand

/-- The loosest level over the same bottom. -/
def top : Level → Level
  | relation | product | join | difference | union => union
  | operand | conjunction | disjunction => disjunction

theorem base_inner (l : Level) : l.inner.base = l.base := by
  cases l <;> rfl

theorem height_le_top (l : Level) : l.height ≤ l.top.height := by
  cases l <;> decide

theorem base_top (l : Level) : l.top.base = l.base := by
  cases l <;> rfl

theorem base_base (l : Level) : l.base.base = l.base := by
  cases l <;> rfl

theorem height_base (l : Level) : l.base.height = 0 := by
  cases l <;> rfl

theorem eq_of_height_eq {l m : Level} (hb : m.base = l.base) (h : m.height = l.height) : m = l := by
  cases l <;> cases m <;> simp_all [base]

/-- A level with others below it is reached from the next. -/
theorem chain_of_height_pos {l : Level} (h : 0 < l.height) :
    Chain l l.operators l.inner ∧ l.inner.height + 1 = l.height := by
  cases l with
  | relation | operand => cases h
  | product => exact ⟨.product, rfl⟩
  | join => exact ⟨.join, rfl⟩
  | difference => exact ⟨.difference, rfl⟩
  | union => exact ⟨.union, rfl⟩
  | conjunction => exact ⟨.conjunction, rfl⟩
  | disjunction => exact ⟨.disjunction, rfl⟩

theorem mem_operators_iff {l : Level} {k : Kind} : k ∈ l.operators ↔ k.level? = some l := by
  cases l <;> cases k <;> decide

theorem exists_of_mem_connectives {op : Kind} (h : op ∈ [Kind.and, .or]) :
    ∃ m, op.level? = some m ∧ m.base = .operand := by
  revert op
  simp [Kind.level?, base]

theorem exists_of_mem_combinations {op : Kind}
    (h : op ∈ [Kind.union, .intersection, .difference, .join, .product]) :
    ∃ m, op.level? = some m ∧ m.base = .relation := by
  revert op
  simp [Kind.level?, base]

end Level

namespace Grammar

theorem enclosed_parens (w : List Token) : Enclosed w (Token.parens w) := .intro rfl rfl

/-- A phrase of a level is one of every looser level. -/
theorem Derives.of_height_le {l m : Level} {w : List Token} {e : Expression} (hd : Derives m w e)
    (hb : m.base = l.base) (h : m.height ≤ l.height) : Derives l w e := by
  induction hn : l.height generalizing l with
  | zero =>
    cases Level.eq_of_height_eq hb (by omega)
    exact hd
  | succ n ih =>
    obtain ⟨hchain, hinner⟩ := Level.chain_of_height_pos (l := l) (by omega)
    rcases Nat.lt_or_eq_of_le h with hlt | heq
    · exact .first hchain (ih (hb.trans l.base_inner.symm) (by omega) (by omega))
    · cases Level.eq_of_height_eq hb heq
      exact hd

theorem Derives.parens {l : Level} {w : List Token} {e : Expression} (hd : Derives l w e) :
    Derives l.base (Token.parens w) e := by
  have htop := hd.of_height_le l.base_top.symm l.height_le_top
  have hw := enclosed_parens w
  cases l with
  | relation | product | join | difference | union => exact .parenthesized htop hw
  | operand | conjunction | disjunction => exact .group htop hw

/-- Parentheses make a phrase fit wherever one over the same bottom is wanted. -/
theorem Derives.fit {l m : Level} {w : List Token} {e : Expression} (hd : Derives m w e)
    (hb : m.base = l.base) : Derives l (l.fit m w) e := by
  unfold Level.fit
  split
  · rename_i h
    exact hd.of_height_le hb h
  · apply hd.parens.of_height_le (m.base_base.trans hb)
    rw [m.height_base]
    exact Nat.zero_le _

end Grammar

namespace Expression
open Token (parens)

/-! ### The tokens of every form -/

theorem tokens_project (list : List Expression) (e : Expression) (l : Level) :
    (branch .project [branch .list list, e]).tokens l =
      .bare .project :: (listTokens list ++ parens (e.tokens .union)) := rfl

theorem tokens_select (p e : Expression) (l : Level) : (branch .select [p, e]).tokens l =
    .bare .select :: (p.tokens .disjunction ++ parens (e.tokens .union)) := rfl

theorem tokens_rename (target e : Expression) (l : Level) : (branch .rename [target, e]).tokens l =
    .bare .rename :: (attributeTokens target ++ parens (e.tokens .union)) := rfl

theorem tokens_renameAll (target : Expression) (list : List Expression) (e : Expression)
    (l : Level) : (branch .rename [target, branch .list list, e]).tokens l =
      .bare .rename :: (attributeTokens target ++ .bare .openBracket ::
        (listTokens list ++ .bare .closeBracket :: parens (e.tokens .union))) := rfl

theorem tokens_not (t : Token) (p : Expression) (l : Level) :
    (node (some t) [p]).tokens l = t :: parens (p.tokens .disjunction) := rfl

theorem tokens_operator {t : Token} {m : Level} (ht : t.kind ∈ m.operators) (x y : Expression)
    (l : Level) :
    (node (some t) [x, y]).tokens l = l.fit m (x.tokens m ++ t :: y.tokens m.inner) := by
  rw [Level.mem_operators_iff] at ht
  obtain ⟨kind, literal⟩ := t
  cases kind <;> cases ht <;> rfl

theorem tokens_comparison {t : Token} (ht : t.kind ∈ comparisonOperators) (x y : Expression)
    (l : Level) :
    (node (some t) [x, y]).tokens l = comparableTokens x ++ t :: comparableTokens y := by
  rw [Parser.mem_comparisonOperators_iff] at ht
  obtain ⟨kind, literal⟩ := t
  cases kind <;> cases ht <;> rfl

/-! ### The tokens derive the tree -/

theorem derives_attributeTokens {e : Expression} (h : e.IsAttribute) :
    Grammar.Attribute e.attributeTokens e := by
  cases h with
  | bare _ => exact .bare rfl
  | qualified _ _ => exact .qualified rfl rfl rfl

/-- A list of attributes goes on with more of them, each behind a comma. -/
theorem attributes_append {v : List Token} {front es : List Expression} (hv : Attributes v front)
    (h : ∀ e ∈ es, IsAttribute e) :
    Attributes (v ++ es.flatMap fun e => .bare .comma :: attributeTokens e) (front ++ es) := by
  induction es generalizing v front with
  | nil => simpa using hv
  | cons e es ih =>
    obtain ⟨he, hes⟩ := List.forall_mem_cons.1 h
    have hcomma : (Token.bare .comma).kind = .comma := rfl
    have hnext := Attributes.more hv hcomma (derives_attributeTokens he)
    simpa using ih hnext hes

theorem derives_listTokens {list : List Expression} (hne : list ≠ [])
    (h : ∀ e ∈ list, IsAttribute e) : Attributes (listTokens list) list := by
  cases list with
  | nil => exact absurd rfl hne
  | cons e es =>
    obtain ⟨he, hes⟩ := List.forall_mem_cons.1 h
    exact attributes_append (.one (derives_attributeTokens he)) hes

theorem derives_comparableTokens {e : Expression} (h : e.IsComparable) :
    Comparable e.comparableTokens e := by
  cases h with
  | named h =>
    have hattribute := Comparable.named (derives_attributeTokens h)
    cases h <;> exact hattribute
  | number _ => exact .number (.plain rfl)
  | negative _ => exact .number (.negative rfl rfl)
  | string _ => exact .string rfl

theorem derives_tokens_operator {op : Kind} {l m : Level} {x y : Expression}
    (ho : op.level? = some m) (hb : m.base = l.base) (hx : Derives m (x.tokens m) x)
    (hy : Derives m.inner (y.tokens m.inner) y) :
    Derives l ((branch op [x, y]).tokens l) (branch op [x, y]) := by
  rw [← Level.mem_operators_iff] at ho
  rw [branch, tokens_operator ho]
  exact (Derives.more (Parser.chain_of_mem_operators ho) hx ho hy).fit hb

theorem derives_tokens_of_isPredicate {p : Expression} (h : p.IsPredicate) {l : Level}
    (hl : l.base = .operand) : Derives l (p.tokens l) p := by
  have lift : ∀ {l : Level} {w e}, l.base = .operand → Derives .operand w e → Derives l w e :=
    fun hl h => h.of_height_le hl.symm (Nat.zero_le _)
  induction h generalizing l with
  | @compare op lhs rhs ho left right =>
    rw [branch, tokens_comparison ho]
    exact lift hl (.comparison (.compare (derives_comparableTokens left) ho
      (derives_comparableTokens right)))
  | @connect op p q ho _ _ left right =>
    obtain ⟨m, hm, hb⟩ := Level.exists_of_mem_connectives ho
    exact derives_tokens_operator hm (hb.trans hl.symm) (left hb) (right (m.base_inner.trans hb))
  | not _ ih => exact lift hl (.not rfl (ih rfl) (enclosed_parens _))

theorem derives_tokens_of_isRelation {e : Expression} (h : e.IsRelation) {l : Level}
    (hl : l.base = .relation) : Derives l (e.tokens l) e := by
  have lift : ∀ {l : Level} {w e}, l.base = .relation → Derives .relation w e → Derives l w e :=
    fun hl h => h.of_height_le hl.symm (Nat.zero_le _)
  induction h generalizing l with
  | stored _ => exact lift hl (.stored rfl)
  | project hne attributes _ ih =>
    exact lift hl (.project rfl (derives_listTokens hne attributes) (ih rfl) (enclosed_parens _))
  | select condition _ ih =>
    have hcondition := derives_tokens_of_isPredicate condition (l := .disjunction) rfl
    exact lift hl (.select rfl hcondition (ih rfl) (enclosed_parens _))
  | rename name _ ih =>
    exact lift hl (.rename rfl (derives_attributeTokens name) (ih rfl) (enclosed_parens _))
  | renameAll name hne attributes _ ih =>
    exact lift hl (.renameAll rfl (derives_attributeTokens name) rfl
      (derives_listTokens hne attributes) rfl (ih rfl) (enclosed_parens _))
  | @combine op x y ho _ _ left right =>
    obtain ⟨m, hm, hb⟩ := Level.exists_of_mem_combinations ho
    exact derives_tokens_operator hm (hb.trans hl.symm) (left hb) (right (m.base_inner.trans hb))

/-! ### No shorter sequence of tokens derives the tree -/

theorem length_parens (w : List Token) : (parens w).length = w.length + 2 := by
  simp [parens]

theorem length_fit_le {l l' m : Level} (h : l'.height ≤ l.height) (w : List Token) :
    (l.fit m w).length ≤ (l'.fit m w).length := by
  unfold Level.fit
  split_ifs
  · exact le_rfl
  · simp only [length_parens]
    omega
  · omega
  · exact le_rfl

theorem length_fit_le_add_two (l l' m : Level) (w : List Token) :
    (l.fit m w).length ≤ (l'.fit m w).length + 2 := by
  unfold Level.fit
  split_ifs
  · exact Nat.le_add_right _ _
  · simp only [length_parens]
    omega
  · rw [length_parens]
  · exact Nat.le_add_right _ _

/-- Only the outermost parentheses depend on the level. -/
theorem exists_tokens_eq_fit (e : Expression) : ∃ m w, ∀ l, e.tokens l = l.fit m w := by
  have hconst : ∀ w, (∀ l, e.tokens l = w) → ∃ m w, ∀ l, e.tokens l = l.fit m w := by
    intro w h
    refine ⟨.relation, w, fun l => ?_⟩
    rw [h]
    exact (if_pos (Nat.zero_le _)).symm
  match e with
  | node none _ | node (some _) [] | node (some _) [_] | node (some _) [_, _, _]
  | node (some _) (_ :: _ :: _ :: _ :: _) => exact hconst _ fun _ => rfl
  | node (some t) [x, y] =>
    cases hk : t.kind.level? with
    | some m => exact ⟨m, _, tokens_operator (Level.mem_operators_iff.2 hk) x y⟩
    | none =>
      obtain ⟨kind, literal⟩ := t
      cases kind <;> cases hk <;> exact hconst _ fun _ => rfl

theorem length_tokens_le {l l' : Level} (h : l'.height ≤ l.height) (e : Expression) :
    (e.tokens l).length ≤ (e.tokens l').length := by
  obtain ⟨m, w, he⟩ := exists_tokens_eq_fit e
  rw [he, he]
  exact length_fit_le h w

theorem length_tokens_le_add_two (l l' : Level) (e : Expression) :
    (e.tokens l).length ≤ (e.tokens l').length + 2 := by
  obtain ⟨m, w, he⟩ := exists_tokens_eq_fit e
  rw [he, he]
  exact length_fit_le_add_two l l' m w

end Expression

namespace Grammar

theorem Chain.height_le {l m : Level} {ops : List Kind} (h : Chain l ops m) :
    m.height ≤ l.height := by
  cases h <;> decide

theorem Enclosed.length_eq {v w : List Token} (h : Enclosed v w) : w.length = v.length + 2 := by
  cases h with
  | intro _ _ => simp

theorem Attribute.length_tokens {w : List Token} {e : Expression} (h : Grammar.Attribute w e) :
    e.attributeTokens.length = w.length := by
  cases h <;> rfl

theorem Attributes.ne_nil {w : List Token} {es : List Expression} (h : Attributes w es) :
    es ≠ [] := by
  cases h <;> simp

theorem Attributes.length_tokens {w : List Token} {es : List Expression} (h : Attributes w es) :
    (Expression.listTokens es).length = w.length := by
  induction h with
  | one h => simpa [Expression.listTokens] using h.length_tokens
  | @more v es w e comma first _ next ih =>
    obtain ⟨a, es, rfl⟩ := List.exists_cons_of_ne_nil first.ne_nil
    simp only [Expression.listTokens, List.cons_append, List.flatMap_append, List.flatMap_singleton,
      List.length_append, List.length_cons, next.length_tokens] at ih ⊢
    omega

theorem Comparable.length_tokens {w : List Token} {e : Expression} (h : Comparable w e) :
    e.comparableTokens.length = w.length := by
  cases h with
  | named h => cases h <;> rfl
  | number h => cases h <;> rfl
  | string _ => rfl

/-- Whatever tokens derive the tree, printing it takes no more. -/
theorem Derives.length_tokens_le {l : Level} {w : List Token} {e : Expression}
    (h : Derives l w e) : (e.tokens l).length ≤ w.length := by
  induction h with
  | @first l ops m w e hl _ ih => exact (Expression.length_tokens_le hl.height_le e).trans ih
  | @more l ops m v lhs w rhs op hl _ ho _ left right =>
    rw [← hl.operators_eq] at ho
    rw [← hl.inner_eq] at right
    rw [Expression.tokens_operator ho, Level.fit, if_pos le_rfl]
    simp only [List.length_append, List.length_cons]
    omega
  | comparison h =>
    cases h with
    | compare left ho right =>
      rw [Expression.tokens_comparison ho]
      simp only [List.length_append, List.length_cons, left.length_tokens, right.length_tokens]
      exact le_rfl
  | group _ hw ih | parenthesized _ hw ih =>
    rw [hw.length_eq]
    exact (Expression.length_tokens_le_add_two _ _ _).trans (Nat.add_le_add_right ih 2)
  | not _ _ hw ih =>
    rw [Expression.tokens_not]
    simp only [List.length_cons, Expression.length_parens, hw.length_eq]
    omega
  | stored _ => exact le_rfl
  | project _ attributes _ hw ih =>
    have hlist := attributes.length_tokens
    simp only [Expression.tokens_project, List.length_cons, List.length_append,
      Expression.length_parens, hw.length_eq]
    omega
  | select _ _ _ hw predicate ih =>
    simp only [Expression.tokens_select, List.length_cons, List.length_append,
      Expression.length_parens, hw.length_eq]
    omega
  | rename _ name _ hw ih =>
    have hname := name.length_tokens
    simp only [Expression.tokens_rename, List.length_cons, List.length_append,
      Expression.length_parens, hw.length_eq]
    omega
  | renameAll _ name _ attributes _ _ hw ih =>
    have hname := name.length_tokens
    have hlist := attributes.length_tokens
    simp only [Expression.tokens_renameAll, List.length_cons, List.length_append,
      Expression.length_parens, hw.length_eq]
    omega

end Grammar

end RelationalAlgebra
