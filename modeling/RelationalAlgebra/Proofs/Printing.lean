import RelationalAlgebra.Proofs.Printing.Tokens

/-!
# Printing expressions

An expression is printed as its tokens with blanks between them. Every token of a tree that a text
can spell can be written, so the printed text lays the tokens out, and since they derive the tree it
is parsed back to it.
-/
namespace RelationalAlgebra

open Grammar Cursor
open Expression (branch leaf node)

namespace Expression
open Token (parens)

/-- The text of an expression, with a blank between neighbouring tokens. -/
def print (e : Expression) : String := Token.text (e.tokens .union)

/-! ### Every token can be written -/

theorem spellable_parens {w : List Token} (h : ∀ t ∈ w, t.Spellable) :
    ∀ t ∈ parens w, t.Spellable := by
  have hopen : (Token.bare .openParen).Spellable := Token.spellable_bare (by decide)
  have hclose : (Token.bare .closeParen).Spellable := Token.spellable_bare (by decide)
  simpa [parens, or_imp, forall_and, hopen, hclose] using h

theorem spellable_fit {l m : Level} {w : List Token} (h : ∀ t ∈ w, t.Spellable) :
    ∀ t ∈ l.fit m w, t.Spellable := by
  unfold Level.fit
  split
  · exact h
  · exact spellable_parens h

theorem spellable_attributeTokens {e : Expression} (h : e.IsAttribute) :
    ∀ t ∈ e.attributeTokens, t.Spellable := by
  cases h with
  | bare h => exact List.forall_mem_singleton.2 (Token.spellable_word h)
  | qualified hq hn =>
    have hdot : (Token.bare .dot).Spellable := Token.spellable_bare (by decide)
    have hqualifier := Token.spellable_word hq
    have hname := Token.spellable_word hn
    simpa [attributeTokens, branch, leaf] using ⟨hqualifier, hdot, hname⟩

theorem spellable_listTokens {list : List Expression} (h : ∀ e ∈ list, IsAttribute e) :
    ∀ t ∈ listTokens list, t.Spellable := by
  have hcomma : (Token.bare .comma).Spellable := Token.spellable_bare (by decide)
  cases list with
  | nil => simp [listTokens]
  | cons e es =>
    obtain ⟨he, hes⟩ := List.forall_mem_cons.1 h
    refine List.forall_mem_append.2 ⟨spellable_attributeTokens he, ?_⟩
    intro t ht
    obtain ⟨a, ha, hmem⟩ := List.mem_flatMap.1 ht
    rcases List.mem_cons.1 hmem with rfl | hmem
    · exact hcomma
    · exact spellable_attributeTokens (hes a ha) t hmem

theorem spellable_comparableTokens {e : Expression} (h : e.IsComparable) :
    ∀ t ∈ e.comparableTokens, t.Spellable := by
  cases h with
  | named h =>
    have hattribute := spellable_attributeTokens h
    cases h <;> exact hattribute
  | number h => exact List.forall_mem_singleton.2 (Token.spellable_number h)
  | negative h =>
    have hminus : (Token.bare .minus).Spellable := Token.spellable_bare (by decide)
    have hnumber := Token.spellable_number h
    simpa [comparableTokens, branch, leaf] using ⟨hminus, hnumber⟩
  | string h => exact List.forall_mem_singleton.2 (Token.spellable_string h)

theorem spellable_tokens_operator {op : Kind} {l m : Level} {x y : Expression}
    (ho : op.level? = some m) (hx : ∀ t ∈ x.tokens m, t.Spellable)
    (hy : ∀ t ∈ y.tokens m.inner, t.Spellable) :
    ∀ t ∈ (branch op [x, y]).tokens l, t.Spellable := by
  have hop : (Token.bare op).Spellable := by
    apply Token.spellable_bare
    revert ho
    cases op <;> simp [Kind.level?, Kind.spellings]
  rw [← Level.mem_operators_iff] at ho
  rw [branch, tokens_operator ho]
  apply spellable_fit
  exact List.forall_mem_append.2 ⟨hx, List.forall_mem_cons.2 ⟨hop, hy⟩⟩

theorem spellable_tokens_of_isPredicate {p : Expression} (h : p.IsPredicate) (l : Level) :
    ∀ t ∈ p.tokens l, t.Spellable := by
  induction h generalizing l with
  | @compare op lhs rhs ho left right =>
    have hop : (Token.bare op).Spellable := by
      apply Token.spellable_bare
      revert op
      decide
    rw [branch, tokens_comparison ho]
    exact List.forall_mem_append.2 ⟨spellable_comparableTokens left,
      List.forall_mem_cons.2 ⟨hop, spellable_comparableTokens right⟩⟩
  | @connect op p q ho _ _ left right =>
    obtain ⟨m, hm, _⟩ := Level.exists_of_mem_connectives ho
    exact spellable_tokens_operator hm (left m) (right m.inner)
  | not _ ih =>
    exact List.forall_mem_cons.2 ⟨Token.spellable_bare (by decide), spellable_parens (ih _)⟩

theorem spellable_tokens_of_isRelation {e : Expression} (h : e.IsRelation) (l : Level) :
    ∀ t ∈ e.tokens l, t.Spellable := by
  have hsymbol {k : Kind} (hk : k.spellings ≠ []) := Token.spellable_bare hk
  induction h generalizing l with
  | stored h => exact List.forall_mem_singleton.2 (Token.spellable_word h)
  | project _ attributes _ ih =>
    simp only [tokens_project, List.forall_mem_cons, List.forall_mem_append]
    exact ⟨hsymbol (by decide), spellable_listTokens attributes, spellable_parens (ih _)⟩
  | select condition _ ih =>
    simp only [tokens_select, List.forall_mem_cons, List.forall_mem_append]
    exact ⟨hsymbol (by decide), spellable_tokens_of_isPredicate condition _,
      spellable_parens (ih _)⟩
  | rename name _ ih =>
    simp only [tokens_rename, List.forall_mem_cons, List.forall_mem_append]
    exact ⟨hsymbol (by decide), spellable_attributeTokens name, spellable_parens (ih _)⟩
  | renameAll name _ attributes _ ih =>
    simp only [tokens_renameAll, List.forall_mem_cons, List.forall_mem_append]
    exact ⟨hsymbol (by decide), spellable_attributeTokens name, hsymbol (by decide),
      spellable_listTokens attributes, hsymbol (by decide), spellable_parens (ih _)⟩
  | @combine op x y ho _ _ left right =>
    obtain ⟨m, hm, _⟩ := Level.exists_of_mem_combinations ho
    exact spellable_tokens_operator hm (left m) (right m.inner)

end Expression

/-! ### Whole texts -/

/-- A tree is parsed from every text that lays out its tokens, the printed text among them, and no
shorter sequence of tokens derives it. -/
theorem parse_print {e : Expression} (h : e.IsRelation) :
    (∀ text : String, Token.Layout text.toList (e.tokens .union) →
      Expression.parse text = .ok e) ∧
    Expression.parse e.print = .ok e ∧
    ∀ w, Derives .union w e → (e.tokens .union).length ≤ w.length := by
  have hderives : Derives .union (e.tokens .union) e :=
    Expression.derives_tokens_of_isRelation h rfl
  have hlayout : ∀ text : String, Token.Layout text.toList (e.tokens .union) →
      Expression.parse text = .ok e := by
    intro text htext
    rw [Expression.parse_eq_ok_iff, htext.ofText_eq]
    exact ⟨rfl, hderives⟩
  have hprinted := Token.layout_text (Expression.spellable_tokens_of_isRelation h .union)
  exact ⟨hlayout, hlayout e.print hprinted, fun w hw => hw.length_tokens_le⟩

/-- Operands on the right of their own level, and a disjunction in a conjunction, keep their
parentheses. -/
theorem parse_print_nested :
    let e := branch .select [branch .and [branch .or [branch .equal [leaf .word "a",
      branch .minus [leaf .number "10"]], branch .notEqual [branch .reference [leaf .word "r",
        leaf .word "b"], leaf .string "x y"]], branch .not [branch .less [leaf .word "a",
          leaf .word "c"]]], branch .difference [leaf .relation "r",
            branch .difference [leaf .relation "s", leaf .relation "t"]]]
    e.IsRelation ∧
    e.print = "σ ( a = - 10 ∨ r . b ≠ \"x y\" ) ∧ ¬ ( a < c ) ( r − ( s − t ) )" ∧
    Expression.parse e.print = .ok e := by
  intro e
  have stored (name : String) (h : isWord name.toList) :
    Expression.IsRelation (leaf .relation name) := .stored h
  have word (name : String) (h : isWord name.toList) :
    Expression.IsComparable (leaf .word name) := .named (.bare h)
  have qualified : Expression.IsComparable (branch .reference [leaf .word "r", leaf .word "b"]) :=
    .named (.qualified (by decide) (by decide))
  have number : Expression.IsComparable (branch .minus [leaf .number "10"]) :=
    .negative (by decide)
  have string : Expression.IsComparable (leaf .string "x y") := .string (by decide)
  have he : e.IsRelation := by
    refine .select (.connect (by decide) (.connect (by decide) ?_ ?_) (.not ?_)) ?_
    · exact .compare (by decide) (word "a" (by decide)) number
    · exact .compare (by decide) qualified string
    · exact .compare (by decide) (word "a" (by decide)) (word "c" (by decide))
    · exact .combine (by decide) (stored "r" (by decide))
        (.combine (by decide) (stored "s" (by decide)) (stored "t" (by decide)))
  exact ⟨he, rfl, (parse_print he).2.1⟩

end RelationalAlgebra
