import RelationalAlgebra.Evaluation.Plan
import RelationalAlgebra.Proofs.Printing.Tokens
import RelationalAlgebra.Proofs.Semantics
import RelationalAlgebra.Proofs.Spelling.Reading

/-!
# Composing texts

Texts that spell expressions may stand, between parentheses, as the operands of any operator: the
tokens of the whole are those of its parts, its tree has the trees of the parts as children, and its
value is what the operator makes of the values of the parts (`evaluate_composite`).
-/
namespace RelationalAlgebra

open Grammar Cursor
open Expression (branch leaf node)
open Token (Layout parens)

/-! ### Tokens of composite texts -/

namespace Token
variable {cs ds : List Char} {ts us : List Token}

theorem Layout.mark {k : Kind} {c : Char} (h : Layout cs ts)
    (hk : String.singleton c ∈ k.spellings) (hc : [c] ∉ [['!'], ['>'], ['<']]) :
    Layout (c :: cs) (bare k :: ts) := by
  obtain ⟨first, tail, hfirst, _, hnumber, hword⟩ := exists_first_of_mem_spellings hk
  rw [String.toList_singleton] at hfirst
  cases hfirst
  have hspelled := SpelledAs.symbol hk
  rw [String.toList_singleton] at hspelled
  exact .token hspelled (fun x _ hgoes => hc (eq_of_goesOn hnumber hword hgoes).1) h

theorem Layout.space (h : Layout cs ts) : Layout (' ' :: cs) ts := .blank (by decide) h

theorem Layout.parens (h : Layout cs ts) (h' : Layout ds us) :
    Layout ('(' :: (cs ++ ')' :: ds)) (Token.parens ts ++ us) := by
  have hclose : Layout (')' :: ds) (bare .closeParen :: us) := h'.mark (by decide) (by decide)
  have hopen : Layout ('(' :: (cs ++ ')' :: ds))
      (bare .openParen :: (ts ++ bare .closeParen :: us)) :=
    (h.append hclose (by decide)).mark (by decide) (by decide)
  simpa [Token.parens] using hopen

theorem Layout.append_space (h : Layout cs ts) (h' : Layout ds us) :
    Layout (cs ++ ' ' :: ds) (ts ++ us) :=
  h.append h'.space (by decide)

theorem SpelledAs.layout {t : Token} (h : t.SpelledAs cs) : Layout cs [t] := by
  have hlayout := Layout.token h (by simp) .nil
  rwa [List.append_nil] at hlayout

theorem layout_word {name : String} (h : isWord name.toList) :
    Layout name.toList [lit .word name] :=
  (spellable_word h).layout

end Token

/-! ### What texts spell -/

namespace Grammar

/-- The tokens of the text follow a rule of the grammar. -/
def Spells {α : Type} (rule : List Token → α → Prop) (text : String) (a : α) : Prop :=
  (TokenStream.ofText text).failure = none ∧ rule (TokenStream.ofText text).tokens a

variable {α : Type} {rule : List Token → α → Prop} {a : α} {text : String}

theorem spells_iff_layout : Spells rule text a ↔ ∃ ts, Layout text.toList ts ∧ rule ts a := by
  constructor
  · intro h
    exact ⟨_, Token.layout_of_ofText h.1, h.2⟩
  · intro h
    obtain ⟨ts, hlayout, ha⟩ := h
    rw [Spells, hlayout.ofText_eq]
    exact ⟨rfl, ha⟩

theorem Spells.lexed (_ : Spells rule text a) : ∀ t ∈ (TokenStream.ofText text).tokens, t.Lexed :=
  TokenStream.lexed text

end Grammar

def BinaryOperator.kind : BinaryOperator → Kind
  | set .union => .union
  | set .intersection => .intersection
  | set .difference => .difference
  | product => .product
  | join => .join

namespace Grammar
variable {s t names condition name : String} {e e' p : Expression} {list : List Expression}

theorem Derives.enclosed {w : List Token} (h : Derives .union w e) {l : Level}
    (hl : l.base = .relation) : Derives l (Token.parens w) e :=
  h.parens.of_height_le hl.symm (Nat.zero_le _)

theorem derives_combine {v w : List Token} (op : BinaryOperator) (hx : Derives .union v e)
    (hy : Derives .union w e') : Derives .union (parens v ++ .bare op.kind :: parens w)
      (node (some (.bare op.kind)) [e, e']) := by
  obtain ⟨m, hm, hbase, hheight⟩ : ∃ m, op.kind ∈ Level.operators m ∧ m.base = .relation ∧
      m.height ≤ Level.union.height := by
    rcases op with (_ | _ | _) | _ | _
    · exact ⟨.union, by decide, rfl, by decide⟩
    · exact ⟨.union, by decide, rfl, by decide⟩
    · exact ⟨.difference, by decide, rfl, by decide⟩
    · exact ⟨.product, by decide, rfl, by decide⟩
    · exact ⟨.join, by decide, rfl, by decide⟩
  have hmore : Derives m (parens v ++ .bare op.kind :: parens w) _ :=
    .more (Parser.chain_of_mem_operators hm) (hx.enclosed hbase) hm
      (hy.enclosed (m.base_inner.trans hbase))
  exact hmore.of_height_le hbase hheight

theorem spells_combine (op : BinaryOperator) (hx : Spells (Derives .union) s e)
    (hy : Spells (Derives .union) t e') :
    Spells (Derives .union) ("(" ++ s ++ ") " ++ op.glyph ++ " (" ++ t ++ ")")
      (node (some (.bare op.kind)) [e, e']) := by
  obtain ⟨v, hv, hx⟩ := spells_iff_layout.1 hx
  obtain ⟨w, hw, hy⟩ := spells_iff_layout.1 hy
  refine spells_iff_layout.2 ⟨_, ?_, derives_combine op hx hy⟩
  have hright := (hw.parens .nil).space
  rw [List.append_nil] at hright
  have hop : Layout (op.glyph.toList ++ ' ' :: '(' :: (t.toList ++ [')']))
      (.bare op.kind :: parens w) := by
    rcases op with (_ | _ | _) | _ | _ <;> exact hright.mark (by decide) (by decide)
  simpa using hv.parens hop.space

theorem Derives.of_relation {w : List Token} (h : Derives .relation w e) : Derives .union w e :=
  h.of_height_le rfl (Nat.zero_le _)

theorem spells_project (ha : Spells Attributes names list) (h : Spells (Derives .union) s e) :
    Spells (Derives .union) ("π " ++ names ++ " (" ++ s ++ ")")
      (branch .project [branch .list list, e]) := by
  obtain ⟨u, hu, ha⟩ := spells_iff_layout.1 ha
  obtain ⟨w, hw, h⟩ := spells_iff_layout.1 h
  have hderives : Derives .relation (.bare .project :: (u ++ parens w)) _ :=
    .project rfl ha h (enclosed_parens w)
  refine spells_iff_layout.2 ⟨_, ?_, hderives.of_relation⟩
  have hlayout : Layout ('π' :: ' ' :: (names.toList ++ ' ' :: '(' :: (s.toList ++ [')'])))
      (.bare .project :: (u ++ (parens w ++ []))) :=
    (hu.append_space (hw.parens .nil)).space.mark (by decide) (by decide)
  simpa using hlayout

theorem spells_select (hp : Spells (Derives .disjunction) condition p)
    (h : Spells (Derives .union) s e) :
    Spells (Derives .union) ("σ " ++ condition ++ " (" ++ s ++ ")")
      (branch .select [p, e]) := by
  obtain ⟨u, hu, hp⟩ := spells_iff_layout.1 hp
  obtain ⟨w, hw, h⟩ := spells_iff_layout.1 h
  have hderives : Derives .relation (.bare .select :: (u ++ parens w)) _ :=
    .select rfl hp h (enclosed_parens w)
  refine spells_iff_layout.2 ⟨_, ?_, hderives.of_relation⟩
  have hlayout : Layout ('σ' :: ' ' :: (condition.toList ++ ' ' :: '(' :: (s.toList ++ [')'])))
      (.bare .select :: (u ++ (parens w ++ []))) :=
    (hu.append_space (hw.parens .nil)).space.mark (by decide) (by decide)
  simpa using hlayout

theorem spells_rename (hn : isWord name.toList) (h : Spells (Derives .union) s e) :
    Spells (Derives .union) ("ρ " ++ name ++ " (" ++ s ++ ")")
      (branch .rename [leaf .word name, e]) := by
  obtain ⟨w, hw, h⟩ := spells_iff_layout.1 h
  have hname : Attribute [.lit .word name] (leaf .word name) := .bare rfl
  have hderives : Derives .relation (.bare .rename :: ([.lit .word name] ++ parens w)) _ :=
    .rename rfl hname h (enclosed_parens w)
  refine spells_iff_layout.2 ⟨_, ?_, hderives.of_relation⟩
  have hlayout : Layout ('ρ' :: ' ' :: (name.toList ++ ' ' :: '(' :: (s.toList ++ [')'])))
      (.bare .rename :: ([.lit .word name] ++ (parens w ++ []))) :=
    ((Token.layout_word hn).append_space (hw.parens .nil)).space.mark (by decide) (by decide)
  simpa using hlayout

theorem spells_renameAll (hn : isWord name.toList) (ha : Spells Attributes names list)
    (h : Spells (Derives .union) s e) :
    Spells (Derives .union) ("ρ " ++ name ++ " [" ++ names ++ "] (" ++ s ++ ")")
      (branch .rename [leaf .word name, branch .list list, e]) := by
  obtain ⟨u, hu, ha⟩ := spells_iff_layout.1 ha
  obtain ⟨w, hw, h⟩ := spells_iff_layout.1 h
  have hname : Attribute [.lit .word name] (leaf .word name) := .bare rfl
  have hderives : Derives .relation (.bare .rename :: ([.lit .word name] ++
      .bare .openBracket :: (u ++ .bare .closeBracket :: parens w))) _ :=
    .renameAll rfl hname rfl ha rfl h (enclosed_parens w)
  refine spells_iff_layout.2 ⟨_, ?_, hderives.of_relation⟩
  have hclose : Layout (']' :: ' ' :: '(' :: (s.toList ++ [')']))
      (.bare .closeBracket :: (parens w ++ [])) :=
    (hw.parens .nil).space.mark (by decide) (by decide)
  have hopen : Layout ('[' :: (names.toList ++ ']' :: ' ' :: '(' :: (s.toList ++ [')'])))
      (.bare .openBracket :: (u ++ .bare .closeBracket :: (parens w ++ []))) :=
    (hu.append hclose (by decide)).mark (by decide) (by decide)
  have hlayout : Layout ('ρ' :: ' ' :: (name.toList ++ ' ' :: '[' :: (names.toList ++
      ']' :: ' ' :: '(' :: (s.toList ++ [')'])))) (.bare .rename :: ([.lit .word name] ++
        .bare .openBracket :: (u ++ .bare .closeBracket :: (parens w ++ [])))) :=
    ((Token.layout_word hn).append_space hopen).space.mark (by decide) (by decide)
  simpa using hlayout

end Grammar

/-! ### Values of composite texts -/

theorem Expression.query?_combine (op : BinaryOperator) {e e' : Expression} {q q' : Query}
    (hx : e.query? = some q) (hy : e'.query? = some q') :
    (node (some (.bare op.kind)) [e, e']).query? = some (.combine op q q') := by
  rcases op with (_ | _ | _) | _ | _ <;>
    simp [BinaryOperator.kind, Token.bare, query?, BinaryOperator.ofKind?, hx, hy]

theorem evaluate_of_spells {d : DataSet} {text : String} {e : Expression} {q : Query}
    (h : Spells (Derives .union) text e) (hq : e.query? = some q) :
    evaluate d text = q.evaluate (Relation.operators d) :=
  evaluate_of_query? ((Expression.parse_eq_ok_iff text e).2 h) hq

section Operators
variable {d : DataSet} {s t names condition name : String} {e e' c : Expression} {q q' : Query}
variable {list : List Expression} {rs : List Reference} {p : Predicate Reference}

theorem evaluate_combine (op : BinaryOperator) (hs : Spells (Derives .union) s e)
    (hq : e.query? = some q) (ht : Spells (Derives .union) t e') (hq' : e'.query? = some q') :
    evaluate d ("(" ++ s ++ ") " ++ op.glyph ++ " (" ++ t ++ ")") =
      evaluate d s >>= fun x => evaluate d t >>= fun y => Relation.Checked.apply op x y := by
  rw [evaluate_of_spells (spells_combine op hs ht) (Expression.query?_combine op hq hq'),
    evaluate_of_spells hs hq, evaluate_of_spells ht hq']
  rfl

theorem evaluate_project (hs : Spells (Derives .union) s e) (hq : e.query? = some q)
    (ha : Spells Attributes names list) (hrs : list.mapM Expression.reference? = some rs) :
    evaluate d ("π " ++ names ++ " (" ++ s ++ ")") =
      evaluate d s >>= fun r => Relation.Checked.project r rs := by
  rw [evaluate_of_spells (spells_project ha hs) (Expression.query?_project hrs hq),
    evaluate_of_spells hs hq]
  rfl

theorem evaluate_select (hs : Spells (Derives .union) s e) (hq : e.query? = some q)
    (hc : Spells (Derives .disjunction) condition c) (hp : c.predicate? = some p) :
    evaluate d ("σ " ++ condition ++ " (" ++ s ++ ")") =
      evaluate d s >>= fun r => Relation.Checked.select r p := by
  rw [evaluate_of_spells (spells_select hc hs) (Expression.query?_select hp hq),
    evaluate_of_spells hs hq]
  rfl

theorem evaluate_rename (hs : Spells (Derives .union) s e) (hq : e.query? = some q)
    (hn : isWord name.toList) :
    evaluate d ("ρ " ++ name ++ " (" ++ s ++ ")") =
      evaluate d s >>= fun r => Relation.Checked.rename r name [] := by
  have hname : (leaf .word name).reference? = some (.bare name) := rfl
  rw [evaluate_of_spells (spells_rename hn hs) (Expression.query?_rename hname hq),
    evaluate_of_spells hs hq]
  rfl

theorem evaluate_renameAll (hs : Spells (Derives .union) s e) (hq : e.query? = some q)
    (hn : isWord name.toList) (ha : Spells Attributes names list)
    (hrs : list.mapM Expression.reference? = some rs) :
    evaluate d ("ρ " ++ name ++ " [" ++ names ++ "] (" ++ s ++ ")") =
      evaluate d s >>= fun r => Relation.Checked.rename r name rs := by
  have hname : (leaf .word name).reference? = some (.bare name) := rfl
  rw [evaluate_of_spells (spells_renameAll hn ha hs) (Expression.query?_renameAll hname hrs hq),
    evaluate_of_spells hs hq]
  rfl

end Operators

/-- Evaluation is compositional. Operands are evaluated from left to right, and the first error of
one is the error of the whole; if there is none, the whole is what the checked operator makes of the
operands, with the references that an attribute list spells or the predicate that a condition
spells. Every attribute list spells references, and every condition a predicate. -/
theorem evaluate_composite (d : DataSet) {s t : String} {e e' : Expression}
    (hs : Expression.parse s = .ok e) (ht : Expression.parse t = .ok e') :
    (∀ op, evaluate d ("(" ++ s ++ ") " ++ BinaryOperator.glyph op ++ " (" ++ t ++ ")") =
      evaluate d s >>= fun x => evaluate d t >>= fun y => Relation.Checked.apply op x y) ∧
    (∀ names list, Spells Attributes names list →
      ∃ rs, list.mapM Expression.reference? = some rs ∧
        evaluate d ("π " ++ names ++ " (" ++ s ++ ")") =
          evaluate d s >>= fun r => Relation.Checked.project r rs) ∧
    (∀ condition c, Spells (Derives .disjunction) condition c →
      ∃ p, c.predicate? = some p ∧ evaluate d ("σ " ++ condition ++ " (" ++ s ++ ")") =
          evaluate d s >>= fun r => Relation.Checked.select r p) ∧
    ∀ name, isWord (String.toList name) →
      (evaluate d ("ρ " ++ name ++ " (" ++ s ++ ")") =
        evaluate d s >>= fun r => Relation.Checked.rename r name []) ∧
      ∀ names list, Spells Attributes names list →
        ∃ rs, list.mapM Expression.reference? = some rs ∧
          evaluate d ("ρ " ++ name ++ " [" ++ names ++ "] (" ++ s ++ ")") =
            evaluate d s >>= fun r => Relation.Checked.rename r name rs := by
  obtain ⟨q, hq, _⟩ := Expression.exists_query?_of_parse hs
  obtain ⟨q', hq', _⟩ := Expression.exists_query?_of_parse ht
  rw [Expression.parse_eq_ok_iff] at hs ht
  refine ⟨fun op => evaluate_combine op hs hq ht hq', ?_, ?_, ?_⟩
  · intro names list ha
    obtain ⟨rs, hrs⟩ := (ha.2.reads ha.lexed).1
    exact ⟨rs, hrs, evaluate_project hs hq ha hrs⟩
  · intro condition c hc
    obtain ⟨p, hp⟩ := (hc.2.reads hc.lexed).1
    exact ⟨p, hp, evaluate_select hs hq hc hp⟩
  · intro name hn
    refine ⟨evaluate_rename hs hq hn, ?_⟩
    intro names list ha
    obtain ⟨rs, hrs⟩ := (ha.2.reads ha.lexed).1
    exact ⟨rs, hrs, evaluate_renameAll hs hq hn ha hrs⟩

/-- A product with a renaming, and the other operators around a stored relation. -/
theorem evaluate_composite_product :
    let d := DataSet.numbered [[.number 1, .text "x"], [.number 2, .text "y"]]
    let a := leaf .word "a"
    let b := leaf .word "b"
    let list := [branch .reference [leaf .word "r", b], a]
    let c := branch .less [a, leaf .number "2"]
    Expression.parse "r" = .ok (leaf .relation "r") ∧
    Expression.parse "ρ s (r)" = .ok (branch .rename [leaf .word "s", leaf .relation "r"]) ∧
    Spells Attributes "r.b, a" list ∧ Spells (Derives .disjunction) "a<2" c ∧
    evaluate d "(r) × (ρ s (r))" = (evaluate d "r" >>= fun x => evaluate d "ρ s (r)" >>= fun y =>
      Relation.Checked.product x y) ∧
    evaluate d "π r.b, a (r)" = (evaluate d "r" >>= fun r =>
      Relation.Checked.project r [.qualified "r" "b", .bare "a"]) ∧
    evaluate d "σ a<2 (r)" = (evaluate d "r" >>= fun r =>
      Relation.Checked.select r (.compare .lt (.named (.bare "a")) (.literal (.number 2)))) ∧
    evaluate d "ρ s [r.b, a] (r)" = (evaluate d "r" >>= fun r =>
      Relation.Checked.rename r "s" [.qualified "r" "b", .bare "a"]) := by
  intro d a b list c
  have left : Expression.parse "r" = .ok (leaf .relation "r") := by
    have tokens : TokenStream.ofText "r" = ⟨[.lit .word "r"], none⟩ := by decide +kernel
    rw [Expression.parse_eq, tokens]
    cbv
  have names : Spells Attributes "r.b, a" list := by
    have tokens : TokenStream.ofText "r.b, a" = ⟨[.lit .word "r", .bare .dot, .lit .word "b",
      .bare .comma, .lit .word "a"], none⟩ := by decide +kernel
    rw [Spells, tokens]
    exact ⟨rfl, .more (.one (.qualified rfl rfl rfl)) rfl (.bare rfl)⟩
  have condition : Spells (Derives .disjunction) "a<2" c := by
    have tokens : TokenStream.ofText "a<2" =
      ⟨[.lit .word "a", .bare .less, .lit .number "2"], none⟩ := by decide +kernel
    rw [Spells, tokens]
    refine ⟨rfl, .first .disjunction (.first .conjunction (.comparison ?_))⟩
    exact .compare (.named (.bare rfl)) (by decide) (.number (.plain rfl))
  obtain ⟨combined, projected, selected, renamed⟩ := evaluate_composite d left parse_renaming
  obtain ⟨_, ⟨⟩, project⟩ := projected _ _ names
  obtain ⟨_, ⟨⟩, select⟩ := selected _ _ condition
  obtain ⟨_, ⟨⟩, rename⟩ := (renamed "s" (by decide)).2 _ _ names
  exact ⟨left, parse_renaming, names, condition, combined .product, project, select, rename⟩

end RelationalAlgebra
