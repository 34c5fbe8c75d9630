import RelationalAlgebra.Proofs.Composition
import RelationalAlgebra.Proofs.Selection

/-!
# What literals stand for

An integer other than zero is written in decimal, and a text without a double quote between double
quotes. What is read back from the literal is the value (`Value.Writable.reads`): integers may be of
any size, and texts may hold operators and line breaks. So a selection that compares an attribute
with a literal keeps the tuples that have this value (`evaluate_select_literal`). Zero has no
literal, as no number begins with the digit zero.
-/
namespace RelationalAlgebra

open Cursor
open Grammar (Comparable Derives Spells)
open Expression (branch leaf)
open Token (Layout lit bare)

/-! ### Decimal digits -/

namespace Cursor

theorem isNumber_append {cs ds : List Char} (h : isNumber cs) (hds : ∀ c ∈ ds, c.isDigit) :
    isNumber (cs ++ ds) := by
  obtain ⟨first, rest, rfl, hfirst, hrest⟩ := exists_of_isNumber h
  simpa [isNumber, hfirst, or_imp, forall_and] using ⟨hrest, hds⟩

theorem isNumber_repr {n : Nat} (h : 0 < n) : isNumber (Nat.repr n).toList := by
  have hdigit : ∀ m < 10, (Nat.digitChar m).isDigit ∧ (0 < m → startsNumber (Nat.digitChar m)) := by
    decide
  rw [Nat.toList_repr]
  -- the last digit is split off, and the others are those of a smaller positive number
  induction n using Nat.strongRecOn with
  | ind n ih =>
    rw [Nat.toDigits_eq_if (by decide)]
    split
    · rename_i hlt
      simpa [isNumber] using (hdigit n hlt).2 h
    · apply isNumber_append (ih (n / 10) (by omega) (by omega))
      simpa using (hdigit (n % 10) (by omega)).1

end Cursor

/-! ### Literals -/

theorem Expression.operand?_of_value? {e : Expression} {v : Value} (hr : e.reference? = none)
    (hv : e.value? = some v) : e.operand? = some (.literal v) := by
  simp [operand?, hr, hv]

namespace Value
variable {v : Value}

/-- How a value is written in a condition. -/
def literal : Value → String
  | number n => toString n
  | text s => "\"" ++ s ++ "\""

def Writable : Value → Prop
  | number n => n ≠ 0
  | text s => '"' ∉ s.toList

instance : DecidablePred Writable
  | number n => inferInstanceAs (Decidable (n ≠ 0))
  | text s => inferInstanceAs (Decidable ('"' ∉ s.toList))

theorem reads_repr {n : Nat} (h : 0 < n) :
    Layout (Nat.repr n).toList [lit .number (Nat.repr n)] ∧
      (leaf .number (Nat.repr n)).integer? = some n :=
  ⟨(Token.spellable_number (isNumber_repr h)).layout, Numeral.integer?_repr n⟩

/-- The literal of a value is an operand that stands for the value. -/
theorem Writable.reads (h : v.Writable) : ∃ ts e, Layout v.literal.toList ts ∧ Comparable ts e ∧
    e.operand? = some (.literal v) := by
  cases v with
  | text s =>
    exact ⟨[lit .string s], leaf .string s, (Token.spellable_string h).layout, .string rfl, rfl⟩
  | number i =>
    cases i with
    | ofNat n =>
      have hpos : 0 < n := by
        have hne : (n : Int) ≠ 0 := h
        omega
      obtain ⟨hlayout, hinteger⟩ := reads_repr hpos
      refine ⟨_, leaf .number (Nat.repr n), hlayout, .number (.plain rfl),
        Expression.operand?_of_value? rfl ?_⟩
      show (leaf .number (Nat.repr n)).integer?.map number = _
      rw [hinteger]
      rfl
    | negSucc n =>
      obtain ⟨hlayout, hinteger⟩ := reads_repr n.succ_pos
      have hminus : Layout ('-' :: (Nat.repr (n + 1)).toList)
          [bare .minus, lit .number (Nat.repr (n + 1))] := hlayout.mark (by decide) (by decide)
      have hliteral : (literal (number (.negSucc n))).toList = '-' :: (Nat.repr (n + 1)).toList :=
        String.toList_append
      refine ⟨_, branch .minus [leaf .number (Nat.repr (n + 1))], ?_, .number (.negative rfl rfl),
        Expression.operand?_of_value? rfl ?_⟩
      · rwa [hliteral]
      · show (leaf .number (Nat.repr (n + 1))).integer?.map (fun m => number (-m)) = _
        rw [hinteger]
        rfl

end Value

/-! ### Comparing with a literal -/

namespace Grammar
variable {name c : String} {v : Value}

theorem spells_stored (h : isWord name.toList) :
    Spells (Derives .union) name (leaf .relation name) :=
  spells_iff_layout.2 ⟨_, Token.layout_word h, Derives.of_relation (.stored rfl)⟩

theorem spells_equal_literal (hc : isWord c.toList) (hv : v.Writable) :
    ∃ e, Spells (Derives .disjunction) (c ++ " = " ++ v.literal) e ∧
      e.predicate? = some (.compare .eq (.named (.bare c)) (.literal v)) := by
  obtain ⟨ts, e, hlayout, hcomparable, hoperand⟩ := hv.reads
  have hcompare : Grammar.Comparison ([lit .word c] ++ bare .equal :: ts)
      (branch .equal [leaf .word c, e]) := .compare (.named (.bare rfl)) (by decide) hcomparable
  refine ⟨_, spells_iff_layout.2 ⟨_, ?_, .first .disjunction (.first .conjunction
    (.comparison hcompare))⟩, ?_⟩
  · have hequal : Layout ('=' :: ' ' :: v.literal.toList) (bare .equal :: ts) :=
      hlayout.space.mark (by decide) (by decide)
    simpa using (Token.layout_word hc).append_space hequal
  · have hname : (leaf .word c).operand? = some (.named (.bare c)) := rfl
    simp [branch, bare, Expression.predicate?, Comparison.ofKind?, hname, hoperand]

end Grammar

theorem evaluate_stored {d : DataSet} {name : String} (h : isWord name.toList) :
    evaluate d name = d.lookup name :=
  evaluate_of_spells (Grammar.spells_stored h) (q := .stored name) rfl

section Selections
variable {d : DataSet} {name c : String} {r : Relation} {s : Schema} {a : Attribute} {v : Value}

namespace Predicate

theorem resolve_compare_literal {op : Comparison} {reference : Reference}
    (ha : reference.resolve s = .ok a) (htype : v.type = a.type) :
    (compare op (.named reference) (.literal v)).resolve s =
      .ok (compare op (.named a) (.literal v)) := by
  have hcheck : (compare op (.named a) (.literal v)).checkTypes = .ok () := if_pos htype.symm
  rw [resolve, mapOperands, Operand.resolve, ha]
  show ((compare op (.named a) (.literal v)).checkTypes >>= _) = _
  rw [hcheck]
  rfl

theorem trueOf_equal_literal {t : Tuple} :
    (compare .eq (.named a) (.literal v)).TrueOf t ↔ t.get? a.qualifiedName = some v := by
  simp [TrueOf, Operand.value?, Comparison.Relates]

end Predicate

/-- Selecting the tuples whose attribute equals a literal succeeds, and keeps the tuples that have
the value that the literal spells, in their order. -/
theorem evaluate_select_literal (hr : Relation.make r.schema r.tuples = .ok r)
    (hd : d.get? name = some r) (hname : isWord name.toList) (hc : isWord c.toList)
    (ha : (Reference.bare c).resolve r.schema = .ok a) (htype : v.type = a.type)
    (hv : v.Writable) :
    evaluate d ("σ " ++ c ++ " = " ++ v.literal ++ " (" ++ name ++ ")") =
      .ok ⟨r.schema, r.tuples.filter fun t => t.get? a.qualifiedName = some v⟩ := by
  obtain ⟨e, hspells, hpredicate⟩ := Grammar.spells_equal_literal hc hv
  have hstored : evaluate d name = .ok r := by
    rw [evaluate_stored hname, DataSet.lookup, hd]
  have htext : "σ " ++ c ++ " = " ++ v.literal ++ " (" ++ name ++ ")" =
      "σ " ++ (c ++ " = " ++ v.literal) ++ " (" ++ name ++ ")" := by
    simp only [String.append_assoc]
  have hwell := (Relation.make_eq_ok_iff.1 hr).2
  rw [htext, evaluate_select (Grammar.spells_stored hname) (q := .stored name) rfl hspells
    hpredicate, hstored, ok_bind,
    hwell.select_eq_ok (Predicate.resolve_compare_literal ha htype)]
  simp only [Predicate.trueOf_equal_literal]

/-- A negative number beyond every fixed size, and a text of operators on two lines. -/
theorem evaluate_select_literal_both_types :
    let m := Value.number (-123456789012345678901234567890)
    let glyphs := Value.text "a ∧ (σ\n-1) ⨝ ' "
    let d := DataSet.numbered [[.number 7, glyphs], [m, .text ""], [m, glyphs]]
    m.Writable ∧ glyphs.Writable ∧
    (evaluate d "σ a = -123456789012345678901234567890 (r)").map Relation.rows =
      .ok [[m, .text ""], [m, glyphs]] ∧
    (evaluate d "σ b = \"a ∧ (σ\n-1) ⨝ ' \" (r)").map Relation.rows =
      .ok [[.number 7, glyphs], [m, glyphs]] := by
  intro m glyphs d
  let r := Rowset.relation ⟨[⟨"r", "a", .number⟩, ⟨"r", "b", .string⟩],
    [[.number 7, glyphs], [m, .text ""], [m, glyphs]]⟩
  have hr : Relation.make r.schema r.tuples = .ok r := by decide
  have hd : d.get? "r" = some r := by decide
  have hname : isWord "r".toList := by decide
  have hm : m.Writable := by decide
  have hglyphs : glyphs.Writable := by decide
  have number : evaluate d ("σ " ++ "a" ++ " = " ++ m.literal ++ " (" ++ "r" ++ ")") = _ :=
    evaluate_select_literal hr hd hname (by decide) (a := ⟨"r", "a", .number⟩) rfl rfl hm
  have text : evaluate d ("σ " ++ "b" ++ " = " ++ glyphs.literal ++ " (" ++ "r" ++ ")") = _ :=
    evaluate_select_literal hr hd hname (by decide) (a := ⟨"r", "b", .string⟩) rfl rfl hglyphs
  have hnumber : "σ " ++ "a" ++ " = " ++ m.literal ++ " (" ++ "r" ++ ")" =
      "σ a = -123456789012345678901234567890 (r)" := by decide
  have htext : "σ " ++ "b" ++ " = " ++ glyphs.literal ++ " (" ++ "r" ++ ")" =
      "σ b = \"a ∧ (σ\n-1) ⨝ ' \" (r)" := by decide
  refine ⟨hm, hglyphs, ?_⟩
  rw [← hnumber, ← htext, number, text]
  decide

end Selections

end RelationalAlgebra
