import RelationalAlgebra.Proofs.QualifiedNames
import RelationalAlgebra.Token.Stream
import RelationalAlgebra.Value.Numeral

/-!
# Tokens that are read from text

The tokens that carry a literal keep what the reader has checked of it: a word holds no dot, and the
digits of a number have a value.
-/
namespace RelationalAlgebra

/-- Words and numbers that are read from text have a literal, words one without a dot and numbers
one with a value; strings have a literal as well. -/
def Token.Lexed (t : Token) : Prop :=
  match t.kind with
  | .word => ∃ name, t.literal = some name ∧ Plain name
  | .number => ∃ digits n, t.literal = some digits ∧ Numeral.integer? digits.toList = some n
  | .string => ∃ text, t.literal = some text
  | _ => True

namespace Cursor
variable {c d : Cursor} {t : Token}

theorem lexed_of_symbol? {cs : List Char} {k : Kind} {n : Nat} (h : symbol? cs = some (k, n)) :
    (Token.bare k).Lexed := by
  revert h
  fun_cases symbol? cs <;> intro h <;> cases h <;> trivial

theorem lexed_number (hne : c.rest.takeWhile Char.isDigit ≠ []) :
    (c.takeRun .number Char.isDigit).1.Lexed := by
  have hdigits : ∀ x ∈ c.rest.takeWhile Char.isDigit, x.isDigit :=
    List.all_eq_true.1 List.all_takeWhile
  have hinteger := Numeral.integer?_eq_ofDigitChars hne hdigits
  exact ⟨_, _, rfl, by rwa [String.toList_ofList]⟩

theorem lexed_word (c : Cursor) : (c.takeRun .word continuesWord).1.Lexed := by
  refine ⟨_, rfl, ?_⟩
  intro hdot
  rw [String.toList_ofList] at hdot
  have hall := List.all_eq_true.1 (List.all_takeWhile (p := continuesWord) (l := c.rest)) _ hdot
  exact absurd hall (by decide)

theorem lexed_of_readToken (h : c.readToken = (.ok t, d)) : t.Lexed := by
  unfold readToken at h
  split at h
  · cases h
    trivial
  · split at h
    · cases h
      exact ⟨_, rfl⟩
    · cases h
  · rename_i first rest _ hrest
    split at h
    · rename_i hfirst
      cases h
      simp only [startsNumber, Bool.and_eq_true] at hfirst
      exact c.lexed_number (by simp [hrest, hfirst.1])
    · split at h
      · cases h
        exact c.lexed_word
      · split at h
        · rename_i hs
          cases h
          exact lexed_of_symbol? hs
        · cases h

end Cursor

namespace TokenStream

theorem forall_mem_ofCursor {P : Token → Prop}
    (h : ∀ c d t, Cursor.next c = (.ok t, d) → t.kind ≠ .eof → P t) (c : Cursor) :
    ∀ t ∈ (ofCursor c).tokens, P t := by
  induction c using TokenStream.ofCursor.induct with
  | case1 c e d hnext =>
    rw [ofCursor_eq, hnext]
    exact List.forall_mem_nil _
  | case2 c token d hnext heof =>
    rw [ofCursor_eq, hnext]
    simp [heof]
  | case3 c token d hnext heof _ ih =>
    rw [ofCursor_eq, hnext]
    simp only [if_neg heof, cons, List.forall_mem_cons]
    exact ⟨h c d token hnext heof, ih⟩

theorem kind_ne_eof (text : String) : ∀ t ∈ (ofText text).tokens, t.kind ≠ .eof :=
  forall_mem_ofCursor (fun _ _ _ _ heof => heof) _

theorem lexed (text : String) : ∀ t ∈ (ofText text).tokens, t.Lexed :=
  forall_mem_ofCursor (fun _ _ _ h _ => Cursor.lexed_of_readToken h) _

end TokenStream

end RelationalAlgebra
