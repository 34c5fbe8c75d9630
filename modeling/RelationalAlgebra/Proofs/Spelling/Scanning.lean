import RelationalAlgebra.Proofs.Spelling.Reading

/-!
# Reading up to a failure

What a cursor reads is determined by the characters behind it: the tokens that they spell, with
blanks between them, up to the end or up to an obstacle. The relation `TokenStream.Scans` says so
without a cursor, and it holds of exactly the stream that is read (`TokenStream.scans_iff`). What
the streams of related texts have in common is shown by induction on it.
-/
namespace RelationalAlgebra

open Cursor

/-! ### Characters that start no token -/

namespace Cursor
variable {c d : Cursor}

theorem isSome_symbol?_lone {c : Char} (h : c ∈ ['!', '>', '<']) (cs : List Char) :
    (symbol? (c :: cs)).isSome := by
  simp only [List.mem_cons, List.not_mem_nil, or_false] at h
  cases cs with
  | nil => rcases h with rfl | rfl | rfl <;> rfl
  | cons d ds =>
    by_cases hd : d = '='
    · subst hd
      rcases h with rfl | rfl | rfl <;> rfl
    · rcases h with rfl | rfl | rfl <;> simp [symbol?, hd]

/-- Whether a character starts a symbol does not depend on what stands behind it. -/
theorem isSome_symbol?_cons {c : Char} {cs : List Char} (h : (symbol? (c :: cs)).isSome)
    (ds : List Char) : (symbol? (c :: ds)).isSome := by
  generalize hl : c :: cs = l at h
  revert h
  fun_cases symbol? l <;> intro h <;> cases hl
  case case20 | case21 | case22 | case23 | case27 | case28 =>
    exact isSome_symbol?_lone (by decide) ds
  case case30 => cases h
  all_goals rfl

theorem isSome_symbol?_of_mem_spellings {k : Kind} {s : String} (h : s ∈ k.spellings) :
    ∀ c ∈ s.toList.head?, (symbol? [c]).isSome := by
  have hall : ∀ s ∈ k.spellings, s.toList.head?.all fun c => (symbol? [c]).isSome := by
    cases k <;> decide
  intro c hc
  have hsome := hall s h
  rwa [hc] at hsome

end Cursor

namespace Token
variable {c : Char} {cs : List Char}

/-- The character is no blank, and no token is spelled with it in front. -/
def Foreign (c : Char) : Prop := ¬isBlank c ∧ ∀ t s, ¬SpelledAs t (c :: s)

theorem Foreign.ne_quote (h : Foreign c) : c ≠ '"' := by
  rintro rfl
  exact h.2 _ _ (.string List.not_mem_nil)

theorem Foreign.not_startsNumber (h : Foreign c) : ¬startsNumber c := by
  intro hc
  have hnumber : isNumber [c] := by simp [isNumber, hc]
  exact h.2 _ _ (.number hnumber)

theorem Foreign.not_startsWord (h : Foreign c) : ¬startsWord c := by
  intro hc
  have hword : isWord [c] := by simp [isWord, hc]
  exact h.2 _ _ (.word hword)

theorem Foreign.symbol?_eq_none (h : Foreign c) (cs : List Char) : symbol? (c :: cs) = none := by
  cases hs : symbol? (c :: cs) with
  | none => rfl
  | some found =>
    obtain ⟨k, width⟩ := found
    have hspelled := SpelledAs.symbol (spellings_of_symbol? hs).1
    obtain ⟨n, rfl⟩ := Nat.exists_eq_add_one.2 (symbol?_width_pos hs)
    rw [String.toList_ofList, List.take_succ_cons] at hspelled
    exact absurd hspelled (h.2 _ _)

/-- The tests that the reader makes of a character rule out every spelling. -/
theorem foreign_of_symbol? (hblank : ¬isBlank c) (hquote : c ≠ '"') (hnumber : ¬startsNumber c)
    (hword : ¬startsWord c) (hsymbol : symbol? (c :: cs) = none) : Foreign c := by
  refine ⟨hblank, ?_⟩
  intro t s hspelled
  generalize hl : c :: s = l at hspelled
  cases hspelled with
  | word h =>
    obtain ⟨first, rest, rfl, hfirst, _⟩ := exists_of_isWord h
    cases hl
    exact hword hfirst
  | number h =>
    obtain ⟨first, rest, rfl, hfirst, _⟩ := exists_of_isNumber h
    cases hl
    exact hnumber hfirst
  | string _ =>
    cases hl
    exact hquote rfl
  | symbol h =>
    have hhead := isSome_symbol?_of_mem_spellings h c (by rw [← hl]; rfl)
    have hsome := isSome_symbol?_cons hhead cs
    rw [hsymbol] at hsome
    cases hsome

end Token

/-! ### Streams as a relation -/

/-- The characters stop a reader at a position: the first of them starts no token, or it is a quote
that none follows. -/
inductive LexError.Stops (n : Nat) : List Char → LexError → Prop
  | foreign {c cs} (h : Token.Foreign c) : Stops n (c :: cs) (.invalidCharacter c n)
  | unclosed {cs} (h : '"' ∉ cs) : Stops n ('"' :: cs) (.unclosedString n)

namespace TokenStream

/-- The characters from a position on hold the tokens of the stream, in order and with blanks
between them, up to the end or to the failure of the stream. -/
inductive Scans : Nat → List Char → TokenStream → Prop
  | finish (n) : Scans n [] ⟨[], none⟩
  | blank {n c cs s} (hc : isBlank c) (h : Scans (n + 1) cs s) : Scans n (c :: cs) s
  | token {n s cs t r} (hs : t.SpelledAs s) (hend : ∀ c ∈ cs.head?, ¬goesOn s c)
      (h : Scans (n + s.length) cs r) : Scans n (s ++ cs) (cons t r)
  | stuck {n cs e} (h : LexError.Stops n cs e) : Scans n cs ⟨[], some e⟩

end TokenStream

namespace Cursor
variable {c d : Cursor}

theorem takeWhile_isBlank_of_stops {n : Nat} {cs : List Char} {e : LexError}
    (h : LexError.Stops n cs e) : cs.takeWhile isBlank = [] := by
  cases h with
  | foreign h => exact List.takeWhile_cons_of_neg h.1
  | unclosed _ => exact List.takeWhile_cons_of_neg (by decide)

theorem next_of_stops {n : Nat} {cs : List Char} {e : LexError} (h : LexError.Stops n cs e) :
    ∃ d, next ⟨n, cs⟩ = (.error e, d) := by
  have hskip : skipBlanks ⟨n, cs⟩ = ⟨n, cs⟩ := by
    simp [skipBlanks, takeWhile_isBlank_of_stops h, advance]
  rw [next, hskip]
  cases h with
  | foreign h =>
    rw [readToken_cons h.ne_quote, if_neg h.not_startsNumber, if_neg h.not_startsWord,
      h.symbol?_eq_none]
    exact ⟨_, rfl⟩
  | unclosed h =>
    simp only [readToken, if_neg h]
    exact ⟨_, rfl⟩

theorem stops_of_readToken {e : LexError} (hblank : ∀ x ∈ c.rest.head?, ¬isBlank x)
    (h : c.readToken = (.error e, d)) : LexError.Stops c.position c.rest e := by
  unfold readToken at h
  split at h
  · cases h
  · rename_i body hrest
    split at h
    · cases h
    · rename_i hquote
      cases h
      rw [hrest]
      exact .unclosed hquote
  · rename_i first rest hquote hrest
    rw [hrest] at hblank
    split at h
    · cases h
    · rename_i hnumber
      split at h
      · cases h
      · rename_i hword
        split at h
        · cases h
        · rename_i hsymbol
          cases h
          rw [hrest]
          exact .foreign (Token.foreign_of_symbol? (hblank first rfl) hquote hnumber hword hsymbol)

end Cursor

namespace TokenStream
variable {n : Nat} {cs : List Char} {s : TokenStream}

theorem Scans.blanks {bs : List Char} (hbs : ∀ b ∈ bs, isBlank b)
    (h : Scans (n + bs.length) cs s) : Scans n (bs ++ cs) s := by
  induction bs generalizing n with
  | nil => exact h
  | cons b bs ih =>
    obtain ⟨hb, hbs⟩ := List.forall_mem_cons.1 hbs
    rw [List.length_cons, ← Nat.add_assoc, Nat.add_right_comm] at h
    exact .blank hb (ih hbs h)

/-- A stream that the characters hold is the one that is read. -/
theorem Scans.ofCursor_eq (h : Scans n cs s) : ofCursor ⟨n, cs⟩ = s := by
  induction h with
  | finish n => exact ofCursor_nil n
  | blank hc _ ih => rw [ofCursor_congr (next_blank hc _ _), ih]
  | token hs hend _ ih => rw [ofCursor_of_next (next_append hs _ hend) hs.kind_ne_eof, ih]
  | stuck h =>
    obtain ⟨d, hnext⟩ := next_of_stops h
    rw [TokenStream.ofCursor_eq, hnext]

theorem scans_of_skipBlanks {c : Cursor} (h : Scans c.skipBlanks.position c.skipBlanks.rest s) :
    Scans c.position c.rest s := by
  have hblanks : ∀ x ∈ c.rest.takeWhile isBlank, isBlank x :=
    List.all_eq_true.1 List.all_takeWhile
  have hscans := Scans.blanks hblanks h
  rwa [skipBlanks, advance_rest, takeWhile_append_drop] at hscans

theorem scans_ofCursor (c : Cursor) : Scans c.position c.rest (ofCursor c) := by
  induction c using TokenStream.ofCursor.induct with
  | case1 c e d hnext =>
    rw [ofCursor_eq, hnext]
    have hblank : ∀ x ∈ c.skipBlanks.rest.head?, ¬isBlank x := fun _ hx =>
      not_of_mem_head?_drop hx
    exact scans_of_skipBlanks (.stuck (stops_of_readToken hblank hnext))
  | case2 c token d hnext heof =>
    rw [ofCursor_eq, hnext]
    simp only [if_pos heof]
    apply scans_of_skipBlanks
    rw [rest_eq_nil_of_readToken hnext heof]
    exact .finish _
  | case3 c token d hnext heof _ ih =>
    rw [ofCursor_of_next hnext heof]
    obtain ⟨spelling, hs, hspelled, hend⟩ := exists_of_readToken hnext heof
    have hread := readToken_append hspelled c.skipBlanks.position hend
    rw [← hs] at hread
    have hd : d = ⟨c.skipBlanks.position + spelling.length, d.rest⟩ :=
      congrArg Prod.snd (hnext.symm.trans hread)
    rw [hd] at ih
    apply scans_of_skipBlanks
    rw [hs]
    exact .token hspelled hend (hd ▸ ih)

theorem scans_iff : Scans n cs s ↔ ofCursor ⟨n, cs⟩ = s := by
  constructor
  · exact Scans.ofCursor_eq
  · rintro rfl
    exact scans_ofCursor ⟨n, cs⟩

theorem scans_ofText (text : String) : Scans 0 text.toList (ofText text) :=
  scans_ofCursor (.start text)

end TokenStream
end RelationalAlgebra
