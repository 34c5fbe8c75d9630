import RelationalAlgebra.Proofs.Spelling.Scanning

/-!
# The segmentation of a text

A text that is read without a failure consists of lexemes and blanks: every lexeme spells a token,
and none goes on with the character behind it. There is no other way to divide the text so, and a
text that cannot be divided so is refused at the first place where no token starts
(`tokenize_segmentation`).
-/
namespace RelationalAlgebra

open Cursor TokenStream

/-- A token with the characters that spell it and the blanks in front of them. -/
structure Lexeme where
  blanks : List Char
  spelling : List Char
  token : Token
  deriving DecidableEq, Repr

namespace Lexeme

def chars (l : Lexeme) : List Char := l.blanks ++ l.spelling

end Lexeme

/-- The characters are those of the lexemes, in order, and blanks behind them; every lexeme is
spelled to its end. -/
structure Segmentation (cs : List Char) (ls : List Lexeme) (trailing : List Char) : Prop where
  chars : cs = ls.flatMap Lexeme.chars ++ trailing
  leading_blank : ∀ l ∈ ls, ∀ c ∈ l.blanks, isBlank c
  trailing_blank : ∀ c ∈ trailing, isBlank c
  spelled : ∀ l ∈ ls, l.token.SpelledAs l.spelling
  maximal : ∀ before l after, ls = before ++ l :: after →
    ∀ c ∈ (after.flatMap Lexeme.chars ++ trailing).head?, ¬goesOn l.spelling c

namespace Segmentation
variable {cs trailing trailing' : List Char} {l : Lexeme} {ls ls' : List Lexeme}

theorem of_blanks (h : ∀ c ∈ cs, isBlank c) : Segmentation cs [] cs where
  chars := rfl
  leading_blank := by simp
  trailing_blank := h
  spelled := by simp
  maximal := by simp

theorem cons (h : Segmentation cs ls trailing) (hblanks : ∀ c ∈ l.blanks, isBlank c)
    (hspelled : l.token.SpelledAs l.spelling) (hend : ∀ c ∈ cs.head?, ¬goesOn l.spelling c) :
    Segmentation (l.blanks ++ (l.spelling ++ cs)) (l :: ls) trailing where
  chars := by simp [Lexeme.chars, ← h.chars]
  leading_blank := List.forall_mem_cons.2 ⟨hblanks, h.leading_blank⟩
  trailing_blank := h.trailing_blank
  spelled := List.forall_mem_cons.2 ⟨hspelled, h.spelled⟩
  maximal := by
    intro before k after heq
    cases before with
    | nil =>
      cases heq
      rwa [← h.chars]
    | cons first before =>
      cases heq
      exact h.maximal before k after rfl

/-- What follows the first lexeme is divided by the other ones. -/
theorem exists_of_cons (h : Segmentation cs (l :: ls) trailing) :
    ∃ rest, cs = l.blanks ++ (l.spelling ++ rest) ∧ (∀ c ∈ rest.head?, ¬goesOn l.spelling c) ∧
      Segmentation rest ls trailing := by
  refine ⟨ls.flatMap Lexeme.chars ++ trailing, ?_, h.maximal [] l ls rfl, ?_⟩
  · rw [h.chars, List.flatMap_cons, Lexeme.chars, List.append_assoc, List.append_assoc]
  · constructor
    · rfl
    · exact (List.forall_mem_cons.1 h.leading_blank).2
    · exact h.trailing_blank
    · exact (List.forall_mem_cons.1 h.spelled).2
    · intro before k after heq
      exact h.maximal (l :: before) k after (by rw [heq]; rfl)

theorem scans (h : Segmentation cs ls trailing) (n : Nat) :
    Scans n cs ⟨ls.map Lexeme.token, none⟩ := by
  induction ls generalizing cs n with
  | nil =>
    rw [h.chars]
    simpa using Scans.blanks h.trailing_blank (.finish (n + trailing.length))
  | cons l ls ih =>
    obtain ⟨rest, rfl, hend, hrest⟩ := h.exists_of_cons
    apply Scans.blanks (h.leading_blank l List.mem_cons_self)
    exact .token (h.spelled l List.mem_cons_self) hend (ih hrest _)

/-- The blanks in front of the first lexeme are all that come before it. -/
theorem takeWhile_isBlank (h : Segmentation cs (l :: ls) trailing) :
    cs.takeWhile isBlank = l.blanks := by
  obtain ⟨rest, rfl, _, _⟩ := h.exists_of_cons
  have hspelled := h.spelled l List.mem_cons_self
  rw [List.takeWhile_append_of_pos (h.leading_blank l List.mem_cons_self),
    takeWhile_isBlank_append hspelled, List.append_nil]

theorem unique (h : Segmentation cs ls trailing) (h' : Segmentation cs ls' trailing') :
    ls = ls' ∧ trailing = trailing' := by
  induction ls generalizing cs ls' with
  | nil =>
    have htokens := (h.scans 0).ofCursor_eq.symm.trans (h'.scans 0).ofCursor_eq
    have hnil : ls' = [] := by simpa using congrArg tokens htokens.symm
    subst hnil
    exact ⟨rfl, h.chars.symm.trans h'.chars⟩
  | cons l ls ih =>
    cases ls' with
    | nil =>
      have htokens := (h.scans 0).ofCursor_eq.symm.trans (h'.scans 0).ofCursor_eq
      cases congrArg tokens htokens
    | cons l' ls' =>
      have hblanks : l.blanks = l'.blanks := h.takeWhile_isBlank.symm.trans h'.takeWhile_isBlank
      obtain ⟨rest, hcs, hend, hrest⟩ := h.exists_of_cons
      obtain ⟨rest', hcs', hend', hrest'⟩ := h'.exists_of_cons
      rw [hcs, hblanks] at hcs'
      have hchars := List.append_cancel_left hcs'
      -- Both lexemes are what the reader finds at one place.
      have hread := readToken_append (h.spelled l List.mem_cons_self) 0 hend
      rw [hchars, readToken_append (h'.spelled l' List.mem_cons_self) 0 hend'] at hread
      obtain ⟨htoken, _, hsame⟩ : l'.token = l.token ∧ _ ∧ rest' = rest := by simpa using hread
      subst hsame
      obtain ⟨rfl, rfl⟩ := ih hrest hrest'
      have hspelling := List.append_cancel_right hchars
      obtain ⟨b, s, t⟩ := l
      cases hblanks
      cases hspelling
      cases htoken
      exact ⟨rfl, rfl⟩

end Segmentation

theorem TokenStream.Scans.exists_segmentation {n : Nat} {cs : List Char} {s : TokenStream}
    (h : Scans n cs s) : ∃ front rest ls trailing, cs = front ++ rest ∧
      Segmentation front ls trailing ∧ s.tokens = ls.map Lexeme.token ∧
      (rest = [] ∧ s.failure = none ∨
        ∃ e, s.failure = some e ∧ LexError.Stops (n + front.length) rest e) := by
  induction h with
  | finish n => exact ⟨[], [], [], [], rfl, .of_blanks (by simp), rfl, .inl ⟨rfl, rfl⟩⟩
  | @blank n c cs s hc _ ih =>
    obtain ⟨front, rest, ls, trailing, rfl, hfront, htokens, hrest⟩ := ih
    have hlength : n + (c :: front).length = n + 1 + front.length := by
      rw [List.length_cons]
      omega
    rw [← hlength] at hrest
    cases ls with
    | nil =>
      have hblanks : ∀ b ∈ c :: front, isBlank b := by
        rw [hfront.chars]
        exact List.forall_mem_cons.2 ⟨hc, hfront.trailing_blank⟩
      exact ⟨c :: front, rest, [], c :: front, rfl, .of_blanks hblanks, htokens, hrest⟩
    | cons l ls =>
      obtain ⟨more, rfl, hend, hmore⟩ := hfront.exists_of_cons
      have hblanks : ∀ b ∈ c :: l.blanks, isBlank b :=
        List.forall_mem_cons.2 ⟨hc, hfront.leading_blank l List.mem_cons_self⟩
      have hspelled := hfront.spelled l List.mem_cons_self
      have hcons := hmore.cons (l := ⟨c :: l.blanks, l.spelling, l.token⟩) hblanks hspelled hend
      exact ⟨_, rest, _, trailing, rfl, hcons, htokens, hrest⟩
  | @token n s cs t r hs hend _ ih =>
    obtain ⟨front, rest, ls, trailing, rfl, hfront, htokens, hrest⟩ := ih
    have hend' : ∀ c ∈ front.head?, ¬goesOn s c := by
      intro c hc
      obtain ⟨tail, rfl⟩ := List.head?_eq_some_iff.1 hc
      exact hend c rfl
    have hcons := hfront.cons (l := ⟨[], s, t⟩) (by simp) hs hend'
    refine ⟨s ++ front, rest, _, trailing, (List.append_assoc ..).symm, hcons, ?_, ?_⟩
    · simp [TokenStream.cons, htokens]
    · rwa [List.length_append, ← Nat.add_assoc]
  | @stuck n cs e h =>
    exact ⟨[], cs, [], [], rfl, .of_blanks (by simp), rfl, .inr ⟨e, rfl, h⟩⟩

namespace Segmentation
variable {text : String} {trailing : List Char} {ls : List Lexeme}

theorem tokenize_eq (h : Segmentation text.toList ls trailing) :
    tokenize text = .ok (ls.map Lexeme.token ++ [.eof]) := by
  have hstream : TokenStream.ofText text = ⟨ls.map Lexeme.token, none⟩ := (h.scans 0).ofCursor_eq
  rw [tokenize_eq_ok_iff, hstream]
  exact ⟨rfl, rfl⟩

end Segmentation

/-- What is in front of the place where reading fails is read without a failure. -/
theorem stops_of_tokenize_eq_error {text : String} {e : LexError} (h : tokenize text = .error e) :
    ∃ front rest ts, text.toList = front ++ rest ∧ tokenize (String.ofList front) = .ok ts ∧
      LexError.Stops front.length rest e := by
  have hfailure := failure_of_tokenize_eq_error h
  obtain ⟨front, rest, ls, trailing, hchars, hfront, _, hrest⟩ :=
    (scans_ofText text).exists_segmentation
  rw [← String.toList_ofList (l := front)] at hfront
  rcases hrest with ⟨_, hnone⟩ | ⟨e', he', hstops⟩
  · rw [hnone] at hfailure
    cases hfailure
  · cases hfailure.symm.trans he'
    rw [Nat.zero_add] at hstops
    exact ⟨front, rest, _, hchars, hfront.tokenize_eq, hstops⟩

theorem exists_segmentation_of_tokenize_eq_ok {text : String} {ts : List Token}
    (h : tokenize text = .ok ts) : ∃ ls trailing, Segmentation text.toList ls trailing ∧
      ts = ls.map Lexeme.token ++ [.eof] := by
  obtain ⟨front, rest, ls, trailing, hchars, hfront, htokens, hrest⟩ :=
    (scans_ofText text).exists_segmentation
  rcases hrest with ⟨rfl, _⟩ | ⟨e, he, _⟩
  · rw [List.append_nil] at hchars
    rw [← hchars] at hfront
    refine ⟨ls, trailing, hfront, ?_⟩
    exact Except.ok.inj (h.symm.trans hfront.tokenize_eq)
  · rw [((tokenize_eq_ok_iff text ts).1 h).1] at he
    cases he

/-- A text that is read without a failure is divided in one way into lexemes and blanks, and read as
their tokens with the end of the text behind them. A text that is not read cannot be divided so. Its
error names the first character that starts no token, or the place of the first quote that is not
closed, and what comes before is read without a failure. -/
theorem tokenize_segmentation (text : String) :
    match tokenize text with
    | .ok ts => ∃ ls trailing, Segmentation text.toList ls trailing ∧
        ts = ls.map Lexeme.token ++ [.eof] ∧
        ∀ ls' trailing', Segmentation text.toList ls' trailing' → ls' = ls ∧ trailing' = trailing
    | .error e => (∀ ls trailing, ¬Segmentation text.toList ls trailing) ∧
        ((∃ c p, e = .invalidCharacter c p ∧
            e.message = "Invalid character: " ++ c.toString ++ " at position " ++ toString p ∧
            text.toList[p]? = some c ∧ Token.Foreign c ∧
            ∃ ts, tokenize (String.ofList (text.toList.take p)) = .ok ts) ∨
          ∃ p, e = .unclosedString p ∧
            e.message = "String starting at position " ++ toString p ++ " is not closed" ∧
            text.toList[p]? = some '"' ∧ '"' ∉ text.toList.drop (p + 1) ∧
            ∃ ts, tokenize (String.ofList (text.toList.take p)) = .ok ts) := by
  split
  · rename_i ts hts
    obtain ⟨ls, trailing, hseg, rfl⟩ := exists_segmentation_of_tokenize_eq_ok hts
    exact ⟨ls, trailing, hseg, rfl, fun _ _ h => h.unique hseg⟩
  · rename_i e he
    constructor
    · intro ls trailing hseg
      rw [hseg.tokenize_eq] at he
      cases he
    · obtain ⟨front, rest, ts, hchars, hfront, hstops⟩ := stops_of_tokenize_eq_error he
      have htake : text.toList.take front.length = front := by rw [hchars, List.take_left]
      cases hstops with
      | @foreign c rest hc =>
        refine .inl ⟨c, front.length, rfl, rfl, ?_, hc, ts, by rwa [htake]⟩
        rw [hchars, List.getElem?_append_right (Nat.le_refl _), Nat.sub_self]
        rfl
      | @unclosed rest hquote =>
        refine .inr ⟨front.length, rfl, rfl, ?_, ?_, ts, by rwa [htake]⟩
        · rw [hchars, List.getElem?_append_right (Nat.le_refl _), Nat.sub_self]
          rfl
        · rwa [hchars, List.drop_length_add_append]

end RelationalAlgebra
