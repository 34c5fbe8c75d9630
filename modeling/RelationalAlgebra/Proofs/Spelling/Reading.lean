import RelationalAlgebra.Proofs.Spelling

/-!
# Texts that are read are laid out

What is read from a text without a failure is laid out in it (`Token.layout_of_ofText`), so texts
can be put one behind the other and their tokens are read one behind the other, wherever the second
does not go on with the last token of the first (`Token.Layout.append`).
-/
namespace RelationalAlgebra

namespace Cursor
variable {c d : Cursor} {t : Token}

/-- What does not go on with any token, blanks and brackets among it. -/
def separates (c : Char) : Bool := !continuesWord c && c ≠ '='

theorem not_goesOn_of_separates {c : Char} (h : separates c) (s : List Char) : ¬goesOn s c := by
  simp only [separates, Bool.and_eq_true, Bool.not_eq_true', decide_eq_true_eq] at h
  obtain ⟨hword, hequal⟩ := h
  have hdigit : c.isDigit = false := by
    simp only [continuesWord, Char.isAlphanum, Bool.or_eq_false_iff] at hword
    exact hword.1.2
  simp [goesOn, hword, hequal, hdigit]

theorem goesOn_cases {first c : Char} {s : List Char} (h : goesOn (first :: s) c) :
    startsNumber first ∧ c.isDigit ∨ startsWord first ∧ continuesWord c ∨
      first :: s ∈ [['!'], ['>'], ['<']] ∧ c = '=' := by
  simpa [goesOn, or_assoc] using h

/-- Behind a character that starts no word or number only an equals sign goes on. -/
theorem eq_of_goesOn {first c : Char} {s : List Char} (hnumber : startsNumber first = false)
    (hword : startsWord first = false) (h : goesOn (first :: s) c) :
    first :: s ∈ [['!'], ['>'], ['<']] ∧ c = '=' := by
  simpa [hnumber, hword] using goesOn_cases h

theorem not_starts_of_mem {first : Char} {s : List Char}
    (h : first :: s ∈ [['!'], ['>'], ['<']]) : ¬startsNumber first ∧ ¬startsWord first := by
  simp only [List.mem_cons, List.cons.injEq, List.not_mem_nil, or_false] at h
  rcases h with ⟨rfl, _⟩ | ⟨rfl, _⟩ | ⟨rfl, _⟩ <;> decide

/-! ### Single tokens -/

/-- The characters of a symbol are a way to write it, and no longer symbol starts with them. -/
theorem spellings_of_symbol? {cs : List Char} {k : Kind} {n : Nat} (h : symbol? cs = some (k, n)) :
    String.ofList (cs.take n) ∈ k.spellings ∧
      ∀ c ∈ (cs.drop n).head?, ¬goesOn (cs.take n) c := by
  revert h
  fun_cases symbol? cs <;> intro h <;> cases h
  case case21 tail hlone | case23 tail hlone | case28 tail hlone =>
    refine ⟨by simp [Kind.spellings], ?_⟩
    intro c hc hgoes
    obtain ⟨_, rfl⟩ := eq_of_goesOn rfl rfl hgoes
    obtain ⟨rest, rfl⟩ := List.head?_eq_some_iff.1 hc
    exact hlone rest rfl
  all_goals
    refine ⟨by simp [Kind.spellings], ?_⟩
    intro c _ hgoes
    have hlone := (eq_of_goesOn rfl rfl hgoes).1
    simp at hlone

theorem takeWhile_append_drop (p : Char → Bool) (cs : List Char) :
    cs.takeWhile p ++ cs.drop (cs.takeWhile p).length = cs := by
  have h := List.takeWhile_append_dropWhile (p := p) (l := cs)
  have hdrop := congrArg (List.drop (cs.takeWhile p).length) h
  rw [List.drop_left] at hdrop
  rw [← hdrop, h]

theorem not_of_mem_head?_drop {p : Char → Bool} {cs : List Char} {x : Char}
    (h : x ∈ (cs.drop (cs.takeWhile p).length).head?) : ¬p x := by
  induction cs with
  | nil => cases h
  | cons c cs ih =>
    by_cases hc : p c
    · rw [List.takeWhile_cons_of_pos hc] at h
      exact ih h
    · rw [List.takeWhile_cons_of_neg hc] at h
      cases h
      exact hc

theorem isDigit_of_goesOn {first x : Char} {s : List Char} (hfirst : startsNumber first)
    (h : goesOn (first :: s) x) : x.isDigit := by
  rcases goesOn_cases h with ⟨_, hdigit⟩ | ⟨hword, _⟩ | ⟨hlone, _⟩
  · exact hdigit
  · exact absurd hfirst (not_startsNumber_of_startsWord hword)
  · exact absurd hfirst (not_starts_of_mem hlone).1

theorem continuesWord_of_goesOn {first x : Char} {s : List Char} (hfirst : startsWord first)
    (h : goesOn (first :: s) x) : continuesWord x := by
  rcases goesOn_cases h with ⟨hnumber, _⟩ | ⟨_, hword⟩ | ⟨hlone, _⟩
  · exact absurd hnumber (not_startsNumber_of_startsWord hfirst)
  · exact hword
  · exact absurd hfirst (not_starts_of_mem hlone).2

theorem exists_of_takeRun_number {first : Char} {rest : List Char} (hrest : c.rest = first :: rest)
    (hfirst : startsNumber first) (h : c.takeRun .number Char.isDigit = (t, d)) :
    ∃ s, c.rest = s ++ d.rest ∧ t.SpelledAs s ∧ ∀ x ∈ d.rest.head?, ¬goesOn s x := by
  have hrun : c.rest.takeWhile Char.isDigit = first :: rest.takeWhile Char.isDigit := by
    rw [hrest, List.takeWhile_cons_of_pos (isDigit_of_startsNumber hfirst)]
  cases h
  refine ⟨c.rest.takeWhile Char.isDigit, (takeWhile_append_drop _ _).symm, .number ?_, ?_⟩
  · simp [hrun, isNumber, hfirst]
  · intro x hx hgoes
    rw [hrun] at hgoes
    exact not_of_mem_head?_drop hx (isDigit_of_goesOn hfirst hgoes)

theorem exists_of_takeRun_word {first : Char} {rest : List Char} (hrest : c.rest = first :: rest)
    (hfirst : startsWord first) (h : c.takeRun .word continuesWord = (t, d)) :
    ∃ s, c.rest = s ++ d.rest ∧ t.SpelledAs s ∧ ∀ x ∈ d.rest.head?, ¬goesOn s x := by
  have hrun : c.rest.takeWhile continuesWord = first :: rest.takeWhile continuesWord := by
    rw [hrest, List.takeWhile_cons_of_pos (continuesWord_of_startsWord hfirst)]
  cases h
  refine ⟨c.rest.takeWhile continuesWord, (takeWhile_append_drop _ _).symm, .word ?_, ?_⟩
  · simp [hrun, isWord, hfirst]
  · intro x hx hgoes
    rw [hrun] at hgoes
    exact not_of_mem_head?_drop hx (continuesWord_of_goesOn hfirst hgoes)

/-- A token that is read is spelled by the characters that are passed over. -/
theorem exists_of_readToken (h : c.readToken = (.ok t, d)) (ht : t.kind ≠ .eof) :
    ∃ s, c.rest = s ++ d.rest ∧ t.SpelledAs s ∧ ∀ x ∈ d.rest.head?, ¬goesOn s x := by
  unfold readToken at h
  split at h
  · cases h
    exact absurd rfl ht
  · rename_i body hrest
    split at h
    · rename_i hquote
      obtain ⟨content, rest, rfl, hcontent⟩ := List.eq_append_cons_of_mem hquote
      have hrun : (content ++ '"' :: rest).takeWhile (· ≠ '"') = content := by
        apply takeWhile_append_eq
        · intro x hx
          exact decide_eq_true fun he => hcontent (he ▸ hx)
        · simp
      rw [hrun] at h
      cases h
      refine ⟨'"' :: (content ++ ['"']), ?_, .string hcontent, ?_⟩
      · simp [hrest]
      · intro x _ hgoes
        have hlone := (eq_of_goesOn rfl rfl hgoes).1
        simp at hlone
    · cases h
  · rename_i first rest _ hrest
    split at h
    · rename_i hfirst
      cases h
      exact exists_of_takeRun_number hrest hfirst rfl
    · split at h
      · rename_i hfirst
        cases h
        exact exists_of_takeRun_word hrest hfirst rfl
      · split at h
        · rename_i kind width hs
          cases h
          rw [← hrest] at hs
          obtain ⟨hspelling, hend⟩ := spellings_of_symbol? hs
          have hspelled := Token.SpelledAs.symbol hspelling
          rw [String.toList_ofList] at hspelled
          exact ⟨_, (List.take_append_drop _ _).symm, hspelled, hend⟩
        · cases h

theorem rest_eq_nil_of_readToken (h : c.readToken = (.ok t, d)) (ht : t.kind = .eof) :
    c.rest = [] := by
  unfold readToken at h
  split at h
  · assumption
  · split at h <;> cases h
    cases ht
  · split at h
    · cases h
      cases ht
    · split at h
      · cases h
        cases ht
      · split at h
        · rename_i hs
          cases h
          exact absurd ht (symbol?_kind_ne_eof hs)
        · cases h

end Cursor

namespace Token
open Cursor

theorem Layout.blanks {bs cs : List Char} {ts : List Token} (hbs : ∀ c ∈ bs, isBlank c)
    (h : Layout cs ts) : Layout (bs ++ cs) ts := by
  induction bs with
  | nil => exact h
  | cons b bs ih =>
    obtain ⟨hb, hbs⟩ := List.forall_mem_cons.1 hbs
    exact .blank hb (ih hbs)

theorem layout_of_skipBlanks {c : Cursor} {ts : List Token} (h : Layout c.skipBlanks.rest ts) :
    Layout c.rest ts := by
  have hblanks : ∀ x ∈ c.rest.takeWhile isBlank, isBlank x :=
    List.all_eq_true.1 List.all_takeWhile
  have hlayout := Layout.blanks hblanks h
  rwa [skipBlanks, advance_rest, takeWhile_append_drop] at hlayout

theorem layout_of_ofCursor {c : Cursor} (h : (TokenStream.ofCursor c).failure = none) :
    Layout c.rest (TokenStream.ofCursor c).tokens := by
  induction c using TokenStream.ofCursor.induct with
  | case1 c e d hnext =>
    rw [TokenStream.ofCursor_eq, hnext] at h
    cases h
  | case2 c token d hnext heof =>
    rw [TokenStream.ofCursor_eq, hnext]
    simp only [if_pos heof]
    apply layout_of_skipBlanks
    rw [rest_eq_nil_of_readToken hnext heof]
    exact .nil
  | case3 c token d hnext heof _ ih =>
    rw [TokenStream.ofCursor_of_next hnext heof] at h ⊢
    obtain ⟨s, hs, hspelled, hend⟩ := exists_of_readToken hnext heof
    apply layout_of_skipBlanks
    rw [hs]
    exact .token hspelled hend (ih h)

theorem layout_of_ofText {text : String} (h : (TokenStream.ofText text).failure = none) :
    Layout text.toList (TokenStream.ofText text).tokens :=
  layout_of_ofCursor h

/-- Texts one behind the other, the second starting with a character that keeps them apart. -/
theorem Layout.append {c : Char} {cs ds : List Char} {ts us : List Token} (h : Layout cs ts)
    (h' : Layout (c :: ds) us) (hc : separates c) : Layout (cs ++ c :: ds) (ts ++ us) := by
  induction h with
  | nil => exact h'
  | blank hb _ ih => exact .blank hb ih
  | @token s cs t ts hs hend _ ih =>
    rw [List.append_assoc]
    refine .token hs ?_ ih
    intro x hx
    cases cs with
    | nil =>
      obtain rfl := Option.some.inj hx
      exact not_goesOn_of_separates hc s
    | cons _ _ => exact hend x hx

end Token
end RelationalAlgebra
