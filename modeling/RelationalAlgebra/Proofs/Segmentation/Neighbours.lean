import Mathlib.Data.List.Chain
import RelationalAlgebra.Proofs.Segmentation

/-!
# Lexemes next to each other

Lexemes that are written one behind the other are read as their tokens exactly when a blank keeps
apart those that would merge (`tokenize_lexemes_iff`): a word and the word or number behind it, two
numbers, and an exclamation mark or angle bracket and an equals sign. All other neighbours may
touch, whichever spelling is chosen for them. The first character of a spelling tells enough of its
token (`Token.SpelledAs.first_cases`) to see whether it goes on with the spelling in front.
-/
namespace RelationalAlgebra

open Cursor

/-! ### The first character of a spelling -/

namespace Token
variable {t : Token} {first : Char} {s s' tail rest rest' : List Char}

/-- Words and numbers start with characters of their own, and an equals sign starts nothing
longer. -/
theorem SpelledAs.first_cases (h : t.SpelledAs (first :: tail)) :
    t.kind = .word ∧ startsWord first ∨ t.kind = .number ∧ startsNumber first ∨
      t.kind ≠ .word ∧ t.kind ≠ .number ∧ ¬continuesWord first ∧ (first = '=' → tail = []) := by
  generalize hs : first :: tail = s at h
  cases h with
  | word h =>
    obtain ⟨_, _, rfl, hfirst, _⟩ := exists_of_isWord h
    cases hs
    exact .inl ⟨rfl, hfirst⟩
  | number h =>
    obtain ⟨_, _, rfl, hfirst, _⟩ := exists_of_isNumber h
    cases hs
    exact .inr (.inl ⟨rfl, hfirst⟩)
  | string _ =>
    cases hs
    have hquote : '"' ≠ '=' := by decide
    exact .inr (.inr ⟨Kind.noConfusion, Kind.noConfusion, by decide, fun heq => absurd heq hquote⟩)
  | @symbol k s h =>
    have hkind : k ≠ .word ∧ k ≠ .number := by
      constructor <;> rintro rfl <;> cases h
    have hall : ∀ s ∈ k.spellings, s.toList.head?.all fun c =>
        ¬continuesWord c ∧ (c = '=' → s.toList.tail = []) := by
      cases k <;> decide
    have hfirst := hall s h
    rw [← hs, List.head?_cons, Option.all_some, List.tail_cons, decide_eq_true_eq] at hfirst
    exact .inr (.inr ⟨hkind.1, hkind.2, hfirst⟩)

theorem SpelledAs.startsWord_iff (h : t.SpelledAs (first :: tail)) :
    startsWord first ↔ t.kind = .word := by
  rcases h.first_cases with ⟨hk, hfirst⟩ | ⟨hk, hfirst⟩ | ⟨hk, _, hfirst, _⟩
  · simp [hk, hfirst]
  · have hword : ¬startsWord first := fun hword => not_startsNumber_of_startsWord hword hfirst
    simp [hk, hword]
  · have hword := mt continuesWord_of_startsWord hfirst
    simp [hk, hword]

theorem SpelledAs.startsNumber_iff (h : t.SpelledAs (first :: tail)) :
    startsNumber first ↔ t.kind = .number := by
  rcases h.first_cases with ⟨hk, hfirst⟩ | ⟨hk, hfirst⟩ | ⟨_, hk, hfirst, _⟩
  · simp [hk, not_startsNumber_of_startsWord hfirst]
  · simp [hk, hfirst]
  · have hnumber := mt (continuesWord_of_isDigit ∘ isDigit_of_startsNumber) hfirst
    simp [hk, hnumber]

theorem SpelledAs.isDigit_iff (h : t.SpelledAs (first :: tail)) :
    first.isDigit ↔ t.kind = .number := by
  rcases h.first_cases with ⟨hk, hfirst⟩ | ⟨hk, hfirst⟩ | ⟨_, hk, hfirst, _⟩
  · simp [hk, not_isDigit_of_startsWord hfirst]
  · simp [hk, isDigit_of_startsNumber hfirst]
  · simp [hk, mt continuesWord_of_isDigit hfirst]

theorem SpelledAs.continuesWord_iff (h : t.SpelledAs (first :: tail)) :
    continuesWord first ↔ t.kind = .word ∨ t.kind = .number := by
  rcases h.first_cases with ⟨hk, hfirst⟩ | ⟨hk, hfirst⟩ | ⟨hk, hk', hfirst, _⟩
  · simp [hk, continuesWord_of_startsWord hfirst]
  · simp [hk, continuesWord_of_isDigit (isDigit_of_startsNumber hfirst)]
  · simp [hk, hk', hfirst]

theorem SpelledAs.eq_equals_iff (h : t.SpelledAs (first :: tail)) :
    first = '=' ↔ first :: tail = ['='] := by
  constructor
  · rintro rfl
    rcases h.first_cases with ⟨_, hfirst⟩ | ⟨_, hfirst⟩ | ⟨_, _, _, htail⟩
    · exact absurd hfirst (by decide)
    · exact absurd hfirst (by decide)
    · rw [htail rfl]
  · exact fun heq => (List.cons.inj heq).1

theorem SpelledAs.exists_cons (h : t.SpelledAs s) : ∃ first tail, s = first :: tail := by
  cases h with
  | word h =>
    obtain ⟨first, tail, rfl, _⟩ := exists_of_isWord h
    exact ⟨first, tail, rfl⟩
  | number h =>
    obtain ⟨first, tail, rfl, _⟩ := exists_of_isNumber h
    exact ⟨first, tail, rfl⟩
  | string _ => exact ⟨_, _, rfl⟩
  | symbol h =>
    obtain ⟨first, tail, htail, _⟩ := exists_first_of_mem_spellings h
    exact ⟨first, tail, htail⟩

/-- Two spellings of one token differ in their first character. -/
theorem SpelledAs.eq_of_append_eq (h : t.SpelledAs s) (h' : t.SpelledAs s')
    (heq : s ++ rest = s' ++ rest') : s = s' := by
  have hhead : s.head? = s'.head? := by
    obtain ⟨first, tail, rfl⟩ := h.exists_cons
    obtain ⟨first', tail', rfl⟩ := h'.exists_cons
    exact congrArg some (List.cons.inj heq).1
  cases h with
  | word h =>
    generalize hlit : lit .word (String.ofList s) = t at h'
    cases h' with
    | word _ => simpa [lit, String.ofList_inj] using hlit
    | number _ | string _ | symbol _ => cases hlit
  | number h =>
    generalize hlit : lit .number (String.ofList s) = t at h'
    cases h' with
    | number _ => simpa [lit, String.ofList_inj] using hlit
    | word _ | string _ | symbol _ => cases hlit
  | @string content h =>
    generalize hlit : lit .string (String.ofList content) = t at h'
    cases h' with
    | string _ =>
      simp only [lit, mk.injEq, Option.some.injEq, String.ofList_inj, true_and] at hlit
      rw [hlit]
    | word _ | number _ | symbol _ => cases hlit
  | @symbol k u h =>
    generalize hbare : bare k = t at h'
    cases h' with
    | @symbol k' u' h' =>
      cases hbare
      have hall : ∀ u ∈ k.spellings, ∀ u' ∈ k.spellings,
          u.toList.head? = u'.toList.head? → u = u' := by
        cases k <;> decide
      rw [hall u h u' h' hhead]
    | word _ | number _ | string _ => cases hbare

end Token

/-! ### Neighbours -/

namespace Lexeme
variable {l m : Lexeme}

/-- Blanks, and a spelling of the token behind them. -/
structure WellFormed (l : Lexeme) : Prop where
  blank : ∀ c ∈ l.blanks, isBlank c
  spelled : l.token.SpelledAs l.spelling

/-- Written directly behind `l`, the spelling of `m` goes on with that of `l`. -/
def Merges (l m : Lexeme) : Prop :=
  l.token.kind = .number ∧ m.token.kind = .number ∨
    l.token.kind = .word ∧ (m.token.kind = .word ∨ m.token.kind = .number) ∨
    l.spelling ∈ [['!'], ['>'], ['<']] ∧ m.spelling = ['=']

instance : DecidableRel Merges := fun _ _ => inferInstanceAs (Decidable (_ ∨ _))

/-- Lexemes that would merge have a blank between them. -/
def Apart (l m : Lexeme) : Prop := l.Merges m → m.blanks ≠ []

instance : DecidableRel Apart := fun _ _ => inferInstanceAs (Decidable (_ → _))

theorem goesOn_iff_merges (hl : l.WellFormed) (hm : m.WellFormed) :
    (∃ c ∈ m.spelling.head?, goesOn l.spelling c) ↔ l.Merges m := by
  have hl := hl.spelled
  have hm := hm.spelled
  obtain ⟨first, tail, hfirst⟩ := hl.exists_cons
  obtain ⟨c, tail', hc⟩ := hm.exists_cons
  rw [Merges, hfirst, hc]
  rw [hfirst] at hl
  rw [hc] at hm
  rw [← hl.startsNumber_iff, ← hl.startsWord_iff, ← hm.continuesWord_iff, ← hm.isDigit_iff,
    ← hm.eq_equals_iff]
  simp [goesOn, or_assoc]

/-- A lexeme is kept from what is in front exactly when its first character does not go on there. -/
theorem apart_iff (hl : l.WellFormed) (hm : m.WellFormed) (rest : List Char) :
    l.Apart m ↔ ∀ c ∈ (m.chars ++ rest).head?, ¬goesOn l.spelling c := by
  rw [Apart, ← goesOn_iff_merges hl hm, chars]
  cases hblanks : m.blanks with
  | nil =>
    obtain ⟨c, tail, hc⟩ := hm.spelled.exists_cons
    simp [hc]
  | cons b bs =>
    have hb : isBlank b := hm.blank b (hblanks ▸ List.mem_cons_self)
    simpa using not_goesOn_of_isBlank hb l.spelling

end Lexeme

namespace Segmentation
variable {cs trailing trailing' : List Char} {l : Lexeme} {ls ls' : List Lexeme}

theorem cons_iff (hl : l.WellFormed) : Segmentation (l.chars ++ cs) (l :: ls) trailing ↔
    (∀ c ∈ cs.head?, ¬goesOn l.spelling c) ∧ Segmentation cs ls trailing := by
  rw [Lexeme.chars, List.append_assoc]
  constructor
  · intro h
    obtain ⟨rest, heq, hend, hrest⟩ := h.exists_of_cons
    cases List.append_cancel_left (List.append_cancel_left heq)
    exact ⟨hend, hrest⟩
  · rintro ⟨hend, h⟩
    exact h.cons hl.blank hl.spelled hend

/-- Lexemes that are kept apart divide the text that they make up. -/
theorem iff_isChain (hls : ∀ l ∈ ls, l.WellFormed) (htrailing : ∀ c ∈ trailing, isBlank c) :
    Segmentation (ls.flatMap Lexeme.chars ++ trailing) ls trailing ↔ ls.IsChain Lexeme.Apart := by
  induction ls with
  | nil => exact iff_of_true (of_blanks htrailing) .nil
  | cons l ls ih =>
    obtain ⟨hl, hls⟩ := List.forall_mem_cons.1 hls
    rw [List.flatMap_cons, List.append_assoc, cons_iff hl, ih hls, List.isChain_cons]
    apply and_congr_left'
    cases ls with
    | nil =>
      have hend : ∀ c ∈ trailing.head?, ¬goesOn l.spelling c := fun c hc =>
        not_goesOn_of_isBlank (htrailing c (List.mem_of_mem_head? hc)) l.spelling
      simpa using hend
    | cons m ms =>
      have hm := (List.forall_mem_cons.1 hls).1
      rw [List.flatMap_cons, List.append_assoc, ← Lexeme.apart_iff hl hm]
      simp

/-- Lexemes whose text is divided into the same tokens are those that divide it. -/
theorem eq_of_tokens_eq (hls : ∀ l ∈ ls, l.WellFormed)
    (h : Segmentation (ls.flatMap Lexeme.chars ++ trailing) ls' trailing')
    (htokens : ls'.map Lexeme.token = ls.map Lexeme.token) : ls' = ls ∧ trailing' = trailing := by
  induction ls generalizing ls' with
  | nil =>
    cases List.map_eq_nil_iff.1 htokens
    exact ⟨rfl, h.chars.symm⟩
  | cons l ls ih =>
    obtain ⟨hl, hls⟩ := List.forall_mem_cons.1 hls
    obtain ⟨l', ls', rfl, htoken, htokens⟩ := List.map_eq_cons_iff.1 htokens
    have hblanks := h.takeWhile_isBlank
    obtain ⟨rest, heq, _, hrest⟩ := h.exists_of_cons
    have hspelled := h.spelled l' List.mem_cons_self
    rw [List.flatMap_cons, Lexeme.chars, List.append_assoc, List.append_assoc] at hblanks heq
    rw [List.takeWhile_append_of_pos hl.blank, takeWhile_isBlank_append hl.spelled,
      List.append_nil] at hblanks
    rw [hblanks] at heq
    have hchars := List.append_cancel_left heq
    rw [htoken] at hspelled
    have hspelling := hl.spelled.eq_of_append_eq hspelled hchars
    rw [hspelling] at hchars
    obtain ⟨rfl, rfl⟩ := ih hls (List.append_cancel_left hchars ▸ hrest) htokens
    obtain ⟨b, s, t⟩ := l
    obtain ⟨b', s', t'⟩ := l'
    cases hblanks
    cases hspelling
    cases htoken
    exact ⟨rfl, rfl⟩

end Segmentation

/-- The tokens that have a spelling are those that are read from some text. -/
theorem Token.exists_spelledAs_iff {t : Token} : (∃ s, t.SpelledAs s) ↔
    ∃ text ts, tokenize text = .ok ts ∧ t ∈ ts ∧ t ≠ .eof := by
  constructor
  · rintro ⟨s, hs⟩
    have hempty : Segmentation [] [] [] := .of_blanks (by simp)
    have hseg := hempty.cons (l := ⟨[], s, t⟩) (by simp) hs (by simp)
    have htext : (String.ofList s).toList = [] ++ (s ++ []) := by simp
    rw [← htext] at hseg
    refine ⟨_, _, hseg.tokenize_eq, by simp, ?_⟩
    rintro rfl
    exact hs.kind_ne_eof rfl
  · rintro ⟨text, ts, hts, hmem, heof⟩
    obtain ⟨ls, trailing, hseg, rfl⟩ := exists_segmentation_of_tokenize_eq_ok hts
    rcases List.mem_append.1 hmem with hmem | hmem
    · obtain ⟨l, hl, rfl⟩ := List.mem_map.1 hmem
      exact ⟨_, hseg.spelled l hl⟩
    · exact absurd (List.mem_singleton.1 hmem) heof

/-- Every token that is read from some text can be spelled, and spelled tokens with blanks between
them are read as these tokens exactly when neighbours that would merge are kept apart. -/
theorem tokenize_lexemes_iff :
    (∀ t : Token, (∃ s, t.SpelledAs s) ↔
      ∃ text ts, tokenize text = .ok ts ∧ t ∈ ts ∧ t ≠ .eof) ∧
    ∀ (ls : List Lexeme) (trailing : List Char), (∀ l ∈ ls, l.WellFormed) →
      (∀ c ∈ trailing, isBlank c) →
      (tokenize (String.ofList (ls.flatMap Lexeme.chars ++ trailing)) =
          .ok (ls.map Lexeme.token ++ [.eof]) ↔ ls.IsChain Lexeme.Apart) := by
  refine ⟨fun _ => Token.exists_spelledAs_iff, ?_⟩
  intro ls trailing hls htrailing
  rw [← Segmentation.iff_isChain hls htrailing]
  constructor
  · intro htokens
    obtain ⟨ls', trailing', hseg, heq⟩ := exists_segmentation_of_tokenize_eq_ok htokens
    rw [String.toList_ofList] at hseg
    obtain ⟨rfl, rfl⟩ := hseg.eq_of_tokens_eq hls (List.append_cancel_right heq).symm
    exact hseg
  · intro hseg
    rw [← String.toList_ofList (l := ls.flatMap Lexeme.chars ++ trailing)] at hseg
    exact hseg.tokenize_eq

/-- Only two of these lexemes have to be kept from the ones in front of them. Without its blank the
number is read as part of the word. -/
theorem tokenize_lexemes_iff_touching :
    let word : Lexeme := ⟨[], ['a'], .lit .word "a"⟩
    let number : Lexeme := ⟨[' '], ['1', '0'], .lit .number "10"⟩
    let ls : List Lexeme := [word, number, ⟨[], ['b'], .lit .word "b"⟩, ⟨[], ['!'], .bare .not⟩,
      ⟨['\n', '\t'], ['='], .bare .equal⟩, ⟨[], ['!', '='], .bare .notEqual⟩,
      ⟨[], ['='], .bare .equal⟩, ⟨[], ['Π'], .bare .project⟩,
      ⟨[], ['"', '!', '"'], .lit .string "!"⟩]
    (∀ l ∈ ls, l.WellFormed) ∧
    tokenize "a 10b!\n\t=!==Π\"!\" " = .ok [.lit .word "a", .lit .number "10", .lit .word "b",
      .bare .not, .bare .equal, .bare .notEqual, .bare .equal, .bare .project, .lit .string "!",
      .eof] ∧
    tokenize "a10" ≠ .ok [.lit .word "a", .lit .number "10", .eof] := by
  intro word number ls
  have spelled : ∀ l ∈ ls, l.token.SpelledAs l.spelling := by
    simp only [ls, List.forall_mem_cons, List.not_mem_nil, false_imp_iff, implies_true, and_true]
    exact ⟨.word rfl, .number rfl, .word rfl, .symbol (s := "!") (by decide),
      .symbol (s := "=") (by decide), .symbol (s := "!=") (by decide),
      .symbol (s := "=") (by decide), .symbol (s := "Π") (by decide),
      @Token.SpelledAs.string ['!'] (by decide)⟩
  have blank : ∀ l ∈ ls, l.blanks.all isBlank := by decide
  have wellFormed : ∀ l ∈ ls, l.WellFormed := fun l hl =>
    ⟨List.all_eq_true.1 (blank l hl), spelled l hl⟩
  have trailing : ∀ c ∈ [' '], isBlank c := List.all_eq_true.1 rfl
  have apart : ls.IsChain Lexeme.Apart := by decide
  have joined := (tokenize_lexemes_iff.2 ls [' '] wellFormed trailing).2 apart
  refine ⟨wellFormed, joined, ?_⟩
  have touching : ∀ l ∈ [word, ⟨[], ['1', '0'], .lit .number "10"⟩], l.WellFormed := by
    simp only [List.forall_mem_cons, List.not_mem_nil, false_imp_iff, implies_true, and_true]
    exact ⟨wellFormed word List.mem_cons_self, ⟨List.forall_mem_nil _, .number rfl⟩⟩
  have merged := tokenize_lexemes_iff.2 _ [] touching (List.forall_mem_nil _)
  exact mt merged.1 (by decide)

end RelationalAlgebra
