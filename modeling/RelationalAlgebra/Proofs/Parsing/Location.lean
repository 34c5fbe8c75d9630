import RelationalAlgebra.Proofs.Parsing
import RelationalAlgebra.Proofs.Parsing.Locality
import RelationalAlgebra.Proofs.Parsing.Viability

/-!
# Where parsing fails

A sentence is an expression with the end of the text behind it. A text that is not parsed is given
up at the first token that no sentence allows there: what stands before it begins a sentence, and
with it nothing does. Text that is not made of tokens is reported only when all tokens before it
begin a sentence. That the tokens before begin a sentence comes from `Parser.breaks_level`; that no
sentence goes on with the token at hand, from `Parser.local_level`, since the parser would refuse it
in that sentence as well.
-/
namespace RelationalAlgebra

open Grammar

namespace Grammar
variable {u v w : List Token}

/-- The tokens begin a sentence. -/
def Viable (w : List Token) : Prop := ∃ v e, Derives .union v e ∧ w <+: v ++ [.eof]

theorem Viable.of_prefix (h : Viable w) (hu : u <+: w) : Viable u := by
  obtain ⟨v, e, hv, hw⟩ := h
  exact ⟨v, e, hv, hu.trans hw⟩

theorem viable_of_phrase (h : Phrase .union (w ++ v)) : Viable w := by
  obtain ⟨e, he⟩ := h
  exact ⟨w ++ v, e, he, by simp⟩

theorem viable_nil : Viable [] := by
  obtain ⟨w, hw⟩ := exists_phrase .union
  exact viable_of_phrase hw

end Grammar

namespace Parser
variable {p q : Parser} {f : Option LexError} {ts us w : List Token}

theorem tokens_eq_nil_of_ofStream {s : TokenStream} {e : LexError} (h : ofStream s = .error e) :
    s.tokens = [] := by
  obtain ⟨_ | ⟨t, tokens⟩, failure⟩ := s
  · rfl
  · cases h

/-- An expression fails within its outermost level, or in front of a token behind that level. -/
theorem expression_eq_error {e : Error} (hp : p.Faces f ts) (h : p.expression = (.error e, q)) :
    (level .union p).outcome = (.error e, q) ∨
      ∃ a, (level .union p).outcome = (.ok a, q) ∧ q.kind ≠ .eof ∧
        e = .parse (.mismatch .eof q.kind) := by
  unfold expression at h
  cases ho : (level .union p).outcome with
  | mk result r =>
    rw [ho] at h
    cases result with
    | error x =>
      cases h
      exact .inl rfl
    | ok a =>
      obtain ⟨w, us, rfl, _, hr⟩ := reads_level .union p f ts a r hp ho
      by_cases hk : r.kind = .eof
      · obtain ⟨rfl, rfl⟩ := hr.eq_nil_of_kind hk
        obtain ⟨_, rfl⟩ := hr
        cases h
      · simp only [accept, if_neg hk] at h
        cases h
        exact .inr ⟨a, rfl, hk, rfl⟩

theorem viable_of_expression_eq_error {e : Error} (hp : p.Faces f ts)
    (h : p.expression = (.error e, q)) :
    ∃ w us, ts = w ++ us ∧ Viable w ∧ q.FailsAt f us e := by
  rcases expression_eq_error hp h with ho | ⟨a, ho, _, rfl⟩
  · obtain ⟨w, us, hts, ⟨v, hv⟩, hq⟩ := breaks_level .union p f ts e q hp ho
    exact ⟨w, us, hts, viable_of_phrase hv, hq⟩
  · obtain ⟨w, us, hts, hw, hq⟩ := reads_level .union p f ts a q hp ho
    have hphrase : Phrase .union (w ++ []) := ⟨a, by rwa [List.append_nil]⟩
    exact ⟨w, us, hts, viable_of_phrase hphrase, .parse hq⟩

/-- A sentence that begins with `w` and the token in front of `q` goes on behind `w` with the token
that `us` goes on with. -/
theorem Faces.exists_of_prefix {v : List Token} (hq : q.Faces f us) (hv : ∀ t ∈ v, t.kind ≠ .eof)
    (h : w ++ [q.lookahead] <+: v ++ [.eof]) : ∃ us', v = w ++ us' ∧ us'.head? = us.head? := by
  rcases List.prefix_concat_iff.1 h with heq | ⟨vs, rfl⟩
  · obtain ⟨rfl, hlookahead⟩ := List.append_inj' heq rfl
    have hkind : q.kind = .eof := by
      rw [kind, List.singleton_inj.1 hlookahead]
      rfl
    obtain ⟨rfl, _⟩ := hq.eq_nil_of_kind hkind
    exact ⟨[], by simp, rfl⟩
  · refine ⟨q.lookahead :: vs, by simp, ?_⟩
    cases us with
    | nil =>
      obtain ⟨_, rfl⟩ := hq
      exact absurd rfl (hv .eof (by simp))
    | cons t ts =>
      obtain ⟨_, rfl⟩ := hq
      rfl

/-- No sentence allows the token that is refused behind the tokens that have been taken. -/
theorem not_viable_of_expression_eq_error {e : ParseError} (hp : p.Faces f (w ++ us))
    (h : p.expression = (.error (.parse e), q)) (hq : q.Faces f us) :
    ¬Viable (w ++ [q.lookahead]) := by
  rintro ⟨v, a, hv, hprefix⟩
  obtain ⟨us', rfl, hus⟩ := hq.exists_of_prefix hv.kind_ne_eof hprefix
  obtain ⟨p', hp'⟩ := exists_faces hv.kind_ne_eof
  obtain ⟨q', hstops, hend⟩ := hv.stops hp'
  -- Whatever the level did at `p`, it does in the sentence, too.
  have hsame : ∀ r, (level .union p).outcome = (r, q) → (∀ e, r ≠ .error (.lex e)) →
      ∃ q', (level .union p').outcome = (r, q') ∧ q'.Faces none us' := by
    intro r ho hr
    obtain ⟨u, vs, hts, hvs, hlocal⟩ := local_level .union p f (w ++ us) r q hp ho hr
    cases hq.unique hvs
    cases List.append_cancel_right hts
    exact hlocal p' us' hp' hus
  rcases expression_eq_error hp h with ho | ⟨b, ho, hkind, _⟩
  · obtain ⟨_, hfails, _⟩ := hsame _ ho (by simp)
    rw [hstops] at hfails
    cases hfails
  · obtain ⟨r, hr, hfaces⟩ := hsame _ ho (by simp)
    cases hstops.symm.trans hr
    cases hend.unique hfaces
    have hnil : us = [] := List.head?_eq_none_iff.1 hus.symm
    subst hnil
    obtain ⟨_, rfl⟩ := hq
    exact hkind rfl

/-- A parser that fails has come to the failure of reading, with all tokens taken, or it refuses a
token. -/
theorem expression_error_cases {error : Error} (hp : p.Faces f ts)
    (h : p.expression = (.error error, q)) :
    (∃ e, error = .lex e ∧ f = some e ∧ Viable ts) ∨
      ∃ e w us, error = .parse e ∧ ts = w ++ us ∧ q.Faces f us ∧ Viable w ∧
        ¬Viable (w ++ [q.lookahead]) := by
  obtain ⟨w, us, rfl, hviable, hfails⟩ := viable_of_expression_eq_error hp h
  cases hfails with
  | @parse us e hq =>
    exact .inr ⟨e, w, us, rfl, rfl, hq, hviable, not_viable_of_expression_eq_error hp h hq⟩
  | @lex e he => exact .inl ⟨e, rfl, he, by rwa [List.append_nil]⟩

/-- A refused token stands before the place where reading fails, so the tokens up to there do not
begin a sentence. -/
theorem Faces.not_viable {e : LexError} (hq : q.Faces (some e) us)
    (h : ¬Viable (w ++ [q.lookahead])) : ¬Viable (w ++ us) := by
  intro hviable
  apply h
  cases us with
  | nil => cases hq.1
  | cons t us =>
    obtain ⟨_, rfl⟩ := hq
    exact hviable.of_prefix ⟨us, by simp⟩

end Parser

/-- A text that is not parsed fails with the reader's error exactly when the tokens in front of it
begin a sentence. Otherwise a token is refused: the tokens in front of this one begin a sentence,
and together with it they do not. -/
theorem parse_error_location {text : String} {error : Error}
    (h : Expression.parse text = .error error) :
    (∀ e, error = .lex e ↔
      (TokenStream.ofText text).failure = some e ∧ Viable (TokenStream.ofText text).tokens) ∧
    ((∀ e, error ≠ .lex e) → ∃ e p q consumed coming, error = .parse e ∧
      Parser.ofText text = .ok p ∧ p.expression = (.error error, q) ∧
      (TokenStream.ofText text).tokens = consumed ++ coming ∧
      q.Faces (TokenStream.ofText text).failure coming ∧
      Viable consumed ∧ ¬Viable (consumed ++ [q.lookahead])) := by
  simp only [Expression.parse, Expression.read] at h
  rcases Parser.ofStream_cases (TokenStream.kind_ne_eof text) with
    ⟨p, hp, hfaces⟩ | ⟨x, hx, hfailure⟩
  · rw [hp] at h
    obtain ⟨q, hq⟩ : ∃ q, p.expression = (.error error, q) := ⟨p.expression.2, Prod.ext h rfl⟩
    rcases Parser.expression_error_cases hfaces hq with
      ⟨e, rfl, hfailure, hviable⟩ | ⟨e, w, us, rfl, htokens, hus, hviable, hrefused⟩
    · refine ⟨?_, fun hlex => absurd rfl (hlex e)⟩
      intro e'
      simp [hfailure, hviable]
    · refine ⟨?_, fun _ => ⟨e, p, q, w, us, rfl, hp, hq, htokens, hus, hviable, hrefused⟩⟩
      intro e'
      refine ⟨fun hlex => (by cases hlex), ?_⟩
      rintro ⟨hfailure, hall⟩
      rw [hfailure] at hus
      rw [htokens] at hall
      exact absurd hall (hus.not_viable hrefused)
  · rw [hx] at h
    cases h
    refine ⟨?_, fun hlex => absurd rfl (hlex x)⟩
    intro e
    simp [hfailure, Parser.tokens_eq_nil_of_ofStream hx, viable_nil]

/-- A token that no sentence allows is reported even if the text behind it cannot be read. -/
theorem parse_error_location_of_unread_text :
    Expression.parse "r s $" = .error (.parse (.mismatch .eof .word)) ∧
      (TokenStream.ofText "r s $").failure = some (.invalidCharacter '$' 4) ∧
      ¬Viable [.lit .word "r", .lit .word "s"] := by
  have hstream : TokenStream.ofText "r s $" =
    ⟨[.lit .word "r", .lit .word "s"], some (.invalidCharacter '$' 4)⟩ := by decide +kernel
  have hparse : Expression.parse "r s $" = .error (.parse (.mismatch .eof .word)) := by
    rw [Expression.parse_eq, hstream]
    cbv
  obtain ⟨hlex, _⟩ := parse_error_location hparse
  rw [hstream] at hlex ⊢
  refine ⟨hparse, rfl, ?_⟩
  intro hviable
  cases (hlex _).2 ⟨rfl, hviable⟩

end RelationalAlgebra
