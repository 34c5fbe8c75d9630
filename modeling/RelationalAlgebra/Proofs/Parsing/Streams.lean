import RelationalAlgebra.Proofs.Parsing.Location

/-!
# What the parser makes of a stream

A text is parsed by its stream alone. The failure of a stream is reported exactly when the tokens in
front of it begin a sentence. If they do not, a token is refused, and it is the same one whatever
comes behind the tokens (`TokenStream.parse_cases`). So the parser does not tell streams of the same
tokens apart but by their failures.
-/
namespace RelationalAlgebra

namespace Parser
variable {p p' : Parser} {f : Option LexError} {ts : List Token}

theorem exists_ofStream (hts : ∀ t ∈ ts, t.kind ≠ .eof) :
    ∃ p, ofStream ⟨ts, none⟩ = .ok p ∧ p.Faces none ts := by
  rcases ofStream_cases (s := ⟨ts, none⟩) hts with h | ⟨_, _, hfailure⟩
  · exact h
  · cases hfailure

theorem expression_of_refused {x : ParseError} (hp : p.Faces f ts)
    (h : p.expression.1 = .error (.parse x)) (hp' : p'.Faces none ts) :
    p'.expression.1 = .error (.parse x) := by
  obtain ⟨q, hq⟩ : ∃ q, p.expression = (.error (.parse x), q) := ⟨p.expression.2, Prod.ext h rfl⟩
  -- The level stops in front of one and the same token at both parsers.
  have hsame : ∀ r, (level .union p).outcome = (r, q) → (∀ e, r ≠ .error (.lex e)) →
      ∃ q', (level .union p').outcome = (r, q') ∧ q'.kind = q.kind := by
    intro r ho hr
    obtain ⟨w, us, rfl, hus, hlocal⟩ := local_level .union p f ts r q hp ho hr
    obtain ⟨q', ho', hus'⟩ := hlocal p' us hp' rfl
    exact ⟨q', ho', by rw [hus.kind_eq, hus'.kind_eq]⟩
  rcases expression_eq_error hp hq with ho | ⟨a, ho, hkind, hx⟩
  · obtain ⟨q', ho', _⟩ := hsame _ ho (by simp)
    unfold expression
    rw [ho']
  · obtain ⟨q', ho', hk⟩ := hsame _ ho (by simp)
    unfold expression
    rw [ho', hx, ← hk]
    rw [← hk] at hkind
    simp [accept, hkind]

end Parser

namespace TokenStream
variable {ts : List Token}

/-- A stream with a failure is read to it, or a token in front of it is refused. -/
theorem parse_of_failure (hts : ∀ t ∈ ts, t.kind ≠ .eof) (e : LexError) :
    parse ⟨ts, some e⟩ = .error (.lex e) ∧ Grammar.Viable ts ∨
      ¬Grammar.Viable ts ∧ ∃ x, parse ⟨ts, some e⟩ = .error (.parse x) ∧
        parse ⟨ts, none⟩ = .error (.parse x) := by
  rcases Parser.ofStream_cases (s := ⟨ts, some e⟩) hts with ⟨p, hp, hfaces⟩ | ⟨e', he, hfailure⟩
  · cases hq : p.expression with
    | mk result q =>
      rw [parse_of_ofStream hp, hq]
      cases result with
      | ok a =>
        have hnone := ((Parser.expression_eq_ok_iff hfaces a).1 (congrArg Prod.fst hq)).1
        cases hnone
      | error error =>
        rcases Parser.expression_error_cases hfaces hq with
          ⟨_, rfl, hfailure, hviable⟩ | ⟨x, w, us, rfl, htokens, hus, _, hrefused⟩
        · cases hfailure
          exact .inl ⟨rfl, hviable⟩
        · have hviable := hus.not_viable hrefused
          rw [← htokens] at hviable
          refine .inr ⟨hviable, x, rfl, ?_⟩
          obtain ⟨p', hp', hfaces'⟩ := Parser.exists_ofStream hts
          rw [parse_of_ofStream hp']
          exact Parser.expression_of_refused hfaces (congrArg Prod.fst hq) hfaces'
  · cases hfailure
    have htokens := Parser.tokens_eq_nil_of_ofStream he
    left
    constructor
    · rw [parse, he]
    · rw [show ts = [] from htokens]
      exact Grammar.viable_nil

/-- A stream whose tokens begin a sentence is read up to its failure. In any other stream a token is
refused, the same one whatever comes behind the tokens. -/
theorem parse_cases (hts : ∀ t ∈ ts, t.kind ≠ .eof) :
    (∀ e, parse ⟨ts, some e⟩ = .error (.lex e)) ∨ ∃ x, ∀ f, parse ⟨ts, f⟩ = .error (.parse x) := by
  by_cases hviable : Grammar.Viable ts
  · left
    intro e
    rcases parse_of_failure hts e with ⟨hlex, _⟩ | ⟨hnot, _⟩
    · exact hlex
    · exact absurd hviable hnot
  · -- Streams with different failures are compared through the one without any.
    have hrefused : ∀ e, ∃ x, parse ⟨ts, some e⟩ = .error (.parse x) ∧
        parse ⟨ts, none⟩ = .error (.parse x) := by
      intro e
      rcases parse_of_failure hts e with ⟨_, hv⟩ | ⟨_, hx⟩
      · exact absurd hv hviable
      · exact hx
    obtain ⟨x, _, hnone⟩ := hrefused (.unclosedString 0)
    right
    use x
    intro f
    cases f with
    | none => exact hnone
    | some e =>
      obtain ⟨x', hsome, hnone'⟩ := hrefused e
      rw [hsome, ← hnone', hnone]

theorem parse_ne_lex (hts : ∀ t ∈ ts, t.kind ≠ .eof) (e : LexError) :
    parse ⟨ts, none⟩ ≠ .error (.lex e) := by
  intro h
  obtain ⟨p, hp, hfaces⟩ := Parser.exists_ofStream hts
  rw [parse_of_ofStream hp] at h
  have hq : p.expression = (.error (.lex e), p.expression.2) := Prod.ext h rfl
  rcases Parser.expression_error_cases hfaces hq with ⟨_, _, hfailure, _⟩ | ⟨_, _, _, hx, _⟩
  · cases hfailure
  · cases hx

end TokenStream

end RelationalAlgebra
