import RelationalAlgebra.Proofs.Parsing.Completeness

/-!
# The parser looks one token ahead

What a production does depends on the tokens that it takes and on the one in front of which it
stops, and on nothing behind them (`Parsed.Local`). So a production that refuses a token refuses it
in every other text that begins in the same way up to this token.
-/
namespace RelationalAlgebra

open Expression (branch leaf node)

variable {α β : Type}

namespace Parser
variable {p q : Parser} {f g : Option LexError} {ts us vs w : List Token}

theorem Faces.lookahead_congr (hp : p.Faces f (w ++ us)) (hq : q.Faces g (w ++ vs))
    (h : vs.head? = us.head?) : q.lookahead = p.lookahead := by
  rw [hp.lookahead_eq, hq.lookahead_eq, List.head?_append, List.head?_append, h]

theorem exists_lex_of_advance {e : Error} (h : p.advance = (.error e, q)) : ∃ e', e = .lex e' := by
  unfold advance at h
  split at h
  · cases h
  · cases h
    exact ⟨_, rfl⟩

end Parser

namespace Parsed
variable {p : Parser} {takes : Bool} {x y : (p : Parser) → Parsed p takes α}

/-- Unless reading fails, a production does at `p` what it does at every parser that has the same
tokens to come up to the one in front of which it stops. -/
def Local (x : (p : Parser) → Parsed p takes α) (p : Parser) : Prop :=
  ∀ f ts r q, p.Faces f ts → (x p).outcome = (r, q) → (∀ e, r ≠ .error (.lex e)) →
    ∃ w us, ts = w ++ us ∧ q.Faces f us ∧ ∀ (p' : Parser) us', p'.Faces none (w ++ us') →
      us'.head? = us.head? → ∃ q', (x p').outcome = (r, q') ∧ q'.Faces none us'

theorem Local.congr (hy : Local y p)
    (h : ∀ p' : Parser, p'.lookahead = p.lookahead → (x p').outcome = (y p').outcome) :
    Local x p := by
  intro f ts r q hp ho hr
  rw [h p rfl] at ho
  obtain ⟨w, us, rfl, hq, hlocal⟩ := hy f ts r q hp ho hr
  refine ⟨w, us, rfl, hq, ?_⟩
  intro p' us' hp' hus
  rw [h p' (hp.lookahead_congr hp' hus)]
  exact hlocal p' us' hp' hus

/-- The kind of the token at hand decides which production goes on. -/
theorem Local.of_kind {k : Kind} (hk : p.kind = k) (h : ∀ p' : Parser, p'.kind = k → x p' = y p')
    (hy : Local y p) : Local x p := by
  apply hy.congr
  intro p' hp'
  rw [h p' ((congrArg Token.kind hp').trans hk)]

theorem Local.ite {k : Kind} (hx : Local x p) (hy : Local y p) :
    Local (fun p => if p.kind = k then x p else y p) p := by
  by_cases hk : p.kind = k
  · exact hx.of_kind hk fun p' hk' => if_pos hk'
  · apply hy.congr
    intro p' hp'
    have hk' : p'.kind ≠ k := fun hk' => hk ((congrArg Token.kind hp').symm.trans hk')
    rw [if_neg hk']

theorem local_of_stays {r : Except Error α}
    (h : ∀ p' : Parser, p'.lookahead = p.lookahead → (x p').outcome = (r, p')) : Local x p := by
  intro f ts r' q hp ho _
  cases (h p rfl).symm.trans ho
  refine ⟨[], ts, rfl, hp, ?_⟩
  intro p' us' hp' hus
  exact ⟨p', h p' (hp.lookahead_congr (w := []) hp' hus), hp'⟩

theorem local_pure (a : α) (p : Parser) :
    Local (fun p => (Parsed.pure a : Parsed p false α)) p :=
  local_of_stays fun _ _ => rfl

theorem Local.relax {x : (p : Parser) → Parsed p true α} (hx : Local x p) :
    Local (fun p => (x p).relax) p := by
  intro f ts r q hp ho hr
  simp only [outcome_relax] at ho ⊢
  exact hx f ts r q hp ho hr

theorem Local.map (hx : Local x p) (g : α → β) : Local (fun p => (x p).map g) p := by
  intro f ts r q hp ho hr
  simp only [outcome_map] at ho ⊢
  cases hxo : (x p).outcome with
  | mk result q =>
    rw [hxo] at ho
    cases ho
    have hlex : ∀ e, result ≠ .error (.lex e) := by
      rintro e rfl
      exact hr e rfl
    obtain ⟨w, us, rfl, hq, hlocal⟩ := hx f ts result q hp hxo hlex
    refine ⟨w, us, rfl, hq, ?_⟩
    intro p' us' hp' hus
    obtain ⟨q', ho', hq'⟩ := hlocal p' us' hp' hus
    exact ⟨q', by rw [ho'], hq'⟩

/-- A sequence stops where its second part stops, so its first part stops in front of the same
token in both texts. -/
theorem Local.andThen {x : (p : Parser) → Parsed p true α}
    {next : α → (p : Parser) → Parsed p takes β} (hx : Local x p)
    (hn : ∀ a q, q.remaining < p.remaining → Local (next a) q) :
    Local (fun p => (x p).andThen fun a q _ => next a q) p := by
  intro f ts r s hp ho hr
  cases hxo : (x p).outcome with
  | mk result q =>
    cases result with
    | error e =>
      have hre : r = .error e ∧ s = q := by
        rw [outcome_andThen_of_error hxo] at ho
        cases ho
        exact ⟨rfl, rfl⟩
      obtain ⟨rfl, rfl⟩ := hre
      obtain ⟨w, us, rfl, hq, hlocal⟩ := hx f ts _ _ hp hxo (by simpa using hr)
      refine ⟨w, us, rfl, hq, ?_⟩
      intro p' us' hp' hus
      obtain ⟨q', ho', hq'⟩ := hlocal p' us' hp' hus
      exact ⟨q', outcome_andThen_of_error ho' _, hq'⟩
    | ok a =>
      obtain ⟨lt, hno⟩ := outcome_andThen_of_ok hxo fun a q _ => next a q
      obtain ⟨u, us, rfl, hq, hfirst⟩ := hx f ts _ _ hp hxo (by simp)
      obtain ⟨v, vs, rfl, hs, hsecond⟩ := hn a q lt f us r s hq (hno.symm.trans ho) hr
      refine ⟨u ++ v, vs, by rw [List.append_assoc], hs, ?_⟩
      intro p' vs' hp' hvs
      rw [List.append_assoc] at hp'
      have hhead : (v ++ vs').head? = (v ++ vs).head? := by
        rw [List.head?_append, List.head?_append, hvs]
      obtain ⟨q', ho', hq'⟩ := hfirst p' (v ++ vs') hp' hhead
      obtain ⟨s', hs', hfaces⟩ := hsecond q' vs' hq' hvs
      obtain ⟨_, hno'⟩ := outcome_andThen_of_ok ho' fun a q _ => next a q
      exact ⟨s', hno'.trans hs', hfaces⟩

theorem outcome_token (p : Parser) (k : Kind) (h : k ≠ .eof) :
    (token p k h).outcome = p.accept k := by
  unfold token Parser.accept
  split
  · rw [outcome_take]
  · rfl

theorem take_eq_token {k : Kind} (hk : p.kind = k) (hp : p.kind ≠ .eof) (h : k ≠ .eof) :
    take p hp = token p k h := by
  rw [token, dif_pos hk]

theorem local_token (p : Parser) (k : Kind) (h : k ≠ .eof) :
    Local (fun p => token p k h) p := by
  by_cases hk : p.kind = k
  · intro f ts r q hp ho hr
    rw [outcome_token, Parser.accept, if_pos hk] at ho
    cases r with
    | error e =>
      obtain ⟨e', rfl⟩ := Parser.exists_lex_of_advance ho
      exact absurd rfl (hr e')
    | ok t =>
      obtain ⟨us, rfl, hq⟩ := hp.of_advance (hk ▸ h) ho
      refine ⟨[t], us, rfl, hq, ?_⟩
      intro p' us' hp' hus
      exact stops_token hp' (fun _ => rfl) (hp.kind_eq.symm.trans hk) h
  · apply local_of_stays (r := .error (.parse (.mismatch k p.kind)))
    intro p' hp'
    have hkind : p'.kind = p.kind := congrArg Token.kind hp'
    rw [outcome_token, Parser.accept, hkind, if_neg hk]

end Parsed

namespace Parser
open Parsed

/-! ### Attributes and comparisons -/

theorem local_number (p : Parser) : Local number p := by
  apply Local.ite
  · apply (local_token p _ _).andThen
    intro sign q _
    exact (local_token q _ _).map _
  · exact (local_token p _ _).map _

theorem local_reference (p : Parser) : Local reference p := by
  apply (local_token p _ _).andThen
  intro first q _
  apply Local.ite
  · apply Local.relax
    apply (local_token q _ _).andThen
    intro dot r _
    exact (local_token r _ _).map _
  · exact local_pure _ _

theorem local_moreReferences (list : List Expression) (p : Parser) :
    Local (moreReferences list) p := by
  induction list, p using moreReferences.induct with
  | case1 list p hk ih =>
    refine Local.of_kind hk (fun p' hk' => by rw [moreReferences, if_pos hk']) ?_
    apply Local.relax
    apply (local_token p _ _).andThen
    intro comma q hq
    apply (local_reference q).andThen
    intro next r hr
    exact ih q hq next r hr
  | case2 list p hk =>
    apply local_of_stays (r := .ok (branch .list list))
    intro p' hp'
    have hk' : p'.kind ≠ .comma := by rwa [kind, hp']
    rw [moreReferences, if_neg hk']
    rfl

theorem local_references (p : Parser) : Local references p := by
  apply (local_reference p).andThen
  intro first q _
  exact local_moreReferences [first] q

theorem local_comparable (p : Parser) : Local comparable p := by
  cases hk : p.kind with
  | word => exact (local_reference p).of_kind hk fun p' hk' => by rw [comparable, hk']
  | number | minus => exact (local_number p).of_kind hk fun p' hk' => by rw [comparable, hk']
  | string =>
    refine Local.of_kind hk (fun p' hk' => by rw [comparable, hk']) ?_
    exact (local_token p _ _).map _
  | _ =>
    apply local_of_stays (r := .error (.parse (.expected .comparable p.lookahead)))
    intro p' hp'
    rw [comparable, kind, hp', ← kind, hk]
    rfl

theorem local_comparisonOperator (p : Parser) : Local comparisonOperator p := by
  by_cases hk : p.kind.isComparison
  · have hne : p.kind ≠ .eof := by
      intro he
      rw [he] at hk
      cases hk
    refine Local.of_kind rfl (fun p' hk' => ?_) ((local_token p p.kind hne).map single)
    rw [comparisonOperator, dif_pos (hk' ▸ hk), take_eq_token hk']
  · apply local_of_stays (r := .error (.parse (.expected .comparisonOperator p.lookahead)))
    intro p' hp'
    have hk' : ¬p'.kind.isComparison := by rwa [kind, hp']
    rw [comparisonOperator, dif_neg hk', hp']
    rfl

theorem local_comparison (p : Parser) : Local comparison p := by
  apply (local_comparable p).andThen
  intro lhs q _
  apply (local_comparisonOperator q).andThen
  intro op r _
  exact (local_comparable r).map _

/-! ### Levels -/

theorem local_chain {p : Parser} {l m : Level} {ops : List Kind} (hl : Grammar.Chain l ops m)
    (hfirst : Local (level m) p)
    (hmore : ∀ first q, q.remaining < p.remaining → Local (moreOperands l first) q) :
    Local (level l) p := by
  apply (hfirst.andThen hmore).congr
  intro p' _
  rw [level_eq_of_chain hl]

theorem local_enclosed {p : Parser} {l : Level} (g : Expression → Expression)
    (h : ∀ q, q.remaining < p.remaining → Local (level l) q) :
    Local (fun p => (Parsed.token p .openParen).andThen fun _ p _ =>
      (level l p).andThen fun body p _ =>
        (Parsed.token p .closeParen).map fun _ => g body) p := by
  apply (local_token p _ _).andThen
  intro opening q hq
  apply (h q hq).andThen
  intro body r _
  exact (local_token r _ _).map _

theorem local_level (l : Level) (p : Parser) : Local (level l) p := by
  refine (level.mutual_induct (fun l p => Local (level l) p)
    (fun l lhs p => Local (moreOperands l lhs) p) (fun p => Local operand p)
    (fun p => Local relation p) (fun p => Local parenthesized p)
    ?levelRelation ?levelOperand ?product ?join ?difference ?union ?conjunction ?disjunction
    ?more ?stop ?not ?group ?word ?number ?minus ?string ?noOperand ?project ?select ?rename
    ?grouped ?stored ?noRelation ?parenthesized).1 l p
  case levelRelation => intro p h; exact h.congr fun p' _ => by rw [level]
  case levelOperand => intro p h; exact h.congr fun p' _ => by rw [level]
  case product => intro p first more; exact local_chain .product first more
  case join => intro p first more; exact local_chain .join first more
  case difference => intro p first more; exact local_chain .difference first more
  case union => intro p first more; exact local_chain .union first more
  case conjunction => intro p first more; exact local_chain .conjunction first more
  case disjunction => intro p first more; exact local_chain .disjunction first more
  case more =>
    intro l lhs p hk inner more
    have hne : p.kind ≠ .eof := Level.ne_eof_of_mem_operators hk
    refine Local.of_kind rfl (fun p' hk' => by
      rw [moreOperands, dif_pos (hk' ▸ hk), take_eq_token hk' _ hne]) ?_
    apply Local.relax
    apply (local_token p _ _).andThen
    intro op q hq
    apply (inner q hq).andThen
    intro rhs r hr
    exact more op q hq rhs r hr
  case stop =>
    intro l lhs p hk
    apply local_of_stays (r := .ok lhs)
    intro p' hp'
    exact moreOperands_of_not_mem lhs (by rwa [kind, hp'])
  case not =>
    intro p hk h
    refine Local.of_kind hk (fun p' hk' => by rw [operand, hk']) ?_
    apply (local_token p _ _).andThen
    intro op q hq
    exact local_enclosed _ (h q hq)
  case group =>
    intro p hk h
    refine Local.of_kind hk (fun p' hk' => by rw [operand, hk']) ?_
    exact local_enclosed id h
  case word | number | minus | string =>
    intro p hk
    exact (local_comparison p).of_kind hk fun p' hk' => by rw [operand, hk']
  case noOperand =>
    intro p h₁ h₂ h₃ h₄ h₅ h₆
    apply local_of_stays (r := .error (.parse (.expected .operand p.lookahead)))
    intro p' hp'
    rw [operand, kind, hp', ← kind]
    split <;> first | contradiction | rfl
  case project =>
    intro p hk h
    refine Local.of_kind hk (fun p' hk' => by rw [relation, hk']) ?_
    apply (local_token p _ _).andThen
    intro op q hq
    apply (local_references q).andThen
    intro list r hr
    exact (h q hq r hr).map _
  case select =>
    intro p hk hp h
    refine Local.of_kind hk (fun p' hk' => by rw [relation, hk']) ?_
    apply (local_token p _ _).andThen
    intro op q hq
    apply (hp q hq).andThen
    intro condition r hr
    exact (h q hq r hr).map _
  case rename =>
    intro p hk hlist h
    refine Local.of_kind hk (fun p' hk' => by rw [relation, hk']) ?_
    apply (local_token p _ _).andThen
    intro op q hq
    apply (local_reference q).andThen
    intro target r hr
    apply Local.ite
    · apply (local_token r _ _).andThen
      intro left s hs
      apply (local_references s).andThen
      intro list t ht
      apply (local_token t _ _).andThen
      intro right u hu
      exact (hlist q hq r hr s hs t ht u hu).map _
    · exact (h q hq r hr).map _
  case grouped =>
    intro p hk h
    exact h.of_kind hk fun p' hk' => by rw [relation, hk']
  case stored =>
    intro p hk
    refine Local.of_kind hk (fun p' hk' => by rw [relation, hk']) ?_
    exact (local_token p _ _).map _
  case noRelation =>
    intro p h₁ h₂ h₃ h₄ h₅
    apply local_of_stays (r := .error (.parse (.expected .relation p.lookahead)))
    intro p' hp'
    rw [relation, kind, hp', ← kind]
    split <;> first | contradiction | rfl
  case parenthesized =>
    intro p h
    refine Local.congr ?_ (fun p' _ => by rw [parenthesized])
    exact local_enclosed id h

end Parser
end RelationalAlgebra
