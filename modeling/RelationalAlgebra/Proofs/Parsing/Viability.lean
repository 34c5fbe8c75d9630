import RelationalAlgebra.Proofs.Parsing.Soundness

/-!
# A parser that fails has read the beginning of a phrase

A production takes a token only where the grammar allows it. So when it fails, the tokens that it
has taken can be completed to a phrase (`Parsed.Breaks`). It fails in front of the next token, or
while it reads on behind the last one, and then that one was taken, too. The completions come from
the grammar: every production of it has a phrase.
-/
namespace RelationalAlgebra

open Expression (branch leaf node)

variable {α β : Type}

/-! ### Every production has a phrase -/

namespace Grammar

def Phrase (l : Level) (w : List Token) : Prop := ∃ e, Derives l w e

theorem attribute_word (name : String) : Attribute [.lit .word name] (leaf .word name) :=
  .bare rfl

theorem comparison_words (op : Kind) (ho : op ∈ comparisonOperators) :
    Comparison [.lit .word "a", .bare op, .lit .word "b"]
      (node (some (.bare op)) [leaf .word "a", leaf .word "b"]) :=
  .compare (v := [_]) (.named (attribute_word "a")) ho (.named (attribute_word "b"))

theorem exists_phrase (l : Level) : ∃ w, Phrase l w := by
  have relation : Derives .relation [.lit .word "r"] (leaf .relation "r") := .stored rfl
  have product := Derives.first .product relation
  have join := Derives.first .join product
  have difference := Derives.first .difference join
  have operand := Derives.comparison (comparison_words .equal (by decide))
  have conjunction := Derives.first .conjunction operand
  cases l with
  | relation => exact ⟨_, _, relation⟩
  | product => exact ⟨_, _, product⟩
  | join => exact ⟨_, _, join⟩
  | difference => exact ⟨_, _, difference⟩
  | union => exact ⟨_, _, .first .union difference⟩
  | operand => exact ⟨_, _, operand⟩
  | conjunction => exact ⟨_, _, conjunction⟩
  | disjunction => exact ⟨_, _, .first .disjunction conjunction⟩

theorem enclosed_bare (v : List Token) :
    Enclosed v (.bare .openParen :: (v ++ [.bare .closeParen])) := .intro rfl rfl

end Grammar

/-- How a production fails that leaves the tokens `us` in front of it: it refuses the first of them,
or the end of the text, or there is none because reading fails. -/
inductive Parser.FailsAt (q : Parser) (f : Option LexError) : List Token → Error → Prop
  | parse {us e} (h : q.Faces f us) : FailsAt q f us (.parse e)
  | lex {e} (h : f = some e) : FailsAt q f [] (.lex e)

namespace Parsed
variable {p q : Parser} {takes : Bool} {a : α} {b : β} {D : List Token → α → Prop}
variable {E E' : List Token → Prop}

/-- Where a production fails, what it has taken begins a phrase. -/
def Breaks (x : Parsed p takes α) (phrase : List Token → Prop) : Prop :=
  ∀ f ts e q, p.Faces f ts → x.outcome = (.error e, q) →
    ∃ w us, ts = w ++ us ∧ (∃ v, phrase (w ++ v)) ∧ q.FailsAt f us e

theorem Breaks.extend {x : Parsed p takes α} (hx : x.Breaks E)
    (h : ∀ w, E w → ∃ v, E' (w ++ v)) : x.Breaks E' := by
  intro f ts e q hp ho
  obtain ⟨w, us, hts, ⟨v, hv⟩, hq⟩ := hx f ts e q hp ho
  obtain ⟨v', hv'⟩ := h (w ++ v) hv
  exact ⟨w, us, hts, ⟨v ++ v', by rwa [← List.append_assoc]⟩, hq⟩

theorem Breaks.mono {x : Parsed p takes α} (hx : x.Breaks E) (h : ∀ w, E w → E' w) :
    x.Breaks E' :=
  hx.extend fun w hw => ⟨[], by rw [List.append_nil]; exact h w hw⟩

theorem Breaks.relax {x : Parsed p true α} (hx : x.Breaks E) : x.relax.Breaks E := by
  intro f ts e q hp ho
  exact hx f ts e q hp (by rwa [outcome_relax] at ho)

theorem Breaks.ite {x y : Parsed p takes α} {c : Prop} [Decidable c] (hx : x.Breaks E)
    (hy : y.Breaks E) : (if c then x else y).Breaks E := by
  split
  · exact hx
  · exact hy

theorem Breaks.map {x : Parsed p takes α} (hx : x.Breaks E) (g : α → β) : (x.map g).Breaks E := by
  intro f ts e q hp ho
  apply hx f ts e q hp
  rw [outcome_map] at ho
  cases hr : x.outcome with
  | mk result rest =>
    rw [hr] at ho
    cases result with
    | ok a => cases ho
    | error e' =>
      cases ho
      rfl

/-- A sequence fails in its first part, or in the second behind what the first has read. -/
theorem Breaks.andThen {x : Parsed p true α}
    {next : α → (q : Parser) → q.remaining < p.remaining → Parsed q takes β} (hx : x.Breaks E)
    (hr : x.Reads D) (hn : ∀ a q lt, (next a q lt).Breaks fun v => ∀ u, D u a → E (u ++ v)) :
    (x.andThen next).Breaks E := by
  intro f ts e r hp ho
  rcases outcome_andThen_eq_error ho with ho | ⟨a, q, lt, hxo, hno⟩
  · exact hx f ts e r hp ho
  · obtain ⟨u, us, rfl, hu, hq⟩ := hr f ts a q hp hxo
    obtain ⟨w, vs, rfl, ⟨v, hv⟩, hr⟩ := hn a q lt f us e r hq hno
    refine ⟨u ++ w, vs, by rw [List.append_assoc], ⟨v, ?_⟩, hr⟩
    rw [List.append_assoc]
    exact hv u hu

theorem breaks_pure (a : α) : (Parsed.pure a : Parsed p false α).Breaks E := by
  intro f ts e q _ ho
  cases ho

theorem breaks_failed (e : ParseError) (h : ∃ w, E w) :
    (Parsed.failed (.parse e) p : Parsed p takes α).Breaks E := by
  intro f ts e' q hp ho
  cases ho
  exact ⟨[], ts, rfl, h, .parse hp⟩

theorem breaks_take (p : Parser) (h : p.kind ≠ .eof) :
    (take p h).Breaks fun w => ∃ t, w = [t] ∧ t.kind = p.kind := by
  intro f ts e q hp ho
  rw [outcome_take] at ho
  cases ts with
  | nil => exact absurd hp.kind_eq h
  | cons t ts =>
    have hkind := hp.kind_eq
    obtain ⟨_, rfl⟩ := hp
    cases ts with
    | cons u us => cases ho
    | nil =>
      cases f with
      | none => cases ho
      | some e' =>
        cases ho
        exact ⟨[t], [], rfl, ⟨[], t, rfl, hkind.symm⟩, .lex rfl⟩

theorem breaks_token (p : Parser) (k : Kind) (h : k ≠ .eof) :
    (token p k h).Breaks fun w => ∃ t, w = [t] ∧ t.kind = k := by
  unfold token
  split
  · rename_i hk
    apply (breaks_take p _).mono
    rintro w ⟨t, hw, ht⟩
    exact ⟨t, hw, ht.trans hk⟩
  · exact breaks_failed _ ⟨_, .bare k, rfl, rfl⟩

/-- A token is taken where it can be followed by the rest of a phrase. -/
theorem breaks_token_of (p : Parser) (k : Kind) (h : k ≠ .eof)
    (hE : ∀ t : Token, t.kind = k → ∃ v, E (t :: v)) : (token p k h).Breaks E := by
  apply (breaks_token p k h).extend
  rintro _ ⟨t, rfl, ht⟩
  exact hE t ht

end Parsed

namespace Parser
open Parsed Grammar

/-! ### Attributes and comparisons -/

theorem breaks_number (p : Parser) : (number p).Breaks fun w => ∃ e, Number w e := by
  unfold number
  split
  · apply Breaks.andThen _ (reads_token p _ _)
    · intro sign q _
      apply ((breaks_token q _ _).map _).mono
      rintro _ ⟨digits, rfl, hd⟩ _ ⟨rfl, hs⟩
      exact ⟨_, .negative hs hd⟩
    · apply breaks_token_of
      intro sign hs
      exact ⟨[.bare .number], _, .negative hs rfl⟩
  · apply ((breaks_token p _ _).map _).mono
    rintro _ ⟨digits, rfl, hd⟩
    exact ⟨_, .plain hd⟩

theorem breaks_reference (p : Parser) :
    (reference p).Breaks fun w => ∃ e, Grammar.Attribute w e := by
  unfold reference
  apply Breaks.andThen _ (reads_token p _ _)
  · intro first q _
    split
    · apply Breaks.relax
      apply Breaks.andThen _ (reads_token q _ _)
      · intro dot r _
        apply ((breaks_token r _ _).map _).mono
        rintro _ ⟨name, rfl, hn⟩ _ ⟨rfl, hd⟩ _ ⟨rfl, hq⟩
        exact ⟨_, .qualified hq hd hn⟩
      · apply breaks_token_of
        rintro dot hd
        refine ⟨[.bare .word], ?_⟩
        rintro _ ⟨rfl, hq⟩
        exact ⟨_, .qualified hq hd rfl⟩
    · exact breaks_pure _
  · apply breaks_token_of
    intro name hn
    exact ⟨[], _, .bare hn⟩

theorem breaks_moreReferences (list : List Expression) (p : Parser) :
    (moreReferences list p).Breaks fun w => ∀ v, Attributes v list →
      ∃ es, Attributes (v ++ w) es := by
  induction list, p using moreReferences.induct with
  | case1 list p hk ih =>
    rw [moreReferences, if_pos hk]
    apply Breaks.relax
    apply Breaks.andThen _ (reads_token p _ _)
    · intro comma q hq
      apply Breaks.andThen _ (reads_reference q)
      · intro next r hr
        apply (ih q hq next r hr).mono
        rintro w hmore u hnext _ ⟨rfl, hc⟩ v hv
        obtain ⟨es, hes⟩ := hmore (v ++ comma :: u) (.more hv hc hnext)
        exact ⟨es, by simpa using hes⟩
      · apply (breaks_reference q).mono
        rintro w ⟨e, he⟩ _ ⟨rfl, hc⟩ v hv
        exact ⟨_, .more hv hc he⟩
    · apply breaks_token_of
      intro comma hc
      exact ⟨[.lit .word "a"], fun v hv => ⟨_, .more hv hc (attribute_word "a")⟩⟩
  | case2 list p hk =>
    rw [moreReferences, if_neg hk]
    exact breaks_pure _

theorem breaks_references (p : Parser) : (references p).Breaks fun w => ∃ es, Attributes w es := by
  unfold references
  apply Breaks.andThen _ (reads_reference p)
  · intro first q _
    apply (breaks_moreReferences [first] q).mono
    intro v hmore u hfirst
    exact hmore u (.one hfirst)
  · apply (breaks_reference p).mono
    rintro w ⟨e, he⟩
    exact ⟨_, .one he⟩

theorem breaks_comparable (p : Parser) : (comparable p).Breaks fun w => ∃ e, Comparable w e := by
  have hnumber : (number p).Breaks fun w => ∃ e, Comparable w e :=
    (breaks_number p).mono fun _ h => h.imp fun _ => .number
  unfold comparable
  split
  · exact (breaks_reference p).mono fun _ h => h.imp fun _ => .named
  · exact hnumber
  · exact hnumber
  · apply ((breaks_token p _ _).map _).mono
    rintro _ ⟨text, rfl, ht⟩
    exact ⟨_, .string ht⟩
  · exact breaks_failed _ ⟨_, _, .named (attribute_word "a")⟩

theorem breaks_comparisonOperator (p : Parser) : (comparisonOperator p).Breaks fun w =>
    ∃ op, w = [op] ∧ op.kind ∈ comparisonOperators := by
  unfold comparisonOperator
  split
  · rename_i hk
    apply ((breaks_take p _).map _).mono
    rintro _ ⟨op, rfl, ho⟩
    exact ⟨op, rfl, (mem_comparisonOperators_iff _).2 (ho ▸ hk)⟩
  · exact breaks_failed _ ⟨_, .bare .equal, rfl, by decide⟩

theorem breaks_comparison (p : Parser) :
    (comparison p).Breaks fun w => ∃ e, Grammar.Comparison w e := by
  have hright : Comparable [.lit .word "b"] (leaf .word "b") := .named (attribute_word "b")
  unfold comparison
  apply Breaks.andThen _ (reads_comparable p)
  · intro lhs q _
    apply Breaks.andThen _ (reads_comparisonOperator q)
    · intro op r _
      apply ((breaks_comparable r).map _).mono
      rintro w ⟨rhs, hr⟩ _ ⟨op, rfl, ho, rfl⟩ v hl
      exact ⟨_, .compare hl ho hr⟩
    · apply (breaks_comparisonOperator q).extend
      rintro _ ⟨op, rfl, ho⟩
      exact ⟨[.lit .word "b"], fun v hl => ⟨_, .compare hl ho hright⟩⟩
  · apply (breaks_comparable p).extend
    rintro w ⟨lhs, hl⟩
    exact ⟨[.bare .equal, .lit .word "b"], _, .compare hl (by decide) hright⟩

/-! ### Levels -/

theorem breaks_chain {p : Parser} {l m : Level} {ops : List Kind} (hl : Chain l ops m)
    (hfirst : (level m p).Breaks (Phrase m))
    (hmore : ∀ first q, q.remaining < p.remaining → (moreOperands l first q).Breaks fun w =>
      ∀ v, Derives l v first → Phrase l (v ++ w)) :
    ((level m p).andThen fun first q _ => moreOperands l first q).Breaks (Phrase l) := by
  apply Breaks.andThen _ (reads_level m p)
  · intro first q hq
    apply (hmore first q hq).mono
    intro w hw v hv
    exact hw v (.first hl hv)
  · exact hfirst.mono fun _ h => h.imp fun _ => .first hl

theorem breaks_enclosed {p : Parser} {l : Level} (g : Expression → Expression)
    (h : ∀ q, q.remaining < p.remaining → (level l q).Breaks (Phrase l)) :
    ((Parsed.token p .openParen).andThen fun _ p _ =>
      (level l p).andThen fun body p _ =>
        (Parsed.token p .closeParen).map fun _ => g body).Breaks fun w =>
      ∃ v e, Derives l v e ∧ Enclosed v w := by
  apply Breaks.andThen _ (reads_token p _ _)
  · intro opening q hq
    apply Breaks.andThen _ (reads_level l q)
    · intro body r _
      apply ((breaks_token r _ _).map _).mono
      rintro _ ⟨closing, rfl, hc⟩ v hv _ ⟨rfl, ho⟩
      exact ⟨v, body, hv, .intro ho hc⟩
    · apply (h q hq).extend
      rintro v ⟨e, hv⟩
      refine ⟨[.bare .closeParen], ?_⟩
      rintro _ ⟨rfl, ho⟩
      exact ⟨v, e, hv, .intro ho rfl⟩
  · apply breaks_token_of
    intro opening ho
    obtain ⟨v, e, hv⟩ := exists_phrase l
    exact ⟨v ++ [.bare .closeParen], v, e, hv, .intro ho rfl⟩

theorem exists_parenthesized : ∃ w e, Parenthesized w e := by
  obtain ⟨v, e, hv⟩ := exists_phrase .union
  exact ⟨_, e, v, hv, enclosed_bare v⟩

/-- What stands behind the new name of a relation can be completed from any of its beginnings. -/
theorem breaks_renamed {p : Parser} (target : Expression)
    (h : (parenthesized p).Breaks fun w => ∃ e, Parenthesized w e) :
    ((parenthesized p).map fun body => branch .rename [target, body]).Breaks fun w =>
      ∃ e, Renames target w e := by
  apply (h.map _).mono
  rintro w ⟨e, v, hv, hw⟩
  exact ⟨_, fun op t ho ht => .rename ho ht hv hw⟩

theorem breaks_renamedAll {p : Parser} (target : Expression)
    (h : ∀ q : Parser, q.remaining < p.remaining → ∀ r : Parser, r.remaining < q.remaining →
      ∀ s : Parser, s.remaining < r.remaining →
        (parenthesized s).Breaks fun w => ∃ e, Parenthesized w e) :
    ((Parsed.token p .openBracket).andThen fun _ p _ =>
      (references p).andThen fun list p _ =>
        (Parsed.token p .closeBracket).andThen fun _ p _ =>
          (parenthesized p).map fun body => branch .rename [target, list, body]).Breaks fun w =>
      ∃ e, Renames target w e := by
  obtain ⟨w, e, v, hv, hw⟩ := exists_parenthesized
  apply Breaks.andThen _ (reads_token p _ _)
  · intro left q hq
    apply Breaks.andThen _ (reads_references q)
    · intro list r hr
      apply Breaks.andThen _ (reads_token r _ _)
      · intro right s hs
        apply ((h q hq r hr s hs).map _).mono
        rintro w ⟨e, v, hv, hw⟩ _ ⟨rfl, hr⟩ u ⟨list, hu, rfl⟩ _ ⟨rfl, hl⟩
        exact ⟨_, fun op t ho ht => .renameAll ho ht hl hu hr hv hw⟩
      · apply breaks_token_of
        intro right hr
        refine ⟨w, ?_⟩
        rintro u ⟨list, hu, rfl⟩ _ ⟨rfl, hl⟩
        exact ⟨_, fun op t ho ht => .renameAll ho ht hl hu hr hv hw⟩
    · apply (breaks_references q).extend
      rintro u ⟨list, hu⟩
      refine ⟨.bare .closeBracket :: w, ?_⟩
      rintro _ ⟨rfl, hl⟩
      exact ⟨_, fun op t ho ht => .renameAll ho ht hl hu rfl hv hw⟩
  · apply breaks_token_of
    intro left hl
    refine ⟨.lit .word "a" :: .bare .closeBracket :: w, ?_⟩
    exact ⟨_, fun op t ho ht => .renameAll ho ht hl (.one (attribute_word "a")) rfl hv hw⟩

theorem breaks_level (l : Level) (p : Parser) : (level l p).Breaks (Phrase l) := by
  obtain ⟨operand, e, v, hv, hw⟩ := exists_parenthesized
  refine (level.mutual_induct (fun l p => (level l p).Breaks (Phrase l))
    (fun l lhs p => (moreOperands l lhs p).Breaks fun w => ∀ v, Derives l v lhs → Phrase l (v ++ w))
    (fun p => (Parser.operand p).Breaks (Phrase .operand))
    (fun p => (relation p).Breaks (Phrase .relation))
    (fun p => (parenthesized p).Breaks fun w => ∃ e, Parenthesized w e)
    ?levelRelation ?levelOperand ?product ?join ?difference ?union ?conjunction ?disjunction
    ?more ?stop ?not ?group ?word ?number ?minus ?string ?noOperand ?project ?select ?rename
    ?grouped ?stored ?noRelation ?parenthesized).1 l p
  case levelRelation => intro p h; rw [level]; exact h
  case levelOperand => intro p h; rw [level]; exact h
  case product => intro p first more; rw [level]; exact breaks_chain .product first more
  case join => intro p first more; rw [level]; exact breaks_chain .join first more
  case difference => intro p first more; rw [level]; exact breaks_chain .difference first more
  case union => intro p first more; rw [level]; exact breaks_chain .union first more
  case conjunction => intro p first more; rw [level]; exact breaks_chain .conjunction first more
  case disjunction => intro p first more; rw [level]; exact breaks_chain .disjunction first more
  case more =>
    intro l lhs p hk inner more
    have hl := chain_of_mem_operators hk
    rw [moreOperands, dif_pos hk]
    apply Breaks.relax
    apply Breaks.andThen _ (reads_take p _)
    · intro op q hq
      apply Breaks.andThen _ (reads_level l.inner q)
      · intro rhs r hr
        apply (more op q hq rhs r hr).mono
        rintro w hmore u hrhs _ ⟨rfl, ho⟩ v hv
        have hlhs := Derives.more hl hv (ho ▸ hk) hrhs
        simpa using hmore (v ++ op :: u) hlhs
      · apply (inner q hq).mono
        rintro w ⟨rhs, hrhs⟩ _ ⟨rfl, ho⟩ v hv
        exact ⟨_, .more hl hv (ho ▸ hk) hrhs⟩
    · apply (breaks_take p _).extend
      rintro _ ⟨op, rfl, ho⟩
      obtain ⟨w, rhs, hrhs⟩ := exists_phrase l.inner
      exact ⟨w, fun v hv => ⟨_, .more hl hv (ho ▸ hk) hrhs⟩⟩
  case stop =>
    intro l lhs p hk
    rw [moreOperands, dif_neg hk]
    exact breaks_pure _
  case not =>
    intro p hk h
    rw [Parser.operand, hk]
    apply Breaks.andThen _ (reads_token p _ _)
    · intro op q hq
      apply (breaks_enclosed _ (h q hq)).mono
      rintro w ⟨v, e, hv, hw⟩ _ ⟨rfl, ho⟩
      exact ⟨_, .not ho hv hw⟩
    · apply breaks_token_of
      intro op ho
      obtain ⟨v, e, hv⟩ := exists_phrase .disjunction
      exact ⟨_, _, .not ho hv (enclosed_bare v)⟩
  case group =>
    intro p hk h
    rw [Parser.operand, hk]
    apply (breaks_enclosed id h).mono
    rintro w ⟨v, e, hv, hw⟩
    exact ⟨e, .group hv hw⟩
  case word | number | minus | string =>
    intro p hk
    rw [Parser.operand, hk]
    apply (breaks_comparison p).mono
    rintro w ⟨e, he⟩
    exact ⟨e, .comparison he⟩
  case noOperand =>
    intro p h₁ h₂ h₃ h₄ h₅ h₆
    rw [Parser.operand]
    split <;> first | contradiction | exact breaks_failed _ (exists_phrase .operand)
  case project =>
    intro p hk h
    rw [relation, hk]
    apply Breaks.andThen _ (reads_token p _ _)
    · intro op q hq
      apply Breaks.andThen _ (reads_references q)
      · intro list r hr
        apply ((h q hq r hr).map _).mono
        rintro w ⟨e, v, hv, hw⟩ u ⟨list, hu, rfl⟩ _ ⟨rfl, ho⟩
        exact ⟨_, .project (u := u) ho hu hv hw⟩
      · apply (breaks_references q).extend
        rintro u ⟨list, hu⟩
        refine ⟨operand, ?_⟩
        rintro _ ⟨rfl, ho⟩
        exact ⟨_, .project (u := u) ho hu hv hw⟩
    · apply breaks_token_of
      intro op ho
      exact ⟨.lit .word "a" :: operand, _, .project ho (.one (attribute_word "a")) hv hw⟩
  case select =>
    intro p hk hp h
    rw [relation, hk]
    apply Breaks.andThen _ (reads_token p _ _)
    · intro op q hq
      apply Breaks.andThen _ (reads_level .disjunction q)
      · intro condition r hr
        apply ((h q hq r hr).map _).mono
        rintro w ⟨e, v, hv, hw⟩ u hu _ ⟨rfl, ho⟩
        exact ⟨_, .select (u := u) ho hu hv hw⟩
      · apply (hp q hq).extend
        rintro u ⟨condition, hu⟩
        refine ⟨operand, ?_⟩
        rintro _ ⟨rfl, ho⟩
        exact ⟨_, .select (u := u) ho hu hv hw⟩
    · apply breaks_token_of
      intro op ho
      obtain ⟨u, condition, hu⟩ := exists_phrase .disjunction
      exact ⟨u ++ operand, _, .select ho hu hv hw⟩
  case rename =>
    intro p hk hlist h
    rw [relation, hk]
    apply Breaks.andThen _ (reads_token p _ _)
    · intro op q hq
      apply Breaks.andThen _ (reads_reference q)
      · intro target r hr
        have hall := breaks_renamedAll target (hlist q hq r hr)
        have hone := breaks_renamed target (h q hq r hr)
        apply (hall.ite hone).mono
        rintro w ⟨e, hw⟩ t ht _ ⟨rfl, ho⟩
        exact ⟨e, hw op t ho ht⟩
      · apply (breaks_reference q).extend
        rintro t ⟨target, ht⟩
        refine ⟨operand, ?_⟩
        rintro _ ⟨rfl, ho⟩
        exact ⟨_, .rename (u := t) ho ht hv hw⟩
    · apply breaks_token_of
      intro op ho
      exact ⟨.lit .word "a" :: operand, _, .rename ho (attribute_word "a") hv hw⟩
  case grouped =>
    intro p hk h
    rw [relation, hk]
    apply h.mono
    rintro w ⟨e, v, hv, hw⟩
    exact ⟨e, .parenthesized hv hw⟩
  case stored =>
    intro p hk
    rw [relation, hk]
    apply ((breaks_token p _ _).map _).mono
    rintro _ ⟨name, rfl, hn⟩
    exact ⟨_, .stored hn⟩
  case noRelation =>
    intro p h₁ h₂ h₃ h₄ h₅
    rw [relation]
    split <;> first | contradiction | exact breaks_failed _ (exists_phrase .relation)
  case parenthesized =>
    intro p h
    rw [parenthesized]
    apply (breaks_enclosed id h).mono
    rintro w ⟨v, e, hv, hw⟩
    exact ⟨e, v, hv, hw⟩

end Parser
end RelationalAlgebra
