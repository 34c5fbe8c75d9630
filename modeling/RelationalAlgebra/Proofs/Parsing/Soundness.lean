import RelationalAlgebra.Proofs.Grammar

/-!
# What the parser reads is a phrase

`Parser.Faces` ties a parser to the tokens that are still to come. A production is sound for a set
of phrases when the tokens between the parser it starts at and the parser it leaves are a phrase for
the tree it gives (`Parsed.Reads`). Soundness of a sequence comes from soundness of its parts, and
the productions follow by induction along their own recursion.
-/
namespace RelationalAlgebra

open Expression (branch leaf node)

variable {α β : Type}

/-- The tokens `ts` are to come, the first of them at hand, and then the end of the text, or the
failure `f`. -/
def Parser.Faces (p : Parser) (f : Option LexError) : List Token → Prop
  | [] => f = none ∧ p = ⟨.eof, ⟨[], none⟩⟩
  | t :: ts => (∀ u ∈ t :: ts, u.kind ≠ .eof) ∧ p = ⟨t, ⟨ts, f⟩⟩

/-- The kind of the first token, or of the end of the text. -/
def Token.firstKind : List Token → Kind
  | [] => .eof
  | t :: _ => t.kind

namespace Parser
variable {p q : Parser} {f : Option LexError} {t : Token} {ts us : List Token}

theorem Faces.kind_eq (h : p.Faces f ts) : p.kind = Token.firstKind ts := by
  cases ts with
  | nil =>
    obtain ⟨_, rfl⟩ := h
    rfl
  | cons t ts =>
    obtain ⟨_, rfl⟩ := h
    rfl

theorem Faces.lookahead_eq (h : p.Faces f ts) : p.lookahead = ts.head?.getD .eof := by
  cases ts with
  | nil =>
    obtain ⟨_, rfl⟩ := h
    rfl
  | cons t ts =>
    obtain ⟨_, rfl⟩ := h
    rfl

theorem Faces.eq_nil_of_kind (h : p.Faces f ts) (hk : p.kind = .eof) : ts = [] ∧ f = none := by
  cases ts with
  | nil => exact ⟨rfl, h.1⟩
  | cons t ts =>
    rw [h.kind_eq] at hk
    exact absurd hk (h.1 t List.mem_cons_self)

theorem Faces.unique (hs : p.Faces f ts) (hu : p.Faces f us) : ts = us := by
  cases ts with
  | nil =>
    obtain ⟨_, rfl⟩ := hs
    exact (hu.eq_nil_of_kind rfl).1.symm
  | cons t ts =>
    obtain ⟨ht, rfl⟩ := hs
    cases us with
    | nil =>
      obtain ⟨_, hp⟩ := hu
      cases hp
      exact absurd rfl (ht .eof List.mem_cons_self)
    | cons u us =>
      obtain ⟨_, hp⟩ := hu
      cases hp
      rfl

theorem Faces.of_advance (h : p.Faces f ts) (hk : p.kind ≠ .eof) (ha : p.advance = (.ok t, q)) :
    ∃ us, ts = t :: us ∧ q.Faces f us := by
  cases ts with
  | nil => exact absurd (h.kind_eq) hk
  | cons u us =>
    obtain ⟨hne, rfl⟩ := h
    cases us with
    | nil =>
      cases f with
      | none =>
        cases ha
        exact ⟨[], rfl, rfl, rfl⟩
      | some e => cases ha
    | cons v vs =>
      cases ha
      exact ⟨v :: vs, rfl, fun w hw => hne w (List.mem_cons_of_mem _ hw), rfl⟩

end Parser

namespace Parsed
variable {p q : Parser} {takes : Bool} {a : α} {b : β}

theorem outcome_done_iff {x : Parsed p takes α} :
    x.outcome = (.ok a, q) ↔ ∃ le, x = .done a q le := by
  cases x with
  | done value rest le =>
    simp only [outcome, Prod.mk.injEq, Except.ok.injEq]
    constructor
    · rintro ⟨rfl, rfl⟩
      exact ⟨le, rfl⟩
    · rintro ⟨_, h⟩
      cases h
      exact ⟨rfl, rfl⟩
  | failed error rest => simp [outcome]

@[simp]
theorem outcome_relax (x : Parsed p true α) : x.relax.outcome = x.outcome := by
  cases x <;> rfl

@[simp]
theorem outcome_map (g : α → β) (x : Parsed p takes α) :
    (x.map g).outcome = (x.outcome.1.map g, x.outcome.2) := by
  cases x <;> rfl

theorem outcome_andThen_of_ok {x : Parsed p true α} (hx : x.outcome = (.ok a, q))
    (next : α → (q : Parser) → q.remaining < p.remaining → Parsed q takes β) :
    ∃ lt, (x.andThen next).outcome = (next a q lt).outcome := by
  obtain ⟨le, rfl⟩ := outcome_done_iff.1 hx
  refine ⟨le, ?_⟩
  simp only [andThen]
  cases next a q le <;> rfl

theorem outcome_andThen_eq_ok {x : Parsed p true α}
    {next : α → (q : Parser) → q.remaining < p.remaining → Parsed q takes β} {r : Parser}
    (h : (x.andThen next).outcome = (.ok b, r)) :
    ∃ a q lt, x.outcome = (.ok a, q) ∧ (next a q lt).outcome = (.ok b, r) := by
  cases x with
  | done a q le =>
    obtain ⟨lt, hn⟩ := outcome_andThen_of_ok (x := .done a q le) rfl next
    exact ⟨a, q, lt, rfl, hn ▸ h⟩
  | failed error rest => cases h

theorem outcome_andThen_of_error {x : Parsed p true α} {e : Error} {q : Parser}
    (hx : x.outcome = (.error e, q))
    (next : α → (q : Parser) → q.remaining < p.remaining → Parsed q takes β) :
    (x.andThen next).outcome = (.error e, q) := by
  cases x with
  | done a q le => cases hx
  | failed error rest =>
    cases hx
    rfl

theorem outcome_andThen_eq_error {x : Parsed p true α}
    {next : α → (q : Parser) → q.remaining < p.remaining → Parsed q takes β} {r : Parser}
    {e : Error} (h : (x.andThen next).outcome = (.error e, r)) :
    x.outcome = (.error e, r) ∨
      ∃ a q lt, x.outcome = (.ok a, q) ∧ (next a q lt).outcome = (.error e, r) := by
  cases x with
  | failed error rest =>
    cases h
    exact .inl rfl
  | done a q le =>
    obtain ⟨lt, hn⟩ := outcome_andThen_of_ok (x := .done a q le) rfl next
    exact .inr ⟨a, q, lt, rfl, hn ▸ h⟩

theorem outcome_take (p : Parser) (h : p.kind ≠ .eof) : (take p h).outcome = p.advance := by
  unfold take
  split <;> simp_all [outcome]

/-! ### Phrases -/

/-- What a production reads is a phrase for the result that it gives. -/
def Reads (x : Parsed p takes α) (phrase : List Token → α → Prop) : Prop :=
  ∀ f ts a q, p.Faces f ts → x.outcome = (.ok a, q) →
    ∃ w us, ts = w ++ us ∧ phrase w a ∧ q.Faces f us

variable {D : List Token → α → Prop} {E : List Token → β → Prop}

theorem Reads.mono {x : Parsed p takes α} {D' : List Token → α → Prop} (hx : x.Reads D)
    (h : ∀ w a, D w a → D' w a) : x.Reads D' := by
  intro f ts a q hp ho
  obtain ⟨w, us, hts, hw, hq⟩ := hx f ts a q hp ho
  exact ⟨w, us, hts, h w a hw, hq⟩

theorem Reads.relax {x : Parsed p true α} (hx : x.Reads D) : x.relax.Reads D := by
  intro f ts a q hp ho
  exact hx f ts a q hp (by rwa [outcome_relax] at ho)

theorem Reads.ite {x y : Parsed p takes α} {c : Prop} [Decidable c] (hx : x.Reads D)
    (hy : y.Reads D) : (if c then x else y).Reads D := by
  split
  · exact hx
  · exact hy

theorem Reads.map {x : Parsed p takes α} (hx : x.Reads D) (g : α → β) :
    (x.map g).Reads fun w b => ∃ a, D w a ∧ b = g a := by
  intro f ts b q hp ho
  rw [outcome_map] at ho
  cases hr : x.outcome with
  | mk result rest =>
    rw [hr] at ho
    cases result with
    | error e => cases ho
    | ok a =>
      cases ho
      obtain ⟨w, us, hts, hw, hq⟩ := hx f ts a rest hp hr
      exact ⟨w, us, hts, ⟨a, hw, rfl⟩, hq⟩

/-- A sequence reads a phrase when its second part completes to one whatever its first part
read. -/
theorem Reads.andThen {x : Parsed p true α}
    {next : α → (q : Parser) → q.remaining < p.remaining → Parsed q takes β} (hx : x.Reads D)
    (hn : ∀ a q lt, (next a q lt).Reads fun v b => ∀ u, D u a → E (u ++ v) b) :
    (x.andThen next).Reads E := by
  intro f ts b r hp ho
  obtain ⟨a, q, lt, hxo, hno⟩ := outcome_andThen_eq_ok ho
  obtain ⟨u, us, hts, hu, hq⟩ := hx f ts a q hp hxo
  obtain ⟨v, vs, hus, hv, hr⟩ := hn a q lt f us b r hq hno
  refine ⟨u ++ v, vs, ?_, hv u hu, hr⟩
  rw [hts, hus, List.append_assoc]

theorem reads_pure (a : α) :
    (Parsed.pure a : Parsed p false α).Reads fun w b => w = [] ∧ b = a := by
  intro f ts b q hp ho
  cases ho
  exact ⟨[], ts, rfl, ⟨rfl, rfl⟩, hp⟩

theorem reads_failed (e : Error) (q : Parser) :
    (Parsed.failed e q : Parsed p takes α).Reads D := by
  intro f ts a r _ ho
  cases ho

theorem reads_take (p : Parser) (h : p.kind ≠ .eof) :
    (take p h).Reads fun w t => w = [t] ∧ t.kind = p.kind := by
  intro f ts t q hp ho
  rw [outcome_take] at ho
  obtain ⟨us, rfl, hq⟩ := hp.of_advance h ho
  exact ⟨[t], us, rfl, ⟨rfl, hp.kind_eq.symm⟩, hq⟩

theorem reads_token (p : Parser) (k : Kind) (h : k ≠ .eof) :
    (token p k h).Reads fun w t => w = [t] ∧ t.kind = k := by
  unfold token
  split
  · rename_i hk
    exact (reads_take p _).mono fun w t ht => ⟨ht.1, ht.2.trans hk⟩
  · exact reads_failed _ _

end Parsed

namespace Parser
open Parsed

/-! ### Attributes and comparisons -/

theorem reads_number (p : Parser) : (number p).Reads Grammar.Number := by
  unfold number
  split
  · apply (reads_token p _ _).andThen
    intro sign q _
    apply ((reads_token q _ _).map _).mono
    rintro w e ⟨digits, ⟨rfl, hd⟩, rfl⟩ _ ⟨rfl, hs⟩
    exact .negative hs hd
  · apply ((reads_token p _ _).map _).mono
    rintro w e ⟨digits, ⟨rfl, hd⟩, rfl⟩
    exact .plain hd

theorem reads_reference (p : Parser) : (reference p).Reads Grammar.Attribute := by
  unfold reference
  apply (reads_token p _ _).andThen
  intro first q _
  split
  · apply Reads.relax
    apply (reads_token q _ _).andThen
    intro dot r _
    apply ((reads_token r _ _).map _).mono
    rintro w e ⟨name, ⟨rfl, hn⟩, rfl⟩ _ ⟨rfl, hd⟩ _ ⟨rfl, hq⟩
    exact .qualified hq hd hn
  · apply (reads_pure _).mono
    rintro w e ⟨rfl, rfl⟩ _ ⟨rfl, hn⟩
    exact .bare hn

theorem reads_moreReferences (list : List Expression) (p : Parser) :
    (moreReferences list p).Reads fun w e => ∀ v, Grammar.Attributes v list →
      ∃ es, Grammar.Attributes (v ++ w) es ∧ e = branch .list es := by
  induction list, p using moreReferences.induct with
  | case1 list p hk ih =>
    rw [moreReferences, if_pos hk]
    apply Reads.relax
    apply (reads_token p _ _).andThen
    intro comma q hq
    apply (reads_reference q).andThen
    intro next r hr
    apply (ih q hq next r hr).mono
    rintro w e hmore u hnext _ ⟨rfl, hc⟩ v hv
    have hlist := Grammar.Attributes.more hv hc hnext
    simpa using hmore (v ++ comma :: u) hlist
  | case2 list p hk =>
    rw [moreReferences, if_neg hk]
    apply (reads_pure _).mono
    rintro w e ⟨rfl, rfl⟩ v hv
    exact ⟨list, by simpa using hv, rfl⟩

theorem reads_references (p : Parser) :
    (references p).Reads fun w e => ∃ es, Grammar.Attributes w es ∧ e = branch .list es := by
  unfold references
  apply (reads_reference p).andThen
  intro first q _
  apply (reads_moreReferences [first] q).mono
  intro v e hmore u hfirst
  exact hmore u (.one hfirst)

theorem reads_comparable (p : Parser) : (comparable p).Reads Grammar.Comparable := by
  unfold comparable
  split
  · exact (reads_reference p).mono fun _ _ h => .named h
  · exact (reads_number p).mono fun _ _ h => .number h
  · exact (reads_number p).mono fun _ _ h => .number h
  · apply ((reads_token p _ _).map _).mono
    rintro w e ⟨text, ⟨rfl, ht⟩, rfl⟩
    exact .string ht
  · exact reads_failed _ _

theorem mem_comparisonOperators_iff (k : Kind) :
    k ∈ Grammar.comparisonOperators ↔ k.isComparison = true := by
  cases k <;> decide

theorem reads_comparisonOperator (p : Parser) : (comparisonOperator p).Reads fun w e =>
    ∃ op, w = [op] ∧ op.kind ∈ Grammar.comparisonOperators ∧ e = node (some op) [] := by
  unfold comparisonOperator
  split
  · rename_i hk
    apply ((reads_take p _).map _).mono
    rintro w e ⟨op, ⟨rfl, ho⟩, rfl⟩
    exact ⟨op, rfl, (mem_comparisonOperators_iff _).2 (ho ▸ hk), rfl⟩
  · exact reads_failed _ _

theorem reads_comparison (p : Parser) : (comparison p).Reads Grammar.Comparison := by
  unfold comparison
  apply (reads_comparable p).andThen
  intro lhs q _
  apply (reads_comparisonOperator q).andThen
  intro op r _
  apply ((reads_comparable r).map _).mono
  rintro w e ⟨rhs, hr, rfl⟩ _ ⟨op, rfl, ho, rfl⟩ v hl
  exact .compare hl ho hr

/-! ### Levels -/

/-- The phrases that may stand behind a first operand of a level. -/
def Extends (l : Level) (lhs : Expression) (w : List Token) (e : Expression) : Prop :=
  ∀ v, Grammar.Derives l v lhs → Grammar.Derives l (v ++ w) e

theorem chain_of_mem_operators {l : Level} {k : Kind} (h : k ∈ l.operators) :
    Grammar.Chain l l.operators l.inner := by
  cases l with
  | relation | operand => cases h
  | product => exact .product
  | join => exact .join
  | difference => exact .difference
  | union => exact .union
  | conjunction => exact .conjunction
  | disjunction => exact .disjunction

theorem reads_chain {p : Parser} {l m : Level} {ops : List Kind} (hl : Grammar.Chain l ops m)
    (hfirst : (level m p).Reads (Grammar.Derives m))
    (hmore : ∀ first q, q.remaining < p.remaining →
      (moreOperands l first q).Reads (Extends l first)) :
    ((level m p).andThen fun first q _ => moreOperands l first q).Reads (Grammar.Derives l) := by
  apply hfirst.andThen
  intro first q hq
  apply (hmore first q hq).mono
  intro v e hv u hu
  exact hv u (.first hl hu)

theorem reads_enclosed {p : Parser} {l : Level} (g : Expression → Expression)
    (h : ∀ q, q.remaining < p.remaining → (level l q).Reads (Grammar.Derives l)) :
    ((Parsed.token p .openParen).andThen fun _ p _ =>
      (level l p).andThen fun body p _ =>
        (Parsed.token p .closeParen).map fun _ => g body).Reads fun w e =>
      ∃ v body, Grammar.Derives l v body ∧ Grammar.Enclosed v w ∧ e = g body := by
  apply (reads_token p _ _).andThen
  intro opening q hq
  apply (h q hq).andThen
  intro body r _
  apply ((reads_token r _ _).map _).mono
  rintro w e ⟨closing, ⟨rfl, hc⟩, rfl⟩ v hv _ ⟨rfl, ho⟩
  exact ⟨v, body, hv, .intro ho hc, rfl⟩

/-- The phrases that spell a relation in parentheses. -/
def Parenthesized (w : List Token) (e : Expression) : Prop :=
  ∃ v, Grammar.Derives .union v e ∧ Grammar.Enclosed v w

/-- The phrases that may stand behind the new name of a relation. -/
def Renames (target : Expression) (w : List Token) (e : Expression) : Prop :=
  ∀ op t, op.kind = .rename → Grammar.Attribute t target →
    Grammar.Derives .relation (op :: (t ++ w)) e

theorem reads_renamed {p : Parser} (target : Expression)
    (h : (parenthesized p).Reads Parenthesized) :
    ((parenthesized p).map fun body => branch .rename [target, body]).Reads (Renames target) := by
  apply (h.map _).mono
  rintro w e ⟨body, ⟨v, hv, hw⟩, rfl⟩ op t ho ht
  exact .rename ho ht hv hw

theorem reads_renamedAll {p : Parser} (target : Expression)
    (h : ∀ q : Parser, q.remaining < p.remaining → ∀ r : Parser, r.remaining < q.remaining →
      ∀ s : Parser, s.remaining < r.remaining → (parenthesized s).Reads Parenthesized) :
    ((Parsed.token p .openBracket).andThen fun _ p _ =>
      (references p).andThen fun list p _ =>
        (Parsed.token p .closeBracket).andThen fun _ p _ =>
          (parenthesized p).map fun body => branch .rename [target, list, body]).Reads
      (Renames target) := by
  apply (reads_token p _ _).andThen
  intro left q hq
  apply (reads_references q).andThen
  intro list r hr
  apply (reads_token r _ _).andThen
  intro right s hs
  apply ((h q hq r hr s hs).map _).mono
  rintro w e ⟨body, ⟨v, hv, hw⟩, rfl⟩ _ ⟨rfl, hr⟩ u ⟨list, hu, rfl⟩ _ ⟨rfl, hl⟩ op t ho ht
  exact .renameAll ho ht hl hu hr hv hw

theorem reads_level (l : Level) (p : Parser) : (level l p).Reads (Grammar.Derives l) := by
  refine (level.mutual_induct (fun l p => (level l p).Reads (Grammar.Derives l))
    (fun l lhs p => (moreOperands l lhs p).Reads (Extends l lhs))
    (fun p => (operand p).Reads (Grammar.Derives .operand))
    (fun p => (relation p).Reads (Grammar.Derives .relation))
    (fun p => (parenthesized p).Reads Parenthesized)
    ?levelRelation ?levelOperand ?product ?join ?difference ?union ?conjunction ?disjunction
    ?more ?stop ?not ?group ?word ?number ?minus ?string ?noOperand ?project ?select ?rename
    ?grouped ?stored ?noRelation ?parenthesized).1 l p
  case levelRelation => intro p h; rw [level]; exact h
  case levelOperand => intro p h; rw [level]; exact h
  case product => intro p first more; rw [level]; exact reads_chain .product first more
  case join => intro p first more; rw [level]; exact reads_chain .join first more
  case difference => intro p first more; rw [level]; exact reads_chain .difference first more
  case union => intro p first more; rw [level]; exact reads_chain .union first more
  case conjunction => intro p first more; rw [level]; exact reads_chain .conjunction first more
  case disjunction => intro p first more; rw [level]; exact reads_chain .disjunction first more
  case more =>
    intro l lhs p hk inner more
    rw [moreOperands, dif_pos hk]
    apply Reads.relax
    apply (reads_take p _).andThen
    intro op q hq
    apply (inner q hq).andThen
    intro rhs r hr
    apply (more op q hq rhs r hr).mono
    rintro w e hmore u hrhs _ ⟨rfl, ho⟩ v hv
    have hlhs := Grammar.Derives.more (chain_of_mem_operators hk) hv (ho ▸ hk) hrhs
    simpa using hmore (v ++ op :: u) hlhs
  case stop =>
    intro l lhs p hk
    rw [moreOperands, dif_neg hk]
    apply (reads_pure _).mono
    rintro w e ⟨rfl, rfl⟩ v hv
    simpa using hv
  case not =>
    intro p hk h
    rw [operand, hk]
    apply (reads_token p _ _).andThen
    intro op q hq
    apply (reads_enclosed _ (h q hq)).mono
    rintro w e ⟨v, body, hv, hw, rfl⟩ _ ⟨rfl, ho⟩
    exact .not ho hv hw
  case group =>
    intro p hk h
    rw [operand, hk]
    apply (reads_enclosed id h).mono
    rintro w e ⟨v, _, hv, hw, rfl⟩
    exact .group hv hw
  case word | number | minus | string =>
    intro p hk
    rw [operand, hk]
    exact (reads_comparison p).mono fun _ _ h => .comparison h
  case noOperand =>
    intro p h₁ h₂ h₃ h₄ h₅ h₆
    rw [operand]
    split <;> first | contradiction | exact reads_failed _ _
  case project =>
    intro p hk h
    rw [relation, hk]
    apply (reads_token p _ _).andThen
    intro op q hq
    apply (reads_references q).andThen
    intro list r hr
    apply ((h q hq r hr).map _).mono
    rintro w e ⟨body, ⟨v, hv, hw⟩, rfl⟩ u ⟨list, hu, rfl⟩ _ ⟨rfl, ho⟩
    exact .project (u := u) ho hu hv hw
  case select =>
    intro p hk hp h
    rw [relation, hk]
    apply (reads_token p _ _).andThen
    intro op q hq
    apply (hp q hq).andThen
    intro condition r hr
    apply ((h q hq r hr).map _).mono
    rintro w e ⟨body, ⟨v, hv, hw⟩, rfl⟩ u hu _ ⟨rfl, ho⟩
    exact .select (u := u) ho hu hv hw
  case rename =>
    intro p hk hlist h
    rw [relation, hk]
    apply (reads_token p _ _).andThen
    intro op q hq
    apply (reads_reference q).andThen
    intro target r hr
    have hall := reads_renamedAll target (hlist q hq r hr)
    have hone := reads_renamed target (h q hq r hr)
    apply (hall.ite hone).mono
    rintro w e hw t ht _ ⟨rfl, ho⟩
    exact hw op t ho ht
  case grouped =>
    intro p hk h
    rw [relation, hk]
    apply h.mono
    rintro w e ⟨v, hv, hw⟩
    exact .parenthesized hv hw
  case stored =>
    intro p hk
    rw [relation, hk]
    apply ((reads_token p _ _).map _).mono
    rintro w e ⟨name, ⟨rfl, hn⟩, rfl⟩
    exact .stored hn
  case noRelation =>
    intro p h₁ h₂ h₃ h₄ h₅
    rw [relation]
    split <;> first | contradiction | exact reads_failed _ _
  case parenthesized =>
    intro p h
    rw [parenthesized]
    apply (reads_enclosed id h).mono
    rintro w e ⟨v, _, hv, hw, rfl⟩
    exact ⟨v, hv, hw⟩

end Parser
end RelationalAlgebra
