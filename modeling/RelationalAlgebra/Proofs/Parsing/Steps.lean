import RelationalAlgebra.Proofs.Parsing.Locality
import RelationalAlgebra.Proofs.Parsing.Machine

/-!
# How many steps a production makes

The code of every routine comes to the outcome of the routine, and the number of its steps is
linear in the tokens that it uses up (`Code.Follows`). Between two tokens the code only goes down
the levels, so each level adds the same few steps to what the level below it needs. A loop and an
operand in parentheses start from the top again, but only behind a token, and that token pays for
the whole way down.
-/
namespace RelationalAlgebra

variable {α β : Type}

/-- At least as many steps as lie between two tokens. -/
def stepsPerToken : Nat := 40

namespace Parser
variable {p q : Parser} {e : Error}

theorem remaining_of_advance_eq_error (h : p.advance = (.error e, q)) :
    q.remaining ≤ p.remaining := by
  obtain ⟨t, ⟨_ | ⟨u, us⟩, _ | x⟩⟩ := p <;> cases h
  exact Nat.le_refl _

theorem remaining_of_accept_eq_error {k : Kind} (h : p.accept k = (.error e, q)) :
    q.remaining ≤ p.remaining := by
  unfold accept at h
  split at h
  · exact remaining_of_advance_eq_error h
  · cases h
    exact Nat.le_refl _

theorem expression_of_error (h : (level .union p).outcome = (.error e, q)) :
    p.expression = (.error e, q) := by
  unfold expression
  rw [h]

/-- Behind an expression the end of the text is accepted as any token is. -/
theorem expression_of_ok {a : Expression} (h : (level .union p).outcome = (.ok a, q)) :
    p.expression = ((q.accept .eof).1.map fun _ => a, (q.accept .eof).2) := by
  simp only [expression, h]
  rcases q.accept .eof with ⟨_ | _, _⟩ <;> rfl

end Parser

/-- The tokens that a production has not used up: those in front of which it stops, and the last
one that it has taken. -/
def Parsed.kept {p : Parser} {takes : Bool} : Parsed p takes α → Nat
  | done _ rest _ => rest.remaining + takes.toNat
  | failed _ rest => rest.remaining

/-- The second part of a sequence has the last token if it takes one, and the first part if not. -/
theorem Parsed.kept_andThen_le {p q : Parser} {takes : Bool} (v : α)
    (lt : q.remaining + Bool.toNat true ≤ p.remaining)
    (next : α → (q : Parser) → q.remaining < p.remaining → Parsed q takes β) :
    ((done v q lt).andThen next).kept + takes.toNat ≤ (next v q lt).kept + 1 := by
  have hbit := Bool.toNat_le takes
  simp only [andThen]
  cases next v q lt <;> simp only [kept, Bool.toNat_true] <;> omega

namespace Code
variable {p : Parser} {takes : Bool} {a b c : Nat}

/-- The code at `p` comes to the outcome of a production. Every token that the production uses up
pays for some steps, and there are at most `extra` more. -/
def Follows (x : Code α) (y : Parsed p takes α) (extra : Nat) : Prop :=
  ∃ n, x.Runs p n y.outcome.1 y.outcome.2 ∧
    n + stepsPerToken * y.kept ≤ stepsPerToken * p.remaining + extra

theorem Follows.mono {x : Code α} {y : Parsed p takes α} (h : x.Follows y a) (hab : a ≤ b) :
    x.Follows y b := by
  obtain ⟨n, hn, hle⟩ := h
  exact ⟨n, hn, Nat.le_trans hle (Nat.add_le_add_left hab _)⟩

theorem Follows.relax {x : Code α} {y : Parsed p true α} (h : x.Follows y a) :
    x.Follows y.relax a := by
  obtain ⟨n, hn, hle⟩ := h
  rw [← Parsed.outcome_relax] at hn
  refine ⟨n, hn, Nat.le_trans ?_ hle⟩
  cases y with
  | done value rest le =>
    simp only [Parsed.relax, Parsed.kept, stepsPerToken, Bool.toNat_true, Bool.toNat_false]
    omega
  | failed error rest => exact Nat.le_refl _

theorem Follows.ite {x x' : Code α} {y y' : Parsed p takes α} {d : Prop} [Decidable d]
    (h : x.Follows y a) (h' : x'.Follows y' a) :
    (if d then x else x').Follows (if d then y else y') a := by
  split
  · exact h
  · exact h'

theorem Follows.kind {f : Kind → Code α} {y : Parsed p takes α} (h : (f p.kind).Follows y a) :
    (kind >>= f).Follows y (a + 1) := by
  obtain ⟨n, hn, hle⟩ := h
  have hlook : (Code.kind.bind f).Runs p (n + 1) y.outcome.1 y.outcome.2 := .look hn
  exact ⟨n + 1, hlook, by omega⟩

theorem Follows.dispatch {k : Kind} {f : Kind → Code α} {y : Parsed p takes α} (hk : p.kind = k)
    (h : (f k).Follows y a) (hab : a < b) : (Code.kind >>= f).Follows y b := by
  subst hk
  exact h.kind.mono hab

theorem Follows.map {x : Code α} {y : Parsed p takes α} (h : x.Follows y a) (g : α → β) :
    (x >>= fun v => pure (g v)).Follows (y.map g) a := by
  obtain ⟨n, hn, hle⟩ := h
  have hmap := hn.map g
  cases y <;> exact ⟨n, hmap, hle⟩

/-- What comes behind a token may be paid for by that token if it takes another one. -/
theorem Follows.bind {x : Code α} {f : α → Code β} {y : Parsed p true α}
    {next : α → (q : Parser) → q.remaining < p.remaining → Parsed q takes β} (h : x.Follows y a)
    (hac : a ≤ c) (habc : a + b ≤ c + stepsPerToken * takes.toNat)
    (hf : ∀ v q lt, (f v).Follows (next v q lt) b) : (x >>= f).Follows (y.andThen next) c := by
  obtain ⟨m, hm, hle⟩ := h
  cases y with
  | failed error rest => exact ⟨m, hm.bind .fail, Nat.le_trans hle (Nat.add_le_add_left hac _)⟩
  | done value q lt =>
    obtain ⟨n, hn, hle'⟩ := hf value q lt
    obtain ⟨_, ho⟩ := Parsed.outcome_andThen_of_ok (x := .done value q lt) rfl next
    rw [← ho] at hn
    refine ⟨m + n, hm.bind hn, ?_⟩
    have hkept := Parsed.kept_andThen_le value lt next
    simp only [Parsed.kept, Bool.toNat_true] at hle
    simp only [stepsPerToken] at *
    omega

theorem Follows.andThen {x : Code α} {f : α → Code β} {y : Parsed p true α}
    {next : α → (q : Parser) → q.remaining < p.remaining → Parsed q true β} (h : x.Follows y a)
    (hb : b ≤ stepsPerToken) (hf : ∀ v q lt, (f v).Follows (next v q lt) b) :
    (x >>= f).Follows (y.andThen next) a :=
  h.bind (Nat.le_refl a) (Nat.add_le_add_left hb a) hf

theorem Follows.andRest {x : Code α} {f : α → Code β} {y : Parsed p true α}
    {next : α → (q : Parser) → q.remaining < p.remaining → Parsed q false β} (h : x.Follows y a)
    (hf : ∀ v q lt, (f v).Follows (next v q lt) b) : (x >>= f).Follows (y.andThen next) (a + b) :=
  h.bind (Nat.le_add_right a b) (Nat.le_refl _) hf

theorem follows_goto (routine : Routine) {y : Parsed p takes Expression}
    (h : routine.code.Follows y a) : (goto routine).Follows y (a + 2) := by
  obtain ⟨n, hn, hle⟩ := h
  have hreturn := Runs.ofExcept y.outcome.1 y.outcome.2
  rw [← bind_done (Code.ofExcept _)] at hreturn
  exact ⟨n + 0 + 2, .call hn hreturn, by omega⟩

theorem follows_read (c : Production) {y : Parsed p takes Expression} (h : c.code.Follows y a) :
    (read c).Follows y (a + 2) :=
  follows_goto (.production c) h

theorem follows_pure (v : α) : (pure v : Code α).Follows (.pure v : Parsed p false α) 0 :=
  ⟨0, .done, by simp [Parsed.pure, Parsed.kept]⟩

theorem follows_expected (construct : Construct) : (expected construct : Code α).Follows
    (.failed (.parse (.expected construct p.lookahead)) p : Parsed p takes α) 1 :=
  ⟨1, .look .fail, by simp [Parsed.kept, Nat.add_comm]⟩

theorem runs_token (p : Parser) (k : Kind) :
    (token k).Runs p 1 (p.accept k).1 (p.accept k).2 := by
  apply Runs.accept
  rw [bind_done]
  exact .ofExcept _ _

theorem follows_token (p : Parser) (k : Kind) (h : k ≠ .eof) :
    (token k).Follows (.token p k h) 1 := by
  have haccept := runs_token p k
  have hkept : (Parsed.token p k h).kept ≤ p.remaining := by
    have houtcome := Parsed.outcome_token p k h
    cases hy : Parsed.token p k h with
    | done value rest le => exact le
    | failed error rest =>
      rw [hy] at houtcome
      exact Parser.remaining_of_accept_eq_error houtcome.symm
  rw [← Parsed.outcome_token p k h] at haccept
  exact ⟨1, haccept, by rw [stepsPerToken]; omega⟩

theorem follows_take (p : Parser) (h : p.kind ≠ .eof) : (token p.kind).Follows (.take p h) 1 := by
  rw [Parsed.take_eq_token rfl h h]
  exact follows_token p _ h

/-! ### Attributes and comparisons -/

theorem follows_number (p : Parser) : number.Follows p.number 2 := by
  unfold number Parser.number
  apply Follows.kind
  apply Follows.ite
  · apply (follows_token p _ _).andThen (b := 1) (by decide)
    intro minus q _
    exact (follows_token q _ _).map _
  · exact (follows_token p _ _).map _

theorem follows_string (p : Parser) : string.Follows p.string 1 :=
  (follows_token p _ _).map _

theorem follows_reference (p : Parser) : reference.Follows p.reference 3 := by
  unfold reference Parser.reference
  apply (follows_token p _ _).andRest (b := 2)
  intro first q _
  apply Follows.kind
  apply Follows.ite
  · apply Follows.relax
    apply (follows_token q _ _).andThen (b := 1) (by decide)
    intro dot r _
    exact (follows_token r _ _).map _
  · exact (follows_pure _).mono (by decide)

theorem follows_moreReferences (list : List Expression) (p : Parser) :
    (moreReferences list).Follows (p.moreReferences list) 2 := by
  induction list, p using Parser.moreReferences.induct with
  | case1 list p hk ih =>
    rw [Parser.moreReferences, if_pos hk, moreReferences]
    apply Follows.kind
    rw [if_pos hk]
    apply Follows.relax
    apply (follows_token p _ _).andThen (b := 9) (by decide)
    intro comma q hq
    apply (follows_read .reference (follows_reference q)).andRest (b := 4)
    intro next r hr
    exact follows_goto (.moreReferences _) (ih q hq next r hr)
  | case2 list p hk =>
    rw [Parser.moreReferences, if_neg hk, moreReferences]
    apply Follows.kind
    rw [if_neg hk]
    exact (follows_pure _).mono (by decide)

theorem follows_references (p : Parser) : references.Follows p.references 9 := by
  unfold references Parser.references
  apply (follows_read .reference (follows_reference p)).andRest (b := 4)
  intro first q _
  exact follows_goto (.moreReferences _) (follows_moreReferences [first] q)

theorem follows_comparable (p : Parser) : comparable.Follows p.comparable 6 := by
  have hnumber := follows_read .number (follows_number p)
  unfold comparable Parser.comparable
  split
  case h_1 hk => exact .dispatch hk (follows_read .reference (follows_reference p)) (by decide)
  case h_2 hk | h_3 hk => exact .dispatch hk hnumber (by decide)
  case h_4 hk => exact .dispatch hk (follows_read .string (follows_string p)) (by decide)
  case h_5 =>
    apply Follows.kind
    split <;> first | contradiction | exact (follows_expected _).mono (by decide)

theorem follows_comparisonOperator (p : Parser) :
    comparisonOperator.Follows p.comparisonOperator 2 := by
  unfold comparisonOperator Parser.comparisonOperator
  apply Follows.kind
  split
  · exact (follows_take p _).map _
  · exact follows_expected _

theorem follows_comparison (p : Parser) : comparison.Follows p.comparison 8 := by
  unfold comparison Parser.comparison
  apply (follows_read .comparable (follows_comparable p)).andThen (b := 4) (by decide)
  intro lhs q _
  apply (follows_read .comparisonOperator (follows_comparisonOperator q)).andThen (b := 8)
    (by decide)
  intro op r _
  exact (follows_read .comparable (follows_comparable r)).map _

/-! ### Levels -/

/-- The steps of a level that its tokens do not pay for: those at the bottom, where a comparison
makes the most, and six for each level on the way down. -/
def descent (l : Level) : Nat := 11 + 6 * l.height

theorem follows_operands {l m : Level} (hm : l.inner = m)
    (first : (level m).Follows (Parser.level m p) a)
    (more : ∀ lhs q, q.remaining < p.remaining →
      (moreOperands l lhs).Follows (Parser.moreOperands l lhs q) 2) :
    (operands l).Follows ((Parser.level m p).andThen fun lhs q _ => Parser.moreOperands l lhs q)
      (a + 6) := by
  subst hm
  apply (follows_read (.level l.inner) first).andRest (b := 4)
  intro lhs q hq
  exact follows_goto (.moreOperands l lhs) (more lhs q hq)

theorem follows_enclosed {l : Level} (g : Expression → Expression)
    (hl : descent l + 2 ≤ stepsPerToken)
    (h : ∀ q, q.remaining < p.remaining → (level l).Follows (Parser.level l q) (descent l)) :
    (do
      let _ ← token .openParen
      let body ← read (.level l)
      let _ ← token .closeParen
      return g body).Follows
      ((Parsed.token p .openParen).andThen fun _ p _ =>
        (Parser.level l p).andThen fun body p _ =>
          (Parsed.token p .closeParen).map fun _ => g body) 1 := by
  apply (follows_token p _ _).andThen hl
  intro opening q hq
  apply (follows_read (.level l) (h q hq)).andThen (b := 1) (by decide)
  intro body r _
  exact (follows_token r _ _).map _

theorem follows_levels :
    (∀ l p, (level l).Follows (Parser.level l p) (descent l)) ∧
    (∀ l lhs p, (moreOperands l lhs).Follows (Parser.moreOperands l lhs p) 2) ∧
    (∀ p, operand.Follows (Parser.operand p) (descent .operand)) ∧
    (∀ p, relation.Follows (Parser.relation p) (descent .relation)) ∧
    ∀ p, parenthesized.Follows (Parser.parenthesized p) 1 := by
  refine Parser.level.mutual_induct
    (fun l p => (level l).Follows (Parser.level l p) (descent l))
    (fun l lhs p => (moreOperands l lhs).Follows (Parser.moreOperands l lhs p) 2)
    (fun p => operand.Follows (Parser.operand p) (descent .operand))
    (fun p => relation.Follows (Parser.relation p) (descent .relation))
    (fun p => parenthesized.Follows (Parser.parenthesized p) 1)
    ?levelRelation ?levelOperand ?product ?join ?difference ?union ?conjunction ?disjunction
    ?more ?stop ?not ?group ?word ?number ?minus ?string ?noOperand ?project ?select ?rename
    ?grouped ?stored ?noRelation ?parenthesized
  case levelRelation => intro p h; rw [Parser.level]; exact h
  case levelOperand => intro p h; rw [Parser.level]; exact h
  case product => intro p first more; rw [Parser.level]; exact follows_operands rfl first more
  case join => intro p first more; rw [Parser.level]; exact follows_operands rfl first more
  case difference => intro p first more; rw [Parser.level]; exact follows_operands rfl first more
  case union => intro p first more; rw [Parser.level]; exact follows_operands rfl first more
  case conjunction => intro p first more; rw [Parser.level]; exact follows_operands rfl first more
  case disjunction => intro p first more; rw [Parser.level]; exact follows_operands rfl first more
  case more =>
    intro l lhs p hk inner more
    rw [Parser.moreOperands, dif_pos hk, moreOperands]
    apply Follows.kind
    rw [if_pos hk]
    apply Follows.relax
    -- The operator pays for the way down to the next operand and for the call of the loop.
    have hinner : descent l.inner + 2 + 4 ≤ stepsPerToken := by cases l <;> decide
    apply (follows_take p _).andThen hinner
    intro op q hq
    apply (follows_read (.level l.inner) (inner q hq)).andRest
    intro rhs r hr
    exact follows_goto (.moreOperands l _) (more op q hq rhs r hr)
  case stop =>
    intro l lhs p hk
    rw [Parser.moreOperands, dif_neg hk, moreOperands]
    apply Follows.kind
    rw [if_neg hk]
    exact (follows_pure _).mono (by decide)
  case not =>
    intro p hk h
    rw [Parser.operand, hk, operand]
    refine .dispatch hk (a := 1) ?_ (by decide)
    apply (follows_token p _ _).andThen (b := 1) (by decide)
    intro op q hq
    exact follows_enclosed _ (by decide) (h q hq)
  case group =>
    intro p hk h
    rw [Parser.operand, hk, operand]
    exact .dispatch hk (follows_enclosed id (by decide) h) (by decide)
  case word | number | minus | string =>
    intro p hk
    rw [Parser.operand, hk, operand]
    exact .dispatch hk (follows_read .comparison (follows_comparison p)) (by decide)
  case noOperand =>
    intro p h₁ h₂ h₃ h₄ h₅ h₆
    rw [Parser.operand, operand]
    apply Follows.kind (a := 10)
    (repeat' split) <;> first | contradiction | exact (follows_expected _).mono (by decide)
  case project =>
    intro p hk h
    rw [Parser.relation, hk, relation]
    refine .dispatch hk (a := 1) ?_ (by decide)
    apply (follows_token p _ _).andThen (b := 11) (by decide)
    intro op q hq
    apply (follows_read .references (follows_references q)).andThen (b := 3) (by decide)
    intro list r hr
    exact (follows_goto .parenthesized (h q hq r hr)).map _
  case select =>
    intro p hk hp h
    rw [Parser.relation, hk, relation]
    refine .dispatch hk (a := 1) ?_ (by decide)
    apply (follows_token p _ _).andThen (b := descent .disjunction + 2) (by decide)
    intro op q hq
    apply (follows_read (.level .disjunction) (hp q hq)).andThen (b := 3) (by decide)
    intro predicate r hr
    exact (follows_goto .parenthesized (h q hq r hr)).map _
  case rename =>
    intro p hk hlist h
    rw [Parser.relation, hk, relation]
    refine .dispatch hk (a := 1) ?_ (by decide)
    apply (follows_token p _ _).andThen (b := 5) (by decide)
    intro op q hq
    apply (follows_read .reference (follows_reference q)).andThen (b := 4) (by decide)
    intro target r hr
    apply Follows.kind
    apply Follows.ite
    · apply Follows.mono (a := 1) _ (by decide)
      apply (follows_token r _ _).andThen (b := 11) (by decide)
      intro left s hs
      apply (follows_read .references (follows_references s)).andThen (b := 1) (by decide)
      intro list t ht
      apply (follows_token t _ _).andThen (b := 3) (by decide)
      intro right u hu
      exact (follows_goto .parenthesized (hlist q hq r hr s hs t ht u hu)).map _
    · exact (follows_goto .parenthesized (h q hq r hr)).map _
  case grouped =>
    intro p hk h
    rw [Parser.relation, hk, relation]
    exact .dispatch hk (follows_goto .parenthesized h) (by decide)
  case stored =>
    intro p hk
    rw [Parser.relation, hk, relation]
    exact .dispatch hk ((follows_token p _ _).map _) (by decide)
  case noRelation =>
    intro p h₁ h₂ h₃ h₄ h₅
    rw [Parser.relation, relation]
    apply Follows.kind (a := 10)
    (repeat' split) <;> first | contradiction | exact (follows_expected _).mono (by decide)
  case parenthesized =>
    intro p h
    rw [Parser.parenthesized, parenthesized]
    exact follows_enclosed id (by decide) h

/-! ### Every routine -/

theorem Follows.exists_runs {x : Code α} {y : Parsed p takes α} (h : x.Follows y a)
    (ha : a ≤ stepsPerToken) : ∃ n ≤ stepsPerToken * (p.remaining + 1),
      x.Runs p n y.outcome.1 y.outcome.2 := by
  obtain ⟨n, hn, hle⟩ := h
  refine ⟨n, ?_, hn⟩
  rw [Nat.mul_add, Nat.mul_one]
  omega

theorem exists_runs_expression (p : Parser) : ∃ n ≤ stepsPerToken * (p.remaining + 1),
    expression.Runs p n p.expression.1 p.expression.2 := by
  obtain ⟨n, hn, hle⟩ := follows_read (.level .union) (follows_levels.1 .union p)
  have hsteps : n + 1 ≤ stepsPerToken * (p.remaining + 1) := by
    simp only [descent, Level.height, stepsPerToken] at hle ⊢
    omega
  cases hy : (Parser.level .union p).outcome with
  | mk result q =>
    rw [hy] at hn
    cases result with
    | error error =>
      rw [Parser.expression_of_error hy]
      exact ⟨n, Nat.le_of_succ_le hsteps, hn.bind .fail⟩
    | ok e =>
      rw [Parser.expression_of_ok hy]
      have heof := (runs_token q .eof).map fun _ => e
      exact ⟨n + 1, hsteps, hn.bind heof⟩

end Code

/-- From any parser the code of a routine comes to what the routine answers. -/
theorem Routine.exists_runs (routine : Routine) (p : Parser) :
    ∃ n ≤ stepsPerToken * (p.remaining + 1),
      routine.code.Runs p n (routine.run p).1 (routine.run p).2 := by
  obtain ⟨level, more, -, -, parenthesized⟩ := Code.follows_levels
  cases routine with
  | production c =>
    cases c with
    | expression => exact Code.exists_runs_expression p
    | number => exact (Code.follows_number p).exists_runs (by decide)
    | string => exact (Code.follows_string p).exists_runs (by decide)
    | reference => exact (Code.follows_reference p).exists_runs (by decide)
    | references => exact (Code.follows_references p).exists_runs (by decide)
    | comparable => exact (Code.follows_comparable p).exists_runs (by decide)
    | comparisonOperator => exact (Code.follows_comparisonOperator p).exists_runs (by decide)
    | comparison => exact (Code.follows_comparison p).exists_runs (by decide)
    | level l => exact (level l p).exists_runs (by cases l <;> decide)
  | parenthesized => exact (parenthesized p).exists_runs (by decide)
  | moreReferences list => exact (Code.follows_moreReferences list p).exists_runs (by decide)
  | moreOperands l lhs => exact (more l lhs p).exists_runs (by decide)

end RelationalAlgebra
