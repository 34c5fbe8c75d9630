import RelationalAlgebra.Proofs.Parsing
import RelationalAlgebra.Proofs.Parsing.Steps

/-!
# Every production comes back and takes a token

A parser can be asked for anything at any time, and it is asked again where the last request has
left it, a failed one included. Whatever has been asked, it stands in front of some of the tokens of
its text (`Parser.Reached.exists_faces`). From there each routine halts within a number of steps
that is linear in these tokens, and a production that succeeds has taken at least one of them
(`Routine.halts_of_reached`).
-/
namespace RelationalAlgebra

open Expression (leaf)

namespace Parser
variable {p q : Parser} {f : Option LexError} {ts : List Token} {e : Expression}

/-- What can be asked of a parser. -/
inductive Request where
  | advance
  | accept (k : Kind)
  | read (c : Production)

/-- The parser that a request leaves, whether it succeeds or fails. -/
def Request.serve : Request → Parser → Parser
  | advance, p => p.advance.2
  | accept k, p => (p.accept k).2
  | read c, p => (c.run p).2

/-- A parser that has been made at some place of a text and has been asked for anything since. -/
inductive Reached : Parser → Prop
  | start {c : Cursor} {p : Parser} (h : ofStream (.ofCursor c) = .ok p) : Reached p
  | serve {p : Parser} (h : Reached p) (request : Request) : Reached (request.serve p)

/-- The tokens to come, the one at hand included, without the end of the text. -/
def toCome (p : Parser) : List Token := (p.lookahead :: p.coming.tokens).filter (·.kind ≠ .eof)

theorem Faces.toCome_eq (h : p.Faces f ts) : p.toCome = ts := by
  cases ts with
  | nil =>
    obtain ⟨_, rfl⟩ := h
    rfl
  | cons t ts =>
    obtain ⟨hne, rfl⟩ := h
    exact List.filter_eq_self.2 fun u hu => decide_eq_true (hne u hu)

theorem Faces.remaining_eq (h : p.Faces f ts) : p.remaining = ts.length := by
  cases ts with
  | nil =>
    obtain ⟨_, rfl⟩ := h
    rfl
  | cons t ts =>
    obtain ⟨hne, rfl⟩ := h
    exact if_neg (hne t List.mem_cons_self)

/-- The parser stands in front of the last ones of some tokens. -/
def Within (ts : List Token) (p : Parser) : Prop := ∃ f us, p.Faces f us ∧ us <:+ ts

theorem Within.advance (h : p.Within ts) : p.advance.2.Within ts := by
  obtain ⟨f, us, hp, hus⟩ := h
  cases us with
  | nil =>
    obtain ⟨_, rfl⟩ := hp
    exact ⟨none, [], ⟨rfl, rfl⟩, hus⟩
  | cons t us =>
    obtain ⟨hne, rfl⟩ := hp
    cases us with
    | nil =>
      cases f with
      | none => exact ⟨none, [], ⟨rfl, rfl⟩, List.nil_suffix⟩
      | some e => exact ⟨e.repeated, [t], ⟨hne, rfl⟩, hus⟩
    | cons u us =>
      exact ⟨f, u :: us, ⟨fun v hv => hne v (List.mem_cons_of_mem _ hv), rfl⟩,
        (List.suffix_cons t _).trans hus⟩

theorem Within.accept (k : Kind) (h : p.Within ts) : (p.accept k).2.Within ts := by
  unfold Parser.accept
  split
  · exact h.advance
  · exact h

theorem Within.run (routine : Routine) (h : p.Within ts) : (routine.run p).2.Within ts := by
  obtain ⟨n, _, hruns⟩ := routine.exists_runs p
  exact hruns.preserves (fun _ k => Within.accept k) h

theorem Faces.within (h : p.Faces f ts) : p.Within ts := ⟨f, ts, h, List.suffix_rfl⟩

theorem Within.remaining_le (h : q.Within ts) : q.remaining ≤ ts.length := by
  obtain ⟨f, us, hq, hus⟩ := h
  rw [hq.remaining_eq]
  exact hus.length_le

theorem Reached.exists_faces (h : p.Reached) : ∃ f ts, p.Faces f ts := by
  induction h with
  | @start c p h =>
    have hne := TokenStream.forall_mem_ofCursor (fun _ _ _ _ heof => heof) c
    rcases ofStream_cases hne with ⟨q, hq, hfaces⟩ | ⟨x, hx, _⟩
    · cases h.symm.trans hq
      exact ⟨_, _, hfaces⟩
    · cases h.symm.trans hx
  | @serve p _ request ih =>
    obtain ⟨f, ts, hp⟩ := ih
    have hserve : (request.serve p).Within ts := by
      cases request with
      | advance => exact hp.within.advance
      | accept k => exact hp.within.accept k
      | read c => exact hp.within.run (.production c)
    obtain ⟨f', us, hq, _⟩ := hserve
    exact ⟨f', us, hq⟩

theorem remaining_lt_of_outcome {y : Parsed p true Expression} (h : y.outcome = (.ok e, q)) :
    q.remaining < p.remaining := by
  obtain ⟨lt, _⟩ := Parsed.outcome_done_iff.1 h
  exact lt

/-- Accepting the end of the text behind an expression brings no tokens back. -/
theorem remaining_lt_of_expression (hp : p.Faces f ts) (h : p.expression = (.ok e, q)) :
    q.remaining < p.remaining := by
  have hunion : ((level .union p).outcome.2).Within ts :=
    hp.within.run (.production (.level .union))
  cases ho : (level .union p).outcome with
  | mk result r =>
    cases result with
    | error x =>
      rw [expression_of_error ho] at h
      cases h
    | ok a =>
      rw [expression_of_ok ho] at h
      rw [ho] at hunion
      obtain ⟨f', us, hr, _⟩ := hunion
      have hq : (r.accept .eof).2 = q := congrArg Prod.snd h
      have hend : q.remaining ≤ us.length := hq ▸ (hr.within.accept .eof).remaining_le
      rw [← hr.remaining_eq] at hend
      exact Nat.lt_of_le_of_lt hend (remaining_lt_of_outcome ho)

end Parser

namespace Routine
variable {p q : Parser} {e : Expression}

theorem remaining_lt {routine : Routine} (hloop : routine.isLoop = false) {f : Option LexError}
    {ts : List Token} (hp : p.Faces f ts) (h : routine.run p = (.ok e, q)) :
    q.remaining < p.remaining := by
  cases routine with
  | moreReferences list => cases hloop
  | moreOperands l lhs => cases hloop
  | parenthesized => exact Parser.remaining_lt_of_outcome h
  | production c =>
    cases c with
    | expression => exact Parser.remaining_lt_of_expression hp h
    | _ => exact Parser.remaining_lt_of_outcome h

end Routine

/-- Whatever has been asked of a parser, every routine that it is asked for now halts: after
`stepsPerToken` steps for each token to come, and as many more, the machine stands still with the
routine's answer. The tokens that are then to come are the last ones of those before, and when a
production has succeeded there are fewer of them. -/
theorem Routine.halts_of_reached {p : Parser} (h : p.Reached) (routine : Routine) :
    (Machine.step^[stepsPerToken * (p.toCome.length + 1)] (.start routine p)).result? =
      some (routine.run p) ∧
    (routine.run p).2.toCome <:+ p.toCome ∧
    (routine.isLoop = false → ∀ e q, routine.run p = (.ok e, q) →
      q.toCome.length < p.toCome.length) := by
  obtain ⟨f, ts, hp⟩ := h.exists_faces
  obtain ⟨f', us, hq, hus⟩ := hp.within.run routine
  rw [hp.toCome_eq, hq.toCome_eq]
  refine ⟨?_, hus, ?_⟩
  · obtain ⟨n, hn, hruns⟩ := routine.exists_runs p
    rw [hp.remaining_eq] at hn
    exact hruns.result?_iterate_step hn
  · intro hloop e q hrun
    rw [hrun] at hq
    have hlt := remaining_lt hloop hp hrun
    rwa [hp.remaining_eq, hq.remaining_eq, ← hq.toCome_eq] at hlt

/-- The parser of a text has refused a token and has then come to a string that nothing closes; the
token in front of that string is still read. -/
theorem Routine.halts_of_reached_behind_failures :
    ∃ p q : Parser, p.Reached ∧ p.toCome = [.lit .word "c"] ∧
      (Machine.step^[80] (.start (.production (.level .union)) p)).result? =
        some (.ok (leaf .relation "c"), q) ∧
      q.toCome.length < p.toCome.length := by
  have hstart : Parser.ofText "(a b × c \"" = .ok ⟨.bare .openParen, ⟨[.lit .word "a",
    .lit .word "b", .bare .product, .lit .word "c"], some (.unclosedString 9)⟩⟩ := by
    decide +kernel
  have hrefused : (Production.level .union).run ⟨.bare .openParen, ⟨[.lit .word "a",
    .lit .word "b", .bare .product, .lit .word "c"], some (.unclosedString 9)⟩⟩ =
    (.error (.parse (.mismatch .closeParen .word)),
      ⟨.lit .word "b", ⟨[.bare .product, .lit .word "c"], some (.unclosedString 9)⟩⟩) := by cbv
  have hunclosed : (Production.level .union).run
    ⟨.lit .word "b", ⟨[.bare .product, .lit .word "c"], some (.unclosedString 9)⟩⟩ =
    (.error (.lex (.unclosedString 9)), ⟨.lit .word "c", ⟨[], none⟩⟩) := by cbv
  have hread : (Production.level .union).run ⟨.lit .word "c", ⟨[], none⟩⟩ =
    (.ok (leaf .relation "c"), ⟨.eof, ⟨[], none⟩⟩) := by cbv
  have hreached : Parser.Reached ⟨.lit .word "c", ⟨[], none⟩⟩ := by
    have h := ((Parser.Reached.start hstart).serve (.read (.level .union))).serve
      (.read (.level .union))
    simp only [Parser.Request.serve, hrefused, hunclosed] at h
    exact h
  obtain ⟨hhalts, _, hfewer⟩ := halts_of_reached hreached (.production (.level .union))
  exact ⟨_, _, hreached, rfl, hhalts.trans (congrArg some hread), hfewer rfl _ _ hread⟩

end RelationalAlgebra
