import Mathlib.Logic.Function.Iterate
import RelationalAlgebra.Expression.Parser

/-!
# Productions as code for a machine

The types of the productions in `Parser` carry the reason why they come back. Here the same
productions are written down once more without it, as code that may call any routine at any place,
and a machine with a stack runs the code step by step. Nothing in the machine keeps a routine from
calling itself for ever. `Code.Runs` says that code comes to an answer, and after how many steps;
the machine then makes just these steps (`Code.Runs.iterate_step`), and on the way the parser does
nothing but accept tokens (`Code.Runs.preserves`).
-/
namespace RelationalAlgebra

open Expression (branch leaf node)
open RelationalAlgebra.Parser (single)

variable {α β γ : Type}

/-- What code can call: a production, a relation in parentheses, and the loops that go on behind the
first of several attributes or operands. -/
inductive Routine where
  | production (c : Production)
  | parenthesized
  | moreReferences (list : List Expression)
  | moreOperands (l : Level) (lhs : Expression)

namespace Routine

def isLoop : Routine → Bool
  | moreReferences _ | moreOperands _ _ => true
  | _ => false

/-- What a routine answers, and the parser that it leaves. -/
def run : Routine → Parser → Except Error Expression × Parser
  | production c, p => c.run p
  | parenthesized, p => (Parser.parenthesized p).outcome
  | moreReferences list, p => (Parser.moreReferences list p).outcome
  | moreOperands l lhs, p => (Parser.moreOperands l lhs p).outcome

end Routine

/-- Code ends with a value or an error, or it goes on with the token at hand, with a token of some
kind that it accepts, or with the value of a routine. -/
inductive Code (α : Type) where
  | done (value : α)
  | fail (error : Error)
  | look (next : Token → Code α)
  | accept (k : Kind) (next : Token → Code α)
  | call (routine : Routine) (next : Expression → Code α)

namespace Code

def bind : Code α → (α → Code β) → Code β
  | done value, f => f value
  | fail error, _ => fail error
  | look next, f => look fun t => (next t).bind f
  | accept k next, f => accept k fun t => (next t).bind f
  | call routine next, f => call routine fun e => (next e).bind f

instance : Monad Code where
  pure := done
  bind := bind

/-- The end of code that has come to a result. -/
def ofExcept : Except Error α → Code α
  | .ok value => done value
  | .error error => fail error

theorem bind_done (x : Code α) : x.bind done = x := by
  induction x with
  | done | fail => rfl
  | look next ih | accept k next ih | call routine next ih =>
    rw [bind]
    exact congrArg _ (funext ih)

theorem bind_ofExcept_bind (r : Except Error α) (f : α → Code β) (g : β → Code γ) :
    ((ofExcept r).bind f).bind g = (ofExcept r).bind fun a => (f a).bind g := by
  cases r <;> rfl

/-! ### The code of the routines -/

def kind : Code Kind := look fun t => done t.kind

def token (k : Kind) : Code Token := accept k done

def goto (routine : Routine) : Code Expression := call routine done

def read (c : Production) : Code Expression := goto (.production c)

def expected (construct : Construct) : Code α :=
  look fun t => fail (.parse (.expected construct t))

def number : Code Expression := do
  if (← kind) = .minus then
    let minus ← token .minus
    let digits ← token .number
    return node (some minus) [single digits]
  else
    let digits ← token .number
    return single digits

def string : Code Expression := do
  let text ← token .string
  return single text

def reference : Code Expression := do
  let first ← token .word
  if (← kind) = .dot then
    let _ ← token .dot
    let second ← token .word
    return branch .reference [single first, single second]
  else
    return single first

def moreReferences (list : List Expression) : Code Expression := do
  if (← kind) = .comma then
    let _ ← token .comma
    let next ← read .reference
    goto (.moreReferences (list ++ [next]))
  else
    return branch .list list

def references : Code Expression := do
  let first ← read .reference
  goto (.moreReferences [first])

def comparable : Code Expression := do
  match ← kind with
  | .word => read .reference
  | .number | .minus => read .number
  | .string => read .string
  | _ => expected .comparable

def comparisonOperator : Code Expression := do
  let k ← kind
  if k.isComparison then
    let op ← token k
    return single op
  else
    expected .comparisonOperator

def comparison : Code Expression := do
  let lhs ← read .comparable
  let op ← read .comparisonOperator
  let rhs ← read .comparable
  return node op.token? (op.children ++ [lhs, rhs])

def operand : Code Expression := do
  match ← kind with
  | .not =>
    let not ← token .not
    let _ ← token .openParen
    let body ← read (.level .disjunction)
    let _ ← token .closeParen
    return node (some not) [body]
  | .openParen =>
    let _ ← token .openParen
    let body ← read (.level .disjunction)
    let _ ← token .closeParen
    return body
  | .word | .number | .minus | .string => read .comparison
  | _ => expected .operand

def parenthesized : Code Expression := do
  let _ ← token .openParen
  let body ← read (.level .union)
  let _ ← token .closeParen
  return body

def relation : Code Expression := do
  match ← kind with
  | .project =>
    let _ ← token .project
    let list ← read .references
    let body ← goto .parenthesized
    return branch .project [list, body]
  | .select =>
    let _ ← token .select
    let predicate ← read (.level .disjunction)
    let body ← goto .parenthesized
    return branch .select [predicate, body]
  | .rename =>
    let _ ← token .rename
    let target ← read .reference
    if (← kind) = .openBracket then
      let _ ← token .openBracket
      let list ← read .references
      let _ ← token .closeBracket
      let body ← goto .parenthesized
      return branch .rename [target, list, body]
    else
      let body ← goto .parenthesized
      return branch .rename [target, body]
  | .openParen => goto .parenthesized
  | .word =>
    let name ← token .word
    return leaf .relation (name.literal.getD "")
  | _ => expected .relation

def moreOperands (l : Level) (lhs : Expression) : Code Expression := do
  let k ← kind
  if k ∈ l.operators then
    let op ← token k
    let rhs ← read (.level l.inner)
    goto (.moreOperands l (node (some op) [lhs, rhs]))
  else
    return lhs

def operands (l : Level) : Code Expression := do
  let first ← read (.level l.inner)
  goto (.moreOperands l first)

def level : Level → Code Expression
  | .relation => relation
  | .operand => operand
  | .product => operands .product
  | .join => operands .join
  | .difference => operands .difference
  | .union => operands .union
  | .conjunction => operands .conjunction
  | .disjunction => operands .disjunction

def expression : Code Expression := do
  let e ← read (.level .union)
  let _ ← token .eof
  return e

end Code

def Production.code : Production → Code Expression
  | expression => .expression
  | number => .number
  | string => .string
  | reference => .reference
  | references => .references
  | comparable => .comparable
  | comparisonOperator => .comparisonOperator
  | comparison => .comparison
  | level l => .level l

def Routine.code : Routine → Code Expression
  | production c => c.code
  | parenthesized => .parenthesized
  | moreReferences list => .moreReferences list
  | moreOperands l lhs => .moreOperands l lhs

/-! ### The machine -/

/-- The code at hand, the callers that wait for its value, and the parser. -/
structure Machine where
  code : Code Expression
  callers : List (Expression → Code Expression)
  parser : Parser

namespace Machine

def start (routine : Routine) (p : Parser) : Machine := ⟨routine.code, [], p⟩

/-- One step. A value goes to the caller that has waited the shortest, an error ends every caller;
with no caller left the machine stands still. -/
def step : Machine → Machine
  | ⟨.done value, caller :: callers, p⟩ => ⟨caller value, callers, p⟩
  | ⟨.fail error, _ :: callers, p⟩ => ⟨.fail error, callers, p⟩
  | ⟨.look next, callers, p⟩ => ⟨next p.lookahead, callers, p⟩
  | ⟨.accept k next, callers, p⟩ =>
    ⟨(Code.ofExcept (p.accept k).1).bind next, callers, (p.accept k).2⟩
  | ⟨.call routine next, callers, p⟩ => ⟨routine.code, next :: callers, p⟩
  | m => m

/-- The answer of a machine that stands still. -/
def result? : Machine → Option (Except Error Expression × Parser)
  | ⟨.done value, [], p⟩ => some (.ok value, p)
  | ⟨.fail error, [], p⟩ => some (.error error, p)
  | _ => none

theorem step_of_result? {m : Machine} {r : Except Error Expression × Parser}
    (h : m.result? = some r) : m.step = m := by
  unfold result? at h
  split at h
  · rfl
  · rfl
  · cases h

theorem iterate_step_of_result? {m : Machine} {r : Except Error Expression × Parser}
    (h : m.result? = some r) (n : Nat) : step^[n] m = m :=
  Function.iterate_fixed (step_of_result? h) n

end Machine

namespace Code

/-- The code at `p` comes to the result `r` in `n` steps and leaves the parser `q`. A call costs a
step when it begins and one when it ends. -/
inductive Runs : {α : Type} → Code α → Parser → Nat → Except Error α → Parser → Prop
  | done {α : Type} {value : α} {p : Parser} : Runs (done value) p 0 (.ok value) p
  | fail {α : Type} {error : Error} {p : Parser} : Runs (α := α) (fail error) p 0 (.error error) p
  | look {α : Type} {next : Token → Code α} {p q : Parser} {n : Nat} {r : Except Error α}
      (h : Runs (next p.lookahead) p n r q) : Runs (look next) p (n + 1) r q
  | accept {α : Type} {k : Kind} {next : Token → Code α} {p q : Parser} {n : Nat}
      {r : Except Error α} (h : Runs ((ofExcept (p.accept k).1).bind next) (p.accept k).2 n r q) :
      Runs (accept k next) p (n + 1) r q
  | call {α : Type} {routine : Routine} {next : Expression → Code α} {p q s : Parser} {m n : Nat}
      {a : Except Error Expression} {r : Except Error α} (first : Runs routine.code p m a q)
      (second : Runs ((ofExcept a).bind next) q n r s) : Runs (call routine next) p (m + n + 2) r s

variable {x : Code α} {p q s : Parser} {m n : Nat} {a : Except Error α} {r : Except Error β}

theorem Runs.ofExcept (r : Except Error α) (p : Parser) : (ofExcept r).Runs p 0 r p := by
  cases r with
  | ok value => exact .done
  | error error => exact .fail

/-- Code that goes on with other code makes the steps of both. -/
theorem Runs.bind {f : α → Code β} (hx : x.Runs p m a q)
    (hf : ((Code.ofExcept a).bind f).Runs q n r s) : (x.bind f).Runs p (m + n) r s := by
  induction hx with
  | done | fail =>
    rw [Nat.zero_add]
    exact hf
  | look _ ih => exact Nat.add_right_comm _ _ _ ▸ .look (ih hf)
  | accept _ ih =>
    have hnext := ih hf
    rw [bind_ofExcept_bind] at hnext
    exact Nat.add_right_comm _ _ _ ▸ .accept hnext
  | @call _ _ _ _ _ _ m k _ _ first _ _ ih =>
    have hnext := ih hf
    rw [bind_ofExcept_bind] at hnext
    have hsteps : m + k + 2 + n = m + (k + n) + 2 := by omega
    exact hsteps ▸ .call first hnext

theorem Runs.map (hx : x.Runs p n a q) (g : α → β) :
    (x.bind fun v => pure (g v)).Runs p n (a.map g) q := by
  have hpure : ((Code.ofExcept a).bind fun v => pure (g v)).Runs q 0 (a.map g) q := by
    cases a with
    | ok value => exact .done
    | error error => exact .fail
  exact hx.bind hpure

/-- The machine runs code below any callers just as it runs the code alone. -/
theorem Runs.iterate_step {f : α → Code Expression} (h : x.Runs p n a q)
    (callers : List (Expression → Code Expression)) :
    Machine.step^[n] ⟨x.bind f, callers, p⟩ = ⟨(Code.ofExcept a).bind f, callers, q⟩ := by
  induction h generalizing callers with
  | done | fail => rfl
  | look _ ih => exact ih callers
  | @accept _ _ _ p _ _ _ _ ih =>
    have hnext := ih (f := f) callers
    rw [bind_ofExcept_bind] at hnext
    exact hnext
  | @call _ routine next p q s m n a r _ _ body rest =>
    have hbody := body (f := Code.done) ((fun e => (next e).bind f) :: callers)
    rw [bind_done, bind_done] at hbody
    have hrest := rest (f := f) callers
    rw [bind_ofExcept_bind] at hrest
    -- The value of the routine goes to its caller, or the error ends the caller.
    have hreturn : Machine.step ⟨Code.ofExcept a, (fun e => (next e).bind f) :: callers, q⟩ =
        ⟨(Code.ofExcept a).bind fun e => (next e).bind f, callers, q⟩ := by
      cases a <;> rfl
    have hsteps : m + n + 2 = n + 1 + m + 1 := by omega
    rw [hsteps, Function.iterate_succ_apply, Function.iterate_add_apply]
    exact (congrArg _ hbody).trans ((congrArg _ hreturn).trans hrest)

theorem Runs.result?_iterate_step {x : Code Expression} {a : Except Error Expression} {k : Nat}
    (h : x.Runs p n a q) (hk : n ≤ k) : (Machine.step^[k] ⟨x, [], p⟩).result? = some (a, q) := by
  have hrun := h.iterate_step (f := Code.done) []
  rw [bind_done, bind_done] at hrun
  have hresult : (Machine.step^[n] ⟨x, [], p⟩).result? = some (a, q) := by
    rw [hrun]
    cases a <;> rfl
  rw [← Nat.sub_add_cancel hk, Function.iterate_add_apply,
    Machine.iterate_step_of_result? hresult, hresult]

/-- What holds of a parser and of all that accepting tokens makes of it holds of the parser that
code leaves. -/
theorem Runs.preserves {P : Parser → Prop} (h : x.Runs p n a q)
    (hP : ∀ p k, P p → P (p.accept k).2) (hp : P p) : P q := by
  induction h with
  | done | fail => exact hp
  | look _ ih => exact ih hp
  | accept _ ih => exact ih (hP _ _ hp)
  | call _ _ body rest => exact rest (body hp)

end Code

end RelationalAlgebra
