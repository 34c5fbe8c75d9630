import RelationalAlgebra.Expression
import RelationalAlgebra.Token.Stream

/-!
# Parsing by recursive descent

A parser reads a token stream through one token of lookahead. Binary operators come in levels, the
loosest first: union and intersection, difference, natural join, cartesian product; in predicates
disjunction, then conjunction. Every level folds to the left. Below the levels stand the operators
in front of a parenthesized operand, and the comparisons.

A production that succeeds leaves fewer tokens to come. This is part of the result's type, and it is
why the productions terminate.
-/
namespace RelationalAlgebra

/-- The token at hand and the tokens behind it. -/
structure Parser where
  lookahead : Token
  coming : TokenStream
  deriving DecidableEq, Repr

namespace Parser

/-- A parser at the start of a stream; reading its first token may fail. -/
def ofStream (s : TokenStream) : Except LexError Parser :=
  match s.next with
  | (.ok token, rest) => .ok ⟨token, rest⟩
  | (.error e, _) => .error e

def ofText (text : String) : Except LexError Parser := ofStream (.ofText text)

def kind (p : Parser) : Kind := p.lookahead.kind

/-- How many tokens are left before the end of the text or the next failure. -/
def remaining (p : Parser) : Nat :=
  if p.kind = .eof then 0 else p.coming.tokens.length + 1

/-- Moves to the next token and gives back the one at hand. When reading the next token fails, the
token at hand stays. -/
def advance (p : Parser) : Except Error Token × Parser :=
  match p.coming.next with
  | (.ok token, rest) => (.ok p.lookahead, ⟨token, rest⟩)
  | (.error e, rest) => (.error (.lex e), ⟨p.lookahead, rest⟩)

/-- Moves on if the token at hand is of a kind, and fails in place if not. -/
def accept (p : Parser) (k : Kind) : Except Error Token × Parser :=
  if p.kind = k then p.advance else (.error (.parse (.mismatch k p.kind)), p)

theorem remaining_advance_lt {p q : Parser} {t : Token} (hk : p.kind ≠ .eof)
    (h : p.advance = (.ok t, q)) : q.remaining < p.remaining := by
  obtain ⟨lookahead, ⟨tokens, failure⟩⟩ := p
  have hp : remaining ⟨lookahead, ⟨tokens, failure⟩⟩ = tokens.length + 1 := by
    simp [remaining, hk]
  rw [hp]
  cases tokens with
  | nil =>
    cases failure with
    | none =>
      cases h
      simp [remaining, kind, Token.eof, Token.bare]
    | some e => cases h
  | cons token tokens =>
    cases h
    simp only [remaining, List.length_cons]
    split <;> omega

end Parser

/-- The outcome of a production at `p`: it fails and leaves a parser behind, or it succeeds and
leaves no more tokens to come than `p` had; fewer, if it always takes one. -/
inductive Parsed (p : Parser) (takes : Bool) (α : Type) where
  | done (value : α) (rest : Parser) (le : rest.remaining + takes.toNat ≤ p.remaining)
  | failed (error : Error) (rest : Parser)

namespace Parsed
variable {α β : Type} {p : Parser} {takes : Bool}

/-- The outcome without the count of the remaining tokens. -/
def outcome : Parsed p takes α → Except Error α × Parser
  | done value rest _ => (.ok value, rest)
  | failed error rest => (.error error, rest)

/-- Forgets that a token was taken. -/
def relax : Parsed p true α → Parsed p false α
  | done value rest le => done value rest (Nat.le_of_succ_le le)
  | failed error rest => failed error rest

def map (f : α → β) : Parsed p takes α → Parsed p takes β
  | done value rest le => done (f value) rest le
  | failed error rest => failed error rest

/-- Goes on where a production has stopped. -/
def andThen (x : Parsed p true α)
    (next : α → (q : Parser) → q.remaining < p.remaining → Parsed q takes β) : Parsed p true β :=
  match x with
  | done value q lt =>
    match next value q lt with
    | done value rest le => done value rest (by simp only [Bool.toNat_true] at *; omega)
    | failed error rest => failed error rest
  | failed error rest => failed error rest

/-- Takes the token at hand, which must not be the end of the text. -/
def take (p : Parser) (h : p.kind ≠ .eof) : Parsed p true Token :=
  match hp : p.advance with
  | (.ok token, q) => done token q (Parser.remaining_advance_lt h hp)
  | (.error e, q) => failed e q

/-- Takes a token of one kind. -/
def token (p : Parser) (k : Kind) (h : k ≠ .eof := by decide) : Parsed p true Token :=
  if hk : p.kind = k then take p (hk ▸ h) else failed (.parse (.mismatch k p.kind)) p

def pure (value : α) : Parsed p false α := done value p (Nat.le_refl _)

end Parsed

/-- The levels of binary operators, and what stands at their bottom. -/
inductive Level where
  | relation
  | product
  | join
  | difference
  | union
  | operand
  | conjunction
  | disjunction
  deriving DecidableEq, Repr

namespace Level

def operators : Level → List Kind
  | relation | operand => []
  | product => [.product]
  | join => [.join]
  | difference => [.difference]
  | union => [.union, .intersection]
  | conjunction => [.and]
  | disjunction => [.or]

/-- The level whose expressions are the operands of a level. -/
def inner : Level → Level
  | relation | product => relation
  | join => product
  | difference => join
  | union => difference
  | operand | conjunction => operand
  | disjunction => conjunction

/-- The number of levels below. -/
@[simp]
def height : Level → Nat
  | relation | operand => 0
  | product | conjunction => 1
  | join | disjunction => 2
  | difference => 3
  | union => 4

theorem ne_eof_of_mem_operators {l : Level} {k : Kind} (h : k ∈ l.operators) : k ≠ .eof := by
  rintro rfl
  cases l <;> simp [operators] at h

end Level

namespace Parser
open Expression (leaf branch node)

/-! ### Attributes and comparisons -/

/-- A node for a token. -/
def single (t : Token) : Expression := node (some t) []

/-- A number, perhaps behind a minus sign. -/
def number (p : Parser) : Parsed p true Expression :=
  if p.kind = .minus then
    (Parsed.token p .minus).andThen fun minus p _ =>
      (Parsed.token p .number).map fun digits => node (some minus) [single digits]
  else (Parsed.token p .number).map single

def string (p : Parser) : Parsed p true Expression := (Parsed.token p .string).map single

/-- An attribute, bare or qualified. -/
def reference (p : Parser) : Parsed p true Expression :=
  (Parsed.token p .word).andThen fun first p _ =>
    if p.kind = .dot then
      ((Parsed.token p .dot).andThen fun _ p _ =>
        (Parsed.token p .word).map fun second =>
          branch .reference [single first, single second]).relax
    else .pure (single first)

/-- Further attributes, each behind a comma. -/
def moreReferences (list : List Expression) (p : Parser) : Parsed p false Expression :=
  if p.kind = .comma then
    ((Parsed.token p .comma).andThen fun _ p _ =>
      (reference p).andThen fun next p _ => moreReferences (list ++ [next]) p).relax
  else .pure (branch .list list)
termination_by p.remaining

def references (p : Parser) : Parsed p true Expression :=
  (reference p).andThen fun first p _ => moreReferences [first] p

/-- One side of a comparison. -/
def comparable (p : Parser) : Parsed p true Expression :=
  match p.kind with
  | .word => reference p
  | .number | .minus => number p
  | .string => string p
  | _ => .failed (.parse (.expected .comparable p.lookahead)) p

def comparisonOperator (p : Parser) : Parsed p true Expression :=
  if h : p.kind.isComparison then
    (Parsed.take p (fun he => by simp [he, Kind.isComparison] at h)).map single
  else .failed (.parse (.expected .comparisonOperator p.lookahead)) p

/-- Two comparable values around an operator. -/
def comparison (p : Parser) : Parsed p true Expression :=
  (comparable p).andThen fun lhs p _ =>
    (comparisonOperator p).andThen fun op p _ =>
      (comparable p).map fun rhs => node op.token? (op.children ++ [lhs, rhs])

/-! ### Levels -/

mutual

def level (l : Level) (p : Parser) : Parsed p true Expression :=
  match l with
  | .relation => relation p
  | .operand => operand p
  | .product => (level .relation p).andThen fun first p _ => moreOperands .product first p
  | .join => (level .product p).andThen fun first p _ => moreOperands .join first p
  | .difference => (level .join p).andThen fun first p _ => moreOperands .difference first p
  | .union => (level .difference p).andThen fun first p _ => moreOperands .union first p
  | .conjunction => (level .operand p).andThen fun first p _ => moreOperands .conjunction first p
  | .disjunction =>
    (level .conjunction p).andThen fun first p _ => moreOperands .disjunction first p
termination_by (p.remaining, l.height, 2)

/-- Further operands of a level, each behind one of its operators, folded onto what is there. -/
def moreOperands (l : Level) (lhs : Expression) (p : Parser) : Parsed p false Expression :=
  if h : p.kind ∈ l.operators then
    ((Parsed.take p (Level.ne_eof_of_mem_operators h)).andThen fun op p _ =>
      (level l.inner p).andThen fun rhs p _ => moreOperands l (node (some op) [lhs, rhs]) p).relax
  else .pure lhs
termination_by (p.remaining, l.height, 0)

/-- A predicate in parentheses, perhaps negated, or a comparison. -/
def operand (p : Parser) : Parsed p true Expression :=
  match p.kind with
  | .not =>
    (Parsed.token p .not).andThen fun not p _ =>
      (Parsed.token p .openParen).andThen fun _ p _ =>
        (level .disjunction p).andThen fun body p _ =>
          (Parsed.token p .closeParen).map fun _ => node (some not) [body]
  | .openParen =>
    (Parsed.token p .openParen).andThen fun _ p _ =>
      (level .disjunction p).andThen fun body p _ =>
        (Parsed.token p .closeParen).map fun _ => body
  | .word | .number | .minus | .string => comparison p
  | _ => .failed (.parse (.expected .operand p.lookahead)) p
termination_by (p.remaining, 0, 0)

def parenthesized (p : Parser) : Parsed p true Expression :=
  (Parsed.token p .openParen).andThen fun _ p _ =>
    (level .union p).andThen fun body p _ =>
      (Parsed.token p .closeParen).map fun _ => body
termination_by (p.remaining, 0, 0)

/-- An operator in front of a relation in parentheses, such a relation, or a relation's name. -/
def relation (p : Parser) : Parsed p true Expression :=
  match p.kind with
  | .project =>
    (Parsed.token p .project).andThen fun _ p _ =>
      (references p).andThen fun list p _ =>
        (parenthesized p).map fun body => branch .project [list, body]
  | .select =>
    (Parsed.token p .select).andThen fun _ p _ =>
      (level .disjunction p).andThen fun predicate p _ =>
        (parenthesized p).map fun body => branch .select [predicate, body]
  | .rename =>
    (Parsed.token p .rename).andThen fun _ p _ =>
      (reference p).andThen fun target p _ =>
        if p.kind = .openBracket then
          (Parsed.token p .openBracket).andThen fun _ p _ =>
            (references p).andThen fun list p _ =>
              (Parsed.token p .closeBracket).andThen fun _ p _ =>
                (parenthesized p).map fun body => branch .rename [target, list, body]
        else (parenthesized p).map fun body => branch .rename [target, body]
  | .openParen => parenthesized p
  | .word => (Parsed.token p .word).map fun name => leaf .relation (name.literal.getD "")
  | _ => .failed (.parse (.expected .relation p.lookahead)) p
termination_by (p.remaining, 0, 1)

end

/-! ### Whole texts -/

/-- An expression that the end of the text follows. -/
def expression (p : Parser) : Except Error Expression × Parser :=
  match (level .union p).outcome with
  | (.ok e, p) =>
    match p.accept .eof with
    | (.ok _, p) => (.ok e, p)
    | (.error error, p) => (.error error, p)
  | (.error error, p) => (.error error, p)

end Parser

inductive Production where
  | expression
  | number
  | string
  | reference
  | references
  | comparable
  | comparisonOperator
  | comparison
  | level (l : Level)
  deriving DecidableEq, Repr

/-- Reads what a production describes and gives back the parser behind it. A parser that fails stays
where the failure left it. -/
def Production.run : Production → Parser → Except Error Expression × Parser
  | expression, p => p.expression
  | number, p => (Parser.number p).outcome
  | string, p => (Parser.string p).outcome
  | reference, p => (Parser.reference p).outcome
  | references, p => (Parser.references p).outcome
  | comparable, p => (Parser.comparable p).outcome
  | comparisonOperator, p => (Parser.comparisonOperator p).outcome
  | comparison, p => (Parser.comparison p).outcome
  | level l, p => (Parser.level l p).outcome

namespace Expression

/-- Parses a whole text, and tells which tokens were read from it. -/
def read (text : String) : Except Error Expression × List Token :=
  let stream := TokenStream.ofText text
  match Parser.ofStream stream with
  | .error e => (.error (.lex e), [])
  | .ok p =>
    let (result, rest) := p.expression
    (result, stream.tokens.take (stream.tokens.length - rest.coming.tokens.length))

def parse (text : String) : Except Error Expression := (read text).1

end Expression

end RelationalAlgebra
