import RelationalAlgebra.DataSet
import RelationalAlgebra.Evaluation.Workings
import RelationalAlgebra.Expression.Parser
import RelationalAlgebra.Log
import RelationalAlgebra.Value.Numeral

/-!
# Evaluating expressions

Evaluating a node visits its children from left to right and combines what they mean. A node means a
relation, or a part of an operator: a predicate, a list of attributes, a name, a value. Beside its
meaning a visit leaves the log and the relations found on the way, also when it fails.

`Site.meaning` says what a node means in terms of its children and has no recursion of its own;
`Expression.visit` supplies the children.
-/
namespace RelationalAlgebra

/-- What a node of an expression stands for. -/
inductive Meaning where
  | relation (r : Relation)
  | value (v : Value)
  | name (s : String)
  | reference (r : Reference)
  | predicate (p : Predicate Reference)
  | references (rs : List Reference)
  deriving DecidableEq, Repr

namespace Meaning

def role : Meaning → Role
  | relation _ => .relation
  | value _ => .value
  | name _ => .identifier
  | reference _ => .reference
  | predicate _ => .predicate
  | references _ => .references

/-- The error that something else was wanted. -/
def unexpected (wanted : Role) (m : Meaning) : Error := .malformedTree (.unexpected wanted m.role)

def relation? : Meaning → Option Relation
  | relation r => some r
  | _ => none

def asRelation : Meaning → Except Error Relation
  | relation r => .ok r
  | m => .error (m.unexpected .relation)

def asNumber : Meaning → Except Error Int
  | value (.number n) => .ok n
  | m => .error (m.unexpected .number)

def asName : Meaning → Except Error String
  | name s => .ok s
  | m => .error (m.unexpected .identifier)

def asReference : Meaning → Except Error Reference
  | reference r => .ok r
  | m => .error (m.unexpected .reference)

def asReferences : Meaning → Except Error (List Reference)
  | references rs => .ok rs
  | m => .error (m.unexpected .references)

def asPredicate : Meaning → Except Error (Predicate Reference)
  | predicate p => .ok p
  | _ => .error .illFormedPredicate

def asOperand : Meaning → Except Error (Operand Reference)
  | reference r => .ok (.named r)
  | value v => .ok (.literal v)
  | _ => .error .illFormedPredicate

/-- Where attributes are expected a name is a bare reference. -/
def inAttributePosition : Meaning → Meaning
  | name s => reference (.bare s)
  | m => m

end Meaning

/-- What visiting a node leaves: its meaning or an error, the log, and the relations found. -/
structure Visited where
  meaning : Except Error Meaning
  events : List Event
  workings : Workings

/-- A computation at a node: its result, the log, and the workings of the children visited. -/
structure Visit (α : Type) where
  result : Except Error α
  events : List Event
  children : List Workings

namespace Visit
variable {α β : Type}

/-- Goes on after a success, keeping what has been logged and found; stops at a failure. -/
def bind (x : Visit α) (f : α → Visit β) : Visit β :=
  match x.result with
  | .ok a =>
    let y := f a
    ⟨y.result, x.events ++ y.events, x.children ++ y.children⟩
  | .error e => ⟨.error e, x.events, x.children⟩

instance : Monad Visit where
  pure a := ⟨.ok a, [], []⟩
  bind := bind

/-- A result that leaves nothing else. -/
def ofExcept (x : Except Error α) : Visit α := ⟨x, [], []⟩

instance : MonadLift (Except Error) Visit := ⟨ofExcept⟩

def fail (e : Error) : Visit α := ofExcept (.error e)

def log (e : Event) : Visit Unit := ⟨.ok (), [e], []⟩

/-- What a visited child has left becomes part of the computation at its parent. -/
def ofChild (v : Visited) : Visit Meaning := ⟨v.meaning, v.events, [v.workings]⟩

/-- Ends the computation at a node; a relation is recorded. -/
def close (x : Visit Meaning) : Visited :=
  ⟨x.result, x.events, .node (x.result.toOption.bind Meaning.relation?) x.children⟩

@[simp]
theorem result_pure (a : α) : (pure a : Visit α).result = .ok a := rfl

@[simp]
theorem result_bind (x : Visit α) (f : α → Visit β) :
    (x >>= f).result = x.result >>= fun a => (f a).result := by
  show (x.bind f).result = _
  unfold bind
  cases x.result <;> rfl

@[simp]
theorem result_ofExcept (x : Except Error α) : (ofExcept x).result = x := rfl

@[simp]
theorem result_log (e : Event) : (log e).result = .ok () := rfl

@[simp]
theorem result_ofChild (v : Visited) : (ofChild v).result = v.meaning := rfl

end Visit

/-- A child of a node: its kind, and what a visit leaves. -/
structure Child where
  kind? : Option Kind
  visited : Visited

/-- A node that is being evaluated. -/
structure Site where
  token : Token
  children : List Child

namespace Site

def label (s : Site) : String := Expression.labelOf (some s.token) s.children.isEmpty

def literal (s : Site) : Except Error String :=
  match s.token.literal with
  | some text => .ok text
  | none => .error (.malformedTree (.noLiteral s.label))

def get (s : Site) (i : Nat) : Except Error Child :=
  match s.children[i]? with
  | some c => .ok c
  | none => .error (.malformedTree (.missingChild s.label i))

def child (s : Site) (i : Nat) : Visit Meaning := do
  let c ← s.get i
  .ofChild c.visited

/-- Visits a child where attributes are expected. -/
def namedChild (s : Site) (i : Nat) : Visit Meaning := do
  return (← s.child i).inAttributePosition

/-- Visits child number `i`, which has to be a relation. -/
def operand (s : Site) (i : Nat) : Visit Relation := do
  (← s.child i).asRelation

def number (s : Site) : Except Error Meaning := do
  let digits ← s.literal
  match Numeral.integer? digits.toList with
  | some n => return .value (.number n)
  | none => throw (.malformedTree (.notANumber digits))

def referencesOf : List Child → Visit (List Reference)
  | [] => pure []
  | c :: cs => do
    let m ← Visit.ofChild c.visited
    let r ← m.inAttributePosition.asReference
    return r :: (← referencesOf cs)

def comparison (s : Site) : Visit Meaning := do
  let op ← Comparison.ofKind s.token.kind
  let lhs ← (← s.namedChild 0).asOperand
  let rhs ← (← s.namedChild 1).asOperand
  return .predicate (.compare op lhs rhs)

def connective (s : Site)
    (join : Predicate Reference → Predicate Reference → Predicate Reference) : Visit Meaning := do
  let p ← (← s.child 0).asPredicate
  let q ← (← s.child 1).asPredicate
  return .predicate (join p q)

def lookup (d : DataSet) (s : Site) : Visit Meaning := do
  let name ← s.literal
  let r ← d.lookup name
  .log (.lookedUp name r.size)
  return .relation r

def project (s : Site) : Visit Meaning := do
  let references ← (← s.child 0).asReferences
  let r ← s.operand 1
  let result ← Relation.Checked.project r references
  .log (.projected result.schema.length result.size)
  return .relation result

def select (s : Site) : Visit Meaning := do
  let predicate ← (← s.child 0).asPredicate
  let r ← s.operand 1
  let resolved ← predicate.resolve r.schema
  let result ← r.selection resolved
  .log (.selected resolved r.size result.size)
  return .relation result

/-- The list of new names in a renaming, if there is one, and the number of the child behind it. -/
def newNames (s : Site) : Visit (List Reference × Nat) :=
  match s.children with
  | [_, list, _] =>
    if list.kind? = some .list then do
      return (← (← s.child 1).asReferences, 2)
    else .fail (.malformedTree (.renameChildren 3))
  | [_, _] => return ([], 1)
  | cs => .fail (.malformedTree (.renameChildren cs.length))

def rename (s : Site) : Visit Meaning := do
  let target ← s.get 0
  if target.kind? ≠ some .word then
    .fail (.malformedTree .renameTarget)
  else
    let name ← (← s.child 0).asName
    let (references, i) ← s.newNames
    let r ← s.operand i
    let result ← Relation.Checked.rename r name references
    .log (.renamed name references.length)
    return .relation result

def combine (op : BinaryOperator) (s : Site) : Visit Meaning := do
  let x ← s.operand 0
  let y ← s.operand 1
  let result ← Relation.Checked.apply op x y
  .log (.combined op x.size y.size result.size)
  return .relation result

def meaning (d : DataSet) (s : Site) : Visit Meaning :=
  match s.token.kind with
  | .relation => s.lookup d
  | .number => s.number
  | .string => do return .value (.text (← s.literal))
  | .word => do return .name (← s.literal)
  | .minus => do return .value (.number (-(← (← s.child 0).asNumber)))
  | .reference => do
    let qualifier ← (← s.child 0).asName
    let name ← (← s.child 1).asName
    return .reference (.qualified qualifier name)
  | .list => do return .references (← referencesOf s.children)
  | .greater | .greaterEqual | .equal | .notEqual | .less | .lessEqual => s.comparison
  | .and => s.connective .and
  | .or => s.connective .or
  | .not => do return .predicate (.not (← (← s.child 0).asPredicate))
  | .project => s.project
  | .select => s.select
  | .rename => s.rename
  | .union => s.combine (.set .union)
  | .intersection => s.combine (.set .intersection)
  | .difference => s.combine (.set .difference)
  | .product => s.combine .product
  | .join => s.combine .join
  | .eof | .openParen | .closeParen | .openBracket | .closeBracket | .dot | .comma =>
    .fail (.noHandler s.token.kind)

end Site

namespace Expression

mutual

def visit (d : DataSet) : Expression → Visited
  | node none _ => (Visit.fail (.malformedTree .nullNode)).close
  | node (some token) children => (Site.meaning d ⟨token, childrenOf d children⟩).close

/-- The expressions as children of a node. What a visit leaves counts once the node asks for it. -/
def childrenOf (d : DataSet) : List Expression → List Child
  | [] => []
  | e :: es => ⟨e.kind?, visit d e⟩ :: childrenOf d es

end

def evaluate (d : DataSet) (e : Expression) : Except Error Relation :=
  (e.visit d).meaning >>= Meaning.asRelation

end Expression

/-- The relation that a text stands for. -/
def evaluate (d : DataSet) (text : String) : Except Error Relation := do
  let e ← Expression.parse text
  e.evaluate d

/-- The answer to a text: its expression, the relation it stands for, and the relations found on the
way. -/
structure Answer where
  expression : Expression
  relation : Relation
  workings : Workings

/-- Answers a text, and gives the log. -/
def answer (d : DataSet) (text : String) : Except Error Answer × List Event :=
  let (parsed, tokens) := Expression.read text
  let lexed := (tokens.filter (·.kind ≠ .string)).map Event.lexed
  match parsed with
  | .error e => (.error e, lexed)
  | .ok e =>
    let visited := e.visit d
    (do return ⟨e, ← visited.meaning >>= Meaning.asRelation, visited.workings⟩,
      lexed ++ visited.events)

theorem answer_eq (d : DataSet) (text : String) : (answer d text).1 = do
    let e ← Expression.parse text
    return ⟨e, ← e.evaluate d, (e.visit d).workings⟩ := by
  unfold answer Expression.parse
  cases Expression.read text with
  | mk parsed tokens => cases parsed <;> rfl

end RelationalAlgebra
