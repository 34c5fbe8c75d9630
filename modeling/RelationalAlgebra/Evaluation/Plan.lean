import RelationalAlgebra.Evaluation

/-!
# Plans

The plan of an evaluated expression is the tree of its relational operators, each with the relation
it produced. Predicates, attribute lists and the targets of renamings are no part of it.
-/
namespace RelationalAlgebra

/-- An operator or a stored relation, what it produced, and the plans of its operands. -/
inductive Plan where
  | node (name : String) (relation : Relation) (operands : List Plan)
  deriving Repr

def BinaryOperator.glyph : BinaryOperator → String
  | set .union => "∪"
  | set .intersection => "∩"
  | set .difference => "−"
  | product => "×"
  | join => "⨝"

namespace Plan

def name : Plan → String
  | node name _ _ => name

def relation : Plan → Relation
  | node _ relation _ => relation

def operands : Plan → List Plan
  | node _ _ operands => operands

mutual

def size : Plan → Nat
  | node _ _ operands => 1 + sizeAll operands

def sizeAll : List Plan → Nat
  | [] => 0
  | p :: ps => size p + sizeAll ps

end

/-- One node as a line: its name and the number of its tuples, indented by its depth. -/
def line (depth : Nat) (name : String) (tuples : Nat) : String :=
  "".pushn ' ' (2 * depth) ++ name ++ " [" ++ toString tuples ++
    (if tuples = 1 then " tuple]\n" else " tuples]\n")

mutual

def renderAt (depth : Nat) : Plan → String
  | node name relation operands => line depth name relation.size ++ renderAll (depth + 1) operands

def renderAll (depth : Nat) : List Plan → String
  | [] => ""
  | p :: ps => renderAt depth p ++ renderAll depth ps

end

/-- One line for each node, operands indented under their operator. -/
def render (p : Plan) : String := renderAt 0 p

/-- A node of an evaluated expression, with the plans of its children. -/
structure Site where
  token : Token
  children : List (Except Error Plan)
  relation? : Option Relation

namespace Site

def label (s : Site) : String := Expression.labelOf (some s.token) s.children.isEmpty

/-- The plan of child number `i`, once the node's own relation is known. -/
def child (s : Site) (i : Nat) : Except Error (Except Error Plan) :=
  match s.children[i]? with
  | some c => .ok c
  | none => .error (.malformedTree (.missingChild s.label i))

/-- Plans from left to right, up to the first failure. -/
def sequence : List (Except Error Plan) → Except Error (List Plan)
  | [] => .ok []
  | p :: ps => do
    let p ← p
    return p :: (← sequence ps)

/-- The plan of the node with some of its children as operands. -/
def assemble (s : Site) (name : String) (operands : List (Except Error Plan)) :
    Except Error Plan :=
  match s.relation? with
  | some r => do return node name r (← sequence operands)
  | none => .error (.malformedTree (.notEvaluated s.label))

def binary (s : Site) (op : BinaryOperator) : Except Error Plan := do
  let x ← s.child 0
  let y ← s.child 1
  s.assemble op.glyph [x, y]

def plan (s : Site) : Except Error Plan :=
  match s.token.kind with
  | .relation => s.assemble (s.token.literal.getD "") []
  | .project => do s.assemble "π" [← s.child 1]
  | .select => do s.assemble "σ" [← s.child 1]
  | .rename =>
    match s.children with
    | _ :: c :: cs => s.assemble "ρ" [(c :: cs).getLast (List.cons_ne_nil c cs)]
    | _ => .error (.malformedTree .renameOperand)
  | .union => s.binary (.set .union)
  | .intersection => s.binary (.set .intersection)
  | .difference => s.binary (.set .difference)
  | .product => s.binary .product
  | .join => s.binary .join
  | k => .error (.noHandler k)

end Site

mutual

def ofWorkings : Expression → Workings → Except Error Plan
  | .node none _, _ => .error (.malformedTree .nullNode)
  | .node (some token) children, w =>
    Site.plan ⟨token, ofWorkingsAll children w.children, w.relation?⟩

def ofWorkingsAll : List Expression → List Workings → List (Except Error Plan)
  | [], _ => []
  | e :: es, [] => ofWorkings e .empty :: ofWorkingsAll es []
  | e :: es, w :: ws => ofWorkings e w :: ofWorkingsAll es ws

end

end Plan

def Answer.plan (a : Answer) : Except Error Plan :=
  Plan.ofWorkings a.expression a.workings

end RelationalAlgebra
