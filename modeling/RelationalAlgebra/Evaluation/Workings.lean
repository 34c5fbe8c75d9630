import RelationalAlgebra.Relation

/-!
# Intermediate results

The workings of an evaluation hold the relation found at each node of an expression. They are laid
out like the expression itself, as far as it was visited: children are visited from left to right,
so the workings of a node cover the first of its children.
-/
namespace RelationalAlgebra

/-- The relation found at a node, if any, and the workings of the children visited. -/
inductive Workings where
  | node (relation : Option Relation) (children : List Workings)
  deriving Repr

namespace Workings

def empty : Workings := node none []

instance : Inhabited Workings := ⟨empty⟩

def relation? : Workings → Option Relation
  | node relation _ => relation

def children : Workings → List Workings
  | node _ children => children

def child (w : Workings) (i : Nat) : Workings := w.children.getD i empty

/-- The relation found at the node that a path of child indices leads to. -/
def get? (w : Workings) : List Nat → Option Relation
  | [] => w.relation?
  | i :: path => (w.child i).get? path

mutual

def size : Workings → Nat
  | node relation children => relation.toList.length + sizeAll children

def sizeAll : List Workings → Nat
  | [] => 0
  | w :: ws => size w + sizeAll ws

end

end Workings

end RelationalAlgebra
