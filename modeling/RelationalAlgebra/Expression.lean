import RelationalAlgebra.Error

/-!
# Expressions

An expression is a tree of tokens. The kind of a node's token decides what the node means: leaves
carry a literal, operators carry their operands in order. Trees that no text spells are expressions
too, down to nodes without a token; evaluating them reports what they lack.
-/
namespace RelationalAlgebra

/-- A node with its token, if it has one, and its children in order. -/
inductive Expression where
  | node (token : Option Token) (children : List Expression)
  deriving Repr

namespace Expression

instance : Inhabited Expression := ⟨node none []⟩

def leaf (kind : Kind) (literal : String) : Expression := node (some (.lit kind literal)) []

/-- A node without a literal. -/
def branch (kind : Kind) (children : List Expression) : Expression :=
  node (some (.bare kind)) children

def token? : Expression → Option Token
  | node token _ => token

def children : Expression → List Expression
  | node _ children => children

def kind? (e : Expression) : Option Kind := e.token?.map Token.kind

def literal? (e : Expression) : Option String := e.token?.bind Token.literal

def isLeaf (e : Expression) : Bool := e.children.isEmpty

def isNull (e : Expression) : Bool := e.token?.isNone

/-- How messages call a node: leaves by their literal, others by their kind. -/
def labelOf (token : Option Token) (isLeaf : Bool) : String :=
  match token with
  | none => "<null>"
  | some t => if isLeaf then "<" ++ t.literal.getD "null" ++ ">" else "<" ++ t.kind.name ++ ">"

def label (e : Expression) : String := labelOf e.token? e.isLeaf

mutual

/-- The tree in prefix form with parentheses; a root without a token only lists its children. -/
def display : Expression → String
  | node token [] => labelOf token true
  | node none (c :: cs) => " ".intercalate (displayAll (c :: cs))
  | node (some t) (c :: cs) =>
    "(" ++ labelOf (some t) false ++ " " ++ " ".intercalate (displayAll (c :: cs)) ++ ")"

def displayAll : List Expression → List String
  | [] => []
  | e :: es => display e :: displayAll es

end

/-- What holds of a node whenever it holds of its children holds of every expression. -/
theorem induction {P : Expression → Prop}
    (node : ∀ token children, (∀ c ∈ children, P c) → P (node token children)) (e : Expression) :
    P e :=
  Expression.rec (motive_1 := P) (motive_2 := fun es => ∀ c ∈ es, P c)
    (fun token children ih => node token children ih)
    (fun _ h => nomatch h)
    (fun _ _ hd tl c hc => by
      rcases List.mem_cons.1 hc with rfl | hc
      · exact hd
      · exact tl c hc)
    e

end Expression

end RelationalAlgebra
