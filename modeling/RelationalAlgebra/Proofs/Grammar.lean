import RelationalAlgebra.Expression.Parser

/-!
# The grammar of expressions

The grammar says which sequences of tokens spell an expression, and which tree a derivation
denotes. It knows nothing of parsers: terminals are tested by their kinds alone, and nothing is
looked at ahead. A repetition `x ( op x )*` has two rules, one for a single `x` and one for an
operator and an `x` behind what has been derived so far; the second is what makes the tree of every
binary level grow to the left.
-/
namespace RelationalAlgebra
namespace Grammar

open Expression (branch leaf node)

/-- `number := [MINUS] NUMBER` -/
inductive Number : List Token → Expression → Prop
  | plain {digits : Token} (h : digits.kind = .number) : Number [digits] (node (some digits) [])
  | negative {sign digits : Token} (hs : sign.kind = .minus) (hd : digits.kind = .number) :
      Number [sign, digits] (node (some sign) [node (some digits) []])

/-- `attribute := ID [ '.' ID ]` -/
inductive Attribute : List Token → Expression → Prop
  | bare {name : Token} (h : name.kind = .word) : Attribute [name] (node (some name) [])
  | qualified {qualifier dot name : Token} (hq : qualifier.kind = .word) (hd : dot.kind = .dot)
      (hn : name.kind = .word) : Attribute [qualifier, dot, name]
        (branch .reference [node (some qualifier) [], node (some name) []])

/-- `attributes := attribute ( ',' attribute )*` -/
inductive Attributes : List Token → List Expression → Prop
  | one {w e} (h : Attribute w e) : Attributes w [e]
  | more {v es w e} {comma : Token} (first : Attributes v es) (hc : comma.kind = .comma)
      (next : Attribute w e) : Attributes (v ++ comma :: w) (es ++ [e])

/-- `comparable := attribute | number | STRING` -/
inductive Comparable : List Token → Expression → Prop
  | named {w e} (h : Attribute w e) : Comparable w e
  | number {w e} (h : Number w e) : Comparable w e
  | string {text : Token} (h : text.kind = .string) : Comparable [text] (node (some text) [])

def comparisonOperators : List Kind :=
  [.less, .lessEqual, .greater, .greaterEqual, .equal, .notEqual]

/-- `comparison := comparable compareOp comparable` -/
inductive Comparison : List Token → Expression → Prop
  | compare {v lhs w rhs} {op : Token} (left : Comparable v lhs)
      (ho : op.kind ∈ comparisonOperators) (right : Comparable w rhs) :
      Comparison (v ++ op :: w) (node (some op) [lhs, rhs])

/-- The productions `level := inner ( op inner )*`, each with its operators. -/
inductive Chain : Level → List Kind → Level → Prop
  | union : Chain .union [.union, .intersection] .difference
  | difference : Chain .difference [.difference] .join
  | join : Chain .join [.join] .product
  | product : Chain .product [.product] .relation
  | disjunction : Chain .disjunction [.or] .conjunction
  | conjunction : Chain .conjunction [.and] .operand

/-- The tokens `w` are `v` between parentheses. -/
inductive Enclosed (v : List Token) : List Token → Prop
  | intro {opening closing : Token} (ho : opening.kind = .openParen)
      (hc : closing.kind = .closeParen) : Enclosed v (opening :: (v ++ [closing]))

/-- What the tokens of each level spell. Parentheses leave no node behind. -/
inductive Derives : Level → List Token → Expression → Prop
  /-- The first operand of a level. -/
  | first {l ops m w e} (hl : Chain l ops m) (h : Derives m w e) : Derives l w e
  /-- One more operand of a level. -/
  | more {l ops m v lhs w rhs} {op : Token} (hl : Chain l ops m) (left : Derives l v lhs)
      (ho : op.kind ∈ ops) (right : Derives m w rhs) :
      Derives l (v ++ op :: w) (node (some op) [lhs, rhs])
  /-- `operand := comparison` -/
  | comparison {w e} (h : Comparison w e) : Derives .operand w e
  /-- `operand := '(' disjunction ')'` -/
  | group {v w e} (h : Derives .disjunction v e) (hw : Enclosed v w) : Derives .operand w e
  /-- `operand := NOT '(' disjunction ')'` -/
  | not {v w e} {op : Token} (ho : op.kind = .not) (h : Derives .disjunction v e)
      (hw : Enclosed v w) : Derives .operand (op :: w) (node (some op) [e])
  /-- `relation := ID` -/
  | stored {name : Token} (h : name.kind = .word) :
      Derives .relation [name] (leaf .relation (name.literal.getD ""))
  /-- `relation := '(' unionIntersection ')'` -/
  | parenthesized {v w e} (h : Derives .union v e) (hw : Enclosed v w) : Derives .relation w e
  /-- `relation := PROJECT attributes '(' unionIntersection ')'` -/
  | project {u list v w e} {op : Token} (ho : op.kind = .project) (attributes : Attributes u list)
      (h : Derives .union v e) (hw : Enclosed v w) :
      Derives .relation (op :: (u ++ w)) (branch .project [branch .list list, e])
  /-- `relation := SELECT disjunction '(' unionIntersection ')'` -/
  | select {u condition v w e} {op : Token} (ho : op.kind = .select)
      (predicate : Derives .disjunction u condition) (h : Derives .union v e)
      (hw : Enclosed v w) :
      Derives .relation (op :: (u ++ w)) (branch .select [condition, e])
  /-- `relation := RENAME attribute '(' unionIntersection ')'` -/
  | rename {u target v w e} {op : Token} (ho : op.kind = .rename) (name : Attribute u target)
      (h : Derives .union v e) (hw : Enclosed v w) :
      Derives .relation (op :: (u ++ w)) (branch .rename [target, e])
  /-- `relation := RENAME attribute '[' attributes ']' '(' unionIntersection ')'` -/
  | renameAll {t target u list v w e} {op left right : Token} (ho : op.kind = .rename)
      (name : Attribute t target) (hl : left.kind = .openBracket) (attributes : Attributes u list)
      (hr : right.kind = .closeBracket) (h : Derives .union v e) (hw : Enclosed v w) :
      Derives .relation (op :: (t ++ left :: (u ++ right :: w)))
        (branch .rename [target, branch .list list, e])

end Grammar
end RelationalAlgebra
