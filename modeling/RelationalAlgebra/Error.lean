import RelationalAlgebra.DataSet.Cell
import RelationalAlgebra.Schema
import RelationalAlgebra.Text.Utf8
import RelationalAlgebra.Token

/-!
# What can go wrong

Errors are causes; `Error.message` gives each the sentence that a user sees.
-/
namespace RelationalAlgebra

/-- Text that does not start with a token. Positions count characters. -/
inductive LexError where
  | invalidCharacter (c : Char) (position : Nat)
  | unclosedString (position : Nat)
  deriving DecidableEq, Repr

def LexError.message : LexError → String
  | invalidCharacter c position =>
    "Invalid character: " ++ c.toString ++ " at position " ++ toString position
  | unclosedString position =>
    "String starting at position " ++ toString position ++ " is not closed"

/-- What a production has to start with. -/
inductive Construct where
  | comparable
  | comparisonOperator
  | operand
  | relation
  deriving DecidableEq, Repr

def Construct.phrase : Construct → String
  | comparable => "comparable value"
  | comparisonOperator => "comparison operator"
  | operand => "start of operand"
  | relation => "start of relation"

/-- A token that the grammar does not allow where it stands. -/
inductive ParseError where
  | mismatch (wanted found : Kind)
  | expected (construct : Construct) (found : Token)
  deriving DecidableEq, Repr

def ParseError.message : ParseError → String
  | mismatch wanted found =>
    "Type mismatch; Expecting " ++ wanted.name ++ " but found " ++ found.name
  | expected construct found =>
    "Expected " ++ construct.phrase ++ ", but found " ++ found.display

/-- What a node of an expression may stand for. -/
inductive Role where
  | relation
  | value
  | number
  | identifier
  | reference
  | predicate
  | references
  deriving DecidableEq, Repr

def Role.phrase : Role → String
  | relation => "a relation"
  | value => "a value"
  | number => "a number"
  | identifier => "an identifier"
  | reference => "an attribute"
  | predicate => "a predicate"
  | references => "an attribute list"

/-- Faults of expressions that no text spells. Nodes are given by their label. -/
inductive TreeFault where
  | nullNode
  | missingChild (label : String) (index : Nat)
  | noLiteral (label : String)
  | notANumber (digits : String)
  | unexpected (wanted found : Role)
  | renameTarget
  | renameChildren (count : Nat)
  | renameOperand
  | notEvaluated (label : String)
  deriving DecidableEq, Repr

def TreeFault.message : TreeFault → String
  | nullNode => "cannot visit a null node"
  | missingChild label index => label ++ " is missing child " ++ toString index
  | noLiteral label => label ++ " has no value"
  | notANumber digits => digits ++ " is not a number"
  | unexpected wanted found => "expected " ++ wanted.phrase ++ " but found " ++ found.phrase
  | renameTarget => "a rename target must be a plain name"
  | renameChildren count => "rename with " ++ toString count ++ " children"
  | renameOperand => "rename without an operand"
  | notEvaluated label => label ++ " has not been evaluated"

/-- Faults of the data that a relation is to be built from. -/
inductive DataFault where
  | repeatedAttribute (key : String)
  | tupleSize (tuple values attributes : Nat)
  | missingValue (tuple : Nat) (key : String)
  | wrongType (tuple : Nat) (found : DataType) (key : String) (declared : DataType)
  | rowSize (row values : Nat) (qualifier : String) (attributes : Nat)
  | notText (table column : String) (fault : Utf8.Fault)
  | foreignCell (table column : String) (storage : ForeignClass)
  deriving DecidableEq, Repr

def DataFault.message : DataFault → String
  | repeatedAttribute key => "attribute " ++ key ++ " appears more than once"
  | tupleSize tuple values attributes =>
    "tuple " ++ toString tuple ++ " has " ++ toString values ++ " values but the schema has " ++
      toString attributes ++ " attributes"
  | missingValue tuple key => "tuple " ++ toString tuple ++ " has no value for " ++ key
  | wrongType tuple found key declared =>
    "tuple " ++ toString tuple ++ " has a " ++ found.name ++ " value for " ++ key ++
      " which is of type " ++ declared.name
  | rowSize row values qualifier attributes =>
    "row " ++ toString row ++ " has " ++ toString values ++ " values but " ++ qualifier ++
      " has " ++ toString attributes ++ " attributes"
  | notText table column fault => table ++ "." ++ column ++ ": " ++ fault.message
  | foreignCell table column storage =>
    table ++ "." ++ column ++ " holds an unsupported " ++ storage.name ++ " value"

/-- The operators that need operands of one shape. -/
inductive SetOperation where
  | union
  | intersection
  | difference
  deriving DecidableEq, Repr

def SetOperation.name : SetOperation → String
  | union => "Union"
  | intersection => "Intersection"
  | difference => "Difference"

/-- Every way in which reading or evaluating an expression, or building a relation, can fail. -/
inductive Error where
  | lex (e : LexError)
  | parse (e : ParseError)
  | relationNotFound (name : String)
  | attributeNotFound (reference : Reference)
  | ambiguousAttribute (name : String)
  | typeMismatch (lhs : String) (lhsType : DataType) (rhs : String) (rhsType : DataType)
  | renameArity (name : String) (expected : Nat)
  | renameDuplicates (name : String)
  | renameAmbiguous (name : String)
  | arityMismatch (operation : SetOperation)
  | ambiguousProduct
  | illFormedPredicate
  | noHandler (kind : Kind)
  | malformedTree (fault : TreeFault)
  | dataSet (fault : DataFault)
  deriving DecidableEq, Repr

namespace Error

def message : Error → String
  | lex e => e.message
  | parse e => e.message
  | relationNotFound name => "Relation " ++ name ++ " does not exist."
  | attributeNotFound reference => reference.spelling ++ " does not exist."
  | ambiguousAttribute name => name ++ " is ambiguous."
  | typeMismatch lhs lhsType rhs rhsType =>
    lhs ++ " of type " ++ lhsType.name ++ " cannot be compared with " ++ rhs ++ " of type " ++
      rhsType.name ++ "."
  | renameArity name expected =>
    "Rename to " ++ name ++ " requires " ++ toString expected ++ " attributes."
  | renameDuplicates name => "Rename to " ++ name ++ " contains duplicate attribute names."
  | renameAmbiguous name => "Rename to " ++ name ++ " would be ambiguous."
  | arityMismatch operation =>
    operation.name ++ " cannot be performed due to incompatible arity."
  | ambiguousProduct => "Cartesian product would produce ambiguous attribute names."
  | illFormedPredicate => "Ill-formed predicate"
  | noHandler kind => "No handler for " ++ kind.name ++ " nodes"
  | malformedTree fault => "Malformed expression tree: " ++ fault.message
  | dataSet fault => "Invalid data set: " ++ fault.message

/-- Errors of reading text, before anything is evaluated. -/
def isSyntaxError : Error → Bool
  | lex _ | parse _ => true
  | _ => false

end Error

end RelationalAlgebra
