import SqlTree.Dialect
import SqlTree.Json.Printer
import SqlTree.Node.Kind

/-!
# What can be wrong with a tree

Errors say what is missing or misplaced in a node, or why a document is not the document of a node.
`Error.message` words them. The two families are told apart by `Error.isRevival`: errors about the
document itself, and errors about the construct that it describes.

## Main definitions

* `Gap`, `Misfit`, `DocumentFault`: the causes behind `Error.incomplete`, `Error.invalidOperand` and
  `Error.invalidDocument`.
* `Error`, `Error.name`, `Error.message`, `Error.isRevival`.
-/

namespace SqlTree

/-- What an incomplete node lacks. -/
inductive Gap where
  /-- The expression of a slot. -/
  | slot (name : String)
  /-- The node is itself an unset expression. -/
  | placeholder
  | conditionPairs
  | operands (operator : String) (count : Nat)
  | groupedExpressions
  | resultColumnsOrSources
  | groupingExpressions
  | rows
  | assignments
  | definitions
deriving DecidableEq, Inhabited

namespace Gap

/-- The wording of a gap. -/
def message : Gap → String
  | slot name => name ++ " expression is not set"
  | placeholder => "placeholder expression cannot be rendered"
  | conditionPairs => "at least one WHEN/THEN pair is required"
  | operands operator count =>
    "operator '" ++ operator ++ "' needs at least 2 operands, found " ++ toString count
  | groupedExpressions => "at least one expression is required"
  | resultColumnsOrSources => "a query needs result columns or a FROM clause"
  | groupingExpressions => "at least one grouping expression is required"
  | rows => "no values to insert"
  | assignments => "at least one assignment is required"
  | definitions => "a table needs column definitions or a query"

end Gap

/-- Why an operand does not fit its operator. -/
inductive Misfit where
  | variableOnLeft
  | nullOnRight
  | listOrQueryOnRight
  | stringOnRight
deriving DecidableEq, Inhabited

namespace Misfit

/-- The wording of a misfit. -/
def message : Misfit → String
  | variableOnLeft => "left expression must be a Variable"
  | nullOnRight => "right expression is fixed to NULL"
  | listOrQueryOnRight => "right expression must be a non-empty array or a query"
  | stringOnRight => "right expression must be a string"

end Misfit

/-- What a field of a document should have held. -/
inductive FieldType where
  | string
  | boolean
  | unsignedInteger
  | array
  | arrayOfStrings
deriving DecidableEq, Inhabited

namespace FieldType

/-- The wording of a field type. -/
def text : FieldType → String
  | string => "string"
  | boolean => "boolean"
  | unsignedInteger => "unsigned integer"
  | array => "array"
  | arrayOfStrings => "array of strings"

end FieldType

/-- Why a document is not the document of a node. -/
inductive DocumentFault where
  /-- The text is no JSON text. -/
  | unreadable
  | notAnObject (found : Json)
  | untagged
  | field (key : String) (expected : FieldType) (found : Json)
  | caseNotAnObject
  | assignmentNotAnObject
  | rowNotAnArray (found : Json)
deriving DecidableEq, Inhabited

namespace DocumentFault

/-- The key of the tag of a node. -/
def tagKey : String := "classname"

/-- The wording of a fault, after the name of the node. -/
def message : DocumentFault → String
  | unreadable => ""
  | notAnObject found => ": expected an object, found " ++ found.text
  | untagged => ": missing '" ++ tagKey ++ "' tag"
  | field key expected found =>
    ": field '" ++ key ++ "' must be " ++ expected.text ++ ", found " ++ found.text
  | caseNotAnObject => ": each case must be an object"
  | assignmentNotAnObject => ": each assignment must be an object"
  | rowNotAnArray found => ": each row must be an array, found " ++ found.text

end DocumentFault

/-- What is wrong with a tree or with the document of one. Nodes are named by their tags. -/
inductive Error where
  | missingField (node field : String)
  | incomplete (node : String) (gap : Gap)
  | unsupportedOperator (node operator : String)
  | invalidNegation (operator : String)
  | invalidOperand (operator : String) (misfit : Misfit)
  | missingAlias (node : String)
  | duplicateAlias (name : String)
  | unknownTable (name : String)
  | arityMismatch (expected found : Nat)
  | duplicateColumn (name : String)
  | unknownColumn (name : String)
  | multiplePrimaryKeys (table : String)
  | nullablePrimaryKey (column : String)
  /-- A join with a condition that it must not have, or without one that it must have. -/
  | invalidJoin (operator : JoinOperator)
  | kindNotFound (tag : String)
  | unexpectedKind (expected found : String)
  | invalidDocument (node : String) (fault : DocumentFault)
deriving DecidableEq, Inhabited

namespace Error

/-- The wording of an error. -/
def message : Error → String
  | missingField node field => "Missing required field '" ++ field ++ "' in " ++ node
  | incomplete node gap => "Incomplete " ++ node ++ ": " ++ gap.message
  | unsupportedOperator node operator =>
    "Unsupported operator '" ++ operator ++ "' for " ++ node
  | invalidNegation operator => "Invalid use of `not` flag with operator '" ++ operator ++ "'"
  | invalidOperand operator misfit =>
    "Invalid operand for operator '" ++ operator ++ "': " ++ misfit.message
  | missingAlias node => "Missing alias name for " ++ node
  | duplicateAlias name => "Duplicate table name '" ++ name ++ "'"
  | unknownTable name => "Table '" ++ name ++ "' is not available in the current scope"
  | arityMismatch expected found =>
    "Column count mismatch: expected " ++ toString expected ++ " values, found " ++ toString found
  | duplicateColumn name => "Duplicate column '" ++ name ++ "'"
  | unknownColumn name => "Column '" ++ name ++ "' is not defined"
  | multiplePrimaryKeys table => "Table '" ++ table ++ "' defines more than one PRIMARY KEY"
  | nullablePrimaryKey column => "PRIMARY KEY column '" ++ column ++ "' cannot be null"
  | invalidJoin .cross => "Invalid CROSS JOIN: CROSS JOIN cannot have an ON condition"
  | invalidJoin operator => "Invalid " ++ operator.text ++ " JOIN: ON condition is required"
  | kindNotFound tag => "Kind not found: '" ++ tag ++ "'"
  | unexpectedKind expected found =>
    "Unexpected node kind: expected " ++ expected ++ ", found '" ++ found ++ "'"
  | invalidDocument node fault => "Invalid JSON for " ++ node ++ fault.message

/-- The name of an error. -/
def name : Error → String
  | missingField .. => "MissingField"
  | incomplete .. => "Incomplete"
  | unsupportedOperator .. => "UnsupportedOperator"
  | invalidNegation _ => "InvalidNegation"
  | invalidOperand .. => "InvalidOperand"
  | missingAlias _ => "MissingAlias"
  | duplicateAlias _ => "DuplicateAlias"
  | unknownTable _ => "UnknownTable"
  | arityMismatch .. => "ArityMismatch"
  | duplicateColumn _ => "DuplicateColumn"
  | unknownColumn _ => "UnknownColumn"
  | multiplePrimaryKeys _ => "MultiplePrimaryKeys"
  | nullablePrimaryKey _ => "NullablePrimaryKey"
  | invalidJoin _ => "InvalidJoin"
  | kindNotFound _ => "KindNotFound"
  | unexpectedKind .. => "UnexpectedKind"
  | invalidDocument .. => "InvalidJson"

/-- Whether an error is about the document rather than about the construct it describes. -/
def isRevival : Error → Bool
  | kindNotFound _ | unexpectedKind .. | invalidDocument .. => true
  | _ => false

end Error

end SqlTree
