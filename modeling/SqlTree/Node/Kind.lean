import SqlTree.Json.Basic

/-!
# Kinds of nodes

Every node of a tree is of one of 31 kinds. A document names the kind of each of its objects under
the key `classname`; the name is the tag of the kind.
-/

namespace SqlTree

/-- The kind of a node. -/
inductive Kind where
  | value
  | column
  | userVariable
  | binary
  | between
  | oneOf
  | nullTest
  | existence
  | caseOf
  | function
  | math
  | group
  | schemaTable
  | queryTable
  | remoteTable
  | fromTable
  | joinClause
  | resultColumn
  | orderBy
  | groupBy
  | limit
  | query
  | insertion
  | update
  | deletion
  | columnDef
  | primaryKey
  | createTable
  | createSchema
  | dropTable
  | dropSchema
deriving DecidableEq, Inhabited

namespace Kind

/-- The tag of a kind. -/
def tag : Kind → String
  | value => "Value"
  | column => "ColumnExpression"
  | userVariable => "Variable"
  | binary => "BinaryExpression"
  | between => "BetweenExpression"
  | oneOf => "InExpression"
  | nullTest => "IsNullExpression"
  | existence => "ExistsExpression"
  | caseOf => "CaseExpression"
  | function => "FunctionExpression"
  | math => "MathExpression"
  | group => "GroupExpression"
  | schemaTable => "SchemaTable"
  | queryTable => "QueryTable"
  | remoteTable => "RemoteTable"
  | fromTable => "FromTable"
  | joinClause => "JoinClause"
  | resultColumn => "ResultColumn"
  | orderBy => "OrderBy"
  | groupBy => "GroupBy"
  | limit => "Limit"
  | query => "Query"
  | insertion => "Insert"
  | update => "Update"
  | deletion => "Delete"
  | columnDef => "ColumnDef"
  | primaryKey => "PrimaryKeyConstraint"
  | createTable => "CreateTable"
  | createSchema => "CreateSchema"
  | dropTable => "DropTable"
  | dropSchema => "DropSchema"

/-- All kinds. -/
def all : List Kind :=
  [value, column, userVariable, binary, between, oneOf, nullTest, existence, caseOf, function, math,
    group, schemaTable, queryTable, remoteTable, fromTable, joinClause, resultColumn, orderBy,
    groupBy, limit, query, insertion, update, deletion, columnDef, primaryKey, createTable,
    createSchema, dropTable, dropSchema]

/-- The kind with a given tag. -/
def ofTag? (tag : String) : Option Kind :=
  all.find? fun k => k.tag == tag

theorem mem_all (k : Kind) : k ∈ all := by
  cases k <;> decide

@[simp] theorem ofTag?_tag (k : Kind) : ofTag? k.tag = some k := by
  cases k <;> rfl

/-- Different kinds have different tags. -/
theorem tag_injective {k l : Kind} (h : k.tag = l.tag) : k = l :=
  Option.some.inj (by rw [← ofTag?_tag k, h, ofTag?_tag l])

end Kind

end SqlTree
