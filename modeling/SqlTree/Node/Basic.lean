import SqlTree.Dialect
import SqlTree.Node.Kind

/-!
# Trees of SQL

A tree is a statement, an expression, a table or one of the parts that queries and definitions are
made of. Expressions, tables and queries contain one another, so their types are declared together;
definitions and statements are built on top of them.

Trees may be unfinished: `Expr.unknown` stands where an expression is not set, names may be empty
and lists that need items may have none. Which trees are finished is said by `Node.check`.

## Main definitions

* `Expr`, `CaseArm`, `Table`, `JoinClause`, `FromTable`, `ResultColumn`, `OrderBy`, `GroupBy`,
  `Query`: the mutually dependent parts.
* `ColumnDef`, `PrimaryKey`, `SchemaTable`, `Limit`: the parts without expressions.
* `Statement` and its eight forms.
* `Node`: any of these, with its tag `Node.tag`.
-/

namespace SqlTree

/-- The definition of a column of a table. -/
structure ColumnDef where
  name : String
  typeName : String
  length : Option UInt64
  primaryKey : Bool
  defaultValue : Json
  notNull : Bool
  autoIncrement : Bool
  options : List String
deriving DecidableEq, Inhabited

/-- A primary key over several columns. -/
structure PrimaryKey where
  name : Option String
  columns : List String
deriving DecidableEq, Inhabited

/-- A table of a schema, maybe wrapped in a function and maybe under another name. -/
structure SchemaTable where
  schema : Option String
  table : String
  function : Option String
  label : Option String
deriving DecidableEq, Inhabited

/-- How many rows a query gives, and how many it skips before them. -/
structure Limit where
  count : UInt64
  offset : Option UInt64
deriving DecidableEq, Inhabited

mutual

/-- An expression. -/
inductive Expr where
  /-- A slot that is not set. -/
  | unknown
  | value (value : Json)
  | column (table : Option String) (name : String)
  | userVariable (name : String)
  | binary (operator : String) (left right : Expr) (negated : Bool)
  | between (left start stop : Expr) (negated : Bool)
  | oneOf (left right : Expr) (negated : Bool)
  | nullTest (left : Expr) (negated : Bool)
  | existence (query : Query) (negated : Bool)
  | caseOf (subject : Option Expr) (arms : List CaseArm) (otherwise : Option Expr)
  | function (name : String) (parameters : List Expr) (distinct : Bool)
  | math (operator : String) (operands : List Expr)
  | group (operator : GroupOperator) (items : List Expr)
  /-- A query used as an expression. -/
  | query (query : Query)

/-- A condition of a `CASE` and the value it leads to. -/
structure CaseArm where
  condition : Expr
  result : Expr

/-- A table that a query reads. -/
inductive Table where
  | schema (table : SchemaTable)
  /-- The rows of a query under a name. -/
  | query (query : Query) (label : String)
  /-- Rows fetched from elsewhere under a name. -/
  | remote (config : Json) (columns : List ColumnDef) (label : String)

/-- A table joined to those before it. -/
structure JoinClause where
  operator : JoinOperator
  table : Table
  condition : Option Expr

/-- A table and the tables joined to it. -/
structure FromTable where
  table : Table
  joins : List JoinClause

/-- An expression that a query gives, maybe under a name. -/
structure ResultColumn where
  expression : Expr
  label : Option String

/-- An expression that a query sorts by. -/
structure OrderBy where
  expression : Expr
  direction : SortDirection

/-- The expressions that a query groups by, and the condition on its groups. -/
structure GroupBy where
  expressions : List Expr
  having : Option Expr

/-- A query. -/
structure Query where
  distinct : Bool
  columns : List ResultColumn
  sources : List FromTable
  condition : Option Expr
  groupBy : Option GroupBy
  order : List OrderBy
  limit : Option Limit

end

instance : Inhabited Expr := ⟨.unknown⟩
instance : Inhabited Query := ⟨⟨false, [], [], none, none, [], none⟩⟩

/-- Where the rows of an insertion come from. -/
inductive InsertionSource where
  | rows (rows : List (List Expr))
  | query (query : Query)

/-- An insertion of rows into a table. -/
structure Insertion where
  schema : Option String
  name : String
  columns : List String
  source : InsertionSource

/-- A change of columns of the rows that satisfy a condition. -/
structure Update where
  schema : Option String
  name : String
  assignments : List (String × Expr)
  condition : Option Expr

/-- A deletion of the rows that satisfy a condition. -/
structure Deletion where
  database : Option String
  name : String
  condition : Option Expr

/-- The creation of a table, from definitions, from a query or from both. -/
structure CreateTable where
  schema : Option String
  name : String
  ifNotExists : Bool
  columns : List ColumnDef
  constraints : List PrimaryKey
  query : Option Query

/-- The creation of a schema. -/
structure CreateSchema where
  name : String
  ifNotExists : Bool
deriving DecidableEq, Inhabited

/-- The removal of a table. -/
structure DropTable where
  schema : Option String
  name : String
  ifExists : Bool
deriving DecidableEq, Inhabited

/-- The removal of a schema. -/
structure DropSchema where
  name : String
  ifExists : Bool
deriving DecidableEq, Inhabited

/-- A statement. -/
inductive Statement where
  | query (query : Query)
  | insertion (insertion : Insertion)
  | update (update : Update)
  | deletion (deletion : Deletion)
  | createTable (table : CreateTable)
  | createSchema (schema : CreateSchema)
  | dropTable (table : DropTable)
  | dropSchema (schema : DropSchema)

/-- Any part of a tree. -/
inductive Node where
  | expr (expr : Expr)
  | table (table : Table)
  | fromTable (source : FromTable)
  | joinClause (join : JoinClause)
  | columnDef (column : ColumnDef)
  | primaryKey (key : PrimaryKey)
  | resultColumn (column : ResultColumn)
  | orderBy (order : OrderBy)
  | groupBy (groupBy : GroupBy)
  | limit (limit : Limit)
  | statement (statement : Statement)

/-! ### Questions about one node -/

namespace Expr

/-- Whether the expression is not set. -/
def isUnknown : Expr → Bool
  | unknown => true
  | _ => false

/-- Whether the expression can stand on the right of `IN`: a non-empty list or a query. -/
def isList : Expr → Bool
  | value v => v.isNonemptyArray
  | query _ => true
  | _ => false

/-- Whether the expression is a text. -/
def isString : Expr → Bool
  | value v => v.isString
  | _ => false

/-- Whether the expression is the value null. -/
def isNull : Expr → Bool
  | value v => v.isNull
  | _ => false

/-- Whether the expression is a user variable. -/
def isUserVariable : Expr → Bool
  | userVariable _ => true
  | _ => false

/-- The kind of an expression that is set. -/
def kind? : Expr → Option Kind
  | unknown => none
  | value _ => some .value
  | column .. => some .column
  | userVariable _ => some .userVariable
  | binary .. => some .binary
  | between .. => some .between
  | oneOf .. => some .oneOf
  | nullTest .. => some .nullTest
  | existence .. => some .existence
  | caseOf .. => some .caseOf
  | function .. => some .function
  | math .. => some .math
  | group .. => some .group
  | query _ => some .query

/-- The tag of an expression; one that is not set is called `Unknown`. -/
def tag (e : Expr) : String := e.kind?.elim "Unknown" Kind.tag

/-- An unqualified column. -/
def ofColumn (name : String) : Expr := .column none name

/-- A column of a named table. -/
def ofTableColumn (table name : String) : Expr := .column (some table) name

/-- A text as an expression. -/
def ofString (s : String) : Expr := .value (.string s)

/-- A natural number as an expression. -/
def ofNatural (n : UInt64) : Expr := .value (.natural n)

end Expr

namespace Table

/-- A table without schema, function and label. -/
def named (name : String) : Table := .schema ⟨none, name, none, none⟩

/-- The kind of a table. -/
def kind : Table → Kind
  | schema _ => .schemaTable
  | query .. => .queryTable
  | remote .. => .remoteTable

/-- The name by which columns refer to the table: its label if it has one, else its own. -/
def name : Table → String
  | schema t => t.label.getD t.table
  | query _ label => label
  | remote _ _ label => label

/-- The label of a table. -/
def label? : Table → Option String
  | schema t => t.label
  | query _ label => some label
  | remote _ _ label => some label

end Table

namespace FromTable

/-- A table without joins. -/
def ofTable (table : Table) : FromTable := ⟨table, []⟩

end FromTable

namespace ResultColumn

/-- An expression without a name. -/
def ofExpr (expression : Expr) : ResultColumn := ⟨expression, none⟩

end ResultColumn

/-- The name of a table with its schema in front, if there is one. -/
def qualifiedName : Option String → String → String
  | some schema, name => schema ++ "." ++ name
  | none, name => name

namespace Statement

/-- The kind of a statement. -/
def kind : Statement → Kind
  | query _ => .query
  | insertion _ => .insertion
  | update _ => .update
  | deletion _ => .deletion
  | createTable _ => .createTable
  | createSchema _ => .createSchema
  | dropTable _ => .dropTable
  | dropSchema _ => .dropSchema

/-- The tag of a statement. -/
def tag (s : Statement) : String := s.kind.tag

end Statement

namespace Node

/-- The tag of a node. -/
def tag : Node → String
  | expr e => e.tag
  | table t => t.kind.tag
  | fromTable _ => Kind.fromTable.tag
  | joinClause _ => Kind.joinClause.tag
  | columnDef _ => Kind.columnDef.tag
  | primaryKey _ => Kind.primaryKey.tag
  | resultColumn _ => Kind.resultColumn.tag
  | orderBy _ => Kind.orderBy.tag
  | groupBy _ => Kind.groupBy.tag
  | limit _ => Kind.limit.tag
  | statement s => s.tag

end Node

end SqlTree
