import SqlTree.Node.Conditions
import SqlTree.Registry.Reading

/-!
# Nodes from their fields

For every kind of node there is a function that puts a node together from the fields of its object.
Fields are read in a fixed order, and the first one that does not fit gives the error. The rules of
a node that concern its shape are checked here as well; what is merely missing is left to
`Node.check`.

Short forms are accepted: a table without joins for a table with joins, an expression for a result
column, a list of conditions for the condition of a join, and operators in any case.

## Main definitions

* `Fields.binary`, `Fields.query`, … : one function for each kind.
* `Fields.construct`: the node of whatever kind the fields belong to.
-/

namespace SqlTree

namespace Fields

variable (f : Fields)

/-! ### Expressions -/

/-- A value; an absent one is null. -/
def value : Except Error Expr := .ok (.value (f.raw "value"))

/-- A column. -/
def column : Except Error Expr := do
  let name ← f.text "column"
  return .column (← f.text? "table") name

/-- A user variable. -/
def userVariable : Except Error Expr := do
  return .userVariable (← f.text "name")

/-- A binary expression. The right side of `IS` is null whatever the document says. -/
def binary (d : Dialect) : Except Error Expr := do
  let operator ← normalizeOperator d (← f.text "operator")
  let left ← f.slot "left"
  checkLeftOperand operator left
  let right ← if operator = "IS" then pure (.value .null) else f.slot "right"
  checkRightOperand operator right
  let negated ← f.flag "not"
  checkNegation operator negated
  return .binary operator left right negated

/-- A range test. -/
def between : Except Error Expr := do
  return .between (← f.slot "left") (← f.slot "start") (← f.slot "end") (← f.flag "not")

/-- A membership test. -/
def oneOf : Except Error Expr := do
  let left ← f.slot "left"
  let right ← f.slot "right"
  checkList right
  return .oneOf left right (← f.flag "not")

/-- A null test. -/
def nullTest : Except Error Expr := do
  return .nullTest (← f.slot "left") (← f.flag "not")

/-- A test whether a query gives rows. -/
def existence : Except Error Expr := do
  let q ← (← f.get "query").query
  return .existence q (← f.flag "not")

/-- A condition and its result. -/
def caseArm (r : Reading) : Except Error CaseArm :=
  match r.source with
  | .object _ => do
    let arm : Fields := ⟨.caseOf, r.members⟩
    return ⟨← arm.slot "when", ← arm.slot "then"⟩
  | _ => .error (.invalidDocument Kind.caseOf.tag .caseNotAnObject)

/-- A choice between results. -/
def caseOf : Except Error Expr := do
  let arms ← convert caseArm (← f.list "cases")
  return .caseOf (← f.expr? "expression") arms (← f.expr? "else")

/-- A call of a function. -/
def function : Except Error Expr := do
  let name ← normalizeFunctionName (← f.text "name")
  return .function name (← f.exprs "parameters") (← f.flag "distinct")

/-- An arithmetic expression. -/
def math : Except Error Expr := do
  let operator ← normalizeMathOperator (← f.text "operator")
  return .math operator (← f.exprs "operands")

/-- A group of conditions. -/
def group : Except Error Expr := do
  let operator ← GroupOperator.parse (← f.text "operator")
  return .group operator (← f.exprs "expressions")

/-! ### Tables -/

/-- A table of a schema. -/
def schemaTable : Except Error Table := do
  let schema ← f.text? "schema"
  let table ← f.text "table"
  let function ← f.text? "function"
  let label ← f.text? "$as"
  let t : SchemaTable := { schema, table, function, label }
  t.check
  return .schema t

/-- The label of a table that must have one. -/
def label : Except Error String := do
  let label := (← f.text? "$as").getD ""
  requireLabel f.kind label
  return label

/-- A query used as a table. -/
def queryTable : Except Error Table := do
  let label ← f.label
  return .query (← (← f.get "query").query) label

/-- A table fetched from elsewhere. -/
def remoteTable : Except Error Table := do
  let label ← f.label
  let config ← f.get "requestConfig"
  return .remote config.source (← f.nodes "columns" Node.toColumnDef) label

/-- The conditions of a join: a list of them, or one. -/
def conditions : Except Error (List Expr) :=
  match f.get? "$on" with
  | none => .ok []
  | some r =>
    match r.source with
    | .array _ => f.exprs "$on"
    | _ => do return [← r.expr]

/-- A join; its operator is `INNER` unless it is given. -/
def joinClause : Except Error JoinClause := do
  let operator ← match ← f.text? "operator" with
    | some operator => JoinOperator.parse operator
    | none => pure .inner
  let table ← f.get "table"
  let conditions ← f.conditions
  JoinClause.ofConditions operator (← table.table) conditions

/-- A table with its joins. -/
def fromTable : Except Error FromTable := do
  let table ← f.get "table"
  let joins ← f.nodes "joinClauses" Node.toJoinClause
  return ⟨← table.table, joins⟩

/-! ### Parts of queries -/

/-- A result column. -/
def resultColumn : Except Error ResultColumn := do
  return ⟨← f.slot "expression", ← f.text? "$as"⟩

/-- A sort; its direction is ascending unless it is given. -/
def orderBy : Except Error OrderBy := do
  let direction ← match ← f.text? "order" with
    | some direction => SortDirection.parse direction
    | none => pure .ascending
  return ⟨← f.slot "expression", direction⟩

/-- A grouping. -/
def groupBy : Except Error GroupBy := do
  return ⟨← f.exprs "expressions", ← f.expr? "having"⟩

/-- A bound on the rows of a query. -/
def limit : Except Error Limit := do
  match ← f.natural? "limit" with
  | some count => return ⟨count, ← f.natural? "offset"⟩
  | none => throw (f.missing "limit")

/-- A query. -/
def query : Except Error Query := do
  let distinct ← f.flag "distinct"
  let columns ← f.nodes "select" Node.toResultColumn
  let sources ← f.nodes "from" Node.toFromTable
  let condition ← f.expr? "where"
  let groupBy ← f.node? "groupBy" Node.toGroupBy
  let order ← f.nodes "order" Node.toOrderBy
  let limit ← f.node? "limit" Node.toLimit
  return { distinct, columns, sources, condition, groupBy, order, limit }

/-! ### Changes of data -/

/-- A row of values. -/
def row (r : Reading) : Except Error (List Expr) :=
  match r.source with
  | .array _ => convert Reading.expr r.items
  | found => .error (.invalidDocument Kind.insertion.tag (.rowNotAnArray found))

/-- The rows of an insertion: those of a query if there is one, else those written out. -/
def insertionSource : Except Error InsertionSource :=
  match f.get? "query" with
  | some r => do return .query (← r.query)
  | none => do return .rows (← convert row (← f.list "values"))

/-- An insertion. -/
def insertion : Except Error Insertion := do
  let source ← f.insertionSource
  let schema ← f.text? "schema"
  let name ← f.text "name"
  let columns ← f.strings "columns"
  let i : Insertion := { schema, name, columns, source }
  i.checkArity
  return i

/-- An assignment to a column. -/
def assignment (r : Reading) : Except Error (String × Expr) :=
  match r.source with
  | .object _ => do
    let a : Fields := ⟨.update, r.members⟩
    return (← a.text "column", ← a.slot "value")
  | _ => .error (.invalidDocument Kind.update.tag .assignmentNotAnObject)

/-- An update. -/
def update : Except Error Update := do
  let assignments ← convert assignment (← f.list "set")
  let schema ← f.text? "schema"
  let name ← f.text "name"
  let condition ← f.expr? "where"
  return { schema, name, assignments, condition }

/-- A deletion. -/
def deletion : Except Error Deletion := do
  let database ← f.text? "database"
  let name ← f.text "name"
  let condition ← f.expr? "where"
  return { database, name, condition }

/-! ### Definitions -/

/-- The definition of a column. A primary key is not null and has no default. -/
def columnDef : Except Error ColumnDef := do
  let name ← f.text "name"
  let typeName ← f.text "type"
  let length ← f.natural? "length"
  let defaultValue := f.raw "defaultValue"
  let notNull ← f.flag "notNull"
  let autoIncrement ← f.flag "autoIncrement"
  let options ← f.strings "options"
  let primaryKey ← f.flag "primaryKey"
  return {
    name, typeName, length, primaryKey, autoIncrement, options
    defaultValue := if primaryKey then .null else defaultValue
    notNull := primaryKey || notNull }

/-- A primary key. -/
def primaryKey : Except Error PrimaryKey := do
  return ⟨← f.text? "name", ← f.strings "columns"⟩

/-- The creation of a table. -/
def createTable : Except Error CreateTable := do
  let columns ← f.nodes "columns" Node.toColumnDef
  let constraints ← f.nodes "constraints" Node.toPrimaryKey
  let query ← f.node? "query" Node.toQuery
  let schema ← f.text? "schema"
  let name ← f.text "name"
  let ifNotExists ← f.flag "ifNotExists"
  let t : CreateTable := { schema, name, ifNotExists, columns, constraints, query }
  t.checkDefinitions
  return t

/-- The creation of a schema. -/
def createSchema : Except Error CreateSchema := do
  return ⟨← f.text "name", ← f.flag "ifNotExists"⟩

/-- The removal of a table. -/
def dropTable : Except Error DropTable := do
  let schema ← f.text? "schema"
  return ⟨schema, ← f.text "name", ← f.flag "ifExists"⟩

/-- The removal of a schema. -/
def dropSchema : Except Error DropSchema := do
  return ⟨← f.text "name", ← f.flag "ifExists"⟩

/-- The node of the kind of the fields. -/
def construct (d : Dialect) : Except Error Node :=
  match f.kind with
  | .value => .expr <$> f.value
  | .column => .expr <$> f.column
  | .userVariable => .expr <$> f.userVariable
  | .binary => .expr <$> f.binary d
  | .between => .expr <$> f.between
  | .oneOf => .expr <$> f.oneOf
  | .nullTest => .expr <$> f.nullTest
  | .existence => .expr <$> f.existence
  | .caseOf => .expr <$> f.caseOf
  | .function => .expr <$> f.function
  | .math => .expr <$> f.math
  | .group => .expr <$> f.group
  | .schemaTable => .table <$> f.schemaTable
  | .queryTable => .table <$> f.queryTable
  | .remoteTable => .table <$> f.remoteTable
  | .fromTable => .fromTable <$> f.fromTable
  | .joinClause => .joinClause <$> f.joinClause
  | .resultColumn => .resultColumn <$> f.resultColumn
  | .orderBy => .orderBy <$> f.orderBy
  | .groupBy => .groupBy <$> f.groupBy
  | .limit => .limit <$> f.limit
  | .query => (fun q => .statement (.query q)) <$> f.query
  | .insertion => (fun i => .statement (.insertion i)) <$> f.insertion
  | .update => (fun u => .statement (.update u)) <$> f.update
  | .deletion => (fun d => .statement (.deletion d)) <$> f.deletion
  | .columnDef => .columnDef <$> f.columnDef
  | .primaryKey => .primaryKey <$> f.primaryKey
  | .createTable => (fun t => .statement (.createTable t)) <$> f.createTable
  | .createSchema => (fun s => .statement (.createSchema s)) <$> f.createSchema
  | .dropTable => (fun t => .statement (.dropTable t)) <$> f.dropTable
  | .dropSchema => (fun s => .statement (.dropSchema s)) <$> f.dropSchema

end Fields

end SqlTree
