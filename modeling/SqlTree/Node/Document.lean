import SqlTree.Node.Check

/-!
# Documents of trees

The document of a node is an object with the tag of the node under `classname` and its parts under
fixed keys. What is left out of the node is left out of the document, and so are empty lists and
flags that are false. An unset expression in a slot is written as null. `Node.toDocument` gives the
document of finished trees only.

## Main definitions

* `tagged`: the object of a node, from its kind and its fields.
* `Expr.document`, `Table.document`, `Query.document` and the documents of the other parts of
  queries.
* `Statement.document`, `Node.document`, `Node.toDocument`.
-/

namespace SqlTree

/-! ### Fields -/

/-- A field that is always written. -/
def field (key : String) (value : Json) : List (String × Json) := [(key, value)]

/-- A field that is left out if it has no value. -/
def field? (key : String) : Option Json → List (String × Json)
  | none => []
  | some value => [(key, value)]

/-- A flag, left out if it is false. -/
def flagField (key : String) (value : Bool) : List (String × Json) :=
  if value then [(key, .bool true)] else []

/-- A list, left out if it is empty. -/
def listField (key : String) (items : List Json) : List (String × Json) :=
  if items.isEmpty then [] else [(key, .array items)]

/-- The object of a node with the given fields. -/
def tagged (kind : Kind) (fields : List (List (String × Json))) : Json :=
  .ofMembers ((DocumentFault.tagKey, .string kind.tag) :: fields.flatten)

/-! ### Documents of the parts without expressions -/

/-- The document of the definition of a column. -/
def ColumnDef.document (c : ColumnDef) : Json :=
  tagged .columnDef [
    field "name" (.string c.name),
    field "type" (.string c.typeName),
    field? "length" (c.length.map .natural),
    flagField "primaryKey" c.primaryKey,
    field? "defaultValue" (if c.defaultValue.isNull then none else some c.defaultValue),
    flagField "notNull" c.notNull,
    flagField "autoIncrement" c.autoIncrement,
    listField "options" (c.options.map .string)]

/-- The document of a primary key. -/
def PrimaryKey.document (k : PrimaryKey) : Json :=
  tagged .primaryKey [
    field? "name" (k.name.map .string),
    listField "columns" (k.columns.map .string)]

/-- The document of a table of a schema. -/
def SchemaTable.document (t : SchemaTable) : Json :=
  tagged .schemaTable [
    field? "function" (t.function.map .string),
    field? "schema" (t.schema.map .string),
    field "table" (.string t.table),
    field? "$as" (t.label.map .string)]

/-- The document of the bound on the rows of a query. -/
def Limit.document (l : Limit) : Json :=
  tagged .limit [
    field "limit" (.natural l.count),
    field? "offset" (l.offset.map .natural)]

/-! ### Documents of expressions, tables and queries -/

mutual

/-- The document of an expression. -/
def Expr.document : Expr → Json
  | .unknown => .null
  | .value v => tagged .value [field "value" v]
  | .column table name =>
    tagged .column [field? "table" (table.map .string), field "column" (.string name)]
  | .userVariable name => tagged .userVariable [field "name" (.string name)]
  | .binary operator left right negated =>
    tagged .binary [
      field "left" left.document,
      field "operator" (.string operator),
      field "right" right.document,
      flagField "not" negated]
  | .between left start stop negated =>
    tagged .between [
      field "left" left.document,
      field "start" start.document,
      field "end" stop.document,
      flagField "not" negated]
  | .oneOf left right negated =>
    tagged .oneOf [
      field "left" left.document,
      field "right" right.document,
      flagField "not" negated]
  | .nullTest left negated =>
    tagged .nullTest [field "left" left.document, flagField "not" negated]
  | .existence q negated =>
    tagged .existence [field "query" q.document, flagField "not" negated]
  | .caseOf subject arms otherwise =>
    tagged .caseOf [
      field? "expression" (document? subject),
      listField "cases" (armDocuments arms),
      field? "else" (document? otherwise)]
  | .function name parameters distinct =>
    tagged .function [
      field "name" (.string name),
      listField "parameters" (documents parameters),
      flagField "distinct" distinct]
  | .math operator operands =>
    tagged .math [
      field "operator" (.string operator),
      listField "operands" (documents operands)]
  | .group operator items =>
    tagged .group [
      field "operator" (.string operator.text),
      listField "expressions" (documents items)]
  | .query q => q.document

/-- The documents of a list of expressions. -/
def documents : List Expr → List Json
  | [] => []
  | e :: rest => e.document :: documents rest

/-- The document of an expression that may be left out. -/
def document? : Option Expr → Option Json
  | none => none
  | some e => some e.document

/-- The document of a condition and its result, which has no tag. -/
def CaseArm.document : CaseArm → Json
  | ⟨condition, result⟩ =>
    .ofMembers [("when", condition.document), ("then", result.document)]

/-- The documents of a list of conditions and results. -/
def armDocuments : List CaseArm → List Json
  | [] => []
  | arm :: rest => arm.document :: armDocuments rest

/-- The document of a table. -/
def Table.document : Table → Json
  | .schema t => t.document
  | .query q label =>
    tagged .queryTable [field "query" q.document, field "$as" (.string label)]
  | .remote config columns label =>
    tagged .remoteTable [
      field "requestConfig" config,
      listField "columns" (columns.map ColumnDef.document),
      field "$as" (.string label)]

/-- The document of a join. -/
def JoinClause.document : JoinClause → Json
  | ⟨operator, table, condition⟩ =>
    tagged .joinClause [
      field "operator" (.string operator.text),
      field "table" table.document,
      field? "$on" (document? condition)]

/-- The documents of a list of joins. -/
def joinDocuments : List JoinClause → List Json
  | [] => []
  | join :: rest => join.document :: joinDocuments rest

/-- The document of a table with its joins. -/
def FromTable.document : FromTable → Json
  | ⟨table, joins⟩ =>
    tagged .fromTable [
      field "table" table.document,
      listField "joinClauses" (joinDocuments joins)]

/-- The documents of a list of tables with their joins. -/
def sourceDocuments : List FromTable → List Json
  | [] => []
  | source :: rest => source.document :: sourceDocuments rest

/-- The document of a result column. -/
def ResultColumn.document : ResultColumn → Json
  | ⟨expression, label⟩ =>
    tagged .resultColumn [
      field "expression" expression.document,
      field? "$as" (label.map .string)]

/-- The documents of a list of result columns. -/
def columnDocuments : List ResultColumn → List Json
  | [] => []
  | column :: rest => column.document :: columnDocuments rest

/-- The document of a sort. -/
def OrderBy.document : OrderBy → Json
  | ⟨expression, direction⟩ =>
    tagged .orderBy [
      field "expression" expression.document,
      field "order" (.string direction.text)]

/-- The documents of a list of sorts. -/
def orderDocuments : List OrderBy → List Json
  | [] => []
  | term :: rest => term.document :: orderDocuments rest

/-- The document of a grouping. -/
def GroupBy.document : GroupBy → Json
  | ⟨expressions, having⟩ =>
    tagged .groupBy [
      listField "expressions" (documents expressions),
      field? "having" (document? having)]

/-- The document of a grouping that may be left out. -/
def groupDocument? : Option GroupBy → Option Json
  | none => none
  | some g => some g.document

/-- The document of a query. -/
def Query.document : Query → Json
  | ⟨distinct, columns, sources, condition, groupBy, order, limit⟩ =>
    tagged .query [
      flagField "distinct" distinct,
      listField "select" (columnDocuments columns),
      listField "from" (sourceDocuments sources),
      field? "where" (document? condition),
      field? "groupBy" (groupDocument? groupBy),
      listField "order" (orderDocuments order),
      field? "limit" (limit.map Limit.document)]

end

/-! ### Documents of statements and nodes -/

/-- The field of the rows of an insertion. -/
def InsertionSource.fields : InsertionSource → List (String × Json)
  | .rows rs => listField "values" (rs.map fun row => .array (documents row))
  | .query q => field "query" q.document

/-- The document of an insertion. -/
def Insertion.document (i : Insertion) : Json :=
  tagged .insertion [
    field? "schema" (i.schema.map .string),
    field "name" (.string i.name),
    listField "columns" (i.columns.map .string),
    i.source.fields]

/-- The document of an assignment, which has no tag. -/
def assignmentDocument (assignment : String × Expr) : Json :=
  .ofMembers [("column", .string assignment.1), ("value", assignment.2.document)]

/-- The document of an update. -/
def Update.document (u : Update) : Json :=
  tagged .update [
    field? "schema" (u.schema.map .string),
    field "name" (.string u.name),
    listField "set" (u.assignments.map assignmentDocument),
    field? "where" (document? u.condition)]

/-- The document of a deletion. -/
def Deletion.document (d : Deletion) : Json :=
  tagged .deletion [
    field? "database" (d.database.map .string),
    field "name" (.string d.name),
    field? "where" (document? d.condition)]

/-- The document of the creation of a table. -/
def CreateTable.document (t : CreateTable) : Json :=
  tagged .createTable [
    field? "schema" (t.schema.map .string),
    field "name" (.string t.name),
    flagField "ifNotExists" t.ifNotExists,
    listField "columns" (t.columns.map ColumnDef.document),
    listField "constraints" (t.constraints.map PrimaryKey.document),
    field? "query" (t.query.map Query.document)]

/-- The document of the creation of a schema. -/
def CreateSchema.document (s : CreateSchema) : Json :=
  tagged .createSchema [field "name" (.string s.name), flagField "ifNotExists" s.ifNotExists]

/-- The document of the removal of a table. -/
def DropTable.document (t : DropTable) : Json :=
  tagged .dropTable [
    field? "schema" (t.schema.map .string),
    field "name" (.string t.name),
    flagField "ifExists" t.ifExists]

/-- The document of the removal of a schema. -/
def DropSchema.document (s : DropSchema) : Json :=
  tagged .dropSchema [field "name" (.string s.name), flagField "ifExists" s.ifExists]

/-- The document of a statement. -/
def Statement.document : Statement → Json
  | .query q => q.document
  | .insertion i => i.document
  | .update u => u.document
  | .deletion d => d.document
  | .createTable t => t.document
  | .createSchema s => s.document
  | .dropTable t => t.document
  | .dropSchema s => s.document

/-- The document of a node. -/
def Node.document : Node → Json
  | .expr e => e.document
  | .table t => t.document
  | .fromTable f => f.document
  | .joinClause j => j.document
  | .columnDef c => c.document
  | .primaryKey k => k.document
  | .resultColumn c => c.document
  | .orderBy o => o.document
  | .groupBy g => g.document
  | .limit l => l.document
  | .statement s => s.document

/-- The document of a finished node, or its first fault. -/
def Node.toDocument (n : Node) : Except Error Json := do
  n.check
  return n.document

end SqlTree
