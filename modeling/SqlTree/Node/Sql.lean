import SqlTree.Node.Check
import SqlTree.Quoted

/-!
# SQL text

Every tree has an SQL text, whether it is finished or not: an unset expression is written `?`.
`Node.toSql` gives the text of finished trees only.

A query used as an expression stands in parentheses, and so does the condition of a join unless it
is a group, which brings its own.

## Main definitions

* `Expr.sql`, `Table.sql`, `Query.sql` and the texts of the other parts of queries.
* `Statement.sql`, `Node.sql`, `Node.toSql`.
-/

namespace SqlTree

/-- The word before a negated operator. -/
def negation (negated : Bool) : String := if negated then "NOT " else ""

/-- An optional text after another, or nothing. -/
def after (lead : String) : Option String → String
  | none => ""
  | some s => lead ++ s

/-- The definition of a column. -/
def ColumnDef.sql (c : ColumnDef) : String :=
  quoted c.name ++ " " ++ c.typeName
    ++ (match c.length with
      | some n => "(" ++ toString n.toNat ++ ")"
      | none => "")
    ++ (if c.primaryKey then " PRIMARY KEY" else "")
    ++ (if c.notNull then " NOT NULL" else " DEFAULT " ++ c.defaultValue.text)
    ++ (if c.autoIncrement then " AUTO_INCREMENT" else "")
    ++ String.join (c.options.map (" " ++ ·))

/-- The columns of a primary key, after its name. -/
def PrimaryKey.sql (k : PrimaryKey) : String :=
  (match k.name with
    | some name => "CONSTRAINT " ++ quoted name ++ " "
    | none => "")
    ++ "PRIMARY KEY (" ++ joined ", " (k.columns.map quoted) ++ ")"

/-- A table of a schema and its label. -/
def SchemaTable.sql (t : SchemaTable) : String :=
  (match t.function with
    | some function => function ++ "(" ++ qualified t.schema t.table ++ ")"
    | none => qualified t.schema t.table)
    ++ after " " (t.label.map quoted)

/-- The bound on the rows of a query. -/
def Limit.sql (l : Limit) : String :=
  "LIMIT " ++ toString l.count.toNat ++ after " OFFSET " (l.offset.map fun n => toString n.toNat)

mutual

/-- The text of an expression. -/
def Expr.sql : Expr → String
  | .unknown => placeholder
  | .value v => literal v
  | .column table name => qualified table name
  | .userVariable name => "@" ++ name
  | .binary operator left right negated =>
    if operator = "IS" then left.sql ++ " IS " ++ negation negated ++ "NULL"
    else left.sql ++ " " ++ negation negated ++ operator ++ " " ++ right.sql
  | .between left start stop negated =>
    left.sql ++ " " ++ negation negated ++ "BETWEEN " ++ start.sql ++ " AND " ++ stop.sql
  | .oneOf left right negated => left.sql ++ " " ++ negation negated ++ "IN " ++ right.sql
  | .nullTest left negated => left.sql ++ " IS " ++ negation negated ++ "NULL"
  | .existence q negated => negation negated ++ "EXISTS (" ++ q.sql ++ ")"
  | .caseOf subject arms otherwise =>
    "CASE "
      ++ (match sql? subject with
        | some s => s ++ " "
        | none => "")
      ++ String.join (armTexts arms)
      ++ (match sql? otherwise with
        | some s => "ELSE " ++ s ++ " "
        | none => "")
      ++ "END"
  | .function name parameters distinct =>
    name ++ "(" ++ (if distinct then "DISTINCT " else "") ++ joined ", " (sqls parameters) ++ ")"
  | .math operator operands => "(" ++ joined (" " ++ operator ++ " ") (sqls operands) ++ ")"
  | .group operator items => "(" ++ joined (" " ++ operator.text ++ " ") (sqls items) ++ ")"
  | .query q => "(" ++ q.sql ++ ")"

/-- The texts of a list of expressions. -/
def sqls : List Expr → List String
  | [] => []
  | e :: rest => e.sql :: sqls rest

/-- The text of an expression that may be left out. -/
def sql? : Option Expr → Option String
  | none => none
  | some e => some e.sql

/-- The text of a condition and its result. -/
def CaseArm.sql : CaseArm → String
  | ⟨condition, result⟩ => "WHEN " ++ condition.sql ++ " THEN " ++ result.sql ++ " "

/-- The texts of a list of conditions and results. -/
def armTexts : List CaseArm → List String
  | [] => []
  | arm :: rest => arm.sql :: armTexts rest

/-- The text of a table. -/
def Table.sql : Table → String
  | .schema t => t.sql
  | .query q label => "(" ++ q.sql ++ ") " ++ quoted label
  | .remote config _ label => "FETCH(" ++ config.text ++ ") " ++ quoted label

/-- The text of a join. -/
def JoinClause.sql : JoinClause → String
  | ⟨operator, table, condition⟩ =>
    operator.text ++ " JOIN " ++ table.sql
      ++ (match condition, sql? condition with
        | some (.group ..), some s => " ON " ++ s
        | _, some s => " ON (" ++ s ++ ")"
        | _, none => "")

/-- The texts of a list of joins. -/
def joinTexts : List JoinClause → List String
  | [] => []
  | join :: rest => join.sql :: joinTexts rest

/-- The text of a table with its joins. -/
def FromTable.sql : FromTable → String
  | ⟨table, joins⟩ => joined " " (table.sql :: joinTexts joins)

/-- The texts of a list of tables with their joins. -/
def sourceTexts : List FromTable → List String
  | [] => []
  | source :: rest => source.sql :: sourceTexts rest

/-- The text of a result column. -/
def ResultColumn.sql : ResultColumn → String
  | ⟨expression, label⟩ => expression.sql ++ after " AS " (label.map quoted)

/-- The texts of a list of result columns. -/
def columnTexts : List ResultColumn → List String
  | [] => []
  | column :: rest => column.sql :: columnTexts rest

/-- The text of a sort. -/
def OrderBy.sql : OrderBy → String
  | ⟨expression, direction⟩ => expression.sql ++ " " ++ direction.text

/-- The texts of a list of sorts. -/
def orderTexts : List OrderBy → List String
  | [] => []
  | term :: rest => term.sql :: orderTexts rest

/-- The text of a grouping. -/
def GroupBy.sql : GroupBy → String
  | ⟨expressions, having⟩ =>
    "GROUP BY " ++ joined ", " (sqls expressions) ++ after " HAVING " (sql? having)

/-- The text of a grouping that may be left out. -/
def groupText? : Option GroupBy → Option String
  | none => none
  | some g => some g.sql

/-- The text of a query. -/
def Query.sql : Query → String
  | ⟨distinct, columns, sources, condition, groupBy, order, limit⟩ =>
    "SELECT "
      ++ (if distinct then "DISTINCT " else "")
      ++ (if columns.isEmpty then "*" else joined ", " (columnTexts columns))
      ++ (if sources.isEmpty then "" else " FROM " ++ joined ", " (sourceTexts sources))
      ++ after " WHERE " (sql? condition)
      ++ after " " (groupText? groupBy)
      ++ (if order.isEmpty then "" else " ORDER BY " ++ joined ", " (orderTexts order))
      ++ after " " (limit.map Limit.sql)

end

/-- The text of an insertion. -/
def Insertion.sql (i : Insertion) : String :=
  "INSERT INTO " ++ qualified i.schema i.name
    ++ (if i.columns.isEmpty then "" else " (" ++ joined ", " (i.columns.map quoted) ++ ")")
    ++ (match i.source with
      | .rows rows =>
        " VALUES " ++ joined ", " (rows.map fun row => "(" ++ joined ", " (sqls row) ++ ")")
      | .query q => " " ++ q.sql)

/-- The text of an update. -/
def Update.sql (u : Update) : String :=
  "UPDATE " ++ qualified u.schema u.name ++ " SET "
    ++ joined ", " (u.assignments.map fun (column, value) => quoted column ++ " = " ++ value.sql)
    ++ after " WHERE " (sql? u.condition)

/-- The text of a deletion. -/
def Deletion.sql (d : Deletion) : String :=
  "DELETE FROM " ++ qualified d.database d.name ++ after " WHERE " (sql? d.condition)

/-- The text of the creation of a table. Without columns its primary keys follow one another
without a comma. -/
def CreateTable.sql (t : CreateTable) : String :=
  "CREATE TABLE " ++ (if t.ifNotExists then "IF NOT EXISTS " else "")
    ++ qualified t.schema t.name
    ++ (if t.columns.isEmpty && t.constraints.isEmpty then ""
      else " (" ++ joined ", " (t.columns.map ColumnDef.sql)
        ++ String.join (t.constraints.map fun k =>
          (if t.columns.isEmpty then "" else ", ") ++ k.sql)
        ++ ")")
    ++ after " AS " (t.query.map Query.sql)

/-- The text of the creation of a schema. -/
def CreateSchema.sql (s : CreateSchema) : String :=
  "CREATE SCHEMA " ++ (if s.ifNotExists then "IF NOT EXISTS " else "") ++ quoted s.name

/-- The text of the removal of a table. -/
def DropTable.sql (t : DropTable) : String :=
  "DROP TABLE " ++ (if t.ifExists then "IF EXISTS " else "") ++ qualified t.schema t.name

/-- The text of the removal of a schema. -/
def DropSchema.sql (s : DropSchema) : String :=
  "DROP SCHEMA " ++ (if s.ifExists then "IF EXISTS " else "") ++ quoted s.name

/-- The text of a statement. -/
def Statement.sql : Statement → String
  | .query q => q.sql
  | .insertion i => i.sql
  | .update u => u.sql
  | .deletion d => d.sql
  | .createTable t => t.sql
  | .createSchema s => s.sql
  | .dropTable t => t.sql
  | .dropSchema s => s.sql

/-- The text of a node. -/
def Node.sql : Node → String
  | .expr e => e.sql
  | .table t => t.sql
  | .fromTable f => f.sql
  | .joinClause j => j.sql
  | .columnDef c => c.sql
  | .primaryKey k => k.sql
  | .resultColumn c => c.sql
  | .orderBy o => o.sql
  | .groupBy g => g.sql
  | .limit l => l.sql
  | .statement s => s.sql

/-- The text of a finished node, or its first fault. -/
def Node.toSql (n : Node) : Except Error String := do
  n.check
  return n.sql

end SqlTree
