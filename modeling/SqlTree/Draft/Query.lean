import SqlTree.Draft.Basic
import SqlTree.Node.Conditions

/-!
# Building queries and tables

A query is started empty. Result columns, tables, grouping expressions and sorts are appended in
order, conditions are conjoined, and the other parts are replaced. A condition on groups needs a
grouping first.

## Main definitions

* `Query.empty`, `Query.Step`, `Query.perform`, `Query.step`.
* `SchemaTable.Step`, `SchemaTable.step`, `FromTable.addJoin`.
-/

namespace SqlTree

namespace Query

/-- The query without parts. -/
def empty : Query := ⟨false, [], [], none, none, [], none⟩

/-- Adds a condition on rows. -/
def addCondition (e : Expr) (q : Query) : Query :=
  { q with condition := some (Expr.conjoin q.condition e) }

/-- Appends grouping expressions, even none. -/
def addGrouping (es : List Expr) (q : Query) : Query :=
  let g := q.groupBy.getD ⟨[], none⟩
  { q with groupBy := some { g with expressions := g.expressions ++ es } }

/-- Adds a condition on groups. -/
def addHaving (e : Expr) : Edit Query Unit := do
  let q ← get
  match q.groupBy with
  | none => throw (.missingField Kind.query.tag "groupBy")
  | some g => set { q with groupBy := some { g with having := some (Expr.conjoin g.having e) } }

/-- A step of the construction. -/
inductive Step where
  | distinct (distinct : Bool)
  | column (column : ResultColumn)
  | source (source : FromTable)
  | condition (e : Expr)
  | groupBy (es : List Expr)
  | having (e : Expr)
  | orderBy (term : OrderBy)
  | limit (limit : Limit)

/-- Performs a step. -/
def perform : Step → Edit Query Unit
  | .distinct b => modify fun q => { q with distinct := b }
  | .column c => modify fun q => { q with columns := q.columns ++ [c] }
  | .source f => modify fun q => { q with sources := q.sources ++ [f] }
  | .condition e => modify (addCondition e)
  | .groupBy es => modify (addGrouping es)
  | .having e => addHaving e
  | .orderBy t => modify fun q => { q with order := q.order ++ [t] }
  | .limit l => modify fun q => { q with limit := some l }

/-- The query after a step that succeeds. -/
def step (s : Step) : Query → Except Error Query := (perform s).result

end Query

namespace SchemaTable

/-- A table without schema, function and label. -/
def named (name : String) : SchemaTable := ⟨none, name, none, none⟩

/-- A step of the construction. -/
inductive Step where
  | schema (schema : String)
  | label (label : String)
  /-- Wraps the table in a function and gives it a label. -/
  | function (function label : String)

/-- Performs a step. -/
def step : Step → SchemaTable → SchemaTable
  | .schema s, t => { t with schema := some s }
  | .label l, t => { t with label := some l }
  | .function g l, t => { t with function := some g, label := some l }

end SchemaTable

/-- Joins one more table. -/
def FromTable.addJoin (j : JoinClause) (f : FromTable) : FromTable :=
  { f with joins := f.joins ++ [j] }

end SqlTree
