import SqlTree.Node.Check
import SqlTree.Node.Scope

/-!
# Resolution of table names

A column with a table in front refers to a table that must be visible where the column stands. The
tables of a query register their names one after another; then the other clauses are resolved
against all of them. The condition of a join sees the tables up to its own. A query inside an
expression sees the names around it, a query used as a table does not.

What is resolved against a scope that grows gives the scope as it is afterwards, also if a name was
not found: the names registered before stay.

## Main definitions

* `Expr.resolve`: resolves an expression in a scope that does not change.
* `Table.resolve`, `FromTable.resolve`, `Query.resolve`: resolve in a scope that they extend.
* `Statement.resolve`, `Statement.validate`.
-/

namespace SqlTree

/-- The outcome of a resolution that extends a scope, with the scope afterwards. -/
abbrev Resolution := Except Error Unit × Scope

namespace Resolution

/-- Goes on in the scope that a resolution leaves, unless it failed. -/
def andThen (first : Resolution) (next : Scope → Resolution) : Resolution :=
  match first with
  | (.ok (), scope) => next scope
  | (.error e, scope) => (.error e, scope)

/-- Goes on with a resolution that leaves the scope as it is. -/
def andCheck (first : Resolution) (next : Scope → Except Error Unit) : Resolution :=
  first.andThen fun scope => (next scope, scope)

end Resolution

/-- Registers a table name. -/
def Scope.extend (s : Scope) (name : String) : Resolution :=
  match s.register name with
  | .ok s' => (.ok (), s')
  | .error e => (.error e, s)

/-- A column may refer to visible tables only. -/
def resolveColumn (scope : Scope) : Option String → Except Error Unit
  | none => .ok ()
  | some table => if scope.resolves table then .ok () else .error (.unknownTable table)

mutual

/-- Resolves an expression. -/
def Expr.resolve (scope : Scope) : Expr → Except Error Unit
  | .unknown => .ok ()
  | .value _ => .ok ()
  | .column table _ => resolveColumn scope table
  | .userVariable _ => .ok ()
  | .binary _ left right _ => do
    left.resolve scope
    right.resolve scope
  | .between left start stop _ => do
    left.resolve scope
    start.resolve scope
    stop.resolve scope
  | .oneOf left right _ => do
    left.resolve scope
    right.resolve scope
  | .nullTest left _ => left.resolve scope
  | .existence q _ => (q.resolve scope.child).1
  | .caseOf subject arms otherwise => do
    resolve? scope subject
    resolveArms scope arms
    resolve? scope otherwise
  | .function _ parameters _ => resolveAll scope parameters
  | .math _ operands => resolveAll scope operands
  | .group _ items => resolveAll scope items
  | .query q => (q.resolve scope.child).1

/-- Resolves a list of expressions. -/
def resolveAll (scope : Scope) : List Expr → Except Error Unit
  | [] => .ok ()
  | e :: rest => do
    e.resolve scope
    resolveAll scope rest

/-- Resolves an expression that may be left out. -/
def resolve? (scope : Scope) : Option Expr → Except Error Unit
  | none => .ok ()
  | some e => e.resolve scope

/-- Resolves a condition and its result. -/
def CaseArm.resolve (scope : Scope) : CaseArm → Except Error Unit
  | ⟨condition, result⟩ => do
    condition.resolve scope
    result.resolve scope

/-- Resolves a list of conditions and results. -/
def resolveArms (scope : Scope) : List CaseArm → Except Error Unit
  | [] => .ok ()
  | arm :: rest => do
    arm.resolve scope
    resolveArms scope rest

/-- Registers a table; a query used as a table is resolved by itself first. -/
def Table.resolve (scope : Scope) : Table → Resolution
  | .schema t => scope.extend (Table.name (.schema t))
  | .query q label => Resolution.andThen ((q.resolve .empty).1, scope) fun s => s.extend label
  | .remote _ _ label => scope.extend label

/-- Registers the table of a join and resolves its condition. -/
def JoinClause.resolve (scope : Scope) : JoinClause → Resolution
  | ⟨_, table, condition⟩ => (table.resolve scope).andCheck fun s => resolve? s condition

/-- Registers and resolves a list of joins. -/
def resolveJoins (scope : Scope) : List JoinClause → Resolution
  | [] => (.ok (), scope)
  | join :: rest => (join.resolve scope).andThen fun s => resolveJoins s rest

/-- Registers a table and those joined to it. -/
def FromTable.resolve (scope : Scope) : FromTable → Resolution
  | ⟨table, joins⟩ => (table.resolve scope).andThen fun s => resolveJoins s joins

/-- Registers and resolves a list of tables with their joins. -/
def resolveSources (scope : Scope) : List FromTable → Resolution
  | [] => (.ok (), scope)
  | source :: rest => (source.resolve scope).andThen fun s => resolveSources s rest

/-- Resolves a result column. -/
def ResultColumn.resolve (scope : Scope) : ResultColumn → Except Error Unit
  | ⟨expression, _⟩ => expression.resolve scope

/-- Resolves a list of result columns. -/
def resolveColumns (scope : Scope) : List ResultColumn → Except Error Unit
  | [] => .ok ()
  | column :: rest => do
    column.resolve scope
    resolveColumns scope rest

/-- Resolves a sort. -/
def OrderBy.resolve (scope : Scope) : OrderBy → Except Error Unit
  | ⟨expression, _⟩ => expression.resolve scope

/-- Resolves a list of sorts. -/
def resolveOrder (scope : Scope) : List OrderBy → Except Error Unit
  | [] => .ok ()
  | term :: rest => do
    term.resolve scope
    resolveOrder scope rest

/-- Resolves a grouping. -/
def GroupBy.resolve (scope : Scope) : GroupBy → Except Error Unit
  | ⟨expressions, having⟩ => do
    resolveAll scope expressions
    resolve? scope having

/-- Resolves a grouping that may be left out. -/
def resolveGroupBy? (scope : Scope) : Option GroupBy → Except Error Unit
  | none => .ok ()
  | some g => g.resolve scope

/-- Registers the tables of a query and resolves its other clauses. -/
def Query.resolve (scope : Scope) : Query → Resolution
  | ⟨_, columns, sources, condition, groupBy, order, _⟩ =>
    (resolveSources scope sources).andCheck fun s => do
      resolveColumns s columns
      resolve? s condition
      resolveGroupBy? s groupBy
      resolveOrder s order

end

/-- Resolves the values of a list of assignments. -/
def resolveAssignments (scope : Scope) : List (String × Expr) → Except Error Unit
  | [] => .ok ()
  | (_, value) :: rest => do
    value.resolve scope
    resolveAssignments scope rest

/-- The scope that holds the target of a statement only. -/
def Scope.ofTarget (name : String) : Scope := ⟨[], [name]⟩

/-- Resolves an insertion: rows see the target, a query sees its own tables only. -/
def Insertion.resolve (i : Insertion) : Except Error Unit :=
  match i.source with
  | .rows rows => resolveAll (.ofTarget i.name) rows.flatten
  | .query q => (q.resolve .empty).1

/-- Resolves an update. -/
def Update.resolve (u : Update) : Except Error Unit := do
  resolveAssignments (.ofTarget u.name) u.assignments
  resolve? (.ofTarget u.name) u.condition

/-- Resolves a deletion. -/
def Deletion.resolve (d : Deletion) : Except Error Unit :=
  resolve? (.ofTarget d.name) d.condition

/-- Resolves the query that a table is created from. -/
def CreateTable.resolve (t : CreateTable) : Except Error Unit :=
  match t.query with
  | some q => (q.resolve .empty).1
  | none => .ok ()

/-- Resolves a statement. -/
def Statement.resolve : Statement → Except Error Unit
  | .query q => (q.resolve .empty).1
  | .insertion i => i.resolve
  | .update u => u.resolve
  | .deletion d => d.resolve
  | .createTable t => t.resolve
  | .createSchema _ => .ok ()
  | .dropTable _ => .ok ()
  | .dropSchema _ => .ok ()

/-- A statement is valid if it is finished and its table names resolve. -/
def Statement.validate (s : Statement) : Except Error Unit := do
  s.check
  s.resolve

/-- A query is valid if it is finished and its table names resolve. -/
def Query.validate (q : Query) : Except Error Unit := do
  q.check
  (q.resolve .empty).1

end SqlTree
