import SqlTree.Node.Rules

/-!
# Finished trees

A tree is finished when no expression in it is unset and every node keeps the rules of its kind.
`Node.check` walks over the whole tree and gives the first fault it meets. SQL text and documents
are only made of finished trees.

## Main definitions

* `Expr.check`, `Table.check`, `Query.check` and the checks of the other parts of queries.
* `Statement.check`, `Node.check`.
-/

namespace SqlTree

mutual

/-- The first fault of an expression. -/
def Expr.check : Expr → Except Error Unit
  | .unknown => .error (.incomplete "Unknown" .placeholder)
  | .value _ => .ok ()
  | .column _ name => requireText .column "column" name
  | .userVariable name => requireText .userVariable "name" name
  | .binary operator left right negated => do
    checkLeftOperand operator left
    checkRightOperand operator right
    checkNegation operator negated
    checkSlot .binary "left" left left.check
    checkSlot .binary "right" right right.check
  | .between left start stop _ => do
    checkSlot .between "left" left left.check
    checkSlot .between "start" start start.check
    checkSlot .between "end" stop stop.check
  | .oneOf left right _ => do
    checkList right
    checkSlot .oneOf "left" left left.check
    checkSlot .oneOf "right" right right.check
  | .nullTest left _ => checkSlot .nullTest "left" left left.check
  | .existence q _ => q.check
  | .caseOf subject arms otherwise => do
    if arms.isEmpty then throw (.incomplete Kind.caseOf.tag .conditionPairs)
    checkSlot? .caseOf "case" subject
    checkArms arms
    checkSlot? .caseOf "else" otherwise
  | .function name parameters _ => do
    requireText .function "name" name
    checkSlots .function "parameter" parameters
  | .math operator operands => do
    let _ ← normalizeMathOperator operator
    if operands.length < 2 then
      throw (.incomplete Kind.math.tag (.operands operator operands.length))
    checkSlots .math "operand" operands
  | .group _ items => do
    if items.isEmpty then throw (.incomplete Kind.group.tag .groupedExpressions)
    checkSlots .group "grouped" items
  | .query q => q.check

/-- The first fault of the expressions in a list of slots. -/
def checkSlots (kind : Kind) (slot : String) : List Expr → Except Error Unit
  | [] => .ok ()
  | e :: rest => do
    checkSlot kind slot e e.check
    checkSlots kind slot rest

/-- The first fault of the expression in a slot that may be left out. -/
def checkSlot? (kind : Kind) (slot : String) : Option Expr → Except Error Unit
  | none => .ok ()
  | some e => checkSlot kind slot e e.check

/-- The first fault of a condition and its result. -/
def CaseArm.check : CaseArm → Except Error Unit
  | ⟨condition, result⟩ => do
    checkSlot .caseOf "when" condition condition.check
    checkSlot .caseOf "then" result result.check

/-- The first fault of a list of conditions and results. -/
def checkArms : List CaseArm → Except Error Unit
  | [] => .ok ()
  | arm :: rest => do
    arm.check
    checkArms rest

/-- The first fault of a table. -/
def Table.check : Table → Except Error Unit
  | .schema table => table.check
  | .query query label => do
    requireLabel .queryTable label
    query.check
  | .remote config columns label => do
    if config.isNull then throw (.missingField Kind.remoteTable.tag "requestConfig")
    requireLabel .remoteTable label
    checkColumnDefs columns

/-- The first fault of a join. -/
def JoinClause.check : JoinClause → Except Error Unit
  | ⟨operator, table, condition⟩ => do
    operator.check condition.isSome
    table.check
    checkSlot? .joinClause "ON" condition

/-- The first fault of a list of joins. -/
def checkJoins : List JoinClause → Except Error Unit
  | [] => .ok ()
  | join :: rest => do
    join.check
    checkJoins rest

/-- The first fault of a table with its joins. -/
def FromTable.check : FromTable → Except Error Unit
  | ⟨table, joins⟩ => do
    table.check
    checkJoins joins

/-- The first fault of a list of tables with their joins. -/
def checkSources : List FromTable → Except Error Unit
  | [] => .ok ()
  | source :: rest => do
    source.check
    checkSources rest

/-- The first fault of a result column. -/
def ResultColumn.check : ResultColumn → Except Error Unit
  | ⟨expression, _⟩ => checkSlot .resultColumn "result" expression expression.check

/-- The first fault of a list of result columns. -/
def checkColumns : List ResultColumn → Except Error Unit
  | [] => .ok ()
  | column :: rest => do
    column.check
    checkColumns rest

/-- The first fault of a sort. -/
def OrderBy.check : OrderBy → Except Error Unit
  | ⟨expression, _⟩ => checkSlot .orderBy "ORDER BY" expression expression.check

/-- The first fault of a list of sorts. -/
def checkOrder : List OrderBy → Except Error Unit
  | [] => .ok ()
  | term :: rest => do
    term.check
    checkOrder rest

/-- The first fault of a grouping. -/
def GroupBy.check : GroupBy → Except Error Unit
  | ⟨expressions, having⟩ => do
    if expressions.isEmpty then throw (.incomplete Kind.groupBy.tag .groupingExpressions)
    checkSlots .groupBy "GROUP BY" expressions
    checkSlot? .groupBy "HAVING" having

/-- The first fault of a grouping that may be left out. -/
def checkGroupBy? : Option GroupBy → Except Error Unit
  | none => .ok ()
  | some groupBy => groupBy.check

/-- The first fault of a query. -/
def Query.check : Query → Except Error Unit
  | ⟨_, columns, sources, condition, groupBy, order, _⟩ => do
    if columns.isEmpty && sources.isEmpty then
      throw (.incomplete Kind.query.tag .resultColumnsOrSources)
    checkColumns columns
    checkSources sources
    checkSlot? .query "WHERE" condition
    checkGroupBy? groupBy
    checkOrder order

end

/-- The first fault of a query that may be left out. -/
def checkQuery? : Option Query → Except Error Unit
  | none => .ok ()
  | some query => query.check

/-- The first fault of an insertion. -/
def Insertion.check (i : Insertion) : Except Error Unit := do
  requireText .insertion "name" i.name
  match i.source with
  | .rows rows =>
    if rows.isEmpty then throw (.incomplete Kind.insertion.tag .rows)
    checkSlots .insertion "value" rows.flatten
  | .query query => query.check
  i.checkArity

/-- The first fault of a list of assignments. -/
def checkAssignments : List (String × Expr) → Except Error Unit
  | [] => .ok ()
  | (column, value) :: rest => do
    requireText .update "column" column
    checkSlot .update "SET" value value.check
    checkAssignments rest

/-- The first fault of an update. -/
def Update.check (u : Update) : Except Error Unit := do
  requireText .update "name" u.name
  if u.assignments.isEmpty then throw (.incomplete Kind.update.tag .assignments)
  checkAssignments u.assignments
  checkSlot? .update "WHERE" u.condition

/-- The first fault of a deletion. -/
def Deletion.check (d : Deletion) : Except Error Unit := do
  requireText .deletion "name" d.name
  checkSlot? .deletion "WHERE" d.condition

/-- The first fault of the creation of a table. -/
def CreateTable.check (t : CreateTable) : Except Error Unit := do
  requireText .createTable "name" t.name
  if t.columns.isEmpty && t.query.isNone then
    throw (.incomplete Kind.createTable.tag .definitions)
  checkColumnDefs t.columns
  checkPrimaryKeys t.constraints
  t.checkDefinitions
  checkQuery? t.query

/-- The first fault of a statement. -/
def Statement.check : Statement → Except Error Unit
  | .query q => q.check
  | .insertion i => i.check
  | .update u => u.check
  | .deletion d => d.check
  | .createTable t => t.check
  | .createSchema s => requireText .createSchema "name" s.name
  | .dropTable t => requireText .dropTable "name" t.name
  | .dropSchema s => requireText .dropSchema "name" s.name

/-- The first fault of a node. -/
def Node.check : Node → Except Error Unit
  | .expr e => e.check
  | .table t => t.check
  | .fromTable f => f.check
  | .joinClause j => j.check
  | .columnDef c => c.check
  | .primaryKey k => k.check
  | .resultColumn c => c.check
  | .orderBy o => o.check
  | .groupBy g => g.check
  | .limit _ => .ok ()
  | .statement s => s.check

end SqlTree
