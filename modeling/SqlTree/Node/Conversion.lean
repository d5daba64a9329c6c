import SqlTree.Error
import SqlTree.Node.Basic

/-!
# Nodes as particular parts

Where a part of a certain form is needed, a node of that form is taken as it is. A few other forms
stand for it as well: a query is an expression and an expression that is a query is a statement, a
table is a table without joins, and an expression is a result column without a name.
-/

namespace SqlTree.Node

variable {n : Node}

/-- The error that a node is not of the expected form. -/
def unexpected (n : Node) (expected : String) : Error := .unexpectedKind expected n.tag

/-- A node as an expression. -/
def toExpr : Node → Except Error Expr
  | expr e => .ok e
  | statement (.query q) => .ok (.query q)
  | n => .error (n.unexpected "expression")

theorem toExpr_eq_ok {e : Expr} :
    n.toExpr = .ok e ↔ n = expr e ∨ ∃ q, n = statement (.query q) ∧ e = .query q := by
  unfold toExpr
  split <;> simp_all [eq_comm]

/-- A node as a table. -/
def toTable : Node → Except Error Table
  | table t => .ok t
  | n => .error (n.unexpected "table")

theorem toTable_eq_ok {t : Table} : n.toTable = .ok t ↔ n = table t := by
  cases n <;> simp [toTable]

/-- A node as a statement. -/
def toStatement : Node → Except Error Statement
  | statement s => .ok s
  | expr (.query q) => .ok (.query q)
  | n => .error (n.unexpected "statement")

/-- A node as a query. -/
def toQuery (n : Node) : Except Error Query := do
  match ← n.toStatement with
  | .query q => .ok q
  | s => .error ((statement s).unexpected "Query")

theorem toQuery_eq_ok {q : Query} :
    n.toQuery = .ok q ↔ n = statement (.query q) ∨ n = expr (.query q) := by
  unfold toQuery toStatement
  split
  · next s => cases s <;> simp [bind, Except.bind]
  · simp [bind, Except.bind]
  · simp_all [bind, Except.bind]

/-- A node as a table with its joins. -/
def toFromTable : Node → Except Error FromTable
  | fromTable f => .ok f
  | table t => .ok (.ofTable t)
  | n => .error (n.unexpected "FromTable")

theorem toFromTable_eq_ok {f : FromTable} :
    n.toFromTable = .ok f ↔ n = fromTable f ∨ ∃ t, n = table t ∧ f = .ofTable t := by
  cases n <;> simp [toFromTable, eq_comm]

/-- A node as a join. -/
def toJoinClause : Node → Except Error JoinClause
  | joinClause j => .ok j
  | n => .error (n.unexpected "JoinClause")

theorem toJoinClause_eq_ok {j : JoinClause} : n.toJoinClause = .ok j ↔ n = joinClause j := by
  cases n <;> simp [toJoinClause]

/-- A node as the definition of a column. -/
def toColumnDef : Node → Except Error ColumnDef
  | columnDef c => .ok c
  | n => .error (n.unexpected "ColumnDef")

theorem toColumnDef_eq_ok {c : ColumnDef} : n.toColumnDef = .ok c ↔ n = columnDef c := by
  cases n <;> simp [toColumnDef]

/-- A node as a primary key. -/
def toPrimaryKey : Node → Except Error PrimaryKey
  | primaryKey k => .ok k
  | n => .error (n.unexpected "PrimaryKeyConstraint")

theorem toPrimaryKey_eq_ok {k : PrimaryKey} : n.toPrimaryKey = .ok k ↔ n = primaryKey k := by
  cases n <;> simp [toPrimaryKey]

/-- A node as a result column. -/
def toResultColumn : Node → Except Error ResultColumn
  | resultColumn c => .ok c
  | expr e => .ok (.ofExpr e)
  | n => .error (n.unexpected "ResultColumn")

theorem toResultColumn_eq_ok {c : ResultColumn} :
    n.toResultColumn = .ok c ↔ n = resultColumn c ∨ ∃ e, n = expr e ∧ c = .ofExpr e := by
  cases n <;> simp [toResultColumn, eq_comm]

/-- A node as a sort. -/
def toOrderBy : Node → Except Error OrderBy
  | orderBy o => .ok o
  | n => .error (n.unexpected "OrderBy")

theorem toOrderBy_eq_ok {o : OrderBy} : n.toOrderBy = .ok o ↔ n = orderBy o := by
  cases n <;> simp [toOrderBy]

/-- A node as a grouping. -/
def toGroupBy : Node → Except Error GroupBy
  | groupBy g => .ok g
  | n => .error (n.unexpected "GroupBy")

theorem toGroupBy_eq_ok {g : GroupBy} : n.toGroupBy = .ok g ↔ n = groupBy g := by
  cases n <;> simp [toGroupBy]

/-- A node as the bound on the rows of a query. -/
def toLimit : Node → Except Error Limit
  | limit l => .ok l
  | n => .error (n.unexpected "Limit")

theorem toLimit_eq_ok {l : Limit} : n.toLimit = .ok l ↔ n = limit l := by
  cases n <;> simp [toLimit]

end SqlTree.Node
