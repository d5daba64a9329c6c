import SqlTree.Keyed
import SqlTree.Node.Basic

/-!
# Tables read and written

A statement reads every table of a schema that some query in it takes rows from, however deep the
query stands, and writes its target. Tables are named with their schemas in front.

## Main definitions

* `Expr.reads`, `Table.reads`, `Query.reads`: the tables read, in the order of the tree.
* `Access`, `Statement.access`: the tables read and written, in ascending order.
-/

namespace SqlTree

mutual

/-- The tables that an expression reads. -/
def Expr.reads : Expr → List String
  | .unknown => []
  | .value _ => []
  | .column .. => []
  | .userVariable _ => []
  | .binary _ left right _ => left.reads ++ right.reads
  | .between left start stop _ => left.reads ++ start.reads ++ stop.reads
  | .oneOf left right _ => left.reads ++ right.reads
  | .nullTest left _ => left.reads
  | .existence q _ => q.reads
  | .caseOf subject arms otherwise => reads? subject ++ armReads arms ++ reads? otherwise
  | .function _ parameters _ => allReads parameters
  | .math _ operands => allReads operands
  | .group _ items => allReads items
  | .query q => q.reads

/-- The tables that a list of expressions reads. -/
def allReads : List Expr → List String
  | [] => []
  | e :: rest => e.reads ++ allReads rest

/-- The tables that an expression reads, if it is there. -/
def reads? : Option Expr → List String
  | none => []
  | some e => e.reads

/-- The tables that a condition and its result read. -/
def CaseArm.reads : CaseArm → List String
  | ⟨condition, result⟩ => condition.reads ++ result.reads

/-- The tables that a list of conditions and results reads. -/
def armReads : List CaseArm → List String
  | [] => []
  | arm :: rest => arm.reads ++ armReads rest

/-- The tables that a table stands for. -/
def Table.reads : Table → List String
  | .schema t => [qualifiedName t.schema t.table]
  | .query q _ => q.reads
  | .remote .. => []

/-- The tables that a join reads. -/
def JoinClause.reads : JoinClause → List String
  | ⟨_, table, condition⟩ => table.reads ++ reads? condition

/-- The tables that a list of joins reads. -/
def joinReads : List JoinClause → List String
  | [] => []
  | join :: rest => join.reads ++ joinReads rest

/-- The tables that a table with its joins stands for. -/
def FromTable.reads : FromTable → List String
  | ⟨table, joins⟩ => table.reads ++ joinReads joins

/-- The tables that a list of tables with their joins stands for. -/
def sourceReads : List FromTable → List String
  | [] => []
  | source :: rest => source.reads ++ sourceReads rest

/-- The tables that a result column reads. -/
def ResultColumn.reads : ResultColumn → List String
  | ⟨expression, _⟩ => expression.reads

/-- The tables that a list of result columns reads. -/
def columnReads : List ResultColumn → List String
  | [] => []
  | column :: rest => column.reads ++ columnReads rest

/-- The tables that a sort reads. -/
def OrderBy.reads : OrderBy → List String
  | ⟨expression, _⟩ => expression.reads

/-- The tables that a list of sorts reads. -/
def orderReads : List OrderBy → List String
  | [] => []
  | term :: rest => term.reads ++ orderReads rest

/-- The tables that a grouping reads. -/
def GroupBy.reads : GroupBy → List String
  | ⟨expressions, having⟩ => allReads expressions ++ reads? having

/-- The tables that a grouping reads, if it is there. -/
def groupReads? : Option GroupBy → List String
  | none => []
  | some g => g.reads

/-- The tables that a query reads. -/
def Query.reads : Query → List String
  | ⟨_, columns, sources, condition, groupBy, order, _⟩ =>
    sourceReads sources ++ columnReads columns ++ reads? condition ++ groupReads? groupBy
      ++ orderReads order

end

/-- The tables that a statement reads and writes. -/
structure Access where
  /-- The tables read, in ascending order. -/
  reads : List String
  /-- The tables written, in ascending order. -/
  writes : List String
deriving DecidableEq, Inhabited

namespace Access

/-- The access to given tables, whatever their order. -/
def ofLists (reads writes : List String) : Access :=
  ⟨Names.ofList reads, Names.ofList writes⟩

/-- Whether no table is read or written. -/
def isEmpty (a : Access) : Bool := a.reads.isEmpty && a.writes.isEmpty

end Access

/-- The name under which the target of an insertion is tracked. -/
def Insertion.target (i : Insertion) : String := qualifiedName i.schema i.name

/-- The name under which the target of an update is tracked. -/
def Update.target (u : Update) : String := qualifiedName u.schema u.name

/-- The name under which the target of a deletion is tracked. -/
def Deletion.target (d : Deletion) : String := qualifiedName d.database d.name

/-- The name under which a created table is tracked. -/
def CreateTable.target (t : CreateTable) : String := qualifiedName t.schema t.name

/-- The name under which a removed table is tracked. -/
def DropTable.target (t : DropTable) : String := qualifiedName t.schema t.name

/-- The tables that an insertion reads. -/
def InsertionSource.reads : InsertionSource → List String
  | .rows rs => allReads rs.flatten
  | .query q => q.reads

/-- The tables that a statement reads, in the order of the tree. -/
def Statement.reads : Statement → List String
  | .query q => q.reads
  | .insertion i => i.source.reads
  | .update u => allReads (u.assignments.map Prod.snd) ++ reads? u.condition
  | .deletion d => reads? d.condition
  | .createTable t => (t.query.map Query.reads).getD []
  | .createSchema _ => []
  | .dropTable _ => []
  | .dropSchema _ => []

/-- The tables that a statement writes. -/
def Statement.writes : Statement → List String
  | .query _ => []
  | .insertion i => [i.target]
  | .update u => [u.target]
  | .deletion d => [d.target]
  | .createTable t => [t.target]
  | .createSchema _ => []
  | .dropTable t => [t.target]
  | .dropSchema _ => []

/-- The tables that a statement reads and writes. -/
def Statement.access (s : Statement) : Access := .ofLists s.reads s.writes

end SqlTree
