import SqlTree.Draft.Basic
import SqlTree.Node.Conditions

/-!
# Building changes of data

An insertion takes its rows one by one or from a query, and refuses what does not have the number of
values that its columns or its first row ask for. An update has each column once, with the value
given last at the place where it was given first. Conditions of updates and deletions are conjoined.

## Main definitions

* `Insertion.into`, `Insertion.Step`, `Insertion.perform`, `Insertion.step`.
* `Update.of`, `Update.Step`, `Update.step`.
* `Deletion.of`, `Deletion.Step`, `Deletion.step`.
-/

namespace SqlTree

/-- The rows with one more, which takes the place of a query. -/
def InsertionSource.add (row : List Expr) : InsertionSource → InsertionSource
  | .rows rs => .rows (rs ++ [row])
  | .query _ => .rows [row]

namespace Insertion

/-- The insertion of no rows into a table. -/
def into (name : String) : Insertion := ⟨none, name, [], .rows []⟩

/-- Names the columns that values are given for. -/
def setColumns (columns : List String) : Edit Insertion Unit := do
  let candidate := { ← get with columns }
  candidate.checkArity
  set candidate

/-- Appends a row; the rows of a query are given up for it. -/
def addRow (row : List Expr) : Edit Insertion Unit := do
  if let some expected := (← get).expectedArity? then
    if row.length ≠ expected then throw (.arityMismatch expected row.length)
  modify fun i => { i with source := i.source.add row }

/-- Takes the rows from a query; rows given before are given up for it. -/
def setQuery (q : Query) : Edit Insertion Unit := do
  let candidate := { ← get with source := .query q }
  candidate.checkArity
  set candidate

/-- A step of the construction. -/
inductive Step where
  | schema (schema : String)
  | columns (columns : List String)
  | row (row : List Expr)
  | query (query : Query)

/-- Performs a step. -/
def perform : Step → Edit Insertion Unit
  | .schema s => modify fun i => { i with schema := some s }
  | .columns cs => setColumns cs
  | .row r => addRow r
  | .query q => setQuery q

/-- The insertion after a step that succeeds. -/
def step (s : Step) : Insertion → Except Error Insertion := (perform s).result

end Insertion

namespace Update

/-- The update of a table without assignments. -/
def of (name : String) : Update := ⟨none, name, [], none⟩

/-- A list of assignments with one more: a column that is there gets a new value at its place. -/
def assign (column : String) (value : Expr) : List (String × Expr) → List (String × Expr)
  | [] => [(column, value)]
  | (c, v) :: rest =>
    if c = column then (c, value) :: rest else (c, v) :: assign column value rest

/-- A step of the construction. -/
inductive Step where
  | schema (schema : String)
  | assign (column : String) (value : Expr)
  | condition (e : Expr)

/-- Performs a step. -/
def step : Step → Update → Update
  | .schema s, u => { u with schema := some s }
  | .assign c v, u => { u with assignments := Update.assign c v u.assignments }
  | .condition e, u => { u with condition := some (Expr.conjoin u.condition e) }

end Update

namespace Deletion

/-- The deletion of all rows of a table. -/
def of (name : String) : Deletion := ⟨none, name, none⟩

/-- A step of the construction. -/
inductive Step where
  | database (database : String)
  | condition (e : Expr)

/-- Performs a step. -/
def step : Step → Deletion → Deletion
  | .database s, d => { d with database := some s }
  | .condition e, d => { d with condition := some (Expr.conjoin d.condition e) }

end Deletion

end SqlTree
