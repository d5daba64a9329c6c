import SqlTree.Draft.Basic
import SqlTree.Node.Check

/-!
# Building definitions

A column is nullable with a null default unless it is made otherwise; a primary key is never
nullable. A step takes the column and gives another one, so that the column is gone if the step
fails. A table under construction is changed in place. It only takes columns and keys that keep its
definition sound.

## Main definitions

* `ColumnDef.of`, `ColumnDef.Step`, `ColumnDef.step`.
* `CreateTable.of`, `CreateTable.Step`, `CreateTable.perform`, `CreateTable.step`.
-/

namespace SqlTree

namespace ColumnDef

/-- A nullable column with a null default. -/
def of (name typeName : String) : ColumnDef :=
  { name, typeName, length := none, primaryKey := false, defaultValue := .null, notNull := false
    autoIncrement := false, options := [] }

/-- The column without a default that must not be null. -/
def required (c : ColumnDef) : ColumnDef := { c with notNull := true, defaultValue := .null }

/-- A step of the construction. -/
inductive Step where
  | length (length : UInt64)
  | primaryKey
  | notNull
  | nullable (defaultValue : Json)
  | autoIncrement
  | option (option : String)

/-- Performs a step; a primary key cannot be made nullable. -/
def step : Step → ColumnDef → Except Error ColumnDef
  | .length n, c => .ok { c with length := some n }
  | .primaryKey, c => .ok { c.required with primaryKey := true }
  | .notNull, c => .ok c.required
  | .nullable v, c =>
    if c.primaryKey then .error (.nullablePrimaryKey c.name)
    else .ok { c with notNull := false, defaultValue := v }
  | .autoIncrement, c => .ok { c with autoIncrement := true }
  | .option o, c => .ok { c with options := c.options ++ [o] }

end ColumnDef

namespace CreateTable

/-- The creation of a table without columns. -/
def of (name : String) : CreateTable := ⟨none, name, false, [], [], none⟩

/-- Appends a column. -/
def addColumn (c : ColumnDef) : Edit CreateTable Unit := do
  c.check
  let t ← get
  if c.name ∈ t.columnNames then throw (.duplicateColumn c.name)
  if c.primaryKey && 0 < t.primaryKeyCount then throw (.multiplePrimaryKeys t.name)
  set { t with columns := t.columns ++ [c] }

/-- Appends a primary key over columns that are there. -/
def addPrimaryKey (k : PrimaryKey) : Edit CreateTable Unit := do
  k.check
  let t ← get
  if 0 < t.primaryKeyCount then throw (.multiplePrimaryKeys t.name)
  match k.columns.find? fun c => c ∉ t.columnNames with
  | some name => throw (.unknownColumn name)
  | none => set { t with constraints := t.constraints ++ [k] }

/-- A step of the construction. -/
inductive Step where
  | schema (schema : String)
  | ifNotExists (ifNotExists : Bool)
  | column (column : ColumnDef)
  | primaryKey (key : PrimaryKey)
  | query (query : Query)

/-- Performs a step. -/
def perform : Step → Edit CreateTable Unit
  | .schema s => modify fun t => { t with schema := some s }
  | .ifNotExists b => modify fun t => { t with ifNotExists := b }
  | .column c => addColumn c
  | .primaryKey k => addPrimaryKey k
  | .query q => modify fun t => { t with query := some q }

/-- The definition after a step that succeeds. -/
def step (s : Step) : CreateTable → Except Error CreateTable := (perform s).result

end CreateTable

end SqlTree
