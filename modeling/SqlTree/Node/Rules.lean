import SqlTree.Error
import SqlTree.Node.Basic

/-!
# Rules of single nodes

A node is finished when its own rules hold and the nodes in its slots are finished. This file has
the rules that concern one node alone, apart from the recursion over slots: they are used when a
finished tree is checked, when a document is revived and when a node is put together step by step.

## Main definitions

* `normalizeOperator`, `normalizeMathOperator`, `normalizeFunctionName`: the spelling that is kept.
* `checkLeftOperand`, `checkRightOperand`, `checkNegation`: what a binary operator accepts.
* `JoinOperator.check`, `SchemaTable.check`, `ColumnDef.check`, `PrimaryKey.check`.
* `Insertion.checkArity`, `CreateTable.checkDefinitions`.
-/

namespace SqlTree

/-- Fails with a missing field of a node if a text is empty. -/
def requireText (kind : Kind) (field value : String) : Except Error Unit :=
  if value.isEmpty then .error (.missingField kind.tag field) else .ok ()

/-- Fails with a missing label of a table if it is empty. -/
def requireLabel (kind : Kind) (label : String) : Except Error Unit :=
  if label.isEmpty then .error (.missingAlias kind.tag) else .ok ()

/-- Fails if a slot of a node is not set, and otherwise as the check of its expression does. -/
def checkSlot (kind : Kind) (slot : String) (e : Expr) (inner : Except Error Unit) :
    Except Error Unit :=
  if e.isUnknown then .error (.incomplete kind.tag (.slot slot)) else inner

/-! ### Operators -/

/-- The upper-case spelling of a binary operator that a dialect accepts. -/
def normalizeOperator (d : Dialect) (operator : String) : Except Error String :=
  if d.supports operator then .ok operator.toUpper
  else .error (.unsupportedOperator Kind.binary.tag operator)

/-- An assignment needs a user variable on its left, which may be still unset. -/
def checkLeftOperand (operator : String) (left : Expr) : Except Error Unit :=
  if operator = ":=" ∧ !(left.isUserVariable || left.isUnknown) then
    .error (.invalidOperand operator .variableOnLeft)
  else .ok ()

/-- What the operators `IS`, `IN`, `LIKE`, `ILIKE` and `REGEXP` accept on their right, which may be
still unset. -/
def checkRightOperand (operator : String) (right : Expr) : Except Error Unit :=
  if right.isUnknown then .ok ()
  else if operator = "IS" then
    if right.isNull then .ok () else .error (.invalidOperand operator .nullOnRight)
  else if operator = "IN" then
    if right.isList then .ok () else .error (.invalidOperand operator .listOrQueryOnRight)
  else if operator = "LIKE" ∨ operator = "ILIKE" ∨ operator = "REGEXP" then
    if right.isString then .ok () else .error (.invalidOperand operator .stringOnRight)
  else .ok ()

/-- Only some operators can be negated. -/
def checkNegation (operator : String) (negated : Bool) : Except Error Unit :=
  if negated ∧ operator ∉ negatableOperators then .error (.invalidNegation operator) else .ok ()

/-- The right side of an `IN` expression is a list or a query, or still unset. -/
def checkList (right : Expr) : Except Error Unit :=
  if right.isUnknown || right.isList then .ok ()
  else .error (.invalidOperand "IN" .listOrQueryOnRight)

/-- The listed spelling of an operator of arithmetic. -/
def normalizeMathOperator (operator : String) : Except Error String :=
  match mathOperators.find? fun op => sameLetters op operator with
  | some op => .ok op
  | none => .error (.unsupportedOperator Kind.math.tag operator)

/-- The upper-case spelling of the name of a function. -/
def normalizeFunctionName (name : String) : Except Error String := do
  requireText .function "name" name
  return name.toUpper

/-- The operator of a group, in whatever case it is written. -/
def GroupOperator.parse (operator : String) : Except Error GroupOperator :=
  match GroupOperator.ofAnyCase? operator with
  | some op => .ok op
  | none => .error (.unsupportedOperator Kind.group.tag operator)

/-- The operator of a join, in whatever case it is written. -/
def JoinOperator.parse (operator : String) : Except Error JoinOperator :=
  match JoinOperator.ofAnyCase? operator with
  | some op => .ok op
  | none => .error (.unsupportedOperator Kind.joinClause.tag operator)

/-- The direction of a sort, in whatever case it is written. -/
def SortDirection.parse (direction : String) : Except Error SortDirection :=
  match SortDirection.ofAnyCase? direction with
  | some d => .ok d
  | none => .error (.unsupportedOperator Kind.orderBy.tag direction)

/-- A cross join has no condition and every other join has one. -/
def JoinOperator.check (operator : JoinOperator) (hasCondition : Bool) : Except Error Unit :=
  if (operator == .cross) == hasCondition then .error (.invalidJoin operator) else .ok ()

/-! ### Tables and columns -/

/-- A table has a name, and a label if it is wrapped in a function. -/
def SchemaTable.check (t : SchemaTable) : Except Error Unit := do
  requireText .schemaTable "table" t.table
  if t.function.isSome then requireLabel .schemaTable (t.label.getD "")

/-- A column has a name and a type, and is not null if it is the primary key. -/
def ColumnDef.check (c : ColumnDef) : Except Error Unit := do
  requireText .columnDef "name" c.name
  requireText .columnDef "type" c.typeName
  if c.primaryKey && !c.notNull then throw (.nullablePrimaryKey c.name)

/-- A primary key names a column. -/
def PrimaryKey.check (k : PrimaryKey) : Except Error Unit :=
  if k.columns.isEmpty then .error (.missingField Kind.primaryKey.tag "columns") else .ok ()

/-- Checks columns in their order. -/
def checkColumnDefs : List ColumnDef → Except Error Unit
  | [] => .ok ()
  | c :: rest => do c.check; checkColumnDefs rest

/-- Checks primary keys in their order. -/
def checkPrimaryKeys : List PrimaryKey → Except Error Unit
  | [] => .ok ()
  | k :: rest => do k.check; checkPrimaryKeys rest

/-! ### Insertions -/

namespace Insertion

/-- How many values every row must have, if that is known: as many as columns are named, or as the
first row has. -/
def expectedArity? (i : Insertion) : Option Nat :=
  if i.columns.isEmpty then
    match i.source with
    | .rows rows => rows.head?.map List.length
    | .query _ => none
  else some i.columns.length

/-- Every row has as many values as expected, and so does the query unless it gives all columns. -/
def checkArity (i : Insertion) : Except Error Unit :=
  match i.expectedArity? with
  | none => .ok ()
  | some expected =>
    match i.source with
    | .rows rows =>
      match rows.find? fun row => row.length != expected with
      | some row => .error (.arityMismatch expected row.length)
      | none => .ok ()
    | .query q =>
      if !q.columns.isEmpty && q.columns.length != expected then
        .error (.arityMismatch expected q.columns.length)
      else .ok ()

end Insertion

/-! ### Creations of tables -/

/-- The first name of a list that occurs in it again, found at the later place, `seen` holding the
names before the list. -/
def firstRepeated? (seen : List String) : List String → Option String
  | [] => none
  | name :: rest => if name ∈ seen then some name else firstRepeated? (name :: seen) rest

namespace CreateTable

/-- How many primary keys there are, those of columns and those over several columns together. -/
def primaryKeyCount (t : CreateTable) : Nat :=
  (t.columns.filter ColumnDef.primaryKey).length + t.constraints.length

/-- The names of the defined columns. -/
def columnNames (t : CreateTable) : List String := t.columns.map ColumnDef.name

/-- Columns have different names, there is at most one primary key, and without a query it only
names defined columns. -/
def checkDefinitions (t : CreateTable) : Except Error Unit :=
  match firstRepeated? [] t.columnNames with
  | some name => .error (.duplicateColumn name)
  | none =>
    if 1 < t.primaryKeyCount then .error (.multiplePrimaryKeys t.name)
    else if t.query.isSome then .ok ()
    else
      match (t.constraints.flatMap PrimaryKey.columns).find? fun c => c ∉ t.columnNames with
      | some name => .error (.unknownColumn name)
      | none => .ok ()

end CreateTable

end SqlTree
