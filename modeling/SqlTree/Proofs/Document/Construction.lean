import Mathlib.Data.List.Forall2
import SqlTree.Proofs.Outcome
import SqlTree.Registry.Construct

/-!
# What nodes are put together from

A node is put together from its fields if every field that its kind asks for can be read and every
check on the way passes. This file says so for each kind, with the fields and the checks in their
order, so that what holds of the fields is carried over to the node without going through the steps
again.

## Main results

* `Fields.get_eq_ok`, `Fields.list_eq_ok`, `Fields.node?_eq_ok`, … : when fields with nodes are read.
* `Fields.between_eq_ok`, `Fields.query_eq_ok`, … : when a node of each kind is put together, and
  which one.
* `Fields.caseArm_eq_ok`, `Fields.row_eq_ok`, `Fields.assignment_eq_ok`: likewise for the parts of
  nodes that are no nodes themselves.
* `Fields.joinClause_eq`, `Fields.orderBy_eq`: what an absent operator or direction stands for.
-/

namespace SqlTree

namespace Fields

variable {f : Fields} {r : Reading}

/-! ### Fields with nodes -/

section

variable {α β : Type} {key : String} {as : Node → Except Error α}

theorem get_eq_ok : f.get key = .ok r ↔ f.get? key = some r := by
  rw [get]
  cases f.get? key with
  | none => exact ⟨nofun, nofun⟩
  | some x => rw [Except.ok.injEq, Option.some.injEq]

/-- A list that is absent has no items. -/
theorem list_eq_ok {items : List Reading} : f.list key = .ok items ↔
    f.get? key = none ∧ [] = items ∨
    ∃ x, f.get? key = some x ∧ (∃ vs, x.source = .array vs) ∧ x.items = items := by
  rw [list]
  cases f.get? key with
  | none => simp
  | some x => cases hx : x.source <;> simp [hx]

/-- Items are converted one by one. -/
theorem convert_eq_ok {one : α → Except Error β} {items : List α} {results : List β} :
    convert one items = .ok results ↔ List.Forall₂ (fun a b => one a = .ok b) items results := by
  induction items generalizing results with
  | nil => rw [convert, Except.ok.injEq, List.forall₂_nil_left_iff, eq_comm]
  | cons a items ih =>
    simp only [convert, bind_eq_ok, pure_eq_ok, ih, List.forall₂_cons_left_iff, exists_and_left,
      eq_comm (a := results)]

theorem node?_eq_ok {a? : Option α} : f.node? key as = .ok a? ↔
    f.get? key = none ∧ none = a? ∨
    ∃ x, f.get? key = some x ∧
      ∃ n, x.outcome = .ok n ∧ ∃ a, as n = .ok a ∧ some a = a? := by
  rw [node?]
  cases f.get? key with
  | none => simp
  | some x => simp [bind_eq_ok, map_eq_ok]

/-- A slot that is absent is not set. -/
theorem slot_eq_ok {e : Expr} : f.slot key = .ok e ↔
    ∃ e?, f.expr? key = .ok e? ∧ e?.getD .unknown = e := by
  simp only [slot, bind_eq_ok, pure_eq_ok]

end

/-! ### Expressions -/

theorem column_eq_ok {e : Expr} : f.column = .ok e ↔
    ∃ name, f.text "column" = .ok name ∧
    ∃ table, f.text? "table" = .ok table ∧ .column table name = e := by
  simp only [column, bind_eq_ok, pure_eq_ok]

theorem userVariable_eq_ok {e : Expr} : f.userVariable = .ok e ↔
    ∃ name, f.text "name" = .ok name ∧ .userVariable name = e := by
  simp only [userVariable, bind_eq_ok, pure_eq_ok]

/-- The right side of `IS` is not read. -/
theorem binary_eq_ok {d : Dialect} {e : Expr} : f.binary d = .ok e ↔
    ∃ text, f.text "operator" = .ok text ∧
    ∃ operator, normalizeOperator d text = .ok operator ∧
    ∃ left, f.slot "left" = .ok left ∧ checkLeftOperand operator left = .ok () ∧
    ∃ right, (operator = "IS" ∧ .value .null = right ∨
        operator ≠ "IS" ∧ f.slot "right" = .ok right) ∧
      checkRightOperand operator right = .ok () ∧
    ∃ negated, f.flag "not" = .ok negated ∧ checkNegation operator negated = .ok () ∧
      .binary operator left right negated = e := by
  simp only [binary, bind_eq_ok, exists_unit]
  refine exists_congr fun text => and_congr_right fun _ => exists_congr fun operator =>
    and_congr_right fun _ => exists_congr fun left => and_congr_right fun _ =>
    and_congr_right fun _ => ?_
  split
  · next his => simp only [bind_eq_ok, exists_unit, pure_eq_ok, his, true_and, ne_eq,
      not_true_eq_false, false_and, or_false]
  · next his => simp only [bind_eq_ok, exists_unit, pure_eq_ok, his, false_and, false_or, ne_eq,
      not_false_eq_true, true_and]

theorem between_eq_ok {e : Expr} : f.between = .ok e ↔
    ∃ left, f.slot "left" = .ok left ∧ ∃ start, f.slot "start" = .ok start ∧
    ∃ stop, f.slot "end" = .ok stop ∧ ∃ negated, f.flag "not" = .ok negated ∧
      .between left start stop negated = e := by
  simp only [between, bind_eq_ok, pure_eq_ok]

theorem oneOf_eq_ok {e : Expr} : f.oneOf = .ok e ↔
    ∃ left, f.slot "left" = .ok left ∧
    ∃ right, f.slot "right" = .ok right ∧ checkList right = .ok () ∧
    ∃ negated, f.flag "not" = .ok negated ∧ .oneOf left right negated = e := by
  simp only [oneOf, bind_eq_ok, exists_unit, pure_eq_ok]

theorem nullTest_eq_ok {e : Expr} : f.nullTest = .ok e ↔
    ∃ left, f.slot "left" = .ok left ∧
    ∃ negated, f.flag "not" = .ok negated ∧ .nullTest left negated = e := by
  simp only [nullTest, bind_eq_ok, pure_eq_ok]

theorem existence_eq_ok {e : Expr} : f.existence = .ok e ↔
    ∃ x, f.get "query" = .ok x ∧ ∃ q, x.query = .ok q ∧
    ∃ negated, f.flag "not" = .ok negated ∧ .existence q negated = e := by
  simp only [existence, bind_eq_ok, pure_eq_ok]

/-- The members of an arm are fields of their own. -/
theorem caseArm_eq_ok {arm : CaseArm} : caseArm r = .ok arm ↔
    ∃ members, r.source = .object members ∧
    ∃ condition, slot ⟨.caseOf, r.members⟩ "when" = .ok condition ∧
    ∃ result, slot ⟨.caseOf, r.members⟩ "then" = .ok result ∧ ⟨condition, result⟩ = arm := by
  rw [caseArm]
  split
  · next members hsource =>
    simp only [bind_eq_ok, pure_eq_ok, hsource, Json.object.injEq, exists_eq_left']
  · next hsource => exact ⟨nofun, fun ⟨members, h, _⟩ => absurd h (hsource members)⟩

theorem caseOf_eq_ok {e : Expr} : f.caseOf = .ok e ↔
    ∃ items, f.list "cases" = .ok items ∧ ∃ arms, convert caseArm items = .ok arms ∧
    ∃ subject, f.expr? "expression" = .ok subject ∧
    ∃ otherwise, f.expr? "else" = .ok otherwise ∧ .caseOf subject arms otherwise = e := by
  simp only [caseOf, bind_eq_ok, pure_eq_ok]

theorem function_eq_ok {e : Expr} : f.function = .ok e ↔
    ∃ text, f.text "name" = .ok text ∧ ∃ name, normalizeFunctionName text = .ok name ∧
    ∃ parameters, f.exprs "parameters" = .ok parameters ∧
    ∃ distinct, f.flag "distinct" = .ok distinct ∧ .function name parameters distinct = e := by
  simp only [function, bind_eq_ok, pure_eq_ok]

theorem math_eq_ok {e : Expr} : f.math = .ok e ↔
    ∃ text, f.text "operator" = .ok text ∧
    ∃ operator, normalizeMathOperator text = .ok operator ∧
    ∃ operands, f.exprs "operands" = .ok operands ∧ .math operator operands = e := by
  simp only [math, bind_eq_ok, pure_eq_ok]

theorem group_eq_ok {e : Expr} : f.group = .ok e ↔
    ∃ text, f.text "operator" = .ok text ∧
    ∃ operator, GroupOperator.parse text = .ok operator ∧
    ∃ items, f.exprs "expressions" = .ok items ∧ .group operator items = e := by
  simp only [group, bind_eq_ok, pure_eq_ok]

/-! ### Tables and joins -/

theorem schemaTable_eq_ok {t : Table} : f.schemaTable = .ok t ↔
    ∃ schema, f.text? "schema" = .ok schema ∧ ∃ table, f.text "table" = .ok table ∧
    ∃ function, f.text? "function" = .ok function ∧ ∃ label, f.text? "$as" = .ok label ∧
      SchemaTable.check ⟨schema, table, function, label⟩ = .ok () ∧
      .schema ⟨schema, table, function, label⟩ = t := by
  simp only [schemaTable, bind_eq_ok, exists_unit, pure_eq_ok]

theorem label_eq_ok {label : String} : f.label = .ok label ↔
    ∃ label?, f.text? "$as" = .ok label? ∧
      requireLabel f.kind (label?.getD "") = .ok () ∧ label?.getD "" = label := by
  simp only [Fields.label, bind_eq_ok, exists_unit, pure_eq_ok]

theorem queryTable_eq_ok {t : Table} : f.queryTable = .ok t ↔
    ∃ label, f.label = .ok label ∧ ∃ x, f.get "query" = .ok x ∧
    ∃ q, x.query = .ok q ∧ .query q label = t := by
  simp only [queryTable, bind_eq_ok, pure_eq_ok]

theorem remoteTable_eq_ok {t : Table} : f.remoteTable = .ok t ↔
    ∃ label, f.label = .ok label ∧ ∃ config, f.get "requestConfig" = .ok config ∧
    ∃ columns, f.nodes "columns" Node.toColumnDef = .ok columns ∧
      .remote config.source columns label = t := by
  simp only [remoteTable, bind_eq_ok, pure_eq_ok]

/-- A join without an operator is an inner one. -/
theorem joinClause_eq (f : Fields) : f.joinClause = (do
    let operator ← (← f.text? "operator").elim (.ok .inner) JoinOperator.parse
    let table ← f.get "table"
    let conditions ← f.conditions
    JoinClause.ofConditions operator (← table.table) conditions) :=
  bind_congr fun text? => by cases text? <;> rfl

theorem joinClause_eq_ok {j : JoinClause} : f.joinClause = .ok j ↔
    ∃ text?, f.text? "operator" = .ok text? ∧
    ∃ operator, text?.elim (.ok .inner) JoinOperator.parse = .ok operator ∧
    ∃ x, f.get "table" = .ok x ∧ ∃ conditions, f.conditions = .ok conditions ∧
    ∃ table, x.table = .ok table ∧
      JoinClause.ofConditions operator table conditions = .ok j := by
  simp only [joinClause_eq, bind_eq_ok]

theorem fromTable_eq_ok {t : FromTable} : f.fromTable = .ok t ↔
    ∃ x, f.get "table" = .ok x ∧
    ∃ joins, f.nodes "joinClauses" Node.toJoinClause = .ok joins ∧
    ∃ table, x.table = .ok table ∧ ⟨table, joins⟩ = t := by
  simp only [fromTable, bind_eq_ok, pure_eq_ok]

/-! ### Parts of queries -/

theorem resultColumn_eq_ok {c : ResultColumn} : f.resultColumn = .ok c ↔
    ∃ e, f.slot "expression" = .ok e ∧ ∃ label, f.text? "$as" = .ok label ∧ ⟨e, label⟩ = c := by
  simp only [resultColumn, bind_eq_ok, pure_eq_ok]

/-- A sort without a direction is ascending. -/
theorem orderBy_eq (f : Fields) : f.orderBy = (do
    let direction ← (← f.text? "order").elim (.ok .ascending) SortDirection.parse
    return ⟨← f.slot "expression", direction⟩) :=
  bind_congr fun text? => by cases text? <;> rfl

theorem orderBy_eq_ok {o : OrderBy} : f.orderBy = .ok o ↔
    ∃ text?, f.text? "order" = .ok text? ∧
    ∃ direction, text?.elim (.ok .ascending) SortDirection.parse = .ok direction ∧
    ∃ e, f.slot "expression" = .ok e ∧ ⟨e, direction⟩ = o := by
  simp only [orderBy_eq, bind_eq_ok, pure_eq_ok]

theorem groupBy_eq_ok {g : GroupBy} : f.groupBy = .ok g ↔
    ∃ es, f.exprs "expressions" = .ok es ∧ ∃ having, f.expr? "having" = .ok having ∧
      ⟨es, having⟩ = g := by
  simp only [groupBy, bind_eq_ok, pure_eq_ok]

theorem query_eq_ok {q : Query} : f.query = .ok q ↔
    ∃ distinct, f.flag "distinct" = .ok distinct ∧
    ∃ columns, f.nodes "select" Node.toResultColumn = .ok columns ∧
    ∃ sources, f.nodes "from" Node.toFromTable = .ok sources ∧
    ∃ condition, f.expr? "where" = .ok condition ∧
    ∃ groupBy, f.node? "groupBy" Node.toGroupBy = .ok groupBy ∧
    ∃ order, f.nodes "order" Node.toOrderBy = .ok order ∧
    ∃ limit, f.node? "limit" Node.toLimit = .ok limit ∧
      ⟨distinct, columns, sources, condition, groupBy, order, limit⟩ = q := by
  simp only [query, bind_eq_ok, pure_eq_ok]

/-! ### Changes of data -/

theorem row_eq_ok {es : List Expr} : row r = .ok es ↔
    ∃ items, r.source = .array items ∧ convert Reading.expr r.items = .ok es := by
  rw [row]
  split
  · next items hsource => exact ⟨fun h => ⟨items, hsource, h⟩, fun ⟨_, _, h⟩ => h⟩
  · next hsource => exact ⟨nofun, fun ⟨items, h, _⟩ => absurd h (hsource items)⟩

/-- Rows are read only if there is no query. -/
theorem insertionSource_eq_ok {source : InsertionSource} : f.insertionSource = .ok source ↔
    (∃ x, f.get? "query" = some x ∧ ∃ q, x.query = .ok q ∧ .query q = source) ∨
    f.get? "query" = none ∧ ∃ items, f.list "values" = .ok items ∧
      ∃ rows, convert row items = .ok rows ∧ .rows rows = source := by
  rw [insertionSource]
  cases f.get? "query" <;> simp [bind_eq_ok, map_eq_ok]

theorem insertion_eq_ok {i : Insertion} : f.insertion = .ok i ↔
    ∃ source, f.insertionSource = .ok source ∧ ∃ schema, f.text? "schema" = .ok schema ∧
    ∃ name, f.text "name" = .ok name ∧ ∃ columns, f.strings "columns" = .ok columns ∧
      Insertion.checkArity ⟨schema, name, columns, source⟩ = .ok () ∧
      ⟨schema, name, columns, source⟩ = i := by
  simp only [insertion, bind_eq_ok, exists_unit, pure_eq_ok]

/-- The members of an assignment are fields of their own. -/
theorem assignment_eq_ok {a : String × Expr} : assignment r = .ok a ↔
    ∃ members, r.source = .object members ∧
    ∃ column, text ⟨.update, r.members⟩ "column" = .ok column ∧
    ∃ e, slot ⟨.update, r.members⟩ "value" = .ok e ∧ (column, e) = a := by
  rw [assignment]
  split
  · next members hsource =>
    simp only [bind_eq_ok, pure_eq_ok, hsource, Json.object.injEq, exists_eq_left']
  · next hsource => exact ⟨nofun, fun ⟨members, h, _⟩ => absurd h (hsource members)⟩

theorem update_eq_ok {u : Update} : f.update = .ok u ↔
    ∃ items, f.list "set" = .ok items ∧ ∃ assignments, convert assignment items = .ok assignments ∧
    ∃ schema, f.text? "schema" = .ok schema ∧ ∃ name, f.text "name" = .ok name ∧
    ∃ condition, f.expr? "where" = .ok condition ∧
      ⟨schema, name, assignments, condition⟩ = u := by
  simp only [update, bind_eq_ok, pure_eq_ok]

theorem deletion_eq_ok {x : Deletion} : f.deletion = .ok x ↔
    ∃ database, f.text? "database" = .ok database ∧ ∃ name, f.text "name" = .ok name ∧
    ∃ condition, f.expr? "where" = .ok condition ∧ ⟨database, name, condition⟩ = x := by
  simp only [deletion, bind_eq_ok, pure_eq_ok]

/-! ### Definitions -/

/-- A primary key is not null and has no default, whatever its fields are. -/
theorem columnDef_eq_ok {c : ColumnDef} : f.columnDef = .ok c ↔
    ∃ name, f.text "name" = .ok name ∧ ∃ typeName, f.text "type" = .ok typeName ∧
    ∃ length, f.natural? "length" = .ok length ∧ ∃ notNull, f.flag "notNull" = .ok notNull ∧
    ∃ autoIncrement, f.flag "autoIncrement" = .ok autoIncrement ∧
    ∃ options, f.strings "options" = .ok options ∧
    ∃ primaryKey, f.flag "primaryKey" = .ok primaryKey ∧
      { name, typeName, length, primaryKey, autoIncrement, options
        defaultValue := if primaryKey then .null else f.raw "defaultValue"
        notNull := primaryKey || notNull } = c := by
  simp only [columnDef, bind_eq_ok, pure_eq_ok]

theorem primaryKey_eq_ok {k : PrimaryKey} : f.primaryKey = .ok k ↔
    ∃ name, f.text? "name" = .ok name ∧ ∃ columns, f.strings "columns" = .ok columns ∧
      ⟨name, columns⟩ = k := by
  simp only [primaryKey, bind_eq_ok, pure_eq_ok]

theorem createTable_eq_ok {t : CreateTable} : f.createTable = .ok t ↔
    ∃ columns, f.nodes "columns" Node.toColumnDef = .ok columns ∧
    ∃ constraints, f.nodes "constraints" Node.toPrimaryKey = .ok constraints ∧
    ∃ query, f.node? "query" Node.toQuery = .ok query ∧
    ∃ schema, f.text? "schema" = .ok schema ∧ ∃ name, f.text "name" = .ok name ∧
    ∃ ifNotExists, f.flag "ifNotExists" = .ok ifNotExists ∧
      CreateTable.checkDefinitions
        { schema, name, ifNotExists, columns, constraints, query } = .ok () ∧
      { schema, name, ifNotExists, columns, constraints, query } = t := by
  simp only [createTable, bind_eq_ok, exists_unit, pure_eq_ok]

end Fields

end SqlTree
