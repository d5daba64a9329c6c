import Mathlib.Logic.Basic
import SqlTree.Node.Sql
import SqlTree.Proofs.Node.Completeness

/-!
# How the text of a node is laid out

The text of a node is made of fixed texts, identifiers, words and the texts of its parts. What comes
in which order is its layout, so that the text of a node is put together from its layout, and what
is said about every layout can be said about the whole text by going to the parts.

## Main definitions

* `Piece`: a part of a text that is not the text of a node.
* `Node.layout`: the pieces and the parts of a node in the order in which they are written.
* `Node.requiredNames`, `Node.optionalNames`, `Node.words`: the names in a node.

## Main results

* `Node.sql_layout`: the text of a node that keeps its rules is put together from its layout.
* `Node.mem_layout`: a layout has all names of a node and all of its parts, except for the columns
  of a table that is fetched from elsewhere.
-/

namespace SqlTree

/-- A part of a text that is not the text of a node. -/
inductive Piece where
  /-- A fixed text, a literal or a text that is taken as it is. -/
  | text (text : String)
  /-- A name that is written between back-ticks. -/
  | identifier (name : String)
  /-- A name that is written as it is. -/
  | word (name : String)

/-- The text of a piece. -/
def Piece.sql : Piece → String
  | text s => s
  | identifier name => quoted name
  | word name => name

/-- Pieces and nodes in the order in which they are written. -/
abbrev Layout := List (Piece ⊕ Node)

namespace Layout

/-- The text of a layout. -/
def sql : Layout → String
  | [] => ""
  | .inl piece :: rest => piece.sql ++ sql rest
  | .inr node :: rest => node.sql ++ sql rest

/-- A text. -/
def fixed (text : String) : Layout := [.inl (.text text)]

/-- An identifier. -/
def identifier (name : String) : Layout := [.inl (.identifier name)]

/-- A name without back-ticks. -/
def word (name : String) : Layout := [.inl (.word name)]

/-- A node. -/
def part (node : Node) : Layout := [.inr node]

/-- An identifier after the identifier that it belongs to, if there is one. -/
def owned : Option String → String → Layout
  | some owner, name => identifier owner ++ (fixed "." ++ identifier name)
  | none, name => identifier name

/-- An optional layout after a text, or nothing. -/
def optional (lead : String) : Option Layout → Layout
  | none => []
  | some l => fixed lead ++ l

/-- Layouts one after another with a text between them. -/
def separated (separator : String) : List Layout → Layout
  | [] => []
  | [l] => l
  | l :: rest => l ++ (fixed separator ++ separated separator rest)

/-- Layouts after a text, with a comma between them, or nothing if there are none. -/
def listed (lead : String) : List Layout → Layout
  | [] => []
  | l :: rest => fixed lead ++ separated ", " (l :: rest)

/-- A layout between an opening text and a closing parenthesis. -/
def enclosed (opening : String) (l : Layout) : Layout := fixed opening ++ (l ++ fixed ")")

end Layout

open Layout

/-- Expressions, each as a part. -/
def exprParts (es : List Expr) : List Layout := es.map fun e => part (.expr e)

/-- The layout of a query. -/
def Query.layout (q : Query) : Layout :=
  fixed ("SELECT " ++ if q.distinct then "DISTINCT " else "")
    ++ ((if q.columns.isEmpty then fixed "*"
      else separated ", " (q.columns.map fun c => part (.resultColumn c)))
    ++ (listed " FROM " (q.sources.map fun s => part (.fromTable s))
    ++ (optional " WHERE " (q.condition.map fun e => part (.expr e))
    ++ (optional " " (q.groupBy.map fun g => part (.groupBy g))
    ++ (listed " ORDER BY " (q.order.map fun o => part (.orderBy o))
    ++ optional " " (q.limit.map fun l => part (.limit l)))))))

/-- The layout of an expression. What is written on the right of `IS` is the value null. -/
def Expr.layout : Expr → Layout
  | .unknown => fixed placeholder
  | .value v => fixed (literal v)
  | .column table name => owned table name
  | .userVariable name => fixed "@" ++ word name
  | .binary operator left right negated =>
    part (.expr left) ++ (fixed (if operator = "IS" then " IS " ++ negation negated
      else " " ++ negation negated ++ operator ++ " ") ++ part (.expr right))
  | .between left start stop negated =>
    part (.expr left) ++ (fixed (" " ++ negation negated ++ "BETWEEN ") ++
      (part (.expr start) ++ (fixed " AND " ++ part (.expr stop))))
  | .oneOf left right negated =>
    part (.expr left) ++ (fixed (" " ++ negation negated ++ "IN ") ++ part (.expr right))
  | .nullTest left negated =>
    part (.expr left) ++ fixed (" IS " ++ negation negated ++ "NULL")
  | .existence q negated => fixed (negation negated ++ "EXISTS (") ++ (part q.node ++ fixed ")")
  | .caseOf subject arms otherwise =>
    fixed "CASE " ++ ((subject.elim [] fun e => part (.expr e) ++ fixed " ")
      ++ ((arms.flatMap fun arm => fixed "WHEN " ++ (part (.expr arm.condition) ++
        (fixed " THEN " ++ (part (.expr arm.result) ++ fixed " "))))
      ++ ((otherwise.elim [] fun e => fixed "ELSE " ++ (part (.expr e) ++ fixed " "))
      ++ fixed "END")))
  | .function name parameters distinct =>
    word name ++ (fixed ("(" ++ if distinct then "DISTINCT " else "") ++
      (separated ", " (exprParts parameters) ++ fixed ")"))
  | .math operator operands => enclosed "(" (separated (" " ++ operator ++ " ") (exprParts operands))
  | .group operator items => enclosed "(" (separated (" " ++ operator.text ++ " ") (exprParts items))
  | .query q => enclosed "(" q.layout

/-- The layout of a table. -/
def Table.layout : Table → Layout
  | .schema t =>
    (match t.function with
      | some function => word function ++ enclosed "(" (owned t.schema t.table)
      | none => owned t.schema t.table)
    ++ optional " " (t.label.map identifier)
  | .query q label => fixed "(" ++ (part q.node ++ (fixed ") " ++ identifier label))
  | .remote config _ label => fixed ("FETCH(" ++ config.text ++ ") ") ++ identifier label

/-- The layout of a join. -/
def JoinClause.layout (j : JoinClause) : Layout :=
  fixed (j.operator.text ++ " JOIN ") ++ (part (.table j.table) ++
    match j.condition with
    | none => []
    | some (.group operator items) => fixed " ON " ++ part (.expr (.group operator items))
    | some e => fixed " ON (" ++ (part (.expr e) ++ fixed ")"))

/-- The layout of a primary key. -/
def PrimaryKey.layout (k : PrimaryKey) : Layout :=
  let columns := separated ", " (k.columns.map identifier)
  match k.name with
  | some name => fixed "CONSTRAINT " ++ (identifier name ++ enclosed " PRIMARY KEY (" columns)
  | none => enclosed "PRIMARY KEY (" columns

/-- The layout of the definition of a column. -/
def ColumnDef.layout (c : ColumnDef) : Layout :=
  identifier c.name ++ fixed (" " ++ c.typeName
    ++ (match c.length with
      | some n => "(" ++ toString n.toNat ++ ")"
      | none => "")
    ++ (if c.primaryKey then " PRIMARY KEY" else "")
    ++ (if c.notNull then " NOT NULL" else " DEFAULT " ++ c.defaultValue.text)
    ++ (if c.autoIncrement then " AUTO_INCREMENT" else "")
    ++ String.join (c.options.map (" " ++ ·)))

/-- The layout of the rows or the query that an insertion takes its rows from. -/
def InsertionSource.layout : InsertionSource → Layout
  | .rows rs =>
    fixed " VALUES " ++ separated ", " (rs.map fun row => enclosed "(" (separated ", " (exprParts row)))
  | .query q => fixed " " ++ part q.node

/-- The layout of the creation of a table. -/
def CreateTable.layout (t : CreateTable) : Layout :=
  fixed ("CREATE TABLE " ++ if t.ifNotExists then "IF NOT EXISTS " else "")
    ++ (owned t.schema t.name
    ++ ((if t.columns.isEmpty && t.constraints.isEmpty then []
      else enclosed " (" (separated ", " (t.columns.map fun c => part (.columnDef c))
        ++ t.constraints.flatMap fun k =>
          (if t.columns.isEmpty then [] else fixed ", ") ++ part (.primaryKey k)))
    ++ optional " AS " (t.query.map fun q => part q.node)))

/-- The layout of a statement. -/
def Statement.layout : Statement → Layout
  | .query q => q.layout
  | .insertion i =>
    fixed "INSERT INTO " ++ (owned i.schema i.name
      ++ ((if i.columns.isEmpty then []
        else enclosed " (" (separated ", " (i.columns.map identifier)))
      ++ i.source.layout))
  | .update u =>
    fixed "UPDATE " ++ (owned u.schema u.name ++ (fixed " SET "
      ++ (separated ", " (u.assignments.map fun a =>
        identifier a.1 ++ (fixed " = " ++ part (.expr a.2)))
      ++ optional " WHERE " (u.condition.map fun e => part (.expr e)))))
  | .deletion d =>
    fixed "DELETE FROM " ++ (owned d.database d.name
      ++ optional " WHERE " (d.condition.map fun e => part (.expr e)))
  | .createTable t => t.layout
  | .createSchema s =>
    fixed ("CREATE SCHEMA " ++ if s.ifNotExists then "IF NOT EXISTS " else "") ++ identifier s.name
  | .dropTable t =>
    fixed ("DROP TABLE " ++ if t.ifExists then "IF EXISTS " else "") ++ owned t.schema t.name
  | .dropSchema s =>
    fixed ("DROP SCHEMA " ++ if s.ifExists then "IF EXISTS " else "") ++ identifier s.name

/-- The layout of a node. -/
def Node.layout : Node → Layout
  | expr e => e.layout
  | table t => t.layout
  | fromTable f => separated " " (part (.table f.table) :: f.joins.map fun j => part (.joinClause j))
  | joinClause j => j.layout
  | columnDef c => c.layout
  | primaryKey k => k.layout
  | resultColumn c => part (.expr c.expression) ++ optional " AS " (c.label.map identifier)
  | orderBy o => part (.expr o.expression) ++ fixed (" " ++ o.direction.text)
  | groupBy g =>
    fixed "GROUP BY " ++ (separated ", " (exprParts g.expressions)
      ++ optional " HAVING " (g.having.map fun e => part (.expr e)))
  | limit l => fixed l.sql
  | statement s => s.layout

/-! ### The text of a layout -/

namespace Layout

@[simp] theorem sql_nil : sql [] = "" := rfl

@[simp] theorem sql_append (l m : Layout) : sql (l ++ m) = sql l ++ sql m := by
  induction l with
  | nil => simp
  | cons chunk rest ih => cases chunk <;> simp [sql, ih, String.append_assoc]

@[simp] theorem sql_fixed (text : String) : sql (fixed text) = text := by
  simp [sql, fixed, Piece.sql]

@[simp] theorem sql_identifier (name : String) : sql (identifier name) = quoted name := by
  simp [sql, identifier, Piece.sql]

@[simp] theorem sql_word (name : String) : sql (word name) = name := by
  simp [sql, word, Piece.sql]

@[simp] theorem sql_part (node : Node) : sql (part node) = node.sql := by
  simp [sql, part]

@[simp] theorem sql_owned (owner : Option String) (name : String) :
    sql (owned owner name) = qualified owner name := by
  cases owner <;> simp [owned, qualified, String.append_assoc]

@[simp] theorem sql_optional (lead : String) (o : Option Layout) :
    sql (optional lead o) = after lead (o.map sql) := by
  cases o <;> simp [optional, after]

@[simp] theorem sql_separated (separator : String) (ls : List Layout) :
    sql (separated separator ls) = joined separator (ls.map sql) := by
  induction ls with
  | nil => rfl
  | cons l rest ih =>
    cases rest with
    | nil => rfl
    | cons l' rest => simp [separated, joined, ih, String.append_assoc] at ih ⊢

theorem sql_listed (lead : String) (ls : List Layout) :
    sql (listed lead ls) = if ls.isEmpty then "" else lead ++ joined ", " (ls.map sql) := by
  cases ls with
  | nil => rfl
  | cons l rest => simp [listed]

@[simp] theorem sql_enclosed (opening : String) (l : Layout) :
    sql (enclosed opening l) = opening ++ sql l ++ ")" := by
  simp [enclosed, String.append_assoc]

@[simp] theorem sql_flatMap {α : Type} (items : List α) (f : α → Layout) :
    sql (items.flatMap f) = String.join (items.map fun a => sql (f a)) := by
  induction items with
  | nil => simp
  | cons a rest ih => simp [ih]

end Layout

/-! ### The text of a node -/

theorem sqls_eq_map (es : List Expr) : sqls es = es.map Expr.sql := by
  induction es with
  | nil => rfl
  | cons e rest ih => rw [sqls, ih, List.map_cons]

theorem armTexts_eq_map (arms : List CaseArm) : armTexts arms = arms.map CaseArm.sql := by
  induction arms with
  | nil => rfl
  | cons arm rest ih => rw [armTexts, ih, List.map_cons]

theorem joinTexts_eq_map (joins : List JoinClause) :
    joinTexts joins = joins.map JoinClause.sql := by
  induction joins with
  | nil => rfl
  | cons join rest ih => rw [joinTexts, ih, List.map_cons]

theorem sourceTexts_eq_map (sources : List FromTable) :
    sourceTexts sources = sources.map FromTable.sql := by
  induction sources with
  | nil => rfl
  | cons source rest ih => rw [sourceTexts, ih, List.map_cons]

theorem columnTexts_eq_map (columns : List ResultColumn) :
    columnTexts columns = columns.map ResultColumn.sql := by
  induction columns with
  | nil => rfl
  | cons column rest ih => rw [columnTexts, ih, List.map_cons]

theorem orderTexts_eq_map (order : List OrderBy) : orderTexts order = order.map OrderBy.sql := by
  induction order with
  | nil => rfl
  | cons term rest ih => rw [orderTexts, ih, List.map_cons]

theorem sql?_eq_map (e : Option Expr) : sql? e = e.map Expr.sql := by
  cases e <;> rfl

theorem groupText?_eq_map (g : Option GroupBy) : groupText? g = g.map GroupBy.sql := by
  cases g <;> rfl

theorem map_sql_exprParts (es : List Expr) : (exprParts es).map Layout.sql = sqls es := by
  rw [sqls_eq_map, exprParts, List.map_map]
  exact List.map_congr_left fun e _ => sql_part (.expr e)

/-- The text of a query is put together from its layout. -/
theorem Query.sql_layout (q : Query) : q.layout.sql = q.sql := by
  obtain ⟨distinct, columns, sources, condition, groupBy, order, limit⟩ := q
  simp [Query.layout, Query.sql, sql_listed, apply_ite Layout.sql, columnTexts_eq_map,
    sourceTexts_eq_map, orderTexts_eq_map, sql?_eq_map, groupText?_eq_map, Function.comp_def,
    Node.sql, String.append_assoc]

theorem CaseArm.sql_eq : CaseArm.sql = fun arm =>
    "WHEN " ++ (arm.condition.sql ++ (" THEN " ++ (arm.result.sql ++ " "))) := by
  funext ⟨condition, result⟩
  simp [CaseArm.sql, String.append_assoc]

/-- The text of an expression that keeps its rules is put together from its layout. -/
theorem Expr.sql_layout {e : Expr} (h : e.KeepsRules) : e.layout.sql = e.sql := by
  cases e with
  | unknown => simp [Expr.layout, Expr.sql]
  | value v => simp [Expr.layout, Expr.sql]
  | column table name => simp [Expr.layout, Expr.sql]
  | userVariable name => simp [Expr.layout, Expr.sql]
  | binary operator left right negated =>
    by_cases his : operator = "IS"
    · obtain rfl := h.nullOnRight his
      simp [Expr.layout, Expr.sql, Node.sql, literal, his, String.append_assoc]
    · simp [Expr.layout, Expr.sql, Node.sql, his, String.append_assoc]
  | between left start stop negated =>
    simp [Expr.layout, Expr.sql, Node.sql, String.append_assoc]
  | oneOf left right negated => simp [Expr.layout, Expr.sql, Node.sql, String.append_assoc]
  | nullTest left negated => simp [Expr.layout, Expr.sql, Node.sql, String.append_assoc]
  | existence q negated =>
    simp [Expr.layout, Expr.sql, Node.sql, Query.node, Statement.sql, String.append_assoc]
  | caseOf subject arms otherwise =>
    cases subject <;> cases otherwise <;>
      simp [Expr.layout, Expr.sql, Node.sql, sql?, armTexts_eq_map, CaseArm.sql_eq,
        String.append_assoc]
  | function name parameters distinct =>
    simp [Expr.layout, Expr.sql, map_sql_exprParts, String.append_assoc]
  | math operator operands => simp [Expr.layout, Expr.sql, map_sql_exprParts]
  | group operator items => simp [Expr.layout, Expr.sql, map_sql_exprParts]
  | query q => simp [Expr.layout, Expr.sql, Query.sql_layout]

theorem Table.sql_layout (t : Table) : t.layout.sql = t.sql := by
  cases t with
  | schema t =>
    obtain ⟨schema, table, function, label⟩ := t
    cases function <;> cases label <;>
      simp [Table.layout, Table.sql, SchemaTable.sql, after, String.append_assoc]
  | query q label =>
    simp [Table.layout, Table.sql, Node.sql, Query.node, Statement.sql, String.append_assoc]
  | remote config columns label => simp [Table.layout, Table.sql, String.append_assoc]

theorem JoinClause.sql_layout (j : JoinClause) : j.layout.sql = j.sql := by
  obtain ⟨operator, table, condition⟩ := j
  cases condition with
  | none => simp [JoinClause.layout, JoinClause.sql, Node.sql, sql?, String.append_assoc]
  | some e =>
    cases e <;>
      simp [JoinClause.layout, JoinClause.sql, Node.sql, sql?, String.append_assoc]

theorem PrimaryKey.sql_layout (k : PrimaryKey) : k.layout.sql = k.sql := by
  obtain ⟨name, columns⟩ := k
  cases name <;>
    simp [PrimaryKey.layout, PrimaryKey.sql, Function.comp_def, String.append_assoc]

theorem CreateTable.sql_layout (t : CreateTable) : t.layout.sql = t.sql := by
  simp [CreateTable.layout, CreateTable.sql, apply_ite Layout.sql, Function.comp_def, Node.sql,
    Query.node, Statement.sql, String.append_assoc]

theorem Statement.sql_layout (s : Statement) : s.layout.sql = s.sql := by
  cases s with
  | query q => exact q.sql_layout
  | insertion i =>
    obtain ⟨schema, name, columns, rows | q⟩ := i
    · simp [Statement.layout, Statement.sql, Insertion.sql, InsertionSource.layout,
        apply_ite Layout.sql, map_sql_exprParts, Function.comp_def, String.append_assoc]
    · simp [Statement.layout, Statement.sql, Insertion.sql, InsertionSource.layout,
        apply_ite Layout.sql, Node.sql, Query.node, Function.comp_def, String.append_assoc]
  | update u =>
    simp [Statement.layout, Statement.sql, Update.sql, Node.sql, sql?_eq_map, Function.comp_def,
      String.append_assoc]
  | deletion d =>
    simp [Statement.layout, Statement.sql, Deletion.sql, Node.sql, sql?_eq_map, Function.comp_def,
      String.append_assoc]
  | createTable t => exact t.sql_layout
  | createSchema s => simp [Statement.layout, Statement.sql, CreateSchema.sql]
  | dropTable t => simp [Statement.layout, Statement.sql, DropTable.sql]
  | dropSchema s => simp [Statement.layout, Statement.sql, DropSchema.sql]

/-- The text of a node that keeps its rules is put together from its layout. -/
theorem Node.sql_layout {n : Node} (h : n.KeepsRules) : n.layout.sql = n.sql := by
  cases n with
  | expr e => exact Expr.sql_layout h
  | table t => exact t.sql_layout
  | fromTable f =>
    obtain ⟨table, joins⟩ := f
    simp [Node.layout, Node.sql, FromTable.sql, joinTexts_eq_map, Function.comp_def]
  | joinClause j => exact j.sql_layout
  | columnDef c =>
    cases hlength : c.length <;>
      simp [Node.layout, Node.sql, ColumnDef.layout, ColumnDef.sql, hlength, String.append_assoc]
  | primaryKey k => exact k.sql_layout
  | resultColumn c =>
    obtain ⟨e, label⟩ := c
    simp [Node.layout, Node.sql, ResultColumn.sql, Function.comp_def]
  | orderBy o =>
    obtain ⟨e, direction⟩ := o
    simp [Node.layout, Node.sql, OrderBy.sql, String.append_assoc]
  | groupBy g =>
    obtain ⟨es, having⟩ := g
    simp [Node.layout, Node.sql, GroupBy.sql, map_sql_exprParts, sql?_eq_map, Function.comp_def,
      String.append_assoc]
  | limit l => simp [Node.layout, Node.sql]
  | statement s => exact s.sql_layout

/-! ### Names and parts in a layout -/

namespace Node

/-- The names in a node that its check asks not to be empty. -/
def requiredNames : Node → List String
  | expr (.column _ name) => [name]
  | table (.schema t) => [t.table]
  | table (.query _ label) => [label]
  | table (.remote _ _ label) => [label]
  | columnDef c => [c.name]
  | statement (.insertion i) => [i.name]
  | statement (.update u) => u.name :: u.assignments.map Prod.fst
  | statement (.deletion d) => [d.name]
  | statement (.createTable t) => [t.name]
  | statement (.createSchema s) => [s.name]
  | statement (.dropTable t) => [t.name]
  | statement (.dropSchema s) => [s.name]
  | _ => []

/-- The names in a node that may be left out, and those in lists of columns: schemas, the tables of
columns, labels and the columns of insertions and primary keys. -/
def optionalNames : Node → List String
  | expr (.column owner _) => owner.toList
  | table (.schema t) => t.schema.toList ++ t.label.toList
  | primaryKey k => k.name.toList ++ k.columns
  | resultColumn c => c.label.toList
  | statement (.insertion i) => i.schema.toList ++ i.columns
  | statement (.update u) => u.schema.toList
  | statement (.deletion d) => d.database.toList
  | statement (.createTable t) => t.schema.toList
  | statement (.dropTable t) => t.schema.toList
  | _ => []

/-- The names of variables and functions in a node. -/
def words : Node → List String
  | expr (.userVariable name) => [name]
  | expr (.function name _ _) => [name]
  | table (.schema t) => t.function.toList
  | _ => []

/-- The parts of a node that are written: all of them, but not the columns of a table that is
fetched from elsewhere. -/
def writtenParts : Node → List Node
  | table (.remote ..) => []
  | n => n.parts

/-- The names of a node and its written parts. -/
def contents (n : Node) : Layout :=
  (n.requiredNames ++ n.optionalNames).map (fun name => .inl (.identifier name)) ++
    n.words.map (fun name => .inl (.word name)) ++ n.writtenParts.map .inr

end Node

namespace Layout

variable {c : Piece ⊕ Node} (hc : ∀ text, c ≠ .inl (.text text))

include hc

theorem not_mem_fixed (text : String) : c ∉ fixed text := fun h => hc text (List.mem_singleton.mp h)

theorem mem_separated {separator : String} {ls : List Layout} :
    c ∈ separated separator ls ↔ ∃ l ∈ ls, c ∈ l := by
  induction ls with
  | nil => simp [separated]
  | cons l rest ih =>
    cases rest with
    | nil => simp [separated]
    | cons l' rest =>
      have hcons : separated separator (l :: l' :: rest) =
          l ++ (fixed separator ++ separated separator (l' :: rest)) := rfl
      rw [hcons, List.mem_append, List.mem_append, ih]
      simp [not_mem_fixed hc]

theorem mem_separated_map {α : Type} {separator : String} {items : List α} {f : α → Layout} :
    c ∈ separated separator (items.map f) ↔ ∃ a ∈ items, c ∈ f a := by
  rw [mem_separated hc, ← List.mem_flatten, ← List.flatMap_def, List.mem_flatMap]

theorem mem_listed_map {α : Type} {lead : String} {items : List α} {f : α → Layout} :
    c ∈ listed lead (items.map f) ↔ ∃ a ∈ items, c ∈ f a := by
  cases items with
  | nil => simp [listed]
  | cons a rest =>
    rw [List.map_cons, listed, List.mem_append, ← List.map_cons, mem_separated_map hc]
    simp [not_mem_fixed hc]

theorem mem_enclosed {opening : String} {l : Layout} : c ∈ enclosed opening l ↔ c ∈ l := by
  simp [enclosed, not_mem_fixed hc]

theorem mem_optional_map {α : Type} {lead : String} {o : Option α} {f : α → Layout} :
    c ∈ optional lead (o.map f) ↔ ∃ a ∈ o, c ∈ f a := by
  cases o <;> simp [optional, not_mem_fixed hc]

theorem mem_owned {owner : Option String} {name : String} :
    c ∈ owned owner name ↔ c = .inl (.identifier name) ∨
      ∃ s ∈ owner, c = .inl (.identifier s) := by
  cases owner <;> simp [owned, identifier, not_mem_fixed hc, or_comm]

end Layout

section

variable {c : Piece ⊕ Node} (hc : ∀ text, c ≠ .inl (.text text))

include hc

omit hc in
/-- Parts that stand in a list. -/
theorem mem_map_parts {α : Type} {wrap : α → Node} {items : List α} :
    c ∈ (items.map wrap).map (Sum.inr (α := Piece)) ↔ ∃ a ∈ items, c ∈ part (wrap a) := by
  simp [part, eq_comm]

omit hc in
/-- A part that may be left out. -/
theorem mem_map_part? {α : Type} {wrap : α → Node} {o : Option α} :
    c ∈ ((o.map wrap).toList).map (Sum.inr (α := Piece)) ↔ ∃ a ∈ o, c ∈ part (wrap a) := by
  cases o <;> simp [part]

theorem Query.mem_layout (q : Query) : c ∈ q.layout ↔ c ∈ q.parts.map .inr := by
  obtain ⟨distinct, columns, sources, condition, groupBy, order, limit⟩ := q
  have hcolumns : (c ∈ if columns.isEmpty = true then fixed "*"
      else separated ", " (columns.map fun r => part (.resultColumn r))) ↔
      ∃ r ∈ columns, c ∈ part (.resultColumn r) := by
    cases columns with
    | nil => simp [not_mem_fixed hc]
    | cons r rest => exact mem_separated_map hc
  simp only [Query.layout, List.mem_append, not_mem_fixed hc, mem_listed_map hc,
    mem_optional_map hc, Query.parts, slotParts, List.map_append, mem_map_parts, mem_map_part?,
    false_or, or_assoc]
  exact or_congr_left hcolumns

theorem Expr.mem_layout (e : Expr) : c ∈ e.layout ↔ c ∈ (Node.expr e).contents := by
  cases e with
  | query q => exact (mem_enclosed hc).trans (q.mem_layout hc)
  | caseOf subject arms otherwise =>
    cases subject <;> cases otherwise <;>
      simp [Expr.layout, Node.contents, Node.requiredNames, Node.optionalNames, Node.words,
        Node.writtenParts, Node.parts, Expr.parts, slotParts, List.map_flatMap, not_mem_fixed hc,
        part]
  | _ =>
    simp [Expr.layout, Node.contents, Node.requiredNames, Node.optionalNames, Node.words,
      Node.writtenParts, Node.parts, Expr.parts, not_mem_fixed hc, mem_owned hc, mem_enclosed hc,
      mem_separated_map hc, part, word, exprParts, @eq_comm _ _ c]

theorem Table.mem_layout (t : Table) : c ∈ t.layout ↔ c ∈ (Node.table t).contents := by
  cases t with
  | schema t =>
    obtain ⟨schema, table, function, label⟩ := t
    cases function <;>
      simp [Table.layout, Node.contents, Node.requiredNames, Node.optionalNames, Node.words,
        Node.writtenParts, Node.parts, Table.parts, mem_owned hc, mem_enclosed hc,
        mem_optional_map hc, word, identifier, @eq_comm _ _ c, or_assoc, or_comm, or_left_comm]
  | _ =>
    simp [Table.layout, Node.contents, Node.requiredNames, Node.optionalNames, Node.words,
      Node.writtenParts, Node.parts, Table.parts, not_mem_fixed hc, identifier, part, or_comm]

theorem Insertion.mem_layout (i : Insertion) :
    c ∈ (Statement.insertion i).layout ↔ c ∈ (Node.statement (.insertion i)).contents := by
  obtain ⟨schema, name, columns, source⟩ := i
  have hcolumns : (c ∈ if columns.isEmpty = true then []
      else enclosed " (" (separated ", " (columns.map identifier))) ↔
      ∃ s ∈ columns, c = .inl (.identifier s) := by
    cases columns with
    | nil => simp
    | cons s rest =>
      refine (mem_enclosed hc).trans ((mem_separated_map hc).trans ?_)
      simp [identifier]
  have hsource : c ∈ source.layout ↔ c ∈ source.parts.map .inr := by
    cases source <;>
      simp [InsertionSource.layout, InsertionSource.parts, not_mem_fixed hc, mem_enclosed hc,
        mem_separated_map hc, exprParts, part, @eq_comm _ _ c]
  simp only [Statement.layout, List.mem_append, not_mem_fixed hc, mem_owned hc, hcolumns, hsource]
  simp [Node.contents, Node.requiredNames, Node.optionalNames, Node.words, Node.writtenParts,
    Node.parts, Statement.parts, @eq_comm _ _ c, or_assoc]

theorem CreateTable.mem_layout (t : CreateTable) :
    c ∈ t.layout ↔ c ∈ (Node.statement (.createTable t)).contents := by
  obtain ⟨schema, name, ifNotExists, columns, constraints, query⟩ := t
  have hconstraints : (c ∈ constraints.flatMap fun k =>
      (if columns.isEmpty = true then [] else fixed ", ") ++ part (.primaryKey k)) ↔
      ∃ k ∈ constraints, c ∈ part (.primaryKey k) := by
    cases columns <;> simp [not_mem_fixed hc]
  have hdefinitions : (c ∈ if (columns.isEmpty && constraints.isEmpty) = true then []
      else enclosed " (" (separated ", " (columns.map fun d => part (.columnDef d))
        ++ constraints.flatMap fun k =>
          (if columns.isEmpty = true then [] else fixed ", ") ++ part (.primaryKey k))) ↔
      (∃ d ∈ columns, c ∈ part (.columnDef d)) ∨ ∃ k ∈ constraints, c ∈ part (.primaryKey k) := by
    split
    · next h => simp_all
    · rw [mem_enclosed hc, List.mem_append, mem_separated_map hc, hconstraints]
  simp only [CreateTable.layout, List.mem_append, not_mem_fixed hc, mem_owned hc, hdefinitions,
    mem_optional_map hc]
  simp [Node.contents, Node.requiredNames, Node.optionalNames, Node.words, Node.writtenParts,
    Node.parts, Statement.parts, part, @eq_comm _ _ c, or_assoc]

theorem Statement.mem_layout (s : Statement) :
    c ∈ s.layout ↔ c ∈ (Node.statement s).contents := by
  cases s with
  | query q => exact q.mem_layout hc
  | insertion i => exact i.mem_layout hc
  | createTable t => exact t.mem_layout hc
  | _ =>
    simp [Statement.layout, Node.contents, Node.requiredNames, Node.optionalNames, Node.words,
      Node.writtenParts, Node.parts, Statement.parts, slotParts, not_mem_fixed hc, mem_owned hc,
      mem_separated_map hc, mem_optional_map hc, identifier, part, @eq_comm _ _ c, and_or_left,
      exists_or, or_assoc, or_comm, or_left_comm]

/-- A layout has all names of a node and its written parts, and nothing else but texts. -/
theorem Node.mem_layout (n : Node) : c ∈ n.layout ↔ c ∈ n.contents := by
  cases n with
  | expr e => exact e.mem_layout hc
  | table t => exact t.mem_layout hc
  | statement s => exact s.mem_layout hc
  | joinClause j =>
    obtain ⟨operator, table, condition⟩ := j
    have hcondition : (c ∈ match condition with
        | none => []
        | some (.group operator items) => fixed " ON " ++ part (.expr (.group operator items))
        | some e => fixed " ON (" ++ (part (.expr e) ++ fixed ")")) ↔
        ∃ e ∈ condition, c ∈ part (.expr e) := by
      split <;> simp [not_mem_fixed hc]
    simp only [Node.layout, JoinClause.layout, List.mem_append, not_mem_fixed hc, hcondition]
    simp [Node.contents, Node.requiredNames, Node.optionalNames, Node.words, Node.writtenParts,
      Node.parts, slotParts, part, @eq_comm _ _ c]
  | primaryKey k =>
    obtain ⟨name, columns⟩ := k
    cases name <;>
      simp [Node.layout, Node.contents, Node.requiredNames, Node.optionalNames, Node.words,
        Node.writtenParts, Node.parts, PrimaryKey.layout, not_mem_fixed hc, mem_enclosed hc,
        mem_separated_map hc, identifier, @eq_comm _ _ c]
  | _ =>
    simp [Node.layout, Node.contents, Node.requiredNames, Node.optionalNames, Node.words,
      Node.writtenParts, Node.parts, ColumnDef.layout, slotParts, not_mem_fixed hc,
      mem_separated hc, mem_optional_map hc, exprParts, identifier, part, @eq_comm _ _ c, or_comm]

end

end SqlTree
