import SqlTree.Node.Basic

/-!
# Parts of nodes

The parts of a node are the nodes directly below it, in the order of the tree. A query used as an
expression is the same node as the query, so its parts are those of the query; a query inside of an
`EXISTS`, a table or a statement is a part of its own. Parts are smaller than their node, so what a
node has whenever its parts have it, every node has.

## Main definitions

* `Node.parts`: the nodes directly below a node.
* `Node.Occurs`: a node stands somewhere in another, at whatever depth.
* `Node.Throughout`: a node has a property, and so does everything in it.

## Main results

* `Node.sizeOf_lt_of_mem_parts`: parts are smaller.
* `Node.parts_induction`: induction on the parts of nodes.
-/

namespace SqlTree

/-- An expression that may be left out, as a list of parts. -/
def slotParts (e : Option Expr) : List Node := (e.map .expr).toList

/-- The parts of a query. -/
def Query.parts (q : Query) : List Node :=
  q.columns.map .resultColumn ++ q.sources.map .fromTable ++ slotParts q.condition ++
    (q.groupBy.map .groupBy).toList ++ q.order.map .orderBy ++ (q.limit.map .limit).toList

/-- A query that is not itself the node that it stands in. -/
def Query.node (q : Query) : Node := .statement (.query q)

/-- The parts of an expression. -/
def Expr.parts : Expr → List Node
  | .unknown => []
  | .value _ => []
  | .column .. => []
  | .userVariable _ => []
  | .binary _ left right _ => [.expr left, .expr right]
  | .between left start stop _ => [.expr left, .expr start, .expr stop]
  | .oneOf left right _ => [.expr left, .expr right]
  | .nullTest left _ => [.expr left]
  | .existence q _ => [q.node]
  | .caseOf subject arms otherwise =>
    slotParts subject ++ arms.flatMap (fun arm => [.expr arm.condition, .expr arm.result]) ++
      slotParts otherwise
  | .function _ parameters _ => parameters.map .expr
  | .math _ operands => operands.map .expr
  | .group _ items => items.map .expr
  | .query q => q.parts

/-- The parts of a table. -/
def Table.parts : Table → List Node
  | .schema _ => []
  | .query q _ => [q.node]
  | .remote _ columns _ => columns.map .columnDef

/-- The parts of the source of an insertion. -/
def InsertionSource.parts : InsertionSource → List Node
  | .rows rs => rs.flatten.map .expr
  | .query q => [q.node]

/-- The parts of a statement. -/
def Statement.parts : Statement → List Node
  | .query q => q.parts
  | .insertion i => i.source.parts
  | .update u => u.assignments.map (fun a => .expr a.2) ++ slotParts u.condition
  | .deletion d => slotParts d.condition
  | .createTable t =>
    t.columns.map .columnDef ++ t.constraints.map .primaryKey ++ (t.query.map Query.node).toList
  | .createSchema _ => []
  | .dropTable _ => []
  | .dropSchema _ => []

namespace Node

/-- The nodes directly below a node. -/
def parts : Node → List Node
  | expr e => e.parts
  | table t => t.parts
  | fromTable f => .table f.table :: f.joins.map .joinClause
  | joinClause j => .table j.table :: slotParts j.condition
  | columnDef _ => []
  | primaryKey _ => []
  | resultColumn c => [.expr c.expression]
  | orderBy o => [.expr o.expression]
  | groupBy g => g.expressions.map .expr ++ slotParts g.having
  | limit _ => []
  | statement s => s.parts

/-- A node stands somewhere in another: `n.Occurs m` if `m` is `n` or stands in a part of `n`. -/
inductive Occurs : Node → Node → Prop
  | self (n : Node) : Occurs n n
  | part {n p m : Node} (hp : p ∈ n.parts) (hm : Occurs p m) : Occurs n m

namespace Occurs

variable {n p m : Node}

theorem of_mem_parts (h : m ∈ n.parts) : n.Occurs m := .part h (.self m)

theorem trans (h : n.Occurs p) (hm : p.Occurs m) : n.Occurs m := by
  induction h with
  | self n => exact hm
  | part hp _ ih => exact .part hp (ih hm)

theorem then_part (h : n.Occurs p) (hm : m ∈ p.parts) : n.Occurs m := h.trans (.of_mem_parts hm)

end Occurs

/-- What both of two parts have. -/
theorem forall_mem_pair {P : Node → Prop} {a b : Node} : (∀ p ∈ [a, b], P p) ↔ P a ∧ P b := by
  rw [List.forall_mem_cons, List.forall_mem_singleton]

/-- What a part that may be left out has. -/
theorem forall_mem_option {P : Node → Prop} {α : Type} {wrap : α → Node} {o : Option α} :
    (∀ p ∈ (o.map wrap).toList, P p) ↔ ∀ a ∈ o, P (wrap a) := by
  cases o <;> simp

/-- What an expression that may be left out has. -/
theorem forall_slotParts {P : Node → Prop} {e? : Option Expr} :
    (∀ p ∈ slotParts e?, P p) ↔ ∀ e ∈ e?, P (expr e) :=
  forall_mem_option

variable {P : Node → Prop} {n : Node}

/-- A node has a property, and so does everything in it. -/
def Throughout (P : Node → Prop) (n : Node) : Prop := ∀ m, n.Occurs m → P m

theorem Throughout.here (h : n.Throughout P) : P n := h n (.self n)

theorem Throughout.of_occurs (h : n.Throughout P) {m : Node} (hm : n.Occurs m) : m.Throughout P :=
  fun p hp => h p (hm.trans hp)

theorem Throughout.part (h : n.Throughout P) {p : Node} (hp : p ∈ n.parts) : p.Throughout P :=
  fun m hm => h m (.part hp hm)

theorem throughout_of_parts (here : P n) (parts : ∀ p ∈ n.parts, p.Throughout P) :
    n.Throughout P := by
  intro m hm
  cases hm with
  | self => exact here
  | part hp hm => exact parts _ hp m hm

theorem throughout_of_no_parts (here : P n) (h : n.parts = []) : n.Throughout P := by
  refine throughout_of_parts here ?_
  rw [h]
  exact fun p hp => absurd hp List.not_mem_nil

/-! ### Sizes -/

theorem sizeOf_option {α : Type} [SizeOf α] {wrap : α → Node}
    (hw : ∀ a, sizeOf (wrap a) = 1 + sizeOf a) {o : Option α} {m : Node}
    (h : m ∈ (o.map wrap).toList) : sizeOf m = sizeOf o := by
  cases o with
  | none => exact absurd h List.not_mem_nil
  | some a =>
    obtain rfl := List.mem_singleton.mp h
    exact hw a

theorem sizeOf_list {α : Type} [SizeOf α] {wrap : α → Node}
    (hw : ∀ a, sizeOf (wrap a) = 1 + sizeOf a) {items : List α} {m : Node}
    (h : m ∈ items.map wrap) : sizeOf m ≤ sizeOf items := by
  obtain ⟨a, ha, rfl⟩ := List.mem_map.mp h
  have := List.sizeOf_lt_of_mem ha
  rw [hw]
  omega

theorem sizeOf_pos (s : String) : 0 < sizeOf s := by
  cases s
  simp only [String.ofByteArray.sizeOf_spec]
  omega

theorem sizeOf_slotParts {e : Option Expr} {m : Node} (h : m ∈ slotParts e) :
    sizeOf m = sizeOf e :=
  sizeOf_option (fun _ => rfl) h

theorem sizeOf_query {q : Query} {m : Node} (h : m ∈ q.parts) : sizeOf m < sizeOf q := by
  obtain ⟨distinct, columns, sources, condition, groupBy, order, limit⟩ := q
  simp only [Query.parts, List.mem_append] at h
  simp only [Query.mk.sizeOf_spec]
  obtain ((((h | h) | h) | h) | h) | h := h
  · have := sizeOf_list (fun _ => rfl) h
    omega
  · have := sizeOf_list (fun _ => rfl) h
    omega
  · have := sizeOf_slotParts h
    omega
  · have := sizeOf_option (fun _ => rfl) h
    omega
  · have := sizeOf_list (fun _ => rfl) h
    omega
  · have := sizeOf_option (fun _ => rfl) h
    omega

theorem sizeOf_expr {e : Expr} {m : Node} (h : m ∈ e.parts) : sizeOf m < 1 + sizeOf e := by
  cases e with
  | unknown => exact absurd h List.not_mem_nil
  | value v => exact absurd h List.not_mem_nil
  | column table name => exact absurd h List.not_mem_nil
  | userVariable name => exact absurd h List.not_mem_nil
  | binary operator left right negated =>
    simp only [Expr.parts, List.mem_cons, List.not_mem_nil, or_false] at h
    simp only [Expr.binary.sizeOf_spec]
    rcases h with rfl | rfl
    · rw [expr.sizeOf_spec]
      omega
    · rw [expr.sizeOf_spec]
      omega
  | between left start stop negated =>
    simp only [Expr.parts, List.mem_cons, List.not_mem_nil, or_false] at h
    simp only [Expr.between.sizeOf_spec]
    rcases h with rfl | rfl | rfl
    · rw [expr.sizeOf_spec]
      omega
    · rw [expr.sizeOf_spec]
      omega
    · rw [expr.sizeOf_spec]
      omega
  | oneOf left right negated =>
    simp only [Expr.parts, List.mem_cons, List.not_mem_nil, or_false] at h
    simp only [Expr.oneOf.sizeOf_spec]
    rcases h with rfl | rfl
    · rw [expr.sizeOf_spec]
      omega
    · rw [expr.sizeOf_spec]
      omega
  | nullTest left negated =>
    obtain rfl := List.mem_singleton.mp h
    simp only [Expr.nullTest.sizeOf_spec, expr.sizeOf_spec]
    omega
  | existence q negated =>
    obtain rfl := List.mem_singleton.mp h
    simp only [Query.node, statement.sizeOf_spec, Statement.query.sizeOf_spec,
      Expr.existence.sizeOf_spec, Bool.sizeOf_eq_one]
    omega
  | caseOf subject arms otherwise =>
    simp only [Expr.parts, List.mem_append, List.mem_flatMap] at h
    simp only [Expr.caseOf.sizeOf_spec]
    obtain (h | ⟨arm, harm, h⟩) | h := h
    · have := sizeOf_slotParts h
      omega
    · have := List.sizeOf_lt_of_mem harm
      obtain ⟨condition, result⟩ := arm
      simp only [List.mem_cons, List.not_mem_nil, or_false] at h
      simp only [CaseArm.mk.sizeOf_spec] at this
      rcases h with rfl | rfl
      · rw [expr.sizeOf_spec]
        omega
      · rw [expr.sizeOf_spec]
        omega
    · have := sizeOf_slotParts h
      omega
  | function name parameters distinct =>
    have := sizeOf_list (fun _ => rfl) h
    simp only [Expr.function.sizeOf_spec]
    omega
  | math operator operands =>
    have := sizeOf_list (fun _ => rfl) h
    simp only [Expr.math.sizeOf_spec]
    omega
  | group operator items =>
    have := sizeOf_list (fun _ => rfl) h
    simp only [Expr.group.sizeOf_spec]
    omega
  | query q =>
    have := sizeOf_query h
    simp only [Expr.query.sizeOf_spec]
    omega

theorem sizeOf_table {t : Table} {m : Node} (h : m ∈ t.parts) : sizeOf m < 1 + sizeOf t := by
  cases t with
  | schema t => exact absurd h List.not_mem_nil
  | query q label =>
    obtain rfl := List.mem_singleton.mp h
    have := sizeOf_pos label
    simp only [Query.node, Table.query.sizeOf_spec, statement.sizeOf_spec,
      Statement.query.sizeOf_spec]
    omega
  | remote config columns label =>
    have := sizeOf_list (fun _ => rfl) h
    simp only [Table.remote.sizeOf_spec]
    omega

theorem sizeOf_statement {s : Statement} {m : Node} (h : m ∈ s.parts) :
    sizeOf m < 1 + sizeOf s := by
  cases s with
  | query q =>
    have := sizeOf_query h
    simp only [Statement.query.sizeOf_spec]
    omega
  | insertion i =>
    obtain ⟨schema, name, columns, source⟩ := i
    simp only [Statement.insertion.sizeOf_spec, Insertion.mk.sizeOf_spec]
    cases source with
    | rows rs =>
      obtain ⟨e, he, rfl⟩ := List.mem_map.mp h
      obtain ⟨row, hrow, he⟩ := List.mem_flatten.mp he
      have := List.sizeOf_lt_of_mem hrow
      have := List.sizeOf_lt_of_mem he
      simp only [InsertionSource.rows.sizeOf_spec, expr.sizeOf_spec]
      omega
    | query q =>
      obtain rfl := List.mem_singleton.mp h
      simp only [Query.node, statement.sizeOf_spec, Statement.query.sizeOf_spec,
        InsertionSource.query.sizeOf_spec]
      omega
  | update u =>
    obtain ⟨schema, name, assignments, condition⟩ := u
    simp only [Statement.parts, List.mem_append, List.mem_map] at h
    simp only [Statement.update.sizeOf_spec, Update.mk.sizeOf_spec]
    obtain ⟨a, ha, rfl⟩ | h := h
    · have := List.sizeOf_lt_of_mem ha
      obtain ⟨column, value⟩ := a
      simp only [Prod.mk.sizeOf_spec] at this
      simp only [expr.sizeOf_spec]
      omega
    · have := sizeOf_slotParts h
      omega
  | deletion d =>
    obtain ⟨database, name, condition⟩ := d
    have := sizeOf_slotParts h
    simp only [Statement.deletion.sizeOf_spec, Deletion.mk.sizeOf_spec]
    dsimp only at this
    omega
  | createTable t =>
    obtain ⟨schema, name, ifNotExists, columns, constraints, query⟩ := t
    simp only [Statement.parts, List.mem_append] at h
    simp only [Statement.createTable.sizeOf_spec, CreateTable.mk.sizeOf_spec]
    obtain (h | h) | h := h
    · have := sizeOf_list (fun _ => rfl) h
      omega
    · have := sizeOf_list (fun _ => rfl) h
      omega
    · cases query with
      | none => exact absurd h List.not_mem_nil
      | some q =>
        obtain rfl := List.mem_singleton.mp h
        simp only [Query.node, statement.sizeOf_spec, Statement.query.sizeOf_spec,
          Option.some.sizeOf_spec]
        omega
  | createSchema s => exact absurd h List.not_mem_nil
  | dropTable t => exact absurd h List.not_mem_nil
  | dropSchema s => exact absurd h List.not_mem_nil

/-- The parts of a node are smaller than the node. -/
theorem sizeOf_lt_of_mem_parts {n m : Node} (h : m ∈ n.parts) : sizeOf m < sizeOf n := by
  cases n with
  | expr e =>
    simp only [expr.sizeOf_spec]
    exact sizeOf_expr h
  | table t =>
    simp only [table.sizeOf_spec]
    exact sizeOf_table h
  | fromTable f =>
    obtain ⟨table, joins⟩ := f
    simp only [fromTable.sizeOf_spec, FromTable.mk.sizeOf_spec]
    rcases List.mem_cons.mp h with rfl | h
    · simp only [Node.table.sizeOf_spec]
      omega
    · have := sizeOf_list (fun _ => rfl) h
      dsimp only at this
      omega
  | joinClause j =>
    obtain ⟨operator, table, condition⟩ := j
    simp only [joinClause.sizeOf_spec, JoinClause.mk.sizeOf_spec]
    rcases List.mem_cons.mp h with rfl | h
    · simp only [Node.table.sizeOf_spec]
      omega
    · have := sizeOf_slotParts h
      dsimp only at this
      omega
  | columnDef c => exact absurd h List.not_mem_nil
  | primaryKey k => exact absurd h List.not_mem_nil
  | resultColumn c =>
    obtain ⟨expression, label⟩ := c
    obtain rfl := List.mem_singleton.mp h
    simp only [expr.sizeOf_spec, resultColumn.sizeOf_spec, ResultColumn.mk.sizeOf_spec]
    omega
  | orderBy o =>
    obtain ⟨expression, direction⟩ := o
    obtain rfl := List.mem_singleton.mp h
    simp only [expr.sizeOf_spec, orderBy.sizeOf_spec, OrderBy.mk.sizeOf_spec]
    omega
  | groupBy g =>
    obtain ⟨expressions, having⟩ := g
    simp only [groupBy.sizeOf_spec, GroupBy.mk.sizeOf_spec]
    rcases List.mem_append.mp h with h | h
    · have := sizeOf_list (fun _ => rfl) h
      dsimp only at this
      omega
    · have := sizeOf_slotParts h
      dsimp only at this
      omega
  | limit l => exact absurd h List.not_mem_nil
  | statement s =>
    simp only [statement.sizeOf_spec]
    exact sizeOf_statement h

/-- What stands in a node is no larger than the node. -/
theorem Occurs.sizeOf_le {n m : Node} (h : n.Occurs m) : sizeOf m ≤ sizeOf n := by
  induction h with
  | self n => exact Nat.le_refl _
  | part hp _ ih => exact Nat.le_trans ih (Nat.le_of_lt (sizeOf_lt_of_mem_parts hp))

/-- What a node has whenever its parts have it, every node has. -/
theorem parts_induction {P : Node → Prop} (step : ∀ n, (∀ m ∈ n.parts, P m) → P n) (n : Node) :
    P n :=
  step n fun m _ => parts_induction step m
termination_by n
decreasing_by exact sizeOf_lt_of_mem_parts ‹_›

end Node

end SqlTree
