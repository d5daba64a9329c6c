import SqlTree.Node.Document
import SqlTree.Node.Sql
import SqlTree.Proofs.Node.LocalRules

/-!
# Finished trees

A node is finished when it is set, keeps the rules of its kind, and all of its parts are finished.
So the check of a node decides two things about the whole tree: that no expression in it is unset,
and that every node in it keeps its own rules. SQL text and documents are made of such trees only.

## Main results

* `Node.check_step`: one step of the check.
* `Node.check_eq_ok_iff`: the trees that are finished.
-/

namespace SqlTree

theorem Expr.ne_unknown_of_check {e : Expr} (h : e.check = .ok ()) : e ≠ .unknown := by
  rintro rfl
  exact absurd h nofun

theorem isEmpty_iff_ne {α : Type} {items : List α} : ¬items.isEmpty = true ↔ items ≠ [] :=
  not_congr List.isEmpty_iff

/-! ### One step -/

/-- A query is finished if it keeps its rules and its parts are finished. -/
theorem Query.check_step {q : Query} :
    q.check = .ok () ↔ q.KeepsRules ∧ ∀ p ∈ q.parts, p.check = .ok () := by
  obtain ⟨distinct, columns, sources, condition, groupBy, order, limit⟩ := q
  have hrules : ¬(columns.isEmpty && sources.isEmpty) = true ↔
      Query.KeepsRules ⟨distinct, columns, sources, condition, groupBy, order, limit⟩ := by
    rw [Bool.and_eq_true, Classical.not_and_iff_not_or_not, isEmpty_iff_ne, isEmpty_iff_ne]
    rfl
  simp only [Query.check, guard_eq_ok, seq_eq_ok, checkColumns_eq_ok, checkSources_eq_ok,
    checkSlot?_eq_ok, checkGroupBy?_eq_ok, checkOrder_eq_ok, hrules, Query.parts,
    List.forall_mem_append, List.forall_mem_map, Node.forall_mem_option, Node.forall_slotParts,
    and_assoc]
  simp only [Node.check, implies_true, and_true]

/-- An expression is finished if it is set, it keeps its rules and its parts are finished. -/
theorem Expr.check_step {e : Expr} :
    e.check = .ok () ↔ e ≠ .unknown ∧ e.KeepsRules ∧ ∀ p ∈ e.parts, p.check = .ok () := by
  by_cases hset : e = .unknown
  · exact iff_of_false (fun h => ne_unknown_of_check h hset) fun h => h.1 hset
  rw [and_iff_right hset]
  cases e with
  | unknown => exact absurd rfl hset
  | binary operator left right negated =>
    have hchecks : (Expr.binary operator left right negated).check = .ok () ↔
        (checkLeftOperand operator left = .ok () ∧ checkRightOperand operator right = .ok () ∧
          checkNegation operator negated = .ok ()) ∧
          left.check = .ok () ∧ right.check = .ok () := by
      simp only [Expr.check, seq_eq_ok, checkSlot_eq_ok, and_assoc]
    rw [hchecks, Expr.parts, Node.forall_mem_pair]
    refine and_congr_left fun h => ?_
    exact binaryRules_iff (ne_unknown_of_check h.1) (ne_unknown_of_check h.2)
  | oneOf left right negated =>
    simp only [Expr.check, seq_eq_ok, checkSlot_eq_ok]
    rw [Expr.parts, Node.forall_mem_pair]
    exact and_congr_left fun h => checkList_eq_ok (ne_unknown_of_check h.2)
  | caseOf subject arms otherwise =>
    have harm (arm : CaseArm) : arm.check = .ok () ↔
        arm.condition.check = .ok () ∧ arm.result.check = .ok () := by
      obtain ⟨condition, result⟩ := arm
      simp only [CaseArm.check, seq_eq_ok, checkSlot_eq_ok]
    simp only [Expr.check, guard_eq_ok, isEmpty_iff_ne, seq_eq_ok, checkSlot?_eq_ok,
      checkArms_eq_ok, harm, Expr.KeepsRules, Expr.parts, List.forall_mem_append,
      Node.forall_slotParts, List.forall_mem_flatMap, Node.forall_mem_pair, and_assoc]
    rfl
  | math operator operands =>
    have hcheck : (Expr.math operator operands).check = .ok () ↔
        (∃ kept, normalizeMathOperator operator = .ok kept) ∧ ¬operands.length < 2 ∧
          ∀ e ∈ operands, e.check = .ok () := by
      simp only [Expr.check, bind_eq_ok, guard_eq_ok, checkSlots_eq_ok, exists_and_right]
    rw [hcheck, exists_normalizeMathOperator, Nat.not_lt, Expr.parts, List.forall_mem_map,
      ← and_assoc]
    rfl
  | query q => exact Query.check_step
  | _ =>
    simp only [Expr.check, requireText_eq_ok, seq_eq_ok, guard_eq_ok, isEmpty_iff_ne,
      checkSlot_eq_ok, checkSlots_eq_ok, Expr.KeepsRules, Expr.parts, List.forall_mem_cons,
      List.forall_mem_map, List.not_mem_nil, Node.check, Query.node, Statement.check,
      false_implies, implies_true, and_true, true_and]

/-- A table is finished if it keeps its rules and its parts are finished. -/
theorem Table.check_step {t : Table} :
    t.check = .ok () ↔ t.KeepsRules ∧ ∀ p ∈ t.parts, p.check = .ok () := by
  cases t with
  | schema t =>
    rw [Table.check, SchemaTable.check_eq_ok]
    exact (and_iff_left fun p hp => absurd hp List.not_mem_nil).symm
  | query q label =>
    rw [Table.check, seq_eq_ok, requireLabel_eq_ok, Table.parts, List.forall_mem_singleton]
    rfl
  | remote config columns label =>
    have hnull : ¬config.isNull = true ↔ config ≠ .null := by
      cases config <;> simp [Json.isNull]
    simp only [Table.check, guard_eq_ok, seq_eq_ok, requireLabel_eq_ok, checkColumnDefs_eq_ok,
      hnull, Table.KeepsRules, Table.parts, List.forall_mem_map, and_assoc]
    rfl

/-- An insertion is finished if it keeps its rules and its parts are finished. -/
theorem Insertion.check_step {i : Insertion} :
    i.check = .ok () ↔ i.KeepsRules ∧ ∀ p ∈ i.source.parts, p.check = .ok () := by
  have harity : i.checkArity = .ok () ↔ i.source.Fits i.columns := checkArity_eq_ok
  obtain ⟨schema, name, columns, rows | q⟩ := i
  · have hrows : InsertionSource.rows rows ≠ .rows [] ↔ rows ≠ [] :=
      not_congr (InsertionSource.rows.injEq rows [] ▸ Iff.rfl)
    simp only [Insertion.check, seq_eq_ok, requireText_eq_ok, guard_eq_ok, isEmpty_iff_ne,
      checkSlots_eq_ok, harity, Insertion.KeepsRules, InsertionSource.parts, List.forall_mem_map,
      hrows, Node.check]
    grind
  · have hquery : InsertionSource.query q ≠ .rows [] := nofun
    simp only [Insertion.check, seq_eq_ok, requireText_eq_ok, harity, Insertion.KeepsRules,
      InsertionSource.parts, List.forall_mem_singleton, Query.node, Node.check, Statement.check]
    grind

/-- An update is finished if it keeps its rules and its parts are finished. -/
theorem Update.check_step {u : Update} :
    u.check = .ok () ↔ u.KeepsRules ∧ ∀ p ∈ (Statement.update u).parts, p.check = .ok () := by
  simp only [Update.check, seq_eq_ok, requireText_eq_ok, guard_eq_ok, isEmpty_iff_ne,
    checkAssignments_eq_ok, checkSlot?_eq_ok, Update.KeepsRules, Statement.parts,
    List.forall_mem_append, List.forall_mem_map, Node.forall_slotParts, imp_and, forall_and,
    and_assoc]
  rfl

/-- The creation of a table is finished if it keeps its rules and its parts are finished. -/
theorem CreateTable.check_step {t : CreateTable} :
    t.check = .ok () ↔ t.KeepsRules ∧ ∀ p ∈ (Statement.createTable t).parts, p.check = .ok () := by
  have hsome : ¬(t.columns.isEmpty && t.query.isNone) = true ↔
      t.columns ≠ [] ∨ t.query.isSome = true := by
    rw [Bool.and_eq_true, Classical.not_and_iff_not_or_not, isEmpty_iff_ne]
    cases t.query <;> simp
  simp only [CreateTable.check, seq_eq_ok, requireText_eq_ok, guard_eq_ok, hsome,
    checkColumnDefs_eq_ok, checkPrimaryKeys_eq_ok, checkDefinitions_eq_ok, checkQuery?_eq_ok,
    CreateTable.KeepsRules, Statement.parts, List.forall_mem_append, List.forall_mem_map,
    Node.forall_mem_option, Query.node, Node.check, Statement.check]
  grind

/-- A statement is finished if it keeps its rules and its parts are finished. -/
theorem Statement.check_step {s : Statement} :
    s.check = .ok () ↔ s.KeepsRules ∧ ∀ p ∈ s.parts, p.check = .ok () := by
  have hnone (P : Prop) : P ↔ P ∧ ∀ p ∈ ([] : List Node), p.check = .ok () :=
    (and_iff_left fun p hp => absurd hp List.not_mem_nil).symm
  cases s with
  | query q => exact Query.check_step
  | insertion i => exact Insertion.check_step
  | update u => exact Update.check_step
  | deletion d =>
    rw [Statement.check, Deletion.check, seq_eq_ok, requireText_eq_ok, checkSlot?_eq_ok,
      Statement.parts, Node.forall_slotParts]
    rfl
  | createTable t => exact CreateTable.check_step
  | createSchema s => exact requireText_eq_ok.trans (hnone _)
  | dropTable t => exact requireText_eq_ok.trans (hnone _)
  | dropSchema s => exact requireText_eq_ok.trans (hnone _)

namespace Node

/-- A node is finished if it is set, it keeps its rules and its parts are finished. -/
theorem check_step {n : Node} :
    n.check = .ok () ↔ n ≠ .expr .unknown ∧ n.KeepsRules ∧ ∀ p ∈ n.parts, p.check = .ok () := by
  by_cases hset : n = .expr .unknown
  · subst hset
    exact iff_of_false (fun h => Expr.ne_unknown_of_check h rfl) fun h => h.1 rfl
  rw [and_iff_right hset]
  cases n with
  | expr e =>
    have he : e ≠ .unknown := fun h => hset (congrArg expr h)
    exact Expr.check_step.trans (and_iff_right he)
  | table t => exact Table.check_step
  | fromTable f =>
    obtain ⟨table, joins⟩ := f
    rw [check, FromTable.check, seq_eq_ok, checkJoins_eq_ok, parts,
      List.forall_mem_cons, List.forall_mem_map]
    exact (and_iff_right trivial).symm
  | joinClause j =>
    obtain ⟨operator, table, condition⟩ := j
    rw [check, JoinClause.check, seq_eq_ok, seq_eq_ok, JoinOperator.check_eq_ok,
      checkSlot?_eq_ok, parts, List.forall_mem_cons, Node.forall_slotParts]
    rfl
  | columnDef c =>
    exact ColumnDef.check_eq_ok.trans (and_iff_left fun p hp => absurd hp List.not_mem_nil).symm
  | primaryKey k =>
    refine Iff.trans ?_ (and_iff_left fun p hp => absurd hp List.not_mem_nil).symm
    rw [check, PrimaryKey.check, KeepsRules, ← isEmpty_iff_ne]
    cases k.columns.isEmpty <;> simp
  | resultColumn c =>
    obtain ⟨e, label⟩ := c
    rw [check, ResultColumn.check, checkSlot_eq_ok, parts, List.forall_mem_singleton]
    exact (and_iff_right trivial).symm
  | orderBy o =>
    obtain ⟨e, direction⟩ := o
    rw [check, OrderBy.check, checkSlot_eq_ok, parts, List.forall_mem_singleton]
    exact (and_iff_right trivial).symm
  | groupBy g =>
    obtain ⟨es, having⟩ := g
    rw [check, GroupBy.check, guard_eq_ok, isEmpty_iff_ne, seq_eq_ok,
      checkSlots_eq_ok, checkSlot?_eq_ok, parts, List.forall_mem_append, List.forall_mem_map,
      Node.forall_slotParts]
    rfl
  | limit l =>
    exact iff_of_true rfl ⟨trivial, fun p hp => absurd hp List.not_mem_nil⟩
  | statement s => exact Statement.check_step

/-- A finished node has its text. -/
theorem toSql_eq {n : Node} (h : n.check = .ok ()) : n.toSql = .ok n.sql := by
  rw [toSql, h]
  rfl

/-- Whatever stands in a finished node is finished. -/
theorem check_of_occurs {n m : Node} (h : n.check = .ok ()) (hm : n.Occurs m) :
    m.check = .ok () := by
  induction hm with
  | self n => exact h
  | part hp _ ih => exact ih ((check_step.mp h).2.2 _ hp)

/-- A node whose nodes are all set and keep their rules is finished. -/
theorem check_of_throughout {n : Node}
    (h : n.Throughout fun m => m ≠ .expr .unknown ∧ m.KeepsRules) : n.check = .ok () := by
  induction n using parts_induction with
  | step n ih => exact check_step.mpr ⟨h.here.1, h.here.2, fun p hp => ih p hp (h.part hp)⟩

/-- A node is finished exactly when no expression in it is unset, it itself included, and every node
in it keeps the rules of its kind. So there is SQL text and a document only of nodes without unset
expressions, and whatever stands in a finished node is finished. -/
theorem check_eq_ok_iff (n : Node) :
    (n.check = .ok () ↔ ¬n.Occurs (.expr .unknown) ∧ n.Throughout KeepsRules) ∧
    (∀ sql, n.toSql = .ok sql → ¬n.Occurs (.expr .unknown)) ∧
    (∀ j, n.toDocument = .ok j → ¬n.Occurs (.expr .unknown)) ∧
    (n.check = .ok () → ∀ m, n.Occurs m → m.check = .ok ()) := by
  have hset (h : n.check = .ok ()) : ¬n.Occurs (.expr .unknown) :=
    fun hu => absurd (check_of_occurs h hu) nofun
  refine ⟨⟨fun h => ⟨hset h, fun m hm => ?_⟩, fun ⟨hu, hrules⟩ => ?_⟩,
    fun sql h => hset (seq_eq_ok.mp h).1, fun j h => hset (seq_eq_ok.mp h).1,
    fun h m hm => check_of_occurs h hm⟩
  · exact (check_step.mp (check_of_occurs h hm)).2.1
  · refine check_of_throughout fun m hm => ⟨?_, hrules m hm⟩
    rintro rfl
    exact hu hm

end Node

end SqlTree
