import SqlTree.Node.Access
import SqlTree.Proofs.Node.Terms

/-!
# The tables that statements read and write

A statement reads a table exactly when a query that stands somewhere in it names the table in its
FROM clause, as the first table of an item or as a joined one. An expression reads what the terms
inside of it read; a query also reads the tables of its own FROM clause.

## Main definitions

* `Term.reads`: the tables that an expression or a query reads.
* `Query.Names`: a query names a table in its FROM clause.
* `Statement.target?`: the table that a statement changes.

## Main results

* `Term.mem_reads`: what a term reads is named by a query that is reached from it.
* `Statement.access_exact`: the tables read and written by a statement.
-/

namespace SqlTree

/-- The tables that a term reads. -/
def Term.reads : Term → List String
  | expr e => e.reads
  | query q => q.reads

/-- A query takes rows from a table of a schema that is tracked under the given name. -/
def Query.Names (q : Query) (name : String) : Prop :=
  ∃ t : SchemaTable, .schema t ∈ q.tables ∧ qualifiedName t.schema t.table = name

/-! ### Reads of lists -/

/-- Reads that are collected through a list are those of its items. -/
theorem reads_eq_flatMap {α : Type} {one : α → List String} {all : List α → List String}
    (hnil : all [] = []) (hcons : ∀ a rest, all (a :: rest) = one a ++ all rest)
    (items : List α) : all items = items.flatMap one := by
  induction items with
  | nil => exact hnil
  | cons a rest ih => rw [hcons, ih, List.flatMap_cons]

theorem allReads_eq (es : List Expr) : allReads es = (es.map .expr).flatMap Term.reads := by
  rw [List.flatMap_map]
  exact reads_eq_flatMap rfl (fun _ _ => rfl) es

theorem reads?_eq (e : Option Expr) : reads? e = (slotTerms e).flatMap Term.reads := by
  cases e with
  | none => rfl
  | some e => exact (List.append_nil _).symm

theorem armReads_eq (arms : List CaseArm) :
    armReads arms =
      (arms.flatMap fun arm => [.expr arm.condition, .expr arm.result]).flatMap Term.reads := by
  rw [List.flatMap_assoc]
  refine reads_eq_flatMap rfl (fun arm rest => ?_) arms
  obtain ⟨condition, result⟩ := arm
  rw [armReads, CaseArm.reads, List.flatMap_cons, List.flatMap_singleton]
  rfl

theorem columnReads_eq (cs : List ResultColumn) :
    columnReads cs = (cs.map fun c => Term.expr c.expression).flatMap Term.reads := by
  rw [List.flatMap_map]
  refine reads_eq_flatMap rfl (fun c rest => ?_) cs
  obtain ⟨expression, label⟩ := c
  rfl

theorem orderReads_eq (os : List OrderBy) :
    orderReads os = (os.map fun o => Term.expr o.expression).flatMap Term.reads := by
  rw [List.flatMap_map]
  refine reads_eq_flatMap rfl (fun o rest => ?_) os
  obtain ⟨expression, direction⟩ := o
  rfl

theorem groupReads?_eq (g : Option GroupBy) :
    groupReads? g = (g.toList.flatMap GroupBy.terms).flatMap Term.reads := by
  cases g with
  | none => rfl
  | some g =>
    obtain ⟨es, having⟩ := g
    rw [groupReads?, GroupBy.reads, allReads_eq, reads?_eq, Option.toList_some,
      List.flatMap_singleton, GroupBy.terms, List.flatMap_append]

/-- An expression reads what the terms inside of it read. -/
theorem Expr.reads_eq (e : Expr) : e.reads = e.terms.flatMap Term.reads := by
  cases e with
  | caseOf subject arms otherwise =>
    rw [Expr.reads, Expr.terms, reads?_eq, armReads_eq, reads?_eq, List.flatMap_append,
      List.flatMap_append]
  | function name parameters distinct => exact allReads_eq parameters
  | math operator operands => exact allReads_eq operands
  | group operator items => exact allReads_eq items
  | _ => simp [Expr.reads, Expr.terms, Term.reads]

/-! ### Reads of FROM clauses -/

variable {name : String}

/-- A joined table reads itself, or what its query reads, and what its condition reads. -/
theorem mem_reads_joined {t : Table × Option Expr} :
    name ∈ t.1.reads ++ reads? t.2 ↔
      (∃ st : SchemaTable, t.1 = .schema st ∧ qualifiedName st.schema st.table = name) ∨
        name ∈ (joinedTerms t).flatMap Term.reads := by
  obtain ⟨table, condition⟩ := t
  rw [joinedTerms, List.flatMap_append, ← reads?_eq, List.mem_append, List.mem_append, ← or_assoc]
  refine or_congr_left ?_
  cases table with
  | schema st => simp [Table.reads, Table.terms, eq_comm]
  | query q label => simp [Table.reads, Table.terms, Term.reads]
  | remote config columns label => simp [Table.reads, Table.terms]

theorem FromTable.reads_eq (f : FromTable) :
    f.reads = f.joined.flatMap fun t => t.1.reads ++ reads? t.2 := by
  obtain ⟨table, joins⟩ := f
  have hj : joinReads joins =
      (joins.map fun j => (j.table, j.condition)).flatMap fun t => t.1.reads ++ reads? t.2 := by
    rw [List.flatMap_map]
    refine reads_eq_flatMap rfl (fun j rest => ?_) joins
    obtain ⟨operator, table, condition⟩ := j
    rfl
  rw [FromTable.reads, hj, joined, List.flatMap_cons, reads?, List.append_nil]

theorem sourceReads_eq (q : Query) :
    sourceReads q.sources = q.joined.flatMap fun t => t.1.reads ++ reads? t.2 := by
  rw [Query.joined, List.flatMap_assoc]
  exact reads_eq_flatMap rfl (fun f rest => by rw [sourceReads, f.reads_eq]) q.sources

/-- A query reads the tables of its FROM clause and what the terms inside of it read. -/
theorem Query.mem_reads {q : Query} :
    name ∈ q.reads ↔ q.Names name ∨ name ∈ q.terms.flatMap Term.reads := by
  have hs : name ∈ sourceReads q.sources ↔
      q.Names name ∨ name ∈ (q.joined.flatMap joinedTerms).flatMap Term.reads := by
    have hnames : q.Names name ↔ ∃ t ∈ q.joined, ∃ st : SchemaTable,
        t.1 = .schema st ∧ qualifiedName st.schema st.table = name := by
      simp only [Query.Names, tables, List.mem_map]
      grind
    rw [sourceReads_eq, List.mem_flatMap, hnames, List.flatMap_assoc, List.mem_flatMap, ← exists_or]
    refine exists_congr fun t => ?_
    rw [mem_reads_joined, and_or_left]
  obtain ⟨distinct, columns, sources, condition, groupBy, order, limit⟩ := q
  rw [Query.reads, Query.terms, reads?_eq, columnReads_eq, groupReads?_eq, orderReads_eq]
  simp only [List.flatMap_append, List.mem_append, hs]
  grind

/-- What a term reads is named by a query that is reached from it. -/
theorem Term.mem_reads (t : Term) : name ∈ t.reads ↔ ∃ q, t.Has (.query q) ∧ q.Names name := by
  induction t using Term.inner_induction with
  | step t ih =>
    have hinner : name ∈ t.inner.flatMap reads ↔
        ∃ t' ∈ t.inner, ∃ q, t'.Has (.query q) ∧ q.Names name := by
      rw [List.mem_flatMap]
      exact exists_congr fun t' => and_congr_right fun ht => ih t' ht
    have hhas (q : Query) : t.Has (.query q) ↔ t = .query q ∨ ∃ t' ∈ t.inner, t'.Has (.query q) :=
      Relation.ReflTransGen.cases_head_iff
    simp only [hhas, or_and_right, exists_or]
    cases t with
    | expr e =>
      rw [reads, e.reads_eq]
      exact hinner.trans (by grind)
    | query q =>
      rw [reads, q.mem_reads]
      exact (or_congr_right hinner).trans (by grind)

namespace Statement

/-- A statement reads what the terms in it read. -/
theorem reads_eq (s : Statement) : s.reads = s.terms.flatMap Term.reads := by
  cases s with
  | query q => exact (List.append_nil _).symm
  | insertion i =>
    obtain ⟨schema, name, columns, rs | q⟩ := i
    · exact allReads_eq rs.flatten
    · exact (List.append_nil _).symm
  | update u =>
    rw [reads, terms, allReads_eq, reads?_eq, List.flatMap_append, List.map_map]
    rfl
  | deletion d => exact reads?_eq d.condition
  | createTable t =>
    rw [reads, terms]
    cases t.query with
    | none => rfl
    | some q => exact (List.append_nil _).symm
  | _ => rfl

/-- The schema, if it is given, and the name of the table that a statement changes. -/
def target? : Statement → Option (Option String × String)
  | .query _ => none
  | .insertion i => some (i.schema, i.name)
  | .update u => some (u.schema, u.name)
  | .deletion d => some (d.database, d.name)
  | .createTable t => some (t.schema, t.name)
  | .createSchema _ => none
  | .dropTable t => some (t.schema, t.name)
  | .dropSchema _ => none

/-- A statement changes its target and nothing else. -/
theorem access_writes (s : Statement) :
    s.access.writes = (s.target?.map fun t => qualifiedName t.1 t.2).toList := by
  cases s <;> rfl

/-- A statement reads exactly the tables of schemas that stand in the FROM clause of some query in
it, however deep the query is, and it writes exactly its target. -/
theorem access_exact (s : Statement) :
    (∀ name, name ∈ s.access.reads ↔
      ∃ q, (Node.statement s).HasQuery q ∧
        ∃ t : SchemaTable, .schema t ∈ q.tables ∧ qualifiedName t.schema t.table = name) ∧
      s.access.writes = (s.target?.map fun t => qualifiedName t.1 t.2).toList := by
  refine ⟨fun name => ?_, s.access_writes⟩
  calc name ∈ s.access.reads
      ↔ name ∈ s.terms.flatMap Term.reads := by
        rw [access, Access.ofLists, Names.mem_ofList, reads_eq]
    _ ↔ ∃ q, (Node.statement s).HasTerm (.query q) ∧ q.Names name := by
        simp only [List.mem_flatMap, Term.mem_reads, Node.HasTerm, Node.terms]
        grind
    _ ↔ _ := exists_congr fun q => and_congr_left' Node.hasTerm_iff

end Statement

end SqlTree
