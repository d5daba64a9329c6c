import Mathlib.Logic.Relation
import SqlTree.Proofs.Node.Parts

/-!
# Expressions and queries in nodes

Names are resolved and tables are read by expressions and queries, which are called terms here. The
other nodes only hold terms together: a join holds the query of its table and its condition, a
grouping holds its expressions. A term that stands somewhere in a node is reached from a term that
the node holds directly, by going from terms to the terms inside of them.

## Main definitions

* `Term`, `Term.inner`: expressions and queries, and the terms directly inside of them.
* `Query.joined`, `Query.tables`, `Query.tableNames`: the tables of a FROM clause.
* `Node.terms`, `Node.HasTerm`: the terms that a node holds directly, and those reached from them.
* `Node.HasQuery`, `Node.Stands`: a query or a term stands somewhere in a node.

## Main results

* `Node.hasTerm_iff`: what is reached from a node is what stands somewhere in it.
* `Term.inner_induction`: induction on the terms inside of terms.
-/

namespace SqlTree

/-- An expression or a query. -/
inductive Term where
  | expr (e : Expr)
  | query (q : Query)

/-! ### FROM clauses -/

/-- The tables of an item of a FROM clause, each with the condition that it is joined on, if any. -/
def FromTable.joined (f : FromTable) : List (Table × Option Expr) :=
  (f.table, none) :: f.joins.map fun j => (j.table, j.condition)

/-- The names by which columns refer to tables of a FROM clause. -/
def joinedNames (items : List (Table × Option Expr)) : List String := items.map fun t => t.1.name

namespace Query

/-- The tables of a FROM clause, each with the condition that it is joined on, if any. -/
def joined (q : Query) : List (Table × Option Expr) := q.sources.flatMap FromTable.joined

/-- The tables of a FROM clause, those that are joined to others among them. -/
def tables (q : Query) : List Table := q.joined.map Prod.fst

/-- The names by which columns refer to the tables of a FROM clause. -/
def tableNames (q : Query) : List String := joinedNames q.joined

end Query

/-! ### Terms that are held directly -/

/-- An expression that may be left out, as a list of terms. -/
def slotTerms (e : Option Expr) : List Term := (e.map .expr).toList

/-- The query that a table stands for. -/
def Table.terms : Table → List Term
  | .query q _ => [.query q]
  | _ => []

/-- The query of a joined table and the condition of the join. -/
def joinedTerms (t : Table × Option Expr) : List Term := t.1.terms ++ slotTerms t.2

/-- The expressions of a grouping. -/
def GroupBy.terms (g : GroupBy) : List Term := g.expressions.map .expr ++ slotTerms g.having

/-- The terms directly inside of a query. -/
def Query.terms (q : Query) : List Term :=
  q.columns.map (fun c => .expr c.expression) ++ q.joined.flatMap joinedTerms ++
    slotTerms q.condition ++ q.groupBy.toList.flatMap GroupBy.terms ++
    q.order.map (fun o => .expr o.expression)

/-- The terms directly inside of an expression. -/
def Expr.terms : Expr → List Term
  | .unknown => []
  | .value _ => []
  | .column .. => []
  | .userVariable _ => []
  | .binary _ left right _ => [.expr left, .expr right]
  | .between left start stop _ => [.expr left, .expr start, .expr stop]
  | .oneOf left right _ => [.expr left, .expr right]
  | .nullTest left _ => [.expr left]
  | .existence q _ => [.query q]
  | .caseOf subject arms otherwise =>
    slotTerms subject ++ arms.flatMap (fun arm => [.expr arm.condition, .expr arm.result]) ++
      slotTerms otherwise
  | .function _ parameters _ => parameters.map .expr
  | .math _ operands => operands.map .expr
  | .group _ items => items.map .expr
  | .query q => [.query q]

/-- The terms that a statement holds. -/
def Statement.terms : Statement → List Term
  | .query q => [.query q]
  | .insertion ⟨_, _, _, .rows rs⟩ => rs.flatten.map .expr
  | .insertion ⟨_, _, _, .query q⟩ => [.query q]
  | .update u => u.assignments.map (fun a => .expr a.2) ++ slotTerms u.condition
  | .deletion d => slotTerms d.condition
  | .createTable t => (t.query.map .query).toList
  | .createSchema _ => []
  | .dropTable _ => []
  | .dropSchema _ => []

namespace Term

/-- The terms directly inside of a term. -/
def inner : Term → List Term
  | expr e => e.terms
  | query q => q.terms

/-- The parts of the expression or the query. -/
def parts : Term → List Node
  | expr e => e.parts
  | query q => q.parts

/-- A term is reached from another by going to the terms inside. -/
def Has : Term → Term → Prop := Relation.ReflTransGen fun t t' => t' ∈ t.inner

end Term

namespace Node

/-- The terms that a node holds. -/
def terms : Node → List Term
  | expr e => [.expr e]
  | table t => t.terms
  | fromTable f => f.joined.flatMap joinedTerms
  | joinClause j => joinedTerms (j.table, j.condition)
  | columnDef _ => []
  | primaryKey _ => []
  | resultColumn c => [.expr c.expression]
  | orderBy o => [.expr o.expression]
  | groupBy g => g.terms
  | limit _ => []
  | statement s => s.terms

/-- A term is reached from a node. -/
def HasTerm (n : Node) (t : Term) : Prop := ∃ t' ∈ n.terms, t'.Has t

/-- A query stands somewhere in a node, as an expression or as a node of its own. -/
def HasQuery (n : Node) (q : Query) : Prop := n.Occurs (.expr (.query q)) ∨ n.Occurs q.node

/-- A term stands somewhere in a node. -/
def Stands (n : Node) : Term → Prop
  | .expr e => n.Occurs (.expr e)
  | .query q => n.HasQuery q

/-! ### Terms of parts -/

/-- Parts that hold one term each. -/
theorem terms_map {α : Type} {w : α → Node} {term : α → Term}
    (h : ∀ a, (w a).terms = [term a]) (items : List α) :
    (items.map w).flatMap terms = items.map term := by
  have hterms : (fun a => (w a).terms) = fun a => [term a] := funext h
  rw [List.flatMap_map, List.map_eq_flatMap, hterms]

/-- Parts that hold no terms. -/
theorem terms_map_nil {α : Type} {wrap : α → Node} (h : ∀ a, (wrap a).terms = [])
    (items : List α) : (items.map wrap).flatMap terms = [] := by
  rw [List.flatMap_map, List.flatMap_eq_nil_iff]
  exact fun a _ => h a

theorem terms_slotParts (e : Option Expr) : (slotParts e).flatMap terms = slotTerms e := by
  cases e <;> rfl

/-- The terms that the parts of a query hold are those inside of it. -/
theorem terms_query_parts (q : Query) : q.parts.flatMap terms = q.terms := by
  have hs : (q.sources.map fromTable).flatMap terms = q.joined.flatMap joinedTerms := by
    rw [List.flatMap_map, Query.joined, List.flatMap_assoc]
    rfl
  have hg : (q.groupBy.map groupBy).toList.flatMap terms =
      q.groupBy.toList.flatMap GroupBy.terms := by
    cases q.groupBy <;> rfl
  have hl : (q.limit.map limit).toList.flatMap terms = [] := by
    cases q.limit <;> rfl
  simp only [Query.parts, Query.terms, List.flatMap_append, hs, hg, hl, terms_slotParts,
    terms_map (w := resultColumn) fun _ => rfl, terms_map (w := orderBy) fun _ => rfl,
    List.append_nil]

/-- The terms that the parts of an expression hold are those inside of it, unless it is a query. -/
theorem terms_expr_parts {e : Expr} (h : ∀ q, e ≠ .query q) :
    e.parts.flatMap terms = e.terms := by
  cases e with
  | caseOf subject arms otherwise =>
    simp only [Expr.parts, Expr.terms, List.flatMap_append, terms_slotParts, List.flatMap_assoc]
    rfl
  | function name parameters distinct => exact terms_map (fun _ => rfl) parameters
  | math operator operands => exact terms_map (fun _ => rfl) operands
  | group operator items => exact terms_map (fun _ => rfl) items
  | query q => exact absurd rfl (h q)
  | _ => rfl

/-- The terms that the parts of a statement hold are those that the statement holds. -/
theorem terms_statement_parts {s : Statement} (h : ∀ q, s ≠ .query q) :
    s.parts.flatMap terms = s.terms := by
  cases s with
  | query q => exact absurd rfl (h q)
  | insertion i =>
    obtain ⟨schema, name, columns, rs | q⟩ := i
    · exact terms_map (fun _ => rfl) rs.flatten
    · rfl
  | update u =>
    rw [Statement.parts, Statement.terms, List.flatMap_append, terms_slotParts,
      terms_map (fun _ => rfl) u.assignments]
  | deletion d => exact terms_slotParts d.condition
  | createTable t =>
    rw [Statement.parts, Statement.terms, List.flatMap_append, List.flatMap_append,
      terms_map_nil (fun _ => rfl) t.columns, terms_map_nil (fun _ => rfl) t.constraints]
    cases t.query <;> rfl
  | _ => rfl

/-- Every node is a term, or it holds just the terms that its parts hold. -/
theorem terms_cases (n : Node) :
    (∃ e, n = expr e) ∨ (∃ q : Query, n = q.node) ∨ n.parts.flatMap terms = n.terms := by
  cases n with
  | expr e => exact .inl ⟨e, rfl⟩
  | table t =>
    refine .inr (.inr ?_)
    cases t with
    | remote config columns label => exact terms_map_nil (fun _ => rfl) columns
    | _ => rfl
  | fromTable f =>
    refine .inr (.inr ?_)
    have hnone : joinedTerms (f.table, none) = f.table.terms := List.append_nil _
    rw [parts, terms, FromTable.joined, List.flatMap_cons, List.flatMap_cons, List.flatMap_map,
      List.flatMap_map, hnone]
    rfl
  | joinClause j =>
    refine .inr (.inr ?_)
    rw [parts, List.flatMap_cons, terms_slotParts]
    rfl
  | groupBy g =>
    refine .inr (.inr ?_)
    rw [parts, List.flatMap_append, terms_slotParts, terms_map (fun _ => rfl) g.expressions]
    rfl
  | statement s =>
    by_cases h : ∃ q, s = .query q
    · obtain ⟨q, rfl⟩ := h
      exact .inr (.inl ⟨q, rfl⟩)
    · exact .inr (.inr (terms_statement_parts fun q hq => h ⟨q, hq⟩))
  | _ => exact .inr (.inr rfl)

end Node

/-- The terms inside of a term are those that its parts hold, but a query used as an expression is
not a part of it. -/
theorem Term.mem_inner {t t' : Term} (h : t' ∈ t.inner) :
    (∃ q, t = .expr (.query q) ∧ t' = .query q) ∨ ∃ p ∈ t.parts, t' ∈ p.terms := by
  cases t with
  | expr e =>
    -- A query used as an expression is one node, but two terms, one inside of the other.
    by_cases hq : ∃ q, e = .query q
    · obtain ⟨q, rfl⟩ := hq
      exact .inl ⟨q, rfl, List.mem_singleton.mp h⟩
    · rw [inner, ← Node.terms_expr_parts fun q he => hq ⟨q, he⟩] at h
      exact .inr (List.mem_flatMap.mp h)
  | query q =>
    rw [inner, ← Node.terms_query_parts] at h
    exact .inr (List.mem_flatMap.mp h)

/-! ### What is reached is what stands in a node -/

namespace Node

variable {n p m : Node} {t t' : Term}

theorem Stands.of_occurs (h : p.Stands t) (hp : n.Occurs p) : n.Stands t := by
  cases t with
  | expr e => exact hp.trans h
  | query q => exact h.imp hp.trans hp.trans

theorem HasTerm.inner (h : n.HasTerm t) (ht : t' ∈ t.inner) : n.HasTerm t' := by
  obtain ⟨t₀, h₀, hh⟩ := h
  exact ⟨t₀, h₀, hh.tail ht⟩

theorem hasTerm_of_mem (h : t ∈ n.terms) : n.HasTerm t := ⟨t, h, .refl⟩

/-- What a part holds is reached from the node. -/
theorem hasTerm_of_mem_part (hp : p ∈ n.parts) (ht : t ∈ p.terms) : n.HasTerm t := by
  have hmem : t ∈ n.parts.flatMap terms := List.mem_flatMap.mpr ⟨p, hp, ht⟩
  have inQuery {q : Query} (hq : n.HasTerm (.query q)) (hparts : n.parts = q.parts) :
      n.HasTerm t := by
    rw [hparts, terms_query_parts] at hmem
    exact hq.inner hmem
  rcases n.terms_cases with ⟨e, rfl⟩ | ⟨q, rfl⟩ | heq
  · have he : (expr e).HasTerm (.expr e) := hasTerm_of_mem (List.mem_singleton_self _)
    by_cases h : ∃ q, e = .query q
    · obtain ⟨q, rfl⟩ := h
      exact inQuery (he.inner (List.mem_singleton_self _)) rfl
    · rw [parts, terms_expr_parts fun q hq => h ⟨q, hq⟩] at hmem
      exact he.inner hmem
  · exact inQuery (hasTerm_of_mem (List.mem_singleton_self _)) rfl
  · exact hasTerm_of_mem (heq ▸ hmem)

theorem HasTerm.of_part (hp : p ∈ n.parts) (h : p.HasTerm t) : n.HasTerm t := by
  obtain ⟨t₀, h₀, hh⟩ := h
  obtain ⟨t₁, h₁, hh₁⟩ := hasTerm_of_mem_part hp h₀
  exact ⟨t₁, h₁, hh₁.trans hh⟩

/-- What stands in a node is reached from it, if it is a term. -/
theorem Occurs.hasTerm (h : n.Occurs m) (ht : t ∈ m.terms) : n.HasTerm t := by
  induction h with
  | self n => exact hasTerm_of_mem ht
  | part hp _ ih => exact (ih ht).of_part hp

/-- What a node holds stands in it. -/
theorem stands_of_mem (h : t ∈ n.terms) : n.Stands t := by
  induction n using parts_induction with
  | step n ih =>
    rcases n.terms_cases with ⟨e, rfl⟩ | ⟨q, rfl⟩ | heq
    · obtain rfl := List.mem_singleton.mp h
      exact Occurs.self (expr e)
    · obtain rfl := List.mem_singleton.mp h
      exact .inr (.self q.node)
    · rw [← heq] at h
      obtain ⟨p, hp, ht⟩ := List.mem_flatMap.mp h
      exact (ih p hp ht).of_occurs (.of_mem_parts hp)

theorem Stands.inner (h : n.Stands t) (ht : t' ∈ t.inner) : n.Stands t' := by
  rcases Term.mem_inner ht with ⟨q, rfl, rfl⟩ | ⟨p, hp, ht⟩
  · exact .inl h
  · have hn : n.Occurs p := by
      cases t with
      | expr e => exact Occurs.then_part h hp
      | query q => exact h.elim (fun h => h.then_part hp) fun h => h.then_part hp
    exact (stands_of_mem ht).of_occurs hn

/-- The terms that are reached from a node are those that stand in it. -/
theorem hasTerm_iff : n.HasTerm t ↔ n.Stands t := by
  constructor
  · rintro ⟨t₀, h₀, hh⟩
    induction hh with
    | refl => exact stands_of_mem h₀
    | tail _ ht ih => exact ih.inner ht
  · intro h
    cases t with
    | expr e => exact Occurs.hasTerm h (List.mem_singleton_self _)
    | query q =>
      rcases h with h | h
      · exact (h.hasTerm (List.mem_singleton_self _)).inner (List.mem_singleton_self _)
      · exact h.hasTerm (List.mem_singleton_self _)

end Node

namespace Term

theorem sizeOf_le_of_stands {n : Node} {t : Term} (h : n.Stands t) : sizeOf t ≤ sizeOf n := by
  cases t with
  | expr e => exact Node.Occurs.sizeOf_le h
  | query q =>
    rcases h with h | h
    · have := h.sizeOf_le
      simp only [Node.expr.sizeOf_spec, Expr.query.sizeOf_spec] at this
      simp only [query.sizeOf_spec]
      omega
    · have := h.sizeOf_le
      simp only [Query.node, Node.statement.sizeOf_spec, Statement.query.sizeOf_spec] at this
      simp only [query.sizeOf_spec]
      omega

/-- The terms inside of a term are smaller than the term. -/
theorem sizeOf_lt_of_mem_inner {t t' : Term} (h : t' ∈ t.inner) : sizeOf t' < sizeOf t := by
  rcases mem_inner h with ⟨q, rfl, rfl⟩ | ⟨p, hp, ht⟩
  · simp only [query.sizeOf_spec, expr.sizeOf_spec, Expr.query.sizeOf_spec]
    omega
  · have hle := sizeOf_le_of_stands (Node.stands_of_mem ht)
    cases t with
    | expr e =>
      have := Node.sizeOf_expr hp
      simp only [expr.sizeOf_spec]
      omega
    | query q =>
      have := Node.sizeOf_query hp
      simp only [query.sizeOf_spec]
      omega

/-- What a term has whenever the terms inside of it have it, every term has. -/
theorem inner_induction {P : Term → Prop} (step : ∀ t, (∀ t' ∈ t.inner, P t') → P t) (t : Term) :
    P t :=
  step t fun t' _ => inner_induction step t'
termination_by t
decreasing_by exact sizeOf_lt_of_mem_inner ‹_›

end Term

end SqlTree
