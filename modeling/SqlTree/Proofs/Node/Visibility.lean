import SqlTree.Proofs.Node.Terms

/-!
# Where table names are visible

A site is a term together with the table names that are visible where it stands. Inside an
expression the same names are visible throughout, also in a query that stands there. The clauses of
a query see the tables of its FROM clause in addition to what is visible outside; the condition of a
join sees only the tables up to its own. In a query used as a table nothing is visible from outside.

## Main definitions

* `Site`, `Site.Holds`: terms where they stand, and the sites directly inside of them.
* `Query.clauses`: the expressions of a query outside its FROM clause.
* `Statement.visible`, `Statement.HasSite`: what is visible in a statement, and its sites.

## Main results

* `Statement.exists_hasSite_iff`: every term that stands in a statement stands at some site.
-/

namespace SqlTree

/-- The expressions of a query outside its FROM clause: those of the result columns, the condition,
those of the grouping with its condition, and those of the order. -/
def Query.clauses (q : Query) : List Expr :=
  q.columns.map ResultColumn.expression ++ q.condition.toList ++
    q.groupBy.toList.flatMap (fun g => g.expressions ++ g.having.toList) ++
    q.order.map OrderBy.expression

/-- The terms inside of a query are those of its FROM clause and its other clauses. -/
theorem Query.mem_terms {q : Query} {t : Term} :
    t ∈ q.terms ↔ t ∈ q.joined.flatMap joinedTerms ∨ ∃ e ∈ q.clauses, .expr e = t := by
  have hslot (e : Option Expr) : slotTerms e = e.toList.map .expr := by cases e <;> rfl
  have hg : q.groupBy.toList.flatMap GroupBy.terms =
      (q.groupBy.toList.flatMap fun g => g.expressions ++ g.having.toList).map .expr := by
    have hterms : GroupBy.terms = fun g => (g.expressions ++ g.having.toList).map .expr :=
      funext fun g => by rw [GroupBy.terms, hslot, List.map_append]
    rw [hterms, List.map_flatMap]
  have hc : q.clauses.map Term.expr =
      q.columns.map (fun c => .expr c.expression) ++ slotTerms q.condition ++
        q.groupBy.toList.flatMap GroupBy.terms ++ q.order.map (fun o => .expr o.expression) := by
    simp only [clauses, List.map_append, List.map_map, hslot, hg]
    rfl
  rw [← List.mem_map, hc, terms]
  simp only [List.mem_append]
  grind

/-- A term and the table names that are visible where it stands. -/
structure Site where
  /-- The visible names. -/
  visible : List String
  /-- What stands there. -/
  term : Term

namespace Site

/-- A site is directly inside of another. For a query, the names visible at its site are those
visible from outside. -/
inductive Holds : Site → Site → Prop
  /-- A term in an expression sees what the expression sees. -/
  | inside {visible : List String} {e : Expr} {t : Term} (h : t ∈ e.terms) :
      Holds ⟨visible, .expr e⟩ ⟨visible, t⟩
  /-- The clauses of a query also see all of its tables. -/
  | clause {visible : List String} {q : Query} {e : Expr} (h : e ∈ q.clauses) :
      Holds ⟨visible, .query q⟩ ⟨visible ++ q.tableNames, .expr e⟩
  /-- The condition of a join also sees the tables before it and its own. -/
  | join {visible : List String} {q : Query} {before after : List (Table × Option Expr)}
      {table : Table} {e : Expr} (h : q.joined = before ++ (table, some e) :: after) :
      Holds ⟨visible, .query q⟩
        ⟨visible ++ joinedNames before ++ [table.name], .expr e⟩
  /-- A query used as a table sees nothing from outside. -/
  | derived {visible : List String} {q d : Query} {label : String}
      (h : .query d label ∈ q.tables) : Holds ⟨visible, .query q⟩ ⟨[], .query d⟩

variable {p p' : Site}

/-- What holds at all sites directly inside of a query. -/
theorem forall_holds_query {P : Site → Prop} {visible : List String} {q : Query} :
    (∀ p, Holds ⟨visible, .query q⟩ p → P p) ↔
      (∀ d label, .query d label ∈ q.tables → P ⟨[], .query d⟩) ∧
      (∀ before table e after, q.joined = before ++ (table, some e) :: after →
        P ⟨visible ++ joinedNames before ++ [table.name], .expr e⟩) ∧
      ∀ e ∈ q.clauses, P ⟨visible ++ q.tableNames, .expr e⟩ := by
  constructor
  · intro h
    exact ⟨fun d label hd => h _ (.derived hd), fun before table e after hj => h _ (.join hj),
      fun e he => h _ (.clause he)⟩
  · rintro ⟨hqueries, hjoins, hclauses⟩ p hp
    cases hp with
    | clause he => exact hclauses _ he
    | join hj => exact hjoins _ _ _ _ hj
    | derived hd => exact hqueries _ _ hd

theorem Holds.mem_inner (h : p.Holds p') : p'.term ∈ p.term.inner := by
  cases h with
  | inside h => exact h
  | clause h => exact Query.mem_terms.mpr (.inr ⟨_, h, rfl⟩)
  | join h =>
    refine Query.mem_terms.mpr (.inl (List.mem_flatMap.mpr ⟨_, h ▸ List.mem_append_cons_self, ?_⟩))
    exact List.mem_append_right _ (List.mem_singleton_self _)
  | derived h =>
    obtain ⟨t, ht, heq⟩ := List.mem_map.mp h
    refine Query.mem_terms.mpr (.inl (List.mem_flatMap.mpr ⟨t, ht, List.mem_append_left _ ?_⟩))
    rw [heq]
    exact List.mem_singleton_self _

/-- Whatever is inside of the term at a site is at some site inside of it. -/
theorem exists_holds {t : Term} (h : t ∈ p.term.inner) :
    ∃ visible, p.Holds ⟨visible, t⟩ := by
  obtain ⟨visible, term⟩ := p
  cases term with
  | expr e => exact ⟨_, .inside h⟩
  | query q =>
    rcases Query.mem_terms.mp h with h | ⟨e, he, rfl⟩
    · obtain ⟨⟨table, condition⟩, hj, ht⟩ := List.mem_flatMap.mp h
      rcases List.mem_append.mp ht with ht | ht
      · cases table with
        | query d label =>
          obtain rfl := List.mem_singleton.mp ht
          exact ⟨_, .derived (List.mem_map.mpr ⟨_, hj, rfl⟩)⟩
        | _ => exact absurd ht List.not_mem_nil
      · cases condition with
        | none => exact absurd ht List.not_mem_nil
        | some e =>
          obtain rfl := List.mem_singleton.mp ht
          obtain ⟨before, after, hsplit⟩ := List.append_of_mem hj
          exact ⟨_, .join hsplit⟩
    · exact ⟨_, .clause he⟩

end Site

namespace Statement

/-- The table names that are visible in a statement outside its queries: rows that are inserted,
assignments and conditions see the target. -/
def visible : Statement → List String
  | query _ => []
  | insertion ⟨_, name, _, .rows _⟩ => [name]
  | insertion ⟨_, _, _, .query _⟩ => []
  | update u => [u.name]
  | deletion d => [d.name]
  | createTable _ => []
  | createSchema _ => []
  | dropTable _ => []
  | dropSchema _ => []

/-- A site in a statement. -/
def HasSite (s : Statement) (p : Site) : Prop :=
  ∃ t ∈ s.terms, Relation.ReflTransGen Site.Holds ⟨s.visible, t⟩ p

/-- The terms that stand in a statement are those at its sites. -/
theorem exists_hasSite_iff {s : Statement} {t : Term} :
    (∃ visible, s.HasSite ⟨visible, t⟩) ↔ (Node.statement s).Stands t := by
  rw [← Node.hasTerm_iff]
  constructor
  · rintro ⟨visible, t₀, h₀, hp⟩
    exact ⟨t₀, h₀, hp.lift Site.term fun _ _ => Site.Holds.mem_inner⟩
  · rintro ⟨t₀, h₀, ht⟩
    induction ht with
    | refl => exact ⟨_, t₀, h₀, .refl⟩
    | tail _ hin ih =>
      obtain ⟨visible, t₁, h₁, hp⟩ := ih
      obtain ⟨visible', hholds⟩ := Site.exists_holds (p := ⟨visible, _⟩) hin
      exact ⟨visible', t₁, h₁, hp.tail hholds⟩

end Statement

end SqlTree
