import SqlTree.Node.Resolution
import SqlTree.Proofs.Node.Visibility
import SqlTree.Proofs.Outcome

/-!
# Valid statements

Validation passes a scope along that grows with each table of a FROM clause and is copied for each
query inside of an expression. What it decides does not mention scopes: the tables of every query
have different names, and every column with a table in front refers to a table that is visible where
the column stands.

A term is resolved in one step if it is fine itself and the terms inside of it resolve, each in a
scope that sees what is visible at its site. The rest is induction on the terms inside of terms.

## Main definitions

* `Scope.visible`, `Scope.add`: the names that a scope sees, and more tables in it.
* `Term.Resolves`: the names in a term resolve in a scope.
* `Site.Fine`, `Site.Sound`: nothing is wrong at a site, or at any site inside of it.
* `resolveAllJoined`: resolves the tables of a FROM clause, those that are joined among them.

## Main results

* `resolveAllJoined_eq_ok`: the FROM clauses that resolve.
* `Term.resolves_step`: one step of resolution.
* `Term.resolves_iff`: a term resolves when all sites in it are fine.
* `Statement.validate_eq_ok_iff`: the statements that are valid.
-/

namespace SqlTree

/-! ### Scopes -/

namespace Scope

variable {s s' : Scope} {name : String} {names more : List String}

/-- The names that a scope sees. -/
def visible (s : Scope) : List String := s.outer ++ s.tables

/-- The scope with more tables of the query itself. -/
def add (s : Scope) (names : List String) : Scope := { s with tables := s.tables ++ names }

theorem mem_visible : s.resolves name = true ↔ name ∈ s.visible := by
  rw [resolves_iff, visible, List.mem_append, or_comm]

@[simp] theorem visible_child (s : Scope) : s.child.visible = s.visible := List.append_nil _

@[simp] theorem visible_add : (s.add names).visible = s.visible ++ names :=
  (List.append_assoc _ _ _).symm

@[simp] theorem add_nil (s : Scope) : s.add [] = s := by
  rw [add, List.append_nil]

theorem add_add : (s.add names).add more = s.add (names ++ more) := by
  rw [add, add, add, List.append_assoc]

/-- A name is registered unless the query has a table of that name. -/
theorem extend_eq_ok : s.extend name = (.ok (), s') ↔ name ∉ s.tables ∧ s' = s.add [name] := by
  rw [extend, register]
  by_cases h : name ∈ s.tables
  · rw [if_pos h]
    exact iff_of_false nofun fun h' => h'.1 h
  · rw [if_neg h]
    simp only [Prod.mk.injEq, true_and, h, not_false_eq_true, eq_comm (a := s')]
    rfl

end Scope

namespace Resolution

variable {first : Resolution} {s : Scope}

theorem andThen_eq_ok {next : Scope → Resolution} :
    first.andThen next = (.ok (), s) ↔ ∃ s', first = (.ok (), s') ∧ next s' = (.ok (), s) := by
  obtain ⟨outcome, s₁⟩ := first
  cases outcome with
  | ok u =>
    refine ⟨fun h => ⟨s₁, rfl, h⟩, ?_⟩
    rintro ⟨s', h, hn⟩
    obtain rfl : s₁ = s' := (Prod.mk.inj h).2
    exact hn
  | error e => exact ⟨nofun, nofun⟩

theorem andCheck_eq_ok {next : Scope → Except Error Unit} :
    first.andCheck next = (.ok (), s) ↔ first = (.ok (), s) ∧ next s = .ok () := by
  rw [andCheck, andThen_eq_ok]
  constructor
  · rintro ⟨s', h, hn⟩
    obtain ⟨hnext, rfl⟩ := Prod.mk.inj hn
    exact ⟨h, hnext⟩
  · rintro ⟨h, hn⟩
    exact ⟨s, h, by rw [hn]⟩

theorem fst_eq_ok : first.1 = .ok () ↔ ∃ s, first = (.ok (), s) :=
  ⟨fun h => ⟨first.2, by rw [← h]⟩, fun ⟨_, h⟩ => by rw [h]⟩

theorem andThen_andThen (next after : Scope → Resolution) :
    (first.andThen next).andThen after = first.andThen fun s => (next s).andThen after := by
  obtain ⟨outcome, s₁⟩ := first
  cases outcome <;> rfl

end Resolution

/-! ### Expressions -/

/-- The names in a term resolve in a scope. A query has a scope of its own for its tables. -/
def Term.Resolves (s : Scope) : Term → Prop
  | expr e => e.resolve s = .ok ()
  | query q => (q.resolve s.child).1 = .ok ()

variable {s s' : Scope}

theorem resolveAll_eq_ok {es : List Expr} :
    resolveAll s es = .ok () ↔ ∀ e ∈ es, e.resolve s = .ok () :=
  checks_eq_ok rfl fun _ _ => rfl

theorem resolve?_eq_ok {e? : Option Expr} :
    resolve? s e? = .ok () ↔ ∀ e ∈ e?.toList, e.resolve s = .ok () := by
  cases e? with
  | none => exact iff_of_true rfl fun e he => absurd he List.not_mem_nil
  | some e => rw [resolve?, Option.toList_some, List.forall_mem_singleton]

theorem resolveArms_eq_ok {arms : List CaseArm} :
    resolveArms s arms = .ok () ↔
      ∀ arm ∈ arms, arm.condition.resolve s = .ok () ∧ arm.result.resolve s = .ok () := by
  have h : resolveArms s arms = .ok () ↔ ∀ arm ∈ arms, arm.resolve s = .ok () :=
    checks_eq_ok rfl fun _ _ => rfl
  refine h.trans (forall₂_congr fun arm _ => ?_)
  obtain ⟨condition, result⟩ := arm
  exact seq_eq_ok

theorem resolveColumns_eq_ok {columns : List ResultColumn} :
    resolveColumns s columns = .ok () ↔ ∀ c ∈ columns, c.expression.resolve s = .ok () :=
  checks_eq_ok rfl fun ⟨_, _⟩ _ => rfl

theorem resolveOrder_eq_ok {order : List OrderBy} :
    resolveOrder s order = .ok () ↔ ∀ o ∈ order, o.expression.resolve s = .ok () :=
  checks_eq_ok rfl fun ⟨_, _⟩ _ => rfl

theorem resolveGroupBy?_eq_ok {g? : Option GroupBy} :
    resolveGroupBy? s g? = .ok () ↔
      ∀ g ∈ g?.toList, ∀ e ∈ g.expressions ++ g.having.toList, e.resolve s = .ok () := by
  cases g? with
  | none => exact iff_of_true rfl fun g hg => absurd hg List.not_mem_nil
  | some g =>
    obtain ⟨es, having⟩ := g
    rw [Option.toList_some, List.forall_mem_singleton, List.forall_mem_append, ← resolveAll_eq_ok,
      ← resolve?_eq_ok]
    exact seq_eq_ok

namespace Site

/-- Nothing is wrong at a site: the tables of a query have different names, and the table that a
column refers to is visible. -/
def Fine : Site → Prop
  | ⟨visible, .expr (.column (some table) _)⟩ => table ∈ visible
  | ⟨_, .expr _⟩ => True
  | ⟨_, .query q⟩ => q.tableNames.Nodup

end Site

theorem forall_slotTerms {e? : Option Expr} {P : Term → Prop} :
    (∀ t ∈ slotTerms e?, P t) ↔ ∀ e ∈ e?.toList, P (.expr e) := by
  cases e? <;> simp [slotTerms]

/-- An expression resolves if it is fine itself and the terms inside of it resolve in its scope. -/
theorem Expr.resolve_eq_ok {e : Expr} :
    e.resolve s = .ok () ↔
      Site.Fine ⟨s.visible, .expr e⟩ ∧ ∀ t ∈ e.terms, t.Resolves s := by
  cases e with
  | column table name =>
    cases table with
    | none => exact iff_of_true rfl ⟨trivial, fun t ht => absurd ht List.not_mem_nil⟩
    | some table =>
      have hcolumn : (Expr.column (some table) name).resolve s = .ok () ↔ table ∈ s.visible := by
        rw [← Scope.mem_visible, Expr.resolve, resolveColumn]
        split
        · next h => exact iff_of_true rfl h
        · next h => exact iff_of_false nofun h
      exact hcolumn.trans ⟨fun h => ⟨h, fun t ht => absurd ht List.not_mem_nil⟩, And.left⟩
  | caseOf subject arms otherwise =>
    simp only [Expr.resolve, seq_eq_ok, resolve?_eq_ok, resolveArms_eq_ok, Expr.terms,
      List.forall_mem_append, forall_slotTerms, List.forall_mem_flatMap]
    simp [Site.Fine, Term.Resolves, and_assoc]
  | _ => simp [Expr.resolve, Expr.terms, Site.Fine, Term.Resolves, seq_eq_ok, resolveAll_eq_ok]

/-! ### FROM clauses -/

/-- A table is registered if its name is not taken; a query that it stands for resolves by
itself. -/
theorem Table.resolve_eq_ok {t : Table} :
    t.resolve s = (.ok (), s') ↔
      (∀ q label, t = .query q label → (q.resolve .empty).1 = .ok ()) ∧
        t.name ∉ s.tables ∧ s' = s.add [t.name] := by
  cases t with
  | query q label =>
    rw [Table.resolve, Resolution.andThen_eq_ok]
    constructor
    · rintro ⟨s₁, h, hextend⟩
      obtain ⟨hq, rfl⟩ := Prod.mk.inj h
      refine ⟨?_, Scope.extend_eq_ok.mp hextend⟩
      rintro q' label' ⟨⟩
      exact hq
    · rintro ⟨hq, h⟩
      exact ⟨s, Prod.ext (hq q label rfl) rfl, Scope.extend_eq_ok.mpr h⟩
  | _ => exact Scope.extend_eq_ok.trans ⟨fun h => ⟨nofun, h⟩, And.right⟩

/-- Registers a table of a FROM clause and resolves the condition that it is joined on. -/
def resolveJoined (s : Scope) (t : Table × Option Expr) : Resolution :=
  (t.1.resolve s).andCheck fun s => resolve? s t.2

/-- A table is registered and the condition that it is joined on resolves with it. -/
theorem resolveJoined_eq_ok {t : Table × Option Expr} :
    resolveJoined s t = (.ok (), s') ↔
      (∀ q label, t.1 = .query q label → (q.resolve .empty).1 = .ok ()) ∧
        t.1.name ∉ s.tables ∧ s' = s.add [t.1.name] ∧
        ∀ e, t.2 = some e → e.resolve (s.add [t.1.name]) = .ok () := by
  have hcondition : resolve? s' t.2 = .ok () ↔ ∀ e, t.2 = some e → e.resolve s' = .ok () := by
    simp only [resolve?_eq_ok, Option.mem_toList]
  rw [resolveJoined, Resolution.andCheck_eq_ok, Table.resolve_eq_ok, hcondition, and_assoc,
    and_assoc]
  refine and_congr_right fun _ => and_congr_right fun _ => and_congr_right fun hs => ?_
  rw [hs]

/-- Registers the tables of a FROM clause one after another. -/
def resolveAllJoined (s : Scope) : List (Table × Option Expr) → Resolution
  | [] => (.ok (), s)
  | t :: rest => (resolveJoined s t).andThen fun s => resolveAllJoined s rest

theorem resolveAllJoined_append (items more : List (Table × Option Expr)) (s : Scope) :
    resolveAllJoined s (items ++ more) =
      (resolveAllJoined s items).andThen fun s => resolveAllJoined s more := by
  induction items generalizing s with
  | nil => rfl
  | cons t rest ih =>
    simp only [List.cons_append, resolveAllJoined, Resolution.andThen_andThen, ih]

theorem resolveJoins_eq (joins : List JoinClause) (s : Scope) :
    resolveJoins s joins = resolveAllJoined s (joins.map fun j => (j.table, j.condition)) := by
  induction joins generalizing s with
  | nil => rfl
  | cons j rest ih =>
    obtain ⟨operator, table, condition⟩ := j
    simp only [resolveJoins, ih]
    rfl

theorem FromTable.resolve_eq (f : FromTable) (s : Scope) :
    f.resolve s = resolveAllJoined s f.joined := by
  obtain ⟨table, joins⟩ := f
  have hnone : resolveJoined s (table, none) = table.resolve s := by
    rw [resolveJoined, Resolution.andCheck]
    obtain ⟨outcome, s'⟩ := table.resolve s
    cases outcome <;> rfl
  rw [FromTable.resolve, joined, resolveAllJoined, hnone]
  simp only [resolveJoins_eq]

theorem resolveSources_eq (sources : List FromTable) (s : Scope) :
    resolveSources s sources = resolveAllJoined s (sources.flatMap FromTable.joined) := by
  induction sources generalizing s with
  | nil => rfl
  | cons f rest ih =>
    simp only [resolveSources, FromTable.resolve_eq, List.flatMap_cons, resolveAllJoined_append, ih]

/-- What holds of every joined table with the tables before it holds of the first one, before which
there are none, and of the others. -/
theorem forall_join_cons {t : Table × Option Expr} {rest : List (Table × Option Expr)}
    {P : List (Table × Option Expr) → Table → Expr → Prop} :
    (∀ before table e after, t :: rest = before ++ (table, some e) :: after → P before table e) ↔
      (∀ e, t.2 = some e → P [] t.1 e) ∧
        ∀ before table e after, rest = before ++ (table, some e) :: after →
          P (t :: before) table e := by
  constructor
  · intro h
    refine ⟨fun e he => h [] t.1 e rest ?_, fun before table e after heq => ?_⟩
    · rw [← he]
      rfl
    · exact h (t :: before) table e after (congrArg (t :: ·) heq)
  · rintro ⟨hfirst, hothers⟩ before table e after heq
    rcases List.cons_eq_append_iff.mp heq with ⟨rfl, hhead⟩ | ⟨before, rfl, htail⟩
    · obtain ⟨rfl, rfl⟩ := List.cons.inj hhead
      exact hfirst e rfl
    · exact hothers before table e after htail

/-- The tables of a FROM clause resolve, and are registered in order, if their names are different
from each other and from those registered before, if the queries among them resolve by themselves,
and if each condition resolves where just the tables before it and its own are registered. -/
theorem resolveAllJoined_eq_ok {items : List (Table × Option Expr)} (h : s.tables.Nodup) :
    resolveAllJoined s items = (.ok (), s') ↔
      s' = s.add (joinedNames items) ∧ (s.tables ++ joinedNames items).Nodup ∧
      (∀ t ∈ items, ∀ q label, t.1 = .query q label → (q.resolve .empty).1 = .ok ()) ∧
      ∀ before table e after, items = before ++ (table, some e) :: after →
        e.resolve (s.add (joinedNames before ++ [table.name])) = .ok () := by
  -- That the names registered before are different is kept with each table, so the name of a table
  -- is refused just if it makes a repetition.
  induction items generalizing s with
  | nil =>
    have hstop : resolveAllJoined s [] = (.ok (), s') ↔ s' = s.add (joinedNames []) := by
      rw [resolveAllJoined, joinedNames, List.map_nil, Scope.add_nil, Prod.mk.injEq]
      exact ⟨fun hs => hs.2.symm, fun hs => ⟨rfl, hs.symm⟩⟩
    refine hstop.trans ⟨fun hs => ⟨hs, ?_, fun t ht => absurd ht List.not_mem_nil, ?_⟩, And.left⟩
    · rwa [joinedNames, List.map_nil, List.append_nil]
    · intro before table e after heq
      exact absurd heq.symm (List.append_ne_nil_of_right_ne_nil _ (List.cons_ne_nil _ _))
  | cons t rest ih =>
    have hnames : (s.add [t.1.name]).tables ++ joinedNames rest =
        s.tables ++ joinedNames (t :: rest) := List.append_assoc _ _ _
    have hadd (names : List String) :
        (s.add [t.1.name]).add names = s.add (t.1.name :: names) := Scope.add_add
    simp only [resolveAllJoined, Resolution.andThen_eq_ok, resolveJoined_eq_ok,
      List.forall_mem_cons, forall_join_cons]
    constructor
    · rintro ⟨_, ⟨hquery, hname, rfl, hcondition⟩, hrest⟩
      have h₁ : (s.add [t.1.name]).tables.Nodup :=
        List.nodup_append.mpr ⟨h, List.pairwise_singleton _ _, by grind⟩
      obtain ⟨rfl, hnodup, hqueries, hjoins⟩ := (ih h₁).mp hrest
      refine ⟨hadd _, hnames ▸ hnodup, ⟨hquery, hqueries⟩, hcondition, ?_⟩
      intro before table e after heq
      rw [joinedNames, List.map_cons, List.cons_append, ← hadd]
      exact hjoins before table e after heq
    · rintro ⟨rfl, hnodup, ⟨hquery, hqueries⟩, hcondition, hjoins⟩
      rw [← hnames] at hnodup
      have h₁ : (s.add [t.1.name]).tables.Nodup := (List.nodup_append.mp hnodup).1
      have hname : t.1.name ∉ s.tables := by
        intro hmem
        exact (List.nodup_append.mp h₁).2.2 _ hmem _ (List.mem_singleton_self _) rfl
      refine ⟨_, ⟨hquery, hname, rfl, hcondition⟩, (ih h₁).mpr ?_⟩
      refine ⟨(hadd _).symm, hnodup, hqueries, ?_⟩
      intro before table e after heq
      rw [hadd]
      exact hjoins before table e after heq

/-! ### Queries -/

/-- Resolves the clauses of a query where its tables have been registered. -/
def Query.resolveClauses (q : Query) (s : Scope) : Except Error Unit := do
  resolveColumns s q.columns
  resolve? s q.condition
  resolveGroupBy? s q.groupBy
  resolveOrder s q.order

theorem Query.resolveClauses_eq_ok {q : Query} :
    q.resolveClauses s = .ok () ↔ ∀ e ∈ q.clauses, e.resolve s = .ok () := by
  simp only [resolveClauses, seq_eq_ok, resolveColumns_eq_ok, resolve?_eq_ok,
    resolveGroupBy?_eq_ok, resolveOrder_eq_ok, clauses, List.forall_mem_append,
    List.forall_mem_map, List.forall_mem_flatMap, and_assoc]

theorem Query.resolve_eq (q : Query) (s : Scope) :
    q.resolve s = (resolveAllJoined s q.joined).andCheck q.resolveClauses := by
  rw [joined, ← resolveSources_eq]
  obtain ⟨distinct, columns, sources, condition, groupBy, order, limit⟩ := q
  rfl

/-- A query resolves if its tables have different names, if the queries among them and the
conditions of joins resolve, and if the other clauses resolve where all tables are registered. -/
theorem Query.resolve_eq_ok {q : Query} :
    (q.resolve s.child).1 = .ok () ↔
      q.tableNames.Nodup ∧
      (∀ d label, .query d label ∈ q.tables → (d.resolve .empty).1 = .ok ()) ∧
      (∀ before table e after, q.joined = before ++ (table, some e) :: after →
        e.resolve (s.child.add (joinedNames before ++ [table.name])) = .ok ()) ∧
      ∀ e ∈ q.clauses, e.resolve (s.child.add q.tableNames) = .ok () := by
  have hqueries : (∀ t ∈ q.joined, ∀ d label, t.1 = .query d label →
      (d.resolve .empty).1 = .ok ()) ↔
        ∀ d label, .query d label ∈ q.tables → (d.resolve .empty).1 = .ok () := by
    constructor
    · intro h d label hd
      obtain ⟨t, ht, heq⟩ := List.mem_map.mp hd
      exact h t ht d label heq
    · intro h t ht d label heq
      exact h d label (List.mem_map.mpr ⟨t, ht, heq⟩)
  have hnil : s.child.tables.Nodup := List.Pairwise.nil
  rw [resolve_eq, Resolution.fst_eq_ok]
  simp only [Resolution.andCheck_eq_ok, resolveAllJoined_eq_ok hnil, resolveClauses_eq_ok,
    hqueries, and_assoc, exists_eq_left]
  exact Iff.rfl

/-! ### Terms -/

/-- A term resolves if it is fine itself and what stands at the sites inside of it resolves, where
`P` says of the terms inside that they resolve in scopes that see what is visible there. -/
theorem Term.resolves_step {P : Site → Prop} {t : Term}
    (ih : ∀ t' ∈ t.inner, ∀ s : Scope, t'.Resolves s ↔ P ⟨s.visible, t'⟩) (s : Scope) :
    t.Resolves s ↔
      Site.Fine ⟨s.visible, t⟩ ∧ ∀ p, Site.Holds ⟨s.visible, t⟩ p → P p := by
  cases t with
  | expr e =>
    refine Expr.resolve_eq_ok.trans (and_congr_right fun _ => ?_)
    constructor
    · rintro h _ ⟨ht⟩
      exact (ih _ ht s).mp (h _ ht)
    · intro h t ht
      exact (ih t ht s).mpr (h _ (.inside ht))
  | query q =>
    have hadd (names : List String) : (s.child.add names).visible = s.visible ++ names := by
      rw [Scope.visible_add, Scope.visible_child]
    refine Query.resolve_eq_ok.trans (and_congr_right fun _ => ?_)
    rw [Site.forall_holds_query]
    refine and_congr ?_ (and_congr ?_ ?_)
    · refine forall₃_congr fun d label hd => ?_
      have hheld : Site.Holds ⟨s.visible, .query q⟩ ⟨[], .query d⟩ := .derived hd
      exact ih (.query d) hheld.mem_inner .empty
    · refine forall₅_congr fun before table e after hj => ?_
      have hheld : Site.Holds ⟨s.visible, .query q⟩ ⟨_, .expr e⟩ := .join hj
      rw [List.append_assoc, ← hadd]
      exact ih (.expr e) hheld.mem_inner _
    · refine forall₂_congr fun e he => ?_
      have hheld : Site.Holds ⟨s.visible, .query q⟩ ⟨_, .expr e⟩ := .clause he
      rw [← hadd]
      exact ih (.expr e) hheld.mem_inner _

/-- Everything at a site and inside of it is fine. -/
def Site.Sound (p : Site) : Prop := ∀ p', Relation.ReflTransGen Site.Holds p p' → p'.Fine

theorem Site.sound_iff {p : Site} : p.Sound ↔ p.Fine ∧ ∀ p', p.Holds p' → p'.Sound := by
  constructor
  · intro h
    exact ⟨h p .refl, fun p' hp p'' hp' => h p'' (.head hp hp')⟩
  · rintro ⟨here, inside⟩ p' hp
    rcases Relation.ReflTransGen.cases_head hp with rfl | ⟨p₁, hp₁, hp⟩
    · exact here
    · exact inside p₁ hp₁ p' hp

/-- A term resolves in a scope if everything is fine in it, where just the names that the scope
sees are visible. -/
theorem Term.resolves_iff (t : Term) (s : Scope) :
    t.Resolves s ↔ Site.Sound ⟨s.visible, t⟩ := by
  induction t using Term.inner_induction generalizing s with
  | step t ih => rw [Site.sound_iff, resolves_step ih]

/-! ### Statements -/

namespace Statement

/-- The scope in which the terms of a statement are resolved. -/
def scope (s : Statement) : Scope := ⟨[], s.visible⟩

/-- A statement resolves if the terms in it do. -/
theorem resolve_eq_ok {s : Statement} :
    s.resolve = .ok () ↔ ∀ t ∈ s.terms, t.Resolves s.scope := by
  have hassign {s : Scope} {assignments : List (String × Expr)} :
      resolveAssignments s assignments = .ok () ↔
        ∀ a ∈ assignments, a.2.resolve s = .ok () :=
    checks_eq_ok rfl fun ⟨_, _⟩ _ => rfl
  cases s with
  | query q =>
    rw [terms, List.forall_mem_singleton]
    rfl
  | insertion i =>
    obtain ⟨schema, name, columns, rows | q⟩ := i
    · rw [terms, List.forall_mem_map]
      exact resolveAll_eq_ok
    · rw [terms, List.forall_mem_singleton]
      rfl
  | update u =>
    rw [resolve, Update.resolve, seq_eq_ok, hassign, resolve?_eq_ok, terms,
      List.forall_mem_append, List.forall_mem_map, forall_slotTerms]
    rfl
  | deletion d =>
    rw [resolve, Deletion.resolve, resolve?_eq_ok, terms, forall_slotTerms]
    rfl
  | createTable t =>
    rw [resolve, CreateTable.resolve, terms]
    cases t.query with
    | none => exact iff_of_true rfl fun t ht => absurd ht List.not_mem_nil
    | some q =>
      rw [Option.map_some, Option.toList_some, List.forall_mem_singleton]
      rfl
  | _ => exact iff_of_true rfl fun t ht => absurd ht List.not_mem_nil

/-- A statement resolves if every site in it is fine. -/
theorem resolve_iff_fine {s : Statement} :
    s.resolve = .ok () ↔ ∀ p, s.HasSite p → p.Fine := by
  have hterm : s.resolve = .ok () ↔ ∀ t ∈ s.terms, Site.Sound ⟨s.visible, t⟩ :=
    resolve_eq_ok.trans (forall₂_congr fun t _ => t.resolves_iff s.scope)
  rw [hterm]
  constructor
  · rintro h p ⟨t, ht, hp⟩
    exact h t ht p hp
  · intro h t ht p hp
    exact h p ⟨t, ht, hp⟩

/-- A statement is valid exactly when it is finished, the tables of every query in it have different
names, and every column in it that has a table in front refers to a table that is visible at its
site. An expression that stands in the statement, however deep, has such a site. -/
theorem validate_eq_ok_iff (s : Statement) :
    (s.validate = .ok () ↔
      s.check = .ok () ∧
      (∀ q, (Node.statement s).HasQuery q → q.tableNames.Nodup) ∧
      ∀ visible table name,
        s.HasSite ⟨visible, .expr (.column (some table) name)⟩ → table ∈ visible) ∧
    ∀ e, (Node.statement s).Occurs (.expr e) ↔ ∃ visible, s.HasSite ⟨visible, .expr e⟩ := by
  refine ⟨?_, fun e => (exists_hasSite_iff (t := .expr e)).symm⟩
  rw [validate, seq_eq_ok, resolve_iff_fine]
  refine and_congr_right fun _ => ?_
  constructor
  · intro h
    refine ⟨fun q hq => ?_, fun visible table name hp => h _ hp⟩
    obtain ⟨visible, hp⟩ := (exists_hasSite_iff (t := .query q)).mpr hq
    exact h _ hp
  · rintro ⟨hqueries, hcolumns⟩ ⟨visible, t⟩ hp
    have hstands : (Node.statement s).Stands t := exists_hasSite_iff.mp ⟨visible, hp⟩
    cases t with
    | query q => exact hqueries q hstands
    | expr e =>
      cases e with
      | column table name =>
        cases table with
        | none => trivial
        | some table => exact hcolumns visible table name hp
      | _ => trivial

/-- The condition of a join does not see a table that is joined after it. -/
example :
    let early : Expr := .binary "=" (.ofTableColumn "a" "id") (.ofTableColumn "c" "id") false
    let late : Expr := .binary "=" (.ofTableColumn "a" "id") (.ofTableColumn "b" "id") false
    let joins : List JoinClause :=
      [⟨.inner, .named "b", some early⟩, ⟨.inner, .named "c", some late⟩]
    let q : Query := ⟨false, [], [⟨.named "a", joins⟩], none, none, [], none⟩
    (query q).check = .ok () ∧ (query q).validate = .error (.unknownTable "c") := by
  intro early late joins q
  exact ⟨rfl, rfl⟩

end Statement

end SqlTree
