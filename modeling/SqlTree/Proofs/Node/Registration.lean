import SqlTree.Proofs.Node.NameResolution

/-!
# What a query leaves in its scope

A query is resolved in a scope that grows with each of its tables, and what was registered before a
failure stays. Of all that a query contains only the tables of its own FROM clause come into this
scope. Conditions and clauses are resolved without changing it, a query inside of an expression
begins a scope of its own, and of a query used as a table only the label is registered.

What a step adds to the scope is a beginning of the list of tables that stand there, and the whole
of it if the step succeeds. This passes from one step to the next, whichever of them fails.

## Main definitions

* `Resolution.Registers`: a resolution adds the tables of a list, or the first ones of them.

## Main results

* `Query.registers`: a query adds the tables of its FROM clause.
* `Query.scope_after`: the names in the scope after a query has been resolved.
-/

namespace SqlTree

namespace Resolution

variable {s : Scope} {names more : List String} {first : Resolution}

/-- A resolution adds the tables of a list to a scope in their order, or only the first of them if
it fails. Different names stay different. -/
structure Registers (s : Scope) (names : List String) (first : Resolution) : Prop where
  added : ∃ added, added <+: names ∧ first.2 = s.add added ∧ (first.1 = .ok () → added = names)
  nodup : s.tables.Nodup → first.2.tables.Nodup

/-- What leaves the scope as it is. -/
theorem registers_nothing (s : Scope) (outcome : Except Error Unit) :
    Registers s [] (outcome, s) :=
  ⟨⟨[], List.nil_prefix, s.add_nil.symm, fun _ => rfl⟩, id⟩

/-- The tables of one step and those of the next. -/
theorem Registers.andThen (h : Registers s names first) {next : Scope → Resolution}
    (hnext : Registers (s.add names) more (next (s.add names))) :
    Registers s (names ++ more) (first.andThen next) := by
  obtain ⟨outcome, t⟩ := first
  obtain ⟨⟨added, hadded, rfl, hall⟩, hnodup⟩ := h
  cases outcome with
  | ok u =>
    obtain rfl : added = names := hall rfl
    obtain ⟨⟨later, hlater, hscope, hallLater⟩, hnodupLater⟩ := hnext
    refine ⟨⟨added ++ later, ?_, hscope.trans Scope.add_add, fun hok => ?_⟩, fun hs => ?_⟩
    · exact (List.prefix_append_right_inj added).mpr hlater
    · rw [hallLater hok]
    · exact hnodupLater (hnodup hs)
  | error e => exact ⟨⟨added, hadded.trans (List.prefix_append _ _), rfl, nofun⟩, hnodup⟩

/-- What is checked after a step adds no tables. -/
theorem Registers.andCheck (h : Registers s names first) (next : Scope → Except Error Unit) :
    Registers s names (first.andCheck next) := by
  have hboth : Registers s (names ++ []) (first.andThen fun s => (next s, s)) :=
    h.andThen (registers_nothing _ _)
  rwa [List.append_nil] at hboth

end Resolution

open Resolution

variable {s : Scope}

/-! ### Tables -/

theorem Scope.registers_extend (s : Scope) (name : String) :
    Registers s [name] (s.extend name) := by
  rw [extend, register]
  by_cases h : name ∈ s.tables
  · rw [if_pos h]
    refine ⟨⟨[], List.nil_prefix, s.add_nil.symm, fun hok => ?_⟩, id⟩
    cases hok
  · rw [if_neg h]
    refine ⟨⟨[name], List.prefix_refl _, rfl, fun _ => rfl⟩, fun hs => ?_⟩
    exact List.nodup_append.mpr ⟨hs, List.pairwise_singleton _ _, by grind⟩

/-- A query used as a table is resolved elsewhere, so that only its label is registered. -/
theorem Table.registers (t : Table) (s : Scope) : Registers s [t.name] (t.resolve s) := by
  cases t with
  | query q label =>
    have hquery : Registers s [] ((q.resolve .empty).1, s) := registers_nothing s _
    have hlabel : Registers (s.add []) [label] ((s.add []).extend label) :=
      (s.add []).registers_extend label
    exact hquery.andThen hlabel
  | schema t => exact s.registers_extend _
  | remote config columns label => exact s.registers_extend label

/-- The tables of a FROM clause are registered one after another. -/
theorem registers_joined (items : List (Table × Option Expr)) (s : Scope) :
    Registers s (joinedNames items) (resolveAllJoined s items) := by
  induction items generalizing s with
  | nil => exact registers_nothing s _
  | cons t rest ih =>
    have hfirst : Registers s [t.1.name] (resolveJoined s t) := (t.1.registers s).andCheck _
    exact hfirst.andThen (ih _)

/-! ### Queries -/

namespace Query

/-- A query registers the tables of its FROM clause. -/
theorem registers (q : Query) (s : Scope) : Registers s q.tableNames (q.resolve s) := by
  rw [q.resolve_eq]
  exact (registers_joined q.joined s).andCheck _

/-- After a query has been resolved in a scope, the names from outside are as before. The tables of
the scope are the earlier ones, then those of the FROM clause in their order, all of them and all
different if the query resolves, and some first ones of them if it fails. So a table of a query that
stands somewhere inside has no name in the scope that was not there before and that no table of the
FROM clause has. -/
theorem scope_after (q : Query) (s : Scope) (h : s.tables.Nodup) :
    (q.resolve s).2.outer = s.outer ∧
      ((q.resolve s).1 = .ok () → (q.resolve s).2.tables = s.tables ++ q.tableNames ∧
        (s.tables ++ q.tableNames).Nodup) ∧
      (∀ e, (q.resolve s).1 = .error e → ∃ names, names <+: q.tableNames ∧
        (q.resolve s).2.tables = s.tables ++ names ∧ (s.tables ++ names).Nodup) ∧
      ∀ d, (Node.statement (.query q)).HasQuery d → ∀ name ∈ d.tableNames,
        name ∉ s.tables → name ∉ q.tableNames → name ∉ (q.resolve s).2.tables := by
  obtain ⟨⟨added, hadded, hscope, hall⟩, hnodup⟩ := q.registers s
  have htables : (q.resolve s).2.tables = s.tables ++ added := congrArg Scope.tables hscope
  have hdifferent : (s.tables ++ added).Nodup := htables ▸ hnodup h
  refine ⟨by rw [hscope]; rfl, fun hok => ?_, fun e _ => ?_, ?_⟩
  · rw [← hall hok]
    exact ⟨htables, hdifferent⟩
  · exact ⟨added, hadded, htables, hdifferent⟩
  · intro d _ name _ hbefore hown hafter
    rw [htables, List.mem_append] at hafter
    exact hafter.elim hbefore fun hnew => hown (hadded.subset hnew)

/-- All rows of a table, or those that satisfy a condition. -/
def ofTable (name : String) (condition : Option Expr) : Query :=
  ⟨false, [], [.ofTable (.named name)], condition, none, [], none⟩

/-- The marks. -/
def marks : Query := ofTable "mark" none

/-- The teachers of a class of a query around. -/
def teachers : Query :=
  ofTable "teacher"
    (some (.binary "=" (.ofTableColumn "teacher" "class") (.ofTableColumn "class" "id") false))

/-- Students, with their classes if these have a teacher, and the best of all marks. -/
def taught : Query :=
  let student : FromTable := ⟨.named "student",
    [⟨.inner, .named "class",
      some (.binary "=" (.ofTableColumn "student" "class") (.ofTableColumn "class" "id") false)⟩]⟩
  ⟨false, [], [student, .ofTable (.query marks "best")], some (.existence teachers false), none, [],
    none⟩

/-- The theorem where a year is visible and a school from outside, and where the name of the second
table is taken. Neither the table of marks nor the one of teachers is registered. -/
theorem scope_after_taught :
    let free : Scope := ⟨["school"], ["year"]⟩
    let taken : Scope := ⟨[], ["class"]⟩
    (taught.resolve free).1 = .ok () ∧ (taught.resolve free).2.outer = ["school"] ∧
      (taught.resolve free).2.tables = ["year", "student", "class", "best"] ∧
      "mark" ∉ (taught.resolve free).2.tables ∧ "teacher" ∉ (taught.resolve free).2.tables ∧
      (taught.resolve taken).1 = .error (.duplicateAlias "class") ∧
      (∃ names, names <+: ["student", "class", "best"] ∧
        (taught.resolve taken).2.tables = "class" :: names) := by
  intro free taken
  obtain ⟨houter, hok, -, hinside⟩ := scope_after taught free (by decide)
  obtain ⟨-, -, herror, -⟩ := scope_after taught taken (by decide)
  have hmark : (Node.statement (.query taught)).HasQuery marks := by
    refine .inr (.part (p := .fromTable (.ofTable (.query marks "best"))) (.tail _ (.head _)) ?_)
    exact .part (p := .table (.query marks "best")) (.head _) (.of_mem_parts (.head _))
  have hteacher : (Node.statement (.query taught)).HasQuery teachers := by
    refine .inr (.part (p := .expr (.existence teachers false)) ?_ (.of_mem_parts (.head _)))
    exact .tail _ (.tail _ (.head _))
  obtain ⟨names, hnames, htables, -⟩ := herror (.duplicateAlias "class") rfl
  refine ⟨rfl, houter, (hok rfl).1, ?_, ?_, rfl, names, hnames, htables⟩
  · exact hinside marks hmark "mark" (by decide) (by decide) (by decide)
  · exact hinside teachers hteacher "teacher" (by decide) (by decide) (by decide)

end Query

end SqlTree
