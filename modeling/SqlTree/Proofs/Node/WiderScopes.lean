import SqlTree.Proofs.Node.NameResolution

/-!
# Scopes that see more

An expression is resolved against a list of names from outside and a list of names of the query
itself, but which list a name is in, where it stands there and how often makes no difference to the
expression. If one scope sees every name that another sees, an expression that resolves in the
narrower one resolves in the wider one. More precisely, the two outcomes are the same unless the
first is that a table is unknown which only the wider scope sees.

For the tables of a query this would be false: a name is refused if the query has a table of that
name already, so the names of the query itself must be the same in both scopes. A query inside of
an expression begins without tables of its own, and from there on the two scopes grow by the same
names as long as nothing is missed.

## Main definitions

* `Scope.Within`: a scope sees every name that another sees.
* `Scope.Missed`: an outcome that is due to a name which only the wider scope sees.
* `Scope.Widens`, `Resolution.Widens`: how the outcomes in two such scopes may differ.
* `Term.outcome`: what resolving a term gives.

## Main results

* `resolveAllJoined_widens`: FROM clauses in two scopes with the same tables.
* `Term.outcome_widens`: expressions and queries in a scope and a wider one.
* `Expr.resolve_by_visible_names`: an expression is resolved by the visible names.
-/

namespace SqlTree

/-! ### Outcomes in two scopes -/

namespace Scope

variable {s s' : Scope} {names : List String}

/-- Every name that a scope sees is seen by the other. -/
def Within (s s' : Scope) : Prop := ∀ name, s.resolves name = true → s'.resolves name = true

/-- The outcome is that a table is unknown, but the other scope sees it. -/
def Missed (s s' : Scope) (outcome : Except Error Unit) : Prop :=
  ∃ name, s.resolves name = false ∧ s'.resolves name = true ∧
    outcome = .error (.unknownTable name)

/-- The outcome in the other scope is the same, unless a table has been missed. -/
def Widens (s s' : Scope) (outcome outcome' : Except Error Unit) : Prop :=
  outcome' = outcome ∨ s.Missed s' outcome

theorem Within.add (h : s.Within s') (names : List String) :
    (s.add names).Within (s'.add names) := by
  intro name
  simp only [mem_visible, visible_add, List.mem_append]
  exact Or.imp_left fun hname => mem_visible.mp (h name (mem_visible.mpr hname))

theorem Within.child (h : s.Within s') : s.child.Within s'.child := by
  intro name
  rw [resolves_child, resolves_child]
  exact h name

/-- What is missed where both scopes have further tables is missed without them. -/
theorem Missed.of_add {outcome : Except Error Unit}
    (h : (s.add names).Missed (s'.add names) outcome) : s.Missed s' outcome := by
  obtain ⟨name, hnot, hsees, rfl⟩ := h
  rw [Bool.eq_false_iff, ne_eq, mem_visible, visible_add, List.mem_append, not_or] at hnot
  rw [mem_visible, visible_add, List.mem_append] at hsees
  refine ⟨name, Bool.eq_false_iff.mpr fun hname => hnot.1 (mem_visible.mp hname), ?_, rfl⟩
  exact mem_visible.mpr (hsees.resolve_right hnot.2)

theorem Missed.of_child {outcome : Except Error Unit} (h : s.child.Missed s'.child outcome) :
    s.Missed s' outcome := by
  obtain ⟨name, hnot, hsees, rfl⟩ := h
  exact ⟨name, (resolves_child s name).symm.trans hnot, (resolves_child s' name).symm.trans hsees,
    rfl⟩

variable {x x' y y' : Except Error Unit}

theorem Widens.refl (x : Except Error Unit) : s.Widens s' x x := .inl rfl

theorem Widens.of_child (h : s.child.Widens s'.child x x') : s.Widens s' x x' :=
  h.imp_right Missed.of_child

/-- One step after another. -/
theorem Widens.seq (hx : s.Widens s' x x') (hy : s.Widens s' y y') :
    s.Widens s' (do x; y) (do x'; y') := by
  obtain rfl | ⟨name, hnot, hsees, rfl⟩ := hx
  · cases x' with
    | ok u => exact hy
    | error e => exact .refl _
  · exact .inr ⟨name, hnot, hsees, rfl⟩

/-- A resolution that goes through a list. -/
theorem widens_list {α : Type} {f : Scope → α → Except Error Unit}
    {all : Scope → List α → Except Error Unit} (hnil : ∀ s, all s [] = .ok ())
    (hcons : ∀ s a rest, all s (a :: rest) = (do f s a; all s rest)) {items : List α}
    (h : ∀ a ∈ items, s.Widens s' (f s a) (f s' a)) :
    s.Widens s' (all s items) (all s' items) := by
  induction items with
  | nil =>
    rw [hnil, hnil]
    exact .refl _
  | cons a rest ih =>
    obtain ⟨hfirst, hrest⟩ := List.forall_mem_cons.mp h
    rw [hcons, hcons]
    exact hfirst.seq (ih hrest)

/-- An expression that may be left out. -/
theorem widens_slot {e? : Option Expr}
    (h : ∀ e ∈ e?.toList, s.Widens s' (e.resolve s) (e.resolve s')) :
    s.Widens s' (resolve? s e?) (resolve? s' e?) := by
  cases e? with
  | none => exact .refl _
  | some e => exact h e (List.mem_singleton_self e)

/-- All expressions of a list. -/
theorem widens_all {es : List Expr}
    (h : ∀ e ∈ es, s.Widens s' (e.resolve s) (e.resolve s')) :
    s.Widens s' (resolveAll s es) (resolveAll s' es) :=
  widens_list (f := fun s e => e.resolve s) (fun _ => rfl) (fun _ _ _ => rfl) h

end Scope

namespace Resolution

variable {s s' : Scope} {first first' : Resolution}

/-- The outcome in the other scope is the same and both scopes have grown by the same tables, unless
a table has been missed. -/
def Widens (s s' : Scope) (first first' : Resolution) : Prop :=
  (first'.1 = first.1 ∧ ∃ names, first.2 = s.add names ∧ first'.2 = s'.add names) ∨
    s.Missed s' first.1

theorem Widens.fst (h : Widens s s' first first') : s.Widens s' first.1 first'.1 :=
  h.imp_left And.left

/-- What leaves both scopes as they are. -/
theorem Widens.of_outcome {x x' : Except Error Unit} (h : s.Widens s' x x') :
    Widens s s' (x, s) (x', s') := by
  refine h.imp_left fun heq => ⟨heq, [], ?_⟩
  rw [Scope.add_nil, Scope.add_nil]
  exact ⟨rfl, rfl⟩

/-- What follows goes on in scopes that have grown by the same tables. -/
theorem Widens.andThen (h : Widens s s' first first') {next : Scope → Resolution}
    (hnext : ∀ names, Widens (s.add names) (s'.add names) (next (s.add names))
      (next (s'.add names))) :
    Widens s s' (first.andThen next) (first'.andThen next) := by
  obtain ⟨outcome, t⟩ := first
  obtain ⟨outcome', t'⟩ := first'
  obtain ⟨rfl, names, rfl, rfl⟩ | ⟨name, hnot, hsees, rfl⟩ := h
  · cases outcome' with
    | ok u =>
      refine (hnext names).imp ?_ Scope.Missed.of_add
      rintro ⟨heq, more, hmore, hmore'⟩
      rw [Scope.add_add] at hmore hmore'
      exact ⟨heq, names ++ more, hmore, hmore'⟩
    | error e => exact .inl ⟨rfl, names, rfl, rfl⟩
  · exact .inr ⟨name, hnot, hsees, rfl⟩

theorem Widens.andCheck (h : Widens s s' first first') {next : Scope → Except Error Unit}
    (hnext : ∀ names, (s.add names).Widens (s'.add names) (next (s.add names))
      (next (s'.add names))) :
    Widens s s' (first.andCheck next) (first'.andCheck next) :=
  h.andThen fun names => .of_outcome (hnext names)

end Resolution

/-! ### FROM clauses -/

variable {s s' : Scope}

/-- A table is registered in scopes that have the same tables. -/
theorem Scope.extend_widens (htables : s'.tables = s.tables) (name : String) :
    Resolution.Widens s s' (s.extend name) (s'.extend name) := by
  rw [extend, extend, register, register, htables]
  by_cases hname : name ∈ s.tables
  · rw [if_pos hname, if_pos hname]
    exact .of_outcome (.refl _)
  · rw [if_neg hname, if_neg hname]
    refine .inl ⟨rfl, [name], rfl, ?_⟩
    rw [add, htables]

/-- A query used as a table sees no names from outside, so it is resolved alike. -/
theorem Table.resolve_widens (htables : s'.tables = s.tables) (t : Table) :
    Resolution.Widens s s' (t.resolve s) (t.resolve s') := by
  cases t with
  | schema t => exact Scope.extend_widens htables _
  | query q label =>
    refine (Resolution.Widens.of_outcome (.refl _)).andThen fun names => ?_
    exact Scope.extend_widens (congrArg (· ++ names) htables) label
  | remote config columns label => exact Scope.extend_widens htables label

/-- The tables of a FROM clause in two scopes with the same tables, if the conditions of joins are
resolved as they should be. -/
theorem resolveAllJoined_widens {items : List (Table × Option Expr)} (h : s.Within s')
    (htables : s'.tables = s.tables)
    (hconditions : ∀ t ∈ items, ∀ u u' : Scope, u.Within u' →
      u.Widens u' (resolve? u t.2) (resolve? u' t.2)) :
    Resolution.Widens s s' (resolveAllJoined s items) (resolveAllJoined s' items) := by
  induction items generalizing s s' with
  | nil => exact .of_outcome (.refl _)
  | cons t rest ih =>
    obtain ⟨hfirst, hrest⟩ := List.forall_mem_cons.mp hconditions
    have hjoined : Resolution.Widens s s' (resolveJoined s t) (resolveJoined s' t) :=
      (t.1.resolve_widens htables).andCheck fun names => hfirst _ _ (h.add names)
    refine hjoined.andThen fun names => ?_
    exact ih (h.add names) (congrArg (· ++ names) htables) hrest

/-! ### Terms -/

/-- What resolving a term gives. A query has a scope of its own for its tables. -/
def Term.outcome (s : Scope) : Term → Except Error Unit
  | expr e => e.resolve s
  | query q => (q.resolve s.child).1

/-- An expression is resolved in a wider scope as the terms inside of it are. -/
theorem Expr.resolve_widens {e : Expr} (h : s.Within s')
    (ih : ∀ t ∈ e.terms, s.Widens s' (t.outcome s) (t.outcome s')) :
    s.Widens s' (e.resolve s) (e.resolve s') := by
  cases e with
  | unknown => exact .refl _
  | value v => exact .refl _
  | userVariable name => exact .refl _
  | column table name =>
    cases table with
    | none => exact .refl _
    | some table =>
      rw [Expr.resolve, Expr.resolve, resolveColumn, resolveColumn]
      cases hs : s.resolves table with
      | true => exact .inl (by rw [h table hs])
      | false =>
        cases hs' : s'.resolves table with
        | true => exact .inr ⟨table, hs, hs', rfl⟩
        | false => exact .refl _
  | binary operator left right negated =>
    obtain ⟨hleft, hright⟩ := List.forall_mem_cons.mp ih
    exact hleft.seq (hright _ (List.mem_singleton_self _))
  | between left start stop negated =>
    obtain ⟨hleft, hbounds⟩ := List.forall_mem_cons.mp ih
    obtain ⟨hstart, hstop⟩ := List.forall_mem_cons.mp hbounds
    exact hleft.seq (hstart.seq (hstop _ (List.mem_singleton_self _)))
  | oneOf left right negated =>
    obtain ⟨hleft, hright⟩ := List.forall_mem_cons.mp ih
    exact hleft.seq (hright _ (List.mem_singleton_self _))
  | nullTest left negated => exact ih (.expr left) (List.mem_singleton_self _)
  | existence q negated => exact ih (.query q) (List.mem_singleton_self _)
  | caseOf subject arms otherwise =>
    simp only [Expr.terms, List.forall_mem_append, forall_slotTerms, List.forall_mem_flatMap] at ih
    obtain ⟨⟨hsubject, harms⟩, hotherwise⟩ := ih
    refine (Scope.widens_slot hsubject).seq (Scope.Widens.seq ?_ (Scope.widens_slot hotherwise))
    refine Scope.widens_list (f := fun s (arm : CaseArm) => arm.resolve s) (fun _ => rfl)
      (fun _ _ _ => rfl) fun arm harm => ?_
    obtain ⟨hcondition, hresult⟩ := List.forall_mem_cons.mp (harms arm harm)
    obtain ⟨condition, result⟩ := arm
    exact hcondition.seq (hresult _ (List.mem_singleton_self _))
  | function name parameters distinct => exact Scope.widens_all (List.forall_mem_map.mp ih)
  | math operator operands => exact Scope.widens_all (List.forall_mem_map.mp ih)
  | group operator items => exact Scope.widens_all (List.forall_mem_map.mp ih)
  | query q => exact ih (.query q) (List.mem_singleton_self _)

/-- The clauses of a query are resolved in a wider scope as the expressions in them are. -/
theorem Query.resolveClauses_widens {q : Query}
    (ih : ∀ e ∈ q.clauses, s.Widens s' (e.resolve s) (e.resolve s')) :
    s.Widens s' (q.resolveClauses s) (q.resolveClauses s') := by
  simp only [clauses, List.forall_mem_append, List.forall_mem_map, List.forall_mem_flatMap] at ih
  obtain ⟨⟨⟨hcolumns, hcondition⟩, hgroup⟩, horder⟩ := ih
  have hgroupBy : s.Widens s' (resolveGroupBy? s q.groupBy) (resolveGroupBy? s' q.groupBy) := by
    cases hg : q.groupBy with
    | none => exact .refl _
    | some g =>
      rw [hg, Option.toList_some] at hgroup
      obtain ⟨hexpressions, hhaving⟩ := List.forall_mem_singleton.mp hgroup
      obtain ⟨expressions, having⟩ := g
      exact (Scope.widens_all hexpressions).seq (Scope.widens_slot hhaving)
  refine Scope.Widens.seq ?_ ((Scope.widens_slot hcondition).seq (hgroupBy.seq ?_))
  · refine Scope.widens_list (f := fun s (c : ResultColumn) => c.resolve s) (fun _ => rfl)
      (fun _ _ _ => rfl) fun c hc => ?_
    obtain ⟨expression, label⟩ := c
    exact hcolumns _ hc
  · refine Scope.widens_list (f := fun s (o : OrderBy) => o.resolve s) (fun _ => rfl)
      (fun _ _ _ => rfl) fun o ho => ?_
    obtain ⟨expression, direction⟩ := o
    exact horder _ ho

/-- A term is resolved alike in a scope and in a wider one, unless a table is missed that only the
wider one sees. -/
theorem Term.outcome_widens (t : Term) (h : s.Within s') :
    s.Widens s' (t.outcome s) (t.outcome s') := by
  induction t using Term.inner_induction generalizing s s' with
  | step t ih =>
    cases t with
    | expr e => exact Expr.resolve_widens h fun t ht => ih t ht h
    | query q =>
      have hjoined : Resolution.Widens s.child s'.child (resolveAllJoined s.child q.joined)
          (resolveAllJoined s'.child q.joined) := by
        refine resolveAllJoined_widens h.child rfl fun t ht u u' hu => ?_
        refine Scope.widens_slot fun e he => ih (.expr e) (Query.mem_terms.mpr (.inl ?_)) hu
        have hslot : ∀ t' ∈ slotTerms t.2, t' ∈ joinedTerms t := fun t' => List.mem_append_right _
        exact List.mem_flatMap.mpr ⟨t, ht, forall_slotTerms.mp hslot e he⟩
      rw [outcome, outcome, q.resolve_eq, q.resolve_eq]
      refine Scope.Widens.of_child (hjoined.andCheck fun names => ?_).fst
      refine Query.resolveClauses_widens fun e he => ?_
      exact ih (.expr e) (Query.mem_terms.mpr (.inr ⟨e, he, rfl⟩)) (h.child.add names)

/-- An expression is resolved by the visible names. If a scope sees every name that another sees, an
expression that resolves in the other resolves in it, and the two outcomes differ only if a table is
unknown in the other which the first one sees. Hence in two scopes that see the same names the
outcome is the same, the error included, however the names are divided into those from outside and
those of the query, and in whatever order and how often they come. -/
theorem Expr.resolve_by_visible_names (e : Expr) (s s' : Scope) :
    ((∀ name, s.resolves name = true → s'.resolves name = true) →
      (e.resolve s = .ok () → e.resolve s' = .ok ()) ∧
        (e.resolve s' = e.resolve s ∨ ∃ table, s.resolves table = false ∧
          s'.resolves table = true ∧ e.resolve s = .error (.unknownTable table))) ∧
      ((∀ name, s.resolves name = s'.resolves name) → e.resolve s = e.resolve s') := by
  constructor
  · intro h
    have hwidens : s.Widens s' (e.resolve s) (e.resolve s') := Term.outcome_widens (.expr e) h
    refine ⟨fun hok => ?_, hwidens⟩
    rcases hwidens with heq | ⟨table, -, -, herror⟩
    · exact heq.trans hok
    · exact nomatch hok.symm.trans herror
  · intro h
    have hwithin : s.Within s' := fun name hname => (h name).symm.trans hname
    rcases Term.outcome_widens (.expr e) hwithin with heq | ⟨table, hnot, hsees, -⟩
    · exact heq.symm
    · exact absurd (hnot.symm.trans ((h table).trans hsees)) Bool.false_ne_true

/-- A query that joins its table `c` to the table `s` around it. -/
def correlatedCondition (table : String) : Expr :=
  .existence ⟨false, [], [⟨.named "c", []⟩],
    some (.binary "=" (.ofTableColumn "c" "student") (.ofTableColumn table "id") false), none, [],
    none⟩ false

/-- The theorem at a query that refers to a table around it: it resolves if the table `s` is a table
of the query around it, and also if `s` comes from further outside and comes twice; and if `t` is
not visible, the error is the same. The narrower scope `⟨[], []⟩` does not see `s`. -/
theorem resolve_by_visible_names_correlated :
    (correlatedCondition "s").resolve ⟨[], ["s"]⟩ = .ok () ∧
      (correlatedCondition "s").resolve ⟨["s", "c", "s"], ["c"]⟩ = .ok () ∧
      (correlatedCondition "t").resolve ⟨["s"], ["s"]⟩ =
        (correlatedCondition "t").resolve ⟨[], ["s"]⟩ ∧
      (correlatedCondition "t").resolve ⟨[], ["s"]⟩ = .error (.unknownTable "t") ∧
      (correlatedCondition "s").resolve ⟨[], []⟩ = .error (.unknownTable "s") := by
  have hwider : ∀ name, (Scope.mk [] ["s"]).resolves name = true →
      (Scope.mk ["s", "c", "s"] ["c"]).resolves name = true := by
    intro name
    simp only [Scope.resolves_iff, List.mem_cons]
    grind
  have hsame : ∀ name,
      (Scope.mk ["s"] ["s"]).resolves name = (Scope.mk [] ["s"]).resolves name := by
    intro name
    simp [Scope.resolves]
  obtain ⟨hwiden, -⟩ :=
    Expr.resolve_by_visible_names (correlatedCondition "s") ⟨[], ["s"]⟩ ⟨["s", "c", "s"], ["c"]⟩
  obtain ⟨-, hequal⟩ := Expr.resolve_by_visible_names (correlatedCondition "t") ⟨["s"], ["s"]⟩
    ⟨[], ["s"]⟩
  exact ⟨rfl, (hwiden hwider).1 rfl, hequal hsame, rfl, rfl⟩

end SqlTree
