import SqlTree.Draft.Change
import SqlTree.Draft.Query
import SqlTree.Proofs.Draft.Steps
import SqlTree.Proofs.Node.Completeness
import SqlTree.Proofs.Node.Truth

/-!
# Conditions given one after another

The conditions that a query, an update or a deletion is given one after another, among any other
steps, become one condition. A single one stays as it is, and several become the items of one `AND`
group; if the first is such a group itself, then its items take its place. This changes no meaning,
since `AND` asks the same of the items of a group as of the group.

But a group without items, which no check passes, has nothing to put in its place. So it is gone
when another condition follows it, and the check of the outcome does not see that it was there.

## Main definitions

* `Expr.Combined`: conditions as one condition.
* `Expr.BuiltFrom`: what queries, updates and deletions make of conditions.

## Main results

* `Expr.Combined.truth_eq`: combined conditions are true as far as each of them is.
* `Expr.Combined.check_eq_ok`: combined conditions pass their check if each of them does, and only
  then, unless the first is a group without items.
* `Expr.conditions_combined`, `Expr.check_built_iff`: both for the conditions that are built.
-/

namespace SqlTree

/-! ### The conditions among other steps -/

/-- The conditions on rows that a query is given. -/
def Query.conditionsOf (steps : List Query.Step) : List Expr :=
  steps.filterMap fun
    | .condition e => some e
    | _ => none

/-- The conditions on groups that steps give. -/
def Query.havingsOf (steps : List Query.Step) : List Expr :=
  steps.filterMap fun
    | .having e => some e
    | _ => none

/-- The conditions on groups that a query is given after it has been grouped. -/
def Query.acceptedHavings : List Query.Step → List Expr
  | [] => []
  | .groupBy _ :: steps => havingsOf steps
  | _ :: steps => acceptedHavings steps

/-- The conditions that an update is given. -/
def Update.conditionsOf (steps : List Update.Step) : List Expr :=
  steps.filterMap fun
    | .condition e => some e
    | _ => none

/-- The conditions that a deletion is given. -/
def Deletion.conditionsOf (steps : List Deletion.Step) : List Expr :=
  steps.filterMap fun
    | .condition e => some e
    | _ => none

namespace Expr

variable {c built : Expr} {rest : List Expr}

/-- A condition `c` and further ones as one condition. -/
inductive Combined : Expr → List Expr → Expr → Prop
  /-- A single condition stays as it is. -/
  | single (c : Expr) : Combined c [] c
  /-- The further conditions extend an `AND` group. -/
  | extended (items : List Expr) {rest : List Expr} (h : rest ≠ []) :
      Combined (group .and items) rest (group .and (items ++ rest))
  /-- Any other condition is the first item of an `AND` group. -/
  | grouped {c : Expr} {rest : List Expr} (hc : ∀ items, c ≠ group .and items) (h : rest ≠ []) :
      Combined c rest (group .and (c :: rest))

/-- The condition that queries, for their rows and for their groups, updates and deletions have in
the end if they are given conditions one after another, among any other steps. -/
structure BuiltFrom (conditions : List Expr) (built : Expr) : Prop where
  query : ∀ steps, Query.conditionsOf steps = conditions →
    (runSteps Query.perform steps .empty).condition = some built
  having : ∀ steps, Query.acceptedHavings steps = conditions →
    (runSteps Query.perform steps .empty).groupBy.bind GroupBy.having = some built
  update : ∀ name steps, Update.conditionsOf steps = conditions →
    (steps.foldl (fun u s => Update.step s u) (.of name)).condition = some built
  deletion : ∀ name steps, Deletion.conditionsOf steps = conditions →
    (steps.foldl (fun d s => Deletion.step s d) (.of name)).condition = some built

/-! ### What is built -/

/-- An `AND` group takes further conditions as its last items. -/
theorem foldl_conjoin_group (items rest : List Expr) :
    rest.foldl (fun acc c => some (conjoin acc c)) (some (group .and items)) =
      some (group .and (items ++ rest)) := by
  induction rest generalizing items with
  | nil => rw [List.append_nil]; rfl
  | cons c rest ih =>
    rw [List.foldl_cons, conjoin, conjuncts, ih, List.append_assoc, List.singleton_append]

theorem conjoinAll_cons (c : Expr) (rest : List Expr) :
    ∃ built, Combined c rest built ∧ conjoinAll (c :: rest) = some built := by
  cases rest with
  | nil => exact ⟨c, .single c, rfl⟩
  | cons next rest =>
    have hbuilt : conjoinAll (c :: next :: rest) =
        some (group .and (c.conjuncts ++ next :: rest)) := by
      rw [conjoinAll, List.foldl_cons, List.foldl_cons, conjoin, conjoin, foldl_conjoin_group,
        List.append_assoc, List.singleton_append]
    refine ⟨_, ?_, hbuilt⟩
    rw [conjuncts.eq_def]
    split
    · next items => exact .extended items (List.cons_ne_nil _ _)
    · next hc => exact .grouped hc (List.cons_ne_nil _ _)

/-- If a step adds the condition that it gives and no other step adds one, then what steps add is
what all the conditions that they give become together. -/
theorem foldl_conditions {σ α : Type} {next : α → σ → α} {given : σ → Option Expr}
    {P : α → Option Expr → Prop}
    (hsome : ∀ a s acc c, given s = some c → P a acc → P (next a s) (some (conjoin acc c)))
    (hnone : ∀ a s acc, given s = none → P a acc → P (next a s) acc) (steps : List σ) {a : α}
    {acc : Option Expr} (h : P a acc) :
    P (steps.foldl next a)
      ((steps.filterMap given).foldl (fun acc c => some (conjoin acc c)) acc) := by
  induction steps generalizing a acc with
  | nil => exact h
  | cons s steps ih =>
    rw [List.foldl_cons, List.filterMap_cons]
    cases hs : given s with
    | none => exact ih (hnone a s acc hs h)
    | some c => exact ih (hsome a s acc c hs h)

end Expr

namespace Query

/-- A step looks for a grouping before it changes anything. -/
theorem steady (s : Step) : (perform s).Steady := by
  cases s with
  | having e =>
    refine .get fun q => ?_
    split
    · exact .throw _
    · exact .set _
  | _ => exact .modify _

theorem leaves_eq (s : Step) (q : Query) : (perform s).leaves q = attempt q (q.step s) :=
  (steady s).leaves_eq q

/-- A condition on groups is refused unless there is a grouping. -/
theorem step_having (e : Expr) (q : Query) :
    q.step (.having e) =
      match q.groupBy with
      | none => .error (.missingField Kind.query.tag "groupBy")
      | some g =>
        .ok { q with groupBy := some { g with having := some (Expr.conjoin g.having e) } } := by
  rw [step, perform, addHaving, Edit.result_get]
  cases q.groupBy <;> rfl

theorem condition_runSteps (steps : List Step) :
    (runSteps Query.perform steps .empty).condition = Expr.conjoinAll (conditionsOf steps) := by
  refine Expr.foldl_conditions (P := fun (q : Query) acc => q.condition = acc) ?_ ?_ steps rfl
  · rintro q s acc c hs rfl
    cases s <;> cases hs
    rfl
  · rintro q s acc hs rfl
    cases s with
    | condition e => cases hs
    | having e =>
      rw [leaves_eq, step_having]
      cases q.groupBy <;> rfl
    | _ => rfl

/-- Once a query is grouped, it takes every further condition on groups. -/
theorem having_of_grouped (steps : List Step) {q : Query} {g : GroupBy} (h : q.groupBy = some g) :
    (runSteps Query.perform steps q).groupBy.bind GroupBy.having =
      (havingsOf steps).foldl (fun acc c => some (Expr.conjoin acc c)) g.having := by
  suffices hgroup : ∃ g', (runSteps Query.perform steps q).groupBy = some g' ∧
      g'.having = (havingsOf steps).foldl (fun acc c => some (Expr.conjoin acc c)) g.having by
    obtain ⟨g', hg', hhaving⟩ := hgroup
    rw [hg', Option.bind_some, hhaving]
  refine Expr.foldl_conditions
    (P := fun (q : Query) acc => ∃ g', q.groupBy = some g' ∧ g'.having = acc) ?_ ?_ steps
    ⟨g, h, rfl⟩
  · rintro q s acc c hs ⟨g', hg', rfl⟩
    cases s <;> cases hs
    rw [leaves_eq, step_having, hg']
    exact ⟨_, rfl, rfl⟩
  · rintro q s acc hs ⟨g', hg', rfl⟩
    cases s with
    | having e => cases hs
    | groupBy es =>
      refine ⟨_, rfl, ?_⟩
      rw [hg']
      rfl
    | _ => exact ⟨g', hg', rfl⟩

/-- Before a query is grouped, it refuses conditions on groups. -/
theorem having_runSteps (steps : List Step) {q : Query} (h : q.groupBy = none) :
    (runSteps Query.perform steps q).groupBy.bind GroupBy.having =
      Expr.conjoinAll (acceptedHavings steps) := by
  induction steps generalizing q with
  | nil => rw [runSteps_nil, h]; rfl
  | cons s steps ih =>
    rw [runSteps_cons]
    cases s with
    | groupBy es =>
      refine having_of_grouped steps (q := q.addGrouping es) (g := ⟨es, none⟩) ?_
      rw [addGrouping, h]
      rfl
    | having e =>
      rw [leaves_eq, step_having, h]
      exact ih h
    | _ => exact ih h

end Query

theorem Update.condition_foldl (name : String) (steps : List Update.Step) :
    (steps.foldl (fun u s => Update.step s u) (.of name)).condition =
      Expr.conjoinAll (Update.conditionsOf steps) := by
  refine Expr.foldl_conditions (P := fun (u : Update) acc => u.condition = acc) ?_ ?_ steps rfl
  · rintro u s acc c hs rfl
    cases s <;> cases hs
    rfl
  · rintro u s acc hs rfl
    cases s with
    | condition e => cases hs
    | _ => rfl

theorem Deletion.condition_foldl (name : String) (steps : List Deletion.Step) :
    (steps.foldl (fun d s => Deletion.step s d) (.of name)).condition =
      Expr.conjoinAll (Deletion.conditionsOf steps) := by
  refine Expr.foldl_conditions (P := fun (d : Deletion) acc => d.condition = acc) ?_ ?_ steps rfl
  · rintro d s acc c hs rfl
    cases s <;> cases hs
    rfl
  · rintro d s acc hs rfl
    cases s with
    | condition e => cases hs
    | _ => rfl

namespace Expr

variable {c built : Expr} {rest : List Expr}

theorem builtFrom_of_conjoinAll {conditions : List Expr} (h : conjoinAll conditions = some built) :
    BuiltFrom conditions built where
  query steps hs := by rw [Query.condition_runSteps, hs, h]
  having steps hs := by rw [Query.having_runSteps steps rfl, hs, h]
  update name steps hs := by rw [Update.condition_foldl, hs, h]
  deletion name steps hs := by rw [Deletion.condition_foldl, hs, h]

/-! ### What combined conditions mean -/

theorem Combined.truth_eq (h : Combined c rest built) (atom : Expr → Truth) :
    built.truth atom = leastTruth atom (c :: rest) := by
  cases h with
  | single => rw [leastTruth_cons, leastTruth, min_eq_left (Truth.le_yes _)]
  | extended items => rw [truth_and, leastTruth_append, leastTruth_cons, truth_and]
  | grouped => rw [truth_and]

/-! ### When combined conditions are finished -/

theorem check_group {operator : GroupOperator} {items : List Expr} :
    (group operator items).check = .ok () ↔ items ≠ [] ∧ ∀ e ∈ items, e.check = .ok () := by
  rw [check, guard_eq_ok, checkSlots_eq_ok, isEmpty_iff_ne]

theorem Combined.check_eq_ok (h : Combined c rest built) :
    built.check = .ok () ↔ (∀ e ∈ c :: rest, e.check = .ok ()) ∨
      c = group .and [] ∧ rest ≠ [] ∧ ∀ e ∈ rest, e.check = .ok () := by
  cases h with
  | single => simp
  | extended items hrest =>
    have hne : items ++ rest ≠ [] := List.append_ne_nil_of_right_ne_nil items hrest
    rw [check_group, and_iff_right hne, List.forall_mem_append, List.forall_mem_cons, check_group]
    by_cases hitems : items = []
    · subst hitems
      simp [hrest]
    · simp [hitems]
  | grouped hc hrest =>
    rw [check_group, and_iff_right (List.cons_ne_nil _ _)]
    exact (or_iff_left fun h => hc [] h.1).symm

/-! ### What steps build -/

/-- The conditions that queries, updates and deletions are given one after another become one
condition. A single one is kept. Several are the items of an `AND` group, unchanged and in their
order, where the items of the first stand for it if it is an `AND` group itself. Whatever the truth
values of the conditions in it that are no groups, the outcome is true as far as all of the given
conditions are. -/
theorem conditions_combined (c : Expr) (rest : List Expr) :
    ∃ built, BuiltFrom (c :: rest) built ∧ Combined c rest built ∧
      ∀ atom, built.truth atom = ((c :: rest).map (truth atom)).foldr min .yes := by
  obtain ⟨built, hcombined, hbuilt⟩ := conjoinAll_cons c rest
  refine ⟨built, builtFrom_of_conjoinAll hbuilt, hcombined, fun atom => ?_⟩
  rw [hcombined.truth_eq, leastTruth_eq]

/-- A query of students that is given three conditions on its rows, and two on its groups of which
the first comes too early. -/
theorem conditions_combined_student :
    let named : Expr := .nullTest (.ofColumn "name") true
    let adult : Expr := .group .or [.ofColumn "adult", .nullTest (.ofColumn "age") false]
    let both : Expr := .group .and [named, adult]
    let steps : List Query.Step := [
      .having named, .condition both, .source (.ofTable (.named "student")), .condition adult,
      .groupBy [.ofColumn "class"], .having adult, .condition both]
    let atom : Expr → Truth
      | .nullTest .. => .unknown
      | _ => .no
    let q := runSteps Query.perform steps .empty
    Query.conditionsOf steps = [both, adult, both] ∧
      q.condition = some (.group .and [named, adult, adult, both]) ∧
      Combined both [adult, both] (.group .and [named, adult, adult, both]) ∧
      (Expr.group .and [named, adult, adult, both]).truth atom = .unknown ∧
      Query.acceptedHavings steps = [adult] ∧ q.groupBy.bind GroupBy.having = some adult := by
  intro named adult both steps atom q
  obtain ⟨built, hbuilt, hcombined, htruth⟩ := conditions_combined both [adult, both]
  obtain rfl : Expr.group .and [named, adult, adult, both] = built :=
    Option.some.inj (hbuilt.query steps rfl)
  obtain ⟨having, hhaving, -⟩ := conditions_combined adult []
  obtain rfl : adult = having := Option.some.inj (hhaving.having steps rfl)
  exact ⟨rfl, hbuilt.query steps rfl, hcombined, htruth atom, rfl, hhaving.having steps rfl⟩

/-- The condition that is built of conditions passes its check if each of these does. The converse
has one exception: a first condition that is an `AND` group without items does not pass its check,
but it is gone as soon as another condition follows, so that only the others count. -/
theorem check_built_iff (c : Expr) (rest : List Expr) :
    ∃ built, BuiltFrom (c :: rest) built ∧ ∀ kind slot,
      (checkSlot kind slot built built.check = .ok () ↔
        (∀ e ∈ c :: rest, checkSlot kind slot e e.check = .ok ()) ∨
        c = group .and [] ∧ rest ≠ [] ∧ ∀ e ∈ rest, checkSlot kind slot e e.check = .ok ()) := by
  obtain ⟨built, hcombined, hbuilt⟩ := conjoinAll_cons c rest
  refine ⟨built, builtFrom_of_conjoinAll hbuilt, fun kind slot => ?_⟩
  simp only [checkSlot_eq_ok]
  exact hcombined.check_eq_ok

/-- A deletion of students that is given a group without conditions, which would not pass its check,
and a condition. It passes its check with the condition alone. -/
theorem check_built_iff_student :
    let empty : Expr := .group .and []
    let left : Expr := .nullTest (.ofColumn "class") false
    let steps : List Deletion.Step := [.condition empty, .database "school", .condition left]
    let d := steps.foldl (fun d s => Deletion.step s d) (.of "student")
    Deletion.conditionsOf steps = [empty, left] ∧
      empty.check = .error (.incomplete Kind.group.tag .groupedExpressions) ∧
      d = ⟨some "school", "student", some (.group .and [left])⟩ ∧
      checkSlot .deletion "WHERE" (.group .and [left]) (Expr.group .and [left]).check = .ok () ∧
      d.check = .ok () := by
  intro empty left steps d
  obtain ⟨built, hbuilt, hcheck⟩ := check_built_iff empty [left]
  obtain rfl : Expr.group .and [left] = built :=
    Option.some.inj (hbuilt.deletion "student" steps rfl)
  refine ⟨rfl, rfl, rfl, (hcheck .deletion "WHERE").mpr (.inr ⟨rfl, List.cons_ne_nil _ _, ?_⟩), rfl⟩
  intro e he
  obtain rfl := List.mem_singleton.mp he
  rfl

end Expr

end SqlTree
