import SqlTree.Node.Rules

/-!
# Combining conditions

Conditions that are given one after another all have to hold. They are kept as one flat `AND`
group: the first condition stays as it is, and each further one is appended to the group of those
before it.

## Main definitions

* `Expr.conjoin`, `Expr.conjoinAll`: one more condition, and a list of them.
* `JoinClause.ofConditions`: a join with a list of conditions.
-/

namespace SqlTree

namespace Expr

/-- The items of an `AND` group, or the expression itself as the only item. -/
def conjuncts : Expr → List Expr
  | group .and items => items
  | e => [e]

/-- An existing condition and one more. -/
def conjoin : Option Expr → Expr → Expr
  | none, next => next
  | some existing, next => .group .and (existing.conjuncts ++ [next])

/-- The condition that results from giving conditions one after another. -/
def conjoinAll (conditions : List Expr) : Option Expr :=
  conditions.foldl (fun acc c => some (conjoin acc c)) none

end Expr

namespace JoinClause

/-- A join that has to satisfy a list of conditions, several of them as one `AND` group. -/
def ofConditions (operator : JoinOperator) (table : Table) (conditions : List Expr) :
    Except Error JoinClause := do
  operator.check !conditions.isEmpty
  let condition := match conditions with
    | [] => none
    | [c] => some c
    | cs => some (.group .and cs)
  return { operator, table, condition }

/-- A cross join. -/
def cross (table : Table) : JoinClause := ⟨.cross, table, none⟩

end JoinClause

end SqlTree
