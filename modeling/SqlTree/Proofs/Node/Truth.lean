import Mathlib.Order.Lattice
import SqlTree.Node.Basic

/-!
# Truth values of conditions

In SQL a condition is true, false or neither. A group of conditions has the least of their truth
values if it is joined by `AND` and the greatest if it is joined by `OR`, so that the empty group is
true or false. Any truth values may be given to the conditions that are no groups.

## Main definitions

* `Truth`: the three truth values in their order.
* `Expr.truth`: the truth value of a condition.

## Main results

* `leastTruth_eq`, `leastTruth_append`: the truth value of an `AND` group by its items.
-/

namespace SqlTree

/-- A truth value, of which `unknown` is neither true nor false. -/
inductive Truth where
  | no
  | unknown
  | yes
deriving DecidableEq

namespace Truth

/-- The place of a truth value in their order. -/
def rank : Truth → Nat
  | no => 0
  | unknown => 1
  | yes => 2

theorem rank_injective : Function.Injective rank := by
  intro a b h
  cases a <;> cases b <;> simp_all [rank]

instance : LinearOrder Truth := LinearOrder.lift' rank rank_injective

theorem le_yes (t : Truth) : t ≤ yes := by
  cases t <;> decide

end Truth

mutual

/-- The truth value of a condition, `atom` being those of the conditions that are no groups. -/
def Expr.truth (atom : Expr → Truth) : Expr → Truth
  | .group .and items => leastTruth atom items
  | .group .or items => greatestTruth atom items
  | e => atom e

/-- The least truth value of some conditions. -/
def leastTruth (atom : Expr → Truth) : List Expr → Truth
  | [] => .yes
  | e :: rest => min (e.truth atom) (leastTruth atom rest)

/-- The greatest truth value of some conditions. -/
def greatestTruth (atom : Expr → Truth) : List Expr → Truth
  | [] => .no
  | e :: rest => max (e.truth atom) (greatestTruth atom rest)

end

variable (atom : Expr → Truth)

theorem truth_and (items : List Expr) :
    (Expr.group .and items).truth atom = leastTruth atom items := by
  rw [Expr.truth]

theorem leastTruth_cons (e : Expr) (rest : List Expr) :
    leastTruth atom (e :: rest) = min (e.truth atom) (leastTruth atom rest) := by
  rw [leastTruth]

theorem leastTruth_eq (items : List Expr) :
    leastTruth atom items = (items.map (Expr.truth atom)).foldr min .yes := by
  induction items with
  | nil => rw [leastTruth]; rfl
  | cons e rest ih => rw [leastTruth, ih]; rfl

theorem leastTruth_append (items more : List Expr) :
    leastTruth atom (items ++ more) = min (leastTruth atom items) (leastTruth atom more) := by
  induction items with
  | nil => rw [List.nil_append, leastTruth, min_eq_right (Truth.le_yes _)]
  | cons e rest ih => rw [List.cons_append, leastTruth_cons, leastTruth_cons, ih, min_assoc]

end SqlTree
