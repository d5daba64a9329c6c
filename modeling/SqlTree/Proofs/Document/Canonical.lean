import SqlTree.Node.Check
import SqlTree.Proofs.Node.Parts

/-!
# Canonical nodes

Reviving a document leaves no trace of the form in which it was written: operators and names of
functions get their kept spelling, the right side of `IS` is null, a primary key is not null and has
no default, and what is checked at once has been checked. A node in this form is canonical. It need
not be finished, since slots may be unset and lists empty, but an expression that is not set stands
in slots only, never in a list or where an expression may be left out.

## Main definitions

* `Node.CanonicalAt`: the node itself is in canonical form, whatever its parts are.
* `Node.Canonical`: the node and everything in it is.
-/

namespace SqlTree

/-- The canonical form of an expression, apart from its parts. -/
def Expr.CanonicalAt (d : Dialect) : Expr → Prop
  | .binary operator left right negated =>
    operator ∈ d.operators ∧ (operator = "IS" → right = .value .null) ∧
      checkLeftOperand operator left = .ok () ∧ checkRightOperand operator right = .ok () ∧
      checkNegation operator negated = .ok ()
  | .oneOf _ right _ => checkList right = .ok ()
  | .caseOf subject _ otherwise => subject ≠ some .unknown ∧ otherwise ≠ some .unknown
  | .function name parameters _ =>
    normalizeFunctionName name = .ok name ∧ .unknown ∉ parameters
  | .math operator operands => operator ∈ mathOperators ∧ .unknown ∉ operands
  | .group _ items => .unknown ∉ items
  | .query q => q.condition ≠ some .unknown
  | _ => True

/-- The canonical form of a table, apart from its parts. -/
def Table.CanonicalAt : Table → Prop
  | .schema t => t.check = .ok ()
  | .query _ label => requireLabel .queryTable label = .ok ()
  | .remote config _ label => config.isNull = false ∧ requireLabel .remoteTable label = .ok ()

/-- The canonical form of a statement, apart from its parts. -/
def Statement.CanonicalAt : Statement → Prop
  | .query q => q.condition ≠ some .unknown
  | .insertion i => i.checkArity = .ok () ∧ .expr .unknown ∉ i.source.parts
  | .update u => u.condition ≠ some .unknown
  | .deletion d => d.condition ≠ some .unknown
  | .createTable t => t.checkDefinitions = .ok ()
  | _ => True

namespace Node

/-- The canonical form of a node, apart from its parts. -/
def CanonicalAt (d : Dialect) : Node → Prop
  | expr e => e.CanonicalAt d
  | table t => t.CanonicalAt
  | joinClause j => j.operator.check j.condition.isSome = .ok () ∧ j.condition ≠ some .unknown
  | columnDef c => c.primaryKey = true → c.notNull = true ∧ c.defaultValue = .null
  | groupBy g => .unknown ∉ g.expressions ∧ g.having ≠ some .unknown
  | statement s => s.CanonicalAt
  | _ => True

/-- A node is in canonical form, and so is everything in it. -/
def Canonical (d : Dialect) (n : Node) : Prop := n.Throughout (CanonicalAt d)

end Node

end SqlTree
