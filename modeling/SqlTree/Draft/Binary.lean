import SqlTree.Draft.Basic
import SqlTree.Node.Rules

/-!
# Building binary expressions

A binary expression is started from its operator, which the dialect must accept. Its operands are
set one by one, in any order and as often as wanted; what does not fit the operator is refused. The
right side of `IS` is null from the start and cannot be set.

## Main definitions

* `BinaryDraft`, `BinaryDraft.start`, `BinaryDraft.toExpr`.
* `BinaryDraft.Step`, `BinaryDraft.perform`, `BinaryDraft.step`.
* `Expr.comparison`: a complete binary expression in the default dialect.
-/

namespace SqlTree

/-- A binary expression under construction. -/
structure BinaryDraft where
  operator : String
  left : Expr
  right : Expr
  negated : Bool

namespace BinaryDraft

/-- The expression as it is so far. -/
def toExpr (b : BinaryDraft) : Expr := .binary b.operator b.left b.right b.negated

/-- Starts from an operator in whatever case. -/
def start (d : Dialect) (operator : String) : Except Error BinaryDraft := do
  let operator ← normalizeOperator d operator
  return ⟨operator, .unknown, if operator = "IS" then .value .null else .unknown, false⟩

/-- Sets the left operand. -/
def setLeft (e : Expr) : Edit BinaryDraft Unit := do
  let b ← get
  checkLeftOperand b.operator e
  set { b with left := e }

/-- Sets the right operand. -/
def setRight (e : Expr) : Edit BinaryDraft Unit := do
  let b ← get
  if b.operator = "IS" then throw (.invalidOperand "IS" .nullOnRight)
  checkRightOperand b.operator e
  set { b with right := e }

/-- Sets whether the operator is negated. -/
def setNegated (negated : Bool) : Edit BinaryDraft Unit := do
  let b ← get
  checkNegation b.operator negated
  set { b with negated }

/-- A step of the construction. -/
inductive Step where
  | left (e : Expr)
  | right (e : Expr)
  | negated (negated : Bool)

/-- Performs a step. -/
def perform : Step → Edit BinaryDraft Unit
  | .left e => setLeft e
  | .right e => setRight e
  | .negated n => setNegated n

/-- The expression under construction after a step that succeeds. -/
def step (s : Step) : BinaryDraft → Except Error BinaryDraft := (perform s).result

end BinaryDraft

/-- A complete expression that is not negated, in the default dialect. The right operand of `IS` is
not looked at. -/
def Expr.comparison (operator : String) (left right : Expr) : Except Error Expr := do
  let b ← BinaryDraft.start .mySQL operator
  let b ← b.step (.left left)
  let b ← if b.operator = "IS" then pure b else b.step (.right right)
  return b.toExpr

end SqlTree
