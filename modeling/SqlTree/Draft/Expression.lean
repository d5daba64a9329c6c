import SqlTree.Draft.Basic
import SqlTree.Node.Rules

/-!
# Building other expressions

Choices, function calls, arithmetic and groups are started empty and get their parts appended in
order. Only the operator of arithmetic and the name of a function are checked, at the start.

## Main definitions

* `CaseDraft`, `FunctionDraft`, `MathDraft`, `GroupDraft`, each with its steps and `toExpr`.
* `Expr.negate`, `Expr.membership`: the opposite of a test, and a checked membership test.
-/

namespace SqlTree

/-- The opposite of a test; other expressions stay as they are. -/
def Expr.negate : Expr → Expr
  | .between left start stop negated => .between left start stop !negated
  | .oneOf left right negated => .oneOf left right !negated
  | .nullTest left negated => .nullTest left !negated
  | .existence q negated => .existence q !negated
  | e => e

/-- A membership test. -/
def Expr.membership (left right : Expr) : Except Error Expr := do
  checkList right
  return .oneOf left right false

/-! ### Choices -/

/-- A choice between results under construction. -/
structure CaseDraft where
  subject : Option Expr
  arms : List CaseArm
  otherwise : Option Expr

namespace CaseDraft

/-- The choice without parts. -/
def start : CaseDraft := ⟨none, [], none⟩

/-- The expression as it is so far. -/
def toExpr (c : CaseDraft) : Expr := .caseOf c.subject c.arms c.otherwise

/-- A step of the construction. -/
inductive Step where
  | subject (e : Expr)
  | arm (condition result : Expr)
  | otherwise (e : Expr)

/-- Performs a step. -/
def step : Step → CaseDraft → CaseDraft
  | .subject e, c => { c with subject := some e }
  | .arm condition result, c => { c with arms := c.arms ++ [⟨condition, result⟩] }
  | .otherwise e, c => { c with otherwise := some e }

end CaseDraft

/-! ### Function calls -/

/-- A function call under construction. -/
structure FunctionDraft where
  name : String
  parameters : List Expr
  distinct : Bool

namespace FunctionDraft

/-- Starts from a name in whatever case. -/
def start (name : String) : Except Error FunctionDraft := do
  return ⟨← normalizeFunctionName name, [], false⟩

/-- The expression as it is so far. -/
def toExpr (c : FunctionDraft) : Expr := .function c.name c.parameters c.distinct

/-- A step of the construction. -/
inductive Step where
  | parameter (e : Expr)
  | distinct (distinct : Bool)

/-- Performs a step. -/
def step : Step → FunctionDraft → FunctionDraft
  | .parameter e, c => { c with parameters := c.parameters ++ [e] }
  | .distinct b, c => { c with distinct := b }

end FunctionDraft

/-- A call of a function with all its parameters. -/
def Expr.call (name : String) (parameters : List Expr) : Except Error Expr := do
  let c ← FunctionDraft.start name
  return { c with parameters }.toExpr

/-! ### Arithmetic -/

/-- An arithmetic expression under construction. -/
structure MathDraft where
  operator : String
  operands : List Expr

namespace MathDraft

/-- Starts from an operator in whatever case. -/
def start (operator : String) : Except Error MathDraft := do
  return ⟨← normalizeMathOperator operator, []⟩

/-- The expression as it is so far. -/
def toExpr (m : MathDraft) : Expr := .math m.operator m.operands

/-- Appends an operand. -/
def addOperand (e : Expr) (m : MathDraft) : MathDraft := { m with operands := m.operands ++ [e] }

end MathDraft

/-- An arithmetic expression with all its operands. -/
def Expr.arithmetic (operator : String) (operands : List Expr) : Except Error Expr := do
  let m ← MathDraft.start operator
  return { m with operands }.toExpr

/-! ### Groups -/

/-- A group of conditions under construction. -/
structure GroupDraft where
  operator : GroupOperator
  items : List Expr

namespace GroupDraft

/-- The group without items. -/
def start (operator : GroupOperator) : GroupDraft := ⟨operator, []⟩

/-- The expression as it is so far. -/
def toExpr (g : GroupDraft) : Expr := .group g.operator g.items

/-- Appends an item. -/
def addItem (e : Expr) (g : GroupDraft) : GroupDraft := { g with items := g.items ++ [e] }

end GroupDraft

end SqlTree
