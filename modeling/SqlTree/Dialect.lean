import SqlTree.Json.Basic

/-!
# Dialects and operators

A dialect is a set of accepted binary operators; the SQL text of a tree does not depend on it.
Operators are compared without regard to the case of ASCII letters and kept in upper case.

## Main definitions

* `Dialect`, `Dialect.operators`, `Dialect.supports`.
* `mathOperators`, `negatableOperators`.
* `GroupOperator`, `JoinOperator`, `SortDirection`: the closed choices of a tree, each with its
  text, the reading of that text, and the reading that ignores case.
-/

namespace SqlTree

/-- A family of SQL engines. -/
inductive Dialect where
  | mySQL
  | postgreSQL
deriving DecidableEq, Inhabited

/-- The operators of arithmetic. -/
def mathOperators : List String := ["+", "-", "*", "/", "%", "DIV", "MOD"]

/-- The binary operators that may be negated. -/
def negatableOperators : List String := ["IS", "IN", "LIKE", "ILIKE", "REGEXP"]

/-- Whether two texts agree up to the case of ASCII letters. -/
def sameLetters (a b : String) : Bool := a.toUpper == b.toUpper

namespace Dialect

/-- The name of a dialect. -/
def name : Dialect → String
  | mySQL => "MySQL"
  | postgreSQL => "PostgreSQL"

/-- The dialect with a given name. -/
def ofName? (s : String) : Option Dialect :=
  [mySQL, postgreSQL].find? fun d => d.name == s

/-- The binary operators that a dialect accepts, in upper case. -/
def operators : Dialect → List String
  | mySQL => ["=", "<>", "<", "<=", ">", ">=", ":=", "IN", "IS", "LIKE", "REGEXP"]
  | postgreSQL => ["=", "<>", "<", "<=", ">", ">=", "IN", "IS", "LIKE", "ILIKE"]

/-- Whether a dialect accepts a binary operator, in whatever case it is written. -/
def supports (d : Dialect) (operator : String) : Bool :=
  d.operators.any fun op => sameLetters op operator

end Dialect

/-- How the items of a group are joined. -/
inductive GroupOperator where
  | and
  | or
deriving DecidableEq, Inhabited

namespace GroupOperator

/-- The SQL word of an operator. -/
def text : GroupOperator → String
  | and => "AND"
  | or => "OR"

/-- The operator with a given text. -/
def ofText? (s : String) : Option GroupOperator :=
  [and, or].find? fun op => op.text == s

/-- The operator with a given text in whatever case. -/
def ofAnyCase? (s : String) : Option GroupOperator := ofText? s.toUpper

end GroupOperator

/-- The kinds of join. -/
inductive JoinOperator where
  | inner
  | left
  | right
  | full
  | cross
deriving DecidableEq, Inhabited

namespace JoinOperator

/-- The SQL word of an operator. -/
def text : JoinOperator → String
  | inner => "INNER"
  | left => "LEFT"
  | right => "RIGHT"
  | full => "FULL"
  | cross => "CROSS"

/-- The operator with a given text. -/
def ofText? (s : String) : Option JoinOperator :=
  [inner, left, right, full, cross].find? fun op => op.text == s

/-- The operator with a given text in whatever case. -/
def ofAnyCase? (s : String) : Option JoinOperator := ofText? s.toUpper

end JoinOperator

/-- The direction of a sort. -/
inductive SortDirection where
  | ascending
  | descending
deriving DecidableEq, Inhabited

namespace SortDirection

/-- The SQL word of a direction. -/
def text : SortDirection → String
  | ascending => "ASC"
  | descending => "DESC"

/-- The direction with a given text. -/
def ofText? (s : String) : Option SortDirection :=
  [ascending, descending].find? fun d => d.text == s

/-- The direction with a given text in whatever case. -/
def ofAnyCase? (s : String) : Option SortDirection := ofText? s.toUpper

end SortDirection

/-- The name of a choice written as a value: a text, or an object with null under the name as its
only member. -/
def Json.choiceName? : Json → Option String
  | .string name => some name
  | .object [(name, .null)] => some name
  | _ => none

end SqlTree
