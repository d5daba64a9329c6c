import SqlTree.Error

/-!
# Scopes of table names

A scope holds the names of the tables that columns may refer to at one place: those of the query
itself, in the order in which its tables come, and those visible from outside it. Two tables of one
query must not share a name; a name from outside may be taken again.

## Main definitions

* `Scope`, `Scope.empty`, `Scope.child`, `Scope.register`, `Scope.resolves`.

## Main results

* `Scope.resolves_child`: a nested scope sees what the scope around it sees.
-/

namespace SqlTree

/-- The table names visible at one place. -/
structure Scope where
  /-- The names from outside. -/
  outer : List String
  /-- The names of the query itself, in the order in which they were registered. -/
  tables : List String
deriving DecidableEq, Inhabited

namespace Scope

/-- The scope without names. -/
def empty : Scope := ⟨[], []⟩

/-- A nested scope: every name visible here is visible there from outside. -/
def child (s : Scope) : Scope := ⟨s.outer ++ s.tables, []⟩

/-- Adds a table of the query itself; a second one of the same name is refused. -/
def register (s : Scope) (name : String) : Except Error Scope :=
  if name ∈ s.tables then .error (.duplicateAlias name)
  else .ok { s with tables := s.tables ++ [name] }

/-- Whether a table of this name is visible. -/
def resolves (s : Scope) (name : String) : Bool :=
  name ∈ s.tables || name ∈ s.outer

theorem resolves_iff {s : Scope} {name : String} :
    s.resolves name = true ↔ name ∈ s.tables ∨ name ∈ s.outer := by
  simp [resolves]

/-- A nested scope sees what the scope around it sees. -/
@[simp] theorem resolves_child (s : Scope) (name : String) :
    s.child.resolves name = s.resolves name := by
  simp [resolves, child, Bool.or_comm]

end Scope

end SqlTree
