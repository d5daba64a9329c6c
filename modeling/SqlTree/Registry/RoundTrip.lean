import SqlTree.Node.Document
import SqlTree.Node.Equality
import SqlTree.Node.Sql
import SqlTree.Registry.Basic

/-!
# Writing a tree and reviving it

A tree is written as a document and the document is revived. The result is the tree again, except
that a query used as an expression comes back as a statement; then at least the documents agree.

## Main definitions

* `Agreement`, `Registry.again`: how far a node and what its document revives to agree.
* `Registry.roundTrips`: whether a finished node keeps its document and its text.
* `RenderCase`, `RenderCase.passes`: a document with the text or the error that it should give.
-/

namespace SqlTree

/-- How far two nodes agree. -/
inductive Agreement where
  | same
  | sameDocument
  | different
deriving DecidableEq, Inhabited

namespace Registry

/-- How far a node and what its document revives to agree; the node need not be finished. -/
def again (r : Registry) (n : Node) : Except Error Agreement := do
  let revived ← r.revive n.document
  if revived = n then return .same
  else if revived.document = n.document then return .sameDocument
  else return .different

/-- Whether a finished node is revived from its document as a finished node with the same document
and the same text. -/
def roundTrips (r : Registry) (n : Node) : Bool :=
  let attempt : Except Error Bool := do
    let document ← n.toDocument
    let revived ← r.revive document
    let document' ← revived.toDocument
    return document' == document && revived.sql == n.sql
  match attempt with
  | .ok b => b
  | .error _ => false

end Registry

/-- A document and what it should give: an error, or a text that survives the round trip. -/
structure RenderCase where
  dialect : Dialect
  document : String
  /-- The expected text, if it matters. -/
  sql : Option String
  /-- How the name of the expected error begins, if one is expected. -/
  error : Option String
deriving DecidableEq, Inhabited

namespace RenderCase

/-- Whether a document gives what it should. -/
def passes (c : RenderCase) : Bool :=
  let registry := Registry.builtin c.dialect
  let outcome : Except Error (Node × String) := do
    let n ← registry.reviveText c.document
    return (n, ← n.toSql)
  match c.error, outcome with
  | some start, .error e => start.toList.isPrefixOf e.name.toList
  | some _, .ok _ => false
  | none, .error _ => false
  | none, .ok (n, sql) => (c.sql.all fun expected => sql == expected) && registry.roundTrips n

end RenderCase

end SqlTree
