import SqlTree.Node.Conversion

/-!
# Documents with what their parts revive to

To revive a node, its fields have to be revived first. `Reading` is a document in which every part
carries the outcome of reviving it: an object gives a node or an error, everything else gives the
error that it is no object. A node is then put together from the fields of its object without going
back to the document, and an outcome that no field asks for is never looked at.

The functions under `Fields` get the fields of a node, with the errors of a field that has the wrong
type. A field that is null counts as absent.

## Main definitions

* `Reading`: a document with the outcomes of its parts.
* `Fields`: the fields of an object; `Fields.text`, `Fields.flag`, `Fields.list`, `Fields.expr?` and
  others read one of them.
-/

namespace SqlTree

/-- A document with the outcome of reviving each of its parts. -/
structure Reading where
  source : Json
  outcome : Except Error Node
  /-- The items, if the document is a list. -/
  items : List Reading
  /-- The members, if the document is an object. -/
  members : List (String × Reading)

namespace Reading

/-- The expression that a document revives to. -/
def expr (r : Reading) : Except Error Expr := do (← r.outcome).toExpr

/-- The query that a document revives to. -/
def query (r : Reading) : Except Error Query := do (← r.outcome).toQuery

/-- The table that a document revives to. -/
def table (r : Reading) : Except Error Table := do (← r.outcome).toTable

end Reading

/-- The fields of the object of a node of some kind. -/
structure Fields where
  kind : Kind
  members : List (String × Reading)

namespace Fields

/-- A field that is present and not null. -/
def get? (f : Fields) (key : String) : Option Reading :=
  (Keyed.find? key f.members).filter fun r => !r.source.isNull

/-- The value of a field as it stands, which may be null. -/
def raw (f : Fields) (key : String) : Json :=
  (Keyed.find? key f.members).elim .null Reading.source

/-- The error that a field is missing. -/
def missing (f : Fields) (key : String) : Error := .missingField f.kind.tag key

/-- The error that a field has a value of the wrong type. -/
def mistyped (f : Fields) (key : String) (expected : FieldType) (found : Json) : Error :=
  .invalidDocument f.kind.tag (.field key expected found)

/-- A field that has to be present. -/
def get (f : Fields) (key : String) : Except Error Reading :=
  match f.get? key with
  | some r => .ok r
  | none => .error (f.missing key)

/-- A text that may be absent. -/
def text? (f : Fields) (key : String) : Except Error (Option String) :=
  match f.get? key with
  | none => .ok none
  | some r =>
    match r.source with
    | .string s => .ok (some s)
    | found => .error (f.mistyped key .string found)

/-- A text. -/
def text (f : Fields) (key : String) : Except Error String := do
  match ← f.text? key with
  | some s => .ok s
  | none => .error (f.missing key)

/-- A flag, false if it is absent. -/
def flag (f : Fields) (key : String) : Except Error Bool :=
  match f.get? key with
  | none => .ok false
  | some r =>
    match r.source with
    | .bool b => .ok b
    | found => .error (f.mistyped key .boolean found)

/-- A natural number that may be absent. -/
def natural? (f : Fields) (key : String) : Except Error (Option UInt64) :=
  match f.get? key with
  | none => .ok none
  | some r =>
    match r.source.natural? with
    | some n => .ok (some n)
    | none => .error (f.mistyped key .unsignedInteger r.source)

/-- The items of a list, none if it is absent. -/
def list (f : Fields) (key : String) : Except Error (List Reading) :=
  match f.get? key with
  | none => .ok []
  | some r =>
    match r.source with
    | .array _ => .ok r.items
    | found => .error (f.mistyped key .array found)

/-- Each item of a list converted, in order, up to the first error. -/
def convert {α β : Type} (one : α → Except Error β) : List α → Except Error (List β)
  | [] => .ok []
  | a :: rest => do
    let b ← one a
    return b :: (← convert one rest)

/-- The texts of a list, none if it is absent. -/
def strings (f : Fields) (key : String) : Except Error (List String) := do
  let items ← f.list key
  convert
    (fun r => match r.source with
      | .string s => .ok s
      | found => .error (f.mistyped key .arrayOfStrings found))
    items

/-- The nodes of a list, each converted, none if it is absent. -/
def nodes {α : Type} (f : Fields) (key : String) (as : Node → Except Error α) :
    Except Error (List α) := do
  let items ← f.list key
  convert (fun r => do as (← r.outcome)) items

/-- A node that may be absent, converted. -/
def node? {α : Type} (f : Fields) (key : String) (as : Node → Except Error α) :
    Except Error (Option α) :=
  match f.get? key with
  | none => .ok none
  | some r => do return some (← as (← r.outcome))

/-- An expression that may be absent. -/
def expr? (f : Fields) (key : String) : Except Error (Option Expr) := f.node? key Node.toExpr

/-- An expression, unset if it is absent. -/
def slot (f : Fields) (key : String) : Except Error Expr := do
  return (← f.expr? key).getD .unknown

/-- The expressions of a list, none if it is absent. -/
def exprs (f : Fields) (key : String) : Except Error (List Expr) := f.nodes key Node.toExpr

end Fields

end SqlTree
