import SqlTree.Json.Spelling
import SqlTree.Registry.Construct

/-!
# The registry of kinds

A registry says which constructor revives the objects of each tag, and carries the dialect whose
binary operators are accepted. Every object nested in a document is revived by the constructor of
its own tag, so one registry revives a whole tree.

## Main definitions

* `Constructor`, `Registry`, `Registry.empty`, `Registry.builtin`, `Registry.register`.
* `Registry.reading`: a document with the outcomes of its parts.
* `Registry.revive`, `Registry.reviveText`: the node of a document and of a text.
-/

namespace SqlTree

/-- How the objects of a tag are revived. -/
inductive Constructor where
  /-- As nodes of a kind. -/
  | kind (kind : Kind)
  /-- As one and the same node, whatever their fields. -/
  | constant (node : Node)
  /-- As the node of one of their fields. -/
  | field (key : String)
  /-- Never, always with the same error. -/
  | failure (error : Error)

/-- The error that a document is no object. -/
def notAnObject (found : Json) : Error := .invalidDocument "node" (.notAnObject found)

namespace Constructor

/-- What a constructor makes of the members of an object. -/
def apply (d : Dialect) (members : List (String × Reading)) : Constructor → Except Error Node
  | kind k => Fields.construct ⟨k, members⟩ d
  | constant n => .ok n
  | field key => (Keyed.find? key members).elim (.error (notAnObject .null)) Reading.outcome
  | failure e => .error e

end Constructor

/-- Constructors by tag, and a dialect. -/
structure Registry where
  constructors : List (String × Constructor)
  dialect : Dialect

namespace Registry

/-- The registry without constructors. -/
def empty (d : Dialect) : Registry := ⟨[], d⟩

/-- Gives a tag a constructor, in place of an earlier one. -/
def register (r : Registry) (tag : String) (c : Constructor) : Registry :=
  { r with constructors := Keyed.insert tag c r.constructors }

/-- Whether a tag has a constructor. -/
def contains (r : Registry) (tag : String) : Bool := Keyed.contains tag r.constructors

/-- The tags that have a constructor, in ascending order. -/
def tags (r : Registry) : List String := Keyed.keys r.constructors

/-- The registry in which every kind is revived under its tag. -/
def builtin (d : Dialect) : Registry :=
  Kind.all.foldl (fun r k => r.register k.tag (.kind k)) (empty d)

/-! ### Reviving -/

/-- What the members of an object revive to. -/
def construct (r : Registry) (members : List (String × Reading)) : Except Error Node :=
  match (Keyed.find? DocumentFault.tagKey members).bind fun tag => tag.source.string? with
  | none => .error (.invalidDocument "node" .untagged)
  | some tag =>
    match Keyed.find? tag r.constructors with
    | none => .error (.kindNotFound tag)
    | some c => c.apply r.dialect members

mutual

/-- A document with the outcomes of its parts. -/
def reading (r : Registry) : Json → Reading
  | .array items => ⟨.array items, .error (notAnObject (.array items)), readings r items, []⟩
  | .object members =>
    let parts := memberReadings r members
    ⟨.object members, r.construct parts, [], parts⟩
  | .null => ⟨.null, .error (notAnObject .null), [], []⟩
  | .bool b => ⟨.bool b, .error (notAnObject (.bool b)), [], []⟩
  | .number n => ⟨.number n, .error (notAnObject (.number n)), [], []⟩
  | .string s => ⟨.string s, .error (notAnObject (.string s)), [], []⟩

/-- A list of documents with the outcomes of their parts. -/
def readings (r : Registry) : List Json → List Reading
  | [] => []
  | item :: rest => reading r item :: readings r rest

/-- The members of an object with the outcomes of their parts. -/
def memberReadings (r : Registry) : List (String × Json) → List (String × Reading)
  | [] => []
  | (key, value) :: rest => (key, reading r value) :: memberReadings r rest

end

/-- The node of a document. -/
def revive (r : Registry) (document : Json) : Except Error Node := (r.reading document).outcome

/-- The node of the document that a text spells. -/
def reviveText (r : Registry) (text : String) : Except Error Node :=
  match Json.read text with
  | some document => r.revive document
  | none => .error (.invalidDocument "document" .unreadable)

/-- The expression of a document. -/
def reviveExpr (r : Registry) (document : Json) : Except Error Expr := do
  (← r.revive document).toExpr

/-- The table of a document. -/
def reviveTable (r : Registry) (document : Json) : Except Error Table := do
  (← r.revive document).toTable

/-- The statement of a document. -/
def reviveStatement (r : Registry) (document : Json) : Except Error Statement := do
  (← r.revive document).toStatement

/-- The query of a document. -/
def reviveQuery (r : Registry) (document : Json) : Except Error Query := do
  (← r.revive document).toQuery

end Registry

namespace Statement

/-- The statement that a text spells, in the default dialect. -/
def ofText (text : String) : Except Error Statement := do
  (← (Registry.builtin .mySQL).reviveText text).toStatement

end Statement

end SqlTree
