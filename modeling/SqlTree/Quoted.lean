import SqlTree.Json.Printer

/-!
# Pieces of SQL text

Identifiers stand between back-ticks, a back-tick inside one being written twice. Literals are
written as their JSON text, except that a list stands in parentheses and null is `NULL`.

## Main definitions

* `quoted`, `qualified`: identifiers.
* `joined`: texts with a separator between them.
* `literal`: values.
-/

namespace SqlTree

/-- The text written for an expression that is not set. -/
def placeholder : String := "?"

/-- The characters of an identifier with every back-tick doubled. -/
def doubleTicks : List Char → List Char
  | [] => []
  | c :: rest => if c = '\x60' then '\x60' :: '\x60' :: doubleTicks rest else c :: doubleTicks rest

/-- An identifier between back-ticks. -/
def quoted (name : String) : String :=
  String.ofList ('\x60' :: (doubleTicks name.toList ++ ['\x60']))

/-- An identifier after the identifier that it belongs to, if there is one. -/
def qualified : Option String → String → String
  | some owner, name => quoted owner ++ "." ++ quoted name
  | none, name => quoted name

/-- Texts one after another with a separator between them. -/
def joined (separator : String) : List String → String
  | [] => ""
  | [s] => s
  | s :: rest => s ++ separator ++ joined separator rest

mutual

/-- A value in SQL text. -/
def literal : Json → String
  | .array [] => "()"
  | .array (item :: rest) => "(" ++ literal item ++ literals rest ++ ")"
  | .null => "NULL"
  | value => value.text

/-- Values after the first of a list, each after a comma. -/
def literals : List Json → String
  | [] => ""
  | item :: rest => ", " ++ literal item ++ literals rest

end

end SqlTree
