import SqlTree.Json.Basic

/-!
# Compact text of a document

The text of a value has no blanks. In texts only the quotation mark, the backslash and the control
characters below U+0020 are escaped, by a letter where there is one and by four lower-case
hexadecimal digits otherwise.
-/

namespace SqlTree.Json

/-- The lower-case hexadecimal digit of a value below 16. -/
def hexDigit (n : Nat) : Char :=
  if n < 10 then Char.ofNat (n + 48) else Char.ofNat (n + 87)

/-- A character as it is written between quotation marks. -/
def escape (c : Char) : List Char :=
  if c = '"' then ['\\', '"']
  else if c = '\\' then ['\\', '\\']
  else if c = '\n' then ['\\', 'n']
  else if c = '\t' then ['\\', 't']
  else if c = '\r' then ['\\', 'r']
  else if c.toNat = 8 then ['\\', 'b']
  else if c.toNat = 12 then ['\\', 'f']
  else if c.toNat < 32 then ['\\', 'u', '0', '0', hexDigit (c.toNat / 16), hexDigit (c.toNat % 16)]
  else [c]

/-- A text between quotation marks. -/
def quote (s : String) : String :=
  String.ofList ('"' :: (s.toList.flatMap escape ++ ['"']))

mutual

/-- The compact text of a value. -/
def text : Json → String
  | null => "null"
  | bool value => if value then "true" else "false"
  | number value => value.text
  | string value => quote value
  | array [] => "[]"
  | array (item :: rest) => "[" ++ text item ++ itemsText rest ++ "]"
  | object [] => "\x7b\x7d"
  | object ((key, value) :: rest) =>
    "\x7b" ++ quote key ++ ":" ++ text value ++ membersText rest ++ "\x7d"

/-- The texts of the items after the first, each after a comma. -/
def itemsText : List Json → String
  | [] => ""
  | item :: rest => "," ++ text item ++ itemsText rest

/-- The texts of the members after the first, each after a comma. -/
def membersText : List (String × Json) → String
  | [] => ""
  | (key, value) :: rest => "," ++ quote key ++ ":" ++ text value ++ membersText rest

end

end SqlTree.Json
