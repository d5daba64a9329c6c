import SqlTree.Registry.Basic
import SqlTree.Text.Hidden

/-!
# Descriptions of registries

A registry is described by its dialect and its tags. Tags stand between quotation marks, with the
characters that cannot be shown written by their code points.
-/

namespace SqlTree

/-- The lower-case hexadecimal digits of a code point. -/
def hexText (n : Nat) : String := String.ofList (Nat.toDigits 16 n)

/-- A character as it is shown between quotation marks. -/
def shown (c : Char) : String :=
  if c = '"' then "\\\""
  else if c = '\\' then "\\\\"
  else if c = '\n' then "\\n"
  else if c = '\r' then "\\r"
  else if c = '\t' then "\\t"
  else if c.toNat = 0 then "\\0"
  else if isShown c then String.singleton c
  else "\\u\x7b" ++ hexText c.toNat ++ "\x7d"

/-- A text between quotation marks. -/
def shownText (s : String) : String := "\"" ++ String.join (s.toList.map shown) ++ "\""

/-- The dialect and the tags of a registry. -/
def Registry.describe (r : Registry) : String :=
  "NodeRegistry \x7b dialect: " ++ r.dialect.name ++ ", tags: ["
    ++ ", ".intercalate (r.tags.map shownText) ++ "] \x7d"

end SqlTree
