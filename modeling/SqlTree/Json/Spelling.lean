import SqlTree.Json.Basic

/-!
# Documents as they are spelled

Reading a text gives a `Spelling` first: the tree of the text with its numerals, its escapes and
the order of its members kept. `Spelling.json?` then gives the value, or nothing if a numeral is
too large, an escape is half of a surrogate pair without the other half, or arrays and objects nest
more than 127 deep.

Text that is only passed over is read as a spelling and never turned into a value, so it may hold
such parts.

## Main definitions

* `Spelling`, `Spelling.read`: the grammar of JSON texts.
* `Spelling.json?`, `Json.read`: the value of a spelling and of a text.
-/

namespace SqlTree

/-- A character of a spelled text: itself, or the 16-bit unit of a numeric escape. -/
inductive Glyph where
  | char (c : Char)
  | unit (code : Nat)
deriving DecidableEq, Inhabited

namespace Glyph

/-- The character of two units that form a surrogate pair. -/
def pair? (high low : Nat) : Option Char :=
  if 0xD800 ≤ high ∧ high < 0xDC00 ∧ 0xDC00 ≤ low ∧ low < 0xE000 then
    some (Char.ofNat (0x10000 + (high - 0xD800) * 0x400 + (low - 0xDC00)))
  else none

/-- The text of spelled characters, or nothing if a unit is half of a pair without its half. -/
def decode : List Glyph → Option (List Char)
  | [] => some []
  | char c :: rest => (decode rest).map (c :: ·)
  | unit code :: rest =>
    if code < 0xD800 ∨ 0xE000 ≤ code then (decode rest).map (Char.ofNat code :: ·)
    else
      match rest with
      | unit low :: rest' =>
        match pair? code low with
        | some c => (decode rest').map (c :: ·)
        | none => none
      | _ => none

/-- The text of spelled characters as a string. -/
def text? (glyphs : List Glyph) : Option String :=
  (decode glyphs).map String.ofList

end Glyph

/-- A JSON text with its spelling kept. -/
inductive Spelling where
  | null
  | bool (value : Bool)
  | numeral (value : Numeral)
  | string (glyphs : List Glyph)
  | array (items : List Spelling)
  | object (members : List (List Glyph × Spelling))
deriving Inhabited

namespace Spelling

/-! ### Values of spellings -/

mutual

/-- The value of a spelling in which arrays and objects nest at most `room` deep. -/
def value? (room : Nat) : Spelling → Option Json
  | null => some .null
  | bool value => some (.bool value)
  | numeral value => value.number?.map .number
  | string glyphs => (Glyph.text? glyphs).map .string
  | array items => if room = 0 then none else (values? (room - 1) items).map .array
  | object members => if room = 0 then none else (memberValues? (room - 1) members).map .ofMembers

/-- The values of spellings. -/
def values? (room : Nat) : List Spelling → Option (List Json)
  | [] => some []
  | item :: rest => do return (← value? room item) :: (← values? room rest)

/-- The members that spelled members stand for, in the order of the text. -/
def memberValues? (room : Nat) : List (List Glyph × Spelling) → Option (List (String × Json))
  | [] => some []
  | (glyphs, value) :: rest => do
    let key ← Glyph.text? glyphs
    return (key, ← value? room value) :: (← memberValues? room rest)

end

/-- The value of a spelling; arrays and objects nest at most 127 deep. -/
def json? (s : Spelling) : Option Json := value? 127 s

/-! ### Reading -/

/-- A blank between the parts of a text. -/
def isBlank (c : Char) : Bool := c == ' ' || c == '\t' || c == '\n' || c == '\r'

/-- The text after its leading blanks. -/
def skipBlanks (s : List Char) : List Char := s.dropWhile isBlank

/-- The value of a decimal digit. -/
def digit (c : Char) : Nat := c.toNat - 48

/-- The digits that a text begins with, and the rest. -/
def readDigits (s : List Char) : List Nat × List Char :=
  ((s.takeWhile Char.isDigit).map digit, s.dropWhile Char.isDigit)

/-- The digits that a text begins with, of which there must be one, and the rest. -/
def readSomeDigits (s : List Char) : Option (List Nat × List Char) :=
  match readDigits s with
  | ([], _) => none
  | found => some found

/-- The natural number of a list of decimal digits. -/
def digitsValue (digits : List Nat) : Nat := digits.foldl (fun n d => n * 10 + d) 0

/-- The integer digits of a numeral: a zero, or digits that begin with another. -/
def readWhole : List Char → Option (List Nat × List Char)
  | '0' :: rest => some ([0], rest)
  | s => readSomeDigits s

/-- The digits after a point, if there is one. -/
def readFraction : List Char → Option (Option (List Nat) × List Char)
  | '.' :: rest => (readSomeDigits rest).map fun (digits, rest) => (some digits, rest)
  | s => some (none, s)

/-- The sign of an exponent, if there is one: whether it is a minus, and the rest. -/
def readSign : List Char → Bool × List Char
  | '+' :: rest => (false, rest)
  | '-' :: rest => (true, rest)
  | s => (false, s)

/-- The exponent after an `e`, if there is one. -/
def readExponent (s : List Char) : Option (Option Int × List Char) :=
  match s with
  | c :: rest =>
    if c = 'e' ∨ c = 'E' then
      let (minus, rest) := readSign rest
      (readSomeDigits rest).map fun (digits, rest) =>
        let size : Int := digitsValue digits
        (some (if minus then -size else size), rest)
    else some (none, s)
  | [] => some (none, [])

/-- A numeral without its sign. -/
def readUnsigned (negative : Bool) (s : List Char) : Option (Numeral × List Char) := do
  let (whole, s) ← readWhole s
  let (fraction, s) ← readFraction s
  let (exponent, s) ← readExponent s
  return ({ negative, whole, fraction, exponent }, s)

/-- The numeral that a text begins with. -/
def readNumeral : List Char → Option (Numeral × List Char)
  | '-' :: rest => readUnsigned true rest
  | s => readUnsigned false s

/-- The value of a hexadecimal digit. -/
def hexValue? (c : Char) : Option Nat :=
  if c.isDigit then some (c.toNat - 48)
  else if 'a' ≤ c ∧ c ≤ 'f' then some (c.toNat - 87)
  else if 'A' ≤ c ∧ c ≤ 'F' then some (c.toNat - 55)
  else none

/-- The 16-bit unit of four hexadecimal digits. -/
def hexUnit? (a b c d : Char) : Option Nat := do
  return (((← hexValue? a) * 16 + (← hexValue? b)) * 16 + (← hexValue? c)) * 16 + (← hexValue? d)

/-- The character that a letter after a backslash stands for. -/
def escaped? (c : Char) : Option Char :=
  if c = '"' ∨ c = '\\' ∨ c = '/' then some c
  else if c = 'b' then some (Char.ofNat 8)
  else if c = 'f' then some (Char.ofNat 12)
  else if c = 'n' then some '\n'
  else if c = 'r' then some '\r'
  else if c = 't' then some '\t'
  else none

/-- The characters up to the closing quotation mark, and the rest after it. -/
def readGlyphs : List Char → Option (List Glyph × List Char)
  | [] => none
  | '"' :: rest => some ([], rest)
  | '\\' :: 'u' :: a :: b :: c :: d :: rest =>
    match hexUnit? a b c d, readGlyphs rest with
    | some code, some (glyphs, rest) => some (.unit code :: glyphs, rest)
    | _, _ => none
  | '\\' :: c :: rest =>
    match escaped? c, readGlyphs rest with
    | some c, some (glyphs, rest) => some (.char c :: glyphs, rest)
    | _, _ => none
  | c :: rest =>
    if c.toNat < 32 then none
    else (readGlyphs rest).map fun (glyphs, rest) => (.char c :: glyphs, rest)

/-- The text after a word that it must begin with. -/
def readWord : List Char → List Char → Option (List Char)
  | [], s => some s
  | w :: word, c :: s => if w = c then readWord word s else none
  | _ :: _, [] => none

/-- A key, its colon and the rest. -/
def readKey : List Char → Option (List Glyph × List Char)
  | '"' :: rest => do
    let (glyphs, rest) ← readGlyphs rest
    match skipBlanks rest with
    | ':' :: rest => some (glyphs, rest)
    | _ => none
  | _ => none

mutual

/-- The value that a text without leading blanks begins with, and the rest. The first argument
bounds the nesting of calls. -/
def readValue : Nat → List Char → Option (Spelling × List Char)
  | 0, _ => none
  | fuel + 1, s =>
    match s with
    | 'n' :: rest => (readWord ['u', 'l', 'l'] rest).map fun rest => (null, rest)
    | 't' :: rest => (readWord ['r', 'u', 'e'] rest).map fun rest => (bool true, rest)
    | 'f' :: rest => (readWord ['a', 'l', 's', 'e'] rest).map fun rest => (bool false, rest)
    | '"' :: rest => (readGlyphs rest).map fun (glyphs, rest) => (string glyphs, rest)
    | '[' :: rest =>
      match skipBlanks rest with
      | ']' :: rest => some (array [], rest)
      | rest => (readItems fuel rest).map fun (items, rest) => (array items, rest)
    | '\x7b' :: rest =>
      match skipBlanks rest with
      | '\x7d' :: rest => some (object [], rest)
      | rest => (readMembers fuel rest).map fun (members, rest) => (object members, rest)
    | s => (readNumeral s).map fun (value, rest) => (numeral value, rest)

/-- One or more items up to the closing bracket, and the rest after it. -/
def readItems : Nat → List Char → Option (List Spelling × List Char)
  | 0, _ => none
  | fuel + 1, s => do
    let (item, rest) ← readValue fuel s
    match skipBlanks rest with
    | ']' :: rest => some ([item], rest)
    | ',' :: rest =>
      let (items, rest) ← readItems fuel (skipBlanks rest)
      some (item :: items, rest)
    | _ => none

/-- One or more members up to the closing brace, and the rest after it. -/
def readMembers : Nat → List Char → Option (List (List Glyph × Spelling) × List Char)
  | 0, _ => none
  | fuel + 1, s => do
    let (key, rest) ← readKey s
    let (value, rest) ← readValue fuel (skipBlanks rest)
    match skipBlanks rest with
    | '\x7d' :: rest => some ([(key, value)], rest)
    | ',' :: rest =>
      let (members, rest) ← readMembers fuel (skipBlanks rest)
      some ((key, value) :: members, rest)
    | _ => none

end

/-- The spelling of a whole text. -/
def read (s : String) : Option Spelling :=
  let cs := s.toList
  match readValue (2 * cs.length + 2) (skipBlanks cs) with
  | some (value, rest) => if skipBlanks rest = [] then some value else none
  | none => none

end Spelling

namespace Json

/-- The value of a text. -/
def read (s : String) : Option Json := (Spelling.read s).bind Spelling.json?

end Json

end SqlTree
