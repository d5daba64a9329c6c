import SqlTree.Number.Shortest

/-!
# Numbers of a document

A number is a natural number or a negative integer if it is written without fraction and exponent
and fits 64 bits, and a binary64 number otherwise. The three kinds stay apart: `1` and `1.0` are
different numbers with different texts.

## Main definitions

* `Number`, `Number.text`: a number and how it is written.
* `Numeral`, `Numeral.number?`: a number as it is spelled, and the number it stands for.
-/

namespace SqlTree

/-- A number of a document. -/
inductive Number where
  /-- A natural number. -/
  | natural (value : UInt64)
  /-- The negative of a positive integer of at most `2 ^ 63`. -/
  | negative (absolute : UInt64)
  /-- The binary64 number with these bits. -/
  | float (bits : UInt64)
deriving DecidableEq, Inhabited

namespace Number

/-- The value of a number that is a natural number. -/
def natural? : Number → Option UInt64
  | natural value => some value
  | _ => none

/-- A positive decimal with the given digits and exponent of the last one. From `10 ^ -5` to below
`10 ^ 16` it is written in positions with at least one place after the point, otherwise as one digit
before the point and a signed exponent. -/
def decimalText (digits : Nat) (exponent : Int) : String :=
  let figures := Nat.toDigits 10 digits
  let count : Int := figures.length
  let leading := exponent + count - 1
  if -5 ≤ leading ∧ leading ≤ 15 then
    if 0 ≤ exponent then
      String.ofList (figures ++ List.replicate exponent.toNat '0') ++ ".0"
    else if 0 ≤ leading then
      let whole := leading.toNat + 1
      String.ofList (figures.take whole) ++ "." ++ String.ofList (figures.drop whole)
    else
      "0." ++ String.ofList (List.replicate (-leading - 1).toNat '0' ++ figures)
  else
    let first := String.ofList (figures.take 1)
    let others := figures.drop 1
    let body := if others.isEmpty then first else first ++ "." ++ String.ofList others
    let sign := if leading < 0 then "-" else "+"
    body ++ "e" ++ sign ++ toString leading.natAbs

/-- A binary64 number, written with the fewest digits that round to it. -/
def floatText (bits : UInt64) : String :=
  let pattern := bits.toNat % Nat.pow 2 63
  let sign := if Nat.pow 2 63 ≤ bits.toNat then "-" else ""
  if pattern = 0 then sign ++ "0.0"
  else
    let (digits, exponent) := Binary.shortest pattern
    sign ++ decimalText digits exponent

/-- The text of a number. -/
def text : Number → String
  | natural value => toString value.toNat
  | negative absolute => "-" ++ toString absolute.toNat
  | float bits => floatText bits

end Number

/-- A number as it is spelled: a sign, digits, and maybe digits after a point and an exponent. -/
structure Numeral where
  negative : Bool
  whole : List Nat
  fraction : Option (List Nat)
  exponent : Option Int
deriving DecidableEq, Inhabited

namespace Numeral

/-- Appends digits to a number below `2 ^ 64` for as long as it stays below, and counts them. -/
def accumulate (value : Nat) : List Nat → Nat × Nat
  | [] => (value, 0)
  | digit :: rest =>
    if value * 10 + digit < Nat.pow 2 64 then
      let (total, count) := accumulate (value * 10 + digit) rest
      (total, count + 1)
    else (value, 0)

/-- The binary64 number of a sign and a pattern. -/
def signed (negative : Bool) (pattern : Nat) : Number :=
  .float (if negative then pattern + Nat.pow 2 63 else pattern).toUInt64

/-- The integer of a sign and a value below `2 ^ 64`; a negative one that does not fit 64 bits, and
zero with a sign, are binary64 numbers. -/
def integer (negative : Bool) (value : Nat) : Number :=
  if !negative then .natural value.toUInt64
  else if 0 < value ∧ value ≤ Nat.pow 2 63 then .negative value.toUInt64
  else signed true ((Binary.ofRatio value 1).getD 0)

/-- The number that a numeral stands for, or nothing if it is beyond the finite numbers.

The leading digits that fit 64 bits are rounded to a binary64 number, which is then multiplied or
divided by a power of ten. -/
def number? (n : Numeral) : Option Number :=
  let (head, taken) := accumulate 0 n.whole
  let left := n.whole.length - taken
  match n.fraction, n.exponent, left with
  | none, none, 0 => some (integer n.negative head)
  | fraction, exponent, left =>
    let (value, places) := accumulate head (fraction.getD [])
    let power : Int := (left : Int) - (places : Int) + exponent.getD 0
    let pattern := (Binary.ofRatio value 1).getD 0
    (Binary.scale pattern power).map (signed n.negative)

end Numeral

end SqlTree
