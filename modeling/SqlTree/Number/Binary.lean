/-!
# Rounding to binary64

A finite non-negative number of the 64-bit binary format is `m · 2 ^ q` with `m < 2 ^ 53` and
`-1074 ≤ q`. This file reads such a number off its bit pattern and finds the pattern nearest to a
quotient of natural numbers, all in exact arithmetic. A pattern without its sign is a natural
number below `2 ^ 63`; larger numbers have larger patterns.

## Main definitions

* `Binary.mantissa`, `Binary.exponent`: the number `m · 2 ^ q` of a pattern.
* `Binary.ofRatio`: the pattern nearest to `n / d`, a tie going to the even pattern.
* `Binary.scale`: a number times a power of ten, rounded once for the power and once for the
  product or quotient.
-/

namespace SqlTree.Binary

/-- The first pattern that is not a finite number. -/
def infinity : Nat := 2047 * Nat.pow 2 52

/-- The integer significand of a finite pattern. -/
def mantissa (pattern : Nat) : Nat :=
  if pattern < Nat.pow 2 52 then pattern else pattern % Nat.pow 2 52 + Nat.pow 2 52

/-- The power of two that the significand of a finite pattern is multiplied by. -/
def exponent (pattern : Nat) : Int :=
  if pattern < Nat.pow 2 52 then -1074 else (pattern / Nat.pow 2 52 : Nat) - 1075

/-- The number of a finite pattern as a quotient of natural numbers. -/
def toRatio (pattern : Nat) : Nat × Nat :=
  let q := exponent pattern
  if q < 0 then (mantissa pattern, Nat.pow 2 (-q).toNat)
  else (mantissa pattern * Nat.pow 2 q.toNat, 1)

/-- `n / d` to the nearest integer, a tie going to the even one. -/
def roundDiv (n d : Nat) : Nat :=
  let down := n / d
  let twice := 2 * (n % d)
  if twice < d then down
  else if d < twice then down + 1
  else down + down % 2

/-- The exponent of the last place of the numbers that `n / d` lies among, for positive `n`
and `d`. -/
def lastPlace (n d : Nat) : Int :=
  let k : Int := (n.log2 : Int) - (d.log2 : Int)
  let reached : Bool := if k < 0 then d ≤ n * Nat.pow 2 (-k).toNat else d * Nat.pow 2 k.toNat ≤ n
  let top : Int := if reached then k else k - 1
  max (top - 52) (-1074)

/-- The pattern nearest to `n / d`, or nothing if it is beyond the finite numbers. -/
def ofRatio (n d : Nat) : Option Nat :=
  if n = 0 then some 0
  else
    let q := lastPlace n d
    let m :=
      if q < 0 then roundDiv (n * Nat.pow 2 (-q).toNat) d
      else roundDiv n (d * Nat.pow 2 q.toNat)
    let pattern := (q + 1074).toNat * Nat.pow 2 52 + m
    if pattern < infinity then some pattern else none

/-- The pattern nearest to `10 ^ k`, for `k` at most 308. -/
def powerOfTen (k : Nat) : Nat :=
  (ofRatio (Nat.pow 10 k) 1).getD 0

/-- The product of two numbers, rounded. -/
def mul (a b : Nat) : Option Nat :=
  let (n, d) := toRatio a
  let (n', d') := toRatio b
  ofRatio (n * n') (d * d')

/-- The quotient of two numbers, the second not zero, rounded. -/
def div (a b : Nat) : Option Nat :=
  let (n, d) := toRatio a
  let (n', d') := toRatio b
  ofRatio (n * d') (d * n')

/-- A number divided by `10 ^ k`, in steps of at most 308 places. -/
def shrink (pattern k : Nat) : Option Nat :=
  if k ≤ 308 then div pattern (powerOfTen k)
  else if pattern = 0 then some 0
  else (div pattern (powerOfTen 308)).bind fun next => shrink next (k - 308)
termination_by k

/-- A number times `10 ^ k`; nothing if that is beyond the finite numbers. -/
def grow (pattern k : Nat) : Option Nat :=
  if k ≤ 308 then mul pattern (powerOfTen k)
  else if pattern = 0 then some 0
  else none

/-- A number times ten to an exponent of either sign. -/
def scale (pattern : Nat) (exponent : Int) : Option Nat :=
  if exponent < 0 then shrink pattern (-exponent).toNat else grow pattern exponent.toNat

end SqlTree.Binary
