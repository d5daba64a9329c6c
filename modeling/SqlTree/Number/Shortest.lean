import SqlTree.Number.Binary

/-!
# Shortest decimal digits

Of all decimals that round to a given binary64 number, the one with the fewest digits is written,
and of several with that count the one nearest to the number. `Binary.shortest` finds it by
testing, for 1, 2, … 17 digits, the two neighbours of the number on the grid of decimals with that
many digits.
-/

namespace SqlTree.Binary

/-- How many decimal digits a natural number has; zero has one. -/
def digitCount (n : Nat) : Nat :=
  (Nat.toDigits 10 n).length

/-- The exponent of the leading decimal digit of `n / d`, for positive `n` and `d`. -/
def leadingExponent (n d : Nat) : Int :=
  if d ≤ n then (digitCount (n / d) : Int) - 1 else -(digitCount (d / n) : Int)

/-- The decimal `digits · 10 ^ exponent` as a quotient of natural numbers. -/
def decimalRatio (digits : Nat) (exponent : Int) : Nat × Nat :=
  if exponent < 0 then (digits, Nat.pow 10 (-exponent).toNat)
  else (digits * Nat.pow 10 exponent.toNat, 1)

/-- Whether the decimal `digits · 10 ^ exponent` rounds to the pattern. -/
def roundsTo (pattern digits : Nat) (exponent : Int) : Bool :=
  let (n, d) := decimalRatio digits exponent
  ofRatio n d == some pattern

/-- The multiples of `10 ^ exponent` next to `n / d`, below and above. -/
def neighbours (n d : Nat) (exponent : Int) : Nat × Nat :=
  let down :=
    if exponent < 0 then n * Nat.pow 10 (-exponent).toNat / d
    else n / (d * Nat.pow 10 exponent.toNat)
  (down, down + 1)

/-- Whether `n / d` is nearer to `low · 10 ^ exponent` than to its upper neighbour, or as near with
`low` even. -/
def nearerBelow (n d low : Nat) (exponent : Int) : Bool :=
  let (scaled, unit) :=
    if exponent < 0 then (n * Nat.pow 10 (-exponent).toNat, d)
    else (n, d * Nat.pow 10 exponent.toNat)
  let twice := 2 * (scaled - low * unit)
  twice < unit || (twice == unit && low % 2 == 0)

/-- The neighbour on one grid that rounds to the pattern and is the nearer one if both do. -/
def onGrid? (pattern n d : Nat) (exponent : Int) : Option Nat :=
  let (low, high) := neighbours n d exponent
  match roundsTo pattern low exponent, roundsTo pattern high exponent with
  | true, true => some (if nearerBelow n d low exponent then low else high)
  | true, false => some low
  | false, true => some high
  | false, false => none

/-- The first grid with at most `left` more digits, from exponent `exponent` downwards, that has a
decimal rounding to the pattern. -/
def search (pattern n d : Nat) : Nat → Int → Nat × Int
  | 0, exponent => ((neighbours n d exponent).1, exponent)
  | left + 1, exponent =>
    match onGrid? pattern n d exponent with
    | some digits => (digits, exponent)
    | none => search pattern n d left (exponent - 1)

/-- `digits · 10 ^ exponent` without trailing zeros in the digits. -/
def trimZeros : Nat → Nat → Int → Nat × Int
  | 0, digits, exponent => (digits, exponent)
  | fuel + 1, digits, exponent =>
    if digits % 10 = 0 ∧ digits ≠ 0 then trimZeros fuel (digits / 10) (exponent + 1)
    else (digits, exponent)

/-- The shortest decimal of a positive finite pattern, as digits and the exponent of the last. -/
def shortest (pattern : Nat) : Nat × Int :=
  let (n, d) := toRatio pattern
  let (digits, exponent) := search pattern n d 17 (leadingExponent n d)
  trimZeros 20 digits exponent

end SqlTree.Binary
