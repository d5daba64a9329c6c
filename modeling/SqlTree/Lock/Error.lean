import SqlTree.Lock.State

/-!
# Why a table is not locked

## Main definitions

* `durationText`: milliseconds as they are written.
* `LockError`, `LockError.name`, `LockError.table`, `LockError.message`.
-/

namespace SqlTree

/-- The three digits of a number of thousandths, without the zeros at the end. -/
def thousandths (n : Nat) : List Char :=
  let digits := [n / 100 % 10, n / 10 % 10, n % 10].map fun d => Char.ofNat (d + 48)
  (digits.reverse.dropWhile (· == '0')).reverse

/-- A number of milliseconds: `0ns`, or milliseconds below a second, or seconds with as many places
as needed. -/
def durationText (ms : Nat) : String :=
  if ms = 0 then "0ns"
  else if ms < 1000 then toString ms ++ "ms"
  else
    match thousandths (ms % 1000) with
    | [] => toString (ms / 1000) ++ "s"
    | places => toString (ms / 1000) ++ "." ++ String.ofList places ++ "s"

/-- Why a table is not locked. -/
inductive LockError where
  /-- There is no lock for the table. -/
  | notFound (table : String)
  /-- The table has been closed. -/
  | closed (table : String)
  /-- The lock could not be had within a number of milliseconds. -/
  | timeout (table : String) (kind : LockKind) (ms : Nat)
deriving DecidableEq, Inhabited

namespace LockError

/-- The name of an error. -/
def name : LockError → String
  | notFound _ => "NotFound"
  | closed _ => "Closed"
  | timeout .. => "Timeout"

/-- The table that could not be locked. -/
def table : LockError → String
  | notFound t => t
  | closed t => t
  | timeout t _ _ => t

/-- The wording of an error. -/
def message : LockError → String
  | notFound t => "Table '" ++ t ++ "' is not registered"
  | closed t => "Table '" ++ t ++ "' is closed"
  | timeout t kind ms =>
    "Timed out after " ++ durationText ms ++ " waiting for " ++ kind.text ++ " lock on table '"
      ++ t ++ "'"

end LockError

end SqlTree
