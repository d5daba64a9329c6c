import SqlTree.Keyed
import SqlTree.Number.Basic

/-!
# Documents

A document is a JSON value: null, a boolean, a number, a text, a list of values or an object. The
members of an object stand in ascending order of their keys and no key occurs twice
(`Json.ofMembers` puts them so), hence two objects with the same members are equal.

## Main definitions

* `Json`, with decidable equality.
* `Json.isNull`, `Json.natural`, `Json.ofMembers`, `Json.depth`.
-/

namespace SqlTree

/-- A JSON value. -/
inductive Json where
  | null
  | bool (value : Bool)
  | number (value : Number)
  | string (value : String)
  | array (items : List Json)
  | object (members : List (String × Json))
deriving Inhabited

namespace Json

/-- Whether the value is null. -/
def isNull : Json → Bool
  | null => true
  | _ => false

/-- Whether the value is a text. -/
def isString : Json → Bool
  | string _ => true
  | _ => false

/-- Whether the value is a list with at least one item. -/
def isNonemptyArray : Json → Bool
  | array (_ :: _) => true
  | _ => false

/-- The members of an object. -/
def members? : Json → Option (List (String × Json))
  | object members => some members
  | _ => none

/-- The text of a text. -/
def string? : Json → Option String
  | string value => some value
  | _ => none

/-- The value of a number that is a natural number. -/
def natural? : Json → Option UInt64
  | number value => value.natural?
  | _ => none

/-- A natural number as a value. -/
def natural (value : UInt64) : Json := number (.natural value)

/-- The object with the given members; of several with one key the last counts. -/
def ofMembers (members : List (String × Json)) : Json := object (Keyed.ofList members)

mutual

/-- How deep arrays and objects nest in a value. -/
def depth : Json → Nat
  | array items => depthItems items + 1
  | object members => depthMembers members + 1
  | _ => 0

/-- How deep arrays and objects nest in some value of a list. -/
def depthItems : List Json → Nat
  | [] => 0
  | item :: rest => max (depth item) (depthItems rest)

/-- How deep arrays and objects nest in some value of a list of members. -/
def depthMembers : List (String × Json) → Nat
  | [] => 0
  | (_, value) :: rest => max (depth value) (depthMembers rest)

end

/-! ### Equality -/

mutual

/-- Whether two values are equal. -/
def beq : Json → Json → Bool
  | null, null => true
  | bool a, bool b => a == b
  | number a, number b => a == b
  | string a, string b => a == b
  | array a, array b => beqItems a b
  | object a, object b => beqMembers a b
  | _, _ => false

/-- Whether two lists of values are equal. -/
def beqItems : List Json → List Json → Bool
  | [], [] => true
  | a :: as, b :: bs => beq a b && beqItems as bs
  | _, _ => false

/-- Whether two lists of members are equal. -/
def beqMembers : List (String × Json) → List (String × Json) → Bool
  | [], [] => true
  | (k, a) :: as, (l, b) :: bs => k == l && beq a b && beqMembers as bs
  | _, _ => false

end

mutual

theorem beq_iff : (a b : Json) → (beq a b = true ↔ a = b)
  | null, b => by cases b <;> simp [beq]
  | bool _, b => by cases b <;> simp [beq]
  | number _, b => by cases b <;> simp [beq]
  | string _, b => by cases b <;> simp [beq]
  | array xs, b => by
      cases b with
      | array ys => simp [beq, beqItems_iff xs ys]
      | _ => simp [beq]
  | object xs, b => by
      cases b with
      | object ys => simp [beq, beqMembers_iff xs ys]
      | _ => simp [beq]

theorem beqItems_iff : (a b : List Json) → (beqItems a b = true ↔ a = b)
  | [], b => by cases b <;> simp [beqItems]
  | x :: xs, b => by
      cases b with
      | nil => simp [beqItems]
      | cons y ys => simp [beqItems, beq_iff x y, beqItems_iff xs ys]

theorem beqMembers_iff : (a b : List (String × Json)) → (beqMembers a b = true ↔ a = b)
  | [], b => by cases b <;> simp [beqMembers]
  | (k, x) :: xs, b => by
      cases b with
      | nil => simp [beqMembers]
      | cons y ys =>
        obtain ⟨l, y⟩ := y
        simp [beqMembers, beq_iff x y, beqMembers_iff xs ys]

end

instance : DecidableEq Json := fun a b => decidable_of_iff _ (beq_iff a b)

end Json

end SqlTree
