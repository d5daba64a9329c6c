/-!
# Association lists in the order of their keys

Members of a JSON object, the kinds of a registry and the locks of a manager are all looked up by
name and listed in the order of their names. This file has the one representation they share: a
list of pairs in ascending order of the keys, where `Keyed.insert` puts a pair at its place and
replaces an earlier value of the same key.

Keys are compared character by character by code point, which is also the order of their UTF-8
bytes.

## Main definitions

* `Keyed.find?`, `Keyed.insert`, `Keyed.ofList`, `Keyed.keys`.
* `Names.insert`, `Names.ofList`: ascending lists of names without values.

## Main results

* `Keyed.find?_insert_self`, `Keyed.find?_insert_of_ne`: insertion changes the value of its key and
  of no other.
-/

namespace SqlTree

namespace Keyed

variable {α : Type}

/-- The value of the first pair whose key is `key`. -/
def find? (key : String) : List (String × α) → Option α
  | [] => none
  | (k, v) :: rest => if k = key then some v else find? key rest

/-- The list with `value` under `key`, at the place of `key` in the order. -/
def insert (key : String) (value : α) : List (String × α) → List (String × α)
  | [] => [(key, value)]
  | (k, v) :: rest =>
    if key = k then (key, value) :: rest
    else if key < k then (key, value) :: (k, v) :: rest
    else (k, v) :: insert key value rest

/-- The pairs inserted one after another, so that the last value of a key stays. -/
def ofList (pairs : List (String × α)) : List (String × α) :=
  pairs.foldl (fun acc pair => insert pair.1 pair.2 acc) []

/-- The keys in their order. -/
def keys (pairs : List (String × α)) : List String :=
  pairs.map Prod.fst

/-- Whether there is a pair with this key. -/
def contains (key : String) (pairs : List (String × α)) : Bool :=
  (find? key pairs).isSome

@[simp] theorem find?_nil (key : String) : find? key ([] : List (String × α)) = none := rfl

theorem find?_cons (key k : String) (v : α) (rest : List (String × α)) :
    find? key ((k, v) :: rest) = if k = key then some v else find? key rest := rfl

@[simp] theorem find?_insert_self (key : String) (value : α) (pairs : List (String × α)) :
    find? key (insert key value pairs) = some value := by
  induction pairs with
  | nil => simp [insert, find?]
  | cons pair rest ih =>
    obtain ⟨k, v⟩ := pair
    by_cases h : key = k
    · simp [insert, find?, h]
    · by_cases hlt : key < k
      · simp [insert, find?, h, hlt]
      · simp [insert, find?, h, hlt, Ne.symm h, ih]

theorem find?_insert_of_ne {key other : String} (h : other ≠ key) (value : α)
    (pairs : List (String × α)) : find? key (insert other value pairs) = find? key pairs := by
  induction pairs with
  | nil => simp [insert, find?, h]
  | cons pair rest ih =>
    obtain ⟨k, v⟩ := pair
    by_cases hk : other = k
    · subst hk
      simp [insert, find?, h]
    · by_cases hlt : other < k
      · simp [insert, find?, h, hk, hlt]
      · simp [insert, find?, hk, hlt, ih]

theorem find?_insert (key other : String) (value : α) (pairs : List (String × α)) :
    find? key (insert other value pairs) = if other = key then some value else find? key pairs := by
  by_cases h : other = key
  · subst h
    simp
  · simp [h, find?_insert_of_ne h]

end Keyed

namespace Names

/-- The ascending list of names with `name` in it. -/
def insert (name : String) : List String → List String
  | [] => [name]
  | n :: rest =>
    if name = n then n :: rest
    else if name < n then name :: n :: rest
    else n :: insert name rest

/-- The names of a list in ascending order, each once. -/
def ofList (names : List String) : List String :=
  names.foldr insert []

@[simp] theorem mem_insert {name x : String} {names : List String} :
    x ∈ insert name names ↔ x = name ∨ x ∈ names := by
  induction names with
  | nil => simp [insert]
  | cons n rest ih =>
    by_cases h : name = n
    · subst h
      simp [insert]
    · by_cases hlt : name < n
      · simp [insert, h, hlt]
      · simp only [insert, h, hlt, if_false, List.mem_cons, ih]
        grind

/-- A name is in the ascending list exactly when it is in the list. -/
@[simp] theorem mem_ofList {x : String} {names : List String} : x ∈ ofList names ↔ x ∈ names := by
  induction names with
  | nil => simp [ofList]
  | cons n rest ih =>
    have : ofList (n :: rest) = insert n (ofList rest) := rfl
    simp [this, ih]

end Names

end SqlTree
