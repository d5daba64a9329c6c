import Mathlib.Data.String.Basic
import SqlTree.Keyed

/-!
# What a keyed list holds

The pairs of a list are inserted one after another, and the last value of a key stays. The list that
comes out has ascending keys, so each of its pairs is found by its key.

## Main definitions

* `Keyed.last?`: the value that a key has after all pairs of a list have been inserted.
* `Keyed.erase`: a list without the pairs of a key.
* `Keyed.Ascending`: a list whose keys are ascending.

## Main results

* `Keyed.find?_ofList`: of several pairs with one key the last is kept.
* `Keyed.ascending_ofList`: the keys are ascending.
* `Keyed.Ascending.ofList_eq`: a list with ascending keys stays as it is.
-/

namespace SqlTree

namespace Keyed

variable {α : Type}

/-- The value of the last pair whose key is `key`. -/
def last? (key : String) : List (String × α) → Option α
  | [] => none
  | (k, v) :: rest => (last? key rest).or (if k = key then some v else none)

@[simp] theorem last?_nil (key : String) : last? key ([] : List (String × α)) = none := rfl

@[simp] theorem last?_cons (key k : String) (v : α) (rest : List (String × α)) :
    last? key ((k, v) :: rest) = (last? key rest).or (if k = key then some v else none) := rfl

@[simp] theorem last?_append (key : String) (pairs more : List (String × α)) :
    last? key (pairs ++ more) = (last? key more).or (last? key pairs) := by
  induction pairs with
  | nil => simp [last?]
  | cons pair pairs ih =>
    rw [List.cons_append, last?, last?, ih, Option.or_assoc]

theorem last?_eq_none {key : String} {pairs : List (String × α)} :
    last? key pairs = none ↔ key ∉ pairs.map Prod.fst := by
  induction pairs with
  | nil => simp
  | cons pair pairs ih =>
    rw [last?, Option.or_eq_none_iff, ih, List.map_cons, List.mem_cons, not_or, and_comm]
    by_cases h : pair.1 = key
    · simp [h]
    · simp [h, Ne.symm h]

/-- Of several pairs with one key the last is kept. -/
theorem find?_ofList (key : String) (pairs : List (String × α)) :
    find? key (ofList pairs) = last? key pairs := by
  have hfold : ∀ acc : List (String × α),
      find? key (pairs.foldl (fun acc pair => insert pair.1 pair.2 acc) acc) =
        (last? key pairs).or (find? key acc) := by
    induction pairs with
    | nil => simp [last?]
    | cons pair pairs ih =>
      intro acc
      rw [List.foldl_cons, ih, find?_insert, last?, Option.or_assoc]
      split <;> rfl
  rw [ofList, hfold, find?_nil, Option.or_none]

/-- The list without the pairs of a key. -/
def erase (key : String) (pairs : List (String × α)) : List (String × α) :=
  pairs.filter fun pair => pair.1 ≠ key

/-- A key that is erased has no value, and every other key has the one it had. -/
theorem find?_erase (key other : String) (pairs : List (String × α)) :
    find? key (erase other pairs) = if other = key then none else find? key pairs := by
  induction pairs with
  | nil => exact (ite_self none).symm
  | cons pair pairs ih =>
    obtain ⟨k, v⟩ := pair
    rw [erase] at ih ⊢
    by_cases hk : k = other
    · rw [List.filter_cons_of_neg (by simpa using hk), ih, find?_cons, hk]
      split <;> rfl
    · rw [List.filter_cons_of_pos (by simpa using hk), find?_cons, find?_cons, ih]
      grind

/-- A key without a value is not one with a value. -/
theorem ne_of_find? {key other : String} {value : α} {pairs : List (String × α)}
    (h : find? key pairs = none) (hother : find? other pairs = some value) : key ≠ other := by
  rintro rfl
  cases h.symm.trans hother

theorem mem_of_find? {key : String} {value : α} {pairs : List (String × α)}
    (h : find? key pairs = some value) : (key, value) ∈ pairs := by
  induction pairs with
  | nil => exact absurd h nofun
  | cons pair pairs ih =>
    obtain ⟨k, v⟩ := pair
    rw [find?_cons] at h
    split at h
    · next hk =>
      rw [← hk, Option.some.inj h]
      exact List.mem_cons_self
    · exact List.mem_cons_of_mem _ (ih h)

/-! ### Ascending keys -/

/-- The keys of a list are ascending, so no key occurs twice. -/
def Ascending (pairs : List (String × α)) : Prop := pairs.Pairwise fun a b => a.1 < b.1

theorem mem_insert {key : String} {value : α} {pairs : List (String × α)} {x : String × α}
    (hx : x ∈ insert key value pairs) : x = (key, value) ∨ x ∈ pairs := by
  induction pairs with
  | nil => exact .inl (List.mem_singleton.mp hx)
  | cons pair pairs ih =>
    obtain ⟨k, v⟩ := pair
    rw [insert] at hx
    split at hx
    · exact (List.mem_cons.mp hx).imp_right (List.mem_cons_of_mem _)
    · split at hx
      · exact List.mem_cons.mp hx
      · rcases List.mem_cons.mp hx with rfl | hx
        · exact .inr List.mem_cons_self
        · exact (ih hx).imp_right (List.mem_cons_of_mem _)

/-- Nothing else is in the list than what has been inserted. -/
theorem mem_of_mem_ofList {pairs : List (String × α)} {x : String × α} (hx : x ∈ ofList pairs) :
    x ∈ pairs := by
  have hfold : ∀ acc : List (String × α),
      x ∈ pairs.foldl (fun acc pair => insert pair.1 pair.2 acc) acc → x ∈ pairs ∨ x ∈ acc := by
    clear hx
    induction pairs with
    | nil => exact fun acc hx => .inr hx
    | cons pair pairs ih =>
      intro acc hx
      rcases ih _ hx with hx | hx
      · exact .inl (List.mem_cons_of_mem _ hx)
      · rcases mem_insert hx with rfl | hx
        · exact .inl List.mem_cons_self
        · exact .inr hx
  exact (hfold [] hx).resolve_right List.not_mem_nil

theorem Ascending.insert {pairs : List (String × α)} (h : Ascending pairs) (key : String)
    (value : α) : Ascending (insert key value pairs) := by
  induction pairs with
  | nil => exact List.pairwise_singleton _ _
  | cons pair pairs ih =>
    obtain ⟨k, v⟩ := pair
    obtain ⟨hhead, htail⟩ := List.pairwise_cons.mp h
    rw [Keyed.insert]
    split
    · next heq => exact List.pairwise_cons.mpr ⟨heq ▸ hhead, htail⟩
    · next hne =>
      split
      · next hlt =>
        refine List.pairwise_cons.mpr ⟨fun x hx => ?_, h⟩
        rcases List.mem_cons.mp hx with rfl | hx
        · exact hlt
        · exact String.lt_trans hlt (hhead x hx)
      · next hge =>
        refine List.pairwise_cons.mpr ⟨fun x hx => ?_, ih htail⟩
        rcases mem_insert hx with rfl | hx
        · exact lt_of_le_of_ne (not_lt.mp hge) (Ne.symm hne)
        · exact hhead x hx

theorem ascending_ofList (pairs : List (String × α)) : Ascending (ofList pairs) := by
  have hfold : ∀ acc : List (String × α), Ascending acc →
      Ascending (pairs.foldl (fun acc pair => insert pair.1 pair.2 acc) acc) := by
    induction pairs with
    | nil => exact fun _ h => h
    | cons pair pairs ih => exact fun acc h => ih _ (h.insert pair.1 pair.2)
  exact hfold [] List.Pairwise.nil

/-- In a list with ascending keys a pair is found by its key. -/
theorem Ascending.mem_iff {pairs : List (String × α)} (h : Ascending pairs) {key : String}
    {value : α} : (key, value) ∈ pairs ↔ find? key pairs = some value := by
  refine ⟨fun hmem => ?_, mem_of_find?⟩
  induction pairs with
  | nil => exact absurd hmem List.not_mem_nil
  | cons pair pairs ih =>
    obtain ⟨k, v⟩ := pair
    obtain ⟨hhead, htail⟩ := List.pairwise_cons.mp h
    rw [find?_cons]
    rcases List.mem_cons.mp hmem with heq | hmem
    · obtain ⟨rfl, rfl⟩ := Prod.mk.inj heq
      exact if_pos rfl
    · rw [if_neg (ne_of_lt (hhead _ hmem)), ih htail hmem]

/-- A pair whose key comes after all others is inserted at the end. -/
theorem insert_of_forall_lt {key : String} {value : α} {pairs : List (String × α)}
    (h : ∀ p ∈ pairs, p.1 < key) : insert key value pairs = pairs ++ [(key, value)] := by
  induction pairs with
  | nil => rfl
  | cons pair pairs ih =>
    obtain ⟨k, v⟩ := pair
    obtain ⟨hk, hrest⟩ := List.forall_mem_cons.mp h
    rw [insert, if_neg (ne_of_gt hk), if_neg (lt_asymm hk), ih hrest]
    rfl

/-- A list with ascending keys stays as it is. -/
theorem Ascending.ofList_eq {pairs : List (String × α)} (h : Ascending pairs) :
    ofList pairs = pairs := by
  have hfold : ∀ acc : List (String × α), Ascending (acc ++ pairs) →
      pairs.foldl (fun acc pair => Keyed.insert pair.1 pair.2 acc) acc = acc ++ pairs := by
    intro acc hacc
    induction pairs generalizing acc with
    | nil => exact (List.append_nil acc).symm
    | cons pair pairs ih =>
      have hlt : ∀ p ∈ acc, p.1 < pair.1 := fun p hp =>
        (List.pairwise_append.mp hacc).2.2 p hp pair List.mem_cons_self
      rw [List.foldl_cons, insert_of_forall_lt hlt, ih (List.pairwise_cons.mp h).2]
      · rw [List.append_assoc, List.singleton_append]
      · rwa [List.append_assoc, List.singleton_append]
  exact hfold [] h

end Keyed

end SqlTree
