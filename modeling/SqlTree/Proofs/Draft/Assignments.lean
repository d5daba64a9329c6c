import Mathlib.Data.List.Nodup
import SqlTree.Draft.Change
import SqlTree.Proofs.Draft.Conditions
import SqlTree.Proofs.Keyed

/-!
# Building updates

An update is given its schema, its assignments and its conditions by steps in any order. A column
that is given several values keeps the place of the first one and has the last one. No step touches
what steps of another kind set, so that it does not matter how the steps of different kinds are
interleaved.

## Main definitions

* `Update.assignmentsOf`, `Update.schemasOf`: the assignments and the schemas among the steps.
* `Update.firstPlace`: the place at which a column is given first.
* `Update.Merges`: assignments with each of the given columns once, where it is given first and with
  the value that it is given last.

## Main results

* `Update.Merges.assign`: one more assignment is merged with those before it.
* `Update.Merges.eq`: there is only one way to merge assignments.
* `Update.merged_by_steps`: the assignments of an update are merged, and an update depends only on
  the steps of each kind.
-/

namespace SqlTree.Update

variable {given xs ys : List (String × Expr)} {column : String} {value : Expr}

/-! ### What is given by steps -/

/-- The assignments that an update is given. -/
def assignmentsOf (steps : List Step) : List (String × Expr) :=
  steps.filterMap fun
    | .assign c v => some (c, v)
    | _ => none

/-- The schemas that an update is given. -/
def schemasOf (steps : List Step) : List String :=
  steps.filterMap fun
    | .schema s => some s
    | _ => none

/-- The place at which a column is given first, which is the end of the list if it is not given. -/
def firstPlace (given : List (String × Expr)) (column : String) : Nat :=
  (given.map Prod.fst).idxOf column

/-- Assignments in which each of the given columns stands once, in the order in which the columns
are given first, and with the value that it is given last. -/
structure Merges (given assignments : List (String × Expr)) : Prop where
  once : (assignments.map Prod.fst).Nodup
  inOrder : (assignments.map Prod.fst).Pairwise fun a b => firstPlace given a < firstPlace given b
  value : ∀ column value, (column, value) ∈ assignments ↔ Keyed.last? column given = some value

/-- A column that is given keeps its first place when more is given. -/
theorem firstPlace_append (h : column ∈ given.map Prod.fst) (more : List (String × Expr)) :
    firstPlace (given ++ more) column = firstPlace given column := by
  rw [firstPlace, List.map_append, List.idxOf_append_of_mem h, firstPlace]

/-- A column that is given for the first time comes after all that are given before. -/
theorem firstPlace_lt {c : String} (hc : c ∈ given.map Prod.fst)
    (hnew : column ∉ given.map Prod.fst) (value : Expr) :
    firstPlace given c < firstPlace (given ++ [(column, value)]) column := by
  rw [firstPlace, firstPlace, List.map_append, List.idxOf_append_of_notMem hnew]
  exact Nat.lt_add_right _ (List.idxOf_lt_length_of_mem hc)

/-! ### Single assignments -/

/-- An assignment to a column that is not there comes last. -/
theorem assign_of_notMem (h : column ∉ xs.map Prod.fst) (value : Expr) :
    assign column value xs = xs ++ [(column, value)] := by
  induction xs with
  | nil => rfl
  | cons x xs ih =>
    obtain ⟨hhead, htail⟩ := not_or.mp (mt List.mem_cons.mpr h)
    rw [assign, if_neg (Ne.symm hhead), ih htail, List.cons_append]

/-- An assignment to a column that is there changes no columns. -/
theorem map_fst_assign (h : column ∈ xs.map Prod.fst) (value : Expr) :
    (assign column value xs).map Prod.fst = xs.map Prod.fst := by
  induction xs with
  | nil => exact absurd h List.not_mem_nil
  | cons x xs ih =>
    by_cases hx : x.1 = column
    · rw [assign, if_pos hx, List.map_cons, List.map_cons]
    · have htail : column ∈ xs.map Prod.fst := (List.mem_cons.mp h).resolve_left (Ne.symm hx)
      rw [assign, if_neg hx, List.map_cons, List.map_cons, ih htail]

/-- After an assignment its column has the value, and all other columns have theirs. -/
theorem mem_assign (h : (xs.map Prod.fst).Nodup) {c : String} {v : Expr} :
    (c, v) ∈ assign column value xs ↔ if c = column then v = value else (c, v) ∈ xs := by
  induction xs with
  | nil => by_cases hc : c = column <;> simp [assign, hc]
  | cons x xs ih =>
    obtain ⟨k, w⟩ := x
    obtain ⟨hk, hrest⟩ := List.nodup_cons.mp h
    have hnot (v : Expr) : (k, v) ∉ xs := fun hmem => hk (List.mem_map.mpr ⟨_, hmem, rfl⟩)
    by_cases hkc : k = column
    · subst hkc
      by_cases hc : c = k
      · subst hc
        simp [assign, hnot]
      · simp [assign, hc]
    · by_cases hc : c = column
      · subst hc
        simp [assign, hkc, ih hrest, Ne.symm hkc]
      · simp [assign, hkc, ih hrest, hc]

/-! ### Merged assignments -/

namespace Merges

theorem nil : Merges [] [] where
  once := List.nodup_nil
  inOrder := List.Pairwise.nil
  value _ _ := iff_of_false List.not_mem_nil nofun

/-- The columns of merged assignments are those that are given. -/
theorem mem_columns (h : Merges given xs) :
    column ∈ xs.map Prod.fst ↔ column ∈ given.map Prod.fst := by
  have hgiven : column ∈ given.map Prod.fst ↔ ∃ v, Keyed.last? column given = some v := by
    rw [← Option.ne_none_iff_exists', Ne, Keyed.last?_eq_none, not_not]
  rw [hgiven, List.mem_map]
  constructor
  · rintro ⟨⟨c, v⟩, hmem, rfl⟩
    exact ⟨v, (h.value c v).mp hmem⟩
  · rintro ⟨v, hv⟩
    exact ⟨(column, v), (h.value column v).mpr hv, rfl⟩

/-- After one more assignment each column has the value that it is given last. -/
theorem mem_assign_iff (h : Merges given xs) (c : String) (v : Expr) :
    (c, v) ∈ Update.assign column value xs ↔
      Keyed.last? c (given ++ [(column, value)]) = some v := by
  rw [mem_assign h.once, Keyed.last?_append, Keyed.last?_cons, Keyed.last?_nil, Option.none_or]
  by_cases hc : c = column
  · simp [hc, eq_comm]
  · simp [hc, Ne.symm hc, h.value]

/-- One more assignment is merged with those before it. -/
theorem assign (h : Merges given xs) (column : String) (value : Expr) :
    Merges (given ++ [(column, value)]) (assign column value xs) := by
  have hplace : ∀ c ∈ xs.map Prod.fst,
      firstPlace (given ++ [(column, value)]) c = firstPlace given c :=
    fun c hc => firstPlace_append (h.mem_columns.mp hc) _
  have horder : (xs.map Prod.fst).Pairwise fun a b =>
      firstPlace (given ++ [(column, value)]) a < firstPlace (given ++ [(column, value)]) b :=
    h.inOrder.imp_of_mem fun ha hb hlt => by rwa [hplace _ ha, hplace _ hb]
  by_cases hmem : column ∈ xs.map Prod.fst
  · have hcolumns := map_fst_assign hmem value
    exact ⟨hcolumns ▸ h.once, hcolumns ▸ horder, h.mem_assign_iff⟩
  · have hcolumns : (Update.assign column value xs).map Prod.fst = xs.map Prod.fst ++ [column] := by
      rw [assign_of_notMem hmem, List.map_append, List.map_singleton]
    have hlast : ∀ c ∈ xs.map Prod.fst, firstPlace (given ++ [(column, value)]) c <
        firstPlace (given ++ [(column, value)]) column := by
      intro c hc
      rw [hplace c hc]
      exact firstPlace_lt (h.mem_columns.mp hc) (mt h.mem_columns.mpr hmem) value
    have hordered := List.pairwise_append.mpr
      ⟨horder, List.pairwise_singleton _ _, fun c hc => List.forall_mem_singleton.mpr (hlast c hc)⟩
    rw [← hcolumns] at hordered
    exact ⟨hordered.imp fun hlt heq => absurd (heq ▸ hlt) (lt_irrefl _), hordered, h.mem_assign_iff⟩

/-- There is only one way to merge assignments. -/
theorem eq (hx : Merges given xs) (hy : Merges given ys) : xs = ys := by
  have hperm : xs.Perm ys := by
    refine (List.perm_ext_iff_of_nodup (List.Nodup.of_map _ hx.once)
      (List.Nodup.of_map _ hy.once)).mpr ?_
    rintro ⟨c, v⟩
    rw [hx.value, hy.value]
  have hpairwise {zs : List (String × Expr)} (h : Merges given zs) := List.pairwise_map.mp h.inOrder
  exact hperm.eq_of_pairwise (fun a b _ _ hab hba => absurd hab (lt_asymm hba)) (hpairwise hx)
    (hpairwise hy)

/-- Assignments that are made one after another are merged. -/
theorem foldl_assign (given : List (String × Expr)) :
    Merges given (given.foldl (fun xs a => Update.assign a.1 a.2 xs) []) := by
  -- The assignments that have been made are a beginning of the list, so they grow from the left.
  suffices h : ∀ done rest xs, given = done ++ rest → Merges done xs →
      Merges given (rest.foldl (fun xs a => Update.assign a.1 a.2 xs) xs) from
    h [] given [] rfl .nil
  intro done rest
  induction rest generalizing done with
  | nil =>
    rintro xs hgiven h
    rwa [hgiven, List.append_nil]
  | cons a rest ih =>
    rintro xs hgiven h
    rw [List.append_cons] at hgiven
    exact ih (done ++ [a]) _ hgiven (h.assign a.1 a.2)

end Merges

/-! ### All steps of an update -/

/-- What steps make of an update: the last schema stays, and the assignments and the conditions are
added to those that are there. -/
theorem foldl_step (steps : List Step) (u : Update) :
    steps.foldl (fun u s => step s u) u =
      ⟨(schemasOf steps).getLast?.or u.schema, u.name,
        (assignmentsOf steps).foldl (fun xs a => assign a.1 a.2 xs) u.assignments,
        (conditionsOf steps).foldl (fun acc c => some (Expr.conjoin acc c)) u.condition⟩ := by
  induction steps generalizing u with
  | nil => rfl
  | cons s steps ih =>
    rw [List.foldl_cons, ih]
    cases s with
    | schema s =>
      have hlast : (schemasOf (.schema s :: steps)).getLast? =
          some ((schemasOf steps).getLast?.getD s) := List.getLast?_cons
      rw [hlast, Option.some_or, step, Option.or_some]
      rfl
    | assign c v => rfl
    | condition e => rfl

/-- An update that is built by steps has each of the columns that it is given once, where the column
is given first and with the value that it is given last. It has the last of the schemas that it is
given, and its conditions as one. So it depends only on the steps of each kind, and not on how they
are interleaved. -/
theorem merged_by_steps (name : String) (steps : List Step) :
    ∃ assignments, (∀ xs, Merges (assignmentsOf steps) xs ↔ xs = assignments) ∧
      ∀ interleaved, schemasOf interleaved = schemasOf steps →
        assignmentsOf interleaved = assignmentsOf steps →
        conditionsOf interleaved = conditionsOf steps →
        interleaved.foldl (fun u s => step s u) (.of name) =
          ⟨(schemasOf steps).getLast?, name, assignments,
            Expr.conjoinAll (conditionsOf steps)⟩ := by
  have hmerges := Merges.foldl_assign (assignmentsOf steps)
  refine ⟨_, fun xs => ⟨fun h => h.eq hmerges, fun h => h ▸ hmerges⟩, ?_⟩
  intro interleaved hschemas hassignments hconditions
  rw [foldl_step, hschemas, hassignments, hconditions, of, Option.or_none]
  rfl

/-- An update of students whose name is given again after another column, and whose schema is given
again at the end. It is the same if the steps of each kind are performed together. -/
theorem merged_by_steps_student :
    let adult : Expr := .ofColumn "adult"
    let left : Expr := .ofColumn "left"
    let steps : List Step := [.assign "name" left, .condition adult, .schema "old",
      .assign "class" left, .assign "name" adult, .condition left, .schema "school"]
    let grouped : List Step := [.schema "old", .schema "school", .condition adult, .condition left,
      .assign "name" left, .assign "class" left, .assign "name" adult]
    let u : Update :=
      ⟨some "school", "student", [("name", adult), ("class", left)],
        some (.group .and [adult, left])⟩
    Merges [("name", left), ("class", left), ("name", adult)] u.assignments ∧
      steps.foldl (fun u s => step s u) (.of "student") = u ∧
      grouped.foldl (fun u s => step s u) (.of "student") = u := by
  intro adult left steps grouped u
  obtain ⟨assignments, hmerges, hbuilt⟩ := merged_by_steps "student" steps
  have hsteps := hbuilt steps rfl rfl rfl
  have hgrouped := hbuilt grouped rfl rfl rfl
  obtain rfl : u.assignments = assignments := congrArg Update.assignments hsteps
  exact ⟨(hmerges _).mpr rfl, hsteps, hgrouped⟩

end SqlTree.Update
