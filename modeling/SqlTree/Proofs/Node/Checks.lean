import SqlTree.Node.Check
import SqlTree.Proofs.Outcome

/-!
# What it takes to pass a check

The checks of lists, of slots and of nodes that may be left out pass when what they go through
passes. An unset expression never passes, so that a slot passes if its expression does.

## Main results

* `checkSlot_eq_ok`, `checkSlots_eq_ok`, `checkSlot?_eq_ok`: a slot passes with its expression.
* `checkColumns_eq_ok`, `checkSources_eq_ok`, …: a list passes with its items.
-/

namespace SqlTree

theorem requireText_eq_ok {kind : Kind} {field value : String} :
    requireText kind field value = .ok () ↔ value ≠ "" := by
  rw [requireText]
  split
  · next h => simpa using h
  · next h => simpa using h

/-- An unset expression does not pass its check, so a slot is set if its expression passes. -/
theorem checkSlot_eq_ok {kind : Kind} {slot : String} {e : Expr} :
    checkSlot kind slot e e.check = .ok () ↔ e.check = .ok () := by
  rw [checkSlot]
  split
  · next hu =>
    cases e with
    | unknown => exact iff_of_false nofun nofun
    | _ => exact absurd hu Bool.false_ne_true
  · rfl

theorem checkSlot?_eq_ok {kind : Kind} {slot : String} {e? : Option Expr} :
    checkSlot? kind slot e? = .ok () ↔ ∀ e ∈ e?, e.check = .ok () := by
  cases e? with
  | none => exact iff_of_true rfl nofun
  | some e => simp only [checkSlot?, checkSlot_eq_ok, Option.mem_some_iff, forall_eq']

theorem checkSlots_eq_ok {kind : Kind} {slot : String} {es : List Expr} :
    checkSlots kind slot es = .ok () ↔ ∀ e ∈ es, e.check = .ok () := by
  have h : checkSlots kind slot es = .ok () ↔ ∀ e ∈ es, checkSlot kind slot e e.check = .ok () :=
    checks_eq_ok rfl fun _ _ => rfl
  simpa only [checkSlot_eq_ok] using h

theorem checkArms_eq_ok {arms : List CaseArm} :
    checkArms arms = .ok () ↔ ∀ arm ∈ arms, arm.check = .ok () :=
  checks_eq_ok rfl fun _ _ => rfl

theorem checkJoins_eq_ok {joins : List JoinClause} :
    checkJoins joins = .ok () ↔ ∀ j ∈ joins, j.check = .ok () :=
  checks_eq_ok rfl fun _ _ => rfl

theorem checkSources_eq_ok {sources : List FromTable} :
    checkSources sources = .ok () ↔ ∀ t ∈ sources, t.check = .ok () :=
  checks_eq_ok rfl fun _ _ => rfl

theorem checkColumns_eq_ok {columns : List ResultColumn} :
    checkColumns columns = .ok () ↔ ∀ c ∈ columns, c.check = .ok () :=
  checks_eq_ok rfl fun _ _ => rfl

theorem checkOrder_eq_ok {order : List OrderBy} :
    checkOrder order = .ok () ↔ ∀ o ∈ order, o.check = .ok () :=
  checks_eq_ok rfl fun _ _ => rfl

theorem checkColumnDefs_eq_ok {columns : List ColumnDef} :
    checkColumnDefs columns = .ok () ↔ ∀ c ∈ columns, c.check = .ok () :=
  checks_eq_ok rfl fun _ _ => rfl

theorem checkPrimaryKeys_eq_ok {keys : List PrimaryKey} :
    checkPrimaryKeys keys = .ok () ↔ ∀ k ∈ keys, k.check = .ok () :=
  checks_eq_ok rfl fun _ _ => rfl

theorem checkGroupBy?_eq_ok {g? : Option GroupBy} :
    checkGroupBy? g? = .ok () ↔ ∀ g ∈ g?, g.check = .ok () := by
  cases g? with
  | none => exact iff_of_true rfl nofun
  | some g => simp only [checkGroupBy?, Option.mem_some_iff, forall_eq']

theorem checkQuery?_eq_ok {q? : Option Query} :
    checkQuery? q? = .ok () ↔ ∀ q ∈ q?, q.check = .ok () := by
  cases q? with
  | none => exact iff_of_true rfl nofun
  | some q => simp only [checkQuery?, Option.mem_some_iff, forall_eq']

theorem checkAssignments_eq_ok {assignments : List (String × Expr)} :
    checkAssignments assignments = .ok () ↔
      ∀ a ∈ assignments, requireText .update "column" a.1 = .ok () ∧ a.2.check = .ok () := by
  induction assignments with
  | nil => exact iff_of_true rfl fun a ha => absurd ha List.not_mem_nil
  | cons a rest ih =>
    simp only [checkAssignments, seq_eq_ok, checkSlot_eq_ok, ih, List.forall_mem_cons, and_assoc]

end SqlTree
