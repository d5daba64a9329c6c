import SqlTree.Draft.Basic
import SqlTree.Proofs.Outcome

/-!
# Edits in place

An edit usually reads the tree first, checks what it is given against it, and changes the tree in
the end. Such an edit can only fail before it changes anything. So it leaves the tree as it was if
it fails, and may as well be tried on a copy of the tree.

## Main definitions

* `Edit.Steady`: an edit that leaves the tree as it was if it fails.

## Main results

* `Edit.Steady.check`, `Edit.Steady.guard`: what is checked first keeps an edit steady.
* `Edit.Steady.leaves_eq`: a steady edit may be tried on a copy.
* `Edit.result_check`, `Edit.result_guard`: the tree after an edit, from those of its parts.
-/

namespace SqlTree

namespace Edit

variable {α : Type} {f : Edit α Unit} {a b : α}

/-! ### What an edit leaves -/

/-- An edit that fails leaves the tree as it was. -/
def Steady (f : Edit α Unit) : Prop := ∀ a left e, f a = .error e left → left = a

namespace Steady

protected theorem modify (change : α → α) : Steady (modify change : Edit α Unit) := nofun

protected theorem set (b : α) : Steady (set b : Edit α Unit) := nofun

protected theorem throw (e : Error) : Steady (throw e : Edit α Unit) := by
  rintro a left e' ⟨⟩
  rfl

/-- What is read from the tree is no change of it. -/
protected theorem get {k : α → Edit α Unit} (h : ∀ a, Steady (k a)) : Steady (get >>= k) :=
  fun a => h a a

/-- A check that comes before an edit is no change. -/
theorem check {x : Except Error Unit} (h : f.Steady) : Steady (do x; f) := by
  cases x with
  | ok _ => exact h
  | error e => exact .throw e

theorem guard {c : Prop} [Decidable c] {e : Error} (h : f.Steady) :
    Steady (if c then (do throw e; f) else f) := by
  split
  · exact .throw e
  · exact h

/-- A steady edit may be tried on a copy, which is given up if it fails. -/
theorem leaves_eq (h : f.Steady) (a : α) : f.leaves a = attempt a (f.result a) := by
  unfold leaves result
  cases hf : f a with
  | ok _ after => rfl
  | error e left =>
    obtain rfl := h a left e hf
    rfl

end Steady

/-! ### Edits that succeed -/

theorem result_check (x : Except Error Unit) (f : Edit α Unit) (a : α) :
    Edit.result (do x; f) a = (do x; f.result a) := by
  cases x <;> rfl

theorem result_get (k : α → Edit α Unit) (a : α) : Edit.result (get >>= k) a = (k a).result a := rfl

theorem result_throw (e : Error) (a : α) : Edit.result (throw e) a = .error e := rfl

theorem result_guard {c : Prop} [Decidable c] (e : Error) (f : Edit α Unit) (a : α) :
    Edit.result (if c then (do throw e; f) else f) a =
      if c then (do throw e; f.result a) else f.result a := by
  split <;> rfl

theorem result_set_eq_ok {next : α} : Edit.result (set next) a = .ok b ↔ b = next :=
  ⟨fun h => (Except.ok.inj h).symm, fun h => h ▸ rfl⟩

theorem result_modify_eq_ok {change : α → α} :
    Edit.result (modify change) a = .ok b ↔ b = change a :=
  ⟨fun h => (Except.ok.inj h).symm, fun h => h ▸ rfl⟩

/-- A tree that has passed a check is set. -/
theorem result_check_set_eq_ok {x : Except Error Unit} {next : α} :
    Edit.result (do x; set next) a = .ok b ↔ b = next ∧ x = .ok () := by
  rw [result_check, seq_eq_ok, result_set_eq_ok, and_comm]

end Edit

end SqlTree
