import SqlTree.Error

/-!
# Outcomes of steps and checks

What is done in several steps succeeds when each step does, and a check that goes through a list
succeeds when it does so for each item.

## Main results

* `pure_eq_ok`, `bind_eq_ok`, `seq_eq_ok`, `map_eq_ok`: a step followed by others succeeds.
* `guard_eq_ok`, `checks_eq_ok`: a condition is kept and what follows succeeds; all items pass.
-/

namespace SqlTree

theorem ok_bind {ε α β : Type} (a : α) (f : α → Except ε β) : (Except.ok a >>= f) = f a := rfl

theorem bind_eq_ok {ε α β : Type} {x : Except ε α} {f : α → Except ε β} {b : β} :
    (x >>= f) = .ok b ↔ ∃ a, x = .ok a ∧ f a = .ok b := by
  cases x with
  | ok a => simp [ok_bind]
  | error e => exact ⟨nofun, nofun⟩

theorem pure_eq_ok {ε α : Type} {a b : α} : (pure a : Except ε α) = .ok b ↔ a = b :=
  ⟨Except.ok.inj, congrArg Except.ok⟩

theorem exists_unit {P : Unit → Prop} : (∃ u, P u) ↔ P () := ⟨fun ⟨_, h⟩ => h, fun h => ⟨(), h⟩⟩

theorem seq_eq_ok {ε β : Type} {x : Except ε Unit} {f : Unit → Except ε β} {b : β} :
    (x >>= f) = .ok b ↔ x = .ok () ∧ f () = .ok b :=
  bind_eq_ok.trans exists_unit

theorem map_eq_ok {ε α β : Type} {x : Except ε α} {f : α → β} {b : β} :
    f <$> x = .ok b ↔ ∃ a, x = .ok a ∧ f a = b := by
  cases x with
  | ok a =>
    refine ⟨fun h => ⟨a, rfl, Except.ok.inj h⟩, fun ⟨a', h, hb⟩ => ?_⟩
    obtain rfl := Except.ok.inj h
    exact congrArg Except.ok hb
  | error e => exact ⟨nofun, nofun⟩

theorem guard_eq_ok {α : Type} {c : Prop} [Decidable c] {e : Error} {x : Except Error α} {a : α} :
    (if c then (do throw e; x) else x) = .ok a ↔ ¬c ∧ x = .ok a := by
  split
  · next hc => exact ⟨nofun, fun h => absurd hc h.1⟩
  · next hc => exact ⟨fun h => ⟨hc, h⟩, fun h => h.2⟩

/-- A check that goes through a list succeeds if it does so for each item. -/
theorem checks_eq_ok {α : Type} {one : α → Except Error Unit} {all : List α → Except Error Unit}
    (hnil : all [] = .ok ()) (hcons : ∀ a rest, all (a :: rest) = (do one a; all rest))
    {items : List α} : all items = .ok () ↔ ∀ a ∈ items, one a = .ok () := by
  induction items with
  | nil => exact iff_of_true hnil fun a ha => absurd ha List.not_mem_nil
  | cons a rest ih => rw [hcons, seq_eq_ok, ih, List.forall_mem_cons]

end SqlTree
