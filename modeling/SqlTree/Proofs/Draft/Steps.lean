import SqlTree.Proofs.Draft.Edits

/-!
# Steps that succeed

A tree is put together by edits of which the failed ones change nothing. So what a list of steps
builds is what those of them build that succeed, and a tree can be built if there are steps to it
that all succeed.

Often a step is a change that is refused just if the outcome would break a rule. Then every list of
steps keeps the rule, and a tree is built by adding its items one by one as long as its beginnings
keep the rule as well.

## Main definitions

* `performAll`: performs steps until one fails.
* `Guarded`: the steps are the changes that keep a rule.

## Main results

* `performAll_induction`, `kept_iff_of_performAll`: what all steps keep, or those of some sort.
* `exists_performAll_eq_runSteps`: a list of steps builds what those of them build that succeed.
* `Guarded.of_performAll`, `Guarded.runSteps`: a rule that guards the steps is kept by them.
* `Guarded.performAll_map`: items are added one by one.
-/

namespace SqlTree

variable {σ α β : Type} {step : σ → α → Except Error α} {perform : σ → Edit α Unit}
variable {s : σ} {steps more : List σ} {a b : α}

/-- The value after steps that all succeed, or the error of the first that fails. -/
def performAll (step : σ → α → Except Error α) (steps : List σ) (start : α) : Except Error α :=
  steps.foldlM (fun a s => step s a) start

@[simp] theorem performAll_nil : performAll step [] a = .ok a := rfl

theorem performAll_cons :
    performAll step (s :: steps) a = (step s a >>= performAll step steps) :=
  List.foldlM_cons

theorem performAll_append :
    performAll step (steps ++ more) a = (performAll step steps a >>= performAll step more) :=
  List.foldlM_append

theorem performAll_singleton : performAll step [s] a = step s a := by
  rw [performAll_cons]
  cases step s a <;> rfl

/-- What every step that succeeds keeps is kept by steps that all succeed. -/
theorem performAll_induction {P : α → Prop} (keep : ∀ s a b, P a → step s a = .ok b → P b)
    (h : performAll step steps a = .ok b) (ha : P a) : P b := by
  induction steps generalizing a with
  | nil =>
    obtain rfl := Except.ok.inj h
    exact ha
  | cons s steps ih =>
    rw [performAll_cons, bind_eq_ok] at h
    obtain ⟨next, hs, hrest⟩ := h
    exact ih hrest (keep s a next ha hs)

/-- If no step brings a property about, and those of some sort are the ones that keep it, then the
property is there after steps that all succeed just if it is there before and all of them are of
this sort. -/
theorem kept_iff_of_performAll {P : α → Prop} {Keeps : σ → Prop}
    (hstep : ∀ s a b, step s a = .ok b → (P b ↔ P a ∧ Keeps s))
    (h : performAll step steps a = .ok b) : P b ↔ P a ∧ ∀ s ∈ steps, Keeps s := by
  induction steps generalizing a with
  | nil =>
    obtain rfl := Except.ok.inj h
    exact (and_iff_left fun s hs => absurd hs List.not_mem_nil).symm
  | cons s steps ih =>
    rw [performAll_cons, bind_eq_ok] at h
    obtain ⟨next, hs, hrest⟩ := h
    rw [ih hrest, hstep s a next hs, and_assoc, List.forall_mem_cons]

/-- If failed steps change nothing, then what a list of steps builds is built by those of them that
succeed, one after another. -/
theorem exists_performAll_eq_runSteps (hsteady : ∀ s, (perform s).Steady) (steps : List σ) (a : α) :
    ∃ kept, kept.Sublist steps ∧
      performAll (fun s => (perform s).result) kept a = .ok (runSteps perform steps a) := by
  induction steps generalizing a with
  | nil => exact ⟨[], .slnil, rfl⟩
  | cons s steps ih =>
    rw [runSteps_cons, (hsteady s).leaves_eq]
    cases hs : (perform s).result a with
    | ok next =>
      obtain ⟨kept, hsub, hkept⟩ := ih next
      refine ⟨s :: kept, hsub.cons_cons s, ?_⟩
      rw [performAll_cons, hs]
      exact hkept
    | error e =>
      obtain ⟨kept, hsub, hkept⟩ := ih a
      exact ⟨kept, hsub.cons s, hkept⟩

/-! ### Guarded steps -/

/-- Where a rule is kept, a step is the change that belongs to it, and it succeeds just if the rule
is kept after it. -/
def Guarded (step : σ → α → Except Error α) (change : σ → α → α) (Keeps : α → Prop) : Prop :=
  ∀ s a b, Keeps a → (step s a = .ok b ↔ b = change s a ∧ Keeps b)

/-- A change after which the rule is kept is accepted without being looked at. -/
theorem accepted_iff {Keeps : α → Prop} (h : Keeps a) :
    (.ok a : Except Error α) = .ok b ↔ b = a ∧ Keeps b := by
  constructor
  · rintro ⟨⟩
    exact ⟨rfl, h⟩
  · rintro ⟨rfl, -⟩
    rfl

namespace Guarded

variable {change : σ → α → α} {Keeps : α → Prop}

theorem step_eq (hg : Guarded step change Keeps) (ha : Keeps a) (hb : Keeps (change s a)) :
    step s a = .ok (change s a) :=
  (hg s a _ ha).mpr ⟨rfl, hb⟩

/-- A rule that guards the steps is kept by steps that all succeed. -/
theorem of_performAll (hg : Guarded step change Keeps) (h : performAll step steps a = .ok b)
    (ha : Keeps a) : Keeps b :=
  performAll_induction (fun s a b ha hs => ((hg s a b ha).mp hs).2) h ha

/-- A rule that guards the steps is kept by any list of them if the failed ones change nothing. -/
theorem runSteps (hsteady : ∀ s, (perform s).Steady)
    (hg : Guarded (fun s => (perform s).result) change Keeps) (steps : List σ) (ha : Keeps a) :
    Keeps (runSteps perform steps a) := by
  obtain ⟨kept, -, hkept⟩ := exists_performAll_eq_runSteps hsteady steps a
  exact hg.of_performAll hkept ha

/-- If each step adds an item, and the rule is kept after some first ones of the items whichever
they are, then all of them can be added. -/
theorem performAll_map (hg : Guarded step change Keeps) {add : β → σ} (build : List β → α)
    (hadd : ∀ done b, change (add b) (build done) = build (done ++ [b])) {items : List β}
    (hkeeps : ∀ done, done <+: items → Keeps (build done)) :
    performAll step (items.map add) (build []) = .ok (build items) := by
  -- The items that have been added are a beginning of the list, so they grow from the left.
  suffices h : ∀ done rest, items = done ++ rest →
      performAll step (rest.map add) (build done) = .ok (build items) from h [] items rfl
  intro done rest
  induction rest generalizing done with
  | nil =>
    intro hitems
    rw [hitems, List.append_nil, List.map_nil, performAll_nil]
  | cons b rest ih =>
    intro hitems
    have hnext : items = (done ++ [b]) ++ rest := by rw [hitems, List.append_cons]
    have hbefore : Keeps (build done) := hkeeps done ⟨b :: rest, hitems.symm⟩
    have hafter : Keeps (change (add b) (build done)) := by
      rw [hadd]
      exact hkeeps _ ⟨rest, hnext.symm⟩
    rw [List.map_cons, performAll_cons, hg.step_eq hbefore hafter, hadd]
    exact ih _ hnext

end Guarded

end SqlTree
