import SqlTree.Error

/-!
# Building step by step

A tree is put together by steps that change it in place. A step may fail, and then, too, there is a
tree that it leaves, from which the steps after it go on.

## Main definitions

* `Edit`: what changes a tree in place and may fail.
* `Edit.leaves`, `Edit.result`: the tree after an edit with its error, and unless it failed.
* `attempt`: the tree after a step that is tried on a copy.
* `runSteps`: the tree after a list of edits, whichever of them fail.
-/

namespace SqlTree

variable {σ α : Type}

/-- What changes a tree of type `α` in place. When it fails, there is a tree as well. -/
abbrev Edit (α : Type) : Type → Type := EStateM Error α

/-- A check is an edit that only fails or succeeds. -/
instance : MonadLift (Except Error) (Edit α) := ⟨MonadExcept.ofExcept⟩

/-- The tree that an edit leaves, and its error if it fails. -/
def Edit.leaves (f : Edit α Unit) (before : α) : α × Option Error :=
  match f before with
  | .ok () after => (after, none)
  | .error e after => (after, some e)

/-- The tree after an edit that succeeds, or its error. -/
def Edit.result (f : Edit α Unit) (before : α) : Except Error α :=
  match f before with
  | .ok () after => .ok after
  | .error e _ => .error e

/-- The value after a step that is tried on a copy, which is given up if the step fails, and the
error then. -/
def attempt (before : α) : Except Error α → α × Option Error
  | .ok after => (after, none)
  | .error e => (before, some e)

/-- The tree that a list of steps leaves, each one going on from what the step before it leaves. -/
def runSteps (perform : σ → Edit α Unit) (steps : List σ) (start : α) : α :=
  steps.foldl (fun a s => ((perform s).leaves a).1) start

@[simp] theorem runSteps_nil (perform : σ → Edit α Unit) (start : α) :
    runSteps perform [] start = start := rfl

@[simp] theorem runSteps_cons (perform : σ → Edit α Unit) (s : σ) (steps : List σ) (start : α) :
    runSteps perform (s :: steps) start =
      runSteps perform steps ((perform s).leaves start).1 := rfl

end SqlTree
