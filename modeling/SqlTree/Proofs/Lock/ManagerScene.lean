import SqlTree.Lock.ManagerRun

/-!
# Calls on the manager in any order

A `ManagerMove` is the beginning of a call on the manager, or one step of a call that has begun, or
the giving back of a permit; a run is any list of moves. A move that is not possible changes
nothing. So the runs are exactly the orders in which any number of sessions can make their steps.
What is done on a single lock behind the back of the manager is not a move.

## Main definitions

* `ManagerMove`, `Manager.move`, `Manager.run`.
* `ManagerCommand.IsCall`: the commands that go through the manager only.

## Main results

* `Manager.run_induction`: what every move keeps is kept by every run.
* `Manager.exists_run_eq`: what such a command does is a run.
-/

namespace SqlTree

/-- What can happen to a manager between two states that others see. -/
inductive ManagerMove where
  | table (name : String)
  | createTable (name : String)
  | dropTable (name : String) (session : Session)
  | acquire (statement : Statement) (session : Session)
  | acquireAccess (access : Access) (session : Session)
  /-- A call makes its next step. -/
  | act (request : Nat)
  /-- A call that waits is not wanted any more. -/
  | abandon (request : Nat)
  /-- A permit is given back. -/
  | release (request : Nat)
  | advance (ms : Nat)

namespace Manager

/-- The manager after a move. -/
def move (m : Manager) : ManagerMove → Manager
  | .table name => (m.table name).1
  | .createTable name => (m.createTable name).1
  | .dropTable name session =>
    match m.beginDrop name session with
    | .ok m' => m'
    | .error _ => m.countCall
  | .acquire s session => m.beginStatement s session
  | .acquireAccess access session => m.beginAcquire access session
  | .act request => (m.act request).1
  | .abandon request =>
    match m.call? request with
    | some c => m.abandon c
    | none => m
  | .release request =>
    match m.permit? request with
    | some p => m.releasePermit p
    | none => m
  | .advance ms => m.advance ms

/-- The manager after a list of moves. -/
def run (m : Manager) (moves : List ManagerMove) : Manager := moves.foldl move m

@[simp] theorem run_nil (m : Manager) : m.run [] = m := rfl

@[simp] theorem run_cons (m : Manager) (mv : ManagerMove) (moves : List ManagerMove) :
    m.run (mv :: moves) = (m.move mv).run moves := rfl

theorem run_append (m : Manager) (moves more : List ManagerMove) :
    m.run (moves ++ more) = (m.run moves).run more := by
  simp [run]

/-- What every move keeps is kept by every run. -/
theorem run_induction {P : Manager → Prop} (keep : ∀ m mv, P m → P (m.move mv))
    (m : Manager) (h : P m) (moves : List ManagerMove) : P (m.run moves) := by
  induction moves generalizing m with
  | nil => exact h
  | cons mv moves ih => exact ih (m.move mv) (keep m mv h)

end Manager

/-! ### Commands as runs -/

/-- Whether a command goes through the manager only. The two others change a single lock, whoever
holds it. -/
def ManagerCommand.IsCall : ManagerCommand → Prop
  | .cancel .. => False
  | .releaseLock .. => False
  | _ => True

namespace Manager

/-- Steps of one call in a row, as a run. -/
theorem exists_run_runCall (request steps : Nat) (m : Manager) :
    ∃ moves, (runCall request steps m).1 = m.run moves := by
  induction steps generalizing m with
  | zero => exact ⟨[], rfl⟩
  | succ steps ih =>
    rw [runCall]
    split
    · split
      · next m' _ h => exact ⟨[.act request], by rw [run_cons, move, h]; rfl⟩
      · next m' h =>
        obtain ⟨moves, hm⟩ := ih m'
        exact ⟨.act request :: moves, by rw [run_cons, move, h]; exact hm⟩
    · exact ⟨[], rfl⟩

/-- A round of steps, as a run. -/
theorem exists_run_round (m : Manager) (requests : List Nat) :
    ∃ moves, (m.round requests).1 = m.run moves := by
  induction requests generalizing m with
  | nil => exact ⟨[], rfl⟩
  | cons r requests ih =>
    obtain ⟨moves, hm⟩ := exists_run_runCall r (m.stepBound r) m
    obtain ⟨moves', hm'⟩ := ih (runCall r (m.stepBound r) m).1
    refine ⟨moves ++ moves', ?_⟩
    rw [run_append, ← hm]
    exact hm'

/-- Rounds of steps, as a run. -/
theorem exists_run_settle (rounds : Nat) (m : Manager) :
    ∃ moves, (settle rounds m).1 = m.run moves := by
  induction rounds generalizing m with
  | zero => exact ⟨[], rfl⟩
  | succ rounds ih =>
    rw [settle]
    split
    · obtain ⟨moves, hm⟩ := exists_run_round m (m.calls.map Call.request)
      obtain ⟨moves', hm'⟩ := ih (m.round (m.calls.map Call.request)).1
      refine ⟨moves ++ moves', ?_⟩
      rw [run_append, ← hm]
      exact hm'
    · exact ⟨[], rfl⟩

/-- The steps after a change that is itself a move. -/
private theorem exists_run_report (m : Manager) (mv : ManagerMove) (answer : Answer)
    (first : List Nat) {m' : Manager} (h : m.move mv = m') :
    ∃ moves, (report answer first m').1 = m.run moves := by
  obtain ⟨moves, hm⟩ := exists_run_round m' first
  obtain ⟨moves', hm'⟩ := exists_run_settle (m'.round first).1.roundBound (m'.round first).1
  refine ⟨mv :: (moves ++ moves'), ?_⟩
  rw [run_cons, h, run_append, ← hm]
  exact hm'

/-- Whatever a command does that goes through the manager only, is done by a run. -/
theorem exists_run_eq (m : Manager) (c : ManagerCommand) (hc : c.IsCall) :
    ∃ moves, (m.perform c).1 = m.run moves := by
  cases c with
  | table name => exact ⟨[.table name], rfl⟩
  | createTable name => exact ⟨[.createTable name], rfl⟩
  | get name =>
    refine ⟨[], ?_⟩
    rw [perform]
    split <;> rfl
  | contains name => exact ⟨[], rfl⟩
  | config => exact ⟨[], rfl⟩
  | dropTable name session =>
    rw [perform]
    split
    · next m' h => exact exists_run_report m (.dropTable name session) _ _ (by rw [move, h])
    · next e h => exact ⟨[.dropTable name session], by rw [run_cons, move, h]; rfl⟩
  | acquire s session => exact exists_run_report m (.acquire s session) _ _ rfl
  | acquireAccess access session =>
    exact exists_run_report m (.acquireAccess access session) _ _ rfl
  | release request =>
    rw [perform]
    split
    · next p h => exact exists_run_report m (.release request) _ _ (by rw [move, h])
    · exact ⟨[], rfl⟩
  | abandon request =>
    rw [perform]
    split
    · next p _ h => exact exists_run_report m (.release request) _ _ (by rw [move, h])
    · next c _ h => exact exists_run_report m (.abandon request) _ _ (by rw [move, h])
    · exact ⟨[], rfl⟩
  | cancel name session => exact hc.elim
  | releaseLock name session kind => exact hc.elim
  | advance ms => exact exists_run_report m (.advance ms) _ _ rfl

end Manager

end SqlTree
