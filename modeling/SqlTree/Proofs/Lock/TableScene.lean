import SqlTree.Lock.TableRun

/-!
# Calls on one lock in any order

A call on a lock makes several steps, and between any two of them other calls may step in. A
`TableScene` is a lock in the middle of such calls: besides the lock itself it has the number of the
next call and the call, if there is one, that has closed the table and not yet joined the queue. A
`TableMove` is one step of one call, and a run is any list of moves. A move that is not possible
changes nothing, so every list of moves is a run and every order of steps is a list of moves.

A waiting request may check its queue at any time, whether it has been notified or not. Hence the
runs include those of every scheduler.

## Main definitions

* `TableScene`, `TableMove`, `TableScene.move`, `TableScene.run`.

## Main results

* `TableScene.run_append`: runs one after another.
* `TableRun.exists_run_eq`: what a command of a `TableRun` does is a run.
-/

namespace SqlTree

/-- A lock in the middle of the calls on it. -/
structure TableScene where
  lock : TableLock
  /-- The number of the next call. -/
  next : Nat
  /-- The call that has closed the table and is about to join the queue. -/
  closer : Option (Nat × Session)
deriving DecidableEq, Inhabited

/-- One step of a call on a lock. -/
inductive TableMove where
  /-- A call that reads or writes begins: it is refused or joins its queue. -/
  | request (kind : LockKind) (session : Session)
  /-- A call that closes the table begins: it is refused or closes the table. -/
  | close (session : Session)
  /-- The call that has closed the table joins the queue. -/
  | join
  /-- A waiting request checks its queue. -/
  | recheck (request : Nat)
  /-- A waiting request is given up. -/
  | abandon (request : Nat)
  | release (kind : LockKind) (session : Session)
  | cancel (session : Session)
deriving DecidableEq, Inhabited

namespace TableScene

/-- A lock that nobody has asked for. -/
def new (name : String) : TableScene := ⟨.new name, 0, none⟩

/-- The scene after a move. -/
def move (s : TableScene) : TableMove → TableScene
  | .request kind session =>
    { s with lock := (s.lock.request? s.next kind session).getD s.lock, next := s.next + 1 }
  | .close session =>
    match s.lock.beginClose? with
    | none => { s with next := s.next + 1 }
    | some l => ⟨l, s.next + 1, some (s.next, session)⟩
  | .join =>
    match s.closer with
    | none => s
    | some (request, session) =>
      { s with lock := s.lock.requestClose request session, closer := none }
  | .recheck request => { s with lock := (s.lock.recheck request).1 }
  | .abandon request => { s with lock := (s.lock.abandon request).1 }
  | .release kind session => { s with lock := (s.lock.release kind session).1 }
  | .cancel session => { s with lock := (s.lock.cancel session).1 }

/-- The scene after a list of moves. -/
def run (s : TableScene) (moves : List TableMove) : TableScene := moves.foldl move s

@[simp] theorem run_nil (s : TableScene) : s.run [] = s := rfl

@[simp] theorem run_cons (s : TableScene) (m : TableMove) (moves : List TableMove) :
    s.run (m :: moves) = (s.move m).run moves := rfl

theorem run_append (s : TableScene) (moves more : List TableMove) :
    s.run (moves ++ more) = (s.run moves).run more := by
  simp [run]

/-- What every move keeps is kept by every run. -/
theorem run_induction {P : TableScene → Prop} (keep : ∀ s m, P s → P (s.move m))
    (s : TableScene) (h : P s) (moves : List TableMove) : P (s.run moves) := by
  induction moves generalizing s with
  | nil => exact h
  | cons m moves ih => exact ih (s.move m) (keep s m h)

/-- A list of checks. -/
theorem run_map_recheck (s : TableScene) (requests : List Nat) :
    s.run (requests.map .recheck) =
      { s with lock := requests.foldl (fun l r => (l.recheck r).1) s.lock } := by
  induction requests generalizing s with
  | nil => rfl
  | cons r requests ih => exact ih (s.move (.recheck r))

end TableScene

/-! ### Commands as runs -/

namespace TableLock

/-- A round of checks, as a list of checks. -/
theorem exists_rechecks_round (l : TableLock) (requests : List Nat) :
    ∃ rs : List Nat, (l.round requests).1 = rs.foldl (fun l r => (l.recheck r).1) l := by
  induction requests generalizing l with
  | nil => exact ⟨[], rfl⟩
  | cons r requests ih =>
    rw [round]
    split
    · obtain ⟨rs, hrs⟩ := ih (l.recheck r).1
      exact ⟨r :: rs, hrs⟩
    · exact ih l

/-- Rounds of checks, as a list of checks. -/
theorem exists_rechecks_settle (rounds : Nat) (l : TableLock) :
    ∃ rs : List Nat, (settle rounds l).1 = rs.foldl (fun l r => (l.recheck r).1) l := by
  induction rounds generalizing l with
  | zero => exact ⟨[], rfl⟩
  | succ rounds ih =>
    rw [settle]
    split
    · obtain ⟨rs, hrs⟩ := exists_rechecks_round l (l.waiters.map Waiter.request)
      obtain ⟨rs', hrs'⟩ := ih (l.round (l.waiters.map Waiter.request)).1
      refine ⟨rs ++ rs', ?_⟩
      rw [List.foldl_append, ← hrs]
      exact hrs'
    · exact ⟨[], rfl⟩

/-- The checks after a request has begun, as a list of checks. -/
theorem exists_rechecks_settleFrom (first : Nat) (l : TableLock) :
    ∃ rs : List Nat, (settleFrom first l).1 = rs.foldl (fun l r => (l.recheck r).1) l := by
  obtain ⟨rs, hrs⟩ := exists_rechecks_round l [first]
  obtain ⟨rs', hrs'⟩ := exists_rechecks_settle ((l.round [first]).1.waiters.length + 1)
    (l.round [first]).1
  refine ⟨rs ++ rs', ?_⟩
  rw [List.foldl_append, ← hrs]
  exact hrs'

end TableLock

namespace TableRun

/-- The lock between two commands, with no call in the middle of closing it. -/
def scene (t : TableRun) : TableScene := ⟨t.lock, t.next, none⟩

/-- A change of the lock by one move, followed by checks. -/
private theorem exists_run_change (t : TableRun) (m : TableMove) (change : TableLock × Bool)
    (h : t.scene.move m = { t.scene with lock := change.1 }) :
    ∃ moves, t.scene.run moves = (t.change change).1.scene := by
  obtain ⟨rs, hrs⟩ := TableLock.exists_rechecks_settle (change.1.waiters.length + 1) change.1
  refine ⟨m :: rs.map .recheck, ?_⟩
  rw [TableScene.run_cons, h, TableScene.run_map_recheck]
  exact congrArg (fun l => TableScene.mk l t.next none) hrs.symm

/-- The beginning of a request by some moves, followed by checks. -/
private theorem exists_run_begin (t : TableRun) (moves : List TableMove) (begun : Option TableLock)
    (h : t.scene.run moves = ⟨begun.getD t.lock, t.next + 1, none⟩) :
    ∃ moves', t.scene.run moves' = (t.begin? begun).1.scene := by
  cases begun with
  | none => exact ⟨moves, h⟩
  | some l =>
    obtain ⟨rs, hrs⟩ := TableLock.exists_rechecks_settleFrom t.next l
    refine ⟨moves ++ rs.map .recheck, ?_⟩
    rw [TableScene.run_append, h, TableScene.run_map_recheck]
    exact congrArg (fun l => TableScene.mk l (t.next + 1) none) hrs.symm

/-- Whatever a command does to a lock is done by a run. -/
theorem exists_run_eq (t : TableRun) (c : TableCommand) :
    ∃ moves, t.scene.run moves = (t.perform c).1.scene := by
  cases c with
  | request kind session =>
    exact exists_run_begin t [.request kind session] _ rfl
  | close session =>
    apply exists_run_begin t [.close session, .join]
    cases h : t.lock.beginClose? with
    | none => simp [TableScene.move, scene, h]
    | some l => simp [TableScene.move, scene, h]
  | release kind session => exact exists_run_change t (.release kind session) _ rfl
  | cancel session => exact exists_run_change t (.cancel session) _ rfl
  | abandon request => exact exists_run_change t (.abandon request) _ rfl
  | look => exact ⟨[], rfl⟩

end TableRun

end SqlTree
