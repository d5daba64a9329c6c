import SqlTree.Lock.Error
import SqlTree.Lock.Table

/-!
# Running the lock of one table

Commands are given to a lock one after another. After each, checks that are due are made until none
is: first that of the request just made, then round after round those of the others in the order of
their numbers. A command reports the requests whose wait it has ended.

## Main definitions

* `TableRun`, `TableCommand`, `TableRun.perform`.
* `TableRun.settle`: rounds of checks until none is due.
-/

namespace SqlTree

/-- A lock, and the number that the next request will have. -/
structure TableRun where
  lock : TableLock
  next : Nat
deriving DecidableEq, Inhabited

/-- What can be asked of a lock. -/
inductive TableCommand where
  | request (kind : LockKind) (session : Session)
  | close (session : Session)
  | release (kind : LockKind) (session : Session)
  | cancel (session : Session)
  | abandon (request : Nat)
  | look
deriving DecidableEq, Inhabited

/-- What a command reports: its answer, if it has one, and the requests whose wait has ended, in the
order of their numbers. -/
structure TableReport where
  answer : Option Bool
  ended : List (Nat × Verdict)
deriving DecidableEq, Inhabited

namespace TableLock

/-- One round of checks of the given requests, with the requests whose wait has ended. -/
def round (l : TableLock) : List Nat → TableLock × List (Nat × Verdict)
  | [] => (l, [])
  | r :: rest =>
    if l.isDue r then
      let (l', verdict) := l.recheck r
      let (l'', ended) := round l' rest
      (l'', (verdict.map fun v => (r, v)).toList ++ ended)
    else round l rest

/-- At most a number of rounds of checks, until none is due. -/
def settle : Nat → TableLock → TableLock × List (Nat × Verdict)
  | 0, l => (l, [])
  | rounds + 1, l =>
    if l.waiters.any Waiter.notified then
      let (l', ended) := l.round (l.waiters.map Waiter.request)
      let (l'', more) := settle rounds l'
      (l'', ended ++ more)
    else (l, [])

/-- The checks of one request and then of the others. A round in which no wait ends leaves no check
due, so one more round than there are waiting requests is enough. -/
def settleFrom (first : Nat) (l : TableLock) : TableLock × List (Nat × Verdict) :=
  let (l', ended) := l.round [first]
  let (l'', more) := settle (l'.waiters.length + 1) l'
  (l'', ended ++ more)

end TableLock

namespace TableRun

/-- A lock that nobody has asked for. -/
def new (name : String) : TableRun := ⟨.new name, 0⟩

/-- The requests that wait. -/
def pending (t : TableRun) : List Nat := t.lock.waiters.map Waiter.request

/-- A request that begins with the given lock, or is refused at once. -/
def begin? (t : TableRun) : Option TableLock → TableRun × TableReport
  | none => (⟨t.lock, t.next + 1⟩, ⟨none, [(t.next, .refused)]⟩)
  | some l =>
    let (l', ended) := l.settleFrom t.next
    (⟨l', t.next + 1⟩, ⟨none, sortResults ended⟩)

/-- A change of the lock that answers yes or no. -/
def change (t : TableRun) : TableLock × Bool → TableRun × TableReport
  | (l, answer) =>
    let (l', ended) := l.settle (l.waiters.length + 1)
    (⟨l', t.next⟩, ⟨some answer, sortResults ended⟩)

/-- Performs a command. -/
def perform (t : TableRun) : TableCommand → TableRun × TableReport
  | .request kind session => t.begin? (t.lock.request? t.next kind session)
  | .close session => t.begin? (t.lock.beginClose?.map fun l => l.requestClose t.next session)
  | .release kind session => t.change (t.lock.release kind session)
  | .cancel session => t.change (t.lock.cancel session)
  | .abandon request => t.change (t.lock.abandon request)
  | .look => (t, ⟨none, []⟩)

end TableRun

end SqlTree
