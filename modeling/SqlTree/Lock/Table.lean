import SqlTree.Lock.State

/-!
# The lock of one table

A request that has joined its queue waits until a check of the queues ends its wait: it is granted
when it can be admitted, and refused when the table has been closed by another request. Between two
checks a request sleeps until it is notified. Whatever may end the wait of some request notifies
all of them: every admission, refusal and release, every withdrawal of a place, and the closing.

Each function here is one step that nothing interrupts; what happens between the steps of one
request is up to the others.

## Main definitions

* `Waiter`, `TableLock`: a request that waits, and a lock with its queues and its waiting requests.
* `TableLock.request?`, `TableLock.beginClose?`, `TableLock.requestClose`: how requests begin.
* `TableLock.recheck`: one check of a waiting request.
* `TableLock.abandon`, `TableLock.release`, `TableLock.cancel`.
* `sortResults`: results of requests in the order in which they are reported.
-/

namespace SqlTree

/-- A request that waits for a lock. -/
structure Waiter where
  /-- The number of the request. -/
  request : Nat
  kind : LockKind
  session : Session
  /-- Whether the request is the one that closes the table. -/
  closing : Bool
  /-- Whether a check is due. -/
  notified : Bool
deriving DecidableEq, Inhabited

/-- The lock of one table. -/
structure TableLock where
  name : String
  state : LockState
  waiters : List Waiter
deriving DecidableEq, Inhabited

/-- How the wait of a request ends. -/
inductive Verdict where
  | granted
  | refused
deriving DecidableEq, Inhabited

/-- The result of a request at its place among others. -/
def insertResult {α : Type} (e : Nat × α) : List (Nat × α) → List (Nat × α)
  | [] => [e]
  | f :: rest => if e.1 < f.1 then e :: f :: rest else f :: insertResult e rest

/-- Results of requests in the order of the numbers of the requests. -/
def sortResults {α : Type} (results : List (Nat × α)) : List (Nat × α) :=
  results.foldr insertResult []

namespace TableLock

/-- The lock of a table that nobody has asked for. -/
def new (name : String) : TableLock := ⟨name, .empty, []⟩

variable (l : TableLock)

/-- The waiting request of a given number. -/
def waiter? (request : Nat) : Option Waiter :=
  l.waiters.find? fun w => w.request == request

/-- Whether a check of a waiting request is due. -/
def isDue (request : Nat) : Bool := l.waiters.any fun w => w.request == request && w.notified

/-- A check of every waiting request becomes due. -/
def notifyAll : TableLock :=
  { l with waiters := l.waiters.map fun w => { w with notified := true } }

/-- A request no longer waits. -/
def dropWaiter (request : Nat) : TableLock :=
  { l with waiters := l.waiters.filter fun w => w.request != request }

/-- A request goes to sleep. -/
def sleep (request : Nat) : TableLock :=
  { l with
    waiters := l.waiters.map fun w =>
      if w.request = request then { w with notified := false } else w }

/-- A request joins its queue, and its first check is due. -/
def enqueue (request : Nat) (kind : LockKind) (session : Session) (closing : Bool) : TableLock :=
  { l with
    state := l.state.enqueue kind session
    waiters := l.waiters ++ [⟨request, kind, session, closing, true⟩] }

/-- A request begins, unless the table has been closed. -/
def request? (request : Nat) (kind : LockKind) (session : Session) : Option TableLock :=
  if l.state.closed then none else some (l.enqueue request kind session false)

/-- The table is closed, unless it has been before; waiting requests will see it. -/
def beginClose? : Option TableLock :=
  if l.state.closed then none else some { l with state := l.state.close }.notifyAll

/-- The request that has closed the table asks to write. -/
def requestClose (request : Nat) (session : Session) : TableLock :=
  l.enqueue request .write session true

/-- One check of a waiting request. -/
def recheck (request : Nat) : TableLock × Option Verdict :=
  match l.waiter? request with
  | none => (l, none)
  | some w =>
    if l.state.closed && !w.closing then
      (({ l with state := l.state.withdraw w.kind w.session }.dropWaiter request).notifyAll,
        some .refused)
    else
      match l.state.admit? w.kind w.session with
      | some state => (({ l with state }.dropWaiter request).notifyAll, some .granted)
      | none => (l.sleep request, none)

/-- A waiting request is given up, and its place in the queue with it. Also says whether it was
waiting. -/
def abandon (request : Nat) : TableLock × Bool :=
  match l.waiter? request with
  | none => (l, false)
  | some w =>
    let rest := l.dropWaiter request
    if w.session ∈ l.state.pending w.kind then
      ({ rest with state := l.state.withdraw w.kind w.session }.notifyAll, true)
    else (rest, true)

/-- An admitted session gives the table back. Also says whether it had it. -/
def release (kind : LockKind) (session : Session) : TableLock × Bool :=
  match l.state.release? kind session with
  | some state => ({ l with state }.notifyAll, true)
  | none => (l, false)

/-- A session gives up its places in the queues. Also says whether it had one. -/
def cancel (session : Session) : TableLock × Bool :=
  match l.state.cancel? session with
  | some state => ({ l with state }.notifyAll, true)
  | none => (l, false)

end TableLock

end SqlTree
