import SqlTree.Lock.Manager

/-!
# Running the manager

Commands are given to a manager one after another. After each, calls make the steps that are due
until none is: first the call just begun, then round after round the others in the order of their
numbers. A command reports its answer and the calls that have ended.

## Main definitions

* `ManagerCommand`, `Answer`, `ManagerReport`, `Manager.perform`.
* `Manager.settle`: rounds of steps until none is due.
-/

namespace SqlTree

/-- What can be asked of a manager. -/
inductive ManagerCommand where
  | table (name : String)
  | createTable (name : String)
  | get (name : String)
  | contains (name : String)
  | config
  | dropTable (name : String) (session : Session)
  | acquire (statement : Statement) (session : Session)
  | acquireAccess (access : Access) (session : Session)
  | release (request : Nat)
  | abandon (request : Nat)
  | cancel (name : String) (session : Session)
  | releaseLock (name : String) (session : Session) (kind : LockKind)
  | advance (ms : Nat)

/-- What a command answers at once. -/
inductive Answer where
  | nothing
  | flag (value : Bool)
  | lock (id : Nat)
  | timeout (ms : Option UInt64)
  | failed (error : LockError)
deriving DecidableEq, Inhabited

/-- What a command reports: its answer, and the calls that have ended, in the order of their
numbers. -/
structure ManagerReport where
  answer : Answer
  ended : List (Nat × CallResult)
deriving DecidableEq, Inhabited

namespace Manager

/-! ### Rounds -/

/-- At most a number of steps of one call, as long as one is due, up to its end. -/
def runCall (request : Nat) : Nat → Manager → Manager × Option CallResult
  | 0, m => (m, none)
  | steps + 1, m =>
    if m.isDue request then
      match m.act request with
      | (m', some result) => (m', some result)
      | (m', none) => runCall request steps m'
    else (m, none)

/-- How many steps a call can make in a row: it looks up each lock, asks for it and checks its
queue, and gives everything back and ends. -/
def stepBound (m : Manager) (request : Nat) : Nat :=
  (m.call? request).elim 0 fun c => 4 * c.rest.length + c.held.length + 8

/-- One round of steps of the given calls, with the calls that have ended. -/
def round (m : Manager) : List Nat → Manager × List (Nat × CallResult)
  | [] => (m, [])
  | r :: rest =>
    let (m', result) := runCall r (m.stepBound r) m
    let (m'', ended) := round m' rest
    (m'', (result.map fun x => (r, x)).toList ++ ended)

/-- At most a number of rounds, until no step is due. -/
def settle : Nat → Manager → Manager × List (Nat × CallResult)
  | 0, m => (m, [])
  | rounds + 1, m =>
    if m.calls.any fun c => m.isDue c.request then
      let (m', ended) := m.round (m.calls.map Call.request)
      let (m'', more) := settle rounds m'
      (m'', ended ++ more)
    else (m, [])

/-- How many rounds are enough: each one but the last takes a lock, or ends a call. -/
def roundBound (m : Manager) : Nat :=
  m.calls.foldl (fun n c => n + c.rest.length + 2) 1

/-- The report of a command after whose change steps are due, beginning with those of given
calls. -/
def report (answer : Answer) (first : List Nat) (m : Manager) : Manager × ManagerReport :=
  let (m', ended) := m.round first
  let (m'', more) := settle m'.roundBound m'
  (m'', ⟨answer, sortResults (ended ++ more)⟩)

/-! ### Commands -/

/-- Answers with the number of a lock. -/
def reportLock : Manager × Nat → Manager × ManagerReport
  | (m, id) => (m, ⟨.lock id, []⟩)

/-- Changes the lock of a name, a new one if there is none, and answers yes or no. -/
def changeLock (m : Manager) (name : String) (change : TableLock → TableLock × Bool) :
    Manager × ManagerReport :=
  let (m, id) := m.table name
  let (l, answer) := change (m.lock id)
  report (.flag answer) [] (m.setLock id l)

/-- Performs a command. -/
def perform (m : Manager) : ManagerCommand → Manager × ManagerReport
  | .table name => reportLock (m.table name)
  | .createTable name => reportLock (m.createTable name)
  | .get name =>
    match m.find? name with
    | some id => (m, ⟨.lock id, []⟩)
    | none => (m, ⟨.failed (.notFound name), []⟩)
  | .contains name => (m, ⟨.flag (m.find? name).isSome, []⟩)
  | .config => (m, ⟨.timeout m.timeout, []⟩)
  | .dropTable name session =>
    match m.beginDrop name session with
    | .ok m' => report .nothing [m.next] m'
    | .error e => (m.countCall, ⟨.nothing, [(m.next, .failed e)]⟩)
  | .acquire s session => report .nothing [m.next] (m.beginStatement s session)
  | .acquireAccess access session => report .nothing [m.next] (m.beginAcquire access session)
  | .release request =>
    match m.permit? request with
    | some p => report (.flag true) [request] (m.releasePermit p)
    | none => (m, ⟨.flag false, []⟩)
  | .abandon request =>
    match m.permit? request, m.call? request with
    | some p, _ => report (.flag true) [request] (m.releasePermit p)
    | none, some c => report (.flag true) [request] (m.abandon c)
    | none, none => (m, ⟨.flag false, []⟩)
  | .cancel name session => m.changeLock name fun l => l.cancel session
  | .releaseLock name session kind => m.changeLock name fun l => l.release kind session
  | .advance ms => report .nothing [] (m.advance ms)

end Manager

end SqlTree
