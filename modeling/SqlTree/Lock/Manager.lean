import SqlTree.Lock.Error
import SqlTree.Lock.Table
import SqlTree.Node.Access

/-!
# The manager of all locks

The manager has one lock for each table name it has met. A call for a statement takes the locks of
all tables of the statement, one after another in the order of their names, to write those that are
written and to read the others; then it holds a permit until the permit is given back. A call that
drops a table closes its lock, which stays registered: every later call on the name is refused until
the table is created again, which registers a new lock. Calls on the old lock go on with it.

A call goes through steps that nothing interrupts (`Manager.act`); between two of them any other
call may step in. It looks up its next lock, joins the queue of that lock, checks the queue it waits
in, gives up its place, or gives back one lock. A call that fails gives back what it holds, the
newest lock first, and so does a permit.

## Main definitions

* `Held`, `Phase`, `Call`, `Permit`, `Manager`.
* `lockPlan`: the locks that an access needs, in the order in which they are taken.
* `Manager.table`, `Manager.createTable`, `Manager.beginAcquire`, `Manager.beginDrop`: how locks and
  calls begin.
* `Manager.act`, `Manager.abandon`, `Manager.releasePermit`, `Manager.advance`.
-/

namespace SqlTree

/-- A lock, by its number, and how it is held or waited for. -/
structure Held where
  lock : Nat
  kind : LockKind
deriving DecidableEq, Inhabited

/-- Where a call is between two of its steps. -/
inductive Phase where
  /-- About to look up its next lock, or to end if there is none. -/
  | ready
  /-- About to join the queue of a lock. -/
  | asking (lock : Held)
  /-- About to close the lock of the table that it drops. -/
  | shutting (lock : Nat)
  /-- About to join the queue of the lock that it has closed. -/
  | closing (lock : Nat)
  /-- In the queue of a lock, until a deadline if there is one. -/
  | waiting (lock : Held) (deadline : Option Nat)
  /-- About to give up its place in the queue of a lock, for an error or because it is not wanted
  any more. -/
  | leaving (lock : Held) (error : Option LockError)
  /-- Giving back what it holds, for an error or because it is not wanted any more. -/
  | ending (error : Option LockError)
deriving DecidableEq, Inhabited

/-- A call that has not ended. -/
structure Call where
  /-- The number of the call. -/
  request : Nat
  session : Session
  /-- Whether the call drops a table. -/
  dropping : Bool
  /-- The locks that it has, in the order in which they were taken. -/
  held : List Held
  /-- The locks that it still has to ask for. -/
  rest : List (String × LockKind)
  phase : Phase
deriving DecidableEq, Inhabited

/-- The locks of a call that has ended well. -/
structure Permit where
  request : Nat
  session : Session
  held : List Held
deriving DecidableEq, Inhabited

/-- The locks of all tables, with the calls and permits on them. -/
structure Manager where
  /-- How long each single lock is waited for, in milliseconds. -/
  timeout : Option UInt64
  clock : Nat
  /-- All locks that have ever been, by their numbers. -/
  locks : List TableLock
  /-- The number of the lock registered under each name, in ascending order of the names. -/
  names : List (String × Nat)
  /-- The calls that have not ended, in ascending order of their numbers. A permit that is being
  given back is such a call again. -/
  calls : List Call
  /-- The permits that have not been given back, in ascending order of their numbers. -/
  permits : List Permit
  /-- The number of the next call. -/
  next : Nat
deriving DecidableEq, Inhabited

/-- How a call ends. -/
inductive CallResult where
  | granted (session : Session) (tables : List (String × LockKind))
  | dropped
  | failed (error : LockError)
deriving DecidableEq, Inhabited

/-- The locks that an access needs, in the order in which they are taken: a table that is both read
and written is locked for writing only. -/
def lockPlan (a : Access) : List (String × LockKind) :=
  Keyed.ofList (a.reads.map (·, .read) ++ a.writes.map (·, .write))

namespace Manager

/-- A manager without locks. -/
def new (timeout : Option UInt64) : Manager := ⟨timeout, 0, [], [], [], [], 0⟩

variable (m : Manager)

/-! ### Locks -/

/-- The lock of a given number. -/
def lock (id : Nat) : TableLock := m.locks.getD id (.new "")

/-- Another state of the lock of a given number. -/
def setLock (id : Nat) (l : TableLock) : Manager := { m with locks := m.locks.set id l }

/-- The number of the lock registered under a name. -/
def find? (name : String) : Option Nat := Keyed.find? name m.names

/-- Registers a new lock under a name. -/
def register (name : String) : Manager × Nat :=
  ({ m with
      locks := m.locks ++ [.new name]
      names := Keyed.insert name m.locks.length m.names },
    m.locks.length)

/-- The lock of a name, a new one if there is none. -/
def table (name : String) : Manager × Nat :=
  match m.find? name with
  | some id => (m, id)
  | none => m.register name

/-- The lock of a table that is created: a new one unless there is one that is not closed. -/
def createTable (name : String) : Manager × Nat :=
  match m.find? name with
  | some id => if (m.lock id).state.closed then m.register name else (m, id)
  | none => m.register name

/-- Gives back one lock. -/
def giveBack (session : Session) (h : Held) : Manager :=
  m.setLock h.lock ((m.lock h.lock).release h.kind session).1

/-! ### Beginnings -/

/-- The call of a given number. -/
def call? (request : Nat) : Option Call := m.calls.find? fun c => c.request == request

/-- The manager without a call. -/
def dropCall (request : Nat) : Manager :=
  { m with calls := m.calls.filter fun c => c.request != request }

/-- A call in another state. -/
def setCall (c : Call) : Manager :=
  { m with calls := m.calls.map fun c' => if c'.request = c.request then c else c' }

/-- The number of the next call has been given away. -/
def countCall : Manager := { m with next := m.next + 1 }

/-- Begins a call with the next number. -/
def beginCall (session : Session) (dropping : Bool) (rest : List (String × LockKind))
    (phase : Phase) : Manager :=
  { m.countCall with calls := m.calls ++ [⟨m.next, session, dropping, [], rest, phase⟩] }

/-- Begins a call for the given tables. -/
def beginAcquire (access : Access) (session : Session) : Manager :=
  m.beginCall session false (lockPlan access) .ready

/-- Begins a call for a statement; if it creates a table, the table is registered first. -/
def beginStatement (s : Statement) (session : Session) : Manager :=
  let m' := match s with
    | .createTable t => (m.createTable t.target).1
    | _ => m
  m'.beginAcquire s.access session

/-- Begins a call that drops a table, or fails because there is no lock for the table. -/
def beginDrop (name : String) (session : Session) : Except LockError Manager :=
  match m.find? name with
  | none => .error (.notFound name)
  | some id => .ok (m.beginCall session true [] (.shutting id))

/-! ### Steps of calls -/

/-- A permit with those before and after it. -/
def insertPermit (p : Permit) : List Permit → List Permit
  | [] => [p]
  | q :: rest => if p.request < q.request then p :: q :: rest else q :: insertPermit p rest

/-- Ends a call with its permit. -/
def grant (c : Call) : Manager × Option CallResult :=
  ({ m.dropCall c.request with
      permits := insertPermit ⟨c.request, c.session, c.held⟩ m.permits },
    some (.granted c.session (c.held.map fun h => ((m.lock h.lock).name, h.kind))))

/-- A call in another phase. -/
def turn (c : Call) (phase : Phase) : Manager := m.setCall { c with phase }

/-- A call looks up its next lock, or ends if there is none. -/
def fetch (c : Call) : Manager × Option CallResult :=
  match c.rest with
  | [] => m.grant c
  | (name, kind) :: rest =>
    let (m', id) := m.table name
    (m'.turn { c with rest } (.asking ⟨id, kind⟩), none)

/-- A call joins the queue of a lock, unless the table has been closed. -/
def ask (c : Call) (h : Held) : Manager :=
  match (m.lock h.lock).request? c.request h.kind c.session with
  | none => m.turn c (.ending (some (.closed (m.lock h.lock).name)))
  | some l =>
    let deadline := m.timeout.map fun ms => m.clock + ms.toNat
    (m.setLock h.lock l).turn c (.waiting h deadline)

/-- A call closes the lock of a table, unless the table has been closed before. -/
def shut (c : Call) (id : Nat) : Manager :=
  match (m.lock id).beginClose? with
  | none => m.turn c (.ending (some (.closed (m.lock id).name)))
  | some l => (m.setLock id l).turn c (.closing id)

/-- A call joins the queue of the lock that it has closed. -/
def join (c : Call) (id : Nat) : Manager :=
  (m.setLock id ((m.lock id).requestClose c.request c.session)).turn c
    (.waiting ⟨id, .write⟩ none)

/-- Whether a deadline is reached. -/
def isReached (deadline : Option Nat) : Bool := deadline.any fun d => d ≤ m.clock

/-- A call checks the queue of the lock that it waits for. -/
def check (c : Call) (h : Held) (deadline : Option Nat) : Manager × Option CallResult :=
  let (l, verdict) := (m.lock h.lock).recheck c.request
  let m' := m.setLock h.lock l
  match verdict with
  | some .granted =>
    if c.dropping then (m'.dropCall c.request, some .dropped)
    else (m'.turn { c with held := c.held ++ [h] } .ready, none)
  | some .refused => (m'.turn c (.ending (some (.closed l.name))), none)
  | none =>
    if m.isReached deadline then
      (m'.turn c (.leaving h (some (.timeout l.name h.kind (m.timeout.elim 0 UInt64.toNat)))), none)
    else (m', none)

/-- A call gives up its place in the queue of a lock. -/
def leave (c : Call) (h : Held) (error : Option LockError) : Manager :=
  (m.setLock h.lock ((m.lock h.lock).abandon c.request).1).turn c (.ending error)

/-- A call gives back the newest of its locks, or ends if it has none. -/
def finish (c : Call) (error : Option LockError) : Manager × Option CallResult :=
  match c.held.getLast? with
  | some h => ((m.giveBack c.session h).setCall { c with held := c.held.dropLast }, none)
  | none => (m.dropCall c.request, error.map .failed)

/-- The next step of a call. -/
def act (request : Nat) : Manager × Option CallResult :=
  match m.call? request with
  | none => (m, none)
  | some c =>
    match c.phase with
    | .ready => m.fetch c
    | .asking h => (m.ask c h, none)
    | .shutting id => (m.shut c id, none)
    | .closing id => (m.join c id, none)
    | .waiting h deadline => m.check c h deadline
    | .leaving h error => (m.leave c h error, none)
    | .ending error => m.finish c error

/-- Whether a call has a step to make. -/
def isDue (request : Nat) : Bool :=
  match m.call? request with
  | none => false
  | some c =>
    match c.phase with
    | .waiting h deadline => (m.lock h.lock).isDue request || m.isReached deadline
    | _ => true

/-! ### Giving up and giving back -/

/-- A call that waits is not wanted any more. Other calls cannot be given up. -/
def abandon (c : Call) : Manager :=
  match c.phase with
  | .waiting h _ => m.turn c (.leaving h none)
  | _ => m

/-- The permit of a given number. -/
def permit? (request : Nat) : Option Permit := m.permits.find? fun p => p.request == request

/-- A call with those before and after it. -/
def insertCall (c : Call) : List Call → List Call
  | [] => [c]
  | d :: rest => if c.request < d.request then c :: d :: rest else d :: insertCall c rest

/-- A permit is given back, which its call does again step by step. -/
def releasePermit (p : Permit) : Manager :=
  { m with
    calls := insertCall ⟨p.request, p.session, false, p.held, [], .ending none⟩ m.calls
    permits := m.permits.filter fun q => q.request != p.request }

/-- The clock moves on. -/
def advance (ms : Nat) : Manager := { m with clock := m.clock + ms }

end Manager

end SqlTree
