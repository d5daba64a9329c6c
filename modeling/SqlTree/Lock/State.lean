import SqlTree.Json.Basic

/-!
# Queues of a table lock

Sessions read a table together or write it alone. The state of a lock has, for each of the two
kinds, the queue of sessions that have asked and the list of those that have been admitted. A read
is enabled while no session asks to write or writes, a write while none reads or writes; only the
session at the head of its queue is admitted. Queues hold sessions, not requests: a session that
asks twice stands in a queue twice, and either request may be served by either place.

## Main definitions

* `Session`, `LockKind`, `LockState`.
* `LockState.enqueue`, `LockState.admit?`, `LockState.withdraw`, `LockState.release?`,
  `LockState.cancel?`, `LockState.close`.
-/

namespace SqlTree

/-- A session. -/
structure Session where
  number : UInt64
deriving DecidableEq, Inhabited

namespace Session

/-- The name of a session. -/
def text (s : Session) : String := "session-" ++ toString s.number.toNat

end Session

/-- What a session wants to do with a table. -/
inductive LockKind where
  | read
  | write
deriving DecidableEq, Inhabited

namespace LockKind

/-- The word for a kind. -/
def text : LockKind → String
  | read => "read"
  | write => "write"

/-- The kind with a given word. -/
def ofText? (s : String) : Option LockKind :=
  [read, write].find? fun k => k.text == s

end LockKind

/-- The queues of a lock, and whether its table has been closed. -/
structure LockState where
  requestingRead : List Session
  reading : List Session
  requestingWrite : List Session
  writing : List Session
  closed : Bool
deriving DecidableEq, Inhabited

namespace LockState

/-- The state without requests and holders. -/
def empty : LockState := ⟨[], [], [], [], false⟩

variable (st : LockState)

/-- Whether a read may be admitted. -/
def readEnabled : Bool := st.requestingWrite.isEmpty && st.writing.isEmpty

/-- Whether a write may be admitted. -/
def writeEnabled : Bool := st.reading.isEmpty && st.writing.isEmpty

/-- Whether a request of a kind may be admitted. -/
def enabled : LockKind → Bool
  | .read => st.readEnabled
  | .write => st.writeEnabled

/-- The sessions that have asked. -/
def pending : LockKind → List Session
  | .read => st.requestingRead
  | .write => st.requestingWrite

/-- The sessions that have been admitted. -/
def active : LockKind → List Session
  | .read => st.reading
  | .write => st.writing

/-- The state with another queue of sessions that have asked. -/
def setPending (queue : List Session) : LockKind → LockState
  | .read => { st with requestingRead := queue }
  | .write => { st with requestingWrite := queue }

/-- The state with another list of admitted sessions. -/
def setActive (sessions : List Session) : LockKind → LockState
  | .read => { st with reading := sessions }
  | .write => { st with writing := sessions }

/-- A session asks. -/
def enqueue (kind : LockKind) (session : Session) : LockState :=
  st.setPending (st.pending kind ++ [session]) kind

/-- The session at the head of its queue is admitted, if its kind is enabled. -/
def admit? (kind : LockKind) (session : Session) : Option LockState :=
  if st.enabled kind && (st.pending kind).head? == some session then
    some ((st.setPending (st.pending kind).tail kind).setActive (st.active kind ++ [session]) kind)
  else none

/-- The first place of a session in its queue is given up. -/
def withdraw (kind : LockKind) (session : Session) : LockState :=
  st.setPending ((st.pending kind).erase session) kind

/-- An admitted session gives the table back; a writer only if it is the first of the writers. -/
def release? : LockKind → Session → Option LockState
  | .read, session =>
    if session ∈ st.reading then some { st with reading := st.reading.erase session } else none
  | .write, session =>
    if st.writing.head? = some session then some { st with writing := st.writing.tail } else none

/-- The first place of a session in either queue is given up, if it has one. -/
def cancel? (session : Session) : Option LockState :=
  if session ∈ st.requestingRead ∨ session ∈ st.requestingWrite then
    some ((st.withdraw .read session).withdraw .write session)
  else none

/-- The table is closed. -/
def close : LockState := { st with closed := true }

end LockState

end SqlTree
