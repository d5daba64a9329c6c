import Mathlib.Data.List.Nodup
import SqlTree.Lock.Table

/-!
# Notifications as steps of their own

In `TableLock` a change of the queues and the notification that follows it are one step. This file
takes them apart. A `WakeScene` has the queues of a lock, the acquisitions that are under way, and
the number of operations that have made their change and have still to notify. An acquisition that
waits goes round in turns: it asks for notifications, then it checks the queues, and then it sleeps
until a notification comes that has been issued since it asked. Only an acquisition that sleeps can
be dropped. A notification reaches every acquisition that has asked for it.

A move is one critical section of one operation, or one notification, or one of the steps of a turn
between them, and a run is any list of moves.

## Main definitions

* `Stage`, `Acquisition`, `WakeScene`.
* `WakeMove`, `WakeScene.move`, `WakeScene.run`.

## Main results

* `WakeScene.numbered_run`: no two acquisitions have one number.
* `WakeScene.run_turn`: a turn of an acquisition that has woken up ends with its check.
-/

namespace SqlTree

/-- Where an acquisition is between two of its steps. -/
inductive Stage where
  /-- It has closed the table and is about to notify. -/
  | announcing
  /-- It has closed the table and is about to join the queue. -/
  | joining
  /-- It is about to begin a turn, by asking for notifications. -/
  | awake
  /-- It has asked for notifications and is about to check the queues. -/
  | checking (notified : Bool)
  /-- It sleeps until a notification has come. -/
  | asleep (notified : Bool)
deriving DecidableEq, Inhabited

/-- A notification comes. -/
def Stage.notify : Stage → Stage
  | .checking _ => .checking true
  | .asleep _ => .asleep true
  | stage => stage

/-- A request that has not ended. -/
structure Acquisition where
  request : Nat
  kind : LockKind
  session : Session
  closing : Bool
  stage : Stage
deriving DecidableEq, Inhabited

/-- A lock in the middle of the operations on it. -/
structure WakeScene where
  state : LockState
  acquisitions : List Acquisition
  /-- How many operations have changed the queues and are about to notify. -/
  owed : Nat
  /-- The number of the next request. -/
  next : Nat
deriving DecidableEq, Inhabited

/-- One step of an operation on a lock. -/
inductive WakeMove where
  /-- A request to read or write joins its queue, or is refused. -/
  | request (kind : LockKind) (session : Session)
  /-- A request to close the table closes it, or is refused. -/
  | close (session : Session)
  /-- An acquisition makes its next step. -/
  | step (request : Nat)
  /-- An acquisition that sleeps is dropped. -/
  | drop (request : Nat)
  | release (kind : LockKind) (session : Session)
  | cancel (session : Session)
  /-- One of the operations that are about to notify does so. -/
  | notify
deriving DecidableEq, Inhabited

namespace WakeScene

/-- A lock that nobody has asked for. -/
def new : WakeScene := ⟨.empty, [], 0, 0⟩

variable (s : WakeScene)

/-- The acquisition of a given number. -/
def acquisition? (request : Nat) : Option Acquisition :=
  s.acquisitions.find? fun a => a.request == request

/-- A request begins, with the next number. -/
def begin (kind : LockKind) (session : Session) (closing : Bool) (stage : Stage) : WakeScene :=
  { s with
    acquisitions := s.acquisitions ++ [⟨s.next, kind, session, closing, stage⟩]
    next := s.next + 1 }

/-- A request is refused as it begins. -/
def refuse : WakeScene := { s with next := s.next + 1 }

/-- An acquisition comes to another stage. -/
def turn (request : Nat) (stage : Stage) : WakeScene :=
  { s with
    acquisitions := s.acquisitions.map fun a => if a.request = request then { a with stage } else a }

/-- An acquisition is over. -/
def finish (request : Nat) : WakeScene :=
  { s with acquisitions := s.acquisitions.filter fun a => a.request != request }

/-- The queues have been changed, and a notification is to follow. -/
def change (state : LockState) : WakeScene := { s with state, owed := s.owed + 1 }

/-- A notification reaches every acquisition that has asked for it. -/
def notifyAll : WakeScene :=
  { s with acquisitions := s.acquisitions.map fun a => { a with stage := a.stage.notify } }

/-- An acquisition checks the queues: it is refused, or admitted, or goes to sleep. -/
def check (a : Acquisition) (notified : Bool) : WakeScene :=
  if s.state.closed && !a.closing then
    (s.change (s.state.withdraw a.kind a.session)).finish a.request
  else
    match s.state.admit? a.kind a.session with
    | some state => (s.change state).finish a.request
    | none => s.turn a.request (.asleep notified)

/-- The next step of an acquisition. -/
def step (a : Acquisition) : WakeScene :=
  match a.stage with
  | .announcing => s.notifyAll.turn a.request .joining
  | .joining => { s with state := s.state.enqueue a.kind a.session }.turn a.request .awake
  | .awake => s.turn a.request (.checking false)
  | .checking notified => s.check a notified
  | .asleep true => s.turn a.request .awake
  | .asleep false => s

/-- An acquisition that sleeps is dropped, and its place in the queue is given up. -/
def drop (a : Acquisition) : WakeScene :=
  match a.stage with
  | .asleep _ =>
    if a.session ∈ s.state.pending a.kind then
      (s.change (s.state.withdraw a.kind a.session)).finish a.request
    else s.finish a.request
  | _ => s

/-- The scene after a move. -/
def move : WakeMove → WakeScene
  | .request kind session =>
    if s.state.closed then s.refuse
    else { s with state := s.state.enqueue kind session }.begin kind session false .awake
  | .close session =>
    if s.state.closed then s.refuse
    else { s with state := s.state.close }.begin .write session true .announcing
  | .step request => (s.acquisition? request).elim s s.step
  | .drop request => (s.acquisition? request).elim s s.drop
  | .release kind session => (s.state.release? kind session).elim s s.change
  | .cancel session => (s.state.cancel? session).elim s s.change
  | .notify => if s.owed = 0 then s else { s.notifyAll with owed := s.owed - 1 }

/-- The scene after a list of moves. -/
def run (s : WakeScene) (moves : List WakeMove) : WakeScene := moves.foldl move s

@[simp] theorem run_nil : s.run [] = s := rfl

@[simp] theorem run_cons (m : WakeMove) (moves : List WakeMove) :
    s.run (m :: moves) = (s.move m).run moves := rfl

theorem run_append (moves more : List WakeMove) :
    s.run (moves ++ more) = (s.run moves).run more := by
  simp [run]

/-- What every move keeps is kept by every run. -/
theorem run_induction {P : WakeScene → Prop} (keep : ∀ s m, P s → P (s.move m))
    (s : WakeScene) (h : P s) (moves : List WakeMove) : P (s.run moves) := by
  induction moves generalizing s with
  | nil => exact h
  | cons m moves ih => exact ih (s.move m) (keep s m h)

variable {s}

/-! ### Numbers of acquisitions -/

theorem acquisition?_eq_some {request : Nat} {a : Acquisition}
    (h : s.acquisition? request = some a) : a ∈ s.acquisitions ∧ a.request = request :=
  ⟨List.mem_of_find?_eq_some h, by simpa using List.find?_some h⟩

/-- The numbers of the acquisitions. -/
def requests (s : WakeScene) : List Nat := s.acquisitions.map Acquisition.request

@[simp] theorem requests_turn (request : Nat) (stage : Stage) :
    (s.turn request stage).requests = s.requests := by
  simp only [turn, requests, List.map_map]
  refine List.map_congr_left fun a _ => ?_
  by_cases h : a.request = request
  · simp [h]
  · simp [h]

@[simp] theorem requests_notifyAll : s.notifyAll.requests = s.requests := by
  simp [notifyAll, requests, Function.comp_def]

theorem requests_finish (request : Nat) : (s.finish request).requests.Sublist s.requests :=
  List.filter_sublist.map _

/-- No two acquisitions have one number, and the next number is new. -/
structure Numbered (s : WakeScene) : Prop where
  nodup : s.requests.Nodup
  fresh : ∀ r ∈ s.requests, r < s.next

theorem Numbered.eq_of_request (h : s.Numbered) {a b : Acquisition} (ha : a ∈ s.acquisitions)
    (hb : b ∈ s.acquisitions) (hreq : a.request = b.request) : a = b :=
  List.inj_on_of_nodup_map h.nodup ha hb hreq

theorem Numbered.of_sublist {s' : WakeScene} (h : s.Numbered)
    (hr : s'.requests.Sublist s.requests) (hn : s'.next = s.next) : s'.Numbered :=
  ⟨h.nodup.sublist hr, fun r hr' => hn ▸ h.fresh r (hr.subset hr')⟩

theorem Numbered.refuse (h : s.Numbered) : s.refuse.Numbered :=
  ⟨h.nodup, fun r hr => Nat.lt_succ_of_lt (h.fresh r hr)⟩

theorem Numbered.begin (h : s.Numbered) (kind : LockKind) (session : Session) (closing : Bool)
    (stage : Stage) : (s.begin kind session closing stage).Numbered := by
  have hreq : (s.begin kind session closing stage).requests = s.requests ++ [s.next] := by
    simp [WakeScene.begin, requests]
  refine ⟨?_, fun r hr => ?_⟩
  · rw [hreq]
    exact List.concat_eq_append ▸ h.nodup.concat fun hmem => Nat.lt_irrefl _ (h.fresh _ hmem)
  · rw [hreq] at hr
    rcases List.mem_append.mp hr with hr | hr
    · exact Nat.lt_succ_of_lt (h.fresh r hr)
    · rw [List.mem_singleton.mp hr]
      exact Nat.lt_succ_self _

theorem Numbered.check (h : s.Numbered) (a : Acquisition) (notified : Bool) :
    (s.check a notified).Numbered := by
  rw [WakeScene.check]
  split
  · exact h.of_sublist (requests_finish _) rfl
  · split
    · exact h.of_sublist (requests_finish _) rfl
    · exact h.of_sublist (by simp) rfl

theorem Numbered.step (h : s.Numbered) (a : Acquisition) : (s.step a).Numbered := by
  rw [WakeScene.step]
  split
  · exact h.of_sublist (by simp) rfl
  · exact h.of_sublist (by rw [requests_turn]; exact .refl _) rfl
  · exact h.of_sublist (by simp) rfl
  · exact h.check a _
  · exact h.of_sublist (by simp) rfl
  · exact h

theorem Numbered.drop (h : s.Numbered) (a : Acquisition) : (s.drop a).Numbered := by
  rw [WakeScene.drop]
  split
  · split
    · exact h.of_sublist (requests_finish _) rfl
    · exact h.of_sublist (requests_finish _) rfl
  · exact h

theorem Numbered.move (h : s.Numbered) (m : WakeMove) : (s.move m).Numbered := by
  cases m with
  | request kind session =>
    rw [WakeScene.move]
    split
    · exact h.refuse
    · exact Numbered.begin (s := { s with state := s.state.enqueue kind session })
        ⟨h.nodup, h.fresh⟩ ..
  | close session =>
    rw [WakeScene.move]
    split
    · exact h.refuse
    · exact Numbered.begin (s := { s with state := s.state.close }) ⟨h.nodup, h.fresh⟩ ..
  | step request =>
    rw [WakeScene.move]
    cases s.acquisition? request with
    | none => exact h
    | some a => exact h.step a
  | drop request =>
    rw [WakeScene.move]
    cases s.acquisition? request with
    | none => exact h
    | some a => exact h.drop a
  | release kind session =>
    rw [WakeScene.move]
    cases s.state.release? kind session with
    | none => exact h
    | some st => exact ⟨h.nodup, h.fresh⟩
  | cancel session =>
    rw [WakeScene.move]
    cases s.state.cancel? session with
    | none => exact h
    | some st => exact ⟨h.nodup, h.fresh⟩
  | notify =>
    rw [WakeScene.move]
    split
    · exact h
    · have hn : s.notifyAll.Numbered := h.of_sublist (by simp) rfl
      exact ⟨hn.nodup, hn.fresh⟩

theorem numbered_run (moves : List WakeMove) : (new.run moves).Numbered :=
  run_induction (P := Numbered) (fun _ m h => h.move m) new
    ⟨List.nodup_nil, fun _ hr => absurd hr List.not_mem_nil⟩ moves

/-! ### Turns -/

theorem acquisition?_turn {request : Nat} {a : Acquisition} (stage : Stage)
    (h : s.acquisition? request = some a) :
    (s.turn request stage).acquisition? request = some { a with stage } := by
  have hsame : ((fun b : Acquisition => b.request == request) ∘
      fun b => if b.request = request then { b with stage } else b) =
        fun b => b.request == request := by
    funext b
    by_cases hb : b.request = request
    · simp [hb]
    · simp [hb]
  have hfind : s.acquisitions.find? (fun b => b.request == request) = some a := h
  rw [acquisition?, turn, List.find?_map, hsame, hfind, Option.map_some,
    if_pos (acquisition?_eq_some h).2]

theorem turn_turn (request : Nat) (stage stage' : Stage) :
    (s.turn request stage).turn request stage' = s.turn request stage' := by
  simp only [turn, List.map_map, WakeScene.mk.injEq, true_and, and_true]
  refine List.map_congr_left fun a _ => ?_
  by_cases h : a.request = request
  · simp [h]
  · simp [h]

theorem finish_turn (request : Nat) (stage : Stage) :
    (s.turn request stage).finish request = s.finish request := by
  have hsame : ((fun a : Acquisition => a.request != request) ∘
      fun a => if a.request = request then { a with stage } else a) =
        fun a => a.request != request := by
    funext a
    by_cases h : a.request = request
    · simp [h]
    · simp [h]
  simp only [turn, finish, List.filter_map, hsame, WakeScene.mk.injEq, true_and, and_true]
  refine (List.map_congr_left fun a ha => ?_).trans (List.map_id _)
  rw [if_neg (bne_iff_ne.mp (List.mem_filter.mp ha).2), id]

theorem check_turn (a : Acquisition) (stage : Stage) (notified : Bool) :
    (s.turn a.request stage).check a notified = s.check a notified := by
  have hstate : (s.turn a.request stage).state = s.state := rfl
  rw [check, check, hstate]
  split
  · exact finish_turn (s := s.change _) ..
  · split
    · exact finish_turn (s := s.change _) ..
    · exact turn_turn ..

/-- An acquisition that has woken up makes a turn, at the end of which it checks the queues. -/
theorem run_turn {request : Nat} {a : Acquisition} (h : s.acquisition? request = some a) :
    (s.turn request .awake).run [.step request, .step request] = s.check a false := by
  have h₁ := acquisition?_turn .awake h
  have h₂ := acquisition?_turn (.checking false) h
  obtain rfl := (acquisition?_eq_some h).2
  rw [run_cons, move, h₁, Option.elim_some, step, turn_turn, run_cons, move, h₂, Option.elim_some,
    step, run_nil]
  exact check_turn a ..

end WakeScene

end SqlTree
