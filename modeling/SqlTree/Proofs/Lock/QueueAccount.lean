import SqlTree.Proofs.Lock.Entries
import SqlTree.Proofs.Lock.TableHistory

/-!
# Accounts of the queues

Queues hold sessions, so a request of a session that has asked several times may take the place of
another of its requests. The numbers are right all the same, as long as no session gives up its
places by a cancellation: a session stands in the queue of a kind as often as it has requests of the
kind that wait, and among the admitted as often as its requests have been admitted without its
having given the table back since. A cancellation takes a place away and leaves its request waiting,
so after one the first of these accounts has more requests than places.

## Main definitions

* `TableScene.Balanced`: the accounts of the queues.

## Main results

* `TableScene.Balanced.move`: every move but a cancellation keeps the accounts.
* `TableScene.balanced_run`: the accounts are right after every run without cancellations.
-/

namespace SqlTree

theorem Place.asks_eq_iff {x : Place} {kind : LockKind} {session : Session} :
    x.asks = (kind, session) ↔ x.kind = kind ∧ x.session = session :=
  Prod.mk.injEq .. ▸ Iff.rfl

namespace TableLock

variable {l l' : TableLock} {event : Option TableEvent}

/-- How often something is asked for once one request no longer waits. -/
theorem count_asks_filter {places : List Place} (hn : (places.map Place.request).Nodup) {x : Place}
    (hx : x ∈ places) (kind : LockKind) (session : Session) :
    ((places.filter fun y => y.request != x.request).map Place.asks).count (kind, session) +
      (if x.kind = kind ∧ x.session = session then 1 else 0) =
        (places.map Place.asks).count (kind, session) := by
  obtain ⟨before, after, hsplit, hrest, -⟩ := Manager.filter_split Place.request hn hx
  rw [hrest, hsplit]
  simp only [List.map_append, List.map_cons, List.count_append, List.count_cons, beq_iff_eq,
    Place.asks_eq_iff, Nat.add_assoc]

/-- Unless a session gives up its places, the queue of those who ask changes as the waiting requests
do. -/
theorem Happens.asked (h : l.Happens l' event)
    (hevent : ∀ session, event ≠ some (.cancelled session))
    (hn : (l.places.map Place.request).Nodup)
    (hmem : ∀ x ∈ l.places, x.session ∈ l.state.pending x.kind) (kind : LockKind)
    (session : Session) :
    (l'.state.pending kind).count session + (l.places.map Place.asks).count (kind, session) =
      (l.state.pending kind).count session + (l'.places.map Place.asks).count (kind, session) := by
  cases h with
  | still places pending => rw [pending, places]
  | @joined x places state =>
    have hqueue := LockState.count_queue_enqueue l.state x.kind x.session .asked kind session
    simp only [LockState.queue, true_and] at hqueue
    rw [state, hqueue, places, List.map_append, List.count_append, List.map_singleton,
      List.count_singleton]
    simp only [beq_iff_eq, Place.asks_eq_iff]
    omega
  | @admitted x mem places state =>
    have hqueue := LockState.count_queue_admitted state .asked kind session
    simp only [LockState.queue, true_and, reduceCtorEq, false_and, if_false] at hqueue
    have hrest := count_asks_filter hn mem kind session
    rw [places]
    omega
  | @withdrawn x mem places state =>
    have hqueue := LockState.count_queue_withdraw (hmem x mem) .asked kind session
    simp only [LockState.queue, true_and] at hqueue
    have hrest := count_asks_filter hn mem kind session
    rw [places, state]
    omega
  | released places state =>
    have hqueue := LockState.count_queue_released state .asked kind session
    simp only [LockState.queue, reduceCtorEq, false_and, if_false] at hqueue
    rw [places]
    omega
  | @cancelled σ => exact absurd rfl (hevent σ)

/-- The admitted sessions change as sessions are admitted and give the table back. -/
theorem Happens.admitted_count (h : l.Happens l' event) (kind : LockKind) (session : Session) :
    (l'.state.active kind).count session +
        (event.toList.filterMap TableEvent.released?).count (kind, session) =
      (l.state.active kind).count session +
        ((event.toList.filterMap TableEvent.admitted?).map Place.asks).count (kind, session) := by
  cases h with
  | still _ _ active => rw [active]; rfl
  | joined _ state => rw [state, LockState.enqueue, LockState.active_setPending]; rfl
  | @admitted x _ _ state =>
    have hqueue := LockState.count_queue_admitted state .admitted kind session
    simp only [LockState.queue, true_and, reduceCtorEq, false_and, if_false] at hqueue
    simp only [Option.toList_some, List.filterMap_cons, TableEvent.released?, TableEvent.admitted?,
      List.filterMap_nil, List.count_nil, List.map_cons, List.map_nil, List.count_singleton,
      beq_iff_eq, Place.asks_eq_iff]
    exact hqueue
  | withdrawn _ _ state => rw [state, LockState.withdraw, LockState.active_setPending]; rfl
  | @released k σ _ state =>
    have hqueue := LockState.count_queue_released state .admitted kind session
    simp only [LockState.queue, true_and] at hqueue
    simp only [Option.toList_some, List.filterMap_cons, TableEvent.released?, TableEvent.admitted?,
      List.filterMap_nil, List.count_nil, List.map_nil, List.count_singleton, beq_iff_eq,
      Prod.mk.injEq]
    exact hqueue
  | cancelled _ state => rw [LockState.active_cancel state]; rfl

end TableLock

namespace TableScene

/-- The accounts of the queues after a history. -/
structure Balanced (s : TableScene) (history : List TableEvent) : Prop
    extends s.Recorded history where
  /-- A session stands in a queue as often as it waits. -/
  asked : ∀ kind session,
    (s.lock.state.pending kind).count session = (s.lock.places.map Place.asks).count (kind, session)
  /-- A session stands among the admitted as often as it has been admitted and has not given the
  table back. -/
  admitted : ∀ kind session,
    (s.lock.state.active kind).count session +
        (history.filterMap TableEvent.released?).count (kind, session) =
      ((history.filterMap TableEvent.admitted?).map Place.asks).count (kind, session)

variable {s : TableScene} {history : List TableEvent}

theorem balanced_new (name : String) : (new name).Balanced [] where
  toRecorded := recorded_new name
  asked := fun kind _ => by cases kind <;> rfl
  admitted := fun kind _ => by cases kind <;> rfl

/-- A request that waits has a place in its queue, though another request may have joined with
it. -/
theorem Balanced.mem_pending (h : s.Balanced history) {x : Place} (hx : x ∈ s.lock.places) :
    x.session ∈ s.lock.state.pending x.kind := by
  rw [← List.count_pos_iff, h.asked]
  exact List.count_pos_iff.mpr (List.mem_map_of_mem hx)

/-- A session gives up its places by a cancellation only. -/
theorem eq_cancel_of_cancelled {m : TableMove} {session : Session}
    (h : s.event? m = some (.cancelled session)) : m = .cancel session := by
  cases m with
  | cancel σ =>
    simp only [event?, Option.ite_none_right_eq_some, Option.some.injEq,
      TableEvent.cancelled.injEq] at h
    rw [h.2]
  | recheck request =>
    rw [event?] at h
    split at h <;> simp at h
  | request | close | join | abandon | release => simp [event?] at h

/-- Every move but a cancellation keeps the accounts. -/
theorem Balanced.move (h : s.Balanced history) {m : TableMove}
    (hm : ∀ session, m ≠ .cancel session) :
    (s.move m).Balanced (history ++ (s.event? m).toList) := by
  have hmove := happens_move s m
  refine ⟨h.toRecorded.move m, fun kind session => ?_, fun kind session => ?_⟩
  · have hasked := hmove.asked (fun σ hσ => hm σ (eq_cancel_of_cancelled hσ)) h.nodup_places
      (fun x hx => h.mem_pending hx) kind session
    have hbefore := h.asked kind session
    omega
  · have hadmitted := hmove.admitted_count kind session
    have hbefore := h.admitted kind session
    simp only [List.filterMap_append, List.map_append, List.count_append]
    omega

/-- In every run without cancellations, a session stands in the queue of a kind as often as it has
requests of the kind that wait, and among the admitted of a kind as often as its requests have been
admitted, less the number of times it has given the table back. -/
theorem balanced_run (name : String) (moves : List TableMove)
    (h : ∀ session, .cancel session ∉ moves) :
    ((new name).run moves).Balanced ((new name).history moves) := by
  refine history_induction (balanced_new name) fun before m after hmoves hbefore => ?_
  rw [run_append]
  refine hbefore.move fun session hm => h session ?_
  rw [hmoves, ← hm]
  exact List.mem_append_right _ List.mem_cons_self

/-- Session 1 asks to write twice and to read, and gives up the first of these requests; the second
is admitted and asks again. Then session 2 closes the table, and whoever waits is refused. -/
def oneSession : List TableMove :=
  [.request .write ⟨1⟩, .request .write ⟨1⟩, .request .read ⟨1⟩, .abandon 0, .recheck 1,
    .request .write ⟨1⟩, .close ⟨2⟩, .recheck 2, .join, .release .write ⟨1⟩, .recheck 3, .recheck 4]

/-- The account at a run in which a session has three requests at once. -/
theorem balanced_run_one_session :
    ((new "Student").run (oneSession.take 4)).lock.state.pending .write = [⟨1⟩] ∧
    ((new "Student").run oneSession).lock.state.writing = [⟨2⟩] ∧
    ((new "Student").run oneSession).Balanced ((new "Student").history oneSession) :=
  ⟨by decide, by decide, balanced_run "Student" oneSession (by simp [oneSession])⟩

end TableScene

end SqlTree
