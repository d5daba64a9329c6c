import Mathlib.Data.List.Perm.Subperm
import SqlTree.Proofs.Lock.FirstCome
import SqlTree.Proofs.Lock.QueueAccount

/-!
# Giving up one of several requests

A queue holds sessions, so a session that has asked for the same several times stands in it several
times, and nothing in the queue tells these places apart. A request that is given up takes the first
place of its session out, which may be the one that another of its requests has taken. If another
session stands between the two places, that session moves ahead of the request that keeps waiting.

To say whose place is taken out, this file follows the places from the moments at which they are
taken: besides the sessions, the queue of a kind according to a history has the requests that took
the places.

## Main definitions

* `TableEvent.queued`: the queue of a kind after a history, with the requests that took the places.
* `TableLock.GivenUp`: what a lock loses when a request is given up, and what stays.

## Main results

* `TableScene.pending_eq_queued`: the queues of a lock are those according to its history.
* `TableScene.own_place_given_up_iff`: when a request that is given up takes its own place out.
-/

namespace SqlTree

/-! ### Taking out the first of several equal items -/

section

variable {α : Type} {l : List α} {a : α} {i : Nat}

/-- An item in front of a list is the same as one further behind if only equal ones stand
between. -/
theorem eq_cons_eraseIdx_iff (h : l[i]? = some a) :
    l = a :: l.eraseIdx i ↔ ∀ j ≤ i, l[j]? = some a := by
  induction l generalizing i a with
  | nil => cases h
  | cons b l ih =>
    cases i with
    | zero =>
      obtain rfl := Option.some.inj h
      refine iff_of_true rfl fun j hj => ?_
      rw [Nat.le_zero.mp hj]
      rfl
    | succ i =>
      rw [List.eraseIdx_cons_succ, List.cons.injEq]
      constructor
      · rintro ⟨rfl, heq⟩ j hj
        cases j with
        | zero => rfl
        | succ j => exact (ih h).mp heq j (Nat.le_of_succ_le_succ hj)
      · intro hall
        obtain rfl := Option.some.inj (hall 0 (Nat.zero_le _))
        exact ⟨rfl, (ih h).mpr fun j hj => hall (j + 1) (Nat.succ_le_succ hj)⟩

/-- Taking out the first of several equal items is the same as taking out a later one, if nothing
else stands between. -/
theorem erase_eq_eraseIdx_iff [DecidableEq α] (h : l[i]? = some a) :
    l.erase a = l.eraseIdx i ↔ ∀ j, l.idxOf a ≤ j → j ≤ i → l[j]? = some a := by
  induction l generalizing i with
  | nil => cases h
  | cons b l ih =>
    by_cases hb : b = a
    · subst hb
      rw [List.erase_cons_head, List.idxOf_cons_self]
      cases i with
      | zero =>
        refine iff_of_true rfl fun j _ hj => ?_
        rw [Nat.le_zero.mp hj]
        rfl
      | succ i =>
        have hi : l[i]? = some b := h
        rw [List.eraseIdx_cons_succ, eq_cons_eraseIdx_iff hi]
        constructor
        · intro hall j _ hj
          cases j with
          | zero => rfl
          | succ j => exact hall j (Nat.le_of_succ_le_succ hj)
        · exact fun hall j hj => hall (j + 1) (Nat.zero_le _) (Nat.succ_le_succ hj)
    · rw [List.erase_cons_tail (by simpa using hb), List.idxOf_cons_ne l hb]
      cases i with
      | zero => exact absurd (Option.some.inj h) hb
      | succ i =>
        rw [List.eraseIdx_cons_succ, List.cons.injEq, ih h]
        constructor
        · rintro ⟨-, hall⟩ j hfirst hj
          cases j with
          | zero => cases hfirst
          | succ j => exact hall j (Nat.le_of_succ_le_succ hfirst) (Nat.le_of_succ_le_succ hj)
        · exact fun hall => ⟨rfl, fun j hfirst hj =>
            hall (j + 1) (Nat.succ_le_succ hfirst) (Nat.succ_le_succ hj)⟩

/-- Of items that are all different, the first with a property is the one at a position exactly if
none before it has the property. -/
theorem eraseP_eq_eraseIdx_iff {p : α → Bool} (hn : l.Nodup) (h : l[i]? = some a)
    (ha : p a = true) : l.eraseP p = l.eraseIdx i ↔ ∀ b ∈ l.take i, p b = false := by
  induction l generalizing i with
  | nil => cases h
  | cons b l ih =>
    obtain ⟨hb, hn⟩ := List.nodup_cons.mp hn
    cases i with
    | zero =>
      obtain rfl := Option.some.inj h
      rw [List.eraseP_cons_of_pos ha]
      exact iff_of_true rfl fun c hc => absurd hc List.not_mem_nil
    | succ i =>
      rw [List.take_succ_cons, List.forall_mem_cons, List.eraseIdx_cons_succ]
      cases hpb : p b with
      | true =>
        rw [List.eraseP_cons_of_pos hpb]
        refine iff_of_false (fun heq => hb ?_) fun hall => Bool.noConfusion hall.1
        rw [heq]
        exact List.mem_cons_self
      | false =>
        rw [List.eraseP_cons_of_neg (by simpa using hpb), List.cons.injEq, ih hn h]
        exact and_congr (iff_of_true rfl rfl) .rfl

end

/-! ### The queue of a kind, with the requests that took the places -/

namespace TableEvent

/-- The queue of a kind after one more event. The first place of a session is taken out, whichever
of its requests took it. -/
def queuedAfter (k : LockKind) (queue : List Place) : TableEvent → List Place
  | joined x => if x.kind = k then queue ++ [x] else queue
  | admitted x | withdrawn x =>
    if x.kind = k then queue.eraseP fun y => y.session == x.session else queue
  | cancelled session => queue.eraseP fun y => y.session == session
  | released .. => queue

/-- The queue of a kind after a history, with the requests that took the places. -/
def queued (k : LockKind) (history : List TableEvent) : List Place :=
  history.foldl (queuedAfter k) []

variable {k : LockKind} {history : List TableEvent}

theorem queued_concat (e : TableEvent) :
    queued k (history ++ [e]) = queuedAfter k (queued k history) e := by
  rw [queued, List.foldl_append]
  rfl

/-- Taking out the first place of a session. -/
theorem map_session_eraseP (queue : List Place) (session : Session) :
    (queue.eraseP fun y => y.session == session).map Place.session =
      (queue.map Place.session).erase session := by
  rw [List.erase_eq_eraseP', List.eraseP_map]
  rfl

/-- Places are taken by requests that have joined, in the order in which they joined. -/
theorem queued_sublist (k : LockKind) (history : List TableEvent) :
    (queued k history).Sublist (history.filterMap joined?) := by
  induction history using List.reverseRecOn with
  | nil => exact .slnil
  | append_singleton history e ih =>
    rw [queued_concat, List.filterMap_append]
    have hmore : ∀ more : List Place,
        (queued k history).Sublist (history.filterMap joined? ++ more) :=
      fun more => ih.trans (List.sublist_append_left ..)
    cases e with
    | joined x =>
      rw [queuedAfter]
      split
      · exact ih.append (.refl _)
      · exact hmore _
    | admitted x =>
      rw [queuedAfter]
      split
      · exact List.eraseP_sublist.trans (hmore _)
      · exact hmore _
    | withdrawn x =>
      rw [queuedAfter]
      split
      · exact List.eraseP_sublist.trans (hmore _)
      · exact hmore _
    | released kind session => exact hmore _
    | cancelled session => exact List.eraseP_sublist.trans (hmore _)

end TableEvent

namespace TableScene

/-- The queues of a lock are those according to its history. -/
theorem pending_eq_queued (name : String) (moves : List TableMove) (k : LockKind) :
    ((new name).run moves).lock.state.pending k =
      (TableEvent.queued k ((new name).history moves)).map Place.session := by
  refine history_induction (P := fun s history => s.lock.state.pending k =
    (TableEvent.queued k history).map Place.session) (by cases k <;> rfl) fun before m _ _ h => ?_
  rw [run_append]
  have hmove := happens_move ((new name).run before) m
  change ((((new name).run before).move m).lock.state.pending k) = _
  generalize (((new name).run before).move m).lock = l' at hmove ⊢
  generalize ((new name).run before).event? m = event at hmove ⊢
  cases hmove with
  | still places pending => rw [pending, h, Option.toList_none, List.append_nil]
  | @joined x places state =>
    rw [state, LockState.enqueue, LockState.pending_setPending, Option.toList_some,
      TableEvent.queued_concat, TableEvent.queuedAfter]
    split
    · next hk => rw [List.map_append, ← h, hk, List.map_singleton]
    · exact h
  | @admitted x mem places state =>
    rw [LockState.pending_admitted state, Option.toList_some, TableEvent.queued_concat,
      TableEvent.queuedAfter]
    split
    · rw [TableEvent.map_session_eraseP, ← h]
    · exact h
  | @withdrawn x mem places state =>
    rw [state, LockState.pending_withdraw, Option.toList_some, TableEvent.queued_concat,
      TableEvent.queuedAfter]
    split
    · rw [TableEvent.map_session_eraseP, ← h]
    · exact h
  | released places state =>
    rw [LockState.pending_release state, h, Option.toList_some, TableEvent.queued_concat,
      TableEvent.queuedAfter]
  | @cancelled session places state =>
    rw [LockState.pending_cancel state, h, Option.toList_some, TableEvent.queued_concat,
      TableEvent.queuedAfter, TableEvent.map_session_eraseP]

variable {s : TableScene} {history : List TableEvent} {x : Place}

/-! ### A request that is given up -/

/-- The request of a place is the one that is found under its number. -/
theorem Recorded.waiter?_of_mem (h : s.Recorded history) (hx : x ∈ s.lock.places) :
    ∃ w, s.lock.waiter? x.request = some w ∧ w.place = x := by
  obtain ⟨w, hw⟩ := TableLock.waiter?_of_place hx
  obtain ⟨hmem, hreq⟩ := TableLock.waiter?_eq_some hw
  exact ⟨w, hw, h.eq_of_request hmem hx hreq⟩

/-- What a lock loses when a request is given up: the first place of its session. Nothing else
changes. -/
structure GivenUp (s s' : TableScene) (x : Place) : Prop where
  queue : s'.lock.state.pending x.kind = (s.lock.state.pending x.kind).erase x.session
  other : ∀ k, x.kind ≠ k → s'.lock.state.pending k = s.lock.state.pending k
  active : ∀ k, s'.lock.state.active k = s.lock.state.active k
  closed : s'.lock.state.closed = s.lock.state.closed
  places : s'.lock.places = s.lock.places.filter fun y => y.request != x.request

/-- A waiting request that is given up is withdrawn. -/
theorem Recorded.abandoned (h : s.Recorded history) (hx : x ∈ s.lock.places) :
    s.event? (.abandon x.request) = some (.withdrawn x) ∧
      s.GivenUp (s.move (.abandon x.request)) x := by
  obtain ⟨w, hw, rfl⟩ := h.waiter?_of_mem hx
  have hevent : s.event? (.abandon w.place.request) = some (.withdrawn w.place) := by
    rw [event?, hw, Option.map_some]
  have hmove := happens_move s (.abandon w.place.request)
  rw [hevent] at hmove
  refine ⟨hevent, ?_⟩
  cases hmove with
  | withdrawn _ places state =>
    refine ⟨?_, fun k hk => ?_, fun k => ?_, ?_, places⟩
    · rw [state, LockState.pending_withdraw, if_pos rfl]
    · rw [state, LockState.pending_withdraw, if_neg hk]
    · rw [state, LockState.withdraw, LockState.active_setPending]
    · rw [state]
      exact TableLock.closed_setPending ..

/-- Places of different requests are different. -/
theorem Recorded.nodup_queued (h : s.Recorded history) (k : LockKind) :
    (TableEvent.queued k history).Nodup :=
  (h.nodup.of_map _).sublist (TableEvent.queued_sublist k history)

/-- A request that is given up takes the first place of its session out, which is its own exactly if
its session has no place before it. -/
theorem Recorded.queued_abandoned_iff (h : s.Recorded history) (hx : x ∈ s.lock.places) {i : Nat}
    (hi : (TableEvent.queued x.kind history)[i]? = some x) :
    TableEvent.queued x.kind (history ++ s.history [.abandon x.request]) =
        (TableEvent.queued x.kind history).eraseIdx i ↔
      ∀ y ∈ (TableEvent.queued x.kind history).take i, y.session ≠ x.session := by
  have hevents : s.history [.abandon x.request] = [.withdrawn x] := by
    rw [TableScene.history, TableScene.history, List.append_nil, (h.abandoned hx).1,
      Option.toList_some]
  have hsession : (fun y : Place => y.session == x.session) x = true := beq_self_eq_true _
  rw [hevents, TableEvent.queued_concat, TableEvent.queuedAfter, if_pos rfl,
    eraseP_eq_eraseIdx_iff (h.nodup_queued x.kind) hi hsession]
  simp only [beq_eq_false_iff_ne]

/-- A session with one waiting request of a kind has one place in the queue. -/
theorem Balanced.count_le_one (h : s.Balanced history)
    (hone : ∀ y ∈ s.lock.places, y.asks = x.asks → y = x) :
    (s.lock.state.pending x.kind).count x.session ≤ 1 := by
  rw [h.asked, List.count_eq_countP, List.countP_map, List.countP_eq_length_filter]
  have hn : (s.lock.places.filter ((fun a => a == (x.kind, x.session)) ∘ Place.asks)).Nodup :=
    (h.nodup_places.of_map _).filter _
  have hsub : s.lock.places.filter ((fun a => a == (x.kind, x.session)) ∘ Place.asks) ⊆ [x] := by
    intro y hy
    obtain ⟨hmem, hasks⟩ := List.mem_filter.mp hy
    exact List.mem_singleton.mpr (hone y hmem (beq_iff_eq.mp hasks))
  exact (List.subperm_of_subset hn hsub).length_le

/-- A place of a session that has no other is the first of the session. -/
theorem first_of_count_le_one {queue : List Place} {i : Nat} (hi : queue[i]? = some x)
    (hcount : (queue.map Place.session).count x.session ≤ 1) :
    ∀ y ∈ queue.take i, y.session ≠ x.session := by
  intro y hy heq
  obtain ⟨hlt, hget⟩ := List.getElem?_eq_some_iff.mp hi
  have hsplit : queue = queue.take i ++ x :: queue.drop (i + 1) := by
    rw [← hget, List.cons_getElem_drop_succ, List.take_append_drop]
  have hpos : 0 < ((queue.take i).map Place.session).count x.session :=
    List.count_pos_iff.mpr (heq ▸ List.mem_map_of_mem hy)
  rw [hsplit, List.map_append, List.map_cons, List.count_append, List.count_cons_self] at hcount
  omega

/-- In every run without cancellations, a request that is given up takes out the first place of its
session in its queue and changes nothing else. If it still has the place that it took itself, at
position `i`, then the queue loses that position exactly if no other session stands between the
first place of its session and this one; and the other requests keep the places that they took
exactly if no other request of its session has a place before it. Both are so if its session waits
with no other request of the kind. -/
theorem own_place_given_up_iff (name : String) (moves : List TableMove)
    (h : ∀ session, .cancel session ∉ moves) {x : Place}
    (hx : x ∈ ((new name).run moves).lock.places) :
    let s := (new name).run moves
    let s' := s.move (.abandon x.request)
    let queued := TableEvent.queued x.kind ((new name).history moves)
    let queued' := TableEvent.queued x.kind ((new name).history (moves ++ [.abandon x.request]))
    s.GivenUp s' x ∧ s.lock.state.pending x.kind = queued.map Place.session ∧
      ∀ i, queued[i]? = some x →
        (s'.lock.state.pending x.kind = (s.lock.state.pending x.kind).eraseIdx i ↔
          ∀ j, (s.lock.state.pending x.kind).idxOf x.session ≤ j → j ≤ i →
            (s.lock.state.pending x.kind)[j]? = some x.session) ∧
        (queued' = queued.eraseIdx i ↔ ∀ y ∈ queued.take i, y.session ≠ x.session) ∧
        ((∀ y ∈ s.lock.places, y.asks = x.asks → y = x) → queued' = queued.eraseIdx i) := by
  intro s s' queued queued'
  have hbalanced : s.Balanced ((new name).history moves) := balanced_run name moves h
  have hgiven : s.GivenUp s' x := (hbalanced.abandoned hx).2
  have hpending : s.lock.state.pending x.kind = queued.map Place.session :=
    pending_eq_queued name moves x.kind
  refine ⟨hgiven, hpending, fun i hi => ?_⟩
  have hown : queued' = queued.eraseIdx i ↔ ∀ y ∈ queued.take i, y.session ≠ x.session := by
    simp only [queued', history_append]
    exact hbalanced.queued_abandoned_iff hx hi
  refine ⟨?_, hown, fun hone => hown.mpr (first_of_count_le_one hi ?_)⟩
  · rw [hgiven.queue]
    refine erase_eq_eraseIdx_iff ?_
    rw [hpending, List.getElem?_map, hi, Option.map_some]
  · rw [← hpending]
    exact hbalanced.count_le_one hone

/-- While session 9 writes, sessions 1, 2 and 1 again ask to write. -/
def askedAgain : List TableMove :=
  [.request .write ⟨9⟩, .recheck 0, .request .write ⟨1⟩, .request .write ⟨2⟩, .request .write ⟨1⟩]

/-- The second request of session 1 is given up, and the place of the first one is taken out: then
session 2 is the first in the queue. -/
theorem own_place_given_up_iff_asked_again :
    let s := (new "Student").run askedAgain
    let s' := s.move (.abandon 3)
    let queued := TableEvent.queued .write ((new "Student").history askedAgain)
    let queued' := TableEvent.queued .write ((new "Student").history (askedAgain ++ [.abandon 3]))
    queued.map Place.request = [1, 2, 3] ∧ queued'.map Place.request = [2, 3] ∧
      s.lock.places.map Place.request = [1, 2, 3] ∧ s'.lock.places.map Place.request = [1, 2] ∧
      s'.lock.state.pending .write = [⟨2⟩, ⟨1⟩] ∧
      s'.lock.state.pending .write ≠ (s.lock.state.pending .write).eraseIdx 2 := by
  intro s s' queued queued'
  obtain ⟨-, -, hown⟩ := own_place_given_up_iff "Student" askedAgain (by simp [askedAgain])
    (x := ⟨3, .write, ⟨1⟩, false⟩) (by decide)
  obtain ⟨hposition, -, -⟩ := hown 2 (by decide)
  refine ⟨by decide, by decide, by decide, by decide, by decide, fun heq => ?_⟩
  exact absurd (hposition.mp heq 1 (by decide) (by decide)) (by decide)

end TableScene

end SqlTree
