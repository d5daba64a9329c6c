import SqlTree.Proofs.Lock.Exclusion

/-!
# Places in the queue of a lock

A waiting request has a place in the queue of its lock: its number, what it wants, and whether it is
the one that closes the table. Whether a check of it is due is left out, since notifications change
it all the time. This file says what each step of a call does to the places, and what a check can
do at all.

## Main definitions

* `Place`, `TableLock.places`: the places of the waiting requests.
* `TableLock.Follows`: what a lock keeps from one step to the next.

## Main results

* `TableLock.recheck_cases`: a check leaves the request waiting, refuses it or admits it.
* `TableLock.follows_request` and its likes: every step of a call is followed.
-/

namespace SqlTree

/-- The place of a waiting request. -/
structure Place where
  request : Nat
  kind : LockKind
  session : Session
  closing : Bool
deriving DecidableEq, Inhabited

/-- The place of a waiting request. -/
def Waiter.place (w : Waiter) : Place := ⟨w.request, w.kind, w.session, w.closing⟩

namespace TableLock

/-- The places of the waiting requests. -/
def places (l : TableLock) : List Place := l.waiters.map Waiter.place

variable {l l' : TableLock}

@[simp] theorem places_notifyAll : l.notifyAll.places = l.places := by
  simp [places, notifyAll, Waiter.place]

@[simp] theorem state_notifyAll : l.notifyAll.state = l.state := rfl

@[simp] theorem name_notifyAll : l.notifyAll.name = l.name := rfl

@[simp] theorem places_sleep (request : Nat) : (l.sleep request).places = l.places := by
  simp only [places, sleep, List.map_map]
  refine List.map_congr_left fun w _ => ?_
  by_cases h : w.request = request <;> simp [Waiter.place, h]

@[simp] theorem places_enqueue (request : Nat) (kind : LockKind) (session : Session)
    (closing : Bool) :
    (l.enqueue request kind session closing).places =
      l.places ++ [⟨request, kind, session, closing⟩] := by
  simp [places, enqueue, Waiter.place]

theorem mem_places_dropWaiter {request : Nat} {x : Place} :
    x ∈ (l.dropWaiter request).places ↔ x ∈ l.places ∧ x.request ≠ request := by
  simp only [places, dropWaiter, List.mem_map, List.mem_filter, bne_iff_ne]
  constructor
  · rintro ⟨w, ⟨hw, hne⟩, rfl⟩
    exact ⟨⟨w, hw, rfl⟩, hne⟩
  · rintro ⟨⟨w, hw, rfl⟩, hne⟩
    exact ⟨w, ⟨hw, hne⟩, rfl⟩

theorem waiter?_eq_some {request : Nat} {w : Waiter} (h : l.waiter? request = some w) :
    w.place ∈ l.places ∧ w.request = request :=
  ⟨List.mem_map_of_mem (List.mem_of_find?_eq_some h), by simpa using List.find?_some h⟩

/-! ### What a check can do -/

/-- A check leaves the request in its place, or refuses it because another request has closed the
table, or admits it from the head of its queue. A request that is refused or admitted has no place
any more. -/
theorem recheck_cases (l : TableLock) (request : Nat) :
    ((l.recheck request).2 = none ∧ (l.recheck request).1.state = l.state ∧
        (l.recheck request).1.places = l.places) ∨
      ∃ w : Waiter, w.place ∈ l.places ∧ w.request = request ∧
        (∀ x, x ∈ (l.recheck request).1.places ↔ x ∈ l.places ∧ x.request ≠ request) ∧
        (((l.recheck request).2 = some .refused ∧ l.state.closed = true ∧ w.closing = false ∧
            (l.recheck request).1.state = l.state.withdraw w.kind w.session) ∨
          ((l.recheck request).2 = some .granted ∧ (l.state.closed = true → w.closing = true) ∧
            l.state.admit? w.kind w.session = some (l.recheck request).1.state)) := by
  cases hw : l.waiter? request with
  | none => exact .inl (by simp [recheck, hw])
  | some w =>
    obtain ⟨hmem, hreq⟩ := waiter?_eq_some hw
    by_cases hc : (l.state.closed && !w.closing) = true
    · have hc' := hc
      simp only [Bool.and_eq_true, Bool.not_eq_true'] at hc'
      refine .inr ⟨w, hmem, hreq, fun x => ?_, .inl ?_⟩
      · simp only [recheck, hw, hc, if_true, places_notifyAll]
        exact mem_places_dropWaiter
      · simp only [recheck, hw, hc, if_true, state_notifyAll]
        exact ⟨trivial, hc'.1, hc'.2, rfl⟩
    · cases ha : l.state.admit? w.kind w.session with
      | none =>
        simp only [recheck, hw, hc, ha, if_false, Bool.false_eq_true]
        exact .inl ⟨trivial, rfl, places_sleep request⟩
      | some st =>
        refine .inr ⟨w, hmem, hreq, fun x => ?_, .inr ?_⟩
        · simp only [recheck, hw, hc, ha, if_false, Bool.false_eq_true, places_notifyAll]
          exact mem_places_dropWaiter
        · simp only [recheck, hw, hc, ha, if_false, Bool.false_eq_true, state_notifyAll]
          exact ⟨trivial, fun h => by simpa [h] using hc, rfl⟩

/-- What is left of the places when a request is given up. -/
theorem mem_places_abandon {request : Nat} {x : Place} (hx : x ∈ (l.abandon request).1.places) :
    x ∈ l.places ∧ x.request ≠ request := by
  cases hw : l.waiter? request with
  | none =>
    simp only [abandon, hw] at hx
    refine ⟨hx, fun hreq => ?_⟩
    obtain ⟨w, hmem, rfl⟩ := List.mem_map.mp hx
    have := List.find?_eq_none.mp hw w hmem
    exact this (beq_iff_eq.mpr hreq)
  | some w =>
    simp only [abandon, hw] at hx
    split at hx
    · rw [places_notifyAll] at hx
      exact mem_places_dropWaiter.mp hx
    · exact mem_places_dropWaiter.mp hx

theorem active_abandon (l : TableLock) (request : Nat) (k : LockKind) :
    (l.abandon request).1.state.active k = l.state.active k := by
  rw [abandon]
  split
  · rfl
  · dsimp only
    split
    · exact LockState.active_setPending ..
    · rfl

theorem places_release (l : TableLock) (kind : LockKind) (session : Session) :
    (l.release kind session).1.places = l.places := by
  rw [release]
  split
  · exact places_notifyAll
  · rfl

theorem places_cancel (l : TableLock) (session : Session) :
    (l.cancel session).1.places = l.places := by
  rw [cancel]
  split
  · exact places_notifyAll
  · rfl

/-! ### What every step keeps -/

/-- What a lock keeps from one step to the next: its name, that its table has been closed, and that
a writer is alone. -/
structure Follows (l l' : TableLock) : Prop where
  name : l'.name = l.name
  closed : l.state.closed = true → l'.state.closed = true
  exclusive : l.state.Exclusive → l'.state.Exclusive

theorem Follows.refl (l : TableLock) : l.Follows l := ⟨rfl, id, id⟩

theorem closed_setPending {st : LockState} (queue : List Session) (kind : LockKind) :
    (st.setPending queue kind).closed = st.closed := by
  cases kind <;> rfl

theorem closed_of_admitted {st st' : LockState} {kind : LockKind} {session : Session}
    (h : st.admit? kind session = some st') : st'.closed = st.closed := by
  simp only [LockState.admit?, Option.ite_none_right_eq_some, Option.some.injEq] at h
  rw [← h.2]
  cases kind <;> rfl

theorem closed_release {st st' : LockState} {kind : LockKind} {session : Session}
    (h : st.release? kind session = some st') : st'.closed = st.closed := by
  cases kind with
  | read =>
    simp only [LockState.release?, Option.ite_none_right_eq_some, Option.some.injEq] at h
    rw [← h.2]
  | write =>
    simp only [LockState.release?, Option.ite_none_right_eq_some, Option.some.injEq] at h
    rw [← h.2]

theorem follows_enqueue (l : TableLock) (request : Nat) (kind : LockKind) (session : Session)
    (closing : Bool) : l.Follows (l.enqueue request kind session closing) :=
  ⟨rfl, fun h => (closed_setPending _ _).trans h, fun h =>
    h.of_active_eq fun _ => LockState.active_setPending ..⟩

theorem follows_request {request : Nat} {kind : LockKind} {session : Session}
    (h : l.request? request kind session = some l') : l.Follows l' := by
  simp only [request?, Option.ite_none_left_eq_some, Option.some.injEq] at h
  rw [← h.2]
  exact follows_enqueue ..

theorem follows_beginClose (h : l.beginClose? = some l') : l.Follows l' := by
  refine ⟨?_, ?_, fun he => exclusive_beginClose he h⟩
  · simp only [beginClose?, Option.ite_none_left_eq_some, Option.some.injEq] at h
    rw [← h.2, name_notifyAll]
  · simp only [beginClose?, Option.ite_none_left_eq_some, Option.some.injEq] at h
    rw [← h.2]
    exact fun _ => rfl

theorem name_recheck (l : TableLock) (request : Nat) : (l.recheck request).1.name = l.name := by
  rw [recheck]
  split
  · rfl
  · split
    · rfl
    · split <;> rfl

theorem follows_recheck (l : TableLock) (request : Nat) : l.Follows (l.recheck request).1 := by
  refine ⟨name_recheck l request, fun hc => ?_, fun he => exclusive_recheck he request⟩
  obtain ⟨-, hst, -⟩ | ⟨w, -, -, -, ⟨-, -, -, hst⟩ | ⟨-, -, hst⟩⟩ := recheck_cases l request
  · rw [hst]
    exact hc
  · rw [hst]
    exact (closed_setPending _ _).trans hc
  · exact (closed_of_admitted hst).trans hc

theorem follows_abandon (l : TableLock) (request : Nat) : l.Follows (l.abandon request).1 := by
  refine ⟨?_, fun hc => ?_, fun he => exclusive_abandon he request⟩
  · rw [abandon]
    split
    · rfl
    · dsimp only
      split <;> rfl
  · rw [abandon]
    split
    · exact hc
    · dsimp only
      split
      · exact (closed_setPending _ _).trans hc
      · exact hc

theorem follows_release (l : TableLock) (kind : LockKind) (session : Session) :
    l.Follows (l.release kind session).1 := by
  refine ⟨?_, fun hc => ?_, fun he => exclusive_release he kind session⟩
  · rw [release]
    split <;> rfl
  · rw [release]
    split
    · next h => exact (closed_release h).trans hc
    · exact hc

theorem closed_cancel {st st' : LockState} {session : Session} (h : st.cancel? session = some st') :
    st'.closed = st.closed := by
  simp only [LockState.cancel?, Option.ite_none_right_eq_some, Option.some.injEq] at h
  rw [← h.2]
  exact (closed_setPending _ _).trans (closed_setPending _ _)

theorem follows_cancel (l : TableLock) (session : Session) :
    l.Follows (l.cancel session).1 := by
  refine ⟨?_, fun hc => ?_, fun he => exclusive_cancel he session⟩
  · rw [cancel]
    split <;> rfl
  · rw [cancel]
    split
    · next h => exact (closed_cancel h).trans hc
    · exact hc

end TableLock

end SqlTree
