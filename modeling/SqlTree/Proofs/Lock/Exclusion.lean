import SqlTree.Proofs.Lock.TableScene

/-!
# A writer is alone

In every state of a lock that calls can bring about, in whatever order they make their steps, at
most one session writes the table, and while one writes none reads. Only the admission of a session
could break this, and it is guarded: every other step leaves the readers and writers as they are or
takes one of them away.

## Main definitions

* `LockState.Exclusive`: at most one session writes, and none reads while one writes.

## Main results

* `TableScene.exclusive_move`: every move keeps the state exclusive.
* `TableScene.exclusive_run`: the state is exclusive after every run.
-/

namespace SqlTree

namespace LockState

/-- At most one session writes, and none reads while one writes. -/
structure Exclusive (st : LockState) : Prop where
  writing_length : st.writing.length ≤ 1
  reading_eq_nil : st.writing ≠ [] → st.reading = []

theorem exclusive_empty : empty.Exclusive := ⟨by simp [empty], by simp [empty]⟩

variable {st st' : LockState}

@[simp] theorem active_setPending (queue : List Session) (kind k : LockKind) :
    (st.setPending queue kind).active k = st.active k := by
  cases kind <;> cases k <;> rfl

@[simp] theorem pending_setActive (sessions : List Session) (kind k : LockKind) :
    (st.setActive sessions kind).pending k = st.pending k := by
  cases kind <;> cases k <;> rfl

/-- Exclusion depends on the admitted sessions only. -/
theorem Exclusive.of_active_eq (h : st.Exclusive) (ha : ∀ k, st'.active k = st.active k) :
    st'.Exclusive := by
  have hr : st'.reading = st.reading := ha .read
  have hw : st'.writing = st.writing := ha .write
  exact ⟨hw ▸ h.writing_length, by rw [hr, hw]; exact h.reading_eq_nil⟩

/-- There is one writer at most. -/
theorem Exclusive.eq_of_mem_writing (h : st.Exclusive) {a b : Session} (ha : a ∈ st.writing)
    (hb : b ∈ st.writing) : a = b := by
  have hlen := h.writing_length
  obtain ⟨i, hi, rfl⟩ := List.getElem_of_mem ha
  obtain ⟨j, hj, rfl⟩ := List.getElem_of_mem hb
  have hij : i = j := by omega
  simp only [hij]

/-- A session is admitted to read only while none writes, and to write only while none is
admitted, so the state after an admission is exclusive whatever it was before. -/
theorem exclusive_of_admitted {kind : LockKind} {session : Session}
    (ha : st.admit? kind session = some st') : st'.Exclusive := by
  cases kind with
  | read =>
    simp only [admit?, enabled, readEnabled, Option.ite_none_right_eq_some, Option.some.injEq,
      Bool.and_eq_true, List.isEmpty_iff] at ha
    obtain ⟨⟨⟨-, hw⟩, -⟩, rfl⟩ := ha
    have hw' : ((st.setPending (st.pending .read).tail .read).setActive
        (st.active .read ++ [session]) .read).writing = [] := hw
    exact ⟨by simp [hw'], fun hne => absurd hw' hne⟩
  | write =>
    simp only [admit?, enabled, writeEnabled, Option.ite_none_right_eq_some, Option.some.injEq,
      Bool.and_eq_true, List.isEmpty_iff] at ha
    obtain ⟨⟨⟨hr, hw⟩, -⟩, rfl⟩ := ha
    exact ⟨by simp [setActive, setPending, active, hw], fun _ => hr⟩

/-- Giving a table back takes an admitted session away. -/
theorem Exclusive.release {kind : LockKind} {session : Session} (h : st.Exclusive)
    (hr : st.release? kind session = some st') : st'.Exclusive := by
  cases kind with
  | read =>
    simp only [release?, Option.ite_none_right_eq_some, Option.some.injEq] at hr
    obtain ⟨hmem, rfl⟩ := hr
    refine ⟨h.writing_length, fun hne => ?_⟩
    rw [h.reading_eq_nil hne] at hmem
    exact absurd hmem List.not_mem_nil
  | write =>
    simp only [release?, Option.ite_none_right_eq_some, Option.some.injEq] at hr
    obtain ⟨-, rfl⟩ := hr
    have hlen := h.writing_length
    have htail : st.writing.tail = [] := List.eq_nil_of_length_eq_zero (by simp; omega)
    exact ⟨by simp [htail], fun hne => absurd htail hne⟩

theorem active_cancel {session : Session} (hc : st.cancel? session = some st') (k : LockKind) :
    st'.active k = st.active k := by
  simp only [cancel?, Option.ite_none_right_eq_some, Option.some.injEq] at hc
  rw [← hc.2, withdraw, active_setPending, withdraw, active_setPending]

end LockState

namespace TableLock

variable {l l' : TableLock}

theorem exclusive_request {request : Nat} {kind : LockKind} {session : Session}
    (h : l.state.Exclusive) (hr : l.request? request kind session = some l') :
    l'.state.Exclusive := by
  simp only [request?, Option.ite_none_left_eq_some, Option.some.injEq] at hr
  obtain ⟨-, rfl⟩ := hr
  exact h.of_active_eq fun k => LockState.active_setPending ..

theorem exclusive_beginClose (h : l.state.Exclusive) (hc : l.beginClose? = some l') :
    l'.state.Exclusive := by
  simp only [beginClose?, Option.ite_none_left_eq_some, Option.some.injEq] at hc
  obtain ⟨-, rfl⟩ := hc
  exact h.of_active_eq fun k => by cases k <;> rfl

theorem exclusive_requestClose (h : l.state.Exclusive) (request : Nat) (session : Session) :
    (l.requestClose request session).state.Exclusive :=
  h.of_active_eq fun _ => LockState.active_setPending ..

/-- A check refuses the request, admits it, or changes nothing but who sleeps. -/
theorem exclusive_recheck (h : l.state.Exclusive) (request : Nat) :
    (l.recheck request).1.state.Exclusive := by
  rw [recheck]
  split
  · exact h
  · next w _ =>
    split
    · exact h.of_active_eq fun _ => LockState.active_setPending ..
    · split
      · next st' ha => exact LockState.exclusive_of_admitted ha
      · exact h

theorem exclusive_abandon (h : l.state.Exclusive) (request : Nat) :
    (l.abandon request).1.state.Exclusive := by
  rw [abandon]
  split
  · exact h
  · dsimp only
    split
    · exact h.of_active_eq fun _ => LockState.active_setPending ..
    · exact h

theorem exclusive_release (h : l.state.Exclusive) (kind : LockKind) (session : Session) :
    (l.release kind session).1.state.Exclusive := by
  rw [release]
  split
  · next st' hr => exact h.release hr
  · exact h

theorem exclusive_cancel (h : l.state.Exclusive) (session : Session) :
    (l.cancel session).1.state.Exclusive := by
  rw [cancel]
  split
  · next st' hc => exact h.of_active_eq (LockState.active_cancel hc)
  · exact h

end TableLock

namespace TableScene

/-- Every step of a call keeps the state exclusive. -/
theorem exclusive_move (s : TableScene) (m : TableMove) (h : s.lock.state.Exclusive) :
    (s.move m).lock.state.Exclusive := by
  cases m with
  | request kind session =>
    rw [move]
    cases hr : s.lock.request? s.next kind session with
    | none => exact h
    | some l => exact TableLock.exclusive_request h hr
  | close session =>
    rw [move]
    cases hc : s.lock.beginClose? with
    | none => exact h
    | some l => exact TableLock.exclusive_beginClose h hc
  | join =>
    rw [move]
    cases hc : s.closer with
    | none => exact h
    | some c => exact TableLock.exclusive_requestClose h c.1 c.2
  | recheck request => exact TableLock.exclusive_recheck h request
  | abandon request => exact TableLock.exclusive_abandon h request
  | release kind session => exact TableLock.exclusive_release h kind session
  | cancel session => exact TableLock.exclusive_cancel h session

/-- **A writer is alone.** Whatever calls are made on a lock and in whatever order they make their
steps, at most one session writes, and none reads while one writes. -/
theorem exclusive_run (name : String) (moves : List TableMove) :
    ((new name).run moves).lock.state.writing.length ≤ 1 ∧
      (((new name).run moves).lock.state.writing ≠ [] →
        ((new name).run moves).lock.state.reading = []) := by
  have h := run_induction (P := fun s => s.lock.state.Exclusive) exclusive_move (new name)
    LockState.exclusive_empty moves
  exact ⟨h.writing_length, h.reading_eq_nil⟩

end TableScene

end SqlTree
