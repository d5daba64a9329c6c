import SqlTree.Proofs.Lock.Entries
import SqlTree.Proofs.Lock.TableHistory

/-!
# A call that closes a table and is given up

A call that closes a table first sets the flag and then joins the queue to write. If it has to wait
there, for readers, for a writer or for a request ahead of it, and is given up while it waits, its
place is taken out of the queue again, but the flag stays. So the table is closed although nobody
has got it to close it: its holders go on, whoever waits is refused, whoever asks is refused, and it
cannot be closed again either.

The queue is as it was before, unless the session has waited to write already and another session
stands behind it there: places are told apart by their sessions only, so the one that is taken out
is the first of the session.

## Main definitions

* `LockState.Blocks`: a session that asks to write now has to wait.
* `TableScene.unfinishedClose`: the moves of a call that closes the table and is given up.
* `TableScene.ClosingWaits`: a call that has begun to close the table waits, and nothing else has
  happened.

## Main results

* `LockState.blocks_iff`: which sessions have to wait.
* `TableScene.ClosingWaits.recheck`: what the checks of such a call do.
* `TableScene.closed_by_unfinished_close`: what is left of such a call when it is given up.
-/

namespace SqlTree

/-! ### Who has to wait -/

namespace LockState

/-- A session that asks to write now has to wait, for a reader, for a writer or for another session
that has asked before. -/
def Blocks (st : LockState) (session : Session) : Prop :=
  st.reading ≠ [] ∨ st.writing ≠ [] ∨ ∃ other ≠ session, st.requestingWrite.head? = some other

/-- A session that has joined the queue to write is not admitted if it has to wait. -/
theorem blocks_iff (st : LockState) (session : Session) :
    st.Blocks session ↔ (st.enqueue .write session).admit? .write session = none := by
  have hhead : (∃ other ≠ session, st.requestingWrite.head? = some other) ↔
      (st.requestingWrite ++ [session]).head? ≠ some session := by
    cases st.requestingWrite with
    | nil => simp
    | cons other rest => simp
  rw [Blocks, hhead]
  simp only [admit?, enabled, writeEnabled, enqueue, pending, setPending, ite_eq_right_iff,
    reduceCtorEq, imp_false, Bool.and_eq_true, List.isEmpty_iff, beq_iff_eq]
  tauto

end LockState

/-- An item may be put behind a list or in front of it if the list has no other items. -/
theorem concat_eq_cons_iff {α : Type} (l : List α) (a : α) :
    l ++ [a] = a :: l ↔ ∀ b ∈ l, b = a := by
  induction l with
  | nil => simp
  | cons b l ih =>
    rw [List.cons_append, List.cons.injEq, List.forall_mem_cons]
    exact and_congr_right fun hb => hb ▸ ih

/-- An item that is put behind a list and taken out at its first place leaves the list as it was if
nothing else stands behind the first place. -/
theorem erase_concat_eq_iff {α : Type} [DecidableEq α] (l : List α) (a : α) :
    (l ++ [a]).erase a = l ↔ ∀ b ∈ l.dropWhile (· ≠ a), b = a := by
  induction l with
  | nil => simp
  | cons b l ih =>
    by_cases hb : b = a
    · subst hb
      rw [List.cons_append, List.erase_cons_head, List.dropWhile_cons_of_neg (by simp),
        List.forall_mem_cons, concat_eq_cons_iff]
      exact (and_iff_right rfl).symm
    · rw [List.cons_append, List.erase_cons_tail (by simpa using hb),
        List.dropWhile_cons_of_pos (by simpa using hb), List.cons.injEq, ih]
      exact and_iff_right rfl

namespace TableScene

variable {s s₁ : TableScene} {session : Session}

/-- The moves of the call `request` of `session`: it closes the table, joins the queue, checks it
some times and is given up. -/
def unfinishedClose (request : Nat) (session : Session) (checks : Nat) : List TableMove :=
  [.close session, .join] ++ List.replicate checks (.recheck request) ++ [.abandon request]

/-- A call of `session` that has begun to close the table in the scene `s` waits in the scene `s₁`,
and nothing else has happened. -/
structure ClosingWaits (session : Session) (s s₁ : TableScene) : Prop where
  state : s₁.lock.state = s.lock.state.close.enqueue .write session
  places : s₁.lock.places = s.lock.places ++ [⟨s.next, .write, session, true⟩]
  closer : s₁.closer = none

/-- A call that closes an open table joins the queue. -/
theorem closingWaits_join (hopen : s.lock.state.closed = false) (session : Session) :
    ClosingWaits session s (s.run [.close session, .join]) := by
  have hbegin : s.lock.beginClose? =
      some { s.lock with state := s.lock.state.close }.notifyAll := by
    rw [TableLock.beginClose?, hopen]
    rfl
  have hrun : s.run [.close session, .join] =
      ⟨{ s.lock with state := s.lock.state.close }.notifyAll.requestClose s.next session,
        s.next + 1, none⟩ := by
    simp only [run_cons, run_nil, move, hbegin]
  rw [hrun]
  refine ⟨rfl, ?_, rfl⟩
  rw [TableLock.requestClose, TableLock.places_enqueue, TableLock.places_notifyAll]
  rfl

namespace ClosingWaits

/-- The call has a request of its own. -/
theorem waiter? (h : ClosingWaits session s s₁) (hfresh : ∀ x ∈ s.lock.places, x.request < s.next) :
    ∃ w, s₁.lock.waiter? s.next = some w ∧ w.place = ⟨s.next, .write, session, true⟩ := by
  have hmem : (⟨s.next, .write, session, true⟩ : Place) ∈ s₁.lock.places := by
    rw [h.places]
    exact List.mem_append_right _ (List.mem_singleton_self _)
  obtain ⟨w, hw⟩ := TableLock.waiter?_of_place hmem
  obtain ⟨hplace, hreq⟩ := TableLock.waiter?_eq_some hw
  refine ⟨w, hw, ?_⟩
  rw [h.places] at hplace
  rcases List.mem_append.mp hplace with hold | hnew
  · exact absurd hreq (Nat.ne_of_lt (hfresh _ hold))
  · exact List.mem_singleton.mp hnew

/-- A check ends the wait of the call unless its session has to wait, and then nothing happens. -/
theorem recheck (h : ClosingWaits session s s₁) (hfresh : ∀ x ∈ s.lock.places, x.request < s.next) :
    ((s₁.lock.recheck s.next).2 = none ↔ s.lock.state.Blocks session) ∧
      (s.lock.state.Blocks session → ClosingWaits session s (s₁.move (.recheck s.next))) := by
  obtain ⟨w, hw, hplace⟩ := h.waiter? hfresh
  simp only [Waiter.place, Place.mk.injEq] at hplace
  obtain ⟨-, hkind, hsession, hclosing⟩ := hplace
  have hblocks : s.lock.state.Blocks session ↔ s₁.lock.state.admit? w.kind w.session = none := by
    rw [hkind, hsession, h.state]
    exact s.lock.state.close.blocks_iff session
  cases hresult : s₁.lock.state.admit? w.kind w.session with
  | none =>
    have hcheck : s₁.lock.recheck s.next = (s₁.lock.sleep s.next, none) := by
      simp only [TableLock.recheck, hw, hclosing, hresult, Bool.not_true, Bool.and_false,
        Bool.false_eq_true, if_false]
    rw [move, hcheck]
    refine ⟨iff_of_true rfl (hblocks.mpr hresult), fun _ => ⟨h.state, ?_, h.closer⟩⟩
    exact (TableLock.places_sleep s.next).trans h.places
  | some st =>
    have hfree : ¬ s.lock.state.Blocks session := fun hb =>
      Option.some_ne_none st (hresult.symm.trans (hblocks.mp hb))
    refine ⟨iff_of_false ?_ hfree, fun hb => absurd hb hfree⟩
    simp only [TableLock.recheck, hw, hclosing, hresult, Bool.not_true, Bool.and_false,
      Bool.false_eq_true, if_false, reduceCtorEq, not_false_eq_true]

/-- When the call is given up, its place is taken out of the queue again, or that of an earlier
request of its session. -/
theorem abandon (h : ClosingWaits session s s₁) (hfresh : ∀ x ∈ s.lock.places, x.request < s.next) :
    (s₁.move (.abandon s.next)).lock.state = { s.lock.state with
        requestingWrite := (s.lock.state.requestingWrite ++ [session]).erase session,
        closed := true } ∧
      (s₁.move (.abandon s.next)).lock.places = s.lock.places ∧
      (s₁.move (.abandon s.next)).closer = none := by
  obtain ⟨w, hw, hplace⟩ := h.waiter? hfresh
  have hhappens := TableLock.happens_abandon hw
  rw [hplace] at hhappens
  cases hhappens with
  | withdrawn _ places state =>
    refine ⟨?_, ?_, h.closer⟩
    · refine state.trans ?_
      rw [h.state]
      rfl
    · refine places.trans ?_
      have hold : s.lock.places.filter (fun y => y.request != s.next) = s.lock.places :=
        List.filter_eq_self.mpr fun y hy => bne_iff_ne.mpr (Nat.ne_of_lt (hfresh y hy))
      rw [h.places, List.filter_append, hold]
      simp

/-- However often the call checks its queue, it goes on waiting if its session has to wait. -/
theorem rechecks (h : ClosingWaits session s s₁) (hfresh : ∀ x ∈ s.lock.places, x.request < s.next)
    (hblocks : s.lock.state.Blocks session) (checks : Nat) :
    ClosingWaits session s (s₁.run (List.replicate checks (.recheck s.next))) := by
  induction checks generalizing s₁ with
  | zero => exact h
  | succ checks ih =>
    rw [List.replicate_succ, run_cons]
    exact ih ((h.recheck hfresh).2 hblocks)

end ClosingWaits

/-- The requests that wait have begun before the next call. -/
theorem Recorded.request_lt {history : List TableEvent} (h : s.Recorded history) :
    ∀ x ∈ s.lock.places, x.request < s.next := by
  intro x hx
  rw [h.places] at hx
  exact (h.fresh x (List.mem_filter.mp hx).1).1

/-- What is left of a call that closes the table and is given up: the table is closed for good,
though the call has ended. -/
structure LeftClosed (session : Session) (s s' : TableScene) : Prop where
  /-- The flag is set, and the queue to write has lost the first place of the session, with the
  place of the call at its end. The holders and the other queue are as they were. -/
  state : s'.lock.state = { s.lock.state with
    requestingWrite := (s.lock.state.requestingWrite ++ [session]).erase session, closed := true }
  /-- The requests that waited before wait on. -/
  places : s'.lock.places = s.lock.places
  /-- The queue to write is as it was if no other session stands behind the first place of the
  session. -/
  queue : s'.lock.state.requestingWrite = s.lock.state.requestingWrite ↔
    ∀ other ∈ s.lock.state.requestingWrite.dropWhile (· ≠ session), other = session
  /-- Whatever is done later, every call that begins is refused, one that closes the table too. -/
  refused : ∀ later, (s'.run later).lock.state.closed = true ∧
    (∀ request kind other, (s'.run later).lock.request? request kind other = none) ∧
    (s'.run later).lock.beginClose? = none
  /-- Whatever is done later, nothing is admitted. -/
  admitted : ∀ later, s'.admitted later = []

/-- In every run that leaves the table open, a call that closes it has to wait exactly if its
session is blocked. If it is given up then, however often it has checked its queue, the table is
left closed. -/
theorem closed_by_unfinished_close (name : String) (moves : List TableMove) (session : Session)
    (hopen : ((new name).run moves).lock.state.closed = false) :
    let s := (new name).run moves
    (((s.run [.close session, .join]).lock.recheck s.next).2 = none ↔
        s.lock.state.Blocks session) ∧
      (s.lock.state.Blocks session →
        ∀ checks, LeftClosed session s (s.run (unfinishedClose s.next session checks))) := by
  intro s
  have hfresh : ∀ x ∈ s.lock.places, x.request < s.next := (recorded_run name moves).request_lt
  have hwaits := closingWaits_join hopen session
  refine ⟨(hwaits.recheck hfresh).1, fun hblocks checks => ?_⟩
  have hrun : s.run (unfinishedClose s.next session checks) =
      ((s.run [.close session, .join]).run (List.replicate checks (.recheck s.next))).move
        (.abandon s.next) := by
    rw [unfinishedClose, run_append, run_append]
    rfl
  rw [hrun]
  obtain ⟨hstate, hplaces, hcloser⟩ := (hwaits.rechecks hfresh hblocks checks).abandon hfresh
  generalize TableScene.move _ (.abandon s.next) = s' at hstate hplaces hcloser
  have hclosed : s'.lock.state.closed = true := by rw [hstate]
  have hup : s'.ClosedUp :=
    ⟨hclosed, hcloser, fun x hx => (openUp_run name moves hopen).2 x (hplaces ▸ hx)⟩
  refine ⟨hstate, hplaces, ?_, fun later => ?_, hup.admitted⟩
  · rw [hstate]
    exact erase_concat_eq_iff _ _
  · have hlater := closed_run hclosed later
    exact ⟨hlater, refused_of_closed hlater⟩

/-- Session 1 reads. -/
def readByOne : List TableMove := [.request .read ⟨1⟩, .recheck 0]

/-- The theorem at a reader that another session waits for to close the table, and gives up: nobody
waits, session 1 reads on, and the table is closed. -/
theorem closed_by_unfinished_close_read :
    let s := (new "Student").run readByOne
    let s' := s.run (unfinishedClose 1 ⟨2⟩ 1)
    s.lock.state = ⟨[], [⟨1⟩], [], [], false⟩ ∧ s'.lock.state = ⟨[], [⟨1⟩], [], [], true⟩ ∧
      s'.lock.places = [] ∧ (s'.run [.release .read ⟨1⟩]).lock.state = ⟨[], [], [], [], true⟩ ∧
      (s'.run [.release .read ⟨1⟩]).lock.request? 2 .read ⟨3⟩ = none ∧
      (s'.run [.release .read ⟨1⟩]).lock.beginClose? = none := by
  intro s s'
  obtain ⟨-, hleft⟩ := closed_by_unfinished_close "Student" readByOne ⟨2⟩ rfl
  have h := hleft (.inl (by decide)) 1
  obtain ⟨-, hrefused, hclose⟩ := h.refused [.release .read ⟨1⟩]
  exact ⟨rfl, h.state, h.places, by decide, hrefused 2 .read ⟨3⟩, hclose⟩

end TableScene

end SqlTree
