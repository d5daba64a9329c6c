import SqlTree.Proofs.Lock.Withdrawal

/-!
# Cancelled requests

A session that is cancelled loses one place in each queue, the first one, and its requests wait on.
So a session that has asked for the same several times keeps its further places. A request that has
no place any more is never admitted and has nothing to give up, as long as its session does not ask
for the same again. But once it has asked again, the cancelled request is told from the new one by
nothing in the queue: whichever of them is checked at the head of the queue is admitted, and when
the cancelled one is given up, the place of the new one is taken out.

## Main definitions

* `TableScene.Cancelled`: what a lock loses when a session is cancelled, and what stays.

## Main results

* `TableScene.not_admitted_of_absent`: without a place, nobody is admitted.
* `TableScene.cancelled_until_asked_again`: what a cancellation does, for how long the requests of
  the session are without effect, and what they do afterwards.
-/

namespace SqlTree

namespace LockState

variable {st : LockState} {σ : Session}

/-- The places of the others stay in their order. -/
theorem filter_erase (queue : List Session) (σ : Session) :
    (queue.erase σ).filter (· ≠ σ) = queue.filter (· ≠ σ) := by
  by_cases hmem : σ ∈ queue
  · obtain ⟨before, after, -, rfl, herase⟩ := List.exists_erase_eq hmem
    rw [herase, List.filter_append, List.filter_append, List.filter_cons_of_neg (by simp)]
  · rw [List.erase_of_not_mem hmem]

/-- A session has no place left if it had one at most. -/
theorem notMem_erase_iff (queue : List Session) (σ : Session) :
    σ ∉ queue.erase σ ↔ queue.count σ ≤ 1 := by
  rw [← List.count_eq_zero, List.count_erase_self]
  omega

theorem exists_mem_pending :
    (∃ k, σ ∈ st.pending k) ↔ σ ∈ st.requestingRead ∨ σ ∈ st.requestingWrite := by
  constructor
  · rintro ⟨k, hk⟩
    cases k with
    | read => exact .inl hk
    | write => exact .inr hk
  · rintro (hread | hwrite)
    · exact ⟨.read, hread⟩
    · exact ⟨.write, hwrite⟩

/-- A session can be cancelled if it has a place. -/
theorem isSome_cancel_iff : (st.cancel? σ).isSome = true ↔ ∃ k, σ ∈ st.pending k := by
  rw [cancel?, exists_mem_pending]
  split
  · next h => exact iff_of_true rfl h
  · next h => exact iff_of_false Bool.false_ne_true h

end LockState

/-- A session that has no place in a queue gets none and is not admitted, unless it joins. -/
theorem TableLock.Happens.absent {l l' : TableLock} {event : Option TableEvent}
    (h : l.Happens l' event) {k : LockKind} {σ : Session} (hσ : σ ∉ l.state.pending k)
    (hjoin : ∀ y, event = some (.joined y) → y.asks ≠ (k, σ)) :
    σ ∉ l'.state.pending k ∧ ∀ y, event = some (.admitted y) → y.asks ≠ (k, σ) := by
  cases h with
  | still _ pending => exact ⟨pending k ▸ hσ, fun _ h => by cases h⟩
  | @joined x _ state =>
    refine ⟨?_, fun _ h => by cases h⟩
    rw [state, LockState.enqueue, LockState.pending_setPending]
    split
    · next hk =>
      have hne : σ ≠ x.session := fun heq => hjoin x rfl (Place.asks_eq_iff.mpr ⟨hk, heq.symm⟩)
      rw [hk, List.mem_append, List.mem_singleton, not_or]
      exact ⟨hσ, hne⟩
    · exact hσ
  | @admitted x _ _ state =>
    obtain ⟨-, hhead, -⟩ := LockState.head_of_admitted state
    refine ⟨?_, ?_⟩
    · rw [LockState.pending_admitted state]
      split
      · exact fun hmem => hσ (List.mem_of_mem_erase hmem)
      · exact hσ
    · rintro _ ⟨⟩ hasks
      obtain ⟨rfl, rfl⟩ := Place.asks_eq_iff.mp hasks
      exact hσ (hhead ▸ List.mem_cons_self)
  | @withdrawn x _ _ state =>
    refine ⟨?_, fun _ h => by cases h⟩
    rw [state, LockState.pending_withdraw]
    split
    · exact fun hmem => hσ (List.mem_of_mem_erase hmem)
    · exact hσ
  | released _ state => exact ⟨LockState.pending_release state k ▸ hσ, fun _ h => by cases h⟩
  | cancelled _ state =>
    refine ⟨?_, fun _ h => by cases h⟩
    rw [LockState.pending_cancel state]
    exact fun hmem => hσ (List.mem_of_mem_erase hmem)

namespace TableScene

variable {s : TableScene} {history : List TableEvent} {σ : Session} {k : LockKind} {x : Place}

/-! ### Requests without a place -/

/-- Until it joins again, a session without a place in a queue gets none and is not admitted. -/
theorem not_admitted_of_absent {more : List TableMove} (hσ : σ ∉ s.lock.state.pending k)
    (hjoin : ∀ y, .joined y ∈ s.history more → y.asks ≠ (k, σ)) :
    σ ∉ (s.run more).lock.state.pending k ∧
      ∀ y, .admitted y ∈ s.history more → y.asks ≠ (k, σ) := by
  induction more generalizing s with
  | nil => exact ⟨hσ, fun y hy => absurd hy List.not_mem_nil⟩
  | cons m more ih =>
    have hhere : ∀ y, s.event? m = some (.joined y) → y.asks ≠ (k, σ) := fun y hy =>
      hjoin y (List.mem_append_left _ (Option.mem_toList.mpr hy))
    obtain ⟨hnext, hadmitted⟩ := (happens_move s m).absent hσ hhere
    obtain ⟨hlast, hlater⟩ := ih hnext fun y hy => hjoin y (List.mem_append_right _ hy)
    refine ⟨hlast, fun y hy => ?_⟩
    rcases List.mem_append.mp hy with hy | hy
    · exact hadmitted y (Option.mem_toList.mp hy)
    · exact hlater y hy

theorem Recorded.run (h : s.Recorded history) (more : List TableMove) :
    (s.run more).Recorded (history ++ s.history more) := by
  induction more generalizing s history with
  | nil =>
    rw [TableScene.history, List.append_nil]
    exact h
  | cons m more ih =>
    rw [TableScene.history, ← List.append_assoc, run_cons]
    exact ih (h.move m)

/-- The number of a request belongs to no other request later on. -/
theorem Recorded.eq_of_run (h : s.Recorded history) {more : List TableMove} {y : Place}
    (hx : x ∈ s.lock.places) (hy : y ∈ (s.run more).lock.places) (hreq : y.request = x.request) :
    y = x := by
  have hlater := h.run more
  rw [h.places] at hx
  rw [hlater.places] at hy
  have hjoined : x ∈ (history ++ s.history more).filterMap TableEvent.joined? := by
    rw [List.filterMap_append]
    exact List.mem_append_left _ (List.mem_filter.mp hx).1
  exact List.inj_on_of_nodup_map hlater.nodup (List.mem_filter.mp hy).1 hjoined hreq

/-- A request without a place has nothing to give up. -/
theorem state_abandon_of_absent {request : Nat}
    (h : ∀ y ∈ s.lock.places, y.request = request → y.session ∉ s.lock.state.pending y.kind) :
    (s.move (.abandon request)).lock.state = s.lock.state := by
  rw [move, TableLock.abandon]
  split
  · rfl
  · next w hw =>
    obtain ⟨hmem, hreq⟩ := TableLock.waiter?_eq_some hw
    have habsent : w.session ∉ s.lock.state.pending w.kind := h w.place hmem hreq
    simp only [if_neg habsent]
    rfl

/-- A waiting request whose session can be admitted is admitted when it is checked. -/
theorem event?_recheck_of_admits (h : s.Recorded history) (hx : x ∈ s.lock.places)
    (hopen : s.lock.state.closed = false)
    (hready : (s.lock.state.admit? x.kind x.session).isSome = true) :
    s.event? (.recheck x.request) = some (.admitted x) := by
  obtain ⟨w, hw, rfl⟩ := h.waiter?_of_mem hx
  obtain ⟨st, hst⟩ := Option.isSome_iff_exists.mp hready
  have hst' : s.lock.state.admit? w.kind w.session = some st := hst
  simp only [event?, TableLock.recheck, hw, hopen, Bool.false_and, Bool.false_eq_true, if_false,
    hst']

/-- A session whose request has no place joins again: the request takes the new place out when it is
given up, and is admitted with it when it is checked first. -/
theorem Recorded.asked_again (h : s.Recorded history) (hx : x ∈ s.lock.places)
    (hopen : s.lock.state.closed = false) (habsent : x.session ∉ s.lock.state.pending x.kind) :
    let asked := s.move (.request x.kind x.session)
    (asked.move (.abandon x.request)).lock.state.pending x.kind = s.lock.state.pending x.kind ∧
      ⟨s.next, x.kind, x.session, false⟩ ∈ (asked.move (.abandon x.request)).lock.places ∧
      ((asked.lock.state.admit? x.kind x.session).isSome = true →
        asked.event? (.recheck x.request) = some (.admitted x)) := by
  intro asked
  have hlock : asked.lock = s.lock.enqueue s.next x.kind x.session false := by
    simp [asked, TableScene.move, TableLock.request?, hopen]
  have hplaces : asked.lock.places = s.lock.places ++ [⟨s.next, x.kind, x.session, false⟩] := by
    rw [hlock, TableLock.places_enqueue]
  have hpending : asked.lock.state.pending x.kind = s.lock.state.pending x.kind ++ [x.session] := by
    rw [hlock, TableLock.enqueue, LockState.enqueue, LockState.pending_setPending, if_pos rfl]
  have hasked := h.move (.request x.kind x.session)
  have hxasked : x ∈ asked.lock.places := hplaces ▸ List.mem_append_left _ hx
  have hgiven : asked.GivenUp (asked.move (.abandon x.request)) x := (hasked.abandoned hxasked).2
  refine ⟨?_, ?_, event?_recheck_of_admits hasked hxasked ?_⟩
  · -- The new place is the only one of the session.
    rw [hgiven.queue, hpending, List.erase_append_right _ habsent, List.erase_cons_head,
      List.append_nil]
  · have hnew : s.next ≠ x.request := by
      rw [h.places] at hx
      exact (Nat.ne_of_lt (h.fresh x (List.mem_filter.mp hx).1).1).symm
    rw [hgiven.places, hplaces]
    refine List.mem_filter.mpr ⟨?_, bne_iff_ne.mpr hnew⟩
    exact List.mem_append_right _ (List.mem_singleton_self _)
  · rw [hlock]
    exact (TableLock.closed_setPending ..).trans hopen

/-! ### A session that is cancelled -/

/-- What a lock loses when a session is cancelled: the first place of the session in each queue.
Nothing else changes. -/
structure Cancelled (s s' : TableScene) (σ : Session) : Prop where
  queue : ∀ k, s'.lock.state.pending k = (s.lock.state.pending k).erase σ
  active : ∀ k, s'.lock.state.active k = s.lock.state.active k
  closed : s'.lock.state.closed = s.lock.state.closed
  places : s'.lock.places = s.lock.places

theorem cancelled_move (s : TableScene) (σ : Session) : s.Cancelled (s.move (.cancel σ)) σ := by
  rw [move, TableLock.cancel]
  cases h : s.lock.state.cancel? σ with
  | none =>
    have hnone : ∀ k, σ ∉ s.lock.state.pending k := by
      refine not_exists.mp fun hsome => ?_
      rw [← LockState.isSome_cancel_iff, h] at hsome
      cases hsome
    exact ⟨fun k => (List.erase_of_not_mem (hnone k)).symm, fun _ => rfl, rfl, rfl⟩
  | some st =>
    exact ⟨LockState.pending_cancel h, LockState.active_cancel h, TableLock.closed_cancel h,
      TableLock.places_notifyAll⟩

/-- Whether a cancelled session had a place. -/
theorem cancel_eq_true_iff (s : TableScene) (σ : Session) :
    (s.lock.cancel σ).2 = true ↔ ∃ k, σ ∈ s.lock.state.pending k := by
  rw [← LockState.isSome_cancel_iff, TableLock.cancel]
  cases s.lock.state.cancel? σ with
  | none => exact .rfl
  | some st => exact .rfl

/-- In every run, a session that is cancelled loses the first of its places in each queue, so it has
none left in a queue where it had one at most. A request of the session that has no place any more
is not admitted and takes no place out when it is given up, as long as the session does not join
that queue again. When it has joined again, the cancelled request, if it still waits, takes the
place of the new one out when it is given up, and is admitted with it if it is checked first. -/
theorem cancelled_until_asked_again (name : String) (moves : List TableMove) (σ : Session) :
    let s := (new name).run moves
    let s' := s.move (.cancel σ)
    s.Cancelled s' σ ∧
      (∀ k, (s'.lock.state.pending k).filter (· ≠ σ) = (s.lock.state.pending k).filter (· ≠ σ)) ∧
      ((s.lock.cancel σ).2 = true ↔ ∃ k, σ ∈ s.lock.state.pending k) ∧
      (∀ k, σ ∉ s'.lock.state.pending k ↔ (s.lock.state.pending k).count σ ≤ 1) ∧
      ∀ x ∈ s.lock.places, x.session = σ → σ ∉ s'.lock.state.pending x.kind →
        ∀ more, (∀ y, .joined y ∈ s'.history more → y.asks ≠ x.asks) →
          let t := s'.run more
          let asked := t.move (.request x.kind σ)
          .admitted x ∉ s'.history more ∧
            (t.move (.abandon x.request)).lock.state = t.lock.state ∧
            (x ∈ t.lock.places → t.lock.state.closed = false →
              (asked.move (.abandon x.request)).lock.state.pending x.kind =
                  t.lock.state.pending x.kind ∧
                ⟨t.next, x.kind, σ, false⟩ ∈ (asked.move (.abandon x.request)).lock.places ∧
                ((asked.lock.state.admit? x.kind σ).isSome = true →
                  asked.event? (.recheck x.request) = some (.admitted x))) := by
  intro s s'
  have hcancelled : s.Cancelled s' σ := s.cancelled_move σ
  have hrecorded : s'.Recorded ((new name).history moves ++ (s.event? (.cancel σ)).toList) :=
    (recorded_run name moves).move (.cancel σ)
  refine ⟨hcancelled, fun k => ?_, s.cancel_eq_true_iff σ, fun k => ?_, ?_⟩
  · rw [hcancelled.queue, LockState.filter_erase]
  · rw [hcancelled.queue, LockState.notMem_erase_iff]
  rintro x hx rfl habsent more hjoin t asked
  have hx' : x ∈ s'.lock.places := hcancelled.places ▸ hx
  obtain ⟨hlast, hadmitted⟩ := not_admitted_of_absent habsent hjoin
  refine ⟨fun hmem => hadmitted x hmem rfl, state_abandon_of_absent fun y hy hreq => ?_,
    fun hwaits hopen => (hrecorded.run more).asked_again hwaits hopen hlast⟩
  rw [hrecorded.eq_of_run hx' hy hreq]
  exact hlast

/-- While session 9 writes, session 1 asks to write. -/
def askedOnce : List TableMove := [.request .write ⟨9⟩, .recheck 0, .request .write ⟨1⟩]

/-- If session 1 is cancelled and asks again, its first request takes the place of the second one.
If it has asked twice before it is cancelled, it keeps a place. -/
theorem cancelled_until_asked_again_writer :
    let s := ((new "Student").run askedOnce).move (.cancel ⟨1⟩)
    let asked := (s.run [.release .write ⟨9⟩]).move (.request .write ⟨1⟩)
    let twice := (new "Student").run (askedOnce ++ [.request .write ⟨1⟩])
    s.lock.state.pending .write = [] ∧ asked.lock.state.pending .write = [⟨1⟩] ∧
      (asked.move (.abandon 1)).lock.state.pending .write = [] ∧
      (asked.move (.abandon 1)).lock.places.map Place.request = [2] ∧
      asked.event? (.recheck 1) = some (.admitted ⟨1, .write, ⟨1⟩, false⟩) ∧
      (twice.lock.cancel ⟨1⟩).2 = true ∧
      ⟨1⟩ ∈ (twice.move (.cancel ⟨1⟩)).lock.state.pending .write := by
  intro s asked twice
  have hhistory : s.history [.release .write ⟨9⟩] = [.released .write ⟨9⟩] := by decide
  obtain ⟨-, -, -, -, hrequests⟩ := cancelled_until_asked_again "Student" askedOnce ⟨1⟩
  obtain ⟨-, -, hasked⟩ := hrequests ⟨1, .write, ⟨1⟩, false⟩ (by decide) rfl (by decide)
    [.release .write ⟨9⟩] fun y hy => by cases List.mem_singleton.mp (hhistory ▸ hy)
  obtain ⟨hqueue, -, hadmitted⟩ := hasked (by decide) (by decide)
  obtain ⟨-, -, hany, hcount, -⟩ :=
    cancelled_until_asked_again "Student" (askedOnce ++ [.request .write ⟨1⟩]) ⟨1⟩
  refine ⟨by decide, by decide, hqueue, by decide, hadmitted (by decide),
    hany.mpr ⟨.write, by decide⟩, ?_⟩
  exact not_imp_comm.mp (hcount .write).mp (by decide)

end TableScene

end SqlTree
