import Mathlib.Data.List.Induction
import Mathlib.Data.List.Nodup
import SqlTree.Proofs.Lock.Closing

/-!
# The history of a lock

A move on a lock does one thing to its queues at most: a request joins its queue, is admitted, or
withdraws; or a session gives the table back, or gives up its places. The history of a run is the
list of these events in the order in which they happen. Every request joins its queue under a number
of its own, and the requests that wait are those that have joined and neither been admitted nor
withdrawn, in the order in which they joined.

## Main definitions

* `Place.asks`: what a waiting request asks for, and for whom.
* `TableEvent`, `TableScene.event?`, `TableScene.history`: what a move does, and a run.
* `TableLock.Happens`: what an event does to a lock.
* `TableEvent.waiting`: the requests that have joined and not ended.
* `TableScene.Recorded`: what a history says about the state after it.

## Main results

* `TableScene.happens_move`: every move does what its event says.
* `TableScene.history_induction`: what each event keeps is true after every run.
* `TableScene.recorded_run`: the requests that wait, from the history.
-/

namespace SqlTree

/-- What a waiting request asks for, and for whom. -/
def Place.asks (x : Place) : LockKind × Session := (x.kind, x.session)

/-- What a move does to the queues of a lock. -/
inductive TableEvent where
  /-- A request joins its queue. -/
  | joined (x : Place)
  /-- A request is admitted. -/
  | admitted (x : Place)
  /-- A request is refused, or given up. -/
  | withdrawn (x : Place)
  /-- An admitted session gives the table back. -/
  | released (kind : LockKind) (session : Session)
  /-- A session gives up its first place in either queue. -/
  | cancelled (session : Session)
deriving DecidableEq

namespace TableEvent

/-- The request that joins its queue. -/
def joined? : TableEvent → Option Place
  | joined x => some x
  | _ => none

/-- The request that is admitted. -/
def admitted? : TableEvent → Option Place
  | admitted x => some x
  | _ => none

/-- The request whose wait ends. -/
def ended? : TableEvent → Option Place
  | admitted x | withdrawn x => some x
  | _ => none

/-- What is given back, and by whom. -/
def released? : TableEvent → Option (LockKind × Session)
  | released kind session => some (kind, session)
  | _ => none

/-- The requests that have joined their queue and whose wait has not ended, in the order in which
they joined. -/
def waiting (history : List TableEvent) : List Place :=
  (history.filterMap joined?).filter fun x => x ∉ history.filterMap ended?

variable {history : List TableEvent} {e : TableEvent} {x : Place}

/-- A request that joins waits. -/
theorem waiting_joined (h : x ∉ history.filterMap ended?) :
    waiting (history ++ [joined x]) = waiting history ++ [x] := by
  have hended : (history ++ [joined x]).filterMap ended? = history.filterMap ended? := by
    simp [ended?]
  have hjoined : (history ++ [joined x]).filterMap joined? = history.filterMap joined? ++ [x] := by
    simp [joined?]
  rw [waiting, hended, hjoined, List.filter_append, List.filter_cons_of_pos (by simpa using h),
    List.filter_nil, waiting]

/-- A request whose wait ends waits no longer. -/
theorem waiting_ended (hj : e.joined? = none) (he : e.ended? = some x) :
    waiting (history ++ [e]) = (waiting history).filter fun y => y ≠ x := by
  rw [waiting, waiting, List.filter_filter]
  simp [List.filterMap_append, hj, he, and_comm]

theorem waiting_of_none (hj : e.joined? = none) (he : e.ended? = none) :
    waiting (history ++ [e]) = waiting history := by
  simp [waiting, List.filterMap_append, hj, he]

end TableEvent

namespace TableLock

/-- What an event does to a lock, which has been `l` and is `l'` now. -/
inductive Happens (l l' : TableLock) : Option TableEvent → Prop
  | still (places : l'.places = l.places) (pending : ∀ k, l'.state.pending k = l.state.pending k)
      (active : ∀ k, l'.state.active k = l.state.active k) : Happens l l' none
  | joined {x : Place} (places : l'.places = l.places ++ [x])
      (state : l'.state = l.state.enqueue x.kind x.session) : Happens l l' (some (.joined x))
  | admitted {x : Place} (mem : x ∈ l.places)
      (places : l'.places = l.places.filter fun y => y.request != x.request)
      (state : l.state.admit? x.kind x.session = some l'.state) :
      Happens l l' (some (.admitted x))
  | withdrawn {x : Place} (mem : x ∈ l.places)
      (places : l'.places = l.places.filter fun y => y.request != x.request)
      (state : l'.state = l.state.withdraw x.kind x.session) : Happens l l' (some (.withdrawn x))
  | released {kind : LockKind} {session : Session} (places : l'.places = l.places)
      (state : l.state.release? kind session = some l'.state) :
      Happens l l' (some (.released kind session))
  | cancelled {session : Session} (places : l'.places = l.places)
      (state : l.state.cancel? session = some l'.state) : Happens l l' (some (.cancelled session))

variable {l : TableLock}

theorem Happens.refl (l : TableLock) : Happens l l none := .still rfl (fun _ => rfl) fun _ => rfl

theorem places_dropWaiter (request : Nat) :
    (l.dropWaiter request).places = l.places.filter fun x => x.request != request := by
  rw [places, places, dropWaiter, List.filter_map]
  rfl

/-- Giving up a place that a session does not have changes nothing. -/
theorem withdraw_of_not_mem {st : LockState} {kind : LockKind} {session : Session}
    (h : session ∉ st.pending kind) : st.withdraw kind session = st := by
  rw [LockState.withdraw, List.erase_of_not_mem h]
  cases kind <;> rfl

theorem happens_abandon {request : Nat} {w : Waiter} (hw : l.waiter? request = some w) :
    Happens l (l.abandon request).1 (some (.withdrawn w.place)) := by
  obtain ⟨hmem, rfl⟩ := waiter?_eq_some hw
  have hplaces := places_dropWaiter (l := l) w.request
  simp only [abandon, hw]
  split
  · refine .withdrawn hmem ?_ rfl
    rw [places_notifyAll]
    exact hplaces
  · next hnot => exact .withdrawn hmem hplaces (withdraw_of_not_mem hnot).symm

end TableLock

namespace TableScene

variable {s : TableScene}

/-! ### Events -/

/-- What a move does to the queues. -/
def event? (s : TableScene) : TableMove → Option TableEvent
  | .request kind session =>
    if s.lock.state.closed then none else some (.joined ⟨s.next, kind, session, false⟩)
  | .close _ => none
  | .join => s.closer.map fun c => .joined ⟨c.1, .write, c.2, true⟩
  | .recheck request =>
    match s.lock.waiter? request, (s.lock.recheck request).2 with
    | some w, some .granted => some (.admitted w.place)
    | some w, some .refused => some (.withdrawn w.place)
    | _, _ => none
  | .abandon request => (s.lock.waiter? request).map fun w => .withdrawn w.place
  | .release kind session =>
    if (s.lock.release kind session).2 then some (.released kind session) else none
  | .cancel session => if (s.lock.cancel session).2 then some (.cancelled session) else none

/-- The events of a run. -/
def history (s : TableScene) : List TableMove → List TableEvent
  | [] => []
  | m :: moves => (s.event? m).toList ++ (s.move m).history moves

theorem history_append (s : TableScene) (moves more : List TableMove) :
    s.history (moves ++ more) = s.history moves ++ (s.run moves).history more := by
  induction moves generalizing s with
  | nil => rfl
  | cons m moves ih => rw [List.cons_append, history, history, ih, List.append_assoc, run_cons]

/-- Where an event of a run comes from. -/
theorem exists_of_history_eq {moves : List TableMove} {before after : List TableEvent}
    {e : TableEvent} (h : s.history moves = before ++ e :: after) :
    ∃ earlier m later, moves = earlier ++ m :: later ∧ s.history earlier = before ∧
      (s.run earlier).event? m = some e := by
  induction moves generalizing s before with
  | nil => exact absurd h (by simp [history])
  | cons m moves ih =>
    rw [history] at h
    cases hevent : s.event? m with
    | none =>
      rw [hevent] at h
      obtain ⟨earlier, m', later, rfl, hbefore, he⟩ := ih h
      exact ⟨m :: earlier, m', later, rfl, by rw [history, hevent]; exact hbefore, he⟩
    | some e' =>
      rw [hevent, Option.toList_some, List.singleton_append] at h
      cases before with
      | nil => exact ⟨[], m, moves, rfl, rfl, (List.cons.inj h).1 ▸ hevent⟩
      | cons b before =>
        obtain ⟨heq, htail⟩ := List.cons.inj h
        obtain ⟨earlier, m', later, rfl, hbefore, he⟩ := ih htail
        rw [heq] at hevent
        exact ⟨m :: earlier, m', later, rfl, by rw [history, hevent, hbefore]; rfl, he⟩

theorem happens_recheck (s : TableScene) (request : Nat) :
    s.lock.Happens (s.lock.recheck request).1 (s.event? (.recheck request)) := by
  cases hw : s.lock.waiter? request with
  | none =>
    have hl : s.lock.recheck request = (s.lock, none) := by simp [TableLock.recheck, hw]
    simp only [event?, hw, hl]
    exact .refl _
  | some w =>
    obtain ⟨hmem, hreq⟩ := TableLock.waiter?_eq_some hw
    have hplaces := TableLock.places_dropWaiter (l := s.lock) request
    rw [← hreq] at hplaces
    rw [event?, hw]
    by_cases hc : (s.lock.state.closed && !w.closing) = true
    · simp only [TableLock.recheck, hw, hc, if_true]
      refine .withdrawn hmem ?_ rfl
      rw [TableLock.places_notifyAll, ← hreq]
      exact hplaces
    · cases ha : s.lock.state.admit? w.kind w.session with
      | none =>
        simp only [TableLock.recheck, hw, hc, ha, if_false, Bool.false_eq_true]
        exact .still (TableLock.places_sleep request) (fun _ => rfl) fun _ => rfl
      | some st =>
        simp only [TableLock.recheck, hw, hc, ha, if_false, Bool.false_eq_true]
        refine .admitted hmem ?_ ha
        rw [TableLock.places_notifyAll, ← hreq]
        exact hplaces

/-- Every move does to the lock what its event says. -/
theorem happens_move (s : TableScene) (m : TableMove) :
    s.lock.Happens (s.move m).lock (s.event? m) := by
  cases m with
  | request kind session =>
    rw [move, event?, TableLock.request?]
    split
    · exact .refl _
    · exact .joined (TableLock.places_enqueue ..) rfl
  | close session =>
    rw [move, event?, TableLock.beginClose?]
    split
    · exact .refl _
    · next l h =>
      simp only [Option.ite_none_left_eq_some, Option.some.injEq] at h
      rw [← h.2]
      exact .still TableLock.places_notifyAll (fun k => by cases k <;> rfl)
        fun k => by cases k <;> rfl
  | join =>
    rw [move, event?]
    cases s.closer with
    | none => exact .refl _
    | some c => exact .joined (TableLock.places_enqueue ..) rfl
  | recheck request => exact happens_recheck s request
  | abandon request =>
    rw [move, event?]
    cases hw : s.lock.waiter? request with
    | none =>
      simp only [TableLock.abandon, hw]
      exact .refl _
    | some w => exact TableLock.happens_abandon hw
  | release kind session =>
    rw [move, event?, TableLock.release]
    split
    · next st h => exact .released TableLock.places_notifyAll h
    · exact .refl _
  | cancel session =>
    rw [move, event?, TableLock.cancel]
    split
    · next st h => exact .cancelled TableLock.places_notifyAll h
    · exact .refl _

/-- What is true at first and kept by every move, of a state and the history that leads to it, is
true after every run. -/
theorem history_induction {P : TableScene → List TableEvent → Prop} {s : TableScene}
    (first : P s []) {moves : List TableMove}
    (keep : ∀ before m after, moves = before ++ m :: after →
      P (s.run before) (s.history before) →
      P (s.run (before ++ [m])) (s.history before ++ ((s.run before).event? m).toList)) :
    P (s.run moves) (s.history moves) := by
  induction moves using List.reverseRecOn with
  | nil => exact first
  | append_singleton moves m ih =>
    have hmoves : P (s.run moves) (s.history moves) := by
      refine ih fun before m' after hsplit h => keep before m' (after ++ [m]) ?_ h
      rw [hsplit, List.append_assoc, List.cons_append]
    have hlast := keep moves m [] rfl hmoves
    rwa [history_append, history, history, List.append_nil]

/-! ### The requests that wait -/

/-- What a history says about the scene after it. -/
structure Recorded (s : TableScene) (history : List TableEvent) : Prop where
  /-- No two requests join under one number. -/
  nodup : ((history.filterMap TableEvent.joined?).map Place.request).Nodup
  /-- The next call has a new number, and so does the call that is about to join. -/
  fresh : ∀ x ∈ history.filterMap TableEvent.joined?,
    x.request < s.next ∧ ∀ c ∈ s.closer, x.request ≠ c.1
  closer : ∀ c ∈ s.closer, c.1 < s.next
  ended : ∀ x ∈ history.filterMap TableEvent.ended?, x ∈ history.filterMap TableEvent.joined?
  places : s.lock.places = TableEvent.waiting history

/-- The numbers under which requests join. -/
theorem joined_fresh {m : TableMove} {x : Place} (h : s.event? m = some (.joined x)) :
    (x.request = s.next ∧ (s.move m).next = s.next + 1 ∧ (s.move m).closer = s.closer) ∨
      ∃ c ∈ s.closer, x.request = c.1 ∧ (s.move m).next = s.next ∧ (s.move m).closer = none := by
  cases m with
  | request kind session =>
    simp only [event?, Option.ite_none_left_eq_some, Option.some.injEq,
      TableEvent.joined.injEq] at h
    exact .inl ⟨h.2 ▸ rfl, rfl, rfl⟩
  | join =>
    cases hc : s.closer with
    | none => simp [event?, hc] at h
    | some c =>
      simp only [event?, hc, Option.map_some, Option.some.injEq, TableEvent.joined.injEq] at h
      exact .inr ⟨c, rfl, h ▸ rfl, by rw [move, hc], by rw [move, hc]⟩
  | recheck request =>
    rw [event?] at h
    split at h <;> simp at h
  | close | abandon | release | cancel => simp [event?] at h

/-- No number is given away twice. -/
theorem next_move (s : TableScene) (m : TableMove) :
    s.next ≤ (s.move m).next ∧ ∀ c ∈ (s.move m).closer,
      c ∈ s.closer ∨ c.1 = s.next ∧ s.next < (s.move m).next := by
  cases m with
  | close session =>
    rw [move]
    cases s.lock.beginClose? with
    | none => exact ⟨Nat.le_succ _, fun c hc => .inl hc⟩
    | some l =>
      refine ⟨Nat.le_succ _, fun c hc => .inr ?_⟩
      obtain rfl := Option.some.inj hc
      exact ⟨rfl, Nat.lt_succ_self _⟩
  | join =>
    rw [move]
    cases hc : s.closer with
    | none => exact ⟨Nat.le_refl _, fun c h => .inl (hc ▸ h)⟩
    | some c => exact ⟨Nat.le_refl _, fun d hd => absurd hd (Option.not_mem_none d)⟩
  | request => exact ⟨Nat.le_succ _, fun c hc => .inl hc⟩
  | recheck | abandon | release | cancel => exact ⟨Nat.le_refl _, fun c hc => .inl hc⟩

theorem recorded_new (name : String) : (new name).Recorded [] where
  nodup := List.nodup_nil
  fresh := nofun
  closer := nofun
  ended := nofun
  places := rfl

variable {history : List TableEvent}

/-- No two requests wait under one number. -/
theorem Recorded.nodup_places (h : s.Recorded history) :
    (s.lock.places.map Place.request).Nodup := by
  rw [h.places]
  exact h.nodup.sublist (List.filter_sublist.map _)

/-- A waiting request is told by its number. -/
theorem Recorded.eq_of_request (h : s.Recorded history) {x y : Place} (hx : x ∈ s.lock.places)
    (hy : y ∈ s.lock.places) (hreq : x.request = y.request) : x = y :=
  List.inj_on_of_nodup_map h.nodup_places hx hy hreq

/-- A move in which no request joins leaves the numbers as they are. -/
theorem Recorded.of_not_joined (h : s.Recorded history) {m : TableMove} {events : List TableEvent}
    (hj : events.filterMap TableEvent.joined? = [])
    (he : ∀ x ∈ events.filterMap TableEvent.ended?, x ∈ s.lock.places)
    (hplaces : (s.move m).lock.places = TableEvent.waiting (history ++ events)) :
    (s.move m).Recorded (history ++ events) := by
  obtain ⟨hnext, hcloser⟩ := next_move s m
  have hsame : (history ++ events).filterMap TableEvent.joined? =
      history.filterMap TableEvent.joined? := by
    rw [List.filterMap_append, hj, List.append_nil]
  refine ⟨hsame.symm ▸ h.nodup, fun x hx => ?_, fun c hc => ?_, fun x hx => ?_, hplaces⟩
  · rw [hsame] at hx
    obtain ⟨hlt, hne⟩ := h.fresh x hx
    refine ⟨Nat.lt_of_lt_of_le hlt hnext, fun c hc => ?_⟩
    rcases hcloser c hc with hc | ⟨heq, -⟩
    · exact hne c hc
    · exact heq ▸ Nat.ne_of_lt hlt
  · rcases hcloser c hc with hc | ⟨heq, hlt⟩
    · exact Nat.lt_of_lt_of_le (h.closer c hc) hnext
    · exact heq ▸ hlt
  · rw [hsame]
    rw [List.filterMap_append] at hx
    rcases List.mem_append.mp hx with hx | hx
    · exact h.ended x hx
    · have hx' := h.places ▸ he x hx
      exact (List.mem_filter.mp hx').1

/-- A request joins under a new number. -/
theorem Recorded.joined (h : s.Recorded history) {m : TableMove} {x : Place}
    (hevent : s.event? m = some (.joined x))
    (hplaces : (s.move m).lock.places = s.lock.places ++ [x]) :
    (s.move m).Recorded (history ++ [.joined x]) := by
  have hjoined : (history ++ [TableEvent.joined x]).filterMap TableEvent.joined? =
      history.filterMap TableEvent.joined? ++ [x] := by simp [TableEvent.joined?]
  have hended : (history ++ [TableEvent.joined x]).filterMap TableEvent.ended? =
      history.filterMap TableEvent.ended? := by simp [TableEvent.ended?]
  have hnew : ∀ y ∈ history.filterMap TableEvent.joined?, y.request ≠ x.request := by
    intro y hy
    obtain ⟨hlt, hne⟩ := h.fresh y hy
    obtain ⟨hreq, -⟩ | ⟨c, hc, hreq, -⟩ := joined_fresh hevent
    · exact hreq ▸ Nat.ne_of_lt hlt
    · exact hreq ▸ hne c hc
  refine ⟨?_, fun y hy => ?_, fun c hc => ?_, fun y hy => ?_, ?_⟩
  · rw [hjoined, List.map_append]
    refine List.concat_eq_append ▸ h.nodup.concat fun hmem => ?_
    obtain ⟨y, hy, hreq⟩ := List.mem_map.mp hmem
    exact hnew y hy hreq
  · rw [hjoined] at hy
    obtain ⟨hreq, hnext, hcloser⟩ | ⟨c, hc, hreq, hnext, hcloser⟩ := joined_fresh hevent
    · rw [hnext, hcloser]
      rcases List.mem_append.mp hy with hy | hy
      · exact ⟨Nat.lt_succ_of_lt (h.fresh y hy).1, (h.fresh y hy).2⟩
      · rw [List.mem_singleton.mp hy, hreq]
        exact ⟨Nat.lt_succ_self _, fun c hc => (Nat.ne_of_lt (h.closer c hc)).symm⟩
    · rw [hnext, hcloser]
      refine ⟨?_, nofun⟩
      rcases List.mem_append.mp hy with hy | hy
      · exact (h.fresh y hy).1
      · rw [List.mem_singleton.mp hy, hreq]
        exact h.closer c hc
  · obtain ⟨hnext, hcloser⟩ := next_move s m
    rcases hcloser c hc with hc | ⟨heq, hlt⟩
    · exact Nat.lt_of_lt_of_le (h.closer c hc) hnext
    · exact heq ▸ hlt
  · rw [hjoined]
    exact List.mem_append_left _ (h.ended y (hended ▸ hy))
  · rw [hplaces, h.places, TableEvent.waiting_joined fun hmem => hnew x (h.ended x hmem) rfl]

/-- A request whose wait ends is the only one that waits no longer. -/
theorem Recorded.of_ended (h : s.Recorded history) {m : TableMove} {e : TableEvent} {x : Place}
    (hj : e.joined? = none) (he : e.ended? = some x) (mem : x ∈ s.lock.places)
    (hplaces : (s.move m).lock.places = s.lock.places.filter fun y => y.request != x.request) :
    (s.move m).Recorded (history ++ [e]) := by
  refine h.of_not_joined (by simp [hj]) (by simpa [he] using mem) ?_
  rw [hplaces, TableEvent.waiting_ended hj he, ← h.places]
  refine List.filter_congr fun y hy => ?_
  by_cases hyx : y = x
  · simp [hyx]
  · simpa [hyx] using fun hreq => hyx (h.eq_of_request hy mem hreq)

/-- Every move keeps the record. -/
theorem Recorded.move (h : s.Recorded history) (m : TableMove) :
    (s.move m).Recorded (history ++ (s.event? m).toList) := by
  have hmove := happens_move s m
  cases hevent : s.event? m with
  | none =>
    rw [hevent] at hmove
    cases hmove with
    | still places =>
      exact h.of_not_joined rfl nofun
        (by rw [places, h.places, Option.toList_none, List.append_nil])
  | some e =>
    rw [hevent] at hmove
    rw [Option.toList_some]
    cases hmove with
    | joined places => exact h.joined hevent places
    | admitted mem places => exact h.of_ended rfl rfl mem places
    | withdrawn mem places => exact h.of_ended rfl rfl mem places
    | released places =>
      exact h.of_not_joined rfl nofun (by rw [places, h.places, TableEvent.waiting_of_none rfl rfl])
    | cancelled places =>
      exact h.of_not_joined rfl nofun (by rw [places, h.places, TableEvent.waiting_of_none rfl rfl])

/-- The record is right after every run. -/
theorem recorded_run (name : String) (moves : List TableMove) :
    ((new name).run moves).Recorded ((new name).history moves) := by
  refine history_induction (recorded_new name) fun before m after _ h => ?_
  rw [run_append]
  exact h.move m

end TableScene

end SqlTree
