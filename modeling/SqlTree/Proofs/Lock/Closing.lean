import SqlTree.Proofs.Lock.Places

/-!
# A closed table stays closed

A table is closed in two steps: one sets the flag, the next joins the queue to write. Between the
two, and while the closing request waits, every other call goes on making its steps. From the first
step on, though, only the closing request can still be admitted: requests that begin are refused at
once and those that wait are refused at their next check, the ones ahead of the closing request
included. So there is one admission at most after a table has been closed, and when it comes the
closing session is alone.

The proof follows the call that has closed the table: it is about to join the queue, or has the one
place whose request closes, or has neither any more.

## Main definitions

* `TableScene.admitted`: the requests that a run admits, in the order of their admissions.
* `TableScene.OpenUp`: as long as the table is open, no call is closing it.
* `TableScene.ClosedBy`, `TableScene.ClosedUp`: where the call that has closed the table can be.
* `TableScene.Final`: what is true from the moment on at which a call has closed the table.

## Main results

* `TableScene.ClosedBy.admitted`: what is admitted after a table has been closed.
* `TableScene.closed_for_good`: whatever happens after a table has been closed.
-/

namespace SqlTree

/-- A session that is admitted to write is alone. -/
theorem LockState.alone_of_admitted_write {st st' : LockState} {session : Session}
    (h : st.admit? .write session = some st') : st'.reading = [] ∧ st'.writing = [session] := by
  simp only [admit?, enabled, writeEnabled, Option.ite_none_right_eq_some, Option.some.injEq,
    Bool.and_eq_true, List.isEmpty_iff] at h
  obtain ⟨⟨⟨hr, hw⟩, -⟩, rfl⟩ := h
  exact ⟨hr, by simp [setActive, active, hw]⟩

namespace TableScene

variable {s : TableScene}

/-! ### Admissions along a run -/

/-- The request that a move admits. -/
def admits? (s : TableScene) : TableMove → Option Waiter
  | .recheck request =>
    if (s.lock.recheck request).2 = some .granted then s.lock.waiter? request else none
  | _ => none

/-- The requests that a run admits, in the order of their admissions. -/
def admitted (s : TableScene) : List TableMove → List Waiter
  | [] => []
  | m :: moves => (s.admits? m).toList ++ (s.move m).admitted moves

theorem admitted_append (s : TableScene) (moves more : List TableMove) :
    s.admitted (moves ++ more) = s.admitted moves ++ (s.run moves).admitted more := by
  induction moves generalizing s with
  | nil => rfl
  | cons m moves ih => rw [List.cons_append, admitted, admitted, ih, List.append_assoc, run_cons]

theorem admits?_eq_some {m : TableMove} {w : Waiter} (h : s.admits? m = some w) :
    m = .recheck w.request ∧ (s.lock.recheck w.request).2 = some .granted ∧
      s.lock.waiter? w.request = some w := by
  cases m with
  | recheck request =>
    simp only [admits?, Option.ite_none_right_eq_some] at h
    obtain rfl := (TableLock.waiter?_eq_some h.2).2
    exact ⟨rfl, h.1, h.2⟩
  | _ => exact absurd h nofun

/-! ### What a move does to a closed table -/

theorem follows_move (s : TableScene) (m : TableMove) : s.lock.Follows (s.move m).lock := by
  cases m with
  | request kind session =>
    rw [move]
    cases hr : s.lock.request? s.next kind session with
    | none => exact .refl _
    | some l => exact TableLock.follows_request hr
  | close session =>
    rw [move]
    cases hc : s.lock.beginClose? with
    | none => exact .refl _
    | some l => exact TableLock.follows_beginClose hc
  | join =>
    rw [move]
    cases hc : s.closer with
    | none => exact .refl _
    | some c => exact TableLock.follows_enqueue ..
  | recheck request => exact TableLock.follows_recheck ..
  | abandon request => exact TableLock.follows_abandon ..
  | release kind session => exact TableLock.follows_release ..
  | cancel session => exact TableLock.follows_cancel ..

theorem closed_run (h : s.lock.state.closed = true) (moves : List TableMove) :
    (s.run moves).lock.state.closed = true :=
  run_induction (P := fun s => s.lock.state.closed = true) (fun s m => (follows_move s m).closed)
    s h moves

/-- Every call that begins on a closed table is refused at once. -/
theorem refused_of_closed (h : s.lock.state.closed = true) :
    (∀ request kind session, s.lock.request? request kind session = none) ∧
      s.lock.beginClose? = none := by
  simp [TableLock.request?, TableLock.beginClose?, h]

/-- A check leaves the other requests in their places. -/
theorem mem_places_recheck {l : TableLock} {request : Nat} {x : Place}
    (h : x ∈ (l.recheck request).1.places) : x ∈ l.places := by
  obtain ⟨-, -, hpl⟩ | ⟨-, -, -, hpl, -⟩ := l.recheck_cases request
  · rwa [hpl] at h
  · exact ((hpl x).mp h).1

/-- Where the places after a move come from: they are old ones, or that of a request which begins on
an open table, or that of the call which has closed the table and joins. -/
theorem mem_places_move {m : TableMove} {x : Place} (hx : x ∈ (s.move m).lock.places) :
    x ∈ s.lock.places ∨ (s.lock.state.closed = false ∧ x.closing = false) ∨
      ∃ c, s.closer = some c ∧ m = .join ∧ x = ⟨c.1, .write, c.2, true⟩ := by
  cases m with
  | request kind session =>
    rw [move] at hx
    cases hr : s.lock.request? s.next kind session with
    | none =>
      rw [hr] at hx
      exact .inl hx
    | some l =>
      rw [hr] at hx
      simp only [TableLock.request?, Option.ite_none_left_eq_some, Option.some.injEq] at hr
      rw [Option.getD_some, ← hr.2, TableLock.places_enqueue] at hx
      refine (List.mem_append.mp hx).imp_right fun hx => .inl ⟨Bool.eq_false_iff.mpr hr.1, ?_⟩
      rw [List.mem_singleton.mp hx]
  | close session =>
    rw [move] at hx
    cases hc : s.lock.beginClose? with
    | none =>
      rw [hc] at hx
      exact .inl hx
    | some l =>
      rw [hc] at hx
      simp only [TableLock.beginClose?, Option.ite_none_left_eq_some, Option.some.injEq] at hc
      rw [← hc.2, TableLock.places_notifyAll] at hx
      exact .inl hx
  | join =>
    rw [move] at hx
    cases hj : s.closer with
    | none =>
      rw [hj] at hx
      exact .inl hx
    | some c =>
      rw [hj] at hx
      simp only [TableLock.requestClose, TableLock.places_enqueue, List.mem_append,
        List.mem_singleton] at hx
      exact hx.imp_right fun hx => .inr ⟨c, rfl, rfl, hx⟩
  | recheck request => exact .inl (mem_places_recheck hx)
  | abandon request => exact .inl (TableLock.mem_places_abandon hx).1
  | release kind session => exact .inl (TableLock.places_release s.lock kind session ▸ hx)
  | cancel session => exact .inl (TableLock.places_cancel s.lock session ▸ hx)

/-- Which call has closed the table and is about to join, after a move: none, or the one before, or
a call that has just closed it. -/
theorem closer_move (s : TableScene) (m : TableMove) :
    (s.move m).closer = none ∨ (m ≠ .join ∧ (s.move m).closer = s.closer) ∨
      s.lock.state.closed = false ∧ ∃ session, m = .close session := by
  cases m with
  | close session =>
    rw [move]
    cases hc : s.lock.beginClose? with
    | none => exact .inr (.inl ⟨by simp, rfl⟩)
    | some l =>
      simp only [TableLock.beginClose?, Option.ite_none_left_eq_some] at hc
      exact .inr (.inr ⟨Bool.eq_false_iff.mpr hc.1, session, rfl⟩)
  | join =>
    rw [move]
    cases hj : s.closer with
    | none => exact .inl hj
    | some c => exact .inl rfl
  | _ => exact .inr (.inl ⟨by simp, rfl⟩)

/-- On a closed table no call but the one that has closed it is about to join. -/
theorem closer_move_of_closed (h : s.lock.state.closed = true) (m : TableMove) :
    (s.move m).closer = none ∨ m ≠ .join ∧ (s.move m).closer = s.closer := by
  obtain hn | hn | ⟨ho, -⟩ := closer_move s m
  · exact .inl hn
  · exact .inr hn
  · exact absurd (ho.symm.trans h) Bool.false_ne_true

/-! ### The call that has closed the table -/

/-- The table is closed, and the call that has closed it has ended or gone. -/
structure ClosedUp (s : TableScene) : Prop where
  closed : s.lock.state.closed = true
  closer : s.closer = none
  places : ∀ x ∈ s.lock.places, x.closing = false

/-- The table has been closed by the call `request` of `session`, which is about to join the queue,
or has a place in it, or has ended or gone. -/
structure ClosedBy (request : Nat) (session : Session) (s : TableScene) : Prop where
  closed : s.lock.state.closed = true
  closer : ∀ c, s.closer = some c → c = (request, session) ∧ ∀ x ∈ s.lock.places, x.closing = false
  places : ∀ x ∈ s.lock.places, x.closing = true → x = ⟨request, .write, session, true⟩

theorem ClosedUp.move (h : s.ClosedUp) (m : TableMove) : (s.move m).ClosedUp where
  closed := (follows_move s m).closed h.closed
  closer := by
    obtain hn | ⟨-, hn⟩ := closer_move_of_closed h.closed m
    · exact hn
    · rw [hn, h.closer]
  places := by
    intro x hx
    obtain hx | ⟨-, hx⟩ | ⟨c, hj, -⟩ := mem_places_move hx
    · exact h.places x hx
    · exact hx
    · rw [h.closer] at hj
      exact absurd hj nofun

/-- A request that is admitted to a closed table is the one that closes it. -/
theorem closing_of_admits {m : TableMove} {w : Waiter} (hc : s.lock.state.closed = true)
    (h : s.admits? m = some w) : w.closing = true ∧ w.place ∈ s.lock.places := by
  obtain ⟨-, hg, hw⟩ := admits?_eq_some h
  refine ⟨?_, (TableLock.waiter?_eq_some hw).1⟩
  cases hcl : w.closing with
  | true => rfl
  | false => simp [TableLock.recheck, hw, hc, hcl] at hg

theorem ClosedUp.admitted (h : s.ClosedUp) (moves : List TableMove) : s.admitted moves = [] := by
  induction moves generalizing s with
  | nil => rfl
  | cons m moves ih =>
    have hnone : s.admits? m = none := by
      rw [Option.eq_none_iff_forall_ne_some]
      intro w hw
      obtain ⟨hcl, hmem⟩ := closing_of_admits h.closed hw
      exact Bool.false_ne_true ((h.places _ hmem).symm.trans hcl)
    rw [TableScene.admitted, hnone, ih (h.move m)]
    rfl

variable {request : Nat} {session : Session}

theorem ClosedBy.move (h : s.ClosedBy request session) (m : TableMove) :
    (s.move m).ClosedBy request session where
  closed := (follows_move s m).closed h.closed
  closer := by
    intro c hc
    obtain hn | ⟨hm, hn⟩ := closer_move_of_closed h.closed m
    · rw [hn] at hc
      exact absurd hc nofun
    · rw [hn] at hc
      refine ⟨(h.closer c hc).1, fun x hx => ?_⟩
      obtain hx | ⟨-, hx⟩ | ⟨-, -, hj, -⟩ := mem_places_move hx
      · exact (h.closer c hc).2 x hx
      · exact hx
      · exact absurd hj hm
  places := by
    intro x hx hcl
    obtain hx | ⟨-, hx⟩ | ⟨c, hc, -, rfl⟩ := mem_places_move hx
    · exact h.places x hx hcl
    · exact absurd (hx.symm.trans hcl) Bool.false_ne_true
    · rw [(h.closer c hc).1]

/-- What is admitted to a closed table is the request of the call that has closed it, and then that
call has ended. -/
theorem ClosedBy.admits (h : s.ClosedBy request session) {m : TableMove} {w : Waiter}
    (hw : s.admits? m = some w) :
    w.place = ⟨request, .write, session, true⟩ ∧ (s.move m).ClosedUp := by
  obtain ⟨hcl, hmem⟩ := closing_of_admits h.closed hw
  have hplace := h.places _ hmem hcl
  have hnone : s.closer = none := by
    rw [Option.eq_none_iff_forall_ne_some]
    intro c hc
    exact Bool.false_ne_true (((h.closer c hc).2 _ hmem).symm.trans hcl)
  refine ⟨hplace, (h.move m).closed, ?_, fun x hx => ?_⟩
  · obtain hn | ⟨-, hn⟩ := closer_move_of_closed h.closed m
    · exact hn
    · rw [hn, hnone]
  · obtain ⟨rfl, hg, -⟩ := admits?_eq_some hw
    obtain ⟨hv, -⟩ | ⟨-, -, -, hpl, -⟩ := s.lock.recheck_cases w.request
    · rw [hv] at hg
      exact absurd hg nofun
    · obtain ⟨hx, hne⟩ := (hpl x).mp hx
      -- The closing request had the only closing place, and it has left that.
      refine Bool.eq_false_iff.mpr fun hxc => hne ?_
      rw [h.places x hx hxc]
      exact (congrArg Place.request hplace).symm

/-- After a table has been closed nothing is admitted, or once the request that closes it. -/
theorem ClosedBy.admitted (h : s.ClosedBy request session) (moves : List TableMove) :
    s.admitted moves = [] ∨
      ∃ w : Waiter, w.place = ⟨request, .write, session, true⟩ ∧ s.admitted moves = [w] := by
  induction moves generalizing s with
  | nil => exact .inl rfl
  | cons m moves ih =>
    rw [TableScene.admitted]
    cases hw : s.admits? m with
    | none => exact ih (h.move m)
    | some w =>
      obtain ⟨hplace, hup⟩ := h.admits hw
      exact .inr ⟨w, hplace, by rw [hup.admitted moves]; rfl⟩

/-- The only state that a check can admit a request to when the table has been closed. -/
theorem ClosedBy.recheck (h : s.ClosedBy request session) {r : Nat}
    (hg : (s.lock.recheck r).2 = some .granted) :
    r = request ∧ (s.lock.recheck r).1.state.reading = [] ∧
      (s.lock.recheck r).1.state.writing = [session] := by
  obtain ⟨hv, -⟩ | ⟨w, hmem, hr, -, ⟨hv, -⟩ | ⟨-, hcl, hadm⟩⟩ := s.lock.recheck_cases r
  · rw [hv] at hg
    exact absurd hg nofun
  · rw [hv] at hg
    exact absurd hg nofun
  · have hplace := h.places _ hmem (hcl h.closed)
    simp only [Waiter.place, Place.mk.injEq] at hplace
    rw [hplace.2.1, hplace.2.2.1] at hadm
    exact ⟨hr.symm.trans hplace.1, LockState.alone_of_admitted_write hadm⟩

/-! ### Before a table is closed -/

/-- As long as the table is open, no call is closing it. -/
def OpenUp (s : TableScene) : Prop :=
  s.lock.state.closed = false → s.closer = none ∧ ∀ x ∈ s.lock.places, x.closing = false

/-- Only a call that closes the table closes it. -/
theorem closed_move {m : TableMove} (hm : ∀ session, m ≠ .close session) :
    (s.move m).lock.state.closed = s.lock.state.closed := by
  cases m with
  | request kind session =>
    rw [TableScene.move]
    cases hr : s.lock.request? s.next kind session with
    | none => rfl
    | some l =>
      simp only [TableLock.request?, Option.ite_none_left_eq_some, Option.some.injEq] at hr
      rw [Option.getD_some, ← hr.2]
      exact TableLock.closed_setPending ..
  | close session => exact absurd rfl (hm session)
  | join =>
    rw [TableScene.move]
    cases s.closer with
    | none => rfl
    | some c => exact TableLock.closed_setPending ..
  | recheck r =>
    obtain ⟨-, hst, -⟩ | ⟨w, -, -, -, ⟨-, -, -, hst⟩ | ⟨-, -, hst⟩⟩ := s.lock.recheck_cases r
    · exact congrArg LockState.closed hst
    · exact (congrArg LockState.closed hst).trans (TableLock.closed_setPending ..)
    · exact TableLock.closed_of_admitted hst
  | abandon r =>
    rw [TableScene.move, TableLock.abandon]
    split
    · rfl
    · dsimp only
      split
      · exact TableLock.closed_setPending ..
      · rfl
  | release kind session =>
    rw [TableScene.move, TableLock.release]
    split
    · next hr => exact TableLock.closed_release hr
    · rfl
  | cancel session =>
    rw [TableScene.move, TableLock.cancel]
    split
    · next hc => exact TableLock.closed_cancel hc
    · rfl

/-- A table that is closed after a run has been closed by one of its calls, and was open before. -/
theorem exists_close (hopen : s.lock.state.closed = false) {moves : List TableMove}
    (h : (s.run moves).lock.state.closed = true) :
    ∃ before session after, moves = before ++ .close session :: after ∧
      (s.run before).lock.state.closed = false := by
  induction moves generalizing s with
  | nil => exact absurd (hopen.symm.trans h) Bool.false_ne_true
  | cons m moves ih =>
    cases hc : (s.move m).lock.state.closed with
    | false =>
      obtain ⟨before, session, after, rfl, hb⟩ := ih hc h
      exact ⟨m :: before, session, after, rfl, hb⟩
    | true =>
      cases m with
      | close session => exact ⟨[], session, moves, rfl, hopen⟩
      | _ =>
        have hstill := (closed_move (by rintro _ ⟨⟩)).symm.trans hc
        exact absurd (hopen.symm.trans hstill) Bool.false_ne_true

theorem closed_close (s : TableScene) (session : Session) :
    (s.move (.close session)).lock.state.closed = true := by
  rw [TableScene.move, TableLock.beginClose?]
  cases hc : s.lock.state.closed with
  | true => exact hc
  | false => rfl

theorem OpenUp.move (h : s.OpenUp) (m : TableMove) : (s.move m).OpenUp := by
  intro ho
  have hs : s.lock.state.closed = false := by
    cases hc : s.lock.state.closed with
    | false => rfl
    | true => exact absurd (((follows_move s m).closed hc).symm.trans ho) nofun
  obtain ⟨hcloser, hplaces⟩ := h hs
  refine ⟨?_, fun x hx => ?_⟩
  · obtain hn | ⟨-, hn⟩ | ⟨-, session, rfl⟩ := closer_move s m
    · exact hn
    · rw [hn, hcloser]
    · exact absurd ((closed_close s session).symm.trans ho) nofun
  · obtain hx | ⟨-, hx⟩ | ⟨c, hc, -⟩ := mem_places_move hx
    · exact hplaces x hx
    · exact hx
    · rw [hcloser] at hc
      exact absurd hc nofun

theorem openUp_run (name : String) (moves : List TableMove) : ((new name).run moves).OpenUp :=
  run_induction (P := OpenUp) (fun _ m h => h.move m) (new name)
    (fun _ => ⟨rfl, fun _ hx => absurd hx List.not_mem_nil⟩) moves

/-- Before a table is closed no call that closes it is admitted. -/
theorem OpenUp.admitted (h : s.OpenUp) {moves : List TableMove}
    (ho : (s.run moves).lock.state.closed = false) : ∀ w ∈ s.admitted moves, w.closing = false := by
  induction moves generalizing s with
  | nil => exact fun w hw => absurd hw List.not_mem_nil
  | cons m moves ih =>
    intro w hw
    rcases List.mem_append.mp hw with hw | hw
    · have hs : s.lock.state.closed = false := by
        cases hc : s.lock.state.closed with
        | false => rfl
        | true => exact absurd ((closed_run hc (m :: moves)).symm.trans ho) nofun
      obtain ⟨-, -, hwaiter⟩ := admits?_eq_some (Option.mem_toList.mp hw)
      exact (h hs).2 w.place (TableLock.waiter?_eq_some hwaiter).1
    · exact ih (h.move m) ho w hw

/-- The call that closes a table that was open is the one that has closed it. -/
theorem OpenUp.close (h : s.OpenUp) (ho : s.lock.state.closed = false) (session : Session) :
    (s.move (.close session)).ClosedBy s.next session := by
  obtain ⟨-, hplaces⟩ := h ho
  have hold : ∀ x ∈ (s.move (.close session)).lock.places, x.closing = false := by
    intro x hx
    obtain hx | ⟨-, hx⟩ | ⟨-, -, hm, -⟩ := mem_places_move hx
    · exact hplaces x hx
    · exact hx
    · exact absurd hm nofun
  refine ⟨closed_close s session, fun c hc => ⟨?_, hold⟩, fun x hx hcl => ?_⟩
  · simp only [TableScene.move, TableLock.beginClose?, ho, Bool.false_eq_true, if_false,
      Option.some.injEq] at hc
    exact hc.symm
  · exact absurd ((hold x hx).symm.trans hcl) Bool.false_ne_true

/-! ### Every run that closes a table -/

theorem ClosedBy.run {request : Nat} {session : Session} (h : s.ClosedBy request session)
    (moves : List TableMove) : (s.run moves).ClosedBy request session :=
  run_induction (P := fun s => s.ClosedBy request session) (fun _ m h => h.move m) s h moves

/-- What is true of a scene `s` in which the call `closer` of `session` has just closed the table,
whatever moves are made later. -/
structure Final (closer : Nat) (session : Session) (s : TableScene) (later : List TableMove) :
    Prop where
  closed : (s.run later).lock.state.closed = true
  /-- Every call that begins is refused at once. -/
  refused : (∀ request kind other, (s.run later).lock.request? request kind other = none) ∧
    (s.run later).lock.beginClose? = none
  /-- Nothing is admitted but the request of the call that has closed the table. -/
  admitted : ∀ w ∈ s.admitted later, w.place = ⟨closer, .write, session, true⟩
  once : (s.admitted later).length ≤ 1
  /-- When that is admitted its session is alone. -/
  alone : ∀ request, ((s.run later).lock.recheck request).2 = some .granted →
    request = closer ∧ ((s.run later).lock.recheck request).1.state.reading = [] ∧
      ((s.run later).lock.recheck request).1.state.writing = [session]

theorem ClosedBy.final {closer : Nat} {session : Session} (h : s.ClosedBy closer session)
    (later : List TableMove) : s.Final closer session later where
  closed := (h.run later).closed
  refused := refused_of_closed (h.run later).closed
  admitted := by
    intro w hw
    obtain hnil | ⟨w', hplace, hw'⟩ := h.admitted later
    · rw [hnil] at hw
      exact absurd hw List.not_mem_nil
    · rw [hw'] at hw
      rw [List.mem_singleton.mp hw, hplace]
  once := by
    obtain hnil | ⟨w, -, hw⟩ := h.admitted later
    · simp [hnil]
    · simp [hw]
  alone := fun _ hg => (h.run later).recheck hg

/-- **Closing is final and exclusive.** If the table is closed after a run, one call of the run has
closed it, when it was open, and whatever is done from then on, the table stays closed, every call
that begins is refused, and nothing is admitted but the request of that call, once and alone. Of all
calls that close the table in the run and later, one is admitted at most. -/
theorem closed_for_good (name : String) (moves : List TableMove)
    (h : ((new name).run moves).lock.state.closed = true) :
    ∃ before session after, moves = before ++ .close session :: after ∧
      ((new name).run before).lock.state.closed = false ∧
      ∀ later,
        (((new name).run before).move (.close session)).Final ((new name).run before).next session
          later ∧
        (((new name).admitted (before ++ .close session :: later)).filter Waiter.closing).length
          ≤ 1 := by
  obtain ⟨before, session, after, rfl, hopen⟩ := exists_close (s := new name) rfl h
  refine ⟨before, session, after, rfl, hopen, fun later => ?_⟩
  have hfinal := ((openUp_run name before).close hopen session).final later
  refine ⟨hfinal, ?_⟩
  have hbefore : ((new name).admitted before).filter Waiter.closing = [] :=
    List.filter_eq_nil_iff.mpr fun w hw => by simp [(openUp_run name []).admitted hopen w hw]
  rw [admitted_append, List.filter_append, hbefore, List.nil_append, admitted]
  exact Nat.le_trans (List.length_filter_le ..) hfinal.once

/-- A session reads, and another waits to write, when a third one closes the table; the reader gives
the table back. -/
def closedWhileRead : List TableMove :=
  [.request .read ⟨1⟩, .recheck 0, .request .write ⟨2⟩, .recheck 1, .close ⟨3⟩, .join, .recheck 1,
    .recheck 2, .release .read ⟨1⟩, .recheck 2]

/-- The theorem at a run in which the writer that waits ahead of the closing request is refused. -/
theorem closed_for_good_read :
    ((new "Student").run closedWhileRead).lock.state.closed = true ∧
      ((new "Student").admitted closedWhileRead).map Waiter.request = [0, 2] ∧
      ∃ before session after, closedWhileRead = before ++ .close session :: after ∧
        ((new "Student").run before).lock.state.closed = false ∧
        ∀ later,
          (((new "Student").run before).move (.close session)).Final
            ((new "Student").run before).next session later ∧
          (((new "Student").admitted (before ++ .close session :: later)).filter
            Waiter.closing).length ≤ 1 :=
  ⟨by decide, by decide, closed_for_good "Student" closedWhileRead (by decide)⟩

end TableScene

end SqlTree
