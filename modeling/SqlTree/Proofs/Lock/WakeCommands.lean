import SqlTree.Proofs.Lock.Places
import SqlTree.Proofs.Lock.Wakeup

/-!
# Commands on a lock as runs with separate notifications

Between two commands every request that waits is asleep, and no notification is owed. A command is a
critical section and its notification, followed by turns of the requests that have been notified.
So a lock that commands have been given to is one that a run of a `WakeScene` leads to, and what
holds after every run holds between commands.

## Main definitions

* `WakeScene.between`: a lock between two commands.
* `WakeScene.Reached`: a run leads to the lock.

## Main results

* `TableRun.reached_commands`: whatever commands do to a lock is done by a run.
* `TableRun.isDue_of_recheck`: a check that is not due after some commands would end no wait.
-/

namespace SqlTree

/-- A request that waits, asleep until a notification comes if its check is not due. -/
def Waiter.acquisition (w : Waiter) : Acquisition :=
  ⟨w.request, w.kind, w.session, w.closing, .asleep w.notified⟩

namespace WakeScene

/-- A lock with every acquisition asleep and no notification owed. -/
def between (l : TableLock) (next : Nat) : WakeScene :=
  ⟨l.state, l.waiters.map Waiter.acquisition, 0, next⟩

variable {s : WakeScene} {l : TableLock} {next : Nat}

theorem acquisition?_between (request : Nat) :
    (between l next).acquisition? request = (l.waiter? request).map Waiter.acquisition := by
  rw [acquisition?, between, List.find?_map]
  rfl

/-- Changing the queues of a lock and notifying, without the acquisition that makes the change. -/
theorem notify_finish (state : LockState) (request : Nat) :
    (((between l next).change state).finish request).move .notify =
      between ({ l with state }.dropWaiter request).notifyAll next := by
  simp only [move, change, finish, between, TableLock.dropWaiter, TableLock.notifyAll, notifyAll,
    Nat.zero_add, Nat.one_ne_zero, if_false, Nat.sub_self, List.filter_map, List.map_map]
  rfl

/-- Changing the queues of a lock and notifying. -/
theorem notify_change (state : LockState) :
    ((between l next).change state).move .notify = between { l with state }.notifyAll next := by
  simp only [move, change, between, TableLock.notifyAll, notifyAll, Nat.zero_add, Nat.one_ne_zero,
    if_false, Nat.sub_self, List.map_map]
  rfl

/-- Going to sleep. -/
theorem turn_between (request : Nat) :
    (between l next).turn request (.asleep false) = between (l.sleep request) next := by
  simp only [turn, between, TableLock.sleep, List.map_map, WakeScene.mk.injEq, true_and, and_true]
  refine List.map_congr_left fun w _ => ?_
  by_cases h : w.request = request
  · simp [Waiter.acquisition, h]
  · simp [Waiter.acquisition, h]

/-- A check of a request that waits, as a critical section and a notification. -/
theorem exists_run_check (next : Nat) {request : Nat} {w : Waiter}
    (h : l.waiter? request = some w) :
    ∃ moves, ((between l next).check w.acquisition false).run moves =
      between (l.recheck request).1 next := by
  obtain rfl := (TableLock.waiter?_eq_some h).2
  have hstate : (between l next).state = l.state := rfl
  simp only [TableLock.recheck, h, check, hstate, Waiter.acquisition]
  split
  · exact ⟨[.notify], notify_finish ..⟩
  · cases l.state.admit? w.kind w.session with
    | some state => exact ⟨[.notify], notify_finish ..⟩
    | none => exact ⟨[], turn_between ..⟩

/-- A run leads to the lock, with every acquisition asleep. -/
def Reached (l : TableLock) (next : Nat) : Prop := ∃ moves, new.run moves = between l next

theorem Reached.numbered (h : Reached l next) : (between l next).Numbered := by
  obtain ⟨moves, hmoves⟩ := h
  exact hmoves ▸ numbered_run moves

/-- Some moves more. -/
theorem Reached.run (h : Reached l next) {l' : TableLock} {next' : Nat} (moves : List WakeMove)
    (hr : (between l next).run moves = between l' next') : Reached l' next' := by
  obtain ⟨before, hbefore⟩ := h
  exact ⟨before ++ moves, by rw [run_append, hbefore, hr]⟩

/-- A request that has woken up, in a lock whose other requests are asleep, checks the queues. -/
theorem reached_recheck {request : Nat} {w : Waiter} (hw : l.waiter? request = some w)
    (moves : List WakeMove) (h : new.run moves = (between l next).turn request .awake) :
    Reached (l.recheck request).1 next := by
  obtain ⟨more, hmore⟩ := exists_run_check next hw
  have ha : (between l next).acquisition? request = some w.acquisition := by
    rw [acquisition?_between, hw, Option.map_some]
  refine ⟨moves ++ ([.step request, .step request] ++ more), ?_⟩
  rw [run_append, h, run_append, run_turn ha, hmore]

/-- A check that is due. -/
theorem Reached.recheck (h : Reached l next) {request : Nat} (hdue : l.isDue request) :
    Reached (l.recheck request).1 next := by
  obtain ⟨w, hmem, hw⟩ := List.any_eq_true.mp hdue
  obtain ⟨hreq, hnotified⟩ : w.request = request ∧ w.notified = true := by simpa using hw
  have hmem' : w.acquisition ∈ (between l next).acquisitions := List.mem_map_of_mem hmem
  have ha : (between l next).acquisition? request = some w.acquisition := by
    cases hfind : (between l next).acquisition? request with
    | none => exact absurd (beq_iff_eq.mpr hreq) (List.find?_eq_none.mp hfind _ hmem')
    | some a =>
      obtain ⟨ha, hareq⟩ := acquisition?_eq_some hfind
      exact congrArg some (h.numbered.eq_of_request ha hmem' (hareq.trans hreq.symm))
  obtain ⟨w', hw', -⟩ := Option.map_eq_some_iff.mp (acquisition?_between request ▸ ha)
  obtain ⟨moves, hmoves⟩ := h
  refine reached_recheck hw' (moves ++ [.step request]) ?_
  have hstage : w.acquisition.stage = .asleep true := by rw [← hnotified]; rfl
  rw [run_append, hmoves, run_cons, run_nil, move, ha, Option.elim_some, step, hstage]
  exact congrArg (fun r => (between l next).turn r .awake) hreq

theorem Reached.round (h : Reached l next) (requests : List Nat) :
    Reached (l.round requests).1 next := by
  induction requests generalizing l with
  | nil => exact h
  | cons r rest ih =>
    rw [TableLock.round]
    split
    · exact ih (h.recheck ‹_›)
    · exact ih h

theorem Reached.settle (h : Reached l next) (rounds : Nat) :
    Reached (TableLock.settle rounds l).1 next := by
  induction rounds generalizing l with
  | zero => exact h
  | succ rounds ih =>
    rw [TableLock.settle]
    split
    · exact ih (h.round _)
    · exact h

/-! ### Requests that begin -/

theorem Numbered.acquisition?_begin (h : s.Numbered) (kind : LockKind) (session : Session)
    (closing : Bool) (stage : Stage) :
    (s.begin kind session closing stage).acquisition? s.next =
      some ⟨s.next, kind, session, closing, stage⟩ := by
  have hnone : s.acquisitions.find? (fun a => a.request == s.next) = none :=
    List.find?_eq_none.mpr fun a ha hreq =>
      Nat.ne_of_lt (h.fresh a.request (List.mem_map_of_mem ha)) (by simpa using hreq)
  rw [acquisition?, WakeScene.begin, List.find?_append, hnone, Option.none_or, List.find?_singleton,
    if_pos (beq_self_eq_true _)]

theorem Numbered.turn_begin (h : s.Numbered) (kind : LockKind) (session : Session)
    (closing : Bool) (stage stage' : Stage) :
    (s.begin kind session closing stage).turn s.next stage' =
      s.begin kind session closing stage' := by
  have hsame : s.acquisitions.map (fun a => if a.request = s.next then { a with stage := stage' }
      else a) = s.acquisitions := by
    refine (List.map_congr_left fun a ha => ?_).trans (List.map_id _)
    rw [if_neg (Nat.ne_of_lt (h.fresh a.request (List.mem_map_of_mem ha))), id]
  rw [turn, WakeScene.begin, List.map_append, hsame]
  simp [WakeScene.begin]

/-- A request that has joined its queue makes its first check. -/
theorem reached_begin (hl : (between l next).Numbered) {kind : LockKind} {session : Session}
    {closing : Bool} (moves : List WakeMove)
    (h : new.run moves = { between l next with state := l.state.enqueue kind session }.begin kind
      session closing .awake) :
    Reached ((l.enqueue next kind session closing).recheck next).1 (next + 1) := by
  have hn : Numbered { between l next with state := l.state.enqueue kind session } :=
    ⟨hl.nodup, hl.fresh⟩
  have hbetween : between (l.enqueue next kind session closing) (next + 1) =
      { between l next with state := l.state.enqueue kind session }.begin kind session closing
        (.asleep true) := by
    simp [between, TableLock.enqueue, begin, Waiter.acquisition]
  have hfind := hn.acquisition?_begin kind session closing (.asleep true)
  rw [← hbetween] at hfind
  obtain ⟨w, hw, -⟩ := Option.map_eq_some_iff.mp (acquisition?_between next ▸ hfind)
  refine reached_recheck hw moves ?_
  rw [h, hbetween]
  exact (hn.turn_begin kind session closing (.asleep true) .awake).symm

theorem Numbered.notifyAll (h : s.Numbered) : s.notifyAll.Numbered :=
  h.of_sublist (by simp) rfl

/-- A request that has just closed the table notifies. -/
theorem Numbered.step_announcing (h : s.Numbered) (kind : LockKind) (session : Session)
    (closing : Bool) :
    (s.begin kind session closing .announcing).move (.step s.next) =
      s.notifyAll.begin kind session closing .joining := by
  have hnotified : (s.begin kind session closing .announcing).notifyAll =
      s.notifyAll.begin kind session closing .announcing := by
    simp [WakeScene.notifyAll, WakeScene.begin, Stage.notify]
  rw [WakeScene.move, h.acquisition?_begin, Option.elim_some, WakeScene.step]
  simp only [hnotified]
  exact h.notifyAll.turn_begin ..

/-- A request that has just closed the table and notified joins its queue. -/
theorem Numbered.step_joining (h : s.Numbered) (kind : LockKind) (session : Session)
    (closing : Bool) :
    (s.begin kind session closing .joining).move (.step s.next) =
      { s with state := s.state.enqueue kind session }.begin kind session closing .awake := by
  have hn : Numbered { s with state := s.state.enqueue kind session } := ⟨h.nodup, h.fresh⟩
  rw [WakeScene.move, h.acquisition?_begin, Option.elim_some, WakeScene.step]
  exact hn.turn_begin kind session closing .joining .awake

/-- A lock whose table is closed, with the notification that follows. -/
theorem notifyAll_between : (between l next).notifyAll = between l.notifyAll next := by
  simp [notifyAll, between, TableLock.notifyAll, Waiter.acquisition, Stage.notify,
    Function.comp_def]

/-- A request that closes the table, from its first step to the one that joins the queue. -/
theorem run_close (hl : (between l next).Numbered) (session : Session)
    (hopen : ¬ l.state.closed = true) :
    (between l next).run [.close session, .step next, .step next] =
      { between { l with state := l.state.close }.notifyAll next with
        state := l.state.close.enqueue .write session }.begin .write session true .awake := by
  have hn : (between { l with state := l.state.close } next).Numbered := ⟨hl.nodup, hl.fresh⟩
  have hclose : (between l next).move (.close session) =
      (between { l with state := l.state.close } next).begin .write session true .announcing := by
    simp [move, between, hopen]
  have hannounce := hn.step_announcing .write session true
  have hjoin := hn.notifyAll.step_joining .write session true
  rw [notifyAll_between] at hannounce hjoin
  rw [run_cons, hclose, run_cons]
  exact (congrArg (fun s => s.move (.step next)) hannounce).trans hjoin

/-- An acquisition that is dropped without a place in its queue. -/
theorem finish_between (request : Nat) :
    (between l next).finish request = between (l.dropWaiter request) next := by
  simp only [finish, between, TableLock.dropWaiter, List.filter_map]
  rfl

/-- A request that is given up, with the notification that follows if it had a place. -/
theorem run_abandon {request : Nat} {w : Waiter} (hw : l.waiter? request = some w) :
    (between l next).run [.drop request, .notify] = between (l.abandon request).1 next := by
  have ha : (between l next).acquisition? request = some w.acquisition := by
    rw [acquisition?_between, hw, Option.map_some]
  obtain rfl := (TableLock.waiter?_eq_some hw).2
  have hstate : (between l next).state = l.state := rfl
  rw [run_cons, move, ha, Option.elim_some, drop, TableLock.abandon, hw, hstate]
  by_cases hmem : w.session ∈ l.state.pending w.kind
  · simp only [Waiter.acquisition, hmem, if_true]
    exact notify_finish ..
  · simp only [Waiter.acquisition, hmem, if_false]
    rw [finish_between]
    rfl

/-! ### What is asleep between two commands -/

theorem not_owes_between : ¬ (between l next).Owes := by
  rintro (hpos | ⟨b, hb, hs⟩)
  · exact Nat.lt_irrefl 0 hpos
  · obtain ⟨w, -, rfl⟩ := List.mem_map.mp hb
    exact Stage.noConfusion hs

theorem not_watched_between {kind : LockKind} {session : Session} :
    ¬ (between l next).Watched kind session := by
  rintro ⟨b, hb, hw, -⟩
  obtain ⟨w, -, rfl⟩ := List.mem_map.mp hb
  exact Bool.noConfusion hw

/-- A check ends the wait of a request only if it would end it in the scene. -/
theorem wouldEnd_of_recheck (next : Nat) {request : Nat} (h : (l.recheck request).2 ≠ none) :
    ∃ w, l.waiter? request = some w ∧ (between l next).WouldEnd w.acquisition := by
  rw [TableLock.recheck] at h
  cases hw : l.waiter? request with
  | none => exact absurd (by rw [hw]) h
  | some w =>
    refine ⟨w, rfl, ?_⟩
    by_cases hc : (l.state.closed && !w.closing) = true
    · obtain ⟨hclosed, hclosing⟩ : l.state.closed = true ∧ w.closing = false := by simpa using hc
      exact .inl ⟨hclosed, hclosing⟩
    · cases ha : l.state.admit? w.kind w.session with
      | none => exact absurd (by simp [hw, hc, ha]) h
      | some state =>
        exact .inr (LockState.admits_iff_isSome.mpr (Option.isSome_iff_exists.mpr ⟨state, ha⟩))

end WakeScene

namespace TableRun

open WakeScene (Reached between)

variable {t : TableRun}

theorem reached_change (change : TableLock × Bool) (h : Reached change.1 t.next) :
    Reached (t.change change).1.lock (t.change change).1.next :=
  WakeScene.Reached.settle h (change.1.waiters.length + 1)

/-- A request that has joined its queue makes its first check, and the others follow. -/
theorem reached_begin {l : TableLock} {kind : LockKind} {session : Session} {closing : Bool}
    (hn : (between l t.next).Numbered) (moves : List WakeMove)
    (hmoves : WakeScene.new.run moves =
      { between l t.next with state := l.state.enqueue kind session }.begin kind session closing
        .awake) :
    Reached (t.begin? (some (l.enqueue t.next kind session closing))).1.lock (t.next + 1) := by
  have hdue : (l.enqueue t.next kind session closing).isDue t.next := by
    simp [TableLock.isDue, TableLock.enqueue]
  have hround : ((l.enqueue t.next kind session closing).round [t.next]).1 =
      ((l.enqueue t.next kind session closing).recheck t.next).1 := by
    simp [TableLock.round, hdue]
  have h := WakeScene.reached_begin hn moves hmoves
  rw [← hround] at h
  exact h.settle (((l.enqueue t.next kind session closing).round [t.next]).1.waiters.length + 1)

/-- Whatever a command does to a lock is done by a run. -/
theorem reached_perform (h : Reached t.lock t.next) (c : TableCommand) :
    Reached (t.perform c).1.lock (t.perform c).1.next := by
  obtain ⟨before, hbefore⟩ := id h
  cases c with
  | request kind session =>
    rw [perform, TableLock.request?]
    by_cases hc : t.lock.state.closed = true
    · rw [if_pos hc]
      refine h.run [.request kind session] ?_
      simp [WakeScene.move, between, hc, WakeScene.refuse, begin?]
    · rw [if_neg hc]
      refine reached_begin h.numbered (before ++ [.request kind session]) ?_
      rw [WakeScene.run_append, hbefore]
      simp [WakeScene.move, between, hc]
  | close session =>
    rw [perform, TableLock.beginClose?]
    by_cases hc : t.lock.state.closed = true
    · rw [if_pos hc]
      refine h.run [.close session] ?_
      simp [WakeScene.move, between, hc, WakeScene.refuse, begin?]
    · rw [if_neg hc]
      have hn : (between { t.lock with state := t.lock.state.close }.notifyAll t.next).Numbered :=
        WakeScene.notifyAll_between (l := { t.lock with state := t.lock.state.close }) ▸
          WakeScene.Numbered.notifyAll ⟨h.numbered.nodup, h.numbered.fresh⟩
      refine reached_begin hn (before ++ [.close session, .step t.next, .step t.next]) ?_
      rw [WakeScene.run_append, hbefore]
      exact WakeScene.run_close h.numbered session hc
  | release kind session =>
    refine reached_change _ ?_
    cases hr : t.lock.state.release? kind session with
    | none => simpa only [TableLock.release, hr] using h
    | some st =>
      refine h.run [.release kind session, .notify] ?_
      have hstate : (between t.lock t.next).state = t.lock.state := rfl
      simp only [WakeScene.run_cons, WakeScene.move, hstate, hr]
      exact WakeScene.notify_change st
  | cancel session =>
    refine reached_change _ ?_
    cases hr : t.lock.state.cancel? session with
    | none => simpa only [TableLock.cancel, hr] using h
    | some st =>
      refine h.run [.cancel session, .notify] ?_
      have hstate : (between t.lock t.next).state = t.lock.state := rfl
      simp only [WakeScene.run_cons, WakeScene.move, hstate, hr]
      exact WakeScene.notify_change st
  | abandon request =>
    cases hw : t.lock.waiter? request with
    | none => exact reached_change _ (by simpa only [TableLock.abandon, hw] using h)
    | some w => exact reached_change _ (h.run [.drop request, .notify] (WakeScene.run_abandon hw))
  | look => exact h

/-- Whatever commands do to a lock is done by a run. -/
theorem reached_commands (name : String) (commands : List TableCommand) :
    ∃ moves, WakeScene.new.run moves =
      between (commands.foldl (fun t c => (t.perform c).1) (new name)).lock
        (commands.foldl (fun t c => (t.perform c).1) (new name)).next := by
  have hrun : ∀ t : TableRun, Reached t.lock t.next →
      Reached (commands.foldl (fun t c => (t.perform c).1) t).lock
        (commands.foldl (fun t c => (t.perform c).1) t).next := by
    induction commands with
    | nil => exact fun t h => h
    | cons c commands ih => exact fun t h => ih (t.perform c).1 (reached_perform h c)
  exact hrun (new name) ⟨[], rfl⟩

/-- The checks that commands leave out would have ended no wait. -/
theorem isDue_of_recheck (name : String) (commands : List TableCommand) (request : Nat)
    (h : ((commands.foldl (fun t c => (t.perform c).1) (new name)).lock.recheck request).2 ≠ none) :
    (commands.foldl (fun t c => (t.perform c).1) (new name)).lock.isDue request = true := by
  obtain ⟨moves, hmoves⟩ := reached_commands name commands
  have halert := WakeScene.alert_run moves
  rw [hmoves] at halert
  obtain ⟨w, hw, hend⟩ := WakeScene.wouldEnd_of_recheck
    (commands.foldl (fun t c => (t.perform c).1) (new name)).next h
  have hmem := List.mem_of_find?_eq_some hw
  rw [TableLock.isDue, List.any_eq_true]
  refine ⟨w, hmem, ?_⟩
  rw [(TableLock.waiter?_eq_some hw).2, beq_self_eq_true, Bool.true_and]
  refine Bool.of_not_eq_false fun hnot => ?_
  have hs : w.acquisition.stage = .asleep false := congrArg Stage.asleep hnot
  have ha := List.mem_map_of_mem (f := Waiter.acquisition) hmem
  rcases hend with ⟨hc, hclosing⟩ | hadm
  · exact WakeScene.not_owes_between (halert.closed hc _ ha hs hclosing)
  · exact (halert.admits _ ha hs hadm).elim WakeScene.not_owes_between
      WakeScene.not_watched_between

end TableRun

end SqlTree
