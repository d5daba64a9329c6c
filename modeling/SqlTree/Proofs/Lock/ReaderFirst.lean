import SqlTree.Proofs.Lock.Cancellation

/-!
# Readers and the writers that come after them

Readers and writers stand in two queues, and what orders them is when a writer joins its queue: from
then on, as long as it waits, no reader is admitted. So a reader that asks while no session writes
or asks to write goes before a later writer only if it is admitted before the writer joins. Until a
writer joins, nothing stands in the way of the reader but the readers ahead of it, and the first
check that it makes at the head of its queue admits it. But joining a queue and checking it are
steps of their own, and a reader that is not the first yet may check in vain; a writer that joins in
the meantime and finds nobody reading is admitted at once, while the reader waits.

## Main definitions

* `LockState.WriteFree`: no session writes or asks to write.
* `TableScene.ReaderFirst`: a reader goes before the writers that join after it.

## Main results

* `TableLock.Happens.writeFree`: only a writer that joins ends the absence of writers.
* `TableScene.write_of_admitted`: no reader is admitted while a writer waits.
* `TableScene.reader_first`: when a reader goes before the writers that join after it.
* `TableScene.passed_by_later_writer`: a reader that a later writer passes.
-/

namespace SqlTree

namespace LockState

variable {st st' : LockState} {session : Session}

/-- No session asks to write and none writes. -/
def WriteFree (st : LockState) : Prop := st.pending .write = [] ∧ st.active .write = []

instance : Decidable st.WriteFree := inferInstanceAs (Decidable (_ ∧ _))

/-- A read is enabled if no session asks to write and none writes. -/
theorem enabled_read_iff : st.enabled .read = true ↔ st.WriteFree := by
  simp [enabled, readEnabled, WriteFree, pending, active]

/-- The reader at the head of its queue is admitted if no session writes or asks to write. -/
theorem WriteFree.admits_head (h : st.WriteFree) (hhead : (st.pending .read).head? = some session) :
    (st.admit? .read session).isSome = true := by
  rw [admit?, enabled_read_iff.mpr h, hhead]
  simp

theorem active_write_admitted_read (h : st.admit? .read session = some st') :
    st'.active .write = st.active .write := by
  simp only [admit?, Option.ite_none_right_eq_some, Option.some.injEq] at h
  rw [← h.2]
  rfl

theorem active_write_release {kind : LockKind} (h : st.release? kind session = some st')
    (hnone : st.active .write = []) : st'.active .write = [] := by
  cases kind with
  | read =>
    simp only [release?, Option.ite_none_right_eq_some, Option.some.injEq] at h
    rw [← h.2]
    exact hnone
  | write =>
    simp only [release?, Option.ite_none_right_eq_some, Option.some.injEq] at h
    have hwriting : st.writing = [] := hnone
    simp [hwriting] at h

end LockState

/-- As long as no writer joins, no session writes or asks to write. -/
theorem TableLock.Happens.writeFree {l l' : TableLock} {event : Option TableEvent}
    (h : l.Happens l' event) (hfree : l.state.WriteFree)
    (hjoin : ∀ x, event = some (.joined x) → x.kind = .read) : l'.state.WriteFree := by
  obtain ⟨hpending, hactive⟩ := hfree
  cases h with
  | still _ pending active => exact ⟨(pending _).trans hpending, (active _).trans hactive⟩
  | @joined x _ state =>
    rw [state, LockState.WriteFree, LockState.enqueue, LockState.pending_setPending,
      LockState.active_setPending, hjoin x rfl]
    exact ⟨hpending, hactive⟩
  | @admitted x _ _ state =>
    cases hkind : x.kind with
    | read =>
      rw [hkind] at state
      refine ⟨?_, (LockState.active_write_admitted_read state).trans hactive⟩
      rw [LockState.pending_admitted state]
      exact hpending
    | write =>
      -- Nobody stands in the queue to write.
      rw [hkind] at state
      obtain ⟨-, hhead, -⟩ := LockState.head_of_admitted state
      exact absurd (hhead.symm.trans hpending) (List.cons_ne_nil _ _)
  | @withdrawn x _ _ state =>
    rw [state, LockState.WriteFree, LockState.pending_withdraw, LockState.withdraw,
      LockState.active_setPending, hpending]
    exact ⟨by simp, hactive⟩
  | released _ state =>
    exact ⟨(LockState.pending_release state _).trans hpending,
      LockState.active_write_release state hactive⟩
  | cancelled _ state =>
    rw [LockState.WriteFree, LockState.pending_cancel state, LockState.active_cancel state,
      hpending]
    exact ⟨rfl, hactive⟩

namespace TableScene

variable {s : TableScene} {session : Session}

theorem writeFree_run (hfree : s.lock.state.WriteFree) {moves : List TableMove}
    (hjoin : ∀ x, .joined x ∈ s.history moves → x.kind = .read) :
    (s.run moves).lock.state.WriteFree := by
  induction moves generalizing s with
  | nil => exact hfree
  | cons m moves ih =>
    have hhere : ∀ x, s.event? m = some (.joined x) → x.kind = .read := fun x hx =>
      hjoin x (List.mem_append_left _ (Option.mem_toList.mpr hx))
    exact ih ((happens_move s m).writeFree hfree hhere)
      fun x hx => hjoin x (List.mem_append_right _ hx)

/-! ### While a writer waits -/

/-- A request that has joined and whose wait has not ended since waits. -/
theorem waits_since {name : String} {moves : List TableMove} {before since : List TableEvent}
    {w : Place} (h : (new name).history moves = before ++ .joined w :: since)
    (hsince : ∀ e ∈ since, e.ended? ≠ some w) : w ∈ ((new name).run moves).lock.places := by
  have hrec := recorded_run name moves
  rw [hrec.places, TableEvent.waiting, List.mem_filter, decide_eq_true_iff, h]
  refine ⟨by simp [TableEvent.joined?], fun hended => ?_⟩
  rw [List.filterMap_append, List.filterMap_cons] at hended
  rcases List.mem_append.mp hended with hbefore | hend
  · -- The wait of a request does not end before it joins, and no request joins twice.
    obtain ⟨earlier, m, later, -, hearlier, -⟩ := exists_of_history_eq h
    have hjoined := (recorded_run name earlier).ended w (hearlier ▸ hbefore)
    rw [hearlier] at hjoined
    have hn := hrec.nodup.of_map _
    rw [h, List.filterMap_append, List.filterMap_cons] at hn
    exact (List.nodup_append.mp hn).2.2 w hjoined w List.mem_cons_self rfl
  · obtain ⟨e, he, heq⟩ := List.mem_filterMap.mp hend
    exact hsince e he heq

/-- In every run without cancellations, no reader is admitted while a writer waits. -/
theorem write_of_admitted {name : String} {moves : List TableMove}
    (hcancel : ∀ session, .cancel session ∉ moves) {before during after : List TableEvent}
    {w : Place} (h : (new name).history moves = before ++ .joined w :: (during ++ after))
    (hkind : w.kind = .write) (hwaits : ∀ e ∈ during, e.ended? ≠ some w) :
    ∀ x, .admitted x ∈ during → x.kind = .write := by
  intro x hx
  obtain ⟨sofar, rest, rfl⟩ := List.append_of_mem hx
  have hevents : (new name).history moves =
      (before ++ .joined w :: sofar) ++ .admitted x :: (rest ++ after) := by
    rw [h]
    simp
  obtain ⟨earlier, m, later, rfl, hearlier, hevent⟩ := exists_of_history_eq hevents
  have hbalanced := balanced_run name earlier fun session hmem =>
    hcancel session (List.mem_append_left _ hmem)
  have hw := waits_since hearlier fun e he => hwaits e (List.mem_append_left _ he)
  have hpending := hbalanced.mem_pending hw
  cases hxk : x.kind with
  | write => rfl
  | read =>
    have hmove := happens_move ((new name).run earlier) m
    rw [hevent] at hmove
    cases hmove with
    | admitted _ _ state =>
      rw [hxk] at state
      obtain ⟨henabled, -, -⟩ := LockState.head_of_admitted state
      rw [hkind, (LockState.enabled_read_iff.mp henabled).1] at hpending
      exact absurd hpending List.not_mem_nil

/-! ### Readers that come before writers -/

/-- The request to read that a session makes next. -/
def reader (s : TableScene) (session : Session) : Place := ⟨s.next, .read, session, false⟩

/-- After the session has asked to read in the scene `s`, no writer that joins later is admitted
before the reader is admitted or taken out of its queue. -/
def ReaderFirst (s : TableScene) (session : Session) (later : List TableMove) : Prop :=
  ∀ before w after,
    (s.move (.request .read session)).history later = before ++ .admitted w :: after →
      w.kind = .write → .joined w ∈ before → ∃ e ∈ before, e.takesOut (s.reader session) = true

/-- A reader that is admitted before a writer joins goes before all later writers. -/
theorem readerFirst_of_admitted {between rest : List TableMove} {m : TableMove}
    (hjoin : ∀ x, .joined x ∈ (s.move (.request .read session)).history between → x.kind = .read)
    (hevent : ((s.move (.request .read session)).run between).event? m =
      some (.admitted (s.reader session))) :
    s.ReaderFirst session (between ++ m :: rest) := by
  intro before w after hsplit hkind hjoined
  rw [history_append, history, hevent, Option.toList_some, List.singleton_append] at hsplit
  rcases List.append_eq_append_iff.mp hsplit with ⟨more, rfl, hmore⟩ | ⟨more, hbetween, -⟩
  · cases more with
    | nil =>
      obtain rfl := TableEvent.admitted.inj (List.cons.inj hmore).1
      cases hkind
    | cons e more =>
      obtain rfl := (List.cons.inj hmore).1
      refine ⟨_, List.mem_append_right _ List.mem_cons_self, ?_⟩
      simp [TableEvent.takesOut]
  · -- The writer would have joined before the reader was admitted.
    have hread := hjoin w (hbetween ▸ List.mem_append_left _ hjoined)
    cases hkind.symm.trans hread

/-- In every run of an open table in which a session asks to read while none writes or asks to
write, a check that the reader makes at the head of its queue admits it if no writer has joined
since, and then the reader goes before all writers that join later. A writer that joins before goes
first: in a run without cancellations, no reader is admitted while it waits. -/
theorem reader_first (name : String) (moves : List TableMove) (session : Session)
    (hfree : ((new name).run moves).lock.state.WriteFree) :
    let s := (new name).run moves
    let asked := s.move (.request .read session)
    (∀ between rest, (asked.run between).lock.state.closed = false →
        (∀ x, .joined x ∈ asked.history between → x.kind = .read) →
        s.reader session ∈ (asked.run between).lock.places →
        ((asked.run between).lock.state.pending .read).head? = some session →
        (asked.run between).event? (.recheck s.next) = some (.admitted (s.reader session)) ∧
          s.ReaderFirst session (between ++ .recheck s.next :: rest)) ∧
      ∀ later, (∀ σ, .cancel σ ∉ moves ++ .request .read session :: later) →
        ∀ before w during after, asked.history later = before ++ .joined w :: (during ++ after) →
          w.kind = .write → (∀ e ∈ during, e.ended? ≠ some w) →
          ∀ x, .admitted x ∈ during → x.kind = .write := by
  intro s asked
  refine ⟨fun between rest hopen hjoin hwaits hhead => ?_, fun later hcancel before w during after
    hsplit hkind hduring => ?_⟩
  · have hasked : asked.lock.state.WriteFree := by
      refine (happens_move s (.request .read session)).writeFree hfree fun x hx => ?_
      simp only [event?, Option.ite_none_left_eq_some, Option.some.injEq,
        TableEvent.joined.injEq] at hx
      rw [← hx.2]
    have hrun : asked.run between =
        (new name).run (moves ++ .request .read session :: between) := by
      rw [run_append, run_cons]
    have hrec := recorded_run name (moves ++ .request .read session :: between)
    rw [← hrun] at hrec
    have hevent : (asked.run between).event? (.recheck s.next) =
        some (.admitted (s.reader session)) :=
      event?_recheck_of_admits hrec hwaits hopen ((writeFree_run hasked hjoin).admits_head hhead)
    exact ⟨hevent, readerFirst_of_admitted hjoin hevent⟩
  · have hhistory : (new name).history (moves ++ .request .read session :: later) =
        ((new name).history moves ++ (s.event? (.request .read session)).toList ++ before) ++
          .joined w :: (during ++ after) := by
      rw [history_append, history, List.append_assoc, List.append_assoc, ← hsplit]
    exact write_of_admitted hcancel hhistory hkind hduring

/-- Session 1 reads. -/
def oneReads : List TableMove := [.request .read ⟨1⟩, .recheck 0]

/-- Sessions 3 and 4 ask to write, session 1 is done, and session 3 and then the reader, which has
number 1, check their queues. -/
def writersJoin : List TableMove :=
  [.request .write ⟨3⟩, .request .write ⟨4⟩, .release .read ⟨1⟩, .recheck 2, .recheck 1]

/-- The theorem at a reader that comes while another one reads: if it checks its queue before the
writers join, it is admitted and goes before them; if it checks it after that, only a writer has
been admitted. -/
theorem reader_first_joined :
    let s := (new "Student").run oneReads
    let asked := s.move (.request .read ⟨2⟩)
    s.lock.state.WriteFree ∧
      asked.event? (.recheck 1) = some (.admitted (s.reader ⟨2⟩)) ∧
      s.ReaderFirst ⟨2⟩ (.recheck 1 :: writersJoin) ∧
      asked.history writersJoin =
        [.joined ⟨2, .write, ⟨3⟩, false⟩, .joined ⟨3, .write, ⟨4⟩, false⟩, .released .read ⟨1⟩,
          .admitted ⟨2, .write, ⟨3⟩, false⟩] ∧
      ∀ x, .admitted x ∈ [TableEvent.released .read ⟨1⟩, .admitted ⟨2, .write, ⟨3⟩, false⟩] →
        x.kind = .write := by
  intro s asked
  have hfree : s.lock.state.WriteFree := by decide
  have hhistory : asked.history writersJoin =
      [.joined ⟨2, .write, ⟨3⟩, false⟩, .joined ⟨3, .write, ⟨4⟩, false⟩, .released .read ⟨1⟩,
        .admitted ⟨2, .write, ⟨3⟩, false⟩] := by decide
  obtain ⟨hfirst, hmeanwhile⟩ := reader_first "Student" oneReads ⟨2⟩ hfree
  obtain ⟨hevent, hreader⟩ := hfirst [] writersJoin (by decide) nofun (by decide) (by decide)
  refine ⟨hfree, hevent, hreader, hhistory, ?_⟩
  exact hmeanwhile writersJoin (by simp [oneReads, writersJoin]) [.joined ⟨2, .write, ⟨3⟩, false⟩]
    ⟨3, .write, ⟨4⟩, false⟩ _ [] hhistory rfl (by decide)

/-- Session 1 writes, session 4 asks to read and checks its queue in vain, and session 1 gives the
table back. -/
def readerWoken : List TableMove :=
  [.request .write ⟨1⟩, .recheck 0, .request .read ⟨4⟩, .recheck 1, .release .write ⟨1⟩]

/-- Session 2 checks the queue to read behind session 4, and then session 3 asks to write and checks
its queue. -/
def writerBetween : List TableMove := [.recheck 2, .request .write ⟨3⟩, .recheck 3]

/-- A later writer may pass a reader that has come when no session wrote or asked to write: the
check of the reader is in vain, since another reader stands ahead of it, and the writer is
admitted. -/
theorem passed_by_later_writer :
    let s := (new "Student").run readerWoken
    s.lock.state.WriteFree ∧
      ((s.move (.request .read ⟨2⟩)).run writerBetween).lock.state.closed = false ∧
      (s.move (.request .read ⟨2⟩)).history writerBetween =
        [.joined ⟨3, .write, ⟨3⟩, false⟩, .admitted ⟨3, .write, ⟨3⟩, false⟩] ∧
      s.reader ⟨2⟩ ∈ ((s.move (.request .read ⟨2⟩)).run writerBetween).lock.places ∧
      ¬ s.ReaderFirst ⟨2⟩ writerBetween := by
  intro s
  have hhistory : (s.move (.request .read ⟨2⟩)).history writerBetween =
      [.joined ⟨3, .write, ⟨3⟩, false⟩, .admitted ⟨3, .write, ⟨3⟩, false⟩] := by decide
  refine ⟨by decide, by decide, hhistory, by decide, fun h => ?_⟩
  obtain ⟨e, he, hout⟩ := h [.joined ⟨3, .write, ⟨3⟩, false⟩] ⟨3, .write, ⟨3⟩, false⟩ [] hhistory
    rfl (List.mem_singleton_self _)
  rw [List.mem_singleton.mp he] at hout
  exact nomatch hout

end TableScene

end SqlTree
