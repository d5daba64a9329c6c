import SqlTree.Proofs.Lock.Closing
import SqlTree.Proofs.Lock.DroppedTable

/-!
# Tables that are created again

A call for a statement that creates a table begins by registering a new lock for the table, if its
lock has been closed. It does so before it asks for any lock, and nothing takes the new lock away
again: neither the failure of the call, because a table that it reads has been closed or because it
has waited too long, nor its being given up. So a table that has been dropped is open again from the
first step of such a call on, whatever becomes of the call, until another call drops it.

## Main definitions

* `Manager.OpenUnder`: the lock registered under a name is open, and nobody is about to close it.
* `Manager.Reopened`: a table has a new lock, and its old one stays closed.

## Main results

* `Manager.OpenUnder.move`: every move keeps a table open but one that begins to drop it.
* `Manager.reopened_by_create`: a call that creates a dropped table reopens it, however it ends.
-/

namespace SqlTree

namespace Call

variable {c d : Call} {c' : Option Call} {id : Nat} {l l' : TableLock}

/-- Only a call that drops a table closes its lock. -/
theorem Step.closed_eq (h : c.Step id l c' l') (hc : c.phase ≠ .shutting id) :
    l'.state.closed = l.state.closed := by
  have hmove : ∀ mv : TableMove, (∀ session, mv ≠ .close session) →
      ((⟨l, 0, none⟩ : TableScene).move mv).lock.state.closed = l.state.closed := fun mv hmv =>
    TableScene.closed_move hmv
  cases h with
  | fetch | grant | turnAway | giveUp | finish => rfl
  | ask | join => exact TableLock.closed_setPending ..
  | shut phase => exact absurd phase hc
  | wait | refuse | enter | drop => exact hmove (.recheck c.request) nofun
  | leave => exact hmove (.abandon c.request) nofun
  | @giveBack _ k _ _ => exact hmove (.release k.kind c.session) nofun

/-- No step leads a call to where it is about to close a lock. -/
theorem Step.not_shutting (h : c.Step id l c' l') (hd : d ∈ c') (i : Nat) :
    d.phase ≠ .shutting i := by
  cases h with
  | fetch | grant | turnAway | ask | shut | join | refuse | enter | giveUp | leave =>
    obtain rfl := Option.some.inj hd
    exact Phase.noConfusion
  | wait waits lock stays =>
    obtain rfl := Option.some.inj hd
    rcases stays with rfl | ⟨error, rfl⟩
    · exact Phase.noConfusion
    · exact Phase.noConfusion
  | giveBack phase =>
    obtain rfl := Option.some.inj hd
    exact fun hp => Phase.noConfusion (phase.symm.trans hp)
  | drop | finish => exact nomatch hd

end Call

namespace Manager

variable {m m' : Manager} {name : String} {id : Nat}

/-! ### Who is about to close a lock -/

/-- A step of a call begins no other call. -/
theorem next_act (m : Manager) (request : Nat) : (m.act request).1.next = m.next := by
  rw [act]
  split
  · rfl
  · next c _ =>
    split
    · rw [fetch]
      split
      · rfl
      · exact (parties_table m _).2
    · rw [ask]
      split <;> rfl
    · rw [shut]
      split <;> rfl
    · rfl
    · rw [check]
      dsimp only
      split
      · split <;> rfl
      · rfl
      · split <;> rfl
    · rfl
    · rw [finish]
      split <;> rfl

/-- A call that begins and is about to close the lock registered under a name drops the table. -/
theorem Sound.not_shutting_begun (hs : m.Sound) {mv : ManagerMove}
    (hmv : ∀ session, mv ≠ .dropTable name session) (hf : m.find? name = some id) {d : Call}
    (hd : d ∈ (m.move mv).parties) (hreq : d.request = m.next) : d.phase ≠ .shutting id := by
  intro hp
  have hs' := hs.move mv
  have hplan : ∀ plan, mv.plan? ≠ some plan := by
    intro plan hplan
    obtain ⟨session, howned⟩ := hs.owned_begin hplan
    have hkeeps := howned.keeps d hd hreq
    rcases List.mem_append.mp hd with hd | hd
    · have hfits := hs'.fits d hd
      rw [hp] at hfits
      exact Bool.false_ne_true (hkeeps.symm.trans hfits.1)
    · obtain ⟨p, -, rfl⟩ := List.mem_map.mp hd
      exact Phase.noConfusion hp
  have hnext : (m.move mv).next ≠ m.next := fun h =>
    Nat.lt_irrefl _ (hreq ▸ h ▸ hs'.request_lt hd)
  cases mv with
  | table other => exact hnext (parties_table m other).2
  | createTable other => exact hnext (parties_createTable m other).2
  | acquire s session => exact hplan _ rfl
  | acquireAccess access session => exact hplan _ rfl
  | act request => exact hnext (next_act m request)
  | abandon request =>
    refine hnext ?_
    rw [Manager.move]
    split
    · rw [Manager.abandon]
      split <;> rfl
    · rfl
  | release request =>
    refine hnext ?_
    rw [Manager.move]
    split <;> rfl
  | advance ms => exact hnext rfl
  | dropTable other session =>
    cases hother : m.find? other with
    | none =>
      have hcount : m.move (.dropTable other session) = m.countCall := by
        rw [Manager.move, Manager.beginDrop, hother]
      rw [hcount] at hd
      exact Nat.ne_of_lt (hs.request_lt hd) hreq
    | some i =>
      rw [move_dropTable hother] at hd
      rw [hs.eq_of_beginCall hd hreq, Phase.shutting.injEq] at hp
      -- One lock has one name.
      have hname := (hs.named other i hother).2
      rw [hp, (hs.named name id hf).2] at hname
      exact hmv session (hname ▸ rfl)

/-! ### While a table is open -/

/-- The lock registered under a name is open, and nobody is about to close it. -/
structure OpenUnder (m : Manager) (name : String) (id : Nat) : Prop where
  sound : m.Sound
  find : m.find? name = some id
  isOpen : (m.lock id).state.closed = false
  nobody : ∀ c ∈ m.parties, c.phase ≠ .shutting id

/-- Creating a table whose lock is open changes nothing. -/
theorem OpenUnder.created (h : m.OpenUnder name id) {mv : ManagerMove}
    (hmv : mv.creates? = some name) : m.created mv = m := by
  rw [Manager.created, hmv]
  simp only [Manager.createTable, h.find, h.isOpen, Bool.false_eq_true, if_false]

/-- Every move keeps a table open, but one that begins to drop it. -/
theorem OpenUnder.move (h : m.OpenUnder name id) {mv : ManagerMove}
    (hmv : ∀ session, mv ≠ .dropTable name session) : (m.move mv).OpenUnder name id := by
  have hs := h.sound
  have hfind : (m.move mv).find? name = some id := by
    by_cases hcreates : mv.creates? = some name
    · refine (hs.leads_move mv).find name id ?_
      rw [h.created hcreates]
      exact h.find
    · exact hs.find?_move hcreates h.find
  refine ⟨hs.move mv, hfind, ?_, fun d hd => ?_⟩
  · cases hs.effect mv with
    | quiet locks => rw [locks.state, h.isOpen]
    | begins locks => rw [locks.state, h.isOpen]
    | @steps m₁ c c' i l others locks mine before after step range result =>
      have hc := h.nobody c (before.mem_iff.mpr List.mem_cons_self)
      rw [lock_of_locks range result]
      split
      · next hi =>
        subst hi
        rw [step.closed_eq hc, locks.state, h.isOpen]
      · rw [locks.state, h.isOpen]
  · cases hs.effect mv with
    | quiet locks parties => exact h.nobody d (parties.mem_iff.mp hd)
    | begins locks parties next hnew =>
      rcases List.mem_cons.mp (parties.mem_iff.mp hd) with rfl | hold
      · exact hs.not_shutting_begun hmv h.find hd hnew
      · exact h.nobody d hold
    | steps locks mine before after step =>
      rcases List.mem_append.mp (after.mem_iff.mp hd) with hd | hd
      · exact step.not_shutting (Option.mem_toList.mp hd) id
      · exact h.nobody d (before.mem_iff.mpr (List.mem_cons_of_mem _ hd))

theorem OpenUnder.run (h : m.OpenUnder name id) {moves : List ManagerMove}
    (hmoves : ∀ session, .dropTable name session ∉ moves) : (m.run moves).OpenUnder name id := by
  induction moves generalizing m with
  | nil => exact h
  | cons mv moves ih =>
    refine ih (h.move fun session heq => hmoves session (heq ▸ List.mem_cons_self))
      fun session hmem => hmoves session (List.mem_cons_of_mem _ hmem)

/-- A call that creates a table whose lock has been closed registers a new one. -/
theorem Sound.openUnder_create (hs : m.Sound) {t : CreateTable} (hf : m.find? t.target = some id)
    (hc : (m.lock id).state.closed = true) (session : Session) :
    (m.move (.acquire (.createTable t) session)).OpenUnder t.target m.locks.length := by
  have hcreate : m.createTable t.target = m.register t.target := by
    rw [Manager.createTable, hf]
    simp only [hc, if_true]
  have hmove : m.move (.acquire (.createTable t) session) =
      (m.register t.target).1.beginAcquire (Statement.createTable t).access session := by
    rw [← hcreate]
    rfl
  have hs' := hs.move (.acquire (.createTable t) session)
  have hs₁ : (m.register t.target).1.Sound := hcreate ▸ hs.createTable t.target
  rw [hmove] at hs' ⊢
  refine ⟨hs', ?_, ?_, fun d hd => ?_⟩
  · exact (find?_register ..).trans (if_pos rfl)
  · exact congrArg (·.state.closed) ((lock_register m t.target m.locks.length).trans (if_pos rfl))
  · rcases List.mem_cons.mp ((parties_beginAcquire _ _ session).mem_iff.mp hd) with rfl | hd
    · exact Phase.noConfusion
    · intro hp
      have hd' : d ∈ m.parties := hd
      have hlt : m.locks.length < m.locks.length := by
        refine hs.lock_lt (h := ⟨m.locks.length, .write⟩) hd' (List.mem_append_right _ ?_)
        rw [hp]
        exact List.mem_singleton_self _
      exact Nat.lt_irrefl _ hlt

/-! ### However the call ends -/

/-- The table `name`, whose lock `id` has been closed in `m`, has the new lock of a call that
creates it, which is open. -/
structure Reopened (m : Manager) (name : String) (id : Nat) (m' : Manager) : Prop where
  table : m'.table name = (m', m.locks.length)
  isOpen : (m'.lock m.locks.length).state.closed = false
  /-- The new lock is another one, and the old one stays closed. -/
  old : id < m.locks.length ∧ (m'.lock id).state.closed = true

/-- A call for a statement that creates a table whose lock has been closed reopens the table. It
stays so after all moves that do not drop it, whether the call ends well, fails or is given up. -/
theorem reopened_by_create (timeout : Option UInt64) (before : List ManagerMove) (t : CreateTable)
    (session : Session) (id : Nat) (later : List ManagerMove)
    (hfind : ((new timeout).run before).find? t.target = some id)
    (hclosed : (((new timeout).run before).lock id).state.closed = true)
    (hlater : ∀ σ, .dropTable t.target σ ∉ later) :
    ((new timeout).run before).Reopened t.target id
      ((new timeout).run (before ++ .acquire (.createTable t) session :: later)) := by
  have hs := sound_run timeout before
  rw [run_append, run_cons]
  generalize (new timeout).run before = m at *
  have hopen := (hs.openUnder_create hfind hclosed session).run hlater
  have hold := run_induction (P := fun m => m.Sound ∧ (m.lock id).state.closed = true)
    (fun m mv h => ⟨h.1.move mv, (h.1.effect mv).closed h.2⟩) m ⟨hs, hclosed⟩
    (.acquire (.createTable t) session :: later)
  exact ⟨by rw [Manager.table, hopen.find], hopen.isOpen, (hs.named _ _ hfind).1, hold.2⟩

/-- Two tables are dropped. -/
def bothDropped : List ManagerMove :=
  [.table "Student", .dropTable "Student" ⟨1⟩, .act 0, .act 0, .act 0,
    .table "Class", .dropTable "Class" ⟨2⟩, .act 1, .act 1, .act 1]

/-- The table `Student` is created with the rows of `Class`. -/
def studentFromClass : CreateTable :=
  ⟨none, "Student", false, [], [],
    some ⟨false, [], [⟨.schema ⟨none, "Class", none, none⟩, []⟩], none, none, [], none⟩⟩

/-- The theorem at a call that fails since the table that it reads has been closed. The table that
it would have created is then open, and another session is allowed to read it. -/
theorem reopened_by_create_student :
    (((new none).run (bothDropped ++ .acquire (.createTable studentFromClass) ⟨3⟩ ::
        List.replicate 2 (.act 2))).act 2).2 = some (.failed (.closed "Class")) ∧
      ((new none).run bothDropped).Reopened "Student" 0
        ((new none).run (bothDropped ++ .acquire (.createTable studentFromClass) ⟨3⟩ ::
          List.replicate 3 (.act 2))) ∧
      (((new none).run (bothDropped ++ .acquire (.createTable studentFromClass) ⟨3⟩ ::
        (List.replicate 3 (.act 2) ++ .acquireAccess ⟨["Student"], []⟩ ⟨4⟩ ::
          List.replicate 3 (.act 3)))).act 3).2 = some (.granted ⟨4⟩ [("Student", .read)]) :=
  ⟨by decide, reopened_by_create none bothDropped studentFromClass ⟨3⟩ 0 (List.replicate 3 (.act 2))
    (by decide) (by decide) (by simp), by decide⟩

end Manager

end SqlTree
