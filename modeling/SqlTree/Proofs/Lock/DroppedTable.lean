import SqlTree.Proofs.Lock.AllOrNothing

/-!
# Dropped tables

A table is dropped by closing its lock, which stays registered. From this step on until the table is
created again, every lock that has ever been registered under its name is closed: the last one has
just been closed, and the others have been before they were replaced. A lock that is closed admits
nobody but the call that has closed it, so whoever has the table then has had it before, and every
call that asks for it fails, whether it has looked up the lock already or not. A later call that
drops the table finds its lock closed and fails as well, however long it takes to do so.

## Main definitions

* `ManagerMove.plan?`, `Manager.begun`: the calls for tables that begin in a run, with their plans.
* `Manager.admits?`: the call that a move admits, with its lock.
* `Manager.Shuts`: the next step of a call closes a lock.
* `Manager.ShutSince`: what is kept of a table that has been closed and not been created since.
* `Manager.Inaccessible`: what cannot happen to such a table.

## Main results

* `Manager.ShutSince.move`: every move keeps it but one that creates the table.
* `Manager.dropped_until_created`: a table that has been dropped is inaccessible until it is
  created.
-/

namespace SqlTree

/-- The locks that a call needs that a move begins, in the order in which they are taken. -/
def ManagerMove.plan? : ManagerMove → Option (List (String × LockKind))
  | .acquire s _ => some (lockPlan s.access)
  | .acquireAccess access _ => some (lockPlan access)
  | _ => none

namespace Call

variable {c d : Call} {c' : Option Call} {id : Nat} {l l' : TableLock}

/-- A lock that admits a call which does not drop the table is open. -/
theorem Accounted.open_of_granted (hacc : c.Accounted id l) {h : Held}
    (hq : c.phase.queue? = some h) (hv : (l.recheck c.request).2 = some .granted)
    (hdrop : c.dropping = false) : l.state.closed = false := by
  obtain ⟨hnone, -⟩ | ⟨w, hw, hreq, -, ⟨href, -⟩ | ⟨-, hclosing, -⟩⟩ :=
    TableLock.recheck_cases l c.request
  · rw [hv] at hnone
    exact absurd hnone (Option.some_ne_none _)
  · rw [hv] at href
    exact Verdict.noConfusion (Option.some.inj href)
  · obtain ⟨-, -, hwc⟩ := hacc.waiter hq hw hreq
    rw [hwc, hdrop] at hclosing
    exact Bool.eq_false_iff.mpr fun hc => Bool.false_ne_true (hclosing hc)

/-- What a call holds after a step it has held before, or it has taken the open lock that it was
after. -/
theorem Step.held (h : c.Step id l c' l') (hacc : c.Accounted id l) (hd : d ∈ c') {k : Held}
    (hk : k ∈ d.held) :
    k ∈ c.held ∨ c.phase.target? = some k ∧ k.lock = id ∧ l.state.closed = false := by
  cases h with
  | fetch | grant | turnAway | ask | shut | join | wait | refuse | giveUp | leave =>
    obtain rfl := Option.some.inj hd
    exact .inl hk
  | enter waits lock verdict dropping =>
    obtain rfl := Option.some.inj hd
    refine (List.mem_append.mp hk).imp_right fun hk => ?_
    obtain rfl := List.mem_singleton.mp hk
    exact ⟨by rw [waits]; rfl, lock, hacc.open_of_granted (by rw [waits]; rfl) verdict dropping⟩
  | giveBack phase newest =>
    obtain rfl := Option.some.inj hd
    exact .inl (newest ▸ List.mem_append_left _ hk)
  | drop | finish => exact nomatch hd

/-- Whether a call is about to close a lock, or ends. -/
def ShutsOrEnds (c : Call) (id : Nat) : Prop :=
  c.phase = .shutting id ∨ ∃ error, c.phase = .ending error

/-- A call that finds the lock closed which it is about to close can only end. -/
theorem Step.shutsOrEnds {i : Nat} (h : c.Step id l c' l') (hc : c.ShutsOrEnds i)
    (hclosed : i = id → l.state.closed = true) (hd : d ∈ c') : d.ShutsOrEnds i := by
  cases h with
  | turnAway =>
    obtain rfl := Option.some.inj hd
    exact .inr ⟨_, rfl⟩
  | giveBack phase =>
    obtain rfl := Option.some.inj hd
    exact .inr ⟨_, phase⟩
  | shut phase isOpen =>
    rcases hc with hp | ⟨error, hp⟩
    · rw [phase, Phase.shutting.injEq] at hp
      exact absurd ((hclosed hp.symm).symm.trans isOpen) Bool.noConfusion
    · exact absurd (phase.symm.trans hp) Phase.noConfusion
  | finish => exact nomatch hd
  | fetch phase | grant phase | ask phase | join phase | leave phase =>
    simp [ShutsOrEnds, phase] at hc
  | wait waits | refuse waits | enter waits | drop waits | giveUp waits =>
    simp [ShutsOrEnds, waits] at hc

end Call

namespace Manager

variable {m m' : Manager} {name : String} {id : Nat}

/-! ### Locks that have been closed -/

/-- A lock that has been closed stays closed. -/
theorem Effect.closed {request : Option Nat} (he : m.Effect m' request)
    (h : (m.lock id).state.closed = true) : (m'.lock id).state.closed = true := by
  cases he with
  | quiet locks => rwa [locks.state]
  | begins locks => rwa [locks.state]
  | steps locks mine before after step range result => exact closed_steps locks step range result h

/-- A lock keeps its name. -/
theorem Effect.name_eq {request : Option Nat} (he : m.Effect m' request)
    (hid : id < m.locks.length) : m'.name id = m.name id := by
  cases he with
  | quiet locks => exact locks.name id hid
  | begins locks => exact locks.name id hid
  | steps locks mine before after step range result =>
    rw [name_of_locks step range result]
    exact locks.name id hid

/-- What a party holds after a move it has held before, or it has taken a lock that was open. -/
theorem Effect.held {request : Option Nat} (he : m.Effect m' request) (hs : m.Sound) (hx : m.Exact)
    {d : Call} (hd : d ∈ m'.parties) {k : Held} (hk : k ∈ d.held) :
    (∃ c ∈ m.parties, c.request = d.request ∧ k ∈ c.held) ∨
      k.lock < m.locks.length ∧ (m.lock k.lock).state.closed = false := by
  cases he with
  | quiet locks parties => exact .inl ⟨d, parties.mem_iff.mp hd, rfl, hk⟩
  | begins locks parties next request held =>
    rcases List.mem_cons.mp (parties.mem_iff.mp hd) with rfl | hd
    · rw [held] at hk
      exact absurd hk List.not_mem_nil
    · exact .inl ⟨d, hd, rfl, hk⟩
  | @steps m₁ c c' id l others locks mine before after step range result =>
    have hc : c ∈ m.parties := before.mem_iff.mpr List.mem_cons_self
    rcases List.mem_append.mp (after.mem_iff.mp hd) with hd | hd
    · have hd' := Option.mem_toList.mp hd
      rcases step.held (hx.accounted hs locks hc id) hd' hk with hk | ⟨htarget, rfl, hopen⟩
      · exact .inl ⟨c, hc, (step.request d hd').symm, hk⟩
      · refine .inr ⟨hs.lock_lt hc ?_, locks.state k.lock ▸ hopen⟩
        rw [htarget]
        exact List.mem_append_right _ (List.mem_singleton_self k)
    · exact .inl ⟨d, before.mem_iff.mpr (List.mem_cons_of_mem _ hd), rfl, hk⟩

/-- If the lock registered under a name has been closed, so have all locks of the name. -/
theorem Sound.closed_of_name (hs : m.Sound) (hf : m.find? name = some id)
    (hc : (m.lock id).state.closed = true) {i : Nat} (hi : i < m.locks.length)
    (hname : m.name i = name) : (m.lock i).state.closed = true := by
  rcases hs.replaced i hi with hcurrent | hclosed
  · have hname' : (m.lock i).name = name := hname
    rw [hname', hf] at hcurrent
    exact Option.some.inj hcurrent ▸ hc
  · exact hclosed

/-- A name keeps its lock as long as its table is not created. -/
theorem Sound.find?_move (hs : m.Sound) {mv : ManagerMove} (hmv : mv.creates? ≠ some name)
    (hf : m.find? name = some id) : (m.move mv).find? name = some id := by
  refine (hs.leads_move mv).find name id ?_
  rw [Manager.created]
  split
  · next other hother =>
    have hne : other ≠ name := fun heq => hmv (heq ▸ hother)
    rw [Manager.createTable]
    split
    · split
      · rw [find?_register, if_neg hne]
        exact hf
      · exact hf
    · rw [find?_register, if_neg hne]
      exact hf
  · exact hf

/-! ### While a table is closed -/

/-- What is kept of a table whose registered lock has been closed in `m`, and which has not been
created since. -/
structure ShutSince (m : Manager) (name : String) (id : Nat) (m' : Manager) : Prop where
  regular : m'.Regular
  find : m'.find? name = some id
  closed : (m'.lock id).state.closed = true
  /-- Whoever has the table has had it all the time. -/
  held : ∀ d ∈ m'.parties, ∀ k ∈ d.held, m'.name k.lock = name →
    ∃ c ∈ m.parties, c.request = d.request ∧ k ∈ c.held ∧ m.name k.lock = name

theorem Regular.shutSince (h : m.Regular) (hf : m.find? name = some id)
    (hc : (m.lock id).state.closed = true) : m.ShutSince name id m :=
  ⟨h, hf, hc, fun d hd _ hk hname => ⟨d, hd, rfl, hk, hname⟩⟩

/-- Every move but one that creates the table keeps it closed. -/
theorem ShutSince.move (h : m.ShutSince name id m') {mv : ManagerMove}
    (hmv : mv.creates? ≠ some name) : m.ShutSince name id (m'.move mv) := by
  have hs := h.regular.sound
  have he := hs.effect mv
  refine ⟨h.regular.move mv, hs.find?_move hmv h.find, he.closed h.closed,
    fun d hd k hk hname => ?_⟩
  rcases he.held hs h.regular.exact hd hk with ⟨c, hc, hreq, hk⟩ | ⟨hlt, hopen⟩
  · have hlt := hs.lock_lt hc (List.mem_append_left _ hk)
    rw [he.name_eq hlt] at hname
    obtain ⟨b, hb, hbc, hbk⟩ := h.held c hc k hk hname
    exact ⟨b, hb, hbc.trans hreq, hbk⟩
  · rw [he.name_eq hlt] at hname
    have hclosed := hs.closed_of_name h.find h.closed hlt hname
    exact absurd (hclosed.symm.trans hopen) Bool.noConfusion

theorem ShutSince.run (h : m.ShutSince name id m') {time : List ManagerMove}
    (htime : ∀ mv ∈ time, mv.creates? ≠ some name) : m.ShutSince name id (m'.run time) := by
  induction time generalizing m' with
  | nil => exact h
  | cons mv time ih =>
    exact ih (h.move (htime mv List.mem_cons_self)) fun mv' hmv =>
      htime mv' (List.mem_cons_of_mem _ hmv)

/-! ### Admissions -/

/-- The call that a move admits, with its lock. -/
def admits? (m : Manager) : ManagerMove → Option (Call × Held)
  | .act request =>
    match m.call? request with
    | some c =>
      match c.phase with
      | .waiting h _ =>
        if ((m.lock h.lock).recheck request).2 = some .granted then some (c, h) else none
      | _ => none
    | none => none
  | _ => none

theorem admits?_eq_some {mv : ManagerMove} {c : Call} {h : Held}
    (hmv : m.admits? mv = some (c, h)) :
    c ∈ m.calls ∧ (∃ deadline, c.phase = .waiting h deadline) ∧
      ((m.lock h.lock).recheck c.request).2 = some .granted := by
  cases mv with
  | act request =>
    rw [admits?] at hmv
    split at hmv
    · next b hb =>
      obtain ⟨hmem, rfl⟩ := call?_eq_some hb
      split at hmv
      · next k deadline hp =>
        simp only [Option.ite_none_right_eq_some, Option.some.injEq, Prod.mk.injEq] at hmv
        obtain ⟨hg, rfl, rfl⟩ := hmv
        exact ⟨hmem, ⟨deadline, hp⟩, hg⟩
      · cases hmv
    · cases hmv
  | _ => cases hmv

/-- Nobody is admitted to a lock of the table but a call that drops it. -/
theorem ShutSince.dropping_of_admits (h : m.ShutSince name id m') {mv : ManagerMove} {c : Call}
    {k : Held} (hmv : m'.admits? mv = some (c, k)) (hname : m'.name k.lock = name) :
    c.dropping = true := by
  obtain ⟨hmem, ⟨deadline, hp⟩, hg⟩ := admits?_eq_some hmv
  have hs := h.regular.sound
  have hc := mem_parties_of_call hmem
  have hlt : k.lock < m'.locks.length := by
    refine hs.lock_lt hc (List.mem_append_right _ ?_)
    rw [hp]
    exact List.mem_singleton_self k
  by_contra hdrop
  have hacc := h.regular.exact.accounted hs (.refl m') hc k.lock
  have hopen := hacc.open_of_granted (by rw [hp]; rfl) hg (Bool.eq_false_iff.mpr hdrop)
  have hclosed := hs.closed_of_name h.find h.closed hlt hname
  exact absurd (hclosed.symm.trans hopen) Bool.noConfusion

/-! ### Calls for tables -/

/-- The calls for tables that begin in a run, by their numbers, with their plans. -/
def begun : Manager → List ManagerMove → List (Nat × List (String × LockKind))
  | _, [] => []
  | m, mv :: moves => (mv.plan?.map fun plan => (m.next, plan)).toList ++ begun (m.move mv) moves

theorem Sound.owned_begin (hs : m.Sound) {mv : ManagerMove} {plan : List (String × LockKind)}
    (h : mv.plan? = some plan) : ∃ session, (m.move mv).Owned m.next session plan := by
  cases mv with
  | acquire s session =>
    obtain rfl := Option.some.inj h
    refine ⟨session, ?_⟩
    cases s with
    | createTable t =>
      have howned := ((hs.createTable t.target).owned_beginAcquire (Statement.createTable t).access
        session).1
      rwa [(parties_createTable m t.target).2] at howned
    | _ => exact (hs.owned_beginAcquire _ session).1
  | acquireAccess access session =>
    obtain rfl := Option.some.inj h
    exact ⟨session, (hs.owned_beginAcquire access session).1⟩
  | _ => cases h

/-- A call owns its plan after the run in which it has begun. -/
theorem Sound.owned_of_begun (hs : m.Sound) {moves : List ManagerMove} {request : Nat}
    {plan : List (String × LockKind)} (h : (request, plan) ∈ m.begun moves) :
    ∃ session, (m.run moves).Owned request session plan := by
  induction moves generalizing m with
  | nil => exact absurd h List.not_mem_nil
  | cons mv moves ih =>
    rw [begun] at h
    rcases List.mem_append.mp h with h | h
    · obtain ⟨plan', hplan, heq⟩ := Option.map_eq_some_iff.mp (Option.mem_toList.mp h)
      obtain ⟨rfl, rfl⟩ := Prod.mk.inj heq
      obtain ⟨session, howned⟩ := hs.owned_begin hplan
      exact ⟨session, howned.run (hs.move mv) moves⟩
    · exact ih (hs.move mv) h

/-- A call that ends well has the table in its plan only if it has had it all the time. -/
theorem ShutSince.not_granted (h : m.ShutSince name id m') {request : Nat} {session : Session}
    {plan : List (String × LockKind)} (howned : m'.Owned request session plan) {kind : LockKind}
    (hplan : (name, kind) ∈ plan)
    (hheld : ∀ c ∈ m.parties, c.request = request → ∀ k ∈ c.held, m.name k.lock ≠ name)
    (σ : Session) (tables : List (String × LockKind)) :
    (m'.act request).2 ≠ some (.granted σ tables) := by
  intro hact
  obtain ⟨c, hc, hreq, ⟨hp, hrest, -⟩ | hdropped | ⟨⟨error, hfailed⟩, -⟩⟩ := act_result hact
  rotate_left
  · cases hdropped
  · cases hfailed
  have hmem := mem_parties_of_call hc
  have hroute := howned.route c hmem hreq (by rw [hp]; rfl)
  rw [Call.route_of_none (by rw [hp]; rfl), hrest, List.append_nil] at hroute
  obtain ⟨k, hk, hnamed⟩ := List.mem_map.mp (hroute ▸ hplan)
  obtain ⟨b, hb, hbc, hbk, hbname⟩ := h.held c hmem k hk (Prod.mk.inj hnamed).1
  exact hheld b hb (hbc.trans hreq) k hbk hbname

/-! ### Calls that drop the table again -/

/-- A call that is about to close a lock which has been closed before, or ends. -/
structure Refused (m : Manager) (request id : Nat) : Prop where
  begun : request < m.next
  closed : (m.lock id).state.closed = true
  phase : ∀ c ∈ m.parties, c.request = request → c.ShutsOrEnds id

theorem Refused.effect {request : Nat} (h : m.Refused request id) {mine : Option Nat}
    (he : m.Effect m' mine) : m'.Refused request id := by
  refine ⟨Nat.lt_of_lt_of_le h.begun he.next_le, he.closed h.closed, fun d hd hreq => ?_⟩
  cases he with
  | quiet locks parties => exact h.phase d (parties.mem_iff.mp hd) hreq
  | begins locks parties next hnew =>
    rcases List.mem_cons.mp (parties.mem_iff.mp hd) with rfl | hd
    · exact absurd (hnew.symm.trans hreq) (Nat.ne_of_gt h.begun)
    · exact h.phase d hd hreq
  | @steps m₁ c c' i l others locks mine before after step range result =>
    rcases List.mem_append.mp (after.mem_iff.mp hd) with hd | hd
    · have hd' := Option.mem_toList.mp hd
      have hc := h.phase c (before.mem_iff.mpr List.mem_cons_self) (step.request d hd' ▸ hreq)
      refine step.shutsOrEnds hc (fun hi => ?_) hd'
      rw [← hi, locks.state]
      exact h.closed
    · exact h.phase d (before.mem_iff.mpr (List.mem_cons_of_mem _ hd)) hreq

/-- Only a call that waits drops a table with its next step. -/
theorem waiting_of_dropped {request : Nat} (h : (m.act request).2 = some .dropped) :
    ∃ c ∈ m.calls, c.request = request ∧ ∃ k deadline, c.phase = .waiting k deadline := by
  cases hcall : m.call? request with
  | none => simp [act, hcall] at h
  | some c =>
    obtain ⟨hc, hreq⟩ := call?_eq_some hcall
    cases hp : c.phase with
    | waiting k deadline => exact ⟨c, hc, hreq, k, deadline, hp⟩
    | ready =>
      simp only [act, hcall, hp, fetch, grant] at h
      split at h <;> cases h
    | ending error =>
      simp only [act, hcall, hp, finish] at h
      split at h
      · cases h
      · cases error <;> cases h
    | asking | shutting | closing | leaving => simp [act, hcall, hp] at h

theorem Refused.not_dropped {request : Nat} (h : m.Refused request id) :
    (m.act request).2 ≠ some .dropped := by
  intro hact
  obtain ⟨c, hc, hreq, k, deadline, hp⟩ := waiting_of_dropped hact
  rcases h.phase c (mem_parties_of_call hc) hreq with hs | ⟨error, hs⟩
  · exact absurd (hp.symm.trans hs) Phase.noConfusion
  · exact absurd (hp.symm.trans hs) Phase.noConfusion

/-- A call that drops a table begins with the lock registered under its name. -/
theorem move_dropTable (hf : m.find? name = some id) (session : Session) :
    m.move (.dropTable name session) = m.beginCall session true [] (.shutting id) := by
  rw [Manager.move, beginDrop, hf]

/-- The call that has begun, among the others. -/
theorem Sound.eq_of_beginCall (hs : m.Sound) {session : Session} {dropping : Bool}
    {rest : List (String × LockKind)} {phase : Phase} {c : Call}
    (hc : c ∈ (m.beginCall session dropping rest phase).parties) (hreq : c.request = m.next) :
    c = ⟨m.next, session, dropping, [], rest, phase⟩ := by
  rw [Manager.beginCall, parties, List.append_assoc] at hc
  exact (List.mem_cons.mp (List.perm_middle.mem_iff.mp hc)).resolve_right fun hold =>
    Nat.ne_of_lt (hs.request_lt hold) hreq

/-- A call that begins to drop the table will not get its lock. -/
theorem ShutSince.refused (h : m.ShutSince name id m') (session : Session) :
    (m'.move (.dropTable name session)).Refused m'.next id := by
  rw [move_dropTable h.find]
  refine ⟨Nat.lt_succ_self _, h.closed, fun c hc hreq => ?_⟩
  rw [h.regular.sound.eq_of_beginCall hc hreq]
  exact .inl rfl

theorem ShutSince.not_dropped (h : m.ShutSince name id m') (session : Session)
    (later : List ManagerMove) :
    (((m'.move (.dropTable name session)).run later).act m'.next).2 ≠ some .dropped := by
  have hs := h.regular.sound.move (.dropTable name session)
  exact (run_induction (P := fun m => m.Sound ∧ m.Refused m'.next id)
    (fun _ mv h => ⟨h.1.move mv, h.2.effect (h.1.effect mv)⟩) _ ⟨hs, h.refused session⟩
    later).2.not_dropped

/-! ### From the drop of a table to its creation -/

/-- The next step of a call closes a lock. -/
def Shuts (m : Manager) (request id : Nat) : Prop :=
  ∃ c, m.call? request = some c ∧ c.phase = .shutting id ∧ (m.lock id).state.closed = false

/-- What cannot happen to a table in a state `m'`, whose lock `id` has been closed in `m`. -/
structure Inaccessible (m : Manager) (name : String) (id : Nat)
    (begun : List (Nat × List (String × LockKind))) (m' : Manager) : Prop where
  closed : (m'.lock id).state.closed = true
  table : m'.table name = (m', id)
  get : m'.perform (.get name) = (m', ⟨.lock id, []⟩)
  /-- No lock of the name admits a call, unless the call drops the table. -/
  admitted : ∀ mv c k, m'.admits? mv = some (c, k) → m'.name k.lock = name → c.dropping = true
  /-- No call that needs the table ends well, unless it has had the table since. -/
  granted : ∀ request plan kind, (request, plan) ∈ begun → (name, kind) ∈ plan →
    (∀ c ∈ m.parties, c.request = request → ∀ k ∈ c.held, m.name k.lock ≠ name) →
    ∀ session tables, (m'.act request).2 ≠ some (.granted session tables)
  /-- No call that now begins to drop the table ever ends well. -/
  dropped : ∀ session later,
    (((m'.move (.dropTable name session)).run later).act m'.next).2 ≠ some .dropped

/-- The step that closes a lock. -/
theorem Regular.shutSince_of_shuts (h : m.Regular) {request : Nat} (hshuts : m.Shuts request id) :
    (m.move (.act request)).ShutSince (m.name id) id (m.move (.act request)) := by
  obtain ⟨c, hcall, hp, hopen⟩ := hshuts
  obtain ⟨hc, rfl⟩ := call?_eq_some hcall
  have hfits := h.sound.fits c hc
  rw [hp] at hfits
  have hfind : m.find? (m.name id) = some id :=
    (h.sound.replaced id hfits.2).resolve_right (by simp [hopen])
  refine (h.move (.act c.request)).shutSince (h.sound.find?_move nofun hfind) ?_
  have hbegin : (m.lock id).beginClose? =
      some { m.lock id with state := (m.lock id).state.close }.notifyAll :=
    if_neg (Bool.eq_false_iff.mp hopen)
  have hact : (m.act c.request).1 =
      (m.setLock id { m.lock id with state := (m.lock id).state.close }.notifyAll).turn c
        (.closing id) := by
    simp only [act, hcall, hp, shut, hbegin]
  have hlock := (lock_setLock (m := m)
    (l := { m.lock id with state := (m.lock id).state.close }.notifyAll) (.inl hfits.2) id).trans
    (if_pos rfl)
  rw [Manager.move, hact]
  exact congrArg (·.state.closed) hlock

/-- From the step that closes the lock of a table until the table is created again, the table is
inaccessible. -/
theorem dropped_until_created (timeout : Option UInt64) (before : List ManagerMove)
    (request id : Nat) (time : List ManagerMove)
    (hshuts : ((new timeout).run before).Shuts request id)
    (htime : ∀ mv ∈ time, mv.creates? ≠ some (((new timeout).run before).name id)) :
    Inaccessible ((new timeout).run (before ++ [.act request]))
      (((new timeout).run before).name id) id
      ((new timeout).begun (before ++ .act request :: time))
      ((new timeout).run (before ++ .act request :: time)) := by
  have hrun : (new timeout).run (before ++ .act request :: time) =
      ((new timeout).run (before ++ [.act request])).run time := by
    rw [← run_append, List.append_assoc, List.singleton_append]
  have hsince := (regular_run timeout before).shutSince_of_shuts hshuts
  rw [show ((new timeout).run before).move (.act request) =
    (new timeout).run (before ++ [.act request]) by rw [run_append]; rfl] at hsince
  have h := hsince.run htime
  rw [← hrun] at h
  refine ⟨h.closed, by rw [table, h.find], by rw [perform, h.find],
    fun mv c k => h.dropping_of_admits, fun q plan kind hq hplan hheld => ?_, h.not_dropped⟩
  obtain ⟨session, howned⟩ := (sound_new timeout).owned_of_begun hq
  exact h.not_granted howned hplan hheld

/-- Session 1 reads a table, session 2 waits to write it, and session 3 is about to close it. -/
def readAndAwaited : List ManagerMove :=
  .acquireAccess ⟨["Student"], []⟩ ⟨1⟩ :: List.replicate 4 (.act 0) ++
    [.acquireAccess ⟨[], ["Student"]⟩ ⟨2⟩, .act 1, .act 1, .dropTable "Student" ⟨3⟩]

/-- Session 3 waits for session 1; meanwhile session 4 asks to read and session 2 is refused. Then
session 1 gives its permit back, session 3 is admitted, and another table is created. -/
def whileClosed : List ManagerMove :=
  [.act 2, .acquireAccess ⟨["Student"], []⟩ ⟨4⟩, .act 3, .act 1, .act 3, .release 0, .act 0, .act 0,
    .act 2, .createTable "Class"]

/-- The theorem at a table that is dropped while it is read and somebody waits to write it. -/
theorem dropped_until_created_student :
    (((new none).run (readAndAwaited ++ .act 2 :: whileClosed)).act 1).2 =
      some (.failed (.closed "Student")) ∧
    Inaccessible ((new none).run (readAndAwaited ++ [.act 2])) "Student" 0
      ((new none).begun (readAndAwaited ++ .act 2 :: whileClosed))
      ((new none).run (readAndAwaited ++ .act 2 :: whileClosed)) := by
  have hname : ((new none).run readAndAwaited).name 0 = "Student" := by decide
  have hshuts : ((new none).run readAndAwaited).Shuts 2 0 :=
    ⟨⟨2, ⟨3⟩, true, [], [], .shutting 0⟩, by decide, rfl, by decide⟩
  have h := dropped_until_created none readAndAwaited 2 0 whileClosed hshuts
    (by rw [hname]; decide)
  rw [hname] at h
  exact ⟨by decide, h⟩

end Manager

end SqlTree
