import SqlTree.Proofs.Lock.ManagerSound

/-!
# Exclusion by name

Two permits on one lock are never in conflict. Permits name tables, though, and a name may have had
several locks: creating a table replaces its lock as soon as that has been closed, and dropping a
table closes its lock before it waits for those who hold it. So a lock may be replaced while it is
held, and then its holders and those of the new lock know nothing of each other.

This is the only way in which two permits on one name can be in conflict. If no creation in a run
replaces a lock that is held, names are as safe as locks. If the lock of a name has been closed
while a permit holds it, the table can be created and acquired for writing at once.

## Main definitions

* `Manager.ExclusiveOn`: no two permits are in conflict on a name.
* `Manager.ReplacesHeld`, `Manager.ReplacesNoHeld`: a creation replaces a lock that is held.
* `Manager.recreation`: the moves that create a table and acquire it.

## Main results

* `Manager.Sound.kind_ne_write`: permits on one lock are not in conflict.
* `Manager.exclusiveOn_run`: permits on one name are in conflict only after a creation that replaces
  a lock that is held, and they can be after each that replaces one that a permit holds.
-/

namespace SqlTree

namespace Manager

variable {m m' : Manager} {name : String}

/-! ### Permits on one lock -/

/-- Holders of one lock are not in conflict. -/
theorem Sound.kind_ne_write (hs : m.Sound) {p q : Permit} (hp : p ∈ m.holdings)
    (hq : q ∈ m.holdings) (hne : p.request ≠ q.request) {h k : Held} (hh : h ∈ p.held)
    (hk : k ∈ q.held) (hlock : h.lock = k.lock) : h.kind ≠ .write := by
  intro hw
  have hex := hs.exclusive h.lock
  have hpw := hs.admitted hp hh
  have hqk := hs.admitted hq hk
  rw [hw] at hpw
  rw [← hlock] at hqk
  have hmem : p.session ∈ (m.lock h.lock).state.writing := List.count_pos_iff.mp hpw
  cases hkind : k.kind with
  | read =>
    rw [hkind] at hqk
    have hmem' : q.session ∈ (m.lock h.lock).state.reading := List.count_pos_iff.mp hqk
    rw [hex.reading_eq_nil (List.ne_nil_of_mem hmem)] at hmem'
    exact absurd hmem' List.not_mem_nil
  | write =>
    rw [hkind] at hqk
    have hmem' : q.session ∈ (m.lock h.lock).state.writing := List.count_pos_iff.mp hqk
    have hsession : p.session = q.session := hex.eq_of_mem_writing hmem hmem'
    have hheld : k = h := by
      obtain ⟨id, kind⟩ := h
      obtain ⟨id', kind'⟩ := k
      rw [Held.mk.injEq]
      exact ⟨hlock.symm, hkind.trans hw.symm⟩
    -- The session has been admitted once, but the two permits count it twice.
    have htwo := two_le_count hp hq hne hsession hh (hheld ▸ hk)
    have hle : m.count p.session h ≤ ((m.lock h.lock).state.active h.kind).count p.session :=
      hs.counted h.lock h.kind p.session
    rw [hw] at hle
    have hlen : ((m.lock h.lock).state.active .write).length ≤ 1 := hex.writing_length
    have hcount : ((m.lock h.lock).state.active .write).count p.session ≤ _ := List.count_le_length
    omega

/-! ### Locks that are replaced while they are held -/

/-- No two permits of different calls hold a table, one of them for writing. -/
def ExclusiveOn (m : Manager) (name : String) : Prop :=
  ∀ p ∈ m.permits, ∀ q ∈ m.permits, p.request ≠ q.request →
    ∀ h ∈ p.held, ∀ k ∈ q.held, (m.lock h.lock).name = name → (m.lock k.lock).name = name →
      h.kind ≠ .write

/-- A move creates the table `name` and replaces its lock, which is still held. -/
def ReplacesHeld (m : Manager) (name : String) (mv : ManagerMove) : Prop :=
  mv.creates? = some name ∧ ∃ p ∈ m.holdings, ∃ h ∈ p.held,
    m.find? name = some h.lock ∧ (m.lock h.lock).state.closed = true

/-- No move of a run replaces a lock of `name` that is held. -/
def ReplacesNoHeld (name : String) : Manager → List ManagerMove → Prop
  | _, [] => True
  | m, mv :: moves => ¬ m.ReplacesHeld name mv ∧ ReplacesNoHeld name (m.move mv) moves

instance (m : Manager) (name : String) (mv : ManagerMove) : Decidable (m.ReplacesHeld name mv) :=
  inferInstanceAs (Decidable (_ ∧ ∃ p ∈ m.holdings, ∃ h ∈ p.held, _))

/-- Runs can be looked through for replacements. -/
def decideReplacesNoHeld (name : String) :
    (m : Manager) → (moves : List ManagerMove) → Decidable (ReplacesNoHeld name m moves)
  | _, [] => .isTrue trivial
  | m, mv :: moves =>
    have := decideReplacesNoHeld name (m.move mv) moves
    inferInstanceAs (Decidable (¬ m.ReplacesHeld name mv ∧ ReplacesNoHeld name (m.move mv) moves))

instance (name : String) (m : Manager) (moves : List ManagerMove) :
    Decidable (ReplacesNoHeld name m moves) :=
  decideReplacesNoHeld name m moves

/-- Who holds a lock of `name` holds the one that is registered. -/
def Current (m : Manager) (name : String) : Prop :=
  ∀ p ∈ m.holdings, ∀ h ∈ p.held, (m.lock h.lock).name = name → m.find? name = some h.lock

theorem Current.leads (hc : m.Current name) (hs : m.Sound) (hl : m.Leads m') :
    m'.Current name := by
  intro p hp h hh hname
  rcases hl.held p hp h hh with ⟨q, hq, hk⟩ | hf
  · rw [hl.name h.lock (lt_of_active (hs.admitted hq hk))] at hname
    exact hl.find _ _ (hc q hq h hk hname)
  · rwa [hname] at hf

theorem Current.register (hc : m.Current name) (hs : m.Sound) {other : String}
    (h : other = name → ∀ p ∈ m.holdings, ∀ h ∈ p.held, m.find? name ≠ some h.lock) :
    (m.register other).1.Current name := by
  intro p hp k hk hname
  have hlt := lt_of_active (hs.admitted hp hk)
  rw [lock_register, if_neg (by omega)] at hname
  have hf := hc p hp k hk hname
  rw [find?_register, if_neg fun heq => h heq p hp k hk hf]
  exact hf

theorem Current.created (hc : m.Current name) (hs : m.Sound) {mv : ManagerMove}
    (h : ¬ m.ReplacesHeld name mv) : (m.created mv).Current name := by
  rw [Manager.created]
  split
  · next other hmv =>
    rw [createTable]
    split
    · next id hid =>
      split
      · next hclosed =>
        refine hc.register hs ?_
        rintro rfl p hp k hk hf
        rw [hid] at hf
        obtain rfl := Option.some.inj hf
        exact h ⟨hmv, p, hp, k, hk, hid, hclosed⟩
      · exact hc
    · next hnone =>
      refine hc.register hs ?_
      rintro rfl p hp k hk hf
      rw [hnone] at hf
      cases hf
  · exact hc

theorem Current.run (hc : m.Current name) (hs : m.Sound) {moves : List ManagerMove}
    (h : ReplacesNoHeld name m moves) : (m.run moves).Current name := by
  induction moves generalizing m with
  | nil => exact hc
  | cons mv moves ih =>
    exact ih ((hc.created hs h.1).leads (hs.created mv) (hs.leads_move mv)) (hs.move mv) h.2

theorem Current.exclusiveOn (hc : m.Current name) (hs : m.Sound) : m.ExclusiveOn name := by
  intro p hp q hq hne h hh k hk hname hname'
  have hp' : p ∈ m.holdings := List.mem_append_right _ hp
  have hq' : q ∈ m.holdings := List.mem_append_right _ hq
  have hlock : some h.lock = some k.lock :=
    (hc p hp' h hh hname).symm.trans (hc q hq' k hk hname')
  exact hs.kind_ne_write hp' hq' hne hh hk (Option.some.inj hlock)

/-! ### Locks that have been replaced -/

theorem call?_beginCall (hs : m.Sound) (session : Session) (dropping : Bool)
    (rest : List (String × LockKind)) (phase : Phase) :
    (m.beginCall session dropping rest phase).call? m.next =
      some ⟨m.next, session, dropping, [], rest, phase⟩ := by
  have hnone : m.calls.find? (fun d => d.request == m.next) = none := by
    rw [List.find?_eq_none]
    intro d hd heq
    have hmem : d.request ∈ m.holdings.map Permit.request := by
      rw [map_request_holdings]
      exact List.mem_append_left _ (List.mem_map_of_mem hd)
    exact Nat.lt_irrefl _ (beq_iff_eq.mp heq ▸ hs.fresh _ hmem)
  rw [call?, beginCall, List.find?_append, hnone]
  simp

section

variable {request id : Nat} {c : Call} {kind : LockKind} {rest : List (String × LockKind)}
  {h : Held} {l : TableLock} {deadline : Option Nat}

theorem act_fetch (hc : m.call? request = some c) (hp : c.phase = .ready)
    (hrest : c.rest = (name, kind) :: rest) (hf : m.find? name = some id) :
    (m.act request).1 = m.setCall { c with rest, phase := .asking ⟨id, kind⟩ } := by
  have htable : m.table name = (m, id) := by rw [Manager.table, hf]
  simp only [Manager.act, hc, hp, Manager.fetch, hrest, htable, Manager.turn]

theorem act_ask (hc : m.call? request = some c) (hp : c.phase = .asking h)
    (hl : (m.lock h.lock).request? c.request h.kind c.session = some l) :
    (m.act request).1 = (m.setLock h.lock l).setCall
      { c with phase := .waiting h (m.timeout.map fun ms => m.clock + ms.toNat) } := by
  simp only [Manager.act, hc, hp, Manager.ask, hl, Manager.turn]

theorem act_check (hc : m.call? request = some c) (hp : c.phase = .waiting h deadline)
    (hd : c.dropping = false) (hg : ((m.lock h.lock).recheck request).2 = some .granted) :
    (m.act request).1 = (m.setLock h.lock ((m.lock h.lock).recheck request).1).setCall
      { c with held := c.held ++ [h], phase := .ready } := by
  obtain rfl := (call?_eq_some hc).2
  simp only [Manager.act, hc, hp, Manager.check, hg, hd, Manager.turn]
  rfl

theorem act_grant (hc : m.call? request = some c) (hp : c.phase = .ready) (hrest : c.rest = []) :
    (m.act request).1.permits = insertPermit ⟨c.request, c.session, c.held⟩ m.permits := by
  simp only [Manager.act, hc, hp, Manager.fetch, hrest, Manager.grant]

end

/-- A lock that is unused lets a writer in at once. -/
theorem recheck_new (name : String) (request : Nat) (session : Session) :
    (((TableLock.new name).enqueue request .write session false).recheck request).2 =
      some .granted := by
  simp [TableLock.recheck, TableLock.waiter?, TableLock.enqueue, TableLock.new, LockState.empty,
    LockState.enqueue, LockState.setPending, LockState.pending, LockState.admit?,
    LockState.enabled, LockState.writeEnabled]

/-- A table whose lock is unused is acquired at once. -/
theorem Sound.permits_acquire (hs : m.Sound) (session : Session) {id : Nat}
    (hf : m.find? name = some id) (hnew : m.lock id = .new name) :
    (m.run (.acquireAccess ⟨[], [name]⟩ session :: List.replicate 4 (.act m.next))).permits =
      insertPermit ⟨m.next, session, [⟨id, .write⟩]⟩ m.permits := by
  have hid : id < m.locks.length := (hs.named name id hf).1
  let call : List Held → List (String × LockKind) → Phase → Call :=
    fun held rest phase => ⟨m.next, session, false, held, rest, phase⟩
  -- It looks up the lock.
  obtain ⟨m₁, hm₁⟩ : ∃ m₁, m.beginAcquire ⟨[], [name]⟩ session = m₁ := ⟨_, rfl⟩
  have hc₁ : m₁.call? m.next = some (call [] [(name, .write)] .ready) := by
    rw [← hm₁]
    exact call?_beginCall hs ..
  have hf₁ : m₁.find? name = some id := by rw [← hm₁]; exact hf
  have hact₁ : (m₁.act m.next).1 = m₁.setCall (call [] [] (.asking ⟨id, .write⟩)) :=
    act_fetch hc₁ rfl rfl hf₁
  -- It joins the queue.
  obtain ⟨m₂, hm₂⟩ : ∃ m₂, m₁.setCall (call [] [] (.asking ⟨id, .write⟩)) = m₂ := ⟨_, rfl⟩
  have hc₂ : m₂.call? m.next = some (call [] [] (.asking ⟨id, .write⟩)) := by
    rw [← hm₂]
    exact call?_setCall hc₁
  have hlock₂ : m₂.lock id = .new name := by rw [← hm₂, ← hm₁]; exact hnew
  let deadline := m₂.timeout.map fun ms => m₂.clock + ms.toNat
  let l := (TableLock.new name).enqueue m.next .write session false
  have hact₂ : (m₂.act m.next).1 =
      (m₂.setLock id l).setCall (call [] [] (.waiting ⟨id, .write⟩ deadline)) := by
    refine act_ask hc₂ rfl ?_
    rw [hlock₂]
    rfl
  -- It is admitted.
  obtain ⟨m₃, hm₃⟩ : ∃ m₃, (m₂.setLock id l).setCall
      (call [] [] (.waiting ⟨id, .write⟩ deadline)) = m₃ := ⟨_, rfl⟩
  have hc₃ : m₃.call? m.next = some (call [] [] (.waiting ⟨id, .write⟩ deadline)) := by
    rw [← hm₃]
    exact call?_setCall hc₂
  have hlock₃ : m₃.lock id = l := by
    have hlt : id < m₂.locks.length := by rw [← hm₂, ← hm₁]; exact hid
    rw [← hm₃]
    exact (lock_setLock (.inl hlt) id).trans (if_pos rfl)
  have hact₃ : (m₃.act m.next).1 =
      (m₃.setLock id (l.recheck m.next).1).setCall (call [⟨id, .write⟩] [] .ready) := by
    rw [act_check hc₃ rfl rfl (by rw [hlock₃]; exact recheck_new ..), hlock₃]
    rfl
  -- It has all its locks.
  obtain ⟨m₄, hm₄⟩ : ∃ m₄, (m₃.setLock id (l.recheck m.next).1).setCall
      (call [⟨id, .write⟩] [] .ready) = m₄ := ⟨_, rfl⟩
  have hc₄ : m₄.call? m.next = some (call [⟨id, .write⟩] [] .ready) := by
    rw [← hm₄]
    exact call?_setCall hc₃
  have hact₄ : (m₄.act m.next).1.permits =
      insertPermit ⟨m.next, session, [⟨id, .write⟩]⟩ m₄.permits := act_grant hc₄ rfl rfl
  have hpermits : m₄.permits = m.permits := by rw [← hm₄, ← hm₃, ← hm₂, ← hm₁]; rfl
  simp only [List.replicate, run_cons, run_nil, Manager.move, hm₁, hact₁, hm₂, hact₂, hm₃, hact₃,
    hm₄, hact₄, hpermits]

theorem mem_insertPermit {p q : Permit} {ps : List Permit} :
    q ∈ insertPermit p ps ↔ q = p ∨ q ∈ ps := by
  induction ps with
  | nil => simp [insertPermit]
  | cons r ps ih =>
    rw [insertPermit]
    split
    · exact List.mem_cons
    · rw [List.mem_cons, ih, List.mem_cons]
      tauto

/-- The moves that create a table and acquire it for writing. -/
def recreation (m : Manager) (name : String) (session : Session) : List ManagerMove :=
  .createTable name :: .acquireAccess ⟨[], [name]⟩ session :: List.replicate 4 (.act m.next)

/-- If the lock of a table has been closed while a permit holds it, the table can be created and
acquired at once, so that the new permit is in conflict with the old one. -/
theorem Sound.not_exclusiveOn_recreation (hs : m.Sound) {p : Permit} (hp : p ∈ m.permits) {h : Held}
    (hh : h ∈ p.held) (hf : m.find? name = some h.lock)
    (hclosed : (m.lock h.lock).state.closed = true) (session : Session) :
    ¬ (m.run (m.recreation name session)).ExclusiveOn name := by
  have hcreate : (m.createTable name).1 = (m.register name).1 := by
    rw [Manager.createTable, hf]
    simp only [hclosed, if_true]
  have hs' : (m.register name).1.Sound := hcreate ▸ hs.createTable name
  have hf' : (m.register name).1.find? name = some m.locks.length := by
    rw [find?_register, if_pos rfl]
  have hnew : (m.register name).1.lock m.locks.length = .new name := by
    rw [lock_register, if_pos rfl]
  have hrun : m.run (m.recreation name session) = (m.register name).1.run
      (.acquireAccess ⟨[], [name]⟩ session :: List.replicate 4 (.act m.next)) := by
    rw [recreation, run_cons, Manager.move, hcreate]
  have hpermits : (m.run (m.recreation name session)).permits =
      insertPermit ⟨m.next, session, [⟨m.locks.length, .write⟩]⟩ m.permits := by
    rw [hrun]
    exact hs'.permits_acquire session hf' hnew
  have hleads : (m.register name).1.Leads (m.run (m.recreation name session)) := by
    rw [hrun]
    refine hs'.leads_run fun mv hmv => ?_
    rcases List.mem_cons.mp hmv with rfl | hmv
    · rfl
    · rw [List.eq_of_mem_replicate hmv]
      rfl
  obtain ⟨hlt, hname⟩ := hs.named name h.lock hf
  have hlen : (m.register name).1.locks.length = m.locks.length + 1 := List.length_append
  have hold : ((m.run (m.recreation name session)).lock h.lock).name = name := by
    rw [hleads.name h.lock (by omega), lock_register, if_neg (by omega), hname]
  have hnewname : ((m.run (m.recreation name session)).lock m.locks.length).name = name := by
    rw [hleads.name m.locks.length (by omega), hnew]
    rfl
  have hfresh : p.request < m.next :=
    hs.fresh _ (List.mem_map_of_mem (List.mem_append_right _ hp))
  intro hex
  rw [ExclusiveOn, hpermits] at hex
  exact hex ⟨m.next, session, [⟨m.locks.length, .write⟩]⟩ (mem_insertPermit.mpr (.inl rfl)) p
    (mem_insertPermit.mpr (.inr hp)) (Nat.ne_of_gt hfresh) _ (List.mem_singleton_self _) h hh
    hnewname hold rfl

/-- **Exclusion by name.** After every run in which no creation replaces a lock of `name` that is
held, no two permits are in conflict on `name`. After every run that leaves a permit on the lock of
`name` when that has been closed, there are two such permits as soon as the table has been created
and acquired. -/
theorem exclusiveOn_run (timeout : Option UInt64) (moves : List ManagerMove) (name : String) :
    (ReplacesNoHeld name (new timeout) moves → ((new timeout).run moves).ExclusiveOn name) ∧
      ∀ p ∈ ((new timeout).run moves).permits, ∀ h ∈ p.held,
        ((new timeout).run moves).find? name = some h.lock →
        (((new timeout).run moves).lock h.lock).state.closed = true → ∀ session,
        ¬ ((new timeout).run (moves ++
          ((new timeout).run moves).recreation name session)).ExclusiveOn name := by
  have hs := sound_run timeout moves
  refine ⟨fun hn => ?_, fun p hp h hh hf hclosed session => ?_⟩
  · have hcur : (new timeout).Current name := by simp [Current, new, holdings]
    exact (hcur.run (sound_new timeout) hn).exclusiveOn hs
  · rw [run_append]
    exact hs.not_exclusiveOn_recreation hp hh hf hclosed session

/-- A session reads a table that another session has begun to drop. -/
def droppedWhileRead : List ManagerMove :=
  .acquireAccess ⟨["Student"], []⟩ ⟨1⟩ :: List.replicate 4 (.act 0) ++
    [.dropTable "Student" ⟨2⟩, .act 1, .act 1]

/-- The reader gives the table back, the other session drops it, and it is created again. -/
def createdAfterDrop : List ManagerMove :=
  droppedWhileRead ++ [.release 0, .act 0, .act 0, .act 1, .createTable "Student"]

/-- Both parts of the theorem at runs that drop a table and create it again. -/
theorem exclusiveOn_run_student :
    ((new none).run createdAfterDrop).ExclusiveOn "Student" ∧
      ¬ ((new none).run (droppedWhileRead ++
        ((new none).run droppedWhileRead).recreation "Student" ⟨3⟩)).ExclusiveOn "Student" :=
  ⟨(exclusiveOn_run none createdAfterDrop "Student").1 (by decide),
    (exclusiveOn_run none droppedWhileRead "Student").2 ⟨0, ⟨1⟩, [⟨0, .read⟩]⟩ (by decide)
      ⟨0, .read⟩ (by decide) (by decide) (by decide) ⟨3⟩⟩

end Manager

end SqlTree
