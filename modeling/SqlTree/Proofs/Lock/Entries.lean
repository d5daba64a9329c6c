import SqlTree.Proofs.Lock.CallSteps

/-!
# The entries of a call

Queues hold sessions, not calls. A call makes its session stand once in the queue of the lock that
it waits for, and once among the admitted for each lock that it holds. Each step of a call changes
the queues of its lock by exactly what it changes of this: a place that is given up is there, and so
is a lock that is given back. Only a call that drops a table leaves an entry behind, since nobody
gives back the lock of a table that has been dropped.

## Main definitions

* `Standing`, `Entry`: a session in a queue of a lock.
* `Call.entries`: how often a call makes its session stand in a queue.
* `Call.Accounted`: what is true of a call on a lock before it makes a step there.
* `Call.Shift`: what a step does to the queues of its lock and to what the call has in them.

## Main results

* `Call.Shift.balance`, `Call.Shift.elsewhere`: a step changes the entries as it changes the call.
* `Call.Step.placed`, `Call.Step.keeps`: a call that waits has its place.
-/

namespace SqlTree

/-- Whether a session has asked or has been admitted. -/
inductive Standing where
  | asked
  | admitted
deriving DecidableEq, Inhabited

/-- A session in a queue of a lock. -/
structure Entry where
  lock : Nat
  standing : Standing
  kind : LockKind
  session : Session
deriving DecidableEq, Inhabited

namespace LockState

/-- The queue of those who have asked, or the list of those who have been admitted. -/
def queue (st : LockState) : Standing → LockKind → List Session
  | .asked => st.pending
  | .admitted => st.active

variable {st st' : LockState} {kind : LockKind} {session : Session}

theorem queue_setPending (st : LockState) (queue : List Session) (kind : LockKind) (s : Standing)
    (k : LockKind) :
    (st.setPending queue kind).queue s k =
      if s = .asked ∧ kind = k then queue else st.queue s k := by
  cases s <;> cases kind <;> cases k <;> rfl

theorem queue_setActive (st : LockState) (sessions : List Session) (kind : LockKind) (s : Standing)
    (k : LockKind) :
    (st.setActive sessions kind).queue s k =
      if s = .admitted ∧ kind = k then sessions else st.queue s k := by
  cases s <;> cases kind <;> cases k <;> rfl

/-- How often a session stands in a queue after one has joined it. -/
theorem count_queue_enqueue (st : LockState) (kind : LockKind) (session : Session) (s : Standing)
    (k : LockKind) (σ : Session) :
    ((st.enqueue kind session).queue s k).count σ =
      (st.queue s k).count σ + if s = .asked ∧ kind = k ∧ session = σ then 1 else 0 := by
  rw [enqueue, queue_setPending]
  by_cases h : s = .asked ∧ kind = k
  · obtain ⟨rfl, rfl⟩ := h
    simp [queue, List.count_singleton]
  · rw [if_neg h, if_neg fun hand => h ⟨hand.1, hand.2.1⟩, Nat.add_zero]

theorem count_erase_add {a : Session} {queue : List Session} (h : a ∈ queue) (b : Session) :
    (queue.erase a).count b + (if a = b then 1 else 0) = queue.count b := by
  rw [List.count_erase]
  by_cases hab : a = b
  · subst hab
    have := List.count_pos_iff.mpr h
    simp only [beq_self_eq_true, if_true]
    omega
  · simp [hab]

/-- How often a session stands in a queue after one has given up its place. -/
theorem count_queue_withdraw (hmem : session ∈ st.pending kind) (s : Standing) (k : LockKind)
    (σ : Session) :
    ((st.withdraw kind session).queue s k).count σ +
      (if s = .asked ∧ kind = k ∧ session = σ then 1 else 0) = (st.queue s k).count σ := by
  rw [withdraw, queue_setPending]
  by_cases h : s = .asked ∧ kind = k
  · obtain ⟨rfl, rfl⟩ := h
    simpa [queue] using count_erase_add hmem σ
  · rw [if_neg h, if_neg fun hand => h ⟨hand.1, hand.2.1⟩, Nat.add_zero]

/-- How often a session stands in a queue after one has been admitted. -/
theorem count_queue_admitted (h : st.admit? kind session = some st') (s : Standing) (k : LockKind)
    (σ : Session) :
    (st'.queue s k).count σ + (if s = .asked ∧ kind = k ∧ session = σ then 1 else 0) =
      (st.queue s k).count σ + if s = .admitted ∧ kind = k ∧ session = σ then 1 else 0 := by
  cases s with
  | asked =>
    simp only [admit?, Option.ite_none_right_eq_some, Option.some.injEq, Bool.and_eq_true,
      beq_iff_eq] at h
    obtain ⟨⟨-, hhead⟩, rfl⟩ := h
    have hqueue := List.cons_head?_tail (Option.mem_def.mpr hhead)
    rw [queue_setActive, if_neg (by simp), queue_setPending]
    by_cases hk : kind = k
    · subst hk
      simp only [queue, and_self, if_true, true_and, reduceCtorEq, false_and, if_false]
      rw [Nat.add_zero, ← hqueue, List.tail_cons, List.count_cons]
      simp
    · simp [hk]
  | admitted => simpa [queue, and_comm] using Manager.count_active_admitted h k σ

/-- How often a session stands in a queue after one has given the table back, if it could. -/
theorem count_queue_released (h : st.release? kind session = some st') (s : Standing) (k : LockKind)
    (σ : Session) :
    (st'.queue s k).count σ + (if s = .admitted ∧ kind = k ∧ session = σ then 1 else 0) =
      (st.queue s k).count σ := by
  have hactive : session ∈ st.active kind ∧
      st' = st.setActive ((st.active kind).erase session) kind := by
    cases kind with
    | read =>
      simp only [release?, Option.ite_none_right_eq_some, Option.some.injEq] at h
      exact ⟨h.1, h.2.symm⟩
    | write =>
      simp only [release?, Option.ite_none_right_eq_some, Option.some.injEq] at h
      obtain ⟨hhead, rfl⟩ := h
      obtain ⟨rest, hrest⟩ := List.head?_eq_some_iff.mp hhead
      have hwriting : st.active .write = session :: rest := hrest
      refine ⟨hwriting ▸ List.mem_cons_self, ?_⟩
      rw [hwriting, List.erase_cons_head, hrest]
      rfl
  obtain ⟨hmem, rfl⟩ := hactive
  rw [queue_setActive]
  by_cases hk : s = .admitted ∧ kind = k
  · obtain ⟨rfl, rfl⟩ := hk
    simpa [queue] using count_erase_add hmem σ
  · rw [if_neg hk, if_neg fun hand => hk ⟨hand.1, hand.2.1⟩, Nat.add_zero]

/-- A session that has been admitted can give the table back. -/
theorem release?_of_mem (hst : st.Exclusive) (hmem : session ∈ st.active kind) :
    st.release? kind session =
      some (st.setActive ((st.active kind).erase session) kind) := by
  cases kind with
  | read => exact if_pos hmem
  | write =>
    have hlen := hst.writing_length
    obtain ⟨writer, hwriter⟩ := List.length_eq_one_iff.mp
      (Nat.le_antisymm hlen (List.length_pos_of_mem hmem))
    have hmem' : session ∈ st.writing := hmem
    rw [hwriter] at hmem'
    obtain rfl := List.mem_singleton.mp hmem'
    simp [release?, setActive, active, hwriter]

/-- How often a session stands in a queue after one has given the table back. -/
theorem count_queue_release {l : TableLock} (hl : l.state.Exclusive)
    (hmem : session ∈ l.state.active kind) (s : Standing) (k : LockKind) (σ : Session) :
    ((l.release kind session).1.state.queue s k).count σ +
      (if s = .admitted ∧ kind = k ∧ session = σ then 1 else 0) =
        (l.state.queue s k).count σ := by
  rw [TableLock.release, release?_of_mem hl hmem]
  exact count_queue_released (release?_of_mem hl hmem) s k σ

end LockState

namespace TableLock

variable {l : TableLock}

theorem waiter?_of_place {x : Place} (hx : x ∈ l.places) :
    ∃ w, l.waiter? x.request = some w := by
  obtain ⟨w, hw, rfl⟩ := List.mem_map.mp hx
  refine Option.isSome_iff_exists.mp (List.find?_isSome.mpr ⟨w, hw, ?_⟩)
  exact beq_self_eq_true w.request

/-- What a request that is given up leaves behind, if its session stands in its queue. -/
theorem state_abandon {request : Nat} {w : Waiter} (hw : l.waiter? request = some w)
    (hmem : w.session ∈ l.state.pending w.kind) :
    (l.abandon request).1.state = l.state.withdraw w.kind w.session := by
  simp [abandon, hw, hmem]

/-- The others stay in their places when a request is given up. -/
theorem mem_places_abandon_of_ne {request : Nat} {x : Place} (hx : x ∈ l.places)
    (hne : x.request ≠ request) : x ∈ (l.abandon request).1.places := by
  have hdrop := mem_places_dropWaiter.mpr ⟨hx, hne⟩
  rw [abandon]
  split
  · exact hx
  · dsimp only
    split
    · rw [places_notifyAll]
      exact hdrop
    · exact hdrop

end TableLock

namespace Call

/-- How often a call makes its session stand in a queue. -/
def entries (c : Call) (e : Entry) : Nat :=
  match e.standing with
  | .asked => if c.phase.queue? = some ⟨e.lock, e.kind⟩ ∧ c.session = e.session then 1 else 0
  | .admitted => c.permit.count e.session ⟨e.lock, e.kind⟩

/-- Whether a call has closed a lock and not been admitted to it yet. -/
def closes (id : Nat) (c : Call) : Bool :=
  c.phase == .closing id || c.dropping && c.phase.queue?.any fun h => h.lock == id

/-- What is true of a call on a lock before it makes a step there. -/
structure Accounted (c : Call) (id : Nat) (l : TableLock) : Prop where
  fits : ∃ locks, c.phase.Fits c.dropping locks
  /-- A place with the number of the call is its place. -/
  own : ∀ x ∈ l.places, x.request = c.request → c.place? = some (id, x)
  /-- Its place is there. -/
  placed : ∀ x, c.place? = some (id, x) → x ∈ l.places
  asked : ∀ kind, c.phase.queue? = some ⟨id, kind⟩ → c.session ∈ l.state.pending kind
  admitted : ∀ h ∈ c.held, h.lock = id → c.session ∈ l.state.active h.kind
  /-- A call that drops a table holds nothing. -/
  alone : c.dropping = true → c.held = []
  exclusive : l.state.Exclusive

/-- The entries of a call that is in no queue. -/
theorem entries_of_none {c : Call} (hq : c.phase.queue? = none) (id : Nat) (s : Standing)
    (k : LockKind) (σ : Session) :
    c.entries ⟨id, s, k, σ⟩ = if s = .admitted then c.permit.count σ ⟨id, k⟩ else 0 := by
  cases s <;> simp [entries, hq]

/-- A call that is in no queue and holds nothing has no entries. -/
theorem entries_eq_zero {c : Call} (hq : c.phase.queue? = none) (hheld : c.held = []) (e : Entry) :
    c.entries e = 0 := by
  refine (entries_of_none hq e.lock e.standing e.kind e.session).trans ?_
  simp [permit, Permit.count, hheld]

/-- The entries of a call that is in a queue. -/
theorem entries_of_queue {c : Call} {id : Nat} {kind : LockKind}
    (hq : c.phase.queue? = some ⟨id, kind⟩) (s : Standing) (k : LockKind) (σ : Session) :
    c.entries ⟨id, s, k, σ⟩ =
      (if s = .asked ∧ kind = k ∧ c.session = σ then 1 else 0) +
        if s = .admitted then c.permit.count σ ⟨id, k⟩ else 0 := by
  cases s <;> simp [entries, hq]

variable {c : Call} {c' : Option Call} {id : Nat} {l l' : TableLock}

/-- The places of other calls stay. -/
theorem Step.keeps (h : c.Step id l c' l') {x : Place} (hx : x ∈ l.places)
    (hne : x.request ≠ c.request) : x ∈ l'.places := by
  have hcheck : x ∈ (l.recheck c.request).1.places := by
    obtain ⟨-, -, hpl⟩ | ⟨w, -, -, hpl, -⟩ := TableLock.recheck_cases l c.request
    · rw [hpl]
      exact hx
    · exact (hpl x).mpr ⟨hx, hne⟩
  cases h with
  | fetch | grant | turnAway | giveUp | finish => exact hx
  | ask =>
    rw [TableLock.places_enqueue]
    exact List.mem_append_left _ hx
  | join =>
    rw [TableLock.requestClose, TableLock.places_enqueue]
    exact List.mem_append_left _ hx
  | shut =>
    rw [TableLock.places_notifyAll]
    exact hx
  | wait | refuse | enter | drop => exact hcheck
  | leave => exact TableLock.mem_places_abandon_of_ne hx hne
  | giveBack =>
    rw [TableLock.places_release]
    exact hx

/-- A check that does not end the wait leaves the lock as it is. -/
theorem recheck_of_none {l : TableLock} {request : Nat} (h : (l.recheck request).2 = none) :
    (l.recheck request).1.state = l.state ∧ (l.recheck request).1.places = l.places := by
  obtain ⟨-, hst, hpl⟩ | ⟨w, -, -, -, ⟨hv, -⟩ | ⟨hv, -⟩⟩ := TableLock.recheck_cases l request
  · exact ⟨hst, hpl⟩
  · rw [h] at hv
    exact absurd hv (Option.some_ne_none _).symm
  · rw [h] at hv
    exact absurd hv (Option.some_ne_none _).symm

/-- The place of a call is there after its step. -/
theorem Step.placed (h : c.Step id l c' l') (hacc : c.Accounted id l) {d : Call} (hd : d ∈ c')
    {i : Nat} {x : Place} (hx : d.place? = some (i, x)) :
    (i = id ∧ x ∈ l'.places) ∨ (c.place? = some (i, x) ∧ l'.places = l.places) := by
  obtain ⟨locks, hfits⟩ := hacc.fits
  have hnone : ∀ error, Call.place? { c with phase := .ending error } ≠ some (i, x) := by
    intro error
    simp [Call.place?, Phase.queue?]
  cases h with
  | fetch | grant | shut | enter =>
    obtain rfl := Option.some.inj hd
    simp [Call.place?, Phase.queue?, Permit.call] at hx
  | turnAway | refuse | leave =>
    obtain rfl := Option.some.inj hd
    exact absurd hx (hnone _)
  | ask phase =>
    obtain rfl := Option.some.inj hd
    rw [phase] at hfits
    obtain ⟨rfl, rfl⟩ := Prod.mk.inj (Option.some.inj hx)
    refine .inl ⟨rfl, ?_⟩
    rw [TableLock.places_enqueue, hfits.1]
    exact List.mem_append_right _ (List.mem_singleton_self _)
  | join phase =>
    obtain rfl := Option.some.inj hd
    rw [phase] at hfits
    obtain ⟨rfl, rfl⟩ := Prod.mk.inj (Option.some.inj hx)
    refine .inl ⟨rfl, ?_⟩
    rw [TableLock.requestClose, TableLock.places_enqueue, hfits.1]
    exact List.mem_append_right _ (List.mem_singleton_self _)
  | wait waits lock stays verdict =>
    obtain rfl := Option.some.inj hd
    refine .inr ⟨?_, (recheck_of_none verdict).2⟩
    rw [← hx, Call.place?, Call.place?, waits]
    rcases stays with rfl | ⟨error, rfl⟩ <;> rfl
  | giveUp waits =>
    obtain rfl := Option.some.inj hd
    refine .inr ⟨?_, rfl⟩
    rw [← hx, Call.place?, Call.place?, waits]
    rfl
  | giveBack phase newest lock =>
    obtain rfl := Option.some.inj hd
    simp [Call.place?, Phase.queue?, phase] at hx
  | drop => exact absurd hd (by simp)
  | finish => exact absurd hd (by simp)

/-- Only a call that drops a table closes its lock. -/
theorem Accounted.dropping_of_closes (hacc : c.Accounted id l) {i : Nat}
    (h : c.closes i = true) : c.dropping = true := by
  obtain ⟨locks, hfits⟩ := hacc.fits
  rcases Bool.or_eq_true_iff.mp h with hp | hq
  · rw [beq_iff_eq.mp hp] at hfits
    exact hfits.1
  · exact (Bool.and_eq_true_iff.mp hq).1

/-! ### What a step does to the entries -/

theorem place?_eq {c : Call} {h : Held} (hq : c.phase.queue? = some h) :
    c.place? = some (h.lock, ⟨c.request, h.kind, c.session, c.dropping⟩) := by
  rw [place?, hq, Option.map_some]

/-- The waiting request with the number of a call is that of the call. -/
theorem Accounted.waiter (hacc : c.Accounted id l) {h : Held} (hq : c.phase.queue? = some h)
    {w : Waiter} (hw : w.place ∈ l.places) (hreq : w.request = c.request) :
    w.kind = h.kind ∧ w.session = c.session ∧ w.closing = c.dropping := by
  have hplace := hacc.own w.place hw hreq
  rw [place?_eq hq] at hplace
  obtain ⟨-, heq⟩ := Prod.mk.inj (Option.some.inj hplace)
  obtain ⟨-, hkind, hsession, hclosing⟩ := Place.mk.inj heq
  exact ⟨hkind.symm, hsession.symm, hclosing.symm⟩

/-- A call that is refused gives up its place. -/
theorem Accounted.refused (hacc : c.Accounted id l) {h : Held} (hq : c.phase.queue? = some h)
    (hv : (l.recheck c.request).2 = some .refused) :
    (l.recheck c.request).1.state = l.state.withdraw h.kind c.session := by
  obtain ⟨hnone, -⟩ | ⟨w, hw, hreq, -, ⟨-, -, -, hst⟩ | ⟨hgrant, -⟩⟩ :=
    TableLock.recheck_cases l c.request
  · rw [hv] at hnone
    exact absurd hnone (Option.some_ne_none _)
  · obtain ⟨hkind, hsession, -⟩ := hacc.waiter hq hw hreq
    rw [hst, hkind, hsession]
  · rw [hv] at hgrant
    exact Verdict.noConfusion (Option.some.inj hgrant)

/-- A call that is admitted has stood at the head of its queue. -/
theorem Accounted.granted (hacc : c.Accounted id l) {h : Held} (hq : c.phase.queue? = some h)
    (hv : (l.recheck c.request).2 = some .granted) :
    l.state.admit? h.kind c.session = some (l.recheck c.request).1.state := by
  obtain ⟨hnone, -⟩ | ⟨w, hw, hreq, -, ⟨href, -⟩ | ⟨-, -, hst⟩⟩ :=
    TableLock.recheck_cases l c.request
  · rw [hv] at hnone
    exact absurd hnone (Option.some_ne_none _)
  · rw [hv] at href
    exact Verdict.noConfusion (Option.some.inj href)
  · obtain ⟨hkind, hsession, -⟩ := hacc.waiter hq hw hreq
    exact hkind ▸ hsession ▸ hst

/-- A call that leaves gives up its place. -/
theorem Accounted.left (hacc : c.Accounted id l) {kind : LockKind}
    (hq : c.phase.queue? = some ⟨id, kind⟩) :
    (l.abandon c.request).1.state = l.state.withdraw kind c.session := by
  obtain ⟨w, hw⟩ := TableLock.waiter?_of_place (hacc.placed _ (place?_eq hq))
  obtain ⟨hmem, hreq⟩ := TableLock.waiter?_eq_some hw
  obtain ⟨hkind, hsession, -⟩ := hacc.waiter hq hmem hreq
  have hpending : w.session ∈ l.state.pending w.kind := by
    rw [hkind, hsession]
    exact hacc.asked kind hq
  rw [TableLock.state_abandon hw hpending, hkind, hsession]

/-- What a step does to the queues of its lock and to what the call has in them. -/
inductive Shift (id : Nat) (l : TableLock) (c : Call) : Option Call → TableLock → Prop
  /-- Nothing changes. -/
  | still {d : Call} {l' : TableLock} (queue : d.phase.queue? = c.phase.queue?)
      (permit : d.permit = c.permit) (state : ∀ s k, l'.state.queue s k = l.state.queue s k) :
      Shift id l c (some d) l'
  /-- The call joins the queue. -/
  | joins {d : Call} {l' : TableLock} {kind : LockKind} (before : c.phase.queue? = none)
      (after : d.phase.queue? = some ⟨id, kind⟩) (permit : d.permit = c.permit)
      (state : l'.state = l.state.enqueue kind c.session) : Shift id l c (some d) l'
  /-- The call gives up its place. -/
  | quits {d : Call} {l' : TableLock} {kind : LockKind}
      (before : c.phase.queue? = some ⟨id, kind⟩) (after : d.phase.queue? = none)
      (permit : d.permit = c.permit) (state : l'.state = l.state.withdraw kind c.session) :
      Shift id l c (some d) l'
  /-- The call is admitted. -/
  | enters {d : Call} {l' : TableLock} {kind : LockKind}
      (before : c.phase.queue? = some ⟨id, kind⟩) (after : d.phase.queue? = none)
      (permit : d.permit = ⟨c.request, c.session, c.held ++ [⟨id, kind⟩]⟩)
      (state : l.state.admit? kind c.session = some l'.state) : Shift id l c (some d) l'
  /-- The call is admitted and has dropped the table. -/
  | drops {l' : TableLock} {kind : LockKind} (before : c.phase.queue? = some ⟨id, kind⟩)
      (held : c.held = []) (closes : c.closes id = true)
      (state : l.state.admit? kind c.session = some l'.state) : Shift id l c none l'
  /-- The call gives the table back. -/
  | givesBack {d : Call} {kind : LockKind} (before : c.phase.queue? = none)
      (after : d.phase.queue? = none)
      (permit : c.permit = ⟨d.request, d.session, d.held ++ [⟨id, kind⟩]⟩) :
      Shift id l c (some d) (l.release kind c.session).1
  /-- The call has nothing and ends. -/
  | ends (before : c.phase.queue? = none) (held : c.held = []) : Shift id l c none l

theorem Step.shift (h : c.Step id l c' l') (hacc : c.Accounted id l) : c.Shift id l c' l' := by
  cases h with
  | fetch phase | grant phase | giveUp phase =>
    exact .still (by rw [phase]; rfl) rfl fun _ _ => rfl
  | turnAway place =>
    exact .still (by rw [Option.map_eq_none_iff.mp place]; rfl) rfl fun _ _ => rfl
  | shut phase =>
    refine .still (by rw [phase]; rfl) rfl fun s k => ?_
    rw [TableLock.state_notifyAll]
    cases s <;> cases k <;> rfl
  | wait waits lock stays verdict =>
    refine .still ?_ rfl fun s k => by rw [(recheck_of_none verdict).1]
    rw [waits]
    rcases stays with rfl | ⟨error, rfl⟩ <;> rfl
  | ask phase | join phase => exact .joins (by rw [phase]; rfl) rfl rfl rfl
  | @refuse h _ _ waits lock verdict =>
    subst lock
    have hq : c.phase.queue? = some h := by rw [waits]; rfl
    exact .quits hq rfl rfl (hacc.refused hq verdict)
  | @leave h _ phase lock =>
    subst lock
    have hq : c.phase.queue? = some h := by rw [phase]; rfl
    exact .quits hq rfl rfl (hacc.left hq)
  | @enter h _ waits lock verdict =>
    subst lock
    have hq : c.phase.queue? = some h := by rw [waits]; rfl
    exact .enters hq rfl rfl (hacc.granted hq verdict)
  | @drop h _ waits lock verdict dropping =>
    subst lock
    have hq : c.phase.queue? = some h := by rw [waits]; rfl
    exact .drops hq (hacc.alone dropping) (by simp [closes, hq, dropping]) (hacc.granted hq verdict)
  | @giveBack held h _ phase newest lock =>
    subst lock
    have hq : c.phase.queue? = none := by rw [phase]; rfl
    exact .givesBack hq hq (by rw [permit, newest])
  | finish phase held => exact .ends (by rw [phase]; rfl) held

/-- The entries of a call depend on its queue and on what it holds. -/
theorem entries_congr {d : Call} (hq : d.phase.queue? = c.phase.queue?) (hp : d.permit = c.permit)
    (e : Entry) : d.entries e = c.entries e := by
  have hsession : d.session = c.session := congrArg Permit.session hp
  simp only [entries, hq, hp, hsession]

/-- What the holding of one more lock counts for. -/
theorem count_held_concat (request : Nat) (session : Session) (held : List Held) (kind : LockKind)
    (s : Standing) (k : LockKind) (σ : Session) :
    (if s = .admitted then Permit.count ⟨request, session, held ++ [⟨id, kind⟩]⟩ σ ⟨id, k⟩ else 0) =
      (if s = .admitted then Permit.count ⟨request, session, held⟩ σ ⟨id, k⟩ else 0) +
        if s = .admitted ∧ kind = k ∧ session = σ then 1 else 0 := by
  cases s with
  | asked => simp
  | admitted => simp [Permit.count_concat, and_comm]

/-- A step changes the entries of its lock as it changes those of the call. Only a call that drops a
table leaves one entry more behind. -/
theorem Shift.balance (h : c.Shift id l c' l') (hacc : c.Accounted id l) (s : Standing)
    (k : LockKind) (σ : Session) :
    (l'.state.queue s k).count σ + c.entries ⟨id, s, k, σ⟩ =
        (l.state.queue s k).count σ + c'.elim 0 (·.entries ⟨id, s, k, σ⟩) ∨
      s = .admitted ∧ c' = none ∧ c.closes id = true := by
  cases h with
  | still queue permit state =>
    refine .inl ?_
    rw [state, Option.elim_some, entries_congr queue permit]
  | @joins d _ kind before after permit state =>
    have hsession : d.session = c.session := congrArg Permit.session permit
    refine .inl ?_
    rw [state, LockState.count_queue_enqueue, entries_of_none before, Option.elim_some,
      entries_of_queue after, permit, hsession]
    omega
  | quits before after permit state =>
    have hcount := LockState.count_queue_withdraw (hacc.asked _ before) s k σ
    refine .inl ?_
    rw [state, entries_of_queue before, Option.elim_some, entries_of_none after, permit]
    omega
  | @enters d _ kind before after permit state =>
    have hcount := LockState.count_queue_admitted state s k σ
    refine .inl ?_
    rw [entries_of_queue before, Option.elim_some, entries_of_none after, permit, count_held_concat,
      Call.permit]
    omega
  | drops before held closes state =>
    have hcount := LockState.count_queue_admitted state s k σ
    cases s with
    | asked =>
      refine .inl ?_
      rw [entries_of_queue before, Option.elim_none]
      simpa using hcount
    | admitted => exact .inr ⟨rfl, rfl, closes⟩
  | @givesBack d kind before after permit =>
    have hsession : c.session = d.session := congrArg Permit.session permit
    have hheld : c.held = d.held ++ [⟨id, kind⟩] := congrArg Permit.held permit
    have hmem : c.session ∈ l.state.active kind :=
      hacc.admitted ⟨id, kind⟩ (by simp [hheld]) rfl
    have hcount := LockState.count_queue_release hacc.exclusive hmem s k σ
    refine .inl ?_
    rw [entries_of_none before, Option.elim_some, entries_of_none after, permit, count_held_concat,
      Call.permit, ← hsession]
    omega
  | ends before held => exact .inl (congrArg _ (entries_eq_zero before held _))

/-- The entries of a call on a lock in whose queue it is not. -/
theorem entries_elsewhere {i : Nat} (hi : i ≠ id) (hq : ∀ h ∈ c.phase.queue?, h.lock = id)
    (s : Standing) (k : LockKind) (σ : Session) :
    c.entries ⟨i, s, k, σ⟩ = if s = .admitted then c.permit.count σ ⟨i, k⟩ else 0 := by
  have hne : c.phase.queue? ≠ some ⟨i, k⟩ := fun h => hi (hq _ h)
  cases s <;> simp [entries, hne]

theorem count_concat_of_ne {i : Nat} (hi : i ≠ id) (request : Nat) (session : Session)
    (held : List Held) (kind k : LockKind) (σ : Session) :
    Permit.count ⟨request, session, held ++ [⟨id, kind⟩]⟩ σ ⟨i, k⟩ =
      Permit.count ⟨request, session, held⟩ σ ⟨i, k⟩ := by
  have hne : (⟨id, kind⟩ : Held) ≠ ⟨i, k⟩ := fun heq => hi (congrArg Held.lock heq).symm
  rw [Permit.count_concat, if_neg fun hand => hne hand.2, Nat.add_zero]

/-- A step leaves the entries of a call on other locks. -/
theorem Shift.elsewhere (h : c.Shift id l c' l') {i : Nat} (hi : i ≠ id) (s : Standing)
    (k : LockKind) (σ : Session) :
    c.entries ⟨i, s, k, σ⟩ = c'.elim 0 (·.entries ⟨i, s, k, σ⟩) := by
  have hnone : ∀ d : Call, d.phase.queue? = none → ∀ h ∈ d.phase.queue?, h.lock = id := by
    intro d hq h hh
    rw [hq] at hh
    exact absurd hh (by simp)
  have hsome : ∀ (d : Call) {kind : LockKind}, d.phase.queue? = some ⟨id, kind⟩ →
      ∀ h ∈ d.phase.queue?, h.lock = id := by
    intro d kind hq h hh
    rw [hq] at hh
    exact (congrArg Held.lock (Option.some.inj hh)).symm
  cases h with
  | still queue permit => exact (entries_congr queue permit _).symm
  | joins before after permit =>
    rw [Option.elim_some, entries_elsewhere hi (hnone _ before),
      entries_elsewhere hi (hsome _ after), permit]
  | quits before after permit =>
    rw [Option.elim_some, entries_elsewhere hi (hsome _ before),
      entries_elsewhere hi (hnone _ after), permit]
  | enters before after permit =>
    rw [Option.elim_some, entries_elsewhere hi (hsome _ before),
      entries_elsewhere hi (hnone _ after), permit, count_concat_of_ne hi]
    rfl
  | drops before held =>
    rw [Option.elim_none, entries_elsewhere hi (hsome _ before)]
    simp [permit, Permit.count, held]
  | @givesBack d _ before after permit =>
    rw [Option.elim_some, entries_elsewhere hi (hnone _ before),
      entries_elsewhere hi (hnone _ after), permit, count_concat_of_ne hi]
    rfl
  | ends before held => exact entries_eq_zero before held _

/-- Only the step that closes a table makes a call one that has closed it. -/
theorem Step.closes (h : c.Step id l c' l') (hacc : c.Accounted id l) {d : Call} (hd : d ∈ c')
    {i : Nat} (hi : d.closes i = true) :
    c.closes i = true ∨ i = id ∧ l.state.closed = false ∧ l'.state.closed = true := by
  obtain ⟨locks, hfits⟩ := hacc.fits
  cases h with
  | fetch | grant | turnAway | refuse | leave | enter =>
    obtain rfl := Option.some.inj hd
    simp [Call.closes, Phase.queue?, Permit.call] at hi
  | ask phase =>
    obtain rfl := Option.some.inj hd
    rw [phase] at hfits
    simp [Call.closes, hfits.1] at hi
  | shut phase isOpen =>
    obtain rfl := Option.some.inj hd
    have hid : id = i := by simpa [Call.closes, Phase.queue?] using hi
    exact .inr ⟨hid.symm, isOpen, rfl⟩
  | join phase =>
    obtain rfl := Option.some.inj hd
    have hid : c.dropping = true ∧ id = i := by simpa [Call.closes, Phase.queue?] using hi
    exact .inl (by simp [Call.closes, phase, hid.2])
  | wait waits lock stays =>
    obtain rfl := Option.some.inj hd
    refine .inl ?_
    rcases stays with rfl | ⟨error, rfl⟩
    · simpa [Call.closes, Phase.queue?, waits] using hi
    · simpa [Call.closes, Phase.queue?, waits] using hi
  | giveUp waits =>
    obtain rfl := Option.some.inj hd
    exact .inl (by simpa [Call.closes, Phase.queue?, waits] using hi)
  | giveBack =>
    obtain rfl := Option.some.inj hd
    exact .inl hi
  | drop => exact absurd hd (by simp)
  | finish => exact absurd hd (by simp)

/-- A call that drops a table takes no lock. -/
theorem Step.alone (h : c.Step id l c' l') (hacc : c.Accounted id l) {d : Call} (hd : d ∈ c')
    (hdrop : d.dropping = true) : d.held = [] := by
  cases h with
  | fetch | turnAway | ask | shut | join | wait | refuse | giveUp | leave =>
    obtain rfl := Option.some.inj hd
    exact hacc.alone hdrop
  | grant =>
    obtain rfl := Option.some.inj hd
    exact absurd hdrop (by simp [Permit.call])
  | enter waits lock verdict dropping =>
    obtain rfl := Option.some.inj hd
    exact absurd (dropping.symm.trans hdrop) Bool.false_ne_true
  | giveBack phase newest =>
    obtain rfl := Option.some.inj hd
    have := hacc.alone hdrop
    rw [newest] at this
    exact absurd this (by simp)
  | drop => exact absurd hd (by simp)
  | finish => exact absurd hd (by simp)

end Call

end SqlTree
