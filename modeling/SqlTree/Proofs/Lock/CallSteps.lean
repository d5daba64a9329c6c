import SqlTree.Proofs.Lock.ManagerSound

/-!
# What a move does

A permit is no more than a call that is about to give back what it holds, except that it waits for
its owner to say so. Calls and permits together are the parties of a manager. Whatever is done to a
manager changes at most one party and one lock, in one of the ways in which a call makes its steps;
or a party comes in that holds nothing; or nothing changes but the clock and the locks that are
registered, none of which has anybody in its queues.

This is said here once for every move. What is kept by moves is then shown for the few ways in which
a call can step.

## Main definitions

* `Permit.call`, `Manager.parties`: a permit as a call, and all calls.
* `Call.Step`: the ways in which a call makes a step, with what becomes of its lock.
* `Manager.Extends`: what registering locks does.
* `Manager.Effect`: what a move does.
* `ManagerMove.call?`: the call that a move belongs to.

## Main results

* `Manager.Sound.effect`: every move of a sound manager has an effect of these.
-/

namespace SqlTree

/-- A permit, as the call that gives it back. -/
def Permit.call (p : Permit) : Call := ⟨p.request, p.session, false, p.held, [], .ending none⟩

@[simp] theorem Permit.permit_call (p : Permit) : p.call.permit = p := rfl

/-- A call makes a step. With it the lock of number `id`, which is `l`, becomes another, and the
call becomes another or ends. -/
inductive Call.Step (id : Nat) (l : TableLock) : Call → Option Call → TableLock → Prop
  /-- It looks up its next lock. -/
  | fetch {c : Call} {name : String} {kind : LockKind} {rest : List (String × LockKind)}
      (phase : c.phase = .ready) (next : c.rest = (name, kind) :: rest) (hname : l.name = name) :
      Step id l c (some { c with rest, phase := .asking ⟨id, kind⟩ }) l
  /-- It has all its locks and becomes a permit. -/
  | grant {c : Call} (phase : c.phase = .ready) (rest : c.rest = []) :
      Step id l c (some c.permit.call) l
  /-- It is refused before it has joined a queue. -/
  | turnAway {c : Call} {error : LockError} (place : c.place? = none) :
      Step id l c (some { c with phase := .ending (some error) }) l
  /-- It joins the queue. -/
  | ask {c : Call} {kind : LockKind} {deadline : Option Nat}
      (phase : c.phase = .asking ⟨id, kind⟩) :
      Step id l c (some { c with phase := .waiting ⟨id, kind⟩ deadline })
        (l.enqueue c.request kind c.session false)
  /-- It closes the table. -/
  | shut {c : Call} (phase : c.phase = .shutting id) (isOpen : l.state.closed = false) :
      Step id l c (some { c with phase := .closing id }) { l with state := l.state.close }.notifyAll
  /-- It joins the queue of the table that it has closed. -/
  | join {c : Call} (phase : c.phase = .closing id) :
      Step id l c (some { c with phase := .waiting ⟨id, .write⟩ none })
        (l.requestClose c.request c.session)
  /-- Its check does not end its wait; it may give up its place for another reason. -/
  | wait {c : Call} {h : Held} {deadline : Option Nat} {phase : Phase}
      (waits : c.phase = .waiting h deadline) (lock : h.lock = id)
      (stays : phase = .waiting h deadline ∨ ∃ error, phase = .leaving h error)
      (verdict : (l.recheck c.request).2 = none) :
      Step id l c (some { c with phase }) (l.recheck c.request).1
  /-- Its check refuses it. -/
  | refuse {c : Call} {h : Held} {deadline : Option Nat} {error : LockError}
      (waits : c.phase = .waiting h deadline) (lock : h.lock = id)
      (verdict : (l.recheck c.request).2 = some .refused) :
      Step id l c (some { c with phase := .ending (some error) }) (l.recheck c.request).1
  /-- Its check admits it. -/
  | enter {c : Call} {h : Held} {deadline : Option Nat}
      (waits : c.phase = .waiting h deadline) (lock : h.lock = id)
      (verdict : (l.recheck c.request).2 = some .granted) (dropping : c.dropping = false) :
      Step id l c (some { c with held := c.held ++ [h], phase := .ready }) (l.recheck c.request).1
  /-- Its check admits it, and it has dropped the table. -/
  | drop {c : Call} {h : Held} {deadline : Option Nat}
      (waits : c.phase = .waiting h deadline) (lock : h.lock = id)
      (verdict : (l.recheck c.request).2 = some .granted) (dropping : c.dropping = true) :
      Step id l c none (l.recheck c.request).1
  /-- It is not wanted any more. -/
  | giveUp {c : Call} {h : Held} {deadline : Option Nat} (waits : c.phase = .waiting h deadline) :
      Step id l c (some { c with phase := .leaving h none }) l
  /-- It gives up its place. -/
  | leave {c : Call} {h : Held} {error : Option LockError} (phase : c.phase = .leaving h error)
      (lock : h.lock = id) :
      Step id l c (some { c with phase := .ending error }) (l.abandon c.request).1
  /-- It gives back the newest of its locks. -/
  | giveBack {c : Call} {held : List Held} {h : Held} {error : Option LockError}
      (phase : c.phase = .ending error) (newest : c.held = held ++ [h]) (lock : h.lock = id) :
      Step id l c (some { c with held }) (l.release h.kind c.session).1
  /-- It has nothing left and ends. -/
  | finish {c : Call} {error : Option LockError} (phase : c.phase = .ending error)
      (held : c.held = []) : Step id l c none l

namespace Manager

variable {m m' : Manager} {c : Call}

/-- All calls, with the permits among them. -/
def parties (m : Manager) : List Call := m.calls ++ m.permits.map Permit.call

theorem map_permit_parties (m : Manager) : m.parties.map Call.permit = m.holdings := by
  simp [parties, holdings, Function.comp_def]

theorem mem_parties_of_call (hc : c ∈ m.calls) : c ∈ m.parties := List.mem_append_left _ hc

theorem map_request_parties (m : Manager) :
    m.parties.map Call.request = m.holdings.map Permit.request := by
  rw [← map_permit_parties, List.map_map]
  rfl

theorem Sound.nodup_parties (hs : m.Sound) : (m.parties.map Call.request).Nodup :=
  map_request_parties m ▸ hs.nodup

theorem Sound.request_lt (hs : m.Sound) (hc : c ∈ m.parties) : c.request < m.next :=
  hs.fresh _ (map_request_parties m ▸ List.mem_map_of_mem hc)

/-- Locks have been registered, and nothing has happened to those that were there. -/
structure Extends (m m' : Manager) : Prop where
  length : m.locks.length ≤ m'.locks.length
  name : ∀ id < m.locks.length, (m'.lock id).name = (m.lock id).name
  state : ∀ id, (m'.lock id).state = (m.lock id).state
  places : ∀ id, (m'.lock id).places = (m.lock id).places

theorem extends_of_locks (h : m'.locks = m.locks) : m.Extends m' := by
  have hlock : m'.lock = m.lock := by
    funext id
    rw [lock, lock, h]
  exact ⟨Nat.le_of_eq (congrArg List.length h.symm), fun _ _ => by rw [hlock],
    fun _ => by rw [hlock], fun _ => by rw [hlock]⟩

theorem Extends.refl (m : Manager) : m.Extends m := extends_of_locks rfl

theorem lock_of_locks {m₁ : Manager} {id : Nat} {l : TableLock}
    (range : id < m₁.locks.length ∨ l = m₁.lock id) (h : m'.locks = m₁.locks.set id l) (i : Nat) :
    m'.lock i = if i = id then l else m₁.lock i := by
  rw [← lock_setLock range i, lock, lock, h, setLock]

theorem extends_register (m : Manager) (name : String) : m.Extends (m.register name).1 where
  length := List.length_append ▸ Nat.le_add_right ..
  name := fun id hid => by rw [lock_register, if_neg (by omega)]
  state := fun id => (unused_register m name id).1
  places := fun id => (unused_register m name id).2

theorem extends_table (m : Manager) (name : String) : m.Extends (m.table name).1 := by
  rw [table]
  split
  · exact .refl m
  · exact extends_register m name

theorem parties_table (m : Manager) (name : String) :
    (m.table name).1.parties = m.parties ∧ (m.table name).1.next = m.next := by
  rw [table]
  split
  · exact ⟨rfl, rfl⟩
  · exact ⟨rfl, rfl⟩

theorem extends_createTable (m : Manager) (name : String) : m.Extends (m.createTable name).1 := by
  rw [createTable]
  split
  · split
    · exact extends_register m name
    · exact .refl m
  · exact extends_register m name

theorem parties_createTable (m : Manager) (name : String) :
    (m.createTable name).1.parties = m.parties ∧ (m.createTable name).1.next = m.next := by
  rw [createTable]
  split
  · split
    · exact ⟨rfl, rfl⟩
    · exact ⟨rfl, rfl⟩
  · exact ⟨rfl, rfl⟩

/-- What a move does. It belongs to the call of a number, or to none. -/
inductive Effect (m m' : Manager) (request : Option Nat) : Prop
  /-- No party changes. -/
  | quiet (locks : m.Extends m') (parties : m'.parties.Perm m.parties) (next : m.next ≤ m'.next)
  /-- A call begins. -/
  | begins {c : Call} (locks : m.Extends m') (parties : m'.parties.Perm (c :: m.parties))
      (next : m.next ≤ m'.next) (request : c.request = m.next) (held : c.held = [])
      (phase : c.phase = .ready ∧ (∃ access, c.rest = lockPlan access) ∨
        ∃ id, c.phase = .shutting id ∧ c.rest = [])
  /-- A party makes a step, after it may have registered its lock. -/
  | steps {m₁ : Manager} {c : Call} {c' : Option Call} {id : Nat} {l : TableLock}
      {others : List Call} (locks : m.Extends m₁) (mine : request = some c.request)
      (before : m.parties.Perm (c :: others)) (after : m'.parties.Perm (c'.toList ++ others))
      (step : c.Step id (m₁.lock id) c' l) (range : id < m₁.locks.length ∨ l = m₁.lock id)
      (result : m'.locks = m₁.locks.set id l) (next : m.next ≤ m'.next)

/-- No number is given away twice. -/
theorem Effect.next_le {request : Option Nat} (h : m.Effect m' request) : m.next ≤ m'.next := by
  cases h with
  | quiet locks parties next => exact next
  | begins locks parties next => exact next
  | steps locks mine before after step range result next => exact next

end Manager

/-- The number of the call that a move belongs to. -/
def ManagerMove.call? (m : Manager) : ManagerMove → Option Nat
  | .dropTable .. | .acquire .. | .acquireAccess .. => some m.next
  | .act request | .abandon request | .release request => some request
  | .table _ | .createTable _ | .advance _ => none

theorem Call.Step.request {id : Nat} {l l' : TableLock} {c : Call} {c' : Option Call}
    (h : c.Step id l c' l') : ∀ d ∈ c', d.request = c.request := by
  cases h <;> rintro d ⟨⟩ <;> rfl

theorem Call.Step.session {id : Nat} {l l' : TableLock} {c : Call} {c' : Option Call}
    (h : c.Step id l c' l') : ∀ d ∈ c', d.session = c.session := by
  cases h <;> rintro d ⟨⟩ <;> rfl

theorem Call.Step.dropping {id : Nat} {l l' : TableLock} {c : Call} {c' : Option Call}
    (h : c.Step id l c' l') (hc : c.dropping = false) : ∀ d ∈ c', d.dropping = false := by
  cases h <;> rintro d ⟨⟩ <;> first | exact hc | rfl

theorem Call.Step.follows {id : Nat} {l l' : TableLock} {c : Call} {c' : Option Call}
    (h : c.Step id l c' l') : l.Follows l' := by
  cases h with
  | fetch | grant | turnAway | giveUp | finish => exact .refl l
  | ask | join => exact TableLock.follows_enqueue ..
  | shut phase isOpen =>
    exact TableLock.follows_beginClose (by rw [TableLock.beginClose?, isOpen]; rfl)
  | wait | refuse | enter | drop => exact TableLock.follows_recheck ..
  | leave => exact TableLock.follows_abandon ..
  | giveBack => exact TableLock.follows_release ..

namespace Manager

variable {m : Manager} {c : Call}

/-! ### A call and a lock in another state -/

theorem parties_split (hs : m.Sound) (hc : c ∈ m.calls) :
    ∃ others, m.parties.Perm (c :: others) ∧
      (m.dropCall c.request).parties.Perm others ∧
      ∀ c' : Call, c'.request = c.request → (m.setCall c').parties.Perm (c' :: others) := by
  obtain ⟨before, after, hcalls, hdrop, hset⟩ := calls_split hs.nodup_calls hc
  have hperm : ∀ d : Call, (before ++ d :: after ++ m.permits.map Permit.call).Perm
      (d :: (before ++ after ++ m.permits.map Permit.call)) := by
    intro d
    rw [List.append_assoc, List.cons_append, List.append_assoc]
    exact List.perm_middle
  refine ⟨before ++ after ++ m.permits.map Permit.call, ?_, ?_, fun c' hreq => ?_⟩
  · rw [parties, hcalls]
    exact hperm c
  · rw [parties, hdrop]
    exact .refl _
  · rw [parties, hset c' hreq]
    exact hperm c'

theorem Sound.effect_setCall (hs : m.Sound) (hc : c ∈ m.calls) {c' : Call} {id : Nat}
    {l : TableLock} (range : id < m.locks.length ∨ l = m.lock id)
    (step : c.Step id (m.lock id) (some c') l) :
    m.Effect ((m.setLock id l).setCall c') (some c.request) := by
  obtain ⟨others, hbefore, -, hset⟩ := parties_split hs hc
  refine .steps (.refl m) rfl hbefore ?_ step range rfl (Nat.le_refl _)
  exact hset c' (step.request c' rfl)

theorem Sound.effect_dropCall (hs : m.Sound) (hc : c ∈ m.calls) {id : Nat} {l : TableLock}
    (range : id < m.locks.length ∨ l = m.lock id) (step : c.Step id (m.lock id) none l) :
    m.Effect ((m.setLock id l).dropCall c.request) (some c.request) := by
  obtain ⟨others, hbefore, hdrop, -⟩ := parties_split hs hc
  refine .steps (.refl m) rfl hbefore ?_ step range rfl (Nat.le_refl _)
  exact hdrop

/-- A step that leaves the call as it is. -/
theorem Sound.effect_setLock (hs : m.Sound) (hc : c ∈ m.calls) {id : Nat} {l : TableLock}
    (range : id < m.locks.length ∨ l = m.lock id) (step : c.Step id (m.lock id) (some c) l) :
    m.Effect (m.setLock id l) (some c.request) := by
  obtain ⟨others, hbefore, -, -⟩ := parties_split hs hc
  refine .steps (.refl m) rfl hbefore ?_ step range rfl (Nat.le_refl _)
  exact hbefore

/-- A step that leaves all locks as they are. -/
theorem Sound.effect_turn (hs : m.Sound) (hc : c ∈ m.calls) {c' : Call}
    (step : c.Step 0 (m.lock 0) (some c') (m.lock 0)) :
    m.Effect (m.setCall c') (some c.request) := by
  have h := hs.effect_setCall hc (.inr rfl) step
  rwa [setLock_lock] at h

/-! ### The steps of a call -/

theorem Sound.effect_grant (hs : m.Sound) (hc : c ∈ m.calls) (phase : c.phase = .ready)
    (rest : c.rest = []) : m.Effect (m.grant c).1 (some c.request) := by
  obtain ⟨others, hbefore, hdrop, -⟩ := parties_split hs hc
  have step : c.Step 0 (m.lock 0) (some c.permit.call) (m.lock 0) := .grant phase rest
  refine .steps (.refl m) rfl hbefore ?_ step (.inr rfl) ?_ (Nat.le_refl _)
  · have hpermits := (insertPermit_perm c.permit m.permits).map Permit.call
    refine ((hpermits.append_left _).trans ?_).trans (hdrop.cons c.permit.call)
    exact List.perm_middle
  · exact (congrArg Manager.locks (setLock_lock m 0)).symm

theorem Sound.name_table (hs : m.Sound) (name : String) :
    ((m.table name).1.lock (m.table name).2).name = name := by
  rw [Manager.table]
  split
  · next id h => exact (hs.named name id h).2
  · exact congrArg TableLock.name ((lock_register m name _).trans (if_pos rfl))

theorem Sound.effect_fetch (hs : m.Sound) (hc : c ∈ m.calls) (phase : c.phase = .ready) :
    m.Effect (m.fetch c).1 (some c.request) := by
  rw [Manager.fetch]
  cases hrest : c.rest with
  | nil => exact hs.effect_grant hc phase hrest
  | cons next rest =>
    obtain ⟨name, kind⟩ := next
    have hs₁ := (hs.table name).sound
    obtain ⟨others, hbefore, -, hset⟩ := parties_split hs₁ ((hs.table_known name).2 ▸ hc)
    rw [(parties_table m name).1] at hbefore
    refine .steps (extends_table m name) rfl hbefore ?_
      (.fetch phase hrest (hs.name_table name)) (.inr rfl) ?_
      (Nat.le_of_eq (parties_table m name).2.symm)
    · exact hset { c with rest, phase := .asking ⟨(m.table name).2, kind⟩ } rfl
    · exact (congrArg Manager.locks (setLock_lock (m.table name).1 (m.table name).2)).symm

theorem Sound.effect_ask (hs : m.Sound) (hc : c ∈ m.calls) {h : Held} (hp : c.phase = .asking h) :
    m.Effect (m.ask c h) (some c.request) := by
  have hnone : c.place? = none := by simp [Call.place?, Phase.queue?, hp]
  have hfits := hs.fits c hc
  rw [hp] at hfits
  rw [Manager.ask]
  split
  · exact hs.effect_turn hc (.turnAway hnone)
  · next l hl =>
    simp only [TableLock.request?, Option.ite_none_left_eq_some, Option.some.injEq] at hl
    rw [← hl.2]
    exact hs.effect_setCall hc (.inl hfits.2) (.ask hp)

theorem Sound.effect_shut (hs : m.Sound) (hc : c ∈ m.calls) {id : Nat}
    (hp : c.phase = .shutting id) : m.Effect (m.shut c id) (some c.request) := by
  have hnone : c.place? = none := by simp [Call.place?, Phase.queue?, hp]
  have hfits := hs.fits c hc
  rw [hp] at hfits
  rw [Manager.shut]
  split
  · exact hs.effect_turn hc (.turnAway hnone)
  · next l hl =>
    simp only [TableLock.beginClose?, Option.ite_none_left_eq_some, Option.some.injEq] at hl
    rw [← hl.2]
    exact hs.effect_setCall hc (.inl hfits.2) (.shut hp (Bool.eq_false_iff.mpr hl.1))

theorem Sound.effect_join (hs : m.Sound) (hc : c ∈ m.calls) {id : Nat}
    (hp : c.phase = .closing id) : m.Effect (m.join c id) (some c.request) := by
  have hfits := hs.fits c hc
  rw [hp] at hfits
  exact hs.effect_setCall hc (.inl hfits.2) (.join hp)

theorem Sound.effect_check (hs : m.Sound) (hc : c ∈ m.calls) {h : Held} {deadline : Option Nat}
    (hp : c.phase = .waiting h deadline) : m.Effect (m.check c h deadline).1 (some c.request) := by
  have hfits := hs.fits c hc
  rw [hp] at hfits
  rw [Manager.check]
  cases hr : (m.lock h.lock).recheck c.request with
  | mk l verdict =>
    have hl : ((m.lock h.lock).recheck c.request).1 = l := congrArg Prod.fst hr
    have hv : ((m.lock h.lock).recheck c.request).2 = verdict := congrArg Prod.snd hr
    cases verdict with
    | none =>
      dsimp only
      split
      · exact hl ▸ hs.effect_setCall hc (.inl hfits) (.wait hp rfl (.inr ⟨_, rfl⟩) hv)
      · refine hl ▸ hs.effect_setLock hc (.inl hfits) ?_
        have step := Call.Step.wait hp rfl (.inl rfl) hv
        rwa [show { c with phase := .waiting h deadline } = c by rw [← hp]] at step
    | some verdict =>
      cases verdict with
      | granted =>
        dsimp only
        split
        · next hd => exact hl ▸ hs.effect_dropCall hc (.inl hfits) (.drop hp rfl hv hd)
        · next hd =>
          exact hl ▸ hs.effect_setCall hc (.inl hfits) (.enter hp rfl hv (Bool.eq_false_iff.mpr hd))
      | refused => exact hl ▸ hs.effect_setCall hc (.inl hfits) (.refuse hp rfl hv)

theorem Sound.effect_leave (hs : m.Sound) (hc : c ∈ m.calls) {h : Held} {error : Option LockError}
    (hp : c.phase = .leaving h error) : m.Effect (m.leave c h error) (some c.request) := by
  have hfits := hs.fits c hc
  rw [hp] at hfits
  exact hs.effect_setCall hc (.inl hfits) (.leave hp rfl)

theorem Sound.effect_finish (hs : m.Sound) (hc : c ∈ m.calls) {error : Option LockError}
    (hp : c.phase = .ending error) : m.Effect (m.finish c error).1 (some c.request) := by
  rw [Manager.finish]
  cases hlast : c.held.getLast? with
  | none =>
    have step : c.Step 0 (m.lock 0) none (m.lock 0) :=
      .finish hp (List.getLast?_eq_none_iff.mp hlast)
    have h := hs.effect_dropCall hc (.inr rfl) step
    rwa [setLock_lock] at h
  | some h =>
    have hheld : c.held = c.held.dropLast ++ [h] :=
      (List.dropLast_append_getLast? h (Option.mem_def.mpr hlast)).symm
    have hmem : h ∈ c.held := by
      rw [hheld]
      exact List.mem_append_right _ (List.mem_singleton_self h)
    have hlt : h.lock < m.locks.length :=
      lt_of_active (hs.admitted (List.mem_append_left _ (List.mem_map_of_mem hc)) hmem)
    exact hs.effect_setCall hc (.inl hlt) (.giveBack hp hheld rfl)

theorem Sound.effect_act (hs : m.Sound) (request : Nat) :
    m.Effect (m.act request).1 (some request) := by
  rw [Manager.act]
  split
  · exact .quiet (.refl m) (.refl _) (Nat.le_refl _)
  · next c hcall =>
    obtain ⟨hc, rfl⟩ := call?_eq_some hcall
    split
    · next hp => exact hs.effect_fetch hc hp
    · next h hp => exact hs.effect_ask hc hp
    · next id hp => exact hs.effect_shut hc hp
    · next id hp => exact hs.effect_join hc hp
    · next h deadline hp => exact hs.effect_check hc hp
    · next h error hp => exact hs.effect_leave hc hp
    · next error hp => exact hs.effect_finish hc hp

/-! ### Moves -/

/-- A call begins in a manager that may have registered a lock for it. -/
theorem effect_beginCall {m₁ : Manager} (locks : m.Extends m₁) (parties : m₁.parties = m.parties)
    (next : m₁.next = m.next) (session : Session) (dropping : Bool)
    {rest : List (String × LockKind)} {phase : Phase}
    (hphase : phase = .ready ∧ (∃ access, rest = lockPlan access) ∨
      ∃ id, phase = .shutting id ∧ rest = []) :
    m.Effect (m₁.beginCall session dropping rest phase) (some m.next) := by
  have hlocks : m.Extends (m₁.beginCall session dropping rest phase) :=
    ⟨locks.length, locks.name, locks.state, locks.places⟩
  have hparties : (m₁.beginCall session dropping rest phase).parties.Perm
      (⟨m.next, session, dropping, [], rest, phase⟩ :: m.parties) := by
    rw [← parties, ← next, Manager.parties, beginCall, List.append_assoc]
    exact List.perm_middle
  exact .begins hlocks hparties (next ▸ Nat.le_succ _) rfl rfl hphase

theorem Sound.effect_release (hs : m.Sound) {p : Permit} (hp : p ∈ m.permits)
    (request : Option Nat) : m.Effect (m.releasePermit p) request := by
  have hn := hs.nodup
  rw [map_request_holdings] at hn
  obtain ⟨before, after, hsplit, hdrop, -⟩ :=
    filter_split Permit.request (List.nodup_append.mp hn).2.1 hp
  refine .quiet (extends_of_locks rfl) ?_ (Nat.le_refl _)
  rw [parties, parties, Manager.releasePermit, hdrop, hsplit]
  refine ((insertCall_perm p.call m.calls).append_right _).trans ?_
  simp only [List.map_append, List.map_cons, List.cons_append, ← List.append_assoc]
  exact List.perm_middle.symm

/-- Every move of a sound manager has an effect that belongs to its call. -/
theorem Sound.effect (hs : m.Sound) (mv : ManagerMove) : m.Effect (m.move mv) (mv.call? m) := by
  cases mv with
  | table name =>
    obtain ⟨hparties, hnext⟩ := parties_table m name
    exact .quiet (extends_table m name) (.of_eq hparties) (Nat.le_of_eq hnext.symm)
  | createTable name =>
    obtain ⟨hparties, hnext⟩ := parties_createTable m name
    exact .quiet (extends_createTable m name) (.of_eq hparties) (Nat.le_of_eq hnext.symm)
  | dropTable name session =>
    rw [Manager.move, Manager.beginDrop]
    split
    · next m' h =>
      split at h
      · cases h
      · next id hf =>
        obtain rfl := Except.ok.inj h
        exact effect_beginCall (.refl m) rfl rfl session true (.inr ⟨id, rfl, rfl⟩)
    · exact .quiet (extends_of_locks rfl) (.refl _) (Nat.le_succ _)
  | acquire s session =>
    have hplan : Phase.ready = .ready ∧ ∃ access, lockPlan s.access = lockPlan access :=
      ⟨rfl, s.access, rfl⟩
    cases s with
    | createTable t =>
      obtain ⟨hparties, hnext⟩ := parties_createTable m t.target
      exact effect_beginCall (extends_createTable m t.target) hparties hnext session false
        (.inl hplan)
    | _ => exact effect_beginCall (.refl m) rfl rfl session false (.inl hplan)
  | acquireAccess access session =>
    exact effect_beginCall (.refl m) rfl rfl session false (.inl ⟨rfl, access, rfl⟩)
  | act request => exact hs.effect_act request
  | abandon request =>
    rw [Manager.move]
    split
    · next c h =>
      obtain ⟨hc, rfl⟩ := call?_eq_some h
      rw [Manager.abandon]
      split
      · next hp => exact hs.effect_turn hc (.giveUp hp)
      · exact .quiet (.refl m) (.refl _) (Nat.le_refl _)
    · exact .quiet (.refl m) (.refl _) (Nat.le_refl _)
  | release request =>
    rw [Manager.move]
    split
    · next p h => exact hs.effect_release (List.mem_of_find?_eq_some h) _
    · exact .quiet (.refl m) (.refl _) (Nat.le_refl _)
  | advance ms =>
    exact .quiet (extends_of_locks rfl) (.refl _) (Nat.le_refl _)

end Manager

end SqlTree
