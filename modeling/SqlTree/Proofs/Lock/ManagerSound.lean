import SqlTree.Proofs.Lock.Holdings
import SqlTree.Proofs.Lock.ManagerScene

/-!
# Managers stay sound

Every move keeps a manager sound: the beginnings of calls, each step of a call, the giving up of a
call and the giving back of a permit. So a manager is sound after every run that begins without
locks. Every move but the creation of a table also leads on: the locks registered under the names
stay what they are, and only they are taken.

## Main definitions

* `ManagerMove.creates?`: the table that a move creates.

## Main results

* `Manager.Sound.act`: a step of a call, in whatever phase the call is.
* `Manager.Sound.leads_move`: every move but the creation of a table leads on.
* `Manager.Sound.move`, `Manager.sound_run`: every move keeps a manager sound, and so does a run.
-/

namespace SqlTree

namespace Manager

variable {m : Manager} {c : Call}

/-! ### Locks -/

theorem lock_register (m : Manager) (name : String) (i : Nat) :
    (m.register name).1.lock i = if i = m.locks.length then .new name else m.lock i := by
  rw [lock, lock, register, List.getD_eq_getElem?_getD, List.getD_eq_getElem?_getD]
  split
  · next hi => rw [hi, List.getElem?_concat_length, Option.getD_some]
  · next hi =>
    by_cases hlt : i < m.locks.length
    · rw [List.getElem?_append_left hlt]
    · rw [List.getElem?_eq_none (by simp; omega), List.getElem?_eq_none (Nat.le_of_not_lt hlt)]

/-- A new lock has the state and the queue that it would have anyway. -/
theorem unused_register (m : Manager) (name : String) (i : Nat) :
    ((m.register name).1.lock i).state = (m.lock i).state ∧
      ((m.register name).1.lock i).places = (m.lock i).places := by
  rw [lock_register]
  split
  · next hi => rw [hi, lock_of_length_le (Nat.le_refl _)]; exact ⟨rfl, rfl⟩
  · exact ⟨rfl, rfl⟩

theorem find?_register (m : Manager) (name other : String) :
    (m.register name).1.find? other = if name = other then some m.locks.length else m.find? other :=
  Keyed.find?_insert ..

/-- Registering a lock under a name whose lock, if it has one, has been closed. -/
theorem Sound.register (hs : m.Sound) {name : String}
    (h : ∀ id, m.find? name = some id → (m.lock id).state.closed = true) :
    (m.register name).1.Sound where
  named := by
    intro other id hid
    have hlen : (m.register name).1.locks.length = m.locks.length + 1 := List.length_append
    rw [find?_register] at hid
    rw [lock_register, hlen]
    split at hid
    · next heq =>
      obtain rfl := Option.some.inj hid
      exact ⟨Nat.lt_succ_self _, by rw [if_pos rfl]; exact heq⟩
    · obtain ⟨hlt, hn⟩ := hs.named other id hid
      exact ⟨by omega, by rw [if_neg (by omega)]; exact hn⟩
  replaced := by
    intro id hid
    have hlen : (m.register name).1.locks.length = m.locks.length + 1 := List.length_append
    rw [lock_register, find?_register]
    split
    · next heq => exact .inl (by rw [heq]; exact if_pos rfl)
    · next hne =>
      rcases hs.replaced id (by omega) with hf | hc
      · by_cases hname : name = (m.lock id).name
        · rw [← hname] at hf
          exact .inr (h id hf)
        · exact .inl (by rw [if_neg hname]; exact hf)
      · exact .inr hc
  fits := fun d hd => (hs.fits d hd).mono (List.length_append ▸ Nat.le_add_right ..)
  nodup := hs.nodup
  fresh := hs.fresh
  queued := fun id x hx => hs.queued id x ((unused_register m name id).2 ▸ hx)
  exclusive := fun id => (unused_register m name id).1.symm ▸ hs.exclusive id
  counted := fun id kind session => (unused_register m name id).1.symm ▸ hs.counted id kind session

theorem Sound.table (hs : m.Sound) (name : String) : m.Leads (m.table name).1 := by
  rw [Manager.table]
  split
  · exact hs.leads
  · next h =>
    refine ⟨hs.register fun id hid => by rw [h] at hid; exact absurd hid nofun,
      List.length_append ▸ Nat.le_add_right .., fun id hid => ?_, fun other id hid => ?_,
      fun p hp _ hh => .inl ⟨p, hp, hh⟩⟩
    · rw [lock_register, if_neg (by omega)]
    · rw [find?_register, if_neg fun heq => by rw [← heq, h] at hid; exact absurd hid nofun]
      exact hid

theorem Sound.createTable (hs : m.Sound) (name : String) : (m.createTable name).1.Sound := by
  rw [Manager.createTable]
  split
  · next id h =>
    split
    · next hc => exact hs.register fun i hi => by rw [h] at hi; exact Option.some.inj hi ▸ hc
    · exact hs
  · next h => exact hs.register fun id hid => by rw [h] at hid; exact absurd hid nofun

/-- The lock of a name is there afterwards, and no call has been touched. -/
theorem Sound.table_known (hs : m.Sound) (name : String) :
    (m.table name).2 < (m.table name).1.locks.length ∧ (m.table name).1.calls = m.calls := by
  rw [Manager.table]
  split
  · next id h => exact ⟨(hs.named name id h).1, rfl⟩
  · exact ⟨by simp [Manager.register], rfl⟩

/-! ### Beginnings of calls -/

theorem Sound.countCall (hs : m.Sound) : m.Leads m.countCall where
  sound := ⟨hs.named, hs.replaced, hs.fits, hs.nodup, fun r hr => Nat.lt_succ_of_lt (hs.fresh r hr),
    hs.queued, hs.exclusive, hs.counted⟩
  length := Nat.le_refl _
  name := fun _ _ => rfl
  find := fun _ _ hf => hf
  held := fun p hp _ hh => .inl ⟨p, hp, hh⟩

theorem Sound.beginCall (hs : m.Sound) (session : Session) (dropping : Bool)
    (rest : List (String × LockKind)) {phase : Phase}
    (fits : phase.Fits dropping m.locks.length) :
    m.Leads (m.beginCall session dropping rest phase) := by
  have hr : (m.beginCall session dropping rest phase).holdings.map Permit.request =
      m.calls.map Call.request ++ m.next :: m.permits.map Permit.request := by
    simp [map_request_holdings, Manager.beginCall, Manager.countCall]
  have hperm : ((m.beginCall session dropping rest phase).holdings.map Permit.request).Perm
      (m.next :: m.holdings.map Permit.request) := by
    rw [hr, map_request_holdings]
    exact List.perm_middle
  have hnew : m.next ∉ m.holdings.map Permit.request := fun h => Nat.lt_irrefl _ (hs.fresh _ h)
  have hmem : ∀ d ∈ (m.beginCall session dropping rest phase).calls,
      d ∈ m.calls ∨ d.phase = phase ∧ d.dropping = dropping := by
    intro d hd
    rcases List.mem_append.mp hd with hd | hd
    · exact .inl hd
    · obtain rfl := List.mem_singleton.mp hd
      exact .inr ⟨rfl, rfl⟩
  refine ⟨⟨hs.named, hs.replaced, ?_, ?_, ?_, ?_, hs.exclusive, ?_⟩, Nat.le_refl _, fun _ _ => rfl,
    fun _ _ hf => hf, ?_⟩
  · intro d hd
    rcases hmem d hd with hd | ⟨hp, hdr⟩
    · exact hs.fits d hd
    · rw [hp, hdr]
      exact fits
  · exact hperm.nodup_iff.mpr (List.nodup_cons.mpr ⟨hnew, hs.nodup⟩)
  · intro r hr
    rcases List.mem_cons.mp (hperm.mem_iff.mp hr) with rfl | hr
    · exact Nat.lt_succ_self _
    · exact Nat.lt_succ_of_lt (hs.fresh r hr)
  · intro id x hx
    obtain ⟨d, hd, hp⟩ := hs.queued id x hx
    exact ⟨d, List.mem_append_left _ hd, hp⟩
  · intro id kind s
    have hc :
        (m.beginCall session dropping rest phase).count s ⟨id, kind⟩ = m.count s ⟨id, kind⟩ := by
      simp [count, holdings, Manager.beginCall, Manager.countCall, Call.permit, Permit.count]
    rw [hc]
    exact hs.counted id kind s
  · intro p hp k hk
    rcases List.mem_append.mp hp with hp | hp
    · obtain ⟨d, hd, rfl⟩ := List.mem_map.mp hp
      rcases List.mem_append.mp hd with hd | hd
      · exact .inl ⟨d.permit, List.mem_append_left _ (List.mem_map_of_mem hd), hk⟩
      · rw [List.mem_singleton.mp hd] at hk
        exact absurd hk List.not_mem_nil
    · exact .inl ⟨p, List.mem_append_right _ hp, hk⟩

theorem Sound.beginAcquire (hs : m.Sound) (access : Access) (session : Session) :
    m.Leads (m.beginAcquire access session) :=
  hs.beginCall session false _ rfl

theorem Sound.beginDrop (hs : m.Sound) {name : String} {session : Session} {m' : Manager}
    (h : m.beginDrop name session = .ok m') : m.Leads m' := by
  rw [Manager.beginDrop] at h
  split at h
  · exact absurd h nofun
  · next id hf =>
    obtain rfl := Except.ok.inj h
    exact hs.beginCall session true [] ⟨rfl, (hs.named name id hf).1⟩

/-! ### Steps of calls -/

/-- A place with the number of a call is the place of that call. -/
theorem Sound.place_eq (hs : m.Sound) (hc : c ∈ m.calls) {id : Nat} {x : Place}
    (hx : x ∈ (m.lock id).places) (hreq : x.request = c.request) : c.place? = some (id, x) := by
  obtain ⟨d, hd, hp⟩ := hs.queued id x hx
  rwa [hs.eq_of_request hc hd (by rw [← hreq, Call.request_of_place hp])]

theorem Sound.request_ne (hs : m.Sound) (hc : c ∈ m.calls) (hp : c.place? = none) {id : Nat}
    {x : Place} (hx : x ∈ (m.lock id).places) : x.request ≠ c.request := by
  intro hreq
  rw [hs.place_eq hc hx hreq] at hp
  exact absurd hp (Option.some_ne_none _)

/-- A step that changes the phase of a call, and a lock but not who has been admitted to it. -/
theorem step_turn {id : Nat} {l : TableLock} {rest : List (String × LockKind)} {phase : Phase}
    (range : id < m.locks.length ∨ l = m.lock id) (follows : (m.lock id).Follows l)
    (here : ∀ i x, c.place? = some (i, x) → i = id) (fits : phase.Fits c.dropping m.locks.length)
    (places : ∀ x ∈ l.places, x ∈ (m.lock id).places ∧ x.request ≠ c.request ∨
      Call.place? { c with rest, phase } = some (id, x))
    (active : ∀ kind, l.state.active kind = (m.lock id).state.active kind) :
    m.Step c (some { c with rest, phase }) id l where
  range := range
  follows := follows
  here := here
  request := by
    rintro d ⟨⟩
    rfl
  fits := by
    rintro d ⟨⟩
    exact fits
  places := fun x hx => (places x hx).imp_right fun h => ⟨_, rfl, h⟩
  counted := fun kind session => by
    rw [active kind]
    exact Nat.le_refl _
  elsewhere := fun _ _ _ _ => Nat.le_refl _
  held := by
    rintro d ⟨⟩ k hk
    exact .inl hk

/-- A call without a place goes to a phase without a place. -/
theorem Sound.turn (hs : m.Sound) (hc : c ∈ m.calls) (hp : c.place? = none)
    (rest : List (String × LockKind)) {phase : Phase}
    (fits : phase.Fits c.dropping m.locks.length) : m.Leads (m.turn { c with rest } phase) := by
  have h : m.Step c (some { c with rest, phase }) 0 (m.lock 0) :=
    step_turn (.inr rfl) (.refl _) (by simp [hp]) fits
      (fun x hx => .inl ⟨hx, hs.request_ne hc hp hx⟩) fun _ => rfl
  have := hs.setCall hc h
  rwa [setLock_lock] at this

theorem Sound.grant (hs : m.Sound) (hc : c ∈ m.calls) (hp : c.place? = none) :
    m.Leads (m.grant c).1 := by
  obtain ⟨before, after, hcalls, hdrop, -⟩ := calls_split hs.nodup_calls hc
  have hperm := insertPermit_perm c.permit
  refine hs.of_holdings_perm ?_ ?_ ?_
  · rw [holdings, holdings, hcalls, hdrop]
    refine ((hperm m.permits).append_left _).trans ?_
    simp only [List.map_append, List.map_cons, List.append_assoc, List.cons_append]
    refine .append_left _ ?_
    exact List.perm_middle
  · intro d hd
    exact hs.fits d (List.mem_filter.mp hd).1
  · intro id x hx
    obtain ⟨d, hd, hq⟩ := hs.queued id x hx
    refine ⟨d, List.mem_filter.mpr ⟨hd, ?_⟩, hq⟩
    rw [← Call.request_of_place hq]
    exact bne_iff_ne.mpr (hs.request_ne hc hp hx)

theorem Sound.fetch (hs : m.Sound) (hc : c ∈ m.calls) (hp : c.phase = .ready) :
    m.Leads (m.fetch c).1 := by
  have hnone : c.place? = none := by simp [Call.place?, Phase.queue?, hp]
  rw [Manager.fetch]
  split
  · exact hs.grant hc hnone
  · next name kind rest _ =>
    obtain ⟨hid, hcalls⟩ := hs.table_known name
    have hfits := hs.fits c hc
    rw [hp] at hfits
    exact (hs.table name).trans
      ((hs.table name).sound.turn (hcalls ▸ hc) hnone rest ⟨hfits, hid⟩)

/-- A call joins the queue of a lock. -/
theorem Sound.step_enqueue (hs : m.Sound) (hc : c ∈ m.calls) (hp : c.place? = none) {h : Held}
    (hlt : h.lock < m.locks.length) (deadline : Option Nat) :
    m.Step c (some { c with phase := .waiting h deadline }) h.lock
      ((m.lock h.lock).enqueue c.request h.kind c.session c.dropping) := by
  refine step_turn (.inl hlt) (TableLock.follows_enqueue ..) (by simp [hp]) hlt (fun x hx => ?_)
    fun kind => LockState.active_setPending ..
  rw [TableLock.places_enqueue] at hx
  rcases List.mem_append.mp hx with hx | hx
  · exact .inl ⟨hx, hs.request_ne hc hp hx⟩
  · rw [List.mem_singleton.mp hx]
    exact .inr rfl

theorem Sound.ask (hs : m.Sound) (hc : c ∈ m.calls) {h : Held} (hp : c.phase = .asking h) :
    m.Leads (m.ask c h) := by
  have hnone : c.place? = none := by simp [Call.place?, Phase.queue?, hp]
  have hfits := hs.fits c hc
  rw [hp] at hfits
  rw [Manager.ask]
  split
  · exact hs.turn hc hnone c.rest trivial
  · next l hl =>
    simp only [TableLock.request?, Option.ite_none_left_eq_some, Option.some.injEq] at hl
    rw [← hl.2, ← hfits.1]
    exact hs.setCall hc (hs.step_enqueue hc hnone hfits.2 _)

theorem Sound.shut (hs : m.Sound) (hc : c ∈ m.calls) {id : Nat} (hp : c.phase = .shutting id) :
    m.Leads (m.shut c id) := by
  have hnone : c.place? = none := by simp [Call.place?, Phase.queue?, hp]
  have hfits := hs.fits c hc
  rw [hp] at hfits
  rw [Manager.shut]
  split
  · exact hs.turn hc hnone c.rest trivial
  · next l hl =>
    have hfollows := TableLock.follows_beginClose hl
    simp only [TableLock.beginClose?, Option.ite_none_left_eq_some, Option.some.injEq] at hl
    obtain ⟨-, rfl⟩ := hl
    refine hs.setCall hc (step_turn (.inl hfits.2) hfollows (by simp [hnone]) hfits
      (fun x hx => ?_) fun kind => by cases kind <;> rfl)
    rw [TableLock.places_notifyAll] at hx
    exact .inl ⟨hx, hs.request_ne hc hnone hx⟩

theorem Sound.join (hs : m.Sound) (hc : c ∈ m.calls) {id : Nat} (hp : c.phase = .closing id) :
    m.Leads (m.join c id) := by
  have hnone : c.place? = none := by simp [Call.place?, Phase.queue?, hp]
  have hfits := hs.fits c hc
  rw [hp] at hfits
  rw [Manager.join, TableLock.requestClose, ← hfits.1]
  exact hs.setCall hc (hs.step_enqueue (h := ⟨id, .write⟩) hc hnone hfits.2 none)

/-- How often a session has been admitted after one more admission. -/
theorem count_active_admitted {st st' : LockState} {kind : LockKind} {session : Session}
    (h : st.admit? kind session = some st') (k : LockKind) (s : Session) :
    (st'.active k).count s =
      (st.active k).count s + if session = s ∧ kind = k then 1 else 0 := by
  simp only [LockState.admit?, Option.ite_none_right_eq_some, Option.some.injEq] at h
  rw [← h.2]
  cases kind <;> cases k <;>
    simp [LockState.setActive, LockState.setPending, LockState.active, List.count_cons]

/-- How often a session has been admitted after it has given a table back. -/
theorem count_active_release (l : TableLock) (kind : LockKind) (session : Session) (k : LockKind)
    (s : Session) :
    (l.state.active k).count s ≤
      ((l.release kind session).1.state.active k).count s +
        if session = s ∧ kind = k then 1 else 0 := by
  rw [TableLock.release]
  split
  · next st h =>
    cases kind with
    | read =>
      simp only [LockState.release?, Option.ite_none_right_eq_some, Option.some.injEq] at h
      rw [← h.2]
      cases k with
      | read =>
        have := List.count_erase (a := s) (b := session) (l := l.state.reading)
        simp only [LockState.active, TableLock.state_notifyAll, this, beq_iff_eq, and_true]
        omega
      | write => simp [LockState.active]
    | write =>
      simp only [LockState.release?, Option.ite_none_right_eq_some, Option.some.injEq] at h
      rw [← h.2]
      cases k with
      | read => simp [LockState.active]
      | write =>
        have := List.cons_head?_tail (Option.mem_def.mpr h.1)
        simp only [LockState.active, TableLock.state_notifyAll, and_true]
        rw [← this, List.count_cons, List.tail_cons]
        simp
  · exact Nat.le_add_right ..

/-- A call is admitted to the lock that it waits for. -/
theorem Sound.step_admit (hs : m.Sound) (hc : c ∈ m.calls) {h : Held} {deadline : Option Nat}
    (hp : c.phase = .waiting h deadline) {l : TableLock} (hfollows : (m.lock h.lock).Follows l)
    (hplaces : ∀ x ∈ l.places, x ∈ (m.lock h.lock).places ∧ x.request ≠ c.request)
    (hadm : (m.lock h.lock).state.admit? h.kind c.session = some l.state)
    (hopen : (m.lock h.lock).state.closed = true → c.dropping = true)
    {c' : Option Call} (hc' : ∀ d ∈ c', c.dropping = false ∧
      d = { c with held := c.held ++ [h], phase := .ready }) : m.Step c c' h.lock l where
  range := .inl <| by
    have := hs.fits c hc
    rwa [hp] at this
  follows := hfollows
  here := by
    rintro i x hx
    rw [Call.place?, hp] at hx
    exact (Prod.mk.inj (Option.some.inj hx)).1.symm
  request := fun d hd => by rw [(hc' d hd).2]
  fits := fun d hd => by rw [(hc' d hd).2]; exact (hc' d hd).1
  places := fun x hx => .inl (hplaces x hx)
  counted := by
    intro kind session
    rw [count_active_admitted hadm]
    cases hd : c' with
    | none => simp only [Option.elim_none]; omega
    | some d =>
      have := Permit.count_concat c.request c.session session c.held h ⟨h.lock, kind⟩
      rw [Option.elim_some, (hc' d hd).2]
      simp only [Call.permit]
      rw [this]
      have hkind : h = ⟨h.lock, kind⟩ ↔ h.kind = kind := by cases h; simp
      simp only [hkind]
      omega
  elsewhere := by
    intro i hi kind session
    cases hd : c' with
    | none => exact Nat.zero_le _
    | some d =>
      have := Permit.count_concat c.request c.session session c.held h ⟨i, kind⟩
      have hne : h ≠ ⟨i, kind⟩ := fun heq => hi (by rw [heq])
      rw [Option.elim_some, (hc' d hd).2]
      simp only [Call.permit]
      rw [this, if_neg fun hand => hne hand.2]
      exact Nat.le_refl _
  held := by
    intro d hd k hk
    obtain ⟨hdrop, rfl⟩ := hc' d hd
    rcases List.mem_append.mp hk with hk | hk
    · exact .inl hk
    · have hlt := hs.fits c hc
      rw [hp] at hlt
      refine .inr ⟨by rw [List.mem_singleton.mp hk], hlt, Bool.eq_false_iff.mpr fun hclosed => ?_⟩
      rw [hopen hclosed] at hdrop
      exact Bool.false_ne_true hdrop.symm

theorem Sound.check (hs : m.Sound) (hc : c ∈ m.calls) {h : Held} {deadline : Option Nat}
    (hp : c.phase = .waiting h deadline) : m.Leads (m.check c h deadline).1 := by
  have hplace : c.place? = some (h.lock, ⟨c.request, h.kind, c.session, c.dropping⟩) := by
    simp [Call.place?, Phase.queue?, hp]
  have hfits := hs.fits c hc
  rw [hp] at hfits
  have hhere : ∀ i x, c.place? = some (i, x) → i = h.lock := by
    rw [hplace]
    rintro i x ⟨⟩
    rfl
  have hcases := TableLock.recheck_cases (m.lock h.lock) c.request
  have hfollows := TableLock.follows_recheck (m.lock h.lock) c.request
  rw [Manager.check]
  generalize (m.lock h.lock).recheck c.request = result at *
  obtain ⟨l, verdict⟩ := result
  dsimp only at *
  obtain ⟨rfl, hst, hpl⟩ | ⟨w, hmem, hreq, hpl, ⟨rfl, -, -, hst⟩ | ⟨rfl, hopen, hadm⟩⟩ := hcases
  · -- The call goes on waiting, or will leave the queue: it keeps its place.
    have hstep : ∀ phase : Phase, phase.queue? = some h → phase.Fits c.dropping m.locks.length →
        m.Step c (some { c with phase }) h.lock l := by
      intro phase hq hf
      refine step_turn (.inl hfits) hfollows hhere hf (fun x hx => ?_) fun kind => by rw [hst]
      rw [hpl] at hx
      by_cases hreq : x.request = c.request
      · refine .inr ?_
        rw [← hs.place_eq hc hx hreq, hplace, Call.place?, hq]
        rfl
      · exact .inl ⟨hx, hreq⟩
    dsimp only
    split
    · exact hs.setCall hc (hstep (.leaving h _) rfl hfits)
    · refine hs.setLock hc (c := c) ?_
      have := hstep c.phase (by rw [hp]; rfl) (by rw [hp]; exact hfits)
      exact this
  · -- The table has been closed.
    refine hs.setCall hc (step_turn (.inl hfits) hfollows hhere trivial
      (fun x hx => .inl ((hpl x).mp hx)) fun kind => ?_)
    rw [hst]
    exact LockState.active_setPending ..
  · -- The place was that of this call, so it has been admitted as it asked.
    have hw := hs.place_eq hc hmem hreq
    rw [hplace] at hw
    simp only [Waiter.place, Option.some.injEq, Prod.mk.injEq, Place.mk.injEq, true_and] at hw
    rw [← hw.2.1, ← hw.2.2.1] at hadm
    rw [← hw.2.2.2] at hopen
    dsimp only
    split
    · refine hs.dropCall hc (hs.step_admit hc hp hfollows (fun x hx => (hpl x).mp hx) hadm hopen ?_)
      rintro d ⟨⟩
    · next hd =>
      refine hs.setCall hc (hs.step_admit hc hp hfollows (fun x hx => (hpl x).mp hx) hadm hopen ?_)
      rintro d ⟨⟩
      exact ⟨Bool.eq_false_iff.mpr hd, rfl⟩

theorem Sound.leave (hs : m.Sound) (hc : c ∈ m.calls) {h : Held} {error : Option LockError}
    (hp : c.phase = .leaving h error) : m.Leads (m.leave c h error) := by
  have hplace : c.place? = some (h.lock, ⟨c.request, h.kind, c.session, c.dropping⟩) := by
    simp [Call.place?, Phase.queue?, hp]
  have hfits := hs.fits c hc
  rw [hp] at hfits
  rw [Manager.leave]
  refine hs.setCall hc (step_turn (.inl hfits) (TableLock.follows_abandon ..) ?_ trivial
    (fun x hx => .inl (TableLock.mem_places_abandon hx)) fun kind => TableLock.active_abandon ..)
  rw [hplace]
  rintro i x ⟨⟩
  rfl

/-- A call gives back the newest of its locks. -/
theorem Sound.step_giveBack (hs : m.Sound) (hc : c ∈ m.calls) (hp : c.place? = none)
    {held : List Held} {h : Held} (hheld : c.held = held ++ [h]) :
    m.Step c (some { c with held }) h.lock ((m.lock h.lock).release h.kind c.session).1 where
  range := by
    have hmem : c.permit ∈ m.holdings := List.mem_append_left _ (List.mem_map_of_mem hc)
    have hh : h ∈ c.permit.held := by
      rw [Call.permit, hheld]
      exact List.mem_append_right _ (List.mem_singleton_self h)
    exact .inl (lt_of_active (hs.admitted hmem hh))
  follows := TableLock.follows_release ..
  here := by simp [hp]
  request := by
    rintro d ⟨⟩
    rfl
  fits := by
    rintro d ⟨⟩
    exact hs.fits c hc
  places := by
    intro x hx
    rw [TableLock.places_release] at hx
    exact .inl ⟨hx, hs.request_ne hc hp hx⟩
  counted := by
    intro kind session
    have hcount := Permit.count_concat c.request c.session session held h ⟨h.lock, kind⟩
    have hactive := count_active_release (m.lock h.lock) h.kind c.session kind session
    have hkind : h = ⟨h.lock, kind⟩ ↔ h.kind = kind := by cases h; simp
    simp only [Option.elim_some, Call.permit, hheld]
    rw [hcount]
    simp only [hkind]
    omega
  elsewhere := by
    intro i hi kind session
    have hcount := Permit.count_concat c.request c.session session held h ⟨i, kind⟩
    simp only [Option.elim_some, Call.permit, hheld]
    rw [hcount]
    omega
  held := by
    rintro d ⟨⟩ k hk
    rw [hheld]
    exact .inl (List.mem_append_left _ hk)

theorem Sound.finish (hs : m.Sound) (hc : c ∈ m.calls) {error : Option LockError}
    (hp : c.phase = .ending error) : m.Leads (m.finish c error).1 := by
  have hnone : c.place? = none := by simp [Call.place?, Phase.queue?, hp]
  rw [Manager.finish]
  split
  · next h hlast =>
    have hheld : c.held = c.held.dropLast ++ [h] :=
      (List.dropLast_append_getLast? h (Option.mem_def.mpr hlast)).symm
    exact hs.setCall hc (hs.step_giveBack hc hnone hheld)
  · have hstep : m.Step c none 0 (m.lock 0) :=
      ⟨.inr rfl, .refl _, by simp [hnone], nofun, nofun,
        fun x hx => .inl ⟨hx, hs.request_ne hc hnone hx⟩, fun _ _ => by simp,
        fun _ _ _ _ => Nat.zero_le _, nofun⟩
    have := hs.dropCall hc hstep
    rwa [setLock_lock] at this

theorem Sound.act (hs : m.Sound) (request : Nat) : m.Leads (m.act request).1 := by
  rw [Manager.act]
  split
  · exact hs.leads
  · next c hcall =>
    obtain ⟨hc, -⟩ := call?_eq_some hcall
    split
    · next hp => exact hs.fetch hc hp
    · next h hp => exact hs.ask hc hp
    · next id hp => exact hs.shut hc hp
    · next id hp => exact hs.join hc hp
    · next h deadline hp => exact hs.check hc hp
    · next h error hp => exact hs.leave hc hp
    · next error hp => exact hs.finish hc hp

/-! ### Giving up and giving back -/

theorem Sound.abandon (hs : m.Sound) (hc : c ∈ m.calls) : m.Leads (m.abandon c) := by
  rw [Manager.abandon]
  split
  · next h deadline hp =>
    have hplace : c.place? = some (h.lock, ⟨c.request, h.kind, c.session, c.dropping⟩) := by
      simp [Call.place?, Phase.queue?, hp]
    have hfits := hs.fits c hc
    rw [hp] at hfits
    have hstep : m.Step c (some { c with phase := .leaving h none }) h.lock (m.lock h.lock) := by
      refine step_turn (.inr rfl) (.refl _) ?_ hfits (fun x hx => ?_) fun _ => rfl
      · rw [hplace]
        rintro i x ⟨⟩
        rfl
      · by_cases hreq : x.request = c.request
        · refine .inr ?_
          rw [← hs.place_eq hc hx hreq, hplace]
          rfl
        · exact .inl ⟨hx, hreq⟩
    have := hs.setCall hc hstep
    rwa [setLock_lock] at this
  · exact hs.leads

theorem Sound.releasePermit (hs : m.Sound) {p : Permit} (hp : p ∈ m.permits) :
    m.Leads (m.releasePermit p) := by
  have hn := hs.nodup
  rw [map_request_holdings] at hn
  obtain ⟨before, after, hsplit, hdrop, -⟩ :=
    filter_split Permit.request (List.nodup_append.mp hn).2.1 hp
  have hperm := insertCall_perm
  rw [Manager.releasePermit]
  generalize hd : (⟨p.request, p.session, false, p.held, [], .ending none⟩ : Call) = d
  have hdp : d.permit = p := by rw [← hd]; rfl
  refine hs.of_holdings_perm ?_ ?_ ?_
  · rw [holdings, holdings, hsplit]
    dsimp only
    rw [hsplit] at hdrop
    rw [hdrop]
    refine (((hperm d m.calls).map Call.permit).append_right _).trans ?_
    rw [List.map_cons, hdp, ← List.append_assoc, ← List.append_assoc]
    exact List.perm_middle.symm
  · intro e he
    rcases List.mem_cons.mp ((hperm d m.calls).mem_iff.mp he) with rfl | he
    · rw [← hd]
      trivial
    · exact hs.fits e he
  · intro id x hx
    obtain ⟨e, he, hq⟩ := hs.queued id x hx
    exact ⟨e, (hperm d m.calls).mem_iff.mpr (List.mem_cons_of_mem _ he), hq⟩

/-! ### Moves -/

end Manager

/-- The table that a move creates. -/
def ManagerMove.creates? : ManagerMove → Option String
  | .createTable name => some name
  | .acquire (.createTable t) _ => some t.target
  | _ => none

namespace Manager

variable {m : Manager}

/-- The manager after the creation of the table that a move creates, if it creates one. -/
def created (m : Manager) (mv : ManagerMove) : Manager :=
  match mv.creates? with
  | some name => (m.createTable name).1
  | none => m

theorem Sound.created (hs : m.Sound) (mv : ManagerMove) : (m.created mv).Sound := by
  rw [Manager.created]
  split
  · exact hs.createTable _
  · exact hs

/-- What a move does after it has created its table leads on. -/
theorem Sound.leads_move (hs : m.Sound) (mv : ManagerMove) : (m.created mv).Leads (m.move mv) := by
  cases mv with
  | table name => exact hs.table name
  | createTable name => exact (hs.createTable name).leads
  | dropTable name session =>
    rw [Manager.move]
    split
    · next h => exact hs.beginDrop h
    · exact hs.countCall
  | acquire s session =>
    cases s with
    | createTable t => exact (hs.createTable t.target).beginAcquire _ session
    | _ => exact hs.beginAcquire _ session
  | acquireAccess access session => exact hs.beginAcquire access session
  | act request => exact hs.act request
  | abandon request =>
    rw [Manager.move]
    split
    · next c h => exact hs.abandon (call?_eq_some h).1
    · exact hs.leads
  | release request =>
    rw [Manager.move]
    split
    · next p h => exact hs.releasePermit (List.mem_of_find?_eq_some h)
    · exact hs.leads
  | advance ms =>
    exact ⟨⟨hs.named, hs.replaced, hs.fits, hs.nodup, hs.fresh, hs.queued, hs.exclusive,
      hs.counted⟩, Nat.le_refl _, fun _ _ => rfl, fun _ _ hf => hf,
      fun p hp _ hh => .inl ⟨p, hp, hh⟩⟩

theorem Sound.move (hs : m.Sound) (mv : ManagerMove) : (m.move mv).Sound := (hs.leads_move mv).sound

/-- A run that creates no table leads on. -/
theorem Sound.leads_run (hs : m.Sound) {moves : List ManagerMove}
    (h : ∀ mv ∈ moves, mv.creates? = none) : m.Leads (m.run moves) := by
  induction moves generalizing m with
  | nil => exact hs.leads
  | cons mv moves ih =>
    have hmove := hs.leads_move mv
    rw [Manager.created, h mv List.mem_cons_self] at hmove
    exact hmove.trans (ih (hs.move mv) fun mv' hmv => h mv' (List.mem_cons_of_mem _ hmv))

/-- A manager is sound after every run. -/
theorem sound_run (timeout : Option UInt64) (moves : List ManagerMove) :
    ((new timeout).run moves).Sound :=
  run_induction (P := Sound) (fun _ mv h => h.move mv) (new timeout) (sound_new timeout) moves

end Manager

end SqlTree
