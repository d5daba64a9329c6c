import Mathlib.Algebra.GroupWithZero.Nat
import Mathlib.Data.List.Nodup
import SqlTree.Lock.Manager
import SqlTree.Proofs.Lock.Places

/-!
# What calls and permits hold

A call that has not ended holds its locks as a permit does, and the two together are the holdings of
a manager. The queues and lists of a lock know sessions only, so what ties a holding to the state of
its lock is a count: a session stands among the admitted ones of a lock at least as often as its
holdings have that lock. `Manager.Sound` is this and what keeps it up: that every place in a queue
belongs to one call, which waits there, and that each lock keeps a writer alone.

## Main definitions

* `Manager.holdings`, `Manager.count`: the holdings, and how often those of a session have a lock.
* `Manager.Sound`: what is true of a manager between any two steps.
* `Manager.Step`: what one step of a call does to the call and to one lock.
* `Manager.Leads`: what a manager becomes by moves that create no table.

## Main results

* `Manager.Sound.step`: such a step keeps a manager sound.
* `Manager.Sound.leads_step`: it leads on.
* `Manager.Sound.of_holdings_perm`: so does handing locks from a call to its permit or back.
-/

namespace SqlTree

/-- Whether a call can be in a phase, given whether it drops a table and how many locks there
are. -/
def Phase.Fits (dropping : Bool) (locks : Nat) : Phase → Prop
  | .ready => dropping = false
  | .asking h => dropping = false ∧ h.lock < locks
  | .shutting id => dropping = true ∧ id < locks
  | .closing id => dropping = true ∧ id < locks
  | .waiting h _ => h.lock < locks
  | .leaving h _ => h.lock < locks
  | .ending _ => True

theorem Phase.Fits.mono {phase : Phase} {dropping : Bool} {locks more : Nat}
    (h : phase.Fits dropping locks) (hle : locks ≤ more) : phase.Fits dropping more := by
  cases phase with
  | ready => exact h
  | asking _ => exact ⟨h.1, Nat.lt_of_lt_of_le h.2 hle⟩
  | shutting _ => exact ⟨h.1, Nat.lt_of_lt_of_le h.2 hle⟩
  | closing _ => exact ⟨h.1, Nat.lt_of_lt_of_le h.2 hle⟩
  | waiting _ _ => exact Nat.lt_of_lt_of_le h hle
  | leaving _ _ => exact Nat.lt_of_lt_of_le h hle
  | ending _ => trivial

/-- The lock in whose queue a call has a place. -/
def Phase.queue? : Phase → Option Held
  | .waiting h _ => some h
  | .leaving h _ => some h
  | _ => none

namespace Call

/-- What a call holds. -/
def permit (c : Call) : Permit := ⟨c.request, c.session, c.held⟩

/-- The place of a call, with the number of the lock in whose queue it is. -/
def place? (c : Call) : Option (Nat × Place) :=
  c.phase.queue?.map fun h => (h.lock, ⟨c.request, h.kind, c.session, c.dropping⟩)

theorem request_of_place {c : Call} {id : Nat} {x : Place} (h : c.place? = some (id, x)) :
    x.request = c.request := by
  obtain ⟨w, -, hw⟩ := Option.map_eq_some_iff.mp h
  rw [← (Prod.mk.inj hw).2]

end Call

/-- How often a holding has a lock for a session. -/
def Permit.count (p : Permit) (session : Session) (h : Held) : Nat :=
  if p.session = session then p.held.count h else 0

theorem Permit.count_concat (request : Nat) (session s : Session) (held : List Held) (h k : Held) :
    Permit.count ⟨request, session, held ++ [h]⟩ s k =
      Permit.count ⟨request, session, held⟩ s k + if session = s ∧ h = k then 1 else 0 := by
  by_cases hs : session = s
  · simp [Permit.count, hs, List.count_cons]
  · simp [Permit.count, hs]

theorem Permit.count_pos {p : Permit} {h : Held} (hh : h ∈ p.held) : 0 < p.count p.session h := by
  rw [Permit.count, if_pos rfl]
  exact List.count_pos_iff.mpr hh

theorem sum_count_erase {p : Permit} {ps : List Permit} (hp : p ∈ ps) (session : Session)
    (h : Held) :
    (ps.map fun q => q.count session h).sum =
      p.count session h + ((ps.erase p).map fun q => q.count session h).sum :=
  ((List.perm_cons_erase hp).map _).sum_nat

namespace Manager

variable {m : Manager}

/-- What calls and permits hold. -/
def holdings (m : Manager) : List Permit := m.calls.map Call.permit ++ m.permits

/-- How often the holdings of a session have a lock. -/
def count (m : Manager) (session : Session) (h : Held) : Nat :=
  (m.holdings.map fun p => p.count session h).sum

/-- Two holdings of one session that have the same lock are counted twice. -/
theorem two_le_count {p q : Permit} (hp : p ∈ m.holdings) (hq : q ∈ m.holdings)
    (hne : p.request ≠ q.request) (hsession : p.session = q.session) {h : Held} (hh : h ∈ p.held)
    (hk : h ∈ q.held) : 2 ≤ m.count p.session h := by
  have hq' : q ∈ m.holdings.erase p := (List.mem_erase_of_ne fun heq => hne (by rw [heq])).mpr hq
  have hcount : m.count p.session h = _ := sum_count_erase hp p.session h
  have hcount' := sum_count_erase hq' p.session h
  have hp1 := Permit.count_pos hh
  have hq1 := Permit.count_pos hk
  rw [← hsession] at hq1
  omega

theorem map_request_holdings (m : Manager) :
    m.holdings.map Permit.request = m.calls.map Call.request ++ m.permits.map Permit.request := by
  simp [holdings, Call.permit]

/-! ### Locks by their numbers -/

theorem lock_setLock {id : Nat} {l : TableLock} (h : id < m.locks.length ∨ l = m.lock id)
    (i : Nat) : (m.setLock id l).lock i = if i = id then l else m.lock i := by
  have hset : (m.setLock id l).lock i = ((m.locks.set id l)[i]?).getD (.new "") := by
    rw [lock, setLock, List.getD_eq_getElem?_getD]
  have hold : m.lock i = (m.locks[i]?).getD (.new "") := by
    rw [lock, List.getD_eq_getElem?_getD]
  rw [hset, hold, List.getElem?_set]
  by_cases hi : i = id
  · subst hi
    by_cases hlt : i < m.locks.length
    · simp [hlt]
    · have hl := h.resolve_left hlt
      simp [hlt, hl, hold]
  · simp [hi, Ne.symm hi]

theorem lock_of_length_le {id : Nat} (h : m.locks.length ≤ id) : m.lock id = .new "" := by
  rw [lock, List.getD_eq_getElem?_getD, List.getElem?_eq_none h, Option.getD_none]

/-- A lock whose state is not the first one has been registered. -/
theorem lt_of_active {id : Nat} {kind : LockKind} {session : Session}
    (h : 0 < ((m.lock id).state.active kind).count session) : id < m.locks.length := by
  by_contra hlt
  rw [lock_of_length_le (Nat.le_of_not_lt hlt)] at h
  cases kind <;> simp [TableLock.new, LockState.empty, LockState.active] at h

/-! ### Calls by their numbers -/

theorem call?_eq_some {request : Nat} {c : Call} (h : m.call? request = some c) :
    c ∈ m.calls ∧ c.request = request :=
  ⟨List.mem_of_find?_eq_some h, by simpa using List.find?_some h⟩

theorem call?_setCall {c c' : Call} (h : m.call? c'.request = some c) :
    (m.setCall c').call? c'.request = some c' := by
  have hsame : ((fun d : Call => d.request == c'.request) ∘
      fun d => if d.request = c'.request then c' else d) = fun d => d.request == c'.request := by
    funext d
    by_cases hd : d.request = c'.request
    · simp [hd]
    · simp [hd]
  have hfind : m.calls.find? (fun d => d.request == c'.request) = some c := h
  rw [call?, setCall, List.find?_map, hsame, hfind, Option.map_some, if_pos (call?_eq_some h).2]

/-- What has a number of its own stands at one place in a list. -/
theorem filter_split {α : Type} (number : α → Nat) {xs : List α} (hn : (xs.map number).Nodup)
    {a : α} (ha : a ∈ xs) :
    ∃ before after, xs = before ++ a :: after ∧
      (xs.filter fun x => number x != number a) = before ++ after ∧
      ∀ x ∈ before ++ after, number x ≠ number a := by
  obtain ⟨before, after, rfl⟩ := List.append_of_mem ha
  rw [List.map_append, List.map_cons, List.nodup_middle, List.nodup_cons] at hn
  have hother : ∀ x ∈ before ++ after, number x ≠ number a := by
    intro x hx heq
    refine hn.1 ?_
    rw [← List.map_append, ← heq]
    exact List.mem_map_of_mem hx
  refine ⟨before, after, rfl, ?_, hother⟩
  rw [List.filter_append, List.filter_cons_of_neg (by simp), ← List.filter_append,
    List.filter_eq_self]
  exact fun x hx => bne_iff_ne.mpr (hother x hx)

/-- What has a number of its own is found by it. -/
theorem find?_number {α : Type} (number : α → Nat) {xs : List α} (hn : (xs.map number).Nodup)
    {a : α} (ha : a ∈ xs) : xs.find? (fun x => number x == number a) = some a := by
  cases hfind : xs.find? (fun x => number x == number a) with
  | none => exact absurd (beq_self_eq_true (number a)) (List.find?_eq_none.mp hfind a ha)
  | some b =>
    have hb : number b = number a := by simpa using List.find?_some hfind
    rw [List.inj_on_of_nodup_map hn (List.mem_of_find?_eq_some hfind) ha hb]

/-- Dropping or changing a call is done at its place in the list of calls. -/
theorem calls_split {c : Call} (hn : (m.calls.map Call.request).Nodup) (hc : c ∈ m.calls) :
    ∃ before after, m.calls = before ++ c :: after ∧
      (m.dropCall c.request).calls = before ++ after ∧
      ∀ c' : Call, c'.request = c.request → (m.setCall c').calls = before ++ c' :: after := by
  obtain ⟨before, after, hsplit, hdrop, hother⟩ := filter_split Call.request hn hc
  refine ⟨before, after, hsplit, hdrop, fun c' hreq => ?_⟩
  have hkeep : ∀ ds : List Call, (∀ d ∈ ds, d.request ≠ c.request) →
      ds.map (fun d => if d.request = c'.request then c' else d) = ds := by
    intro ds hds
    refine (List.map_congr_left fun d hd => ?_).trans (List.map_id ds)
    rw [hreq, if_neg (hds d hd), id]
  rw [setCall, hsplit, List.map_append, List.map_cons, if_pos hreq.symm,
    hkeep before fun d hd => hother d (List.mem_append_left _ hd),
    hkeep after fun d hd => hother d (List.mem_append_right _ hd)]

theorem insertPermit_perm (p : Permit) (ps : List Permit) : (insertPermit p ps).Perm (p :: ps) := by
  induction ps with
  | nil => exact .refl _
  | cons q ps ih =>
    rw [insertPermit]
    split
    · exact .refl _
    · exact (ih.cons q).trans (.swap ..)

theorem insertCall_perm (c : Call) (cs : List Call) : (insertCall c cs).Perm (c :: cs) := by
  induction cs with
  | nil => exact .refl _
  | cons d cs ih =>
    rw [insertCall]
    split
    · exact .refl _
    · exact (ih.cons d).trans (.swap ..)

/-! ### Soundness -/

/-- What is true of a manager between any two steps. -/
structure Sound (m : Manager) : Prop where
  /-- The lock registered under a name has that name. -/
  named : ∀ name id, m.find? name = some id → id < m.locks.length ∧ (m.lock id).name = name
  /-- A lock that is not registered any more has been closed. -/
  replaced : ∀ id < m.locks.length,
    m.find? (m.lock id).name = some id ∨ (m.lock id).state.closed = true
  fits : ∀ c ∈ m.calls, c.phase.Fits c.dropping m.locks.length
  /-- No two holdings are those of one call. -/
  nodup : (m.holdings.map Permit.request).Nodup
  /-- The next call has a new number. -/
  fresh : ∀ r ∈ m.holdings.map Permit.request, r < m.next
  /-- A place in a queue is that of a call which waits there. -/
  queued : ∀ id, ∀ x ∈ (m.lock id).places, ∃ c ∈ m.calls, c.place? = some (id, x)
  exclusive : ∀ id, (m.lock id).state.Exclusive
  /-- What a session holds it has been admitted to. -/
  counted : ∀ id kind session,
    m.count session ⟨id, kind⟩ ≤ ((m.lock id).state.active kind).count session

theorem Sound.nodup_calls (h : m.Sound) : (m.calls.map Call.request).Nodup := by
  have hn := h.nodup
  rw [map_request_holdings] at hn
  exact (List.nodup_append.mp hn).1

theorem Sound.eq_of_request (h : m.Sound) {c d : Call} (hc : c ∈ m.calls) (hd : d ∈ m.calls)
    (hreq : c.request = d.request) : c = d :=
  List.inj_on_of_nodup_map h.nodup_calls hc hd hreq

theorem Sound.call?_of_mem (h : m.Sound) {c : Call} (hc : c ∈ m.calls) :
    m.call? c.request = some c :=
  find?_number Call.request h.nodup_calls hc

theorem Sound.permit?_of_mem (h : m.Sound) {p : Permit} (hp : p ∈ m.permits) :
    m.permit? p.request = some p := by
  have hn := h.nodup
  rw [map_request_holdings] at hn
  exact find?_number Permit.request (List.nodup_append.mp hn).2.1 hp

/-- Whoever holds a lock has been admitted to it. -/
theorem Sound.admitted (hs : m.Sound) {p : Permit} (hp : p ∈ m.holdings) {h : Held}
    (hh : h ∈ p.held) : 0 < ((m.lock h.lock).state.active h.kind).count p.session := by
  have hone : 0 < p.count p.session h := by
    rw [Permit.count, if_pos rfl]
    exact List.count_pos_iff.mpr hh
  have hsum : m.count p.session h = _ := sum_count_erase hp p.session h
  have hle : m.count p.session h ≤ ((m.lock h.lock).state.active h.kind).count p.session :=
    hs.counted h.lock h.kind p.session
  omega

theorem sound_new (timeout : Option UInt64) : (new timeout).Sound where
  named := by simp [new, find?]
  replaced := by simp [new]
  fits := by simp [new]
  nodup := by simp [new, holdings]
  fresh := by simp [new, holdings]
  queued := by simp [new, lock, TableLock.new, TableLock.places]
  exclusive := fun _ => by simpa [new, lock, TableLock.new] using LockState.exclusive_empty
  counted := by simp [new, count, holdings]

/-- What one step of the call `c` does: the call becomes `c'` or ends, and the lock `id` becomes
`l`. -/
structure Step (m : Manager) (c : Call) (c' : Option Call) (id : Nat) (l : TableLock) : Prop where
  range : id < m.locks.length ∨ l = m.lock id
  follows : (m.lock id).Follows l
  /-- The call has no place in the queue of another lock. -/
  here : ∀ i x, c.place? = some (i, x) → i = id
  request : ∀ d ∈ c', d.request = c.request
  fits : ∀ d ∈ c', d.phase.Fits d.dropping m.locks.length
  /-- A place in the queue of the lock is an old one of another call, or that of this one. -/
  places : ∀ x ∈ l.places, (x ∈ (m.lock id).places ∧ x.request ≠ c.request) ∨
    ∃ d ∈ c', d.place? = some (id, x)
  /-- What the call holds now and has not held before has been admitted, and nothing has been given
  back that is still held. -/
  counted : ∀ kind session,
    (c'.elim 0 fun d => d.permit.count session ⟨id, kind⟩) +
        ((m.lock id).state.active kind).count session ≤
      c.permit.count session ⟨id, kind⟩ + (l.state.active kind).count session
  elsewhere : ∀ i ≠ id, ∀ kind session,
    (c'.elim 0 fun d => d.permit.count session ⟨i, kind⟩) ≤ c.permit.count session ⟨i, kind⟩
  /-- A lock is taken only while it is open. -/
  held : ∀ d ∈ c', ∀ h ∈ d.held,
    h ∈ c.held ∨ h.lock = id ∧ id < m.locks.length ∧ (m.lock id).state.closed = false

theorem requests_sublist {c : Call} {c' : Option Call} {before after : List Call}
    (h : ∀ d ∈ c', d.request = c.request) :
    ((before ++ c'.toList ++ after).map Call.request).Sublist
      ((before ++ c :: after).map Call.request) := by
  cases c' with
  | none => simp
  | some d => simp [h d rfl]

theorem count_split (before after : List Call) (permits : List Permit) (c : Option Call)
    (session : Session) (h : Held) :
    (((before ++ c.toList ++ after).map Call.permit ++ permits).map
        fun p => p.count session h).sum =
      (c.elim 0 fun d => d.permit.count session h) +
        (((before ++ after).map Call.permit ++ permits).map fun p => p.count session h).sum := by
  cases c with
  | none => simp
  | some d =>
    simp only [Option.toList_some, List.map_append, List.sum_append, List.map_cons, List.map_nil,
      List.sum_cons, List.sum_nil, Option.elim_some]
    omega

section

variable {c : Call} {c' : Option Call} {before after : List Call} {id : Nat} {l : TableLock}

/-- After a step of a call, a place in a queue is that of a call which waits there. -/
theorem Sound.queued_step (hs : m.Sound) (hcalls : m.calls = before ++ c :: after)
    (h : m.Step c c' id l) (i : Nat) {x : Place}
    (hx : x ∈ (if i = id then l else m.lock i).places) :
    ∃ d ∈ before ++ c'.toList ++ after, d.place? = some (i, x) := by
  have hkept : ∀ d ∈ m.calls, d.request ≠ c.request → d ∈ before ++ c'.toList ++ after := by
    intro d hd hne
    rw [hcalls] at hd
    simp only [List.mem_append, List.mem_cons] at hd ⊢
    rcases hd with hd | rfl | hd
    · exact .inl (.inl hd)
    · exact absurd rfl hne
    · exact .inr hd
  by_cases hi : i = id
  · subst hi
    rw [if_pos rfl] at hx
    rcases h.places x hx with ⟨hx, hne⟩ | ⟨d, hd, hp⟩
    · obtain ⟨d, hd, hp⟩ := hs.queued i x hx
      exact ⟨d, hkept d hd (Call.request_of_place hp ▸ hne), hp⟩
    · have hd' : d ∈ before ++ c'.toList ++ after := by
        simp only [List.mem_append, Option.mem_toList]
        exact .inl (.inr hd)
      exact ⟨d, hd', hp⟩
  · rw [if_neg hi] at hx
    obtain ⟨d, hd, hp⟩ := hs.queued i x hx
    refine ⟨d, hkept d hd fun heq => hi ?_, hp⟩
    rw [hs.eq_of_request hd (by rw [hcalls]; simp) heq] at hp
    exact h.here i x hp

/-- After a step of a call, what a session holds it has been admitted to. -/
theorem Sound.counted_step (hs : m.Sound) (hcalls : m.calls = before ++ c :: after)
    (h : m.Step c c' id l) (i : Nat) (kind : LockKind) (session : Session) :
    (((before ++ c'.toList ++ after).map Call.permit ++ m.permits).map
        fun p => p.count session ⟨i, kind⟩).sum ≤
      ((if i = id then l else m.lock i).state.active kind).count session := by
  have hold := hs.counted i kind session
  have hcount := count_split before after m.permits (some c) session ⟨i, kind⟩
  simp only [Option.toList_some, List.append_assoc, List.singleton_append, Option.elim_some]
    at hcount
  rw [count, holdings, hcalls, hcount] at hold
  refine le_of_eq_of_le (count_split before after m.permits c' session ⟨i, kind⟩) ?_
  by_cases hi : i = id
  · subst hi
    have := h.counted kind session
    rw [if_pos rfl]
    omega
  · have := h.elsewhere i hi kind session
    rw [if_neg hi]
    omega

/-- A step of a call keeps a manager sound. -/
theorem Sound.step (hs : m.Sound) (hcalls : m.calls = before ++ c :: after)
    (h : m.Step c c' id l) :
    Sound { m.setLock id l with calls := before ++ c'.toList ++ after } := by
  have hlock : ∀ i, lock { m.setLock id l with calls := before ++ c'.toList ++ after } i =
      if i = id then l else m.lock i := lock_setLock h.range
  have hname : ∀ i, (if i = id then l else m.lock i).name = (m.lock i).name := by
    intro i
    split
    · next hi => rw [hi, h.follows.name]
    · rfl
  have hlen : (m.locks.set id l).length = m.locks.length := List.length_set
  have hsub : ((holdings { m.setLock id l with calls := before ++ c'.toList ++ after }).map
      Permit.request).Sublist (m.holdings.map Permit.request) := by
    rw [map_request_holdings, map_request_holdings, hcalls]
    exact (requests_sublist h.request).append (.refl _)
  constructor
  case named =>
    intro name i hi
    obtain ⟨hlt, hn⟩ := hs.named name i hi
    exact ⟨by rw [setLock, hlen]; exact hlt, by rw [hlock, hname, hn]⟩
  case replaced =>
    intro i hi
    rw [setLock, hlen] at hi
    rw [hlock, hname]
    refine (hs.replaced i hi).imp_right fun hc => ?_
    split
    · next hid => exact h.follows.closed (hid ▸ hc)
    · exact hc
  case fits =>
    intro d hd
    rw [setLock, hlen]
    obtain hd | hd : d ∈ c' ∨ d ∈ m.calls := by
      rw [hcalls]
      simp only [List.mem_append, List.mem_cons, Option.mem_toList] at hd ⊢
      tauto
    · exact h.fits d hd
    · exact hs.fits d hd
  case nodup => exact hs.nodup.sublist hsub
  case fresh => exact fun r hr => hs.fresh r (hsub.subset hr)
  case queued =>
    intro i x hx
    rw [hlock] at hx
    exact hs.queued_step hcalls h i hx
  case exclusive =>
    intro i
    rw [hlock]
    split
    · exact h.follows.exclusive (hs.exclusive id)
    · exact hs.exclusive i
  case counted =>
    intro i kind session
    rw [hlock]
    exact hs.counted_step hcalls h i kind session

end

/-! ### From one state to the next -/

/-- What a sound manager has become by moves that create no table: it is sound, names have the
locks that they had, and what has been taken meanwhile has been taken from the lock registered under
the name. -/
structure Leads (m m' : Manager) : Prop where
  sound : m'.Sound
  length : m.locks.length ≤ m'.locks.length
  name : ∀ id < m.locks.length, (m'.lock id).name = (m.lock id).name
  find : ∀ name id, m.find? name = some id → m'.find? name = some id
  held : ∀ p ∈ m'.holdings, ∀ h ∈ p.held,
    (∃ q ∈ m.holdings, h ∈ q.held) ∨ m'.find? (m'.lock h.lock).name = some h.lock

theorem Sound.leads (hs : m.Sound) : m.Leads m :=
  ⟨hs, Nat.le_refl _, fun _ _ => rfl, fun _ _ => id, fun p hp _ hh => .inl ⟨p, hp, hh⟩⟩

theorem Leads.trans {m' m'' : Manager} (h : m.Leads m') (h' : m'.Leads m'') : m.Leads m'' where
  sound := h'.sound
  length := Nat.le_trans h.length h'.length
  name := fun id hid =>
    (h'.name id (Nat.lt_of_lt_of_le hid h.length)).trans (h.name id hid)
  find := fun name id hf => h'.find name id (h.find name id hf)
  held := by
    intro p hp k hk
    rcases h'.held p hp k hk with ⟨q, hq, hk⟩ | hf
    · refine (h.held q hq k hk).imp_right fun hf => ?_
      rw [h'.name k.lock (lt_of_active (h.sound.admitted hq hk))]
      exact h'.find _ _ hf
    · exact .inr hf

/-- A step of a call leads on. -/
theorem Sound.leads_step (hs : m.Sound) {c : Call} {before after : List Call}
    (hcalls : m.calls = before ++ c :: after) {c' : Option Call} {id : Nat} {l : TableLock}
    (h : m.Step c c' id l) :
    m.Leads { m.setLock id l with calls := before ++ c'.toList ++ after } where
  sound := hs.step hcalls h
  length := Nat.le_of_eq List.length_set.symm
  name := by
    intro i _
    have hlock : lock { m.setLock id l with calls := before ++ c'.toList ++ after } i =
        if i = id then l else m.lock i := lock_setLock h.range i
    rw [hlock]
    split
    · next hi => rw [hi, h.follows.name]
    · rfl
  find := fun _ _ hf => hf
  held := by
    intro p hp k hk
    have hlock : lock { m.setLock id l with calls := before ++ c'.toList ++ after } k.lock =
        if k.lock = id then l else m.lock k.lock := lock_setLock h.range k.lock
    have hold : ∀ d ∈ m.calls, k ∈ d.held → ∃ q ∈ m.holdings, k ∈ q.held := fun d hd hk =>
      ⟨d.permit, List.mem_append_left _ (List.mem_map_of_mem hd), hk⟩
    rcases List.mem_append.mp hp with hp | hp
    · obtain ⟨d, hd, rfl⟩ := List.mem_map.mp hp
      simp only [List.mem_append, Option.mem_toList] at hd
      obtain (hd | hd) | hd := hd
      · exact .inl (hold d (by rw [hcalls]; exact List.mem_append_left _ hd) hk)
      · rcases h.held d hd k hk with hk | ⟨hid, hlt, hopen⟩
        · exact .inl (hold c (by rw [hcalls]; simp) hk)
        · refine .inr ?_
          rw [hlock, if_pos hid, h.follows.name, hid]
          exact (hs.replaced id hlt).resolve_right (by simp [hopen])
      · exact .inl (hold d (by rw [hcalls]; simp [hd]) hk)
    · exact .inl ⟨p, List.mem_append_right _ hp, hk⟩

/-! ### Steps in the forms in which calls make them -/

theorem setLock_lock (m : Manager) (id : Nat) : m.setLock id (m.lock id) = m := by
  have hset : m.locks.set id (m.lock id) = m.locks := by
    by_cases h : id < m.locks.length
    · rw [lock, List.getD_eq_getElem?_getD, List.getElem?_eq_getElem h, Option.getD_some,
        List.set_getElem_self]
    · exact List.set_eq_of_length_le (Nat.le_of_not_lt h)
  rw [setLock, hset]

theorem Sound.setCall (hs : m.Sound) {c c' : Call} (hc : c ∈ m.calls) {id : Nat} {l : TableLock}
    (h : m.Step c (some c') id l) : m.Leads ((m.setLock id l).setCall c') := by
  obtain ⟨before, after, hcalls, -, hset⟩ := calls_split hs.nodup_calls hc
  have hset' : ((m.setLock id l).setCall c').calls = before ++ c' :: after :=
    hset c' (h.request c' rfl)
  have := hs.leads_step hcalls h
  rw [Option.toList_some, List.append_assoc, List.singleton_append, ← hset'] at this
  exact this

theorem Sound.dropCall (hs : m.Sound) {c : Call} (hc : c ∈ m.calls) {id : Nat} {l : TableLock}
    (h : m.Step c none id l) : m.Leads ((m.setLock id l).dropCall c.request) := by
  obtain ⟨before, after, hcalls, hdrop, -⟩ := calls_split hs.nodup_calls hc
  have hdrop' : ((m.setLock id l).dropCall c.request).calls = before ++ after := hdrop
  have := hs.leads_step hcalls h
  rw [Option.toList_none, List.append_nil, ← hdrop'] at this
  exact this

/-- A step that changes a lock only. -/
theorem Sound.setLock (hs : m.Sound) {c : Call} (hc : c ∈ m.calls) {id : Nat} {l : TableLock}
    (h : m.Step c (some c) id l) : m.Leads (m.setLock id l) := by
  obtain ⟨before, after, hcalls, -, -⟩ := calls_split hs.nodup_calls hc
  have := hs.leads_step hcalls h
  rw [Option.toList_some, List.append_assoc, List.singleton_append, ← hcalls] at this
  exact this

/-- Handing locks from a call to its permit, or back, leads on. -/
theorem Sound.of_holdings_perm (hs : m.Sound) {calls : List Call} {permits : List Permit}
    (hp : (holdings { m with calls, permits }).Perm m.holdings)
    (hf : ∀ c ∈ calls, c.phase.Fits c.dropping m.locks.length)
    (hq : ∀ id x, x ∈ (m.lock id).places → ∃ c ∈ calls, c.place? = some (id, x)) :
    m.Leads { m with calls, permits } where
  sound :=
    { named := hs.named
      replaced := hs.replaced
      fits := hf
      nodup := (hp.map _).nodup_iff.mpr hs.nodup
      fresh := fun r hr => hs.fresh r ((hp.map _).mem_iff.mp hr)
      queued := hq
      exclusive := hs.exclusive
      counted := fun id kind session =>
        le_of_eq_of_le (hp.map _).sum_nat (hs.counted id kind session) }
  length := Nat.le_refl _
  name := fun _ _ => rfl
  find := fun _ _ hf => hf
  held := fun p hp' _ hk => .inl ⟨p, hp.mem_iff.mp hp', hk⟩

end Manager

end SqlTree
