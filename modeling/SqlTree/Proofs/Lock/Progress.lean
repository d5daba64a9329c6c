import Mathlib.Data.List.MinMax
import SqlTree.Proofs.Lock.Ledger

/-!
# Calls do not wait for each other forever

Suppose that every call waits and that no permit is left. Take a call that waits for the lock whose
name comes last. Nobody holds this lock: whoever did would wait for a lock whose name comes after
it. So nobody has been admitted to it, and the head of one of its queues, which belongs to a call
that waits, can be. Only a table that has been closed lets nobody in, and then a check refuses every
call that waits for it, but for the one that has closed the table.

## Main definitions

* `Call.Waits`: a call waits for a lock.
* `Manager.ends`: whether a check would end the wait of a call.

## Main results

* `Manager.Regular.exists_ends`: when every call waits and there is no permit, some wait would end.
* `Manager.no_deadlock`: hence no run leads to a deadlock.
-/

namespace SqlTree

/-- Whether a call waits for a lock. -/
def Phase.waits : Phase → Bool
  | .waiting .. => true
  | _ => false

/-- A call waits for a lock. -/
def Call.Waits (c : Call) : Prop := c.phase.waits = true

instance (c : Call) : Decidable c.Waits := inferInstanceAs (Decidable (_ = true))

theorem Call.waits_iff {c : Call} : c.Waits ↔ ∃ h deadline, c.phase = .waiting h deadline := by
  rw [Waits]
  cases c.phase <;> simp [Phase.waits]

namespace Manager

variable {m : Manager}

/-- Whether a check would end the wait of a call, by admitting or by refusing it. -/
def ends (m : Manager) (c : Call) : Bool :=
  match c.phase with
  | .waiting h _ => ((m.lock h.lock).recheck c.request).2.isSome
  | _ => false

/-- A call that is refused or admitted ends its wait. -/
theorem isSome_recheck {c : Call} {id : Nat} {l : TableLock} (hacc : c.Accounted id l)
    {kind : LockKind} (hq : c.phase.queue? = some ⟨id, kind⟩)
    (h : (l.state.closed = true ∧ c.dropping = false) ∨
      (l.state.admit? kind c.session).isSome = true) : (l.recheck c.request).2.isSome = true := by
  obtain ⟨w, hw⟩ := TableLock.waiter?_of_place (hacc.placed _ (Call.place?_eq hq))
  obtain ⟨hmem, hreq⟩ := TableLock.waiter?_eq_some hw
  obtain ⟨hkind, hsession, hclosing⟩ := hacc.waiter hq hmem hreq
  have hw' : l.waiter? c.request = some w := hw
  rw [TableLock.recheck, hw']
  by_cases hshut : (l.state.closed && !w.closing) = true
  · simp [hshut]
  · rcases h with ⟨hc, hd⟩ | hadm
    · exact absurd (by rw [hc, hclosing, hd]; rfl) hshut
    · obtain ⟨st, hst⟩ := Option.isSome_iff_exists.mp hadm
      have hst' : l.state.admit? w.kind w.session = some st := by
        rw [hkind, hsession]
        exact hst
      simp [hshut, hst']

/-- A call holds no lock whose name comes after that of the lock it waits for. -/
theorem Ascending.name_lt (ha : m.Ascending) {c : Call} (hc : c ∈ m.parties) {h k : Held}
    (ht : c.phase.target? = some h) (hk : k ∈ c.held) : m.name k.lock < m.name h.lock := by
  have hroute := ha c hc
  rw [Call.route, ht, List.map_append, List.append_assoc] at hroute
  refine (List.pairwise_append.mp hroute).2.2 _ (List.mem_map_of_mem hk) (h.named m.name) ?_
  exact List.mem_append_left _ (List.mem_singleton_self _)

/-- The name of the lock that a call is after. -/
def targetName (m : Manager) (c : Call) : String := m.name (c.phase.target?.elim 0 Held.lock)

/-- Of calls that all wait, one waits for a lock whose name comes last. -/
theorem exists_last (hne : m.calls ≠ []) (hall : ∀ c ∈ m.calls, c.Waits) :
    ∃ c ∈ m.calls, ∃ h deadline, c.phase = .waiting h deadline ∧
      ∀ d ∈ m.calls, m.targetName d ≤ m.name h.lock := by
  obtain ⟨c, hc⟩ :=
    Option.ne_none_iff_exists'.mp (mt (List.argmax_eq_none (f := m.targetName)).mp hne)
  obtain ⟨h, deadline, hp⟩ := Call.waits_iff.mp (hall c (List.argmax_mem hc))
  refine ⟨c, List.argmax_mem hc, h, deadline, hp, fun d hd => ?_⟩
  have hle := List.le_of_mem_argmax hd hc
  have hname : m.targetName c = m.name h.lock := by rw [targetName, hp]; rfl
  rwa [hname] at hle

/-- When every call waits, nobody holds a lock whose name comes last. -/
theorem Ascending.lock_ne (ha : m.Ascending) (hall : ∀ c ∈ m.calls, c.Waits)
    (hpermits : m.permits = []) {id : Nat} (hlast : ∀ d ∈ m.calls, m.targetName d ≤ m.name id) :
    ∀ c ∈ m.parties, ∀ k ∈ c.held, k.lock ≠ id := by
  rintro c hc k hk rfl
  have hcall : c ∈ m.calls := by simpa [parties, hpermits] using hc
  obtain ⟨h, deadline, hp⟩ := Call.waits_iff.mp (hall c hcall)
  have hlt := ha.name_lt hc (show c.phase.target? = some h by rw [hp]; rfl) hk
  have hle := hlast c hcall
  have hname : m.targetName c = m.name h.lock := by rw [targetName, hp]; rfl
  rw [hname] at hle
  exact absurd hlt (not_lt.mpr hle)

/-- A session in the queue of a lock is that of a call in this queue. -/
theorem Exact.exists_asked (he : m.Exact) {id : Nat} {kind : LockKind} {session : Session}
    (hmem : session ∈ (m.lock id).state.pending kind) :
    ∃ c ∈ m.parties, c.phase.queue? = some ⟨id, kind⟩ ∧ c.session = session := by
  have hentries : 0 < m.entries ⟨id, .asked, kind, session⟩ := List.count_pos_iff.mpr hmem
  rw [he.asked] at hentries
  obtain ⟨c, hc, hpos⟩ := exists_of_sum_pos hentries
  refine ⟨c, hc, ?_⟩
  by_contra hnot
  simp only [Call.entries, if_neg hnot] at hpos
  exact Nat.lt_irrefl 0 hpos

/-- A lock that no call holds has let nobody in, unless its table has been dropped. -/
theorem Settled.active_eq_nil {id : Nat} (h : m.Settled id)
    (hnone : ∀ c ∈ m.parties, ∀ k ∈ c.held, k.lock ≠ id) (kind : LockKind) :
    (m.lock id).state.active kind = [] := by
  refine List.eq_nil_iff_forall_not_mem.mpr fun session hmem => ?_
  have hentries : 0 < m.entries ⟨id, .admitted, kind, session⟩ := List.count_pos_iff.mpr hmem
  rw [h.admitted] at hentries
  obtain ⟨c, hc, hpos⟩ := exists_of_sum_pos hentries
  have hzero : c.held.count ⟨id, kind⟩ = 0 :=
    List.count_eq_zero.mpr fun hk => hnone c hc _ hk rfl
  simp only [Call.entries, Call.permit, Permit.count, hzero, ite_self] at hpos
  exact Nat.lt_irrefl 0 hpos

/-- In a lock that has let nobody in, the session at the head of one of its queues can be
admitted. -/
theorem exists_admits {st : LockState} (hactive : ∀ kind, st.active kind = []) {kind : LockKind}
    (hpending : st.pending kind ≠ []) :
    ∃ kind session, session ∈ st.pending kind ∧ (st.admit? kind session).isSome = true := by
  have hreading : st.reading = [] := hactive .read
  have hwriting : st.writing = [] := hactive .write
  cases hw : st.requestingWrite with
  | cons writer rest =>
    refine ⟨.write, writer, by simp [LockState.pending, hw], ?_⟩
    simp [LockState.admit?, LockState.enabled, LockState.writeEnabled, LockState.pending, hw,
      hreading, hwriting]
  | nil =>
    cases hr : st.requestingRead with
    | cons reader rest =>
      refine ⟨.read, reader, by simp [LockState.pending, hr], ?_⟩
      simp [LockState.admit?, LockState.enabled, LockState.readEnabled, LockState.pending, hw, hr,
        hwriting]
    | nil =>
      cases kind with
      | read => exact absurd hr hpending
      | write => exact absurd hw hpending

/-- When every call waits and there is no permit, a check would end the wait of some call. -/
theorem Regular.exists_ends (hm : m.Regular) (hne : m.calls ≠ []) (hall : ∀ c ∈ m.calls, c.Waits)
    (hpermits : m.permits = []) : ∃ c ∈ m.calls, m.ends c = true := by
  obtain ⟨c, hc, h, deadline, hp, hlast⟩ := exists_last hne hall
  have hcalls : ∀ d ∈ m.parties, d ∈ m.calls := fun d hd => by
    simpa [parties, hpermits] using hd
  have hends : ∀ d ∈ m.calls, ∀ kind, d.phase.queue? = some ⟨h.lock, kind⟩ →
      ((m.lock h.lock).state.closed = true ∧ d.dropping = false) ∨
        ((m.lock h.lock).state.admit? kind d.session).isSome = true → m.ends d = true := by
    intro d hd kind hq hend
    obtain ⟨k, dl, hk⟩ := Call.waits_iff.mp (hall d hd)
    have hk' : k = ⟨h.lock, kind⟩ := by
      rw [hk] at hq
      exact Option.some.inj hq
    rw [ends, hk]
    simp only [hk']
    exact isSome_recheck (hm.exact.accounted hm.sound (.refl m) (mem_parties_of_call hd) _) hq hend
  by_cases hshut : (m.lock h.lock).state.closed = true ∧ c.dropping = false
  · exact ⟨c, hc, hends c hc h.kind (by rw [hp]; rfl) (.inl hshut)⟩
  · have hsettled : m.Settled h.lock := by
      refine (hm.exact.settled h.lock).resolve_right fun hdropped => hshut ⟨hdropped.closed, ?_⟩
      have hover := hdropped.nobody c (mem_parties_of_call hc)
      simpa [Call.closes, Phase.queue?, hp] using hover
    have hactive := hsettled.active_eq_nil (hm.ascending.lock_ne hall hpermits hlast)
    have hpending : (m.lock h.lock).state.pending h.kind ≠ [] :=
      List.ne_nil_of_mem (hm.exact.asked_pos (mem_parties_of_call hc) (by rw [hp]; rfl))
    obtain ⟨kind, session, hmem, hadm⟩ := exists_admits hactive hpending
    obtain ⟨d, hd, hq, rfl⟩ := hm.exact.exists_asked hmem
    exact ⟨d, hcalls d hd, hends d (hcalls d hd) kind hq (.inr hadm)⟩

/-- **Calls do not deadlock.** After every run in which some call waits, there is a permit left, or
some call is between two of its steps, or a check would end the wait of some call. -/
theorem no_deadlock (timeout : Option UInt64) (moves : List ManagerMove)
    (hwaits : ∃ c ∈ ((new timeout).run moves).calls, c.Waits) :
    ((new timeout).run moves).permits ≠ [] ∨
      (∃ c ∈ ((new timeout).run moves).calls, ¬ c.Waits) ∨
      ∃ c ∈ ((new timeout).run moves).calls, ((new timeout).run moves).ends c = true := by
  by_cases hpermits : ((new timeout).run moves).permits = []
  · by_cases hall : ∀ c ∈ ((new timeout).run moves).calls, c.Waits
    · obtain ⟨c, hc, -⟩ := hwaits
      exact .inr (.inr
        ((regular_run timeout moves).exists_ends (List.ne_nil_of_mem hc) hall hpermits))
    · exact .inr (.inl (by simpa only [not_forall, exists_prop] using hall))
  · exact .inl hpermits

/-- A session holds a table and waits for another one, a second session waits for the first table,
and a third gives the other one back. -/
def heldInRow : List ManagerMove :=
  .acquireAccess ⟨[], ["Class"]⟩ ⟨1⟩ :: List.replicate 4 (.act 0) ++
    .acquireAccess ⟨["Class"], ["Book"]⟩ ⟨2⟩ :: List.replicate 6 (.act 1) ++
    .acquireAccess ⟨["Book"], []⟩ ⟨3⟩ :: List.replicate 3 (.act 2) ++
    [.release 0, .act 0, .act 0]

/-- The theorem at a run after which every call waits and there is no permit: one of the two waits
would end. -/
theorem no_deadlock_row :
    (∃ c ∈ ((new none).run heldInRow).calls, c.Waits) ∧
      ((new none).run heldInRow).permits = [] ∧
      (∀ c ∈ ((new none).run heldInRow).calls, c.Waits) ∧
      ∃ c ∈ ((new none).run heldInRow).calls, ((new none).run heldInRow).ends c = true :=
  ⟨by decide, by decide, by decide,
    ((no_deadlock none heldInRow (by decide)).resolve_left (by decide)).resolve_left (by decide)⟩

end Manager

end SqlTree
