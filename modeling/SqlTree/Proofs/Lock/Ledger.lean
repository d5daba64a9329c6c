import SqlTree.Proofs.Lock.Entries
import SqlTree.Proofs.Lock.Routes

/-!
# Who the entries of the queues belong to

Every entry of a queue can be put down to a call. A session stands in a queue as often as it has
calls that wait there, and among the admitted as often as its calls and permits have the lock. The
only entry that belongs to nobody is that of a call which has dropped the table, and there is one at
most: a lock that has been closed has been closed by one call, and no call is admitted after it.

## Main definitions

* `Manager.entries`, `Manager.sum`: how often a session stands in a queue, and how often it should.
* `Manager.Settled`, `Manager.Dropped`: whose the admitted sessions of a lock are.
* `Manager.Exact`: every entry is accounted for.
* `Manager.Regular`: a manager is sound, its account is exact and its routes are ascending.

## Main results

* `Manager.entries_steps`: a step of a party changes the entries as it changes the party.
* `Manager.Effect.exact`: whatever a move does keeps the account.
* `Manager.regular_run`: the account is exact after every run.
-/

namespace SqlTree

namespace Manager

variable {m m' : Manager}

/-- How often a session stands in a queue. -/
def entries (m : Manager) (e : Entry) : Nat :=
  ((m.lock e.lock).state.queue e.standing e.kind).count e.session

/-- How often a session should stand in a queue, by the calls and permits. -/
def sum (m : Manager) (e : Entry) : Nat := (m.parties.map (·.entries e)).sum

/-- The admitted sessions of a lock are those of the calls and permits, and a lock that has been
closed has been closed by one call. -/
structure Settled (m : Manager) (id : Nat) : Prop where
  admitted : ∀ kind session,
    m.entries ⟨id, .admitted, kind, session⟩ = m.sum ⟨id, .admitted, kind, session⟩
  closers : m.parties.countP (·.closes id) ≤ (m.lock id).state.closed.toNat

/-- A lock has been closed, and the call that has closed it is over. -/
structure Dropped (m : Manager) (id : Nat) : Prop where
  closed : (m.lock id).state.closed = true
  nobody : ∀ c ∈ m.parties, c.closes id = false

/-- Every entry of a queue is accounted for. -/
structure Exact (m : Manager) : Prop where
  /-- The place of a call is there. -/
  placed : ∀ c ∈ m.parties, ∀ id x, c.place? = some (id, x) → x ∈ (m.lock id).places
  asked : ∀ id kind session,
    m.entries ⟨id, .asked, kind, session⟩ = m.sum ⟨id, .asked, kind, session⟩
  settled : ∀ id, m.Settled id ∨ m.Dropped id
  alone : ∀ c ∈ m.parties, c.dropping = true → c.held = []

theorem sum_perm {cs : List Call} (h : m.parties.Perm cs) (e : Entry) :
    m.sum e = (cs.map (·.entries e)).sum :=
  (h.map _).sum_nat

theorem sum_cons {c : Call} {others : List Call} (h : m.parties.Perm (c :: others)) (e : Entry) :
    m.sum e = c.entries e + (others.map (·.entries e)).sum := by
  rw [sum_perm h, List.map_cons, List.sum_cons]

theorem sum_toList {c : Option Call} {others : List Call}
    (h : m.parties.Perm (c.toList ++ others)) (e : Entry) :
    m.sum e = c.elim 0 (·.entries e) + (others.map (·.entries e)).sum := by
  rw [sum_perm h, List.map_append, List.sum_append]
  cases c <;> simp

/-- A session that should stand in a queue is that of a party. -/
theorem exists_of_sum_pos {e : Entry} (h : 0 < m.sum e) : ∃ c ∈ m.parties, 0 < c.entries e := by
  obtain ⟨n, hn, hpos⟩ := List.sum_pos_iff_exists_pos_nat.mp h
  obtain ⟨c, hc, rfl⟩ := List.mem_map.mp hn
  exact ⟨c, hc, hpos⟩

theorem exact_new (timeout : Option UInt64) : (new timeout).Exact where
  placed := by simp [new, parties]
  asked := by
    intro id kind session
    cases kind <;>
      simp [entries, sum, parties, new, lock, TableLock.new, LockState.empty, LockState.queue,
        LockState.pending]
  settled := by
    refine fun id => .inl ⟨fun kind session => ?_, by simp [new, parties]⟩
    cases kind <;>
      simp [entries, sum, parties, new, lock, TableLock.new, LockState.empty, LockState.queue,
        LockState.active]
  alone := by simp [new, parties]

/-- A session whose entry is that of a party stands in the queue. -/
theorem Exact.asked_pos (he : m.Exact) {c : Call} (hc : c ∈ m.parties) {id : Nat} {kind : LockKind}
    (hq : c.phase.queue? = some ⟨id, kind⟩) : c.session ∈ (m.lock id).state.pending kind := by
  have hsum := sum_perm (List.perm_cons_erase hc) ⟨id, .asked, kind, c.session⟩
  rw [← he.asked, List.map_cons, List.sum_cons, Call.entries_of_queue hq] at hsum
  refine List.count_pos_iff.mp ?_
  simp only [entries, LockState.queue, and_self, if_true] at hsum
  omega

/-- A party of a sound and exact manager, on a lock that may just have been registered. -/
theorem Exact.accounted (he : m.Exact) (hs : m.Sound) {m₁ : Manager} (hm : m.Extends m₁) {c : Call}
    (hc : c ∈ m.parties) (id : Nat) : c.Accounted id (m₁.lock id) where
  fits := by
    rcases List.mem_append.mp hc with hc | hc
    · exact ⟨_, hs.fits c hc⟩
    · obtain ⟨p, -, rfl⟩ := List.mem_map.mp hc
      exact ⟨0, trivial⟩
  own := by
    intro x hx hreq
    rw [hm.places] at hx
    obtain ⟨d, hd, hp⟩ := hs.queued id x hx
    have hdc : d = c := List.inj_on_of_nodup_map hs.nodup_parties (mem_parties_of_call hd) hc
      ((Call.request_of_place hp).symm.trans hreq)
    exact hdc ▸ hp
  placed := fun x hx => (hm.places id).symm ▸ he.placed c hc id x hx
  asked := fun kind hq => (hm.state id).symm ▸ he.asked_pos hc hq
  admitted := by
    rintro h hh rfl
    have hp : c.permit ∈ m.holdings := map_permit_parties m ▸ List.mem_map_of_mem hc
    rw [hm.state]
    exact List.count_pos_iff.mp (hs.admitted hp hh)
  alone := he.alone c hc
  exclusive := (hm.state id).symm ▸ hs.exclusive id

/-- Registering locks and changing the order of the parties keeps the account. -/
theorem Exact.quiet (he : m.Exact) (hm : m.Extends m') (hp : m'.parties.Perm m.parties) :
    m'.Exact where
  placed := fun c hc id x hx => (hm.places id).symm ▸ he.placed c (hp.mem_iff.mp hc) id x hx
  asked := by
    intro id kind session
    rw [entries, hm.state, sum_perm hp]
    exact he.asked id kind session
  settled := by
    refine fun id => (he.settled id).imp (fun h => ⟨fun kind session => ?_, ?_⟩)
      fun h => ⟨(hm.state id).symm ▸ h.closed, fun c hc => h.nobody c (hp.mem_iff.mp hc)⟩
    · rw [entries, hm.state, sum_perm hp]
      exact h.admitted kind session
    · rw [hp.countP_eq, hm.state]
      exact h.closers
  alone := fun c hc => he.alone c (hp.mem_iff.mp hc)

/-- A party that comes in with nothing keeps the account. -/
theorem Exact.begins (he : m.Exact) (hm : m.Extends m') {c : Call}
    (hp : m'.parties.Perm (c :: m.parties)) (hheld : c.held = []) (hq : c.phase.queue? = none)
    (hcloses : ∀ id, c.closes id = false) : m'.Exact := by
  have hsum : ∀ e, m'.sum e = m.sum e := by
    intro e
    rw [sum_perm hp, List.map_cons, List.sum_cons, Call.entries_eq_zero hq hheld, Nat.zero_add]
    rfl
  refine ⟨fun d hd id x hx => ?_, fun id kind session => ?_, fun id => ?_, fun d hd hdrop => ?_⟩
  · rcases List.mem_cons.mp (hp.mem_iff.mp hd) with rfl | hd
    · rw [Call.place?, hq] at hx
      exact absurd hx (by simp)
    · exact (hm.places id).symm ▸ he.placed d hd id x hx
  · rw [entries, hm.state, hsum]
    exact he.asked id kind session
  · refine (he.settled id).imp (fun h => ⟨fun kind session => ?_, ?_⟩)
      fun h => ⟨(hm.state id).symm ▸ h.closed, fun d hd => ?_⟩
    · rw [entries, hm.state, hsum]
      exact h.admitted kind session
    · rw [hp.countP_eq, List.countP_cons, hcloses, hm.state]
      exact h.closers
    · rcases List.mem_cons.mp (hp.mem_iff.mp hd) with rfl | hd
      · exact hcloses id
      · exact h.nobody d hd
  · rcases List.mem_cons.mp (hp.mem_iff.mp hd) with rfl | hd
    · exact hheld
    · exact he.alone d hd hdrop

section

variable {m₁ : Manager} {c : Call} {c' : Option Call} {id : Nat} {l : TableLock}
  {others : List Call} (hm : m.Extends m₁) (before : m.parties.Perm (c :: others))
  (after : m'.parties.Perm (c'.toList ++ others)) (step : c.Step id (m₁.lock id) c' l)
  (range : id < m₁.locks.length ∨ l = m₁.lock id) (result : m'.locks = m₁.locks.set id l)
  (hacc : c.Accounted id (m₁.lock id))

include hm step range result hacc in
/-- A step of a party changes the entries as it changes the party, unless the party drops a
table. -/
theorem entries_steps (e : Entry) :
    m'.entries e + c.entries e = m.entries e + c'.elim 0 (·.entries e) ∨
      e.lock = id ∧ e.standing = .admitted ∧ c' = none ∧ c.closes id = true := by
  obtain ⟨i, s, k, σ⟩ := e
  rw [entries, entries, lock_of_locks range result]
  by_cases hi : i = id
  · subst hi
    rw [if_pos rfl, ← hm.state]
    exact ((step.shift hacc).balance hacc s k σ).imp_right fun h => ⟨rfl, h⟩
  · rw [if_neg hi, hm.state, (step.shift hacc).elsewhere hi]
    exact .inl rfl

include hm step range result in
/-- A lock that has been closed stays closed. -/
theorem closed_steps {i : Nat} (h : (m.lock i).state.closed = true) :
    (m'.lock i).state.closed = true := by
  rw [lock_of_locks range result]
  rw [← hm.state] at h
  split
  · next hi => exact step.follows.closed (hi ▸ h)
  · exact h

include before in
theorem countP_closes (i : Nat) :
    m.parties.countP (·.closes i) =
      (if c.closes i = true then 1 else 0) + others.countP (·.closes i) := by
  rw [before.countP_eq, List.countP_cons, Nat.add_comm]

include hm before after step range result hacc in
/-- A table that has been dropped stays so. -/
theorem Dropped.steps {i : Nat} (h : m.Dropped i) : m'.Dropped i := by
  refine ⟨closed_steps hm step range result h.closed,
    fun d hd => Bool.eq_false_iff.mpr fun hdc => ?_⟩
  have hold : ∀ d ∈ c :: others, d.closes i = false :=
    fun d hd => h.nobody d (before.mem_iff.mpr hd)
  rcases List.mem_append.mp (after.mem_iff.mp hd) with hd | hd
  · rcases step.closes hacc (Option.mem_toList.mp hd) hdc with hcc | ⟨rfl, hopen, -⟩
    · exact Bool.false_ne_true ((hold c List.mem_cons_self).symm.trans hcc)
    · rw [hm.state] at hopen
      exact Bool.false_ne_true (hopen.symm.trans h.closed)
  · exact Bool.false_ne_true ((hold d (List.mem_cons_of_mem _ hd)).symm.trans hdc)

include hm before after step range result in
/-- A table is dropped with the last step of the call that has closed it: nobody else has. -/
theorem Settled.dropped {i : Nat} (h : m.Settled i) (hnone : c' = none)
    (hcloses : c.closes i = true) : m'.Dropped i := by
  have hcl := h.closers
  rw [countP_closes before, if_pos hcloses] at hcl
  have hbool := Bool.toNat_le (m.lock i).state.closed
  refine ⟨closed_steps hm step range result (Bool.toNat_eq_one.mp (by omega)), fun d hd => ?_⟩
  have hd' : d ∈ others := by simpa [hnone] using after.mem_iff.mp hd
  have hzero : others.countP (·.closes i) = 0 := by omega
  exact Bool.eq_false_iff.mpr (List.countP_eq_zero.mp hzero d hd')

include hm before after step range result hacc in
/-- One call at most has closed a table. -/
theorem Settled.closers_steps {i : Nat} (h : m.Settled i) :
    m'.parties.countP (·.closes i) ≤ (m'.lock i).state.closed.toNat := by
  have hcl := h.closers
  rw [countP_closes before] at hcl
  have hmono : (m.lock i).state.closed.toNat ≤ (m'.lock i).state.closed.toNat := by
    cases hc : (m.lock i).state.closed with
    | false => exact Nat.zero_le _
    | true => exact (closed_steps hm step range result hc).symm ▸ Nat.le_refl _
  rw [after.countP_eq, List.countP_append]
  cases c' with
  | none =>
    simp only [Option.toList_none, List.countP_nil]
    omega
  | some d =>
    rw [Option.toList_some, List.countP_singleton]
    by_cases hd : d.closes i = true
    · rw [if_pos hd]
      rcases step.closes hacc rfl hd with hcc | ⟨rfl, hopen, hshut⟩
      · rw [if_pos hcc] at hcl
        omega
      · rw [hm.state] at hopen
        rw [hopen] at hcl
        rw [lock_of_locks range result, if_pos rfl, hshut]
        simp only [Bool.toNat_false, Bool.toNat_true] at hcl ⊢
        omega
    · rw [if_neg hd]
      omega

include hm before after step range result hacc in
/-- A step of a party keeps the account of the admitted sessions, or the party has dropped its
table. -/
theorem Settled.steps {i : Nat} (h : m.Settled i) : m'.Settled i ∨ m'.Dropped i := by
  by_cases hover : c' = none ∧ c.closes i = true
  · exact .inr (h.dropped hm before after step range result hover.1 hover.2)
  · refine .inl ⟨fun kind session => ?_, h.closers_steps hm before after step range result hacc⟩
    have hold := h.admitted kind session
    rw [sum_cons before] at hold
    rw [sum_toList after]
    rcases entries_steps hm step range result hacc ⟨i, .admitted, kind, session⟩ with
      hb | ⟨rfl, -, hb⟩
    · omega
    · exact absurd hb hover

end

/-- A step of a party keeps the account. -/
theorem Exact.steps (he : m.Exact) (hs : m.Sound) {m₁ : Manager} {c : Call} {c' : Option Call}
    {id : Nat} {l : TableLock} {others : List Call} (hm : m.Extends m₁)
    (before : m.parties.Perm (c :: others)) (after : m'.parties.Perm (c'.toList ++ others))
    (step : c.Step id (m₁.lock id) c' l) (range : id < m₁.locks.length ∨ l = m₁.lock id)
    (result : m'.locks = m₁.locks.set id l) : m'.Exact := by
  have hc : c ∈ m.parties := before.mem_iff.mpr List.mem_cons_self
  have hacc := he.accounted hs hm hc id
  have hlock := lock_of_locks range result
  have hothers : ∀ d ∈ others, d ∈ m.parties ∧ d.request ≠ c.request := by
    intro d hd
    have hn := (before.map Call.request).nodup_iff.mp hs.nodup_parties
    refine ⟨before.mem_iff.mpr (List.mem_cons_of_mem _ hd), fun heq => ?_⟩
    exact (List.nodup_cons.mp hn).1 (heq ▸ List.mem_map_of_mem hd)
  have hmem : ∀ d ∈ m'.parties, d ∈ c' ∨ d ∈ others := fun d hd => by
    simpa using after.mem_iff.mp hd
  refine ⟨fun d hd i x hx => ?_, fun i kind session => ?_, fun i => ?_, fun d hd hdrop => ?_⟩
  · rw [hlock]
    rcases hmem d hd with hd | hd
    · rcases step.placed hacc hd hx with ⟨rfl, hx⟩ | ⟨hcx, hpl⟩
      · rwa [if_pos rfl]
      · have hx' := hm.places i ▸ he.placed c hc i x hcx
        split
        · next hi => exact hpl ▸ hi ▸ hx'
        · exact hx'
    · have hx' := hm.places i ▸ he.placed d (hothers d hd).1 i x hx
      split
      · next hi =>
        exact step.keeps (hi ▸ hx') (Call.request_of_place hx ▸ (hothers d hd).2)
      · exact hx'
  · have hold := he.asked i kind session
    rw [sum_cons before] at hold
    rw [sum_toList after]
    rcases entries_steps hm step range result hacc ⟨i, .asked, kind, session⟩ with hb | ⟨-, hs, -⟩
    · omega
    · exact Standing.noConfusion hs
  · exact (he.settled i).elim (·.steps hm before after step range result hacc) fun h =>
      .inr (h.steps hm before after step range result hacc)
  · rcases hmem d hd with hd | hd
    · exact step.alone hacc hd hdrop
    · exact he.alone d (hothers d hd).1 hdrop

/-- Every effect keeps the account. -/
theorem Effect.exact {request : Option Nat} (h : m.Effect m' request) (hs : m.Sound)
    (he : m.Exact) : m'.Exact := by
  cases h with
  | quiet locks parties => exact he.quiet locks parties
  | begins locks parties next request held phase =>
    refine he.begins locks parties held ?_ fun id => ?_
    · rcases phase with ⟨hp, -⟩ | ⟨i, hp, -⟩ <;> rw [hp] <;> rfl
    · rcases phase with ⟨hp, -⟩ | ⟨i, hp, -⟩ <;> simp [Call.closes, Phase.queue?, hp]
  | steps locks mine before after step range result =>
    exact he.steps hs locks before after step range result

/-! ### Runs -/

/-- What is true of a manager after every run. -/
structure Regular (m : Manager) : Prop where
  sound : m.Sound
  exact : m.Exact
  ascending : m.Ascending

theorem regular_new (timeout : Option UInt64) : (new timeout).Regular :=
  ⟨sound_new timeout, exact_new timeout, ascending_new timeout⟩

theorem Regular.move (h : m.Regular) (mv : ManagerMove) : (m.move mv).Regular := by
  have he := h.sound.effect mv
  exact ⟨h.sound.move mv, he.exact h.sound h.exact, h.ascending.effect h.sound he⟩

theorem Regular.run (h : m.Regular) (moves : List ManagerMove) : (m.run moves).Regular :=
  run_induction (fun _ mv h => h.move mv) m h moves

theorem regular_run (timeout : Option UInt64) (moves : List ManagerMove) :
    ((new timeout).run moves).Regular :=
  (regular_new timeout).run moves

end Manager

end SqlTree
