import SqlTree.Proofs.Lock.CallEnds
import SqlTree.Proofs.Lock.Ledger
import SqlTree.Proofs.Text.ByteOrder

/-!
# A call takes all its locks or none

What a call does to the queues of all locks is the sum of the changes that its own moves make to
them, whatever the moves of other calls do in between. At every moment this sum is what the call, or
its permit, then stands for: its place in a queue and the locks that it holds. So it is one entry
for each lock of the plan as soon as the call has been granted, and nothing once the call is over:
because it has failed, because it was not wanted any more, or because its permit has been given
back.

## Main definitions

* `Manager.added`: what the moves of a call have added to an entry.
* `Manager.share`: what the call or permit of a number stands for.
* `Manager.Owned`: what is always true of the call or permit of a number.
* `Manager.Granted`, `Manager.LeavesNothing`: what a call has done that has ended.
* `Manager.AllOrNothing`: the ways in which a call ends.

## Main results

* `Manager.Sound.added_eq`: what a call has added is what it stands for.
* `Manager.all_or_nothing`: a call has all its locks when it ends well, and leaves nothing else.
-/

namespace SqlTree

namespace Manager

variable {m m' : Manager}

/-! ### What a call has added -/

/-- What the moves of the call of a number add to an entry in a run. -/
def added (request : Nat) (e : Entry) : Manager → List ManagerMove → Int
  | _, [] => 0
  | m, mv :: moves =>
    (if mv.call? m = some request then ((m.move mv).entries e : Int) - m.entries e else 0) +
      added request e (m.move mv) moves

/-- What the call or permit of a number stands for. -/
def share (m : Manager) (request : Nat) (e : Entry) : Nat :=
  ((m.parties.filter (·.request == request)).map (·.entries e)).sum

theorem share_perm {cs : List Call} (h : m.parties.Perm cs) (request : Nat) (e : Entry) :
    m.share request e = ((cs.filter (·.request == request)).map (·.entries e)).sum :=
  ((h.filter _).map _).sum_nat

/-- The share of a party that may be there, next to that of the others. -/
theorem share_mine {c : Option Call} {others : List Call}
    (h : m.parties.Perm (c.toList ++ others)) (request : Nat) (e : Entry)
    (hreq : ∀ d ∈ c, d.request = request) :
    m.share request e = c.elim 0 (·.entries e) +
      ((others.filter (·.request == request)).map (·.entries e)).sum := by
  rw [share_perm h]
  cases c with
  | none => simp
  | some d => simp [hreq d rfl]

theorem share_other {c : Option Call} {others : List Call}
    (h : m.parties.Perm (c.toList ++ others)) (request : Nat) (e : Entry)
    (hreq : ∀ d ∈ c, d.request ≠ request) :
    m.share request e = ((others.filter (·.request == request)).map (·.entries e)).sum := by
  rw [share_perm h]
  cases c with
  | none => simp
  | some d => simp [hreq d rfl]

theorem share_of_none {request : Nat} (h : ∀ c ∈ m.parties, c.request ≠ request) (e : Entry) :
    m.share request e = 0 := by
  have hnil : m.parties.filter (·.request == request) = [] :=
    List.filter_eq_nil_iff.mpr fun c hc => by simpa using h c hc
  rw [share, hnil]
  rfl

theorem Sound.share_of_mem (hs : m.Sound) {c : Call} (hc : c ∈ m.parties) (e : Entry) :
    m.share c.request e = c.entries e := by
  obtain ⟨before, after, hsplit, -, hother⟩ := filter_split Call.request hs.nodup_parties hc
  have hperm : m.parties.Perm (c :: (before ++ after)) := hsplit ▸ List.perm_middle
  have hnil : (before ++ after).filter (·.request == c.request) = [] :=
    List.filter_eq_nil_iff.mpr fun d hd => by simpa using hother d hd
  rw [share_perm hperm, List.filter_cons_of_pos (by simp), hnil]
  simp

/-- What is always true of the call or permit of a number, once the call has begun. -/
structure Owned (m : Manager) (request : Nat) (session : Session)
    (plan : List (String × LockKind)) : Prop where
  begun : request < m.next
  session : ∀ c ∈ m.parties, c.request = request → c.session = session
  keeps : ∀ c ∈ m.parties, c.request = request → c.dropping = false
  route : ∀ c ∈ m.parties, c.request = request → c.phase.goesOn = true → c.route m.name = plan

/-- What a call owns it owns after every move. -/
theorem Owned.effect {request : Nat} {session : Session} {plan : List (String × LockKind)}
    (h : m.Owned request session plan) (hs : m.Sound) {mine : Option Nat}
    (he : m.Effect m' mine) : m'.Owned request session plan := by
  cases he with
  | quiet locks parties next =>
    refine ⟨Nat.lt_of_lt_of_le h.begun next, fun c hc => h.session c (parties.mem_iff.mp hc),
      fun c hc => h.keeps c (parties.mem_iff.mp hc), fun c hc hreq hgoes => ?_⟩
    rw [hs.route_extends locks (parties.mem_iff.mp hc)]
    exact h.route c (parties.mem_iff.mp hc) hreq hgoes
  | @begins c locks parties next hnew held phase =>
    have hmem : ∀ d ∈ m'.parties, d.request = request → d ∈ m.parties := by
      intro d hd hreq
      refine (List.mem_cons.mp (parties.mem_iff.mp hd)).resolve_left fun hdc => ?_
      rw [hdc, hnew] at hreq
      exact Nat.ne_of_gt h.begun hreq
    refine ⟨Nat.lt_of_lt_of_le h.begun next, fun d hd hreq => h.session d (hmem d hd hreq) hreq,
      fun d hd hreq => h.keeps d (hmem d hd hreq) hreq, fun d hd hreq hgoes => ?_⟩
    rw [hs.route_extends locks (hmem d hd hreq)]
    exact h.route d (hmem d hd hreq) hreq hgoes
  | @steps m₁ c c' id l others locks mine before after step range result next =>
    have hc : c ∈ m.parties := before.mem_iff.mpr List.mem_cons_self
    have hothers : ∀ d ∈ others, d ∈ m.parties := fun d hd =>
      before.mem_iff.mpr (List.mem_cons_of_mem _ hd)
    have hmem : ∀ d ∈ m'.parties, d ∈ c' ∨ d ∈ others := fun d hd => by
      simpa using after.mem_iff.mp hd
    have hname := name_of_locks step range result
    refine ⟨Nat.lt_of_lt_of_le h.begun next, fun d hd hreq => ?_, fun d hd hreq => ?_,
      fun d hd hreq hgoes => ?_⟩
    · rcases hmem d hd with hd | hd
      · rw [step.session d hd]
        exact h.session c hc (step.request d hd ▸ hreq)
      · exact h.session d (hothers d hd) hreq
    · rcases hmem d hd with hd | hd
      · exact step.dropping (h.keeps c hc (step.request d hd ▸ hreq)) d hd
      · exact h.keeps d (hothers d hd) hreq
    · rw [hname]
      rcases hmem d hd with hd | hd
      · obtain ⟨hroute, hgoes⟩ := step.route_eq (rfl : m₁.name id = (m₁.lock id).name) hd hgoes
        rw [hroute, hs.route_extends locks hc]
        exact h.route c hc (step.request d hd ▸ hreq) hgoes
      · rw [hs.route_extends locks (hothers d hd)]
        exact h.route d (hothers d hd) hreq hgoes

/-- A move of a call adds to the entries what it adds to the call. -/
theorem Owned.added_effect {request : Nat} {session : Session} {plan : List (String × LockKind)}
    (h : m.Owned request session plan) (hs : m.Sound) (hx : m.Exact) {mine : Option Nat}
    (he : m.Effect m' mine) (e : Entry) :
    (if mine = some request then (m'.entries e : Int) - m.entries e else 0) =
      (m'.share request e : Int) - m.share request e := by
  cases he with
  | quiet locks parties next =>
    have hentries : m'.entries e = m.entries e := by rw [entries, locks.state, entries]
    have hshare : m'.share request e = m.share request e := share_perm parties request e
    simp [hentries, hshare]
  | begins locks parties next hnew held phase =>
    have hentries : m'.entries e = m.entries e := by rw [entries, locks.state, entries]
    have hshare : m'.share request e = m.share request e := by
      rw [share_perm parties, List.filter_cons_of_neg (by simpa [hnew] using Nat.ne_of_gt h.begun),
        share]
    simp [hentries, hshare]
  | @steps m₁ c c' id l others locks mine_eq before after step range result next =>
    have hc : c ∈ m.parties := before.mem_iff.mpr List.mem_cons_self
    by_cases hreq : c.request = request
    · have hacc := hx.accounted hs locks hc id
      have hold := share_mine (c := some c) before request e (by simpa using hreq)
      have hnew := share_mine after request e fun d hd => (step.request d hd).trans hreq
      rcases entries_steps locks step range result hacc e with hb | ⟨-, -, -, hcloses⟩
      · rw [if_pos (mine_eq.trans (congrArg some hreq)), hold, hnew, Option.elim_some]
        omega
      · have hdrop := hacc.dropping_of_closes hcloses
        rw [h.keeps c hc hreq] at hdrop
        exact absurd hdrop Bool.false_ne_true
    · have hold := share_other (c := some c) before request e (by simpa using hreq)
      have hnew := share_other after request e fun d hd => (step.request d hd).symm ▸ hreq
      have hne : ¬ mine = some request := fun h => hreq (Option.some.inj (mine_eq.symm.trans h))
      rw [if_neg hne, hold, hnew]
      omega

theorem Owned.added_run {request : Nat} {session : Session} {plan : List (String × LockKind)}
    (h : m.Owned request session plan) (hs : m.Sound) (hx : m.Exact) (moves : List ManagerMove)
    (e : Entry) :
    m.added request e moves = ((m.run moves).share request e : Int) - m.share request e := by
  induction moves generalizing m with
  | nil => simp [added]
  | cons mv moves ih =>
    have he := hs.effect mv
    rw [added, h.added_effect hs hx he e, ih (h.effect hs he) (hs.move mv) (he.exact hs hx),
      run_cons]
    omega

theorem added_append (m : Manager) (request : Nat) (e : Entry) (moves more : List ManagerMove) :
    m.added request e (moves ++ more) =
      m.added request e moves + (m.run moves).added request e more := by
  induction moves generalizing m with
  | nil => simp [added]
  | cons mv moves ih =>
    rw [List.cons_append, added, added, ih, run_cons]
    omega

/-! ### From the beginning of a call on -/

theorem parties_beginAcquire (m : Manager) (access : Access) (session : Session) :
    (m.beginAcquire access session).parties.Perm
      (⟨m.next, session, false, [], lockPlan access, .ready⟩ :: m.parties) := by
  rw [beginAcquire, beginCall, parties, List.append_assoc]
  exact List.perm_middle

/-- A call owns its plan from its beginning on, and stands for nothing at first. -/
theorem Sound.owned_beginAcquire (hs : m.Sound) (access : Access) (session : Session) :
    (m.beginAcquire access session).Owned m.next session (lockPlan access) ∧
      ∀ e, (m.beginAcquire access session).share m.next e = 0 := by
  have hperm := parties_beginAcquire m access session
  have hold : ∀ c ∈ m.parties, c.request ≠ m.next := fun c hc => Nat.ne_of_lt (hs.request_lt hc)
  have hnew : ∀ c ∈ (m.beginAcquire access session).parties, c.request = m.next →
      c = ⟨m.next, session, false, [], lockPlan access, .ready⟩ := fun c hc hreq =>
    (List.mem_cons.mp (hperm.mem_iff.mp hc)).resolve_right fun hc => hold c hc hreq
  refine ⟨⟨Nat.lt_succ_self _, fun c hc hreq => ?_, fun c hc hreq => ?_, fun c hc hreq _ => ?_⟩,
    fun e => ?_⟩
  · rw [hnew c hc hreq]
  · rw [hnew c hc hreq]
  · rw [hnew c hc hreq]
    rfl
  · have hnil : m.parties.filter (·.request == m.next) = [] :=
      List.filter_eq_nil_iff.mpr fun c hc => by simpa using hold c hc
    rw [share_perm hperm, List.filter_cons_of_pos (by simp), hnil, List.map_singleton,
      Call.entries_eq_zero rfl rfl]
    rfl

/-- The moves of a call from its beginning on add what the call then stands for. -/
theorem Sound.added_eq (hs : m.Sound) (hx : m.Exact) (access : Access) (session : Session)
    (after : List ManagerMove) (e : Entry) :
    m.added m.next e (.acquireAccess access session :: after) =
      (m.run (.acquireAccess access session :: after)).share m.next e := by
  obtain ⟨howned, hshare⟩ := hs.owned_beginAcquire access session
  have hrun := howned.added_run (hs.move (.acquireAccess access session))
    ((hs.effect (.acquireAccess access session)).exact hs hx) after e
  have hfirst : (m.move (.acquireAccess access session)).entries e = m.entries e := rfl
  rw [hshare] at hrun
  rw [added, hfirst, run_cons]
  exact (congrArg _ hrun).trans (by simp [Manager.move])

/-- A call owns its plan after every move. -/
theorem Owned.run {request : Nat} {session : Session} {plan : List (String × LockKind)}
    (h : m.Owned request session plan) (hs : m.Sound) (moves : List ManagerMove) :
    (m.run moves).Owned request session plan :=
  (run_induction (P := fun m => m.Sound ∧ m.Owned request session plan)
    (fun _ mv h => ⟨h.1.move mv, h.2.effect h.1 (h.1.effect mv)⟩) m ⟨hs, h⟩ moves).2

theorem Over.share {request : Nat} (h : m.Over request) (e : Entry) : m.share request e = 0 :=
  share_of_none (over_iff.mp h) e

theorem Ascending.nodup_held (ha : m.Ascending) {c : Call} (hc : c ∈ m.parties) :
    c.held.Nodup := by
  have hroute := ha c hc
  rw [Call.route, List.map_append, List.append_assoc] at hroute
  have hnames := (List.pairwise_append.mp hroute).1
  refine List.Nodup.of_map (Held.named m.name) (hnames.imp fun hlt heq => ?_)
  exact absurd hlt (heq ▸ lt_irrefl _)

end Manager

/-- What a permit stands for: its session, once among the admitted ones of each of its locks. -/
def Permit.entries (p : Permit) (e : Entry) : Nat :=
  if e.standing = .admitted ∧ e.session = p.session ∧ ⟨e.lock, e.kind⟩ ∈ p.held then 1 else 0

namespace Manager

variable {m : Manager}

theorem Sound.share_of_permit (hs : m.Sound) (ha : m.Ascending) {request : Nat} {p : Permit}
    (hp : m.permit? request = some p) (e : Entry) : m.share request e = p.entries e := by
  obtain rfl : p.request = request := by simpa using List.find?_some hp
  have hmem : p.call ∈ m.parties :=
    List.mem_append_right _ (List.mem_map_of_mem (List.mem_of_find?_eq_some hp))
  have hnodup : p.held.Nodup := ha.nodup_held hmem
  have hshare : m.share p.request e = p.call.entries e := hs.share_of_mem hmem e
  have hentries : p.call.entries e =
      if e.standing = .admitted then p.count e.session ⟨e.lock, e.kind⟩ else 0 :=
    Call.entries_of_none rfl ..
  rw [hshare, hentries, Permit.entries, Permit.count, hnodup.count]
  by_cases hsession : p.session = e.session
  · simp [hsession, ite_and]
  · simp [hsession, Ne.symm hsession]

/-! ### The result -/

/-- After the moves, the call of a number is over and has added nothing to any queue. -/
def LeavesNothing (m : Manager) (request : Nat) (moves : List ManagerMove) : Prop :=
  (m.run moves).Over request ∧ ∀ e, m.added request e moves = 0

/-- After the moves, the call of a number has a permit on every table of an access, once, in the
order of the bytes of the names, to write it if it is written and else to read it; and the locks of
the permit are all that it has added to any queue. -/
structure Granted (m : Manager) (request : Nat) (access : Access) (session : Session)
    (tables : List (String × LockKind)) (moves : List ManagerMove) : Prop where
  ordered : tables.Pairwise fun a b => a.1.toUTF8.data.toList < b.1.toUTF8.data.toList
  mem_iff : ∀ name kind, (name, kind) ∈ tables ↔
    (name ∈ access.reads ∨ name ∈ access.writes) ∧ (kind = .write ↔ name ∈ access.writes)
  permit : ∃ p, (m.run moves).permit? request = some p ∧ p.session = session ∧
    p.held.map (Held.named (m.run moves).name) = tables ∧
    ∀ e, m.added request e moves = p.entries e

/-- A call takes all its locks or none, if it begins in a manager with the first of some moves. -/
structure AllOrNothing (m : Manager) (access : Access) (session : Session)
    (moves : List ManagerMove) : Prop where
  /-- When it ends well with its next step, it has them all. -/
  granted : ∀ σ tables, ((m.run moves).act m.next).2 = some (.granted σ tables) →
    σ = session ∧ m.Granted m.next access session tables (moves ++ [.act m.next])
  /-- When it fails with its next step, it leaves nothing from then on. -/
  failed : ∀ error, ((m.run moves).act m.next).2 = some (.failed error) →
    ∀ later, m.LeavesNothing m.next (moves ++ .act m.next :: later)
  /-- When it is not wanted any more while it waits, it leaves nothing after its last steps. -/
  abandoned : ∀ c h deadline, (m.run moves).call? m.next = some c →
    c.phase = .waiting h deadline →
    ∀ later, c.held.length + 2 ≤ later.countP (·.isAct m.next) →
      m.LeavesNothing m.next (moves ++ .abandon m.next :: later)
  /-- When its permit is given back, exactly what it has added goes away with its last steps. -/
  released : ∀ p, (m.run moves).permit? m.next = some p →
    (∀ e, m.added m.next e moves = p.entries e) ∧
    ∀ later, p.held.length + 1 ≤ later.countP (·.isAct m.next) →
      m.LeavesNothing m.next (moves ++ .release m.next :: later) ∧
      ∀ e, (m.run moves).added m.next e (.release m.next :: later) = -p.entries e

/-! ### How calls end -/

section

variable {access : Access} {session : Session} {after : List ManagerMove}

/-- Once it is over, a call has added nothing. -/
theorem Regular.leavesNothing (h : m.Regular)
    (hover : (m.run (.acquireAccess access session :: after)).Over m.next) :
    m.LeavesNothing m.next (.acquireAccess access session :: after) :=
  ⟨hover, fun e => by rw [h.sound.added_eq h.exact, hover.share e]; rfl⟩

/-- As long as it has its permit, a call has added the locks of the permit. -/
theorem Regular.added_of_permit (h : m.Regular) {p : Permit}
    (hp : (m.run (.acquireAccess access session :: after)).permit? m.next = some p) (e : Entry) :
    m.added m.next e (.acquireAccess access session :: after) = p.entries e := by
  have h' := h.run (.acquireAccess access session :: after)
  rw [h.sound.added_eq h.exact, h'.sound.share_of_permit h'.ascending hp]

/-- A call that ends well has its whole plan. -/
theorem Regular.granted (h : m.Regular) {σ : Session} {tables : List (String × LockKind)}
    (hact : ((m.run (.acquireAccess access session :: after)).act m.next).2 =
      some (.granted σ tables)) :
    σ = session ∧ m.Granted m.next access session tables
      (.acquireAccess access session :: after ++ [.act m.next]) := by
  obtain ⟨c, hc, hreq, ⟨hp, hrest, hgranted, hstate⟩ | hdropped | ⟨⟨error, hfailed⟩, -⟩⟩ :=
    act_result hact
  rotate_left
  · cases hdropped
  · cases hfailed
  obtain ⟨rfl, rfl⟩ := CallResult.granted.inj hgranted
  have hmem := mem_parties_of_call hc
  have howned := (h.sound.owned_beginAcquire access session).1.run
    (h.sound.move (.acquireAccess access session)) after
  have hsession : c.session = session := howned.session c hmem hreq
  have hplan := howned.route c hmem hreq (by rw [hp]; rfl)
  rw [Call.route_of_none (by rw [hp]; rfl), hrest, List.append_nil] at hplan
  -- The permit is there after the step.
  have hrun : m.run (.acquireAccess access session :: after ++ [.act m.next]) =
      ((m.run (.acquireAccess access session :: after)).grant c).1 := by
    rw [run_append, run_cons, run_nil, Manager.move, hstate]
  have hpermit : (m.run (.acquireAccess access session :: after ++ [.act m.next])).permit? m.next =
      some c.permit := by
    have hmem' : c.permit ∈
        (m.run (.acquireAccess access session :: after ++ [.act m.next])).permits := by
      rw [hrun]
      exact (insertPermit_perm ..).mem_iff.mpr List.mem_cons_self
    exact hreq ▸ (h.run _).sound.permit?_of_mem hmem'
  refine ⟨hsession, ?_, fun name kind => ?_, c.permit, hpermit, hsession, ?_,
    h.added_of_permit hpermit⟩
  · exact hplan ▸ (ascending_lockPlan access).imp (lt_iff_utf8_lt _ _).mp
  · exact hplan ▸ mem_lockPlan
  · rw [hrun]
    rfl

end

/-- **A call takes all its locks or none.** This is true of every call for the tables of an access,
in whatever order its steps and those of other calls follow each other. -/
theorem all_or_nothing (timeout : Option UInt64) (before : List ManagerMove) (access : Access)
    (session : Session) (after : List ManagerMove) :
    ((new timeout).run before).AllOrNothing access session
      (.acquireAccess access session :: after) := by
  obtain ⟨m, hm⟩ : ∃ m, (new timeout).run before = m := ⟨_, rfl⟩
  have h : m.Regular := hm ▸ regular_run timeout before
  rw [hm]
  have hs' := (h.run (.acquireAccess access session :: after)).sound
  have hnothing : ∀ more, ((m.run (.acquireAccess access session :: after)).run more).Over m.next →
      m.LeavesNothing m.next (.acquireAccess access session :: after ++ more) := by
    intro more hover
    rw [← run_append] at hover
    exact h.leavesNothing hover
  refine ⟨fun σ tables => h.granted, fun error hact later => ?_,
    fun c k deadline hcall hp later hsteps => ?_, fun p hp => ⟨h.added_of_permit hp, ?_⟩⟩
  · exact hnothing _ (hs'.over_failed hact later)
  · exact hnothing _ (hs'.over_abandon hcall hp later hsteps)
  · intro later hsteps
    have hreleased := hnothing _ (hs'.over_release hp later hsteps)
    refine ⟨hreleased, fun e => ?_⟩
    have htotal := hreleased.2 e
    rw [added_append, h.added_of_permit hp] at htotal
    omega

/-- A session reads a table. -/
def studentRead : List ManagerMove :=
  .acquireAccess ⟨["Student"], []⟩ ⟨2⟩ :: List.replicate 4 (.act 0)

/-- The theorem at calls that read a table and write another one: it is granted when nobody else is
there, and leaves nothing when its permit is given back, when it is not wanted any more while it
waits for a reader, and when the table that it is about to write is dropped. -/
theorem all_or_nothing_student :
    (new none).Granted 0 ⟨["Class", "Student"], ["Student"]⟩ ⟨1⟩
        [("Class", .read), ("Student", .write)]
        (.acquireAccess ⟨["Class", "Student"], ["Student"]⟩ ⟨1⟩ :: List.replicate 6 (.act 0) ++
          [.act 0]) ∧
      (new none).LeavesNothing 0
        (.acquireAccess ⟨["Class", "Student"], ["Student"]⟩ ⟨1⟩ :: List.replicate 7 (.act 0) ++
          .release 0 :: List.replicate 3 (.act 0)) ∧
      ((new none).run studentRead).LeavesNothing 1
        (.acquireAccess ⟨["Class", "Student"], ["Student"]⟩ ⟨1⟩ :: List.replicate 6 (.act 1) ++
          .abandon 1 :: List.replicate 3 (.act 1)) ∧
      ((new none).run (studentRead ++ [.dropTable "Student" ⟨3⟩, .act 1])).LeavesNothing 2
        (.acquireAccess ⟨["Class", "Student"], ["Student"]⟩ ⟨1⟩ :: List.replicate 6 (.act 2) ++
          [.act 2]) := by
  refine ⟨?_, ?_, ?_, ?_⟩
  · exact ((all_or_nothing none [] ⟨["Class", "Student"], ["Student"]⟩ ⟨1⟩
      (List.replicate 6 (.act 0))).granted ⟨1⟩ [("Class", .read), ("Student", .write)]
      (by decide)).2
  · exact (((all_or_nothing none [] ⟨["Class", "Student"], ["Student"]⟩ ⟨1⟩
      (List.replicate 7 (.act 0))).released ⟨0, ⟨1⟩, [⟨0, .read⟩, ⟨1, .write⟩]⟩ (by decide)).2
      (List.replicate 3 (.act 0)) (by decide)).1
  · have hnext : ((new none).run studentRead).next = 1 := by decide
    have h := (all_or_nothing none studentRead ⟨["Class", "Student"], ["Student"]⟩ ⟨1⟩
      (List.replicate 6 (.act 1))).abandoned
      ⟨1, ⟨1⟩, false, [⟨1, .read⟩], [], .waiting ⟨0, .write⟩ none⟩ ⟨0, .write⟩ none
    rw [hnext] at h
    exact h (by decide) rfl (List.replicate 3 (.act 1)) (by decide)
  · have hnext : ((new none).run (studentRead ++ [.dropTable "Student" ⟨3⟩, .act 1])).next = 2 := by
      decide
    have h := (all_or_nothing none (studentRead ++ [.dropTable "Student" ⟨3⟩, .act 1])
      ⟨["Class", "Student"], ["Student"]⟩ ⟨1⟩ (List.replicate 6 (.act 2))).failed
        (.closed "Student")
    rw [hnext] at h
    exact h (by decide) []

end Manager

end SqlTree
