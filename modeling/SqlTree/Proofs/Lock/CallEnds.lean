import SqlTree.Proofs.Lock.CallSteps
import SqlTree.Proofs.Lock.Routes

/-!
# How calls end

A call that has no lock left to ask for ends with a permit. A call that fails, or is not wanted any
more, ends when it has given everything back, and so does a permit that is given back. It gives back
one lock with each step, whatever other calls do in between, so that it is over after as many steps
as it has locks and two more at most. A call that is over has left no call and no permit of its
number, and there never is one again.

## Main definitions

* `Manager.Over`: a call is over, and so is its permit.
* `Call.stepsLeft`: how many steps a call has left that does not go on.

## Main results

* `Manager.act_result`: the ways in which a call ends.
* `Manager.Sound.over_failed`: a call that fails is over.
* `Manager.Sound.over_run`: a call that is over stays so.
* `Manager.Sound.over_steps`: a call that does not go on is over after the steps that it has left.
-/

namespace SqlTree

/-- Whether a move is a step of the call of a number. -/
def ManagerMove.isAct (request : Nat) : ManagerMove → Bool
  | .act r => r == request
  | _ => false

/-- How many steps a call has left that does not go on: it gives up its place, gives back each of
its locks and ends. -/
def Call.stepsLeft (c : Call) : Nat :=
  c.held.length + if c.phase.queue?.isSome then 2 else 1

namespace Manager

variable {m m' : Manager} {c : Call} {request : Nat}

/-! ### Calls that are over -/

/-- The call of a number is over, and its permit has been given back if it had one. -/
def Over (m : Manager) (request : Nat) : Prop :=
  m.call? request = none ∧ m.permit? request = none

instance (m : Manager) (request : Nat) : Decidable (m.Over request) :=
  inferInstanceAs (Decidable (_ ∧ _))

theorem over_iff : m.Over request ↔ ∀ c ∈ m.parties, c.request ≠ request := by
  simp [Over, call?, permit?, parties, Permit.call, or_imp, forall_and]

theorem Sound.over_dropCall (hs : m.Sound) (hc : c ∈ m.calls) :
    (m.dropCall c.request).Over c.request := by
  obtain ⟨others, hbefore, hdrop, -⟩ := parties_split hs hc
  refine over_iff.mpr fun d hd heq => ?_
  have hn := (hbefore.map Call.request).nodup_iff.mp hs.nodup_parties
  exact (List.nodup_cons.mp hn).1 (heq ▸ List.mem_map_of_mem (hdrop.mem_iff.mp hd))

theorem Over.effect (h : m.Over request) (hlt : request < m.next) {mine : Option Nat}
    (he : m.Effect m' mine) : m'.Over request := by
  rw [over_iff] at h ⊢
  intro d hd
  cases he with
  | quiet locks parties => exact h d (parties.mem_iff.mp hd)
  | begins locks parties next hnew =>
    rcases List.mem_cons.mp (parties.mem_iff.mp hd) with rfl | hd
    · rw [hnew]
      exact Nat.ne_of_gt hlt
    · exact h d hd
  | steps locks mine before after step =>
    rcases List.mem_append.mp (after.mem_iff.mp hd) with hd | hd
    · rw [step.request d (Option.mem_toList.mp hd)]
      exact h _ (before.mem_iff.mpr List.mem_cons_self)
    · exact h d (before.mem_iff.mpr (List.mem_cons_of_mem _ hd))

/-- A call that is over stays so. -/
theorem Sound.over_run (hs : m.Sound) (h : m.Over request) (hlt : request < m.next)
    (moves : List ManagerMove) : (m.run moves).Over request := by
  induction moves generalizing m with
  | nil => exact h
  | cons mv moves ih =>
    have he := hs.effect mv
    exact ih (hs.move mv) (h.effect hlt he) (Nat.lt_of_lt_of_le hlt he.next_le)

/-! ### Results -/

theorem check_result (m : Manager) (c : Call) (h : Held) (deadline : Option Nat) :
    (m.check c h deadline).2 = none ∨ (m.check c h deadline).2 = some .dropped := by
  rw [check]
  dsimp only
  split
  · split
    · exact .inr rfl
    · exact .inl rfl
  · exact .inl rfl
  · split
    · exact .inl rfl
    · exact .inl rfl

/-- A call that ends with its step has a permit on its locks if it has none left to ask for, or has
dropped its table, or has failed. -/
theorem act_result {result : CallResult} (h : (m.act request).2 = some result) :
    ∃ c ∈ m.calls, c.request = request ∧
      ((c.phase = .ready ∧ c.rest = [] ∧
          result = .granted c.session (c.held.map (Held.named m.name)) ∧
          (m.act request).1 = (m.grant c).1) ∨
        result = .dropped ∨
        (∃ error, result = .failed error) ∧ (m.act request).1 = m.dropCall c.request) := by
  cases hcall : m.call? request with
  | none => simp [act, hcall] at h
  | some c =>
    refine ⟨c, (call?_eq_some hcall).1, (call?_eq_some hcall).2, ?_⟩
    cases hp : c.phase with
    | ready =>
      have hact : m.act request = m.fetch c := by simp only [act, hcall, hp]
      rw [hact] at h ⊢
      rw [fetch] at h ⊢
      cases hrest : c.rest with
      | nil =>
        rw [hrest] at h
        exact .inl ⟨rfl, rfl, (Option.some.inj h).symm, rfl⟩
      | cons next rest => simp [hrest] at h
    | waiting k deadline =>
      have hact : m.act request = m.check c k deadline := by simp only [act, hcall, hp]
      rw [hact] at h
      rcases check_result m c k deadline with hr | hr
      · rw [hr] at h
        cases h
      · rw [hr] at h
        exact .inr (.inl (Option.some.inj h).symm)
    | ending cause =>
      have hact : m.act request = m.finish c cause := by simp only [act, hcall, hp]
      rw [hact] at h ⊢
      rw [finish] at h ⊢
      split at h
      · cases h
      · obtain ⟨error, -, rfl⟩ := Option.map_eq_some_iff.mp h
        exact .inr (.inr ⟨⟨error, rfl⟩, rfl⟩)
    | asking | shutting | closing | leaving => simp [act, hcall, hp] at h

/-- A call that fails is over. -/
theorem Sound.over_failed (hs : m.Sound) {error : LockError}
    (h : (m.act request).2 = some (.failed error)) (moves : List ManagerMove) :
    (m.run (.act request :: moves)).Over request := by
  obtain ⟨c, hc, rfl, ⟨-, -, hgranted, -⟩ | hdropped | ⟨-, hstate⟩⟩ := act_result h
  · cases hgranted
  · cases hdropped
  have hover : (m.move (.act c.request)).Over c.request := by
    rw [Manager.move, hstate]
    exact hs.over_dropCall hc
  refine (hs.move (.act c.request)).over_run hover ?_ moves
  exact Nat.lt_of_lt_of_le (hs.request_lt (mem_parties_of_call hc))
    (hs.effect (.act c.request)).next_le

/-! ### Steps of other calls -/

theorem mem_setCall {c' : Call} (hc : c ∈ m.calls) (hne : c.request ≠ c'.request) :
    c ∈ (m.setCall c').calls :=
  List.mem_map.mpr ⟨c, hc, if_neg hne⟩

theorem mem_dropCall (hc : c ∈ m.calls) (hne : c.request ≠ request) :
    c ∈ (m.dropCall request).calls :=
  List.mem_filter.mpr ⟨hc, bne_iff_ne.mpr hne⟩

theorem Sound.mem_fetch (hs : m.Sound) {c' : Call} (hc : c ∈ m.calls)
    (hne : c.request ≠ c'.request) : c ∈ (m.fetch c').1.calls := by
  rw [Manager.fetch]
  split
  · exact mem_dropCall hc hne
  · next name kind rest _ =>
    exact mem_setCall (by rw [(hs.table_known name).2]; exact hc) hne

theorem mem_check {c' : Call} {h : Held} {deadline : Option Nat} (hc : c ∈ m.calls)
    (hne : c.request ≠ c'.request) : c ∈ (m.check c' h deadline).1.calls := by
  rw [check]
  dsimp only
  split
  · split
    · exact mem_dropCall hc hne
    · exact mem_setCall hc hne
  · exact mem_setCall hc hne
  · split
    · exact mem_setCall hc hne
    · exact hc

/-- A call stays as it is when another one makes a step. -/
theorem Sound.mem_act (hs : m.Sound) (hc : c ∈ m.calls) (hne : c.request ≠ request) :
    c ∈ (m.act request).1.calls := by
  rw [Manager.act]
  split
  · exact hc
  · next d hcall =>
    obtain ⟨-, rfl⟩ := call?_eq_some hcall
    split
    · exact hs.mem_fetch hc hne
    · rw [Manager.ask]
      split <;> exact mem_setCall hc hne
    · rw [Manager.shut]
      split <;> exact mem_setCall hc hne
    · exact mem_setCall hc hne
    · exact mem_check hc hne
    · exact mem_setCall hc hne
    · rw [Manager.finish]
      split
      · exact mem_setCall hc hne
      · exact mem_dropCall hc hne

theorem calls_createTable (m : Manager) (name : String) :
    (m.createTable name).1.calls = m.calls := by
  rw [Manager.createTable]
  split
  · split <;> rfl
  · rfl

/-- A call that does not go on stays as it is until its next step. -/
theorem Sound.mem_move (hs : m.Sound) (hc : c ∈ m.calls) (hgoes : c.phase.goesOn = false)
    {mv : ManagerMove} (hmv : mv.isAct c.request = false) : c ∈ (m.move mv).calls := by
  cases mv with
  | table name => exact (hs.table_known name).2.symm ▸ hc
  | createTable name => exact (calls_createTable m name).symm ▸ hc
  | dropTable name session =>
    rw [Manager.move, Manager.beginDrop]
    split
    · next m' h =>
      split at h
      · cases h
      · obtain rfl := Except.ok.inj h
        exact List.mem_append_left _ hc
    · exact hc
  | acquire s session =>
    refine List.mem_append_left _ ?_
    cases s with
    | createTable t => exact (calls_createTable m t.target).symm ▸ hc
    | _ => exact hc
  | acquireAccess access session => exact List.mem_append_left _ hc
  | act r => exact hs.mem_act hc fun heq => by simp [ManagerMove.isAct, heq] at hmv
  | abandon r =>
    rw [Manager.move]
    split
    · next d hcall =>
      obtain ⟨hd, rfl⟩ := call?_eq_some hcall
      rw [Manager.abandon]
      split
      · next h deadline hp =>
        refine mem_setCall hc fun heq => ?_
        rw [hs.eq_of_request hc hd heq, hp] at hgoes
        exact absurd hgoes (by simp [Phase.goesOn])
      · exact hc
    · exact hc
  | release r =>
    rw [Manager.move]
    split
    · exact (insertCall_perm ..).mem_iff.mpr (List.mem_cons_of_mem _ hc)
    · exact hc
  | advance ms => exact hc

/-! ### The last steps of a call -/

/-- A call that does not go on has less left after its step, or is over. -/
theorem Sound.act_ends (hs : m.Sound) (hc : c ∈ m.calls) (hgoes : c.phase.goesOn = false) :
    (m.move (.act c.request)).Over c.request ∨
      ∃ d ∈ (m.move (.act c.request)).calls, d.request = c.request ∧ d.phase.goesOn = false ∧
        d.stepsLeft < c.stepsLeft := by
  have hcall := hs.call?_of_mem hc
  have hset : ∀ (m' : Manager) (d : Call), m'.calls = m.calls → d.request = c.request →
      d ∈ (m'.setCall d).calls := by
    intro m' d hcalls hreq
    refine (call?_eq_some (call?_setCall (c := c) ?_)).1
    rw [call?, hcalls, hreq]
    exact hcall
  cases hp : c.phase with
  | leaving h error =>
    have hact : m.act c.request = (m.leave c h error, none) := by simp only [Manager.act, hcall, hp]
    rw [Manager.move, hact]
    refine .inr ⟨{ c with phase := .ending error }, hset _ _ rfl rfl, rfl, rfl, ?_⟩
    simp [Call.stepsLeft, Phase.queue?, hp]
  | ending error =>
    have hact : m.act c.request = m.finish c error := by simp only [Manager.act, hcall, hp]
    rw [Manager.move, hact, Manager.finish]
    cases hlast : c.held.getLast? with
    | none => exact .inl (hs.over_dropCall hc)
    | some h =>
      have hpos : 0 < c.held.length := List.length_pos_of_mem (List.mem_of_getLast? hlast)
      refine .inr ⟨{ c with held := c.held.dropLast }, hset _ _ rfl rfl, rfl, ?_, ?_⟩
      · exact congrArg Phase.goesOn hp
      · simp only [Call.stepsLeft, List.length_dropLast]
        omega
  | _ =>
    rw [hp] at hgoes
    exact absurd hgoes (by simp [Phase.goesOn])

/-- A call that does not go on is over after the steps that it has left. -/
theorem Sound.over_steps (hs : m.Sound) (hc : c ∈ m.calls) (hgoes : c.phase.goesOn = false)
    (moves : List ManagerMove) (hsteps : c.stepsLeft ≤ moves.countP (·.isAct c.request)) :
    (m.run moves).Over c.request := by
  induction moves generalizing m c with
  | nil =>
    have hpos : 0 < c.stepsLeft := by
      rw [Call.stepsLeft]
      split <;> omega
    exact absurd hsteps (Nat.not_le_of_gt hpos)
  | cons mv moves ih =>
    rw [List.countP_cons] at hsteps
    rw [run_cons]
    cases hmv : mv.isAct c.request with
    | false =>
      rw [hmv] at hsteps
      exact ih (hs.move mv) (hs.mem_move hc hgoes hmv) hgoes (by simpa using hsteps)
    | true =>
      rw [if_pos hmv] at hsteps
      have hact : mv = .act c.request := by
        cases mv <;> simp_all [ManagerMove.isAct]
      subst hact
      rcases hs.act_ends hc hgoes with hover | ⟨d, hd, hreq, hgoes', hless⟩
      · have hlt : c.request < m.next :=
          hs.fresh _ (map_request_parties m ▸ List.mem_map_of_mem (mem_parties_of_call hc))
        exact (hs.move _).over_run hover
          (Nat.lt_of_lt_of_le hlt (hs.effect (.act c.request)).next_le) moves
      · have hover := ih (hs.move (.act c.request)) hd hgoes' (by rw [hreq]; omega)
        rwa [hreq] at hover

/-- A call that waits and is not wanted any more is over after as many steps as it has locks and two
more. -/
theorem Sound.over_abandon (hs : m.Sound) (hcall : m.call? request = some c) {h : Held}
    {deadline : Option Nat} (hp : c.phase = .waiting h deadline) (moves : List ManagerMove)
    (hsteps : c.held.length + 2 ≤ moves.countP (·.isAct request)) :
    (m.run (.abandon request :: moves)).Over request := by
  obtain rfl := (call?_eq_some hcall).2
  have hmove : m.move (.abandon c.request) = m.turn c (.leaving h none) := by
    simp only [Manager.move, hcall, Manager.abandon, hp]
  have hd : { c with phase := .leaving h none } ∈ (m.move (.abandon c.request)).calls := by
    have hset : (m.setCall { c with phase := .leaving h none }).call? c.request =
        some { c with phase := .leaving h none } := call?_setCall hcall
    rw [hmove]
    exact (call?_eq_some hset).1
  exact (hs.move _).over_steps hd rfl moves hsteps

/-- A permit that is given back is over after as many steps as it has locks and one more. -/
theorem Sound.over_release (hs : m.Sound) {p : Permit} (hpermit : m.permit? request = some p)
    (moves : List ManagerMove) (hsteps : p.held.length + 1 ≤ moves.countP (·.isAct request)) :
    (m.run (.release request :: moves)).Over request := by
  obtain rfl : p.request = request := by simpa using List.find?_some hpermit
  have hmove : m.move (.release p.request) = m.releasePermit p := by
    simp only [Manager.move, hpermit]
  have hd : p.call ∈ (m.move (.release p.request)).calls := by
    rw [hmove]
    exact (insertCall_perm ..).mem_iff.mpr List.mem_cons_self
  exact (hs.move _).over_steps hd rfl moves hsteps

end Manager

end SqlTree
