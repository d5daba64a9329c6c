import SqlTree.Proofs.Keyed
import SqlTree.Proofs.Lock.CallSteps

/-!
# The order in which a call takes its locks

A call takes its locks in the ascending order of their names. What it holds, what it is after and
what it still has to ask for, one after another, is its route: it begins as the plan of the call
and stays the same until the call fails or is not wanted any more, and then only shrinks. So a call
that waits for a lock holds none whose name comes after it.

## Main definitions

* `Phase.target?`, `Call.route`: the lock that a call is after, and its route.
* `Phase.goesOn`: whether a call may still end well.

## Main results

* `mem_lockPlan`, `ascending_lockPlan`: the locks that an access needs.
* `Call.Step.route`, `Call.Step.route_eq`: the route of a call shrinks, or stays the same.
* `Manager.Ascending.effect`: whatever a move does keeps the routes ascending.
-/

namespace SqlTree

/-! ### Plans -/

theorem last?_map_pair (names : List String) (kind : LockKind) (name : String) :
    Keyed.last? name (names.map (·, kind)) = if name ∈ names then some kind else none := by
  induction names with
  | nil => rfl
  | cons n names ih =>
    rw [List.map_cons, Keyed.last?_cons, ih]
    by_cases hmem : name ∈ names
    · simp [hmem]
    · by_cases hn : n = name
      · simp [hmem, hn]
      · simp [hmem, hn, Ne.symm hn]

theorem ascending_lockPlan (a : Access) : Keyed.Ascending (lockPlan a) :=
  Keyed.ascending_ofList _

/-- A plan has every table of the access once: to write it if it is written, else to read it. -/
theorem mem_lockPlan {a : Access} {name : String} {kind : LockKind} :
    (name, kind) ∈ lockPlan a ↔
      (name ∈ a.reads ∨ name ∈ a.writes) ∧ (kind = .write ↔ name ∈ a.writes) := by
  rw [(ascending_lockPlan a).mem_iff, lockPlan, Keyed.find?_ofList, Keyed.last?_append,
    last?_map_pair, last?_map_pair]
  by_cases hw : name ∈ a.writes
  · simp [hw, eq_comm]
  · by_cases hr : name ∈ a.reads
    · cases kind <;> simp [hw, hr]
    · simp [hw, hr]

/-! ### Routes -/

/-- The lock that a call is after. -/
def Phase.target? : Phase → Option Held
  | .asking h | .waiting h _ | .leaving h _ => some h
  | .shutting id | .closing id => some ⟨id, .write⟩
  | .ready | .ending _ => none

/-- Whether a call may still end well. -/
def Phase.goesOn : Phase → Bool
  | .leaving .. | .ending _ => false
  | _ => true

/-- A lock by its name, and how it is held or waited for. -/
def Held.named (name : Nat → String) (h : Held) : String × LockKind := (name h.lock, h.kind)

namespace Call

/-- The locks that a call holds, is after and has to ask for, in this order. -/
def route (name : Nat → String) (c : Call) : List (String × LockKind) :=
  (c.held ++ c.phase.target?.toList).map (Held.named name) ++ c.rest

variable {name : Nat → String} {c d : Call} {c' : Option Call} {id : Nat} {l l' : TableLock}

theorem route_of_none (h : c.phase.target? = none) :
    c.route name = c.held.map (Held.named name) ++ c.rest := by
  simp [route, h]

/-- A call that is after nothing any more. -/
theorem route_sublist {phase : Phase} (h : phase.target? = none) :
    (route name { c with phase }).Sublist (c.route name) := by
  rw [route_of_none (by exact h), route, List.map_append, List.append_assoc]
  exact (List.Sublist.refl _).append (List.sublist_append_right _ _)

/-- The route of a call that goes on stays the same. -/
theorem Step.route_eq (h : c.Step id l c' l') (hname : name id = l.name) (hd : d ∈ c')
    (hgoes : d.phase.goesOn = true) : d.route name = c.route name ∧ c.phase.goesOn = true := by
  cases h with
  | fetch phase next hl =>
    obtain rfl := Option.some.inj hd
    refine ⟨?_, by rw [phase]; rfl⟩
    simp [route, Phase.target?, Held.named, hname, hl, phase, next]
  | ask phase | shut phase | join phase =>
    obtain rfl := Option.some.inj hd
    exact ⟨by simp [route, Phase.target?, phase], by rw [phase]; rfl⟩
  | wait waits lock stays =>
    obtain rfl := Option.some.inj hd
    rcases stays with rfl | ⟨error, rfl⟩
    · exact ⟨by simp [route, Phase.target?, waits], by rw [waits]; rfl⟩
    · exact absurd hgoes (by simp [Phase.goesOn])
  | enter waits =>
    obtain rfl := Option.some.inj hd
    exact ⟨by simp [route, Phase.target?, waits], by rw [waits]; rfl⟩
  | giveBack phase =>
    obtain rfl := Option.some.inj hd
    exact absurd hgoes (by simp [Phase.goesOn, phase])
  | grant | turnAway | refuse | giveUp | leave =>
    obtain rfl := Option.some.inj hd
    exact absurd hgoes (by simp [Phase.goesOn, Permit.call])
  | drop => exact absurd hd (by simp)
  | finish => exact absurd hd (by simp)

/-- The route of a call only shrinks. -/
theorem Step.route (h : c.Step id l c' l') (hname : name id = l.name) (hd : d ∈ c') :
    (d.route name).Sublist (c.route name) := by
  cases hgoes : d.phase.goesOn with
  | true => exact (h.route_eq hname hd hgoes).1 ▸ .refl _
  | false =>
    cases h with
    | fetch | ask | shut | join | enter =>
      obtain rfl := Option.some.inj hd
      exact absurd hgoes (by simp [Phase.goesOn])
    | grant phase rest =>
      obtain rfl := Option.some.inj hd
      rw [route_of_none rfl, Call.route, phase, rest]
      simp [Permit.call, permit, Phase.target?]
    | turnAway | refuse | leave =>
      obtain rfl := Option.some.inj hd
      exact route_sublist rfl
    | wait waits lock stays =>
      obtain rfl := Option.some.inj hd
      rcases stays with rfl | ⟨error, rfl⟩
      · exact absurd hgoes (by simp [Phase.goesOn])
      · simp [Call.route, Phase.target?, waits]
    | giveUp waits =>
      obtain rfl := Option.some.inj hd
      simp [Call.route, Phase.target?, waits]
    | giveBack phase newest =>
      obtain rfl := Option.some.inj hd
      have htarget : c.phase.target? = none := by rw [phase]; rfl
      rw [route_of_none htarget, route_of_none (by exact htarget), newest, List.map_append]
      exact (List.sublist_append_left _ _).append (.refl _)
    | drop => exact absurd hd (by simp)
    | finish => exact absurd hd (by simp)

end Call

namespace Manager

variable {m m' : Manager}

/-- The name of the lock of a number. -/
def name (m : Manager) (id : Nat) : String := (m.lock id).name

/-- The routes of all calls are ascending. -/
def Ascending (m : Manager) : Prop := ∀ c ∈ m.parties, Keyed.Ascending (c.route m.name)

/-! ### Names along a run -/

theorem Sound.lock_lt (hs : m.Sound) {c : Call} (hc : c ∈ m.parties) {h : Held}
    (hh : h ∈ c.held ++ c.phase.target?.toList) : h.lock < m.locks.length := by
  rcases List.mem_append.mp hh with hh | hh
  · exact lt_of_active (hs.admitted (map_permit_parties m ▸ List.mem_map_of_mem hc) hh)
  · rcases List.mem_append.mp hc with hc | hc
    · have hfits := hs.fits c hc
      cases hp : c.phase with
      | asking _ =>
        rw [hp] at hfits hh
        obtain rfl := List.mem_singleton.mp hh
        exact hfits.2
      | waiting _ _ | leaving _ _ =>
        rw [hp] at hfits hh
        obtain rfl := List.mem_singleton.mp hh
        exact hfits
      | shutting _ | closing _ =>
        rw [hp] at hfits hh
        obtain rfl := List.mem_singleton.mp hh
        exact hfits.2
      | ready | ending _ =>
        rw [hp] at hh
        exact absurd hh List.not_mem_nil
    · obtain ⟨p, -, rfl⟩ := List.mem_map.mp hc
      exact absurd hh List.not_mem_nil

/-- Registering locks changes no route. -/
theorem Sound.route_extends (hs : m.Sound) (hm : m.Extends m') {c : Call} (hc : c ∈ m.parties) :
    c.route m'.name = c.route m.name := by
  rw [Call.route, Call.route]
  refine congrArg (· ++ c.rest) (List.map_congr_left fun h hh => ?_)
  rw [Held.named, Held.named, name, hm.name _ (hs.lock_lt hc hh), name]

theorem name_of_locks {m₁ : Manager} {c : Call} {c' : Option Call} {id : Nat} {l : TableLock}
    (step : c.Step id (m₁.lock id) c' l) (range : id < m₁.locks.length ∨ l = m₁.lock id)
    (result : m'.locks = m₁.locks.set id l) : m'.name = m₁.name := by
  funext i
  rw [name, name, lock_of_locks range result]
  split
  · next hi => rw [step.follows.name, hi]
  · rfl

theorem ascending_new (timeout : Option UInt64) : (new timeout).Ascending := by
  simp [Ascending, new, parties]

/-- Every effect keeps the routes ascending. -/
theorem Ascending.effect (h : m.Ascending) (hs : m.Sound) {request : Option Nat}
    (he : m.Effect m' request) : m'.Ascending := by
  cases he with
  | quiet locks parties =>
    intro c hc
    have hc' := parties.mem_iff.mp hc
    rw [hs.route_extends locks hc']
    exact h c hc'
  | begins locks parties next request held phase =>
    intro d hd
    rcases List.mem_cons.mp (parties.mem_iff.mp hd) with rfl | hd
    · rcases phase with ⟨hp, access, hrest⟩ | ⟨id, hp, hrest⟩
      · rw [Call.route, held, hp, hrest]
        exact ascending_lockPlan access
      · rw [Call.route, held, hp, hrest]
        exact List.pairwise_singleton _ _
    · rw [hs.route_extends locks hd]
      exact h d hd
  | @steps m₁ c c' id l others locks mine before after step range result =>
    have hname := name_of_locks step range result
    have hroute : ∀ d ∈ c :: others, d.route m'.name = d.route m.name := fun d hd => by
      rw [hname, hs.route_extends locks (before.mem_iff.mpr hd)]
    intro d hd
    rcases List.mem_append.mp (after.mem_iff.mp hd) with hd | hd
    · have hsub := step.route (congrFun hname id) (Option.mem_toList.mp hd)
      rw [hroute c List.mem_cons_self] at hsub
      exact List.Pairwise.sublist hsub (h c (before.mem_iff.mpr List.mem_cons_self))
    · rw [hroute d (List.mem_cons_of_mem _ hd)]
      exact h d (before.mem_iff.mpr (List.mem_cons_of_mem _ hd))

end Manager

end SqlTree
