import SqlTree.Proofs.Lock.WakeScene

/-!
# No wakeup is lost

An acquisition of a `WakeScene` that sleeps may be one that would end its wait if it checked the
queues now: it would be admitted from the head of its queue, or refused because the table has been
closed. Such an acquisition is not left asleep. Either a notification is owed that will wake it, or
another acquisition of the same kind and session is about to check the queues, and the change that
this check makes will be notified.

The second case is real. A session whose place in the queue has been cancelled may ask again while
its first acquisition still sleeps, and then the new place would admit either of the two.

## Main definitions

* `LockState.Admits`, `WakeScene.WouldEnd`: what a check would do now.
* `WakeScene.Owes`, `WakeScene.Watched`: what will make up for a check that is not made.
* `WakeScene.Alert`: no acquisition that would end its wait is left asleep.

## Main results

* `WakeScene.alert_run`: a scene is alert after every run.
* `WakeScene.no_lost_wakeup`: when everything is asleep, no wait would end.
-/

namespace SqlTree

namespace LockState

/-- A session stands at the head of its queue, and its kind is enabled. -/
def Admits (st : LockState) (kind : LockKind) (session : Session) : Prop :=
  st.enabled kind = true ∧ (st.pending kind).head? = some session

variable {st : LockState} {kind kind' : LockKind} {session session' : Session}

theorem admits_iff_isSome : st.Admits kind session ↔ (st.admit? kind session).isSome := by
  simp [Admits, admit?]

/-- A queue that grows opens no gate. -/
theorem enabled_of_enqueue (h : (st.enqueue kind session).enabled kind' = true) :
    st.enabled kind' = true := by
  cases kind with
  | read => cases kind' <;> exact h
  | write =>
    cases kind' with
    | read => simp [enabled, readEnabled, enqueue, setPending, pending] at h
    | write => exact h

theorem pending_enqueue :
    (st.enqueue kind session).pending kind = st.pending kind ++ [session] := by
  cases kind <;> rfl

theorem pending_enqueue_of_ne (h : kind' ≠ kind) :
    (st.enqueue kind session).pending kind' = st.pending kind' := by
  cases kind <;> cases kind' <;> first | rfl | exact absurd rfl h

/-- A session that asks lets nobody pass but itself. -/
theorem admits_of_enqueue (h : (st.enqueue kind session).Admits kind' session') :
    st.Admits kind' session' ∨ kind' = kind ∧ session' = session := by
  have henabled := enabled_of_enqueue h.1
  by_cases hk : kind' = kind
  · subst hk
    have hhead := h.2
    rw [pending_enqueue, List.head?_append] at hhead
    cases hq : (st.pending kind').head? with
    | none => exact .inr ⟨rfl, by simpa [hq] using hhead.symm⟩
    | some x => exact .inl ⟨henabled, by simpa [hq] using hhead⟩
  · exact .inl ⟨henabled, pending_enqueue_of_ne hk ▸ h.2⟩

end LockState

/-- The stage of an acquisition that is about to check the queues. -/
def Stage.watches : Stage → Bool
  | .awake | .checking _ => true
  | _ => false

namespace WakeScene

/-- A check would end the wait of an acquisition now. -/
def WouldEnd (s : WakeScene) (a : Acquisition) : Prop :=
  (s.state.closed = true ∧ a.closing = false) ∨ s.state.Admits a.kind a.session

/-- A notification is still to come from an operation that has made its change. -/
def Owes (s : WakeScene) : Prop := 0 < s.owed ∨ ∃ b ∈ s.acquisitions, b.stage = .announcing

/-- An acquisition of a kind and session is about to check the queues. -/
def Watched (s : WakeScene) (kind : LockKind) (session : Session) : Prop :=
  ∃ b ∈ s.acquisitions, b.stage.watches = true ∧ b.kind = kind ∧ b.session = session

/-- No acquisition that would end its wait is left asleep. -/
structure Alert (s : WakeScene) : Prop where
  closed : s.state.closed = true →
    ∀ a ∈ s.acquisitions, a.stage = .asleep false → a.closing = false → s.Owes
  admits : ∀ a ∈ s.acquisitions, a.stage = .asleep false → s.state.Admits a.kind a.session →
    s.Owes ∨ s.Watched a.kind a.session

variable {s : WakeScene}

theorem Alert.of_owes (h : s.Owes) : s.Alert :=
  ⟨fun _ _ _ _ _ => h, fun _ _ _ _ => .inl h⟩

/-- Nothing is asleep right after a notification. -/
theorem Alert.of_awake (h : ∀ a ∈ s.acquisitions, a.stage ≠ .asleep false) : s.Alert :=
  ⟨fun _ a ha hs => absurd hs (h a ha), fun a ha hs => absurd hs (h a ha)⟩

/-- A change of the queues owes a notification. -/
theorem owes_change (state : LockState) : (s.change state).Owes := .inl (Nat.succ_pos _)

theorem owes_finish_change (state : LockState) (request : Nat) :
    ((s.change state).finish request).Owes := .inl (Nat.succ_pos _)

theorem stage_notify_ne (stage : Stage) : stage.notify ≠ .asleep false := by
  cases stage <;> simp [Stage.notify]

theorem ne_asleep_of_notifyAll {a : Acquisition} (ha : a ∈ s.notifyAll.acquisitions) :
    a.stage ≠ .asleep false := by
  obtain ⟨b, -, rfl⟩ := List.mem_map.mp ha
  exact stage_notify_ne b.stage

/-- The acquisitions after one of them has come to another stage. -/
theorem mem_turn {request : Nat} {stage : Stage} {b : Acquisition} :
    b ∈ (s.turn request stage).acquisitions ↔
      (b ∈ s.acquisitions ∧ b.request ≠ request) ∨
        ∃ a ∈ s.acquisitions, a.request = request ∧ b = { a with stage } := by
  simp only [turn, List.mem_map]
  constructor
  · rintro ⟨a, ha, rfl⟩
    by_cases hreq : a.request = request
    · exact .inr ⟨a, ha, hreq, if_pos hreq⟩
    · rw [if_neg hreq]
      exact .inl ⟨ha, hreq⟩
  · rintro (⟨hb, hne⟩ | ⟨a, ha, hreq, rfl⟩)
    · exact ⟨b, hb, if_neg hne⟩
    · exact ⟨a, ha, if_pos hreq⟩

/-! ### Steps of an acquisition -/

/-- A turn that does not notify leaves what is owed. -/
theorem Owes.turn (h : s.Owes) (hn : s.Numbered) {a : Acquisition} (ha : a ∈ s.acquisitions)
    (hstage : a.stage ≠ .announcing) (state : LockState) (stage : Stage) :
    ({ s with state }.turn a.request stage).Owes := by
  rcases h with h | ⟨b, hb, hannouncing⟩
  · exact .inl h
  · have hne : b.request ≠ a.request := fun hreq =>
      hstage (hn.eq_of_request hb ha hreq ▸ hannouncing)
    exact .inr ⟨b, mem_turn.mpr (.inl ⟨hb, hne⟩), hannouncing⟩

/-- An acquisition makes a step that admits nobody else. After it the acquisition is about to
check the queues, or such a check would not end its wait. -/
theorem Alert.turn (h : s.Alert) (hn : s.Numbered) {a : Acquisition} (ha : a ∈ s.acquisitions)
    (hstage : a.stage ≠ .announcing) {state : LockState} {stage : Stage}
    (hclosed : state.closed = s.state.closed)
    (hadmits : ∀ kind session, state.Admits kind session →
      s.state.Admits kind session ∨ kind = a.kind ∧ session = a.session)
    (hend : stage.watches = true ∨ ¬ { s with state }.WouldEnd a) :
    ({ s with state }.turn a.request stage).Alert := by
  have heq : ∀ b ∈ s.acquisitions, b.request = a.request → b = a := fun b hb hreq =>
    hn.eq_of_request hb ha hreq
  constructor
  · intro hc b hb hs hclosing
    rcases mem_turn.mp hb with ⟨hb, -⟩ | ⟨a', ha', hreq, rfl⟩
    · exact (h.closed (hclosed ▸ hc) b hb hs hclosing).turn hn ha hstage state stage
    · obtain rfl := heq a' ha' hreq
      rcases hend with hw | hend
      · exact absurd hw (by rw [show stage = .asleep false from hs]; decide)
      · exact absurd (.inl ⟨hc, hclosing⟩) hend
  · intro b hb hs hadm
    -- The acquisition itself watches its kind and session, or they are not admitted.
    have hself : b.kind = a.kind → b.session = a.session →
        ({ s with state }.turn a.request stage).Watched b.kind b.session := by
      intro hkind hsession
      rcases hend with hw | hend
      · exact ⟨{ a with stage }, mem_turn.mpr (.inr ⟨a, ha, rfl, rfl⟩), hw, hkind.symm,
          hsession.symm⟩
      · rw [hkind, hsession] at hadm
        exact absurd (.inr hadm) hend
    rcases mem_turn.mp hb with ⟨hb, -⟩ | ⟨a', ha', hreq, rfl⟩
    · rcases hadmits _ _ hadm with hadm | ⟨hkind, hsession⟩
      · rcases h.admits b hb hs hadm with howes | ⟨c, hc, hw, hkind, hsession⟩
        · exact .inl (howes.turn hn ha hstage state stage)
        · by_cases hca : c.request = a.request
          · obtain rfl := heq c hc hca
            exact .inr (hself hkind.symm hsession.symm)
          · exact .inr ⟨c, mem_turn.mpr (.inl ⟨hc, hca⟩), hw, hkind, hsession⟩
      · exact .inr (hself hkind hsession)
    · obtain rfl := heq a' ha' hreq
      exact .inr (hself rfl rfl)

/-- An acquisition that sleeps and has no place in its queue goes away. -/
theorem Alert.finish (h : s.Alert) (hn : s.Numbered) {a : Acquisition} (ha : a ∈ s.acquisitions)
    {notified : Bool} (hstage : a.stage = .asleep notified) : (s.finish a.request).Alert := by
  have hmem : ∀ b ∈ s.acquisitions, b.stage ≠ a.stage → b ∈ (s.finish a.request).acquisitions := by
    intro b hb hne
    refine List.mem_filter.mpr ⟨hb, bne_iff_ne.mpr fun hreq => hne ?_⟩
    rw [hn.eq_of_request hb ha hreq]
  have howes : s.Owes → (s.finish a.request).Owes := by
    rintro (h | ⟨b, hb, hannouncing⟩)
    · exact .inl h
    · exact .inr ⟨b, hmem b hb (by rw [hannouncing, hstage]; exact Stage.noConfusion), hannouncing⟩
  have hwatched : ∀ kind session, s.Watched kind session →
      (s.finish a.request).Watched kind session := by
    rintro kind session ⟨b, hb, hw, hb'⟩
    refine ⟨b, hmem b hb (fun heq => ?_), hw, hb'⟩
    rw [heq, hstage] at hw
    exact Bool.noConfusion hw
  exact ⟨fun hc b hb hs hclosing => howes (h.closed hc b (List.mem_filter.mp hb).1 hs hclosing),
    fun b hb hs hadm => (h.admits b (List.mem_filter.mp hb).1 hs hadm).imp howes (hwatched _ _)⟩

/-- A request joins its queue, and is about to check the queues. -/
theorem Alert.request (h : s.Alert) (kind : LockKind) (session : Session) :
    ({ s with state := s.state.enqueue kind session }.begin kind session false .awake).Alert := by
  have howes : s.Owes →
      ({ s with state := s.state.enqueue kind session }.begin kind session false .awake).Owes :=
    Or.imp id fun ⟨b, hb, hs⟩ => ⟨b, List.mem_append_left _ hb, hs⟩
  constructor
  · intro hc b hb hs hclosing
    rcases List.mem_append.mp hb with hb | hb
    · refine howes (h.closed ?_ b hb hs hclosing)
      cases kind <;> exact hc
    · rw [List.mem_singleton.mp hb] at hs
      exact Stage.noConfusion hs
  · intro b hb hs hadm
    rcases List.mem_append.mp hb with hb | hb
    · rcases LockState.admits_of_enqueue hadm with hadm | ⟨hkind, hsession⟩
      · refine (h.admits b hb hs hadm).imp howes ?_
        exact fun ⟨c, hc, hw⟩ => ⟨c, List.mem_append_left _ hc, hw⟩
      · exact .inr ⟨_, List.mem_append_right _ (List.mem_singleton.mpr rfl), rfl, hkind.symm,
          hsession.symm⟩
    · rw [List.mem_singleton.mp hb] at hs
      exact Stage.noConfusion hs

/-! ### Every run -/

theorem Alert.check (h : s.Alert) (hn : s.Numbered) {a : Acquisition} (ha : a ∈ s.acquisitions)
    (hstage : a.stage ≠ .announcing) (notified : Bool) : (s.check a notified).Alert := by
  rw [WakeScene.check]
  by_cases hshut : (s.state.closed && !a.closing) = true
  · rw [if_pos hshut]
    exact .of_owes (owes_finish_change ..)
  · rw [if_neg hshut]
    cases hpass : s.state.admit? a.kind a.session with
    | some state => exact .of_owes (owes_finish_change ..)
    | none =>
      refine h.turn hn ha hstage rfl (fun _ _ => .inl) (.inr ?_)
      rintro (⟨hc, hclosing⟩ | hadm)
      · exact hshut (by rw [hc, hclosing]; rfl)
      · have := LockState.admits_iff_isSome.mp hadm
        rw [hpass] at this
        exact Bool.noConfusion this

theorem Alert.step (h : s.Alert) (hn : s.Numbered) {a : Acquisition} (ha : a ∈ s.acquisitions) :
    (s.step a).Alert := by
  rw [WakeScene.step]
  cases hstage : a.stage with
  | announcing =>
    refine .of_awake fun b hb => ?_
    rcases mem_turn.mp hb with ⟨hb, -⟩ | ⟨a', -, -, rfl⟩
    · exact ne_asleep_of_notifyAll hb
    · exact Stage.noConfusion
  | joining =>
    have hclosed : (s.state.enqueue a.kind a.session).closed = s.state.closed := by
      cases a.kind <;> rfl
    exact h.turn hn ha (by simp [hstage]) hclosed (fun _ _ => LockState.admits_of_enqueue)
      (.inl rfl)
  | awake => exact h.turn hn ha (by simp [hstage]) rfl (fun _ _ => .inl) (.inl rfl)
  | checking notified => exact h.check hn ha (by simp [hstage]) notified
  | asleep notified =>
    cases notified with
    | true => exact h.turn hn ha (by simp [hstage]) rfl (fun _ _ => .inl) (.inl rfl)
    | false => exact h

theorem Alert.drop (h : s.Alert) (hn : s.Numbered) {a : Acquisition} (ha : a ∈ s.acquisitions) :
    (s.drop a).Alert := by
  rw [WakeScene.drop]
  split
  · split
    · exact .of_owes (owes_finish_change ..)
    · exact h.finish hn ha ‹_›
  · exact h

theorem Alert.move (h : s.Alert) (hn : s.Numbered) (m : WakeMove) : (s.move m).Alert := by
  cases m with
  | request kind session =>
    rw [WakeScene.move]
    split
    · exact ⟨h.closed, h.admits⟩
    · exact h.request kind session
  | close session =>
    rw [WakeScene.move]
    split
    · exact ⟨h.closed, h.admits⟩
    · exact .of_owes (.inr ⟨_, List.mem_append_right _ (List.mem_singleton.mpr rfl), rfl⟩)
  | step request =>
    rw [WakeScene.move]
    cases hr : s.acquisition? request with
    | none => exact h
    | some a => exact h.step hn (acquisition?_eq_some hr).1
  | drop request =>
    rw [WakeScene.move]
    cases hr : s.acquisition? request with
    | none => exact h
    | some a => exact h.drop hn (acquisition?_eq_some hr).1
  | release kind session =>
    rw [WakeScene.move]
    cases s.state.release? kind session with
    | none => exact h
    | some state => exact .of_owes (owes_change state)
  | cancel session =>
    rw [WakeScene.move]
    cases s.state.cancel? session with
    | none => exact h
    | some state => exact .of_owes (owes_change state)
  | notify =>
    rw [WakeScene.move]
    split
    · exact h
    · exact .of_awake fun a ha => ne_asleep_of_notifyAll (s := s) ha

theorem alert_run (moves : List WakeMove) : (new.run moves).Alert := by
  have hnew : new.Numbered ∧ new.Alert :=
    ⟨numbered_run [], .of_awake fun a ha => absurd ha List.not_mem_nil⟩
  exact (run_induction (P := fun s => s.Numbered ∧ s.Alert)
    (fun _ m h => ⟨h.1.move m, h.2.move h.1 m⟩) new hnew moves).2

/-- Whatever the order of the critical sections, the notifications and the turns of the
acquisitions: a run does not lead to a lock where no notification is owed, every acquisition sleeps
without a notification, and a check of the queues would admit or refuse one of them. -/
theorem no_lost_wakeup (moves : List WakeMove) :
    ¬ ((new.run moves).owed = 0 ∧
      (∀ a ∈ (new.run moves).acquisitions, a.stage = .asleep false) ∧
      ∃ a ∈ (new.run moves).acquisitions, (new.run moves).WouldEnd a) := by
  rintro ⟨howed, hasleep, a, ha, hend⟩
  have hquiet : ¬ (new.run moves).Owes := by
    rintro (hpos | ⟨b, hb, hannouncing⟩)
    · exact absurd howed (Nat.ne_of_gt hpos)
    · rw [hasleep b hb] at hannouncing
      exact Stage.noConfusion hannouncing
  have halert := alert_run moves
  rcases hend with ⟨hc, hclosing⟩ | hadm
  · exact hquiet (halert.closed hc a ha (hasleep a ha) hclosing)
  · rcases halert.admits a ha (hasleep a ha) hadm with howes | ⟨b, hb, hw, -⟩
    · exact hquiet howes
    · rw [hasleep b hb] at hw
      exact Bool.noConfusion hw

end WakeScene

end SqlTree
