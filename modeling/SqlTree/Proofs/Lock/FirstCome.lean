import Mathlib.Data.List.Infix
import SqlTree.Proofs.Lock.TableHistory

/-!
# First come, first admitted

The queues of a lock hold sessions, so a place in a queue may be taken by another request of the
same session. As long as each session has one waiting request of a kind at most, this cannot happen:
every place then belongs to one request. The requests that have their place still, in the order in
which they joined, are the line. A request leaves the line when it is admitted, refused or given up,
and also when its session gives up its places; and the one that is admitted is the first of its kind
in the line. Nobody reads while a request to write is in the line, so the only requests that can be
admitted meanwhile are those to write that are ahead of it.

## Main definitions

* `TableScene.OneEach`: each session has one waiting request of a kind at most.
* `TableLock.line`: the requests that have a place in their queue.
* `TableEvent.takesOut`: whether an event takes a request out of the line.
* `TableEvent.InTurn`: the order in which the requests of a history are admitted.

## Main results

* `TableScene.Orderly.line_move`: what an event does to the line.
* `TableScene.Orderly.first_admitted`: the first in the line is admitted.
* `TableScene.first_come_first_admitted`: the requests of every such run are admitted in turn.
-/

namespace SqlTree

namespace TableEvent

/-- Whether an event takes a request out of the line. -/
def takesOut (x : Place) : TableEvent → Bool
  | admitted y | withdrawn y => y == x
  | cancelled session => session == x.session
  | joined _ | released .. => false

end TableEvent

namespace LockState

variable {st st' : LockState}

theorem pending_setPending (st : LockState) (queue : List Session) (kind k : LockKind) :
    (st.setPending queue kind).pending k = if kind = k then queue else st.pending k := by
  cases kind <;> cases k <;> rfl

theorem pending_withdraw (st : LockState) (kind : LockKind) (session : Session) (k : LockKind) :
    (st.withdraw kind session).pending k =
      if kind = k then (st.pending k).erase session else st.pending k := by
  rw [withdraw, pending_setPending]
  split
  · next hk => rw [hk]
  · rfl

theorem pending_cancel {session : Session} (h : st.cancel? session = some st') (k : LockKind) :
    st'.pending k = (st.pending k).erase session := by
  simp only [cancel?, Option.ite_none_right_eq_some, Option.some.injEq] at h
  rw [← h.2, pending_withdraw, pending_withdraw]
  cases k <;> rfl

theorem pending_release {kind : LockKind} {session : Session}
    (h : st.release? kind session = some st') (k : LockKind) : st'.pending k = st.pending k := by
  cases kind with
  | read =>
    simp only [release?, Option.ite_none_right_eq_some, Option.some.injEq] at h
    rw [← h.2]
    rfl
  | write =>
    simp only [release?, Option.ite_none_right_eq_some, Option.some.injEq] at h
    rw [← h.2]
    rfl

/-- The session that is admitted has been the first in its queue, and the queue has lost it. -/
theorem head_of_admitted {kind : LockKind} {session : Session}
    (h : st.admit? kind session = some st') :
    st.enabled kind = true ∧ st.pending kind = session :: st'.pending kind ∧
      ∀ k, kind ≠ k → st'.pending k = st.pending k := by
  simp only [admit?, Option.ite_none_right_eq_some, Option.some.injEq, Bool.and_eq_true,
    beq_iff_eq] at h
  obtain ⟨⟨henabled, hhead⟩, rfl⟩ := h
  refine ⟨henabled, ?_, fun k hk => ?_⟩
  · rw [pending_setActive, pending_setPending, if_pos rfl]
    exact (List.cons_head?_tail (Option.mem_def.mpr hhead)).symm
  · rw [pending_setActive, pending_setPending, if_neg hk]

theorem pending_admitted {kind : LockKind} {session : Session}
    (h : st.admit? kind session = some st') (k : LockKind) :
    st'.pending k = if kind = k then (st.pending k).erase session else st.pending k := by
  obtain ⟨-, hhead, hothers⟩ := head_of_admitted h
  split
  · next hk => rw [← hk, hhead, List.erase_cons_head]
  · next hk => exact hothers k hk

end LockState

namespace TableLock

/-- The requests that have a place in their queue, in the order in which they joined. -/
def line (l : TableLock) : List Place :=
  l.places.filter fun x => x.session ∈ l.state.pending x.kind

theorem mem_line {l : TableLock} {x : Place} :
    x ∈ l.line ↔ x ∈ l.places ∧ x.session ∈ l.state.pending x.kind := by
  simp [line]

end TableLock

namespace TableScene

/-- Each session has one waiting request of a kind at most. -/
def OneEach (s : TableScene) : Prop :=
  (s.lock.places.map Place.asks).Nodup

instance (s : TableScene) : Decidable s.OneEach :=
  inferInstanceAs (Decidable (List.Nodup _))

/-- The queue of each kind is that of the requests of the kind in the line. -/
def Orderly (s : TableScene) : Prop :=
  ∀ k, s.lock.state.pending k = (s.lock.line.filter fun x => x.kind = k).map Place.session

variable {s : TableScene} {history : List TableEvent}

/-! ### One request of each kind -/

theorem OneEach.eq_of_session (h : s.OneEach) {x y : Place} (hx : x ∈ s.lock.places)
    (hy : y ∈ s.lock.places) (hkind : x.kind = y.kind) (hsession : x.session = y.session) :
    x = y :=
  List.inj_on_of_nodup_map h hx hy (Prod.ext hkind hsession)

theorem OneEach.nodup_sessions (h : s.OneEach) (k : LockKind) :
    ((s.lock.line.filter fun x => x.kind = k).map Place.session).Nodup := by
  have hsub : (s.lock.line.filter fun x => x.kind = k).Sublist s.lock.places :=
    List.filter_sublist.trans List.filter_sublist
  refine List.Nodup.map_on (fun x hx y hy heq => ?_) ((h.of_map _).sublist hsub)
  have hk : x.kind = y.kind := by
    simp only [List.mem_filter, decide_eq_true_eq] at hx hy
    rw [hx.2, hy.2]
  exact h.eq_of_session (hsub.subset hx) (hsub.subset hy) hk heq

theorem Orderly.nodup (h : s.Orderly) (hone : s.OneEach) (k : LockKind) :
    (s.lock.state.pending k).Nodup := by
  rw [h k]
  exact hone.nodup_sessions k

/-! ### What an event does to the line -/

/-- The line of a scene whose event takes requests out and lets one join. -/
def lineAfter (s : TableScene) (event : Option TableEvent) : List Place :=
  (s.lock.line.filter fun x => !event.any (·.takesOut x)) ++ (event.bind TableEvent.joined?).toList

variable {l' : TableLock} {x : Place}

@[simp] theorem lineAfter_none : s.lineAfter none = s.lock.line := by simp [lineAfter]

@[simp] theorem lineAfter_joined : s.lineAfter (some (.joined x)) = s.lock.line ++ [x] := by
  simp [lineAfter, TableEvent.takesOut, TableEvent.joined?]

@[simp] theorem lineAfter_admitted :
    s.lineAfter (some (.admitted x)) = s.lock.line.filter fun y => x != y :=
  List.append_nil _

@[simp] theorem lineAfter_withdrawn :
    s.lineAfter (some (.withdrawn x)) = s.lock.line.filter fun y => x != y :=
  List.append_nil _

@[simp] theorem lineAfter_released (kind : LockKind) (session : Session) :
    s.lineAfter (some (.released kind session)) = s.lock.line := by
  simp [lineAfter, TableEvent.takesOut, TableEvent.joined?]

@[simp] theorem lineAfter_cancelled (session : Session) :
    s.lineAfter (some (.cancelled session)) = s.lock.line.filter fun y => session != y.session :=
  List.append_nil _

/-- A request that joins comes last in the line. -/
theorem line_joined (hone : (l'.places.map Place.asks).Nodup)
    (places : l'.places = s.lock.places ++ [x])
    (state : l'.state = s.lock.state.enqueue x.kind x.session) :
    l'.line = s.lock.line ++ [x] := by
  have hpending : ∀ k, l'.state.pending k =
      if x.kind = k then s.lock.state.pending k ++ [x.session] else s.lock.state.pending k := by
    intro k
    rw [state, LockState.enqueue, LockState.pending_setPending]
    split
    · next hk => rw [hk]
    · rfl
  have hold : ∀ y ∈ s.lock.places, y.kind = x.kind → y.session ≠ x.session := by
    intro y hy hkind hsession
    rw [places, List.map_append] at hone
    refine List.disjoint_of_nodup_append hone (List.mem_map_of_mem hy) ?_
    exact List.mem_singleton.mpr (Prod.ext hkind hsession)
  rw [TableLock.line, places, List.filter_append, TableLock.line]
  refine congrArg₂ _ (List.filter_congr fun y hy => ?_) ?_
  · rw [hpending]
    split
    · next hk => simp [hold y hy hk.symm]
    · rfl
  · simp [hpending]

/-- A request whose wait ends leaves the line, if it was there. -/
theorem line_ended (hone : s.OneEach) (hrec : s.Recorded history) (mem : x ∈ s.lock.places)
    (places : l'.places = s.lock.places.filter fun y => y.request != x.request)
    (pending : ∀ k, l'.state.pending k =
      if x.kind = k then (s.lock.state.pending k).erase x.session else s.lock.state.pending k) :
    l'.line = s.lock.line.filter fun y => x != y := by
  rw [TableLock.line, places, TableLock.line, List.filter_filter, List.filter_filter]
  refine List.filter_congr fun y hy => ?_
  rw [pending]
  by_cases hyx : y = x
  · simp [hyx]
  · have hne : (x != y) = true := bne_iff_ne.mpr (Ne.symm hyx)
    have hreq : (y.request != x.request) = true :=
      bne_iff_ne.mpr fun heq => hyx (hrec.eq_of_request hy mem heq)
    rw [hne, hreq, Bool.and_true, Bool.true_and]
    by_cases hkind : x.kind = y.kind
    · have hsession : y.session ≠ x.session := fun heq =>
        hyx (hone.eq_of_session hy mem hkind.symm heq)
      rw [if_pos hkind]
      exact decide_eq_decide.mpr (List.mem_erase_of_ne hsession)
    · rw [if_neg hkind]

/-- A session that gives up its places has no request in the line any more. -/
theorem line_cancelled (h : s.Orderly) (hone : s.OneEach) {session : Session}
    (places : l'.places = s.lock.places)
    (pending : ∀ k, l'.state.pending k = (s.lock.state.pending k).erase session) :
    l'.line = s.lock.line.filter fun y => session != y.session := by
  rw [TableLock.line, places, TableLock.line, List.filter_filter]
  refine List.filter_congr fun y _ => ?_
  simp only [pending, (h.nodup hone y.kind).mem_erase_iff, Bool.decide_and]
  by_cases hsession : y.session = session
  · simp [hsession]
  · simp [hsession, Ne.symm hsession]

/-- What a move does to the line. -/
theorem Orderly.line_move (h : s.Orderly) (hrec : s.Recorded history) (hone : s.OneEach)
    (m : TableMove) (hone' : (s.move m).OneEach) :
    (s.move m).lock.line = s.lineAfter (s.event? m) := by
  have hmove := happens_move s m
  rw [OneEach] at hone'
  generalize (s.move m).lock = l' at hmove hone'
  generalize s.event? m = event at hmove
  cases hmove with
  | still places pending => simp [TableLock.line, places, pending]
  | joined places state => exact (line_joined hone' places state).trans lineAfter_joined.symm
  | admitted mem places state =>
    exact (line_ended hone hrec mem places (LockState.pending_admitted state)).trans
      lineAfter_admitted.symm
  | withdrawn mem places state =>
    exact (line_ended hone hrec mem places fun k => state ▸ LockState.pending_withdraw ..).trans
      lineAfter_withdrawn.symm
  | released places state => simp [TableLock.line, places, LockState.pending_release state]
  | cancelled places state =>
    exact (line_cancelled h hone places (LockState.pending_cancel state)).trans
      (lineAfter_cancelled _).symm

/-! ### The queues and the line -/

/-- The sessions of some requests, told apart by their sessions, without that of one request. -/
theorem map_erase_session {xs : List Place} (hn : (xs.map Place.session).Nodup) {x : Place}
    (hx : ∀ y ∈ xs, y.session = x.session → y = x) :
    (xs.map Place.session).erase x.session = (xs.filter fun y => x != y).map Place.session := by
  rw [hn.erase_eq_filter, List.filter_map]
  refine congrArg (List.map Place.session) (List.filter_congr fun y hy => ?_)
  by_cases hyx : y = x
  · simp [hyx]
  · have hsession : y.session ≠ x.session := fun heq => hyx (hx y hy heq)
    exact (bne_iff_ne.mpr hsession).trans (bne_iff_ne.mpr (Ne.symm hyx)).symm

/-- A request whose wait ends leaves its queue as it leaves the line. -/
theorem Orderly.ended (h : s.Orderly) (hone : s.OneEach) (mem : x ∈ s.lock.places) (k : LockKind) :
    (if x.kind = k then (s.lock.state.pending k).erase x.session else s.lock.state.pending k) =
      ((s.lock.line.filter fun y => x != y).filter fun y => y.kind = k).map Place.session := by
  rw [List.filter_comm]
  have hsub : ∀ y ∈ s.lock.line.filter fun y => y.kind = k, y ∈ s.lock.places ∧ y.kind = k := by
    intro y hy
    simp only [List.mem_filter, decide_eq_true_eq, TableLock.mem_line] at hy
    exact ⟨hy.1.1, hy.2⟩
  split
  · next hk =>
    rw [h k, map_erase_session (hone.nodup_sessions k) fun y hy heq => ?_]
    obtain ⟨hy, hyk⟩ := hsub y hy
    exact hone.eq_of_session hy mem (hyk.trans hk.symm) heq
  · next hk =>
    have hall : ∀ y ∈ s.lock.line.filter fun y => y.kind = k, (x != y) = true := fun y hy =>
      bne_iff_ne.mpr fun heq => hk ((congrArg Place.kind heq).trans (hsub y hy).2)
    rw [h k, List.filter_eq_self.mpr hall]

/-- Every move keeps the queues those of the line. -/
theorem Orderly.move (h : s.Orderly) (hrec : s.Recorded history) (hone : s.OneEach)
    (m : TableMove) (hone' : (s.move m).OneEach) : (s.move m).Orderly := by
  intro k
  rw [h.line_move hrec hone m hone']
  have hmove := happens_move s m
  generalize (s.move m).lock = l' at hmove
  generalize s.event? m = event at hmove
  cases hmove with
  | still places pending => rw [pending, h k, lineAfter_none]
  | joined places state =>
    rw [state, LockState.enqueue, LockState.pending_setPending, lineAfter_joined,
      List.filter_append, List.map_append, ← h k]
    split
    · next hk => simp [hk]
    · next hk => simp [hk]
  | admitted mem places state =>
    rw [LockState.pending_admitted state, h.ended hone mem, lineAfter_admitted]
  | withdrawn mem places state =>
    rw [state, LockState.pending_withdraw, h.ended hone mem, lineAfter_withdrawn]
  | released places state => rw [LockState.pending_release state, h k, lineAfter_released]
  | @cancelled session places state =>
    have hsame : s.lock.line.filter ((fun σ => σ != session) ∘ Place.session) =
        s.lock.line.filter fun y => session != y.session :=
      List.filter_congr fun y _ => bne_comm
    rw [LockState.pending_cancel state, (h.nodup hone k).erase_eq_filter, h k, List.filter_map,
      lineAfter_cancelled, List.filter_comm, hsame]

/-- A request that is admitted is the first of its kind in the line. -/
theorem Orderly.first_admitted (h : s.Orderly) (hone : s.OneEach) {m : TableMove} {x : Place}
    (hevent : s.event? m = some (.admitted x)) :
    s.lock.state.enabled x.kind = true ∧
      ∃ rest, (s.lock.line.filter fun y => y.kind = x.kind) = x :: rest := by
  have hmove := happens_move s m
  rw [hevent] at hmove
  cases hmove with
  | admitted mem places state =>
    obtain ⟨henabled, hhead, -⟩ := LockState.head_of_admitted state
    rw [h x.kind] at hhead
    obtain ⟨y, rest, hline, hsession, -⟩ := List.map_eq_cons_iff.mp hhead
    have hy : y ∈ s.lock.line.filter fun y => y.kind = x.kind := hline ▸ List.mem_cons_self
    simp only [List.mem_filter, decide_eq_true_eq, TableLock.mem_line] at hy
    obtain rfl := hone.eq_of_session hy.1.1 mem hy.2 hsession
    exact ⟨henabled, rest, hline⟩

/-- Nobody reads while a request to write is in the line. -/
theorem read_disabled {x : Place} (hx : x ∈ s.lock.line) (hkind : x.kind = .write) :
    s.lock.state.enabled .read = false := by
  have hmem := (TableLock.mem_line.mp hx).2
  rw [hkind] at hmem
  have hne : s.lock.state.requestingWrite ≠ [] := List.ne_nil_of_mem hmem
  simp [LockState.enabled, LockState.readEnabled, hne]

/-! ### Histories -/

/-- What a history says about the line after it. -/
structure Lined (s : TableScene) (history : List TableEvent) : Prop where
  recorded : s.Recorded history
  orderly : s.Orderly
  /-- Those who have been admitted joined before those of their kind in the line. -/
  order : ∀ k, ((history.filterMap TableEvent.admitted? ++ s.lock.line).filter
    fun x => x.kind = k).Sublist ((history.filterMap TableEvent.joined?).filter fun x => x.kind = k)
  /-- A request stays in the line until an event takes it out. -/
  stays : ∀ before x since, history = before ++ .joined x :: since →
    (∀ e ∈ since, e.takesOut x = false) → x ∈ s.lock.line

theorem lined_new (name : String) : (new name).Lined [] where
  recorded := recorded_new name
  orderly := fun k => by cases k <;> rfl
  order := fun _ => .refl _
  stays := by simp

theorem Lined.line_sublist (h : s.Lined history) :
    s.lock.line.Sublist (history.filterMap TableEvent.joined?) := by
  refine List.filter_sublist.trans ?_
  rw [h.recorded.places]
  exact List.filter_sublist

/-- Every move keeps the order in which requests are admitted. -/
theorem Lined.order_move (h : s.Lined history) (hone : s.OneEach) (m : TableMove) (k : LockKind) :
    (((history ++ (s.event? m).toList).filterMap TableEvent.admitted? ++
        s.lineAfter (s.event? m)).filter fun x => x.kind = k).Sublist
      (((history ++ (s.event? m).toList).filterMap TableEvent.joined?).filter
        fun x => x.kind = k) := by
  have hsame : ∀ {e : TableEvent}, e.admitted? = none → e.joined? = none →
      ∀ line : List Place, line.Sublist s.lock.line →
      (((history ++ [e]).filterMap TableEvent.admitted? ++ line).filter fun x => x.kind = k).Sublist
        (((history ++ [e]).filterMap TableEvent.joined?).filter fun x => x.kind = k) := by
    intro e ha hj line hline
    simp only [List.filterMap_append, List.filterMap_cons, ha, hj, List.filterMap_nil,
      List.append_nil]
    exact (((List.Sublist.refl _).append hline).filter _).trans (h.order k)
  cases hevent : s.event? m with
  | none =>
    rw [lineAfter_none, Option.toList_none, List.append_nil]
    exact h.order k
  | some e =>
    cases e with
    | joined x =>
      rw [lineAfter_joined]
      simp only [Option.toList_some, List.filterMap_append, List.filterMap_cons,
        TableEvent.admitted?, TableEvent.joined?, List.filterMap_nil, List.append_nil,
        ← List.append_assoc]
      rw [List.filter_append _ [x], List.filter_append _ [x]]
      exact (h.order k).append (.refl _)
    | admitted x =>
      rw [lineAfter_admitted]
      simp only [Option.toList_some, List.filterMap_append, List.filterMap_cons,
        TableEvent.admitted?, TableEvent.joined?, List.filterMap_nil, List.append_nil]
      refine List.Sublist.trans ?_ (h.order k)
      rw [List.filter_append, List.filter_append, List.filter_append, List.append_assoc]
      refine (List.Sublist.refl _).append ?_
      by_cases hk : x.kind = k
      · -- The request was the first of its kind, so the rest of the line stays behind it.
        subst hk
        obtain ⟨-, rest, hline⟩ := h.orderly.first_admitted hone hevent
        rw [List.filter_comm, hline, List.filter_cons_of_pos (by simp), List.filter_nil,
          List.filter_cons_of_neg (by simp)]
        exact List.filter_sublist.cons_cons x
      · rw [List.filter_cons_of_neg (by simpa using hk), List.filter_nil, List.nil_append]
        exact List.filter_sublist.filter _
    | withdrawn x => exact lineAfter_withdrawn (s := s) ▸ hsame rfl rfl _ List.filter_sublist
    | released kind session => exact lineAfter_released (s := s) _ _ ▸ hsame rfl rfl _ (.refl _)
    | cancelled session =>
      exact lineAfter_cancelled (s := s) _ ▸ hsame rfl rfl _ List.filter_sublist

/-- A request that no event of a move takes out of the line stays in it. -/
theorem Lined.stays_move (h : s.Lined history) (m : TableMove) {before : List TableEvent}
    {x : Place} {since : List TableEvent}
    (hsplit : history ++ (s.event? m).toList = before ++ .joined x :: since)
    (hsince : ∀ e ∈ since, e.takesOut x = false) : x ∈ s.lineAfter (s.event? m) := by
  cases hevent : s.event? m with
  | none =>
    rw [hevent, Option.toList_none, List.append_nil] at hsplit
    rw [lineAfter_none]
    exact h.stays before x since hsplit hsince
  | some e =>
    rw [hevent, Option.toList_some] at hsplit
    rcases List.eq_nil_or_concat since with rfl | ⟨since, last, rfl⟩
    · obtain ⟨-, hlast⟩ := List.append_inj' hsplit rfl
      rw [List.cons.inj hlast |>.1, lineAfter_joined]
      exact List.mem_append_right _ (List.mem_singleton_self x)
    · rw [List.concat_eq_append] at hsplit hsince
      rw [← List.cons_append, ← List.append_assoc] at hsplit
      obtain ⟨hhistory, hlast⟩ := List.append_inj' hsplit rfl
      obtain rfl := (List.cons.inj hlast).1
      have hx : x ∈ s.lock.line :=
        h.stays before x since hhistory fun e' he' => hsince e' (List.mem_append_left _ he')
      have hstays : (!e.takesOut x) = true := by
        rw [hsince e (List.mem_append_right _ (List.mem_singleton_self e))]
        rfl
      exact List.mem_append_left _ (List.mem_filter.mpr ⟨hx, hstays⟩)

/-- Every move of a run with one request of each kind keeps the line in order. -/
theorem Lined.move (h : s.Lined history) (hone : s.OneEach) (m : TableMove)
    (hone' : (s.move m).OneEach) : (s.move m).Lined (history ++ (s.event? m).toList) := by
  have hline := h.orderly.line_move h.recorded hone m hone'
  exact ⟨h.recorded.move m, h.orderly.move h.recorded hone m hone',
    fun k => hline ▸ h.order_move hone m k,
    fun before x since hsplit hsince => hline ▸ h.stays_move m hsplit hsince⟩

theorem lined_run (name : String) (moves : List TableMove)
    (hone : ∀ before ∈ moves.inits, ((new name).run before).OneEach) :
    ((new name).run moves).Lined ((new name).history moves) := by
  refine history_induction (lined_new name) fun before m after hmoves h => ?_
  have hnow : before ∈ moves.inits := (List.mem_inits ..).mpr (hmoves ▸ List.prefix_append ..)
  have hnext : before ++ [m] ∈ moves.inits :=
    (List.mem_inits ..).mpr ⟨after, by rw [hmoves, List.append_assoc, List.singleton_append]⟩
  have hone' := hone _ hnext
  rw [run_append] at hone' ⊢
  exact h.move (hone before hnow) m hone'

end TableScene

namespace TableEvent

/-- One that stands before `x` in a list in which `x` stands once. -/
theorem mem_of_pair_sublist {x w : Place} {before after : List Place}
    (hn : (before ++ x :: after).Nodup) (h : [w, x].Sublist (before ++ x :: after)) :
    w ∈ before := by
  have hx : x ∉ after := (List.nodup_cons.mp hn.of_append_right).1
  obtain ⟨front, back, hsplit, hfront, hback⟩ := List.sublist_append_iff.mp h
  cases front with
  | nil =>
    -- Then `x` would stand after itself.
    rw [List.nil_append] at hsplit
    subst hsplit
    have hmem : x ∈ after := by
      cases hback with
      | cons _ hafter => exact hafter.subset (by simp)
      | cons_cons _ hafter => exact hafter.subset (by simp)
    exact absurd hmem hx
  | cons y front =>
    obtain rfl := (List.cons.inj hsplit).1
    exact hfront.subset List.mem_cons_self

/-- The requests of a history are admitted in turn. -/
structure InTurn (history : List TableEvent) : Prop where
  /-- A request joins its queue once. -/
  nodup : (history.filterMap joined?).Nodup
  /-- The requests of a kind are admitted in the order in which they join. -/
  order : ∀ k, ((history.filterMap admitted?).filter fun x => x.kind = k).Sublist
    ((history.filterMap joined?).filter fun x => x.kind = k)
  /-- While a request to write is in the line, those that are admitted are requests to write that
  have joined before it. -/
  overtaking : ∀ before x during after, history = before ++ .joined x :: (during ++ after) →
    x.kind = .write → (∀ e ∈ during, e.takesOut x = false) →
    ∀ w, .admitted w ∈ during → w.kind = .write ∧ .joined w ∈ before

end TableEvent

namespace TableScene

variable {s : TableScene} {history : List TableEvent}

/-- Only those who are ahead of a request to write are admitted while it is in the line. -/
theorem Lined.ahead (h : s.Lined history) (hone : s.OneEach) {m : TableMove}
    {before since : List TableEvent} {x w : Place} (hsplit : history = before ++ .joined x :: since)
    (hkind : x.kind = .write) (hsince : ∀ e ∈ since, e.takesOut x = false)
    (hevent : s.event? m = some (.admitted w)) (hne : w ≠ x) :
    w.kind = .write ∧ .joined w ∈ before := by
  have hx := h.stays before x since hsplit hsince
  obtain ⟨henabled, rest, hline⟩ := h.orderly.first_admitted hone hevent
  have hw : w.kind = .write := by
    cases hwk : w.kind with
    | read => simp [hwk, read_disabled hx hkind] at henabled
    | write => rfl
  have hxline : x ∈ w :: rest := by
    rw [← hline, hw, ← hkind]
    simpa using hx
  have hxrest : x ∈ rest := (List.mem_cons.mp hxline).resolve_left hne.symm
  have hpair : [w, x].Sublist (history.filterMap TableEvent.joined?) := by
    refine ((List.singleton_sublist.mpr hxrest).cons_cons w).trans ?_
    rw [← hline]
    exact List.filter_sublist.trans h.line_sublist
  have hn : (history.filterMap TableEvent.joined?).Nodup := h.recorded.nodup.of_map _
  rw [hsplit, List.filterMap_append, List.filterMap_cons] at hpair hn
  have hmem := TableEvent.mem_of_pair_sublist hn hpair
  obtain ⟨e, he, hjoined⟩ := List.mem_filterMap.mp hmem
  refine ⟨hw, ?_⟩
  cases e with
  | joined y => exact Option.some.inj hjoined ▸ he
  | admitted | withdrawn | released | cancelled => exact nomatch hjoined

/-- In every run in which each session has one waiting request of a kind at most, the requests of a
kind are admitted in the order in which they joined, and while a request to write waits, nobody is
admitted but the writers before it. -/
theorem first_come_first_admitted (name : String) (moves : List TableMove)
    (hone : ∀ before ∈ moves.inits, ((new name).run before).OneEach) :
    TableEvent.InTurn ((new name).history moves) := by
  have hlined := lined_run name moves hone
  refine ⟨hlined.recorded.nodup.of_map _, fun k => ?_, ?_⟩
  · refine List.Sublist.trans ?_ (hlined.order k)
    rw [List.filter_append]
    exact List.sublist_append_left ..
  · intro before x during after hsplit hkind hduring w hw
    obtain ⟨sofar, later, rfl⟩ := List.append_of_mem hw
    have hevent : (new name).history moves =
        (before ++ .joined x :: sofar) ++ .admitted w :: (later ++ after) := by
      rw [hsplit]
      simp
    obtain ⟨earlier, m, rest, rfl, hearlier, he⟩ := exists_of_history_eq hevent
    have hinits : ∀ t ∈ earlier.inits, t ∈ (earlier ++ m :: rest).inits := fun t ht =>
      (List.mem_inits ..).mpr (((List.mem_inits ..).mp ht).trans (List.prefix_append ..))
    have hthere := lined_run name earlier fun t ht => hone t (hinits t ht)
    have hone' := hone earlier (hinits _ ((List.mem_inits ..).mpr (List.prefix_refl _)))
    refine hthere.ahead hone' hearlier hkind (fun e he => hduring e (List.mem_append_left _ he)) he
      fun heq => ?_
    have hstays := hduring _ hw
    simp [TableEvent.takesOut, heq] at hstays

/-- While session 1 reads, sessions 2 and 3 ask to write and session 4 to read; session 2 is
cancelled. Then session 1 is done, session 3 writes, the reader is admitted, and session 5 closes
the table. -/
def writersAhead : List TableMove :=
  [.request .read ⟨1⟩, .recheck 0, .request .write ⟨2⟩, .request .write ⟨3⟩, .request .read ⟨4⟩,
    .recheck 3, .cancel ⟨2⟩, .release .read ⟨1⟩, .recheck 3, .recheck 2, .abandon 1,
    .release .write ⟨3⟩, .recheck 3, .close ⟨5⟩, .join, .release .read ⟨4⟩, .recheck 4]

/-- The theorem at a run in which a reader is passed by a writer that has come before it, and a
request is taken out of the middle. -/
theorem first_come_first_admitted_writer :
    (((new "Student").history writersAhead).filterMap TableEvent.admitted?).map Place.request =
      [0, 2, 3, 4] ∧
    TableEvent.InTurn ((new "Student").history writersAhead) :=
  ⟨by decide, first_come_first_admitted "Student" writersAhead (by decide)⟩

end TableScene

end SqlTree
