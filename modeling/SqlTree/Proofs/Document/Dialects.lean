import SqlTree.Proofs.Document.Children

/-!
# Revival in another dialect

The dialect of a registry is looked at in one place only, where a binary operator is accepted. So of
two registries with different dialects the second one puts a document together as the first one
does, step by step, up to the first binary operator that it does not accept. This file follows both
through every constructor and every nested document. A registry that has further constructors is
followed in the same way: only what has been revived is looked at, and none of the tags there is a
further one.

## Main definitions

* `GivesUnless`: a computation gives a value or stops at an operator that is not accepted.
* `Reading.Follows`, `Fields.Follows`: what is revived in one reading of a document is revived in
  another one as well, unless an operator stands in the way.
* `Registry.Extends`: a registry has all constructors of another one.

## Main results

* `Fields.Follows.construct`: nodes are put together from the fields that follow as they were.
* `Registry.Extends.revive`: what a registry revives is revived by one that extends it.
* `Registry.dialect_only_filters`: a dialect refuses the nodes with operators of others and changes
  no node.
-/

namespace SqlTree

/-- A binary expression with the operator stands somewhere in a node. -/
def Node.HasOperator (n : Node) (operator : String) : Prop :=
  ∃ left right negated, n.Occurs (.expr (.binary operator left right negated))

theorem Node.HasOperator.of_occurs {n p : Node} {operator : String} (hp : n.Occurs p)
    (h : p.HasOperator operator) : n.HasOperator operator := by
  obtain ⟨left, right, negated, hm⟩ := h
  exact ⟨left, right, negated, hp.trans hm⟩

/-! ### Computations that stop at operators -/

section

variable {α β : Type} {foreign : String → Prop} {ps qs : List Node} {n : Node}

/-- A computation gives a value, unless a foreign operator stands in one of some nodes; then it may
fail with the error that an operator is not supported. -/
def GivesUnless (foreign : String → Prop) (ps : List Node) (x : Except Error α) (a : α) : Prop :=
  x = .ok a ∨ (∃ p ∈ ps, ∃ operator, p.HasOperator operator ∧ foreign operator) ∧
    ∃ text, x = .error (.unsupportedOperator Kind.binary.tag text)

namespace GivesUnless

variable {x : Except Error α} {a : α}

theorem bind {f : α → Except Error β} {b : β} (hx : GivesUnless foreign ps x a)
    (hf : GivesUnless foreign ps (f a) b) : GivesUnless foreign ps (x >>= f) b := by
  rcases hx with rfl | ⟨hp, text, rfl⟩
  · exact hf
  · exact .inr ⟨hp, text, rfl⟩

theorem map (h : GivesUnless foreign ps x a) (f : α → β) :
    GivesUnless foreign ps (f <$> x) (f a) := by
  rcases h with rfl | ⟨hp, text, rfl⟩
  · exact .inl rfl
  · exact .inr ⟨hp, text, rfl⟩

theorem mono (h : GivesUnless foreign ps x a) (hsub : ps ⊆ qs) : GivesUnless foreign qs x a :=
  h.imp_right fun ⟨⟨p, hp, hop⟩, herror⟩ => ⟨⟨p, hsub hp, hop⟩, herror⟩

theorem of_no_nodes (h : GivesUnless foreign [] x a) : x = .ok a :=
  h.resolve_right fun ⟨⟨_, hp, _⟩, _⟩ => absurd hp List.not_mem_nil

theorem of_occurs (h : GivesUnless foreign ps x a) (hps : ∀ p ∈ ps, n.Occurs p) :
    GivesUnless foreign [n] x a := by
  refine h.imp_right fun ⟨⟨p, hp, operator, hop, hforeign⟩, herror⟩ => ⟨?_, herror⟩
  exact ⟨n, List.mem_singleton_self n, operator, hop.of_occurs (hps p hp), hforeign⟩

theorem bind_ok {f : α → Except Error β} {b : β} (hx : x = .ok a)
    (hf : GivesUnless foreign ps (f a) b) : GivesUnless foreign ps (x >>= f) b :=
  .bind (.inl hx) hf

theorem bind_part {f : α → Except Error β} {b : β} (hx : GivesUnless foreign ps x a)
    (hsub : ps ⊆ n.parts) (hf : GivesUnless foreign [n] (f a) b) :
    GivesUnless foreign [n] (x >>= f) b :=
  .bind (hx.of_occurs fun _ hp => .of_mem_parts (hsub hp)) hf

end GivesUnless

end

/-- Another dialect accepts the operators that a dialect accepts and keeps them in the same
spelling, unless they are foreign to it. -/
def Dialect.Within (foreign : String → Prop) (d d' : Dialect) : Prop :=
  ∀ text operator, normalizeOperator d text = .ok operator →
    normalizeOperator d' text = .ok operator ∨
      foreign operator ∧
        normalizeOperator d' text = .error (.unsupportedOperator Kind.binary.tag text)

theorem Dialect.Within.gives {foreign : String → Prop} {d d' : Dialect}
    (hd : d.Within foreign d') {text operator : String}
    (h : normalizeOperator d text = .ok operator) (left right : Expr) (negated : Bool) :
    GivesUnless foreign [.expr (.binary operator left right negated)]
      (normalizeOperator d' text) operator := by
  refine (hd text operator h).imp_right fun ⟨hforeign, herror⟩ => ⟨?_, text, herror⟩
  exact ⟨_, List.mem_singleton_self _, operator, ⟨left, right, negated, .self _⟩, hforeign⟩

/-! ### Nodes as parts -/

namespace Node

/-- A node is taken for another one, which has the same parts or has it as a part. -/
inductive StandsFor : Node → Node → Prop
  | self (n : Node) : StandsFor n n
  | asExpr (q : Query) : StandsFor (statement (.query q)) (expr (.query q))
  | asQuery (q : Query) : StandsFor (expr (.query q)) q.node
  | asSource (t : Table) : StandsFor (table t) (fromTable (.ofTable t))
  | asColumn (e : Expr) : StandsFor (expr e) (resultColumn (.ofExpr e))

variable {n m : Node}

/-- The same operators stand in both. -/
theorem StandsFor.hasOperator {operator : String} (h : n.StandsFor m)
    (hop : n.HasOperator operator) : m.HasOperator operator := by
  obtain ⟨left, right, negated, hoccurs⟩ := id hop
  cases h with
  | self => exact hop
  | asExpr q =>
    cases hoccurs with
    | part hp hm => exact ⟨left, right, negated, .part hp hm⟩
  | asQuery q =>
    cases hoccurs with
    | part hp hm => exact ⟨left, right, negated, .part hp hm⟩
  | asSource t => exact hop.of_occurs (.of_mem_parts List.mem_cons_self)
  | asColumn e => exact hop.of_occurs (.of_mem_parts List.mem_cons_self)

theorem StandsFor.of_eq (h : n = m) : n.StandsFor m := h ▸ .self n

theorem standsFor_toExpr {e : Expr} (h : n.toExpr = .ok e) : n.StandsFor (expr e) := by
  rcases toExpr_eq_ok.mp h with rfl | ⟨q, rfl, rfl⟩
  · exact .self _
  · exact .asExpr q

theorem standsFor_toTable {t : Table} (h : n.toTable = .ok t) : n.StandsFor (table t) :=
  .of_eq (toTable_eq_ok.mp h)

theorem standsFor_toQuery {q : Query} (h : n.toQuery = .ok q) : n.StandsFor q.node := by
  rcases toQuery_eq_ok.mp h with rfl | rfl
  · exact .self _
  · exact .asQuery q

theorem standsFor_toFromTable {f : FromTable} (h : n.toFromTable = .ok f) :
    n.StandsFor (fromTable f) := by
  rcases toFromTable_eq_ok.mp h with rfl | ⟨t, rfl, rfl⟩
  · exact .self _
  · exact .asSource t

theorem standsFor_toResultColumn {c : ResultColumn} (h : n.toResultColumn = .ok c) :
    n.StandsFor (resultColumn c) := by
  rcases toResultColumn_eq_ok.mp h with rfl | ⟨e, rfl, rfl⟩
  · exact .self _
  · exact .asColumn e

theorem standsFor_toJoinClause {j : JoinClause} (h : n.toJoinClause = .ok j) :
    n.StandsFor (joinClause j) :=
  .of_eq (toJoinClause_eq_ok.mp h)

theorem standsFor_toColumnDef {c : ColumnDef} (h : n.toColumnDef = .ok c) :
    n.StandsFor (columnDef c) :=
  .of_eq (toColumnDef_eq_ok.mp h)

theorem standsFor_toPrimaryKey {k : PrimaryKey} (h : n.toPrimaryKey = .ok k) :
    n.StandsFor (primaryKey k) :=
  .of_eq (toPrimaryKey_eq_ok.mp h)

theorem standsFor_toOrderBy {o : OrderBy} (h : n.toOrderBy = .ok o) : n.StandsFor (orderBy o) :=
  .of_eq (toOrderBy_eq_ok.mp h)

theorem standsFor_toGroupBy {g : GroupBy} (h : n.toGroupBy = .ok g) : n.StandsFor (groupBy g) :=
  .of_eq (toGroupBy_eq_ok.mp h)

theorem standsFor_toLimit {l : Limit} (h : n.toLimit = .ok l) : n.StandsFor (limit l) :=
  .of_eq (toLimit_eq_ok.mp h)

end Node

/-! ### Two readings of a document -/

/-- Two readings of the same document. What a part is revived to in the first one, it is revived to
in the second one as well, unless a foreign operator stands in it. -/
inductive Reading.Follows (foreign : String → Prop) : Reading → Reading → Prop
  | intro {x x' : Reading} (source : x'.source = x.source)
      (outcome : ∀ n, x.outcome = .ok n → GivesUnless foreign [n] x'.outcome n)
      (items : List.Forall₂ (Follows foreign) x.items x'.items)
      (members : ∀ key, Option.Rel (Follows foreign) (Keyed.find? key x.members)
        (Keyed.find? key x'.members)) :
      Follows foreign x x'

/-- Two readings of the members of an object, as fields of the same kind. -/
structure Fields.Follows (foreign : String → Prop) (f f' : Fields) : Prop where
  kind : f'.kind = f.kind
  members : ∀ key, Option.Rel (Reading.Follows foreign) (Keyed.find? key f.members)
    (Keyed.find? key f'.members)

variable {foreign : String → Prop}

namespace Reading.Follows

variable {x x' : Reading}

theorem source (h : x.Follows foreign x') : x'.source = x.source := by
  obtain ⟨hsource, -, -, -⟩ := h
  exact hsource

/-- What a document is revived to, taken for another node. -/
theorem convert {α : Type} {as : Node → Except Error α} {wrap : α → Node} {a : α}
    (h : x.Follows foreign x') (ha : (x.outcome >>= as) = .ok a)
    (has : ∀ {n a}, as n = .ok a → n.StandsFor (wrap a)) :
    GivesUnless foreign [wrap a] (x'.outcome >>= as) a := by
  obtain ⟨-, outcome, -, -⟩ := h
  obtain ⟨n, hn, ha⟩ := bind_eq_ok.mp ha
  have hstands : n.StandsFor (wrap a) := has ha
  refine .bind ?_ (.inl ha)
  refine (outcome n hn).imp_right fun ⟨⟨p, hp, operator, hop, hforeign⟩, herror⟩ => ⟨?_, herror⟩
  obtain rfl := List.mem_singleton.mp hp
  exact ⟨wrap a, List.mem_singleton_self _, operator, hstands.hasOperator hop, hforeign⟩

theorem expr {e : Expr} (h : x.Follows foreign x') (he : x.expr = .ok e) :
    GivesUnless foreign [.expr e] x'.expr e :=
  h.convert he Node.standsFor_toExpr

theorem query {q : Query} (h : x.Follows foreign x') (hq : x.query = .ok q) :
    GivesUnless foreign [q.node] x'.query q :=
  h.convert hq Node.standsFor_toQuery

theorem table {t : Table} (h : x.Follows foreign x') (ht : x.table = .ok t) :
    GivesUnless foreign [.table t] x'.table t :=
  h.convert ht Node.standsFor_toTable

/-- The members of an object without a tag are fields of their own. -/
theorem fields (h : x.Follows foreign x') (kind : Kind) :
    Fields.Follows foreign ⟨kind, x.members⟩ ⟨kind, x'.members⟩ := by
  obtain ⟨-, -, -, members⟩ := h
  exact ⟨rfl, members⟩

end Reading.Follows

/-- The nodes that the items of a list are converted to. -/
theorem GivesUnless.convert {α : Type} {one : Reading → Except Error α} {parts : α → List Node}
    {items items' : List Reading} {results : List α}
    (hone : ∀ {x x' a}, x.Follows foreign x' → one x = .ok a →
      GivesUnless foreign (parts a) (one x') a)
    (hitems : List.Forall₂ (Reading.Follows foreign) items items')
    (h : Fields.convert one items = .ok results) :
    GivesUnless foreign (results.flatMap parts) (Fields.convert one items') results := by
  induction hitems generalizing results with
  | nil => exact .inl h
  | cons hx _ ih =>
    obtain ⟨a, ha, h⟩ := bind_eq_ok.mp h
    obtain ⟨rest, hrest, h⟩ := bind_eq_ok.mp h
    obtain rfl := Except.ok.inj h
    rw [List.flatMap_cons]
    refine .bind ((hone hx ha).mono (List.subset_append_left _ _)) ?_
    exact .bind ((ih hrest).mono (List.subset_append_right _ _)) (.inl rfl)

namespace Fields.Follows

variable {f f' : Fields} {key : String} {α : Type}

/-! ### Fields without nodes -/

theorem get? (hf : f.Follows foreign f') (key : String) :
    Option.Rel (Reading.Follows foreign) (f.get? key) (f'.get? key) := by
  have hrel := hf.members key
  rw [Fields.get?, Fields.get?]
  generalize Keyed.find? key f.members = m, Keyed.find? key f'.members = m' at hrel ⊢
  cases hrel with
  | none => exact .none
  | some h =>
    rw [Option.filter_some, Option.filter_some, h.source]
    split
    · exact .some h
    · exact .none

theorem get?_none (hf : f.Follows foreign f') (h : f.get? key = none) : f'.get? key = none := by
  have hrel := hf.get? key
  rw [h] at hrel
  generalize f'.get? key = m' at hrel ⊢
  cases hrel
  rfl

theorem get?_some (hf : f.Follows foreign f') {x : Reading} (h : f.get? key = some x) :
    ∃ x', f'.get? key = some x' ∧ x.Follows foreign x' := by
  have hrel := hf.get? key
  rw [h] at hrel
  generalize f'.get? key = m' at hrel ⊢
  cases hrel with
  | some hx => exact ⟨_, rfl, hx⟩

theorem raw (hf : f.Follows foreign f') : f'.raw key = f.raw key := by
  have hrel := hf.members key
  rw [Fields.raw, Fields.raw]
  generalize Keyed.find? key f.members = m, Keyed.find? key f'.members = m' at hrel ⊢
  cases hrel with
  | none => rfl
  | some h => exact h.source

theorem text? (hf : f.Follows foreign f') : f'.text? key = f.text? key := by
  have hrel := hf.get? key
  rw [Fields.text?, Fields.text?]
  generalize f.get? key = m, f'.get? key = m' at hrel ⊢
  cases hrel with
  | none => rfl
  | some h => simp only [h.source, Fields.mistyped, hf.kind]

theorem text (hf : f.Follows foreign f') : f'.text key = f.text key := by
  rw [Fields.text, Fields.text, hf.text?, Fields.missing, Fields.missing, hf.kind]

theorem flag (hf : f.Follows foreign f') : f'.flag key = f.flag key := by
  have hrel := hf.get? key
  rw [Fields.flag, Fields.flag]
  generalize f.get? key = m, f'.get? key = m' at hrel ⊢
  cases hrel with
  | none => rfl
  | some h => simp only [h.source, Fields.mistyped, hf.kind]

theorem natural? (hf : f.Follows foreign f') : f'.natural? key = f.natural? key := by
  have hrel := hf.get? key
  rw [Fields.natural?, Fields.natural?]
  generalize f.get? key = m, f'.get? key = m' at hrel ⊢
  cases hrel with
  | none => rfl
  | some h => simp only [h.source, Fields.mistyped, hf.kind]

/-! ### Fields with nodes -/

theorem get (hf : f.Follows foreign f') {x : Reading} (h : f.get key = .ok x) :
    ∃ x', f'.get key = .ok x' ∧ x.Follows foreign x' := by
  obtain ⟨x', hget', hx⟩ := hf.get?_some (get_eq_ok.mp h)
  exact ⟨x', get_eq_ok.mpr hget', hx⟩

theorem list (hf : f.Follows foreign f') {items : List Reading} (h : f.list key = .ok items) :
    ∃ items', f'.list key = .ok items' ∧
      List.Forall₂ (Reading.Follows foreign) items items' := by
  obtain ⟨hget, rfl⟩ | ⟨x, hget, hvs, rfl⟩ := list_eq_ok.mp h
  · exact ⟨[], list_eq_ok.mpr (.inl ⟨hf.get?_none hget, rfl⟩), .nil⟩
  · obtain ⟨x', hget', hx⟩ := hf.get?_some hget
    rw [← hx.source] at hvs
    obtain ⟨-, -, hitems, -⟩ := hx
    exact ⟨x'.items, list_eq_ok.mpr (.inr ⟨x', hget', hvs, rfl⟩), hitems⟩

/-- The items of a list, converted one by one. -/
theorem converted (hf : f.Follows foreign f') {one : Reading → Except Error α}
    (parts : α → List Node) {items : List Reading} {results : List α}
    (hone : ∀ {x x' a}, x.Follows foreign x' → one x = .ok a →
      GivesUnless foreign (parts a) (one x') a)
    (hlist : f.list key = .ok items) (h : convert one items = .ok results) :
    GivesUnless foreign (results.flatMap parts)
      (f'.list key >>= fun items => convert one items) results := by
  obtain ⟨items', hlist', hitems⟩ := hf.list hlist
  exact .bind (.inl hlist') (.convert hone hitems h)

theorem strings (hf : f.Follows foreign f') {texts : List String}
    (h : f.strings key = .ok texts) : f'.strings key = .ok texts := by
  obtain ⟨items, hlist, hconvert⟩ := bind_eq_ok.mp h
  have hmistyped : f'.mistyped = f.mistyped := by
    funext key expected found
    rw [Fields.mistyped, Fields.mistyped, hf.kind]
  rw [Fields.strings, hmistyped]
  have hgives := hf.converted (fun _ => []) (fun hx ha => ?_) hlist hconvert
  · rw [List.flatMap_eq_nil_iff.mpr fun _ _ => rfl] at hgives
    exact hgives.of_no_nodes
  · rw [← hx.source] at ha
    exact .inl ha

theorem nodes (hf : f.Follows foreign f') {as : Node → Except Error α} {wrap : α → Node}
    {results : List α} (h : f.nodes key as = .ok results)
    (has : ∀ {n a}, as n = .ok a → n.StandsFor (wrap a)) :
    GivesUnless foreign (results.map wrap) (f'.nodes key as) results := by
  obtain ⟨items, hlist, hconvert⟩ := bind_eq_ok.mp h
  have hgives := hf.converted (fun a => [wrap a]) (fun hx ha => hx.convert ha has) hlist hconvert
  rwa [← List.map_eq_flatMap] at hgives

theorem node? (hf : f.Follows foreign f') {as : Node → Except Error α} {wrap : α → Node}
    {a? : Option α} (h : f.node? key as = .ok a?)
    (has : ∀ {n a}, as n = .ok a → n.StandsFor (wrap a)) :
    GivesUnless foreign (a?.map wrap).toList (f'.node? key as) a? := by
  obtain ⟨hget, rfl⟩ | ⟨x, hget, n, hn, a, ha, rfl⟩ := node?_eq_ok.mp h
  · exact .inl (node?_eq_ok.mpr (.inl ⟨hf.get?_none hget, rfl⟩))
  · obtain ⟨x', hget', hx⟩ := hf.get?_some hget
    rw [Fields.node?, hget']
    have hgives := hx.convert (bind_eq_ok.mpr ⟨n, hn, ha⟩) has
    have hsome := hgives.bind (f := fun a => .ok (some a)) (.inl rfl)
    rwa [bind_assoc] at hsome

theorem expr? (hf : f.Follows foreign f') {e? : Option Expr} (h : f.expr? key = .ok e?) :
    GivesUnless foreign (slotParts e?) (f'.expr? key) e? :=
  hf.node? h Node.standsFor_toExpr

theorem exprs (hf : f.Follows foreign f') {es : List Expr} (h : f.exprs key = .ok es) :
    GivesUnless foreign (es.map .expr) (f'.exprs key) es :=
  hf.nodes h Node.standsFor_toExpr

theorem slot (hf : f.Follows foreign f') {e : Expr} (h : f.slot key = .ok e) :
    GivesUnless foreign [.expr e] (f'.slot key) e := by
  obtain ⟨e?, he, rfl⟩ := slot_eq_ok.mp h
  refine ((hf.expr? he).mono ?_).bind (.inl rfl)
  cases e? with
  | none => exact List.nil_subset _
  | some e => exact List.Subset.refl _

/-! ### Expressions -/

theorem value (hf : f.Follows foreign f') : f'.value = f.value := by
  rw [Fields.value, Fields.value, hf.raw]

theorem column (hf : f.Follows foreign f') : f'.column = f.column := by
  simp only [Fields.column, hf.text, hf.text?]

theorem userVariable (hf : f.Follows foreign f') : f'.userVariable = f.userVariable := by
  rw [Fields.userVariable, Fields.userVariable, hf.text]

theorem binary (hf : f.Follows foreign f') {d d' : Dialect} (hd : d.Within foreign d') {e : Expr}
    (h : f.binary d = .ok e) : GivesUnless foreign [.expr e] (f'.binary d') e := by
  obtain ⟨text, htext, operator, hop, left, hl, hleft, right, hr, hright, negated, hnot, hneg,
    rfl⟩ := binary_eq_ok.mp h
  refine .bind_ok (hf.text.trans htext) (.bind (hd.gives hop _ _ _)
    (.bind_part (hf.slot hl) ?_ (.bind_ok hleft ?_)))
  · simp [Node.parts, Expr.parts]
  obtain ⟨his, rfl⟩ | ⟨his, hr⟩ := hr
  · rw [if_pos his]
    exact .bind_ok rfl (.bind_ok hright (.bind_ok (hf.flag.trans hnot) (.bind_ok hneg (.inl rfl))))
  · rw [if_neg his]
    refine .bind_part (hf.slot hr) ?_
      (.bind_ok hright (.bind_ok (hf.flag.trans hnot) (.bind_ok hneg (.inl rfl))))
    simp [Node.parts, Expr.parts]

theorem between (hf : f.Follows foreign f') {e : Expr} (h : f.between = .ok e) :
    GivesUnless foreign [.expr e] f'.between e := by
  obtain ⟨left, hl, start, hs, stop, he, negated, hnot, rfl⟩ := between_eq_ok.mp h
  refine .bind_part (hf.slot hl) ?_ (.bind_part (hf.slot hs) ?_ (.bind_part (hf.slot he) ?_
    (.bind_ok (hf.flag.trans hnot) (.inl rfl)))) <;>
    simp [Node.parts, Expr.parts]

theorem oneOf (hf : f.Follows foreign f') {e : Expr} (h : f.oneOf = .ok e) :
    GivesUnless foreign [.expr e] f'.oneOf e := by
  obtain ⟨left, hl, right, hr, hlist, negated, hnot, rfl⟩ := oneOf_eq_ok.mp h
  refine .bind_part (hf.slot hl) ?_ (.bind_part (hf.slot hr) ?_
    (.bind_ok hlist (.bind_ok (hf.flag.trans hnot) (.inl rfl)))) <;>
    simp [Node.parts, Expr.parts]

theorem nullTest (hf : f.Follows foreign f') {e : Expr} (h : f.nullTest = .ok e) :
    GivesUnless foreign [.expr e] f'.nullTest e := by
  obtain ⟨left, hl, negated, hnot, rfl⟩ := nullTest_eq_ok.mp h
  exact .bind_part (hf.slot hl) (List.Subset.refl _) (.bind_ok (hf.flag.trans hnot) (.inl rfl))

theorem existence (hf : f.Follows foreign f') {e : Expr} (h : f.existence = .ok e) :
    GivesUnless foreign [.expr e] f'.existence e := by
  obtain ⟨x, hx, q, hq, negated, hnot, rfl⟩ := existence_eq_ok.mp h
  obtain ⟨x', hx', hfollows⟩ := hf.get hx
  exact .bind_ok hx' (.bind_part (hfollows.query hq) (List.Subset.refl _)
    (.bind_ok (hf.flag.trans hnot) (.inl rfl)))

theorem caseArm {x x' : Reading} (hx : x.Follows foreign x') {arm : CaseArm}
    (h : Fields.caseArm x = .ok arm) :
    GivesUnless foreign [.expr arm.condition, .expr arm.result] (Fields.caseArm x') arm := by
  obtain ⟨members, hsource, condition, hc, result, hr, rfl⟩ := caseArm_eq_ok.mp h
  have hf := hx.fields .caseOf
  simp only [Fields.caseArm, hx.source, hsource]
  exact .bind ((hf.slot hc).mono (by simp)) (.bind ((hf.slot hr).mono (by simp)) (.inl rfl))

theorem caseOf (hf : f.Follows foreign f') {e : Expr} (h : f.caseOf = .ok e) :
    GivesUnless foreign [.expr e] f'.caseOf e := by
  obtain ⟨readings, hlist, arms, harms, subject, hs, otherwise, ho, rfl⟩ := caseOf_eq_ok.mp h
  have hconverted := hf.converted (fun arm => [.expr arm.condition, .expr arm.result])
    (fun hx harm => caseArm hx harm) hlist harms
  rw [Fields.caseOf, ← bind_assoc]
  refine .bind_part hconverted ?_ (.bind_part (hf.expr? hs) ?_ (.bind_part (hf.expr? ho) ?_
    (.inl rfl)))
  · exact List.subset_append_of_subset_left _ (List.subset_append_right _ _)
  · exact List.subset_append_of_subset_left _ (List.subset_append_left _ _)
  · exact List.subset_append_right _ _

theorem function (hf : f.Follows foreign f') {e : Expr} (h : f.function = .ok e) :
    GivesUnless foreign [.expr e] f'.function e := by
  obtain ⟨text, htext, name, hn, parameters, hp, distinct, hd, rfl⟩ := function_eq_ok.mp h
  exact .bind_ok (hf.text.trans htext) (.bind_ok hn (.bind_part (hf.exprs hp) (List.Subset.refl _)
    (.bind_ok (hf.flag.trans hd) (.inl rfl))))

theorem math (hf : f.Follows foreign f') {e : Expr} (h : f.math = .ok e) :
    GivesUnless foreign [.expr e] f'.math e := by
  obtain ⟨text, htext, operator, hop, operands, ho, rfl⟩ := math_eq_ok.mp h
  exact .bind_ok (hf.text.trans htext)
    (.bind_ok hop (.bind_part (hf.exprs ho) (List.Subset.refl _) (.inl rfl)))

theorem group (hf : f.Follows foreign f') {e : Expr} (h : f.group = .ok e) :
    GivesUnless foreign [.expr e] f'.group e := by
  obtain ⟨text, htext, operator, hop, items, hi, rfl⟩ := group_eq_ok.mp h
  exact .bind_ok (hf.text.trans htext)
    (.bind_ok hop (.bind_part (hf.exprs hi) (List.Subset.refl _) (.inl rfl)))

/-! ### Tables and joins -/

theorem schemaTable (hf : f.Follows foreign f') : f'.schemaTable = f.schemaTable := by
  simp only [Fields.schemaTable, hf.text?, hf.text]

theorem label (hf : f.Follows foreign f') : f'.label = f.label := by
  simp only [Fields.label, hf.text?, hf.kind]

theorem queryTable (hf : f.Follows foreign f') {t : Table} (h : f.queryTable = .ok t) :
    GivesUnless foreign [.table t] f'.queryTable t := by
  obtain ⟨label, hlabel, x, hx, q, hq, rfl⟩ := queryTable_eq_ok.mp h
  obtain ⟨x', hx', hfollows⟩ := hf.get hx
  exact .bind_ok (hf.label.trans hlabel)
    (.bind_ok hx' (.bind_part (hfollows.query hq) (List.Subset.refl _) (.inl rfl)))

theorem remoteTable (hf : f.Follows foreign f') {t : Table} (h : f.remoteTable = .ok t) :
    GivesUnless foreign [.table t] f'.remoteTable t := by
  obtain ⟨label, hlabel, config, hconfig, columns, hc, rfl⟩ := remoteTable_eq_ok.mp h
  obtain ⟨config', hconfig', hfollows⟩ := hf.get hconfig
  refine .bind_ok (hf.label.trans hlabel) (.bind_ok hconfig'
    (.bind_part (hf.nodes hc Node.standsFor_toColumnDef) (List.Subset.refl _) (.inl ?_)))
  rw [hfollows.source]
  rfl

theorem conditions (hf : f.Follows foreign f') {cs : List Expr} (h : f.conditions = .ok cs) :
    GivesUnless foreign (cs.map .expr) f'.conditions cs := by
  rw [Fields.conditions] at h ⊢
  split at h
  · next hget =>
    obtain rfl := Except.ok.inj h
    rw [hf.get?_none hget]
    exact .inl rfl
  · next x hget =>
    obtain ⟨x', hget', hx⟩ := hf.get?_some hget
    rw [hget']
    simp only [hx.source]
    split at h
    · exact hf.exprs h
    · obtain ⟨e, he, h⟩ := bind_eq_ok.mp h
      obtain rfl := Except.ok.inj h
      exact .bind (hx.expr he) (.inl rfl)

/-- The conditions of a join stand in it, as a group if there are several. -/
theorem occurs_of_ofConditions {operator : JoinOperator} {table : Table} {cs : List Expr}
    {j : JoinClause} (h : JoinClause.ofConditions operator table cs = .ok j) :
    ∀ p ∈ cs.map Node.expr, (Node.joinClause j).Occurs p := by
  obtain ⟨-, h⟩ := seq_eq_ok.mp h
  obtain rfl := Except.ok.inj h
  cases cs with
  | nil => exact List.forall_mem_nil _
  | cons c others =>
    cases others with
    | nil => exact List.forall_mem_singleton.mpr (.of_mem_parts (by simp [Node.parts, slotParts]))
    | cons c' rest =>
      intro p hp
      have hgroup : (Node.joinClause ⟨operator, table, some (.group .and (c :: c' :: rest))⟩).Occurs
          (.expr (.group .and (c :: c' :: rest))) :=
        .of_mem_parts (by simp [Node.parts, slotParts])
      exact hgroup.then_part hp

theorem joinClause (hf : f.Follows foreign f') {j : JoinClause} (h : f.joinClause = .ok j) :
    GivesUnless foreign [.joinClause j] f'.joinClause j := by
  obtain ⟨text?, htext, operator, hoperator, x, hx, cs, hcs, table, ht, h⟩ := joinClause_eq_ok.mp h
  obtain ⟨x', hx', hfollows⟩ := hf.get hx
  have htable : Node.table table ∈ (Node.joinClause j).parts := by
    obtain ⟨-, h⟩ := seq_eq_ok.mp h
    obtain rfl := Except.ok.inj h
    exact List.mem_cons_self
  rw [joinClause_eq]
  refine .bind_ok (hf.text?.trans htext) (.bind_ok hoperator (.bind_ok hx'
    (.bind ((hf.conditions hcs).of_occurs (occurs_of_ofConditions h)) ?_)))
  exact .bind_part (hfollows.table ht) (List.cons_subset.mpr ⟨htable, List.nil_subset _⟩) (.inl h)

theorem fromTable (hf : f.Follows foreign f') {t : FromTable} (h : f.fromTable = .ok t) :
    GivesUnless foreign [.fromTable t] f'.fromTable t := by
  obtain ⟨x, hx, joins, hj, table, ht, rfl⟩ := fromTable_eq_ok.mp h
  obtain ⟨x', hx', hfollows⟩ := hf.get hx
  refine .bind_ok hx' (.bind_part (hf.nodes hj Node.standsFor_toJoinClause) ?_
    (.bind_part (hfollows.table ht) ?_ (.inl rfl))) <;> simp [Node.parts]

/-! ### Parts of queries -/

theorem resultColumn (hf : f.Follows foreign f') {c : ResultColumn}
    (h : f.resultColumn = .ok c) : GivesUnless foreign [.resultColumn c] f'.resultColumn c := by
  obtain ⟨e, he, label, hlabel, rfl⟩ := resultColumn_eq_ok.mp h
  exact .bind_part (hf.slot he) (List.Subset.refl _)
    (.bind_ok (hf.text?.trans hlabel) (.inl rfl))

theorem orderBy (hf : f.Follows foreign f') {o : OrderBy} (h : f.orderBy = .ok o) :
    GivesUnless foreign [.orderBy o] f'.orderBy o := by
  obtain ⟨text?, htext, direction, hdirection, e, he, rfl⟩ := orderBy_eq_ok.mp h
  rw [orderBy_eq]
  exact .bind_ok (hf.text?.trans htext) (.bind_ok hdirection
    (.bind_part (hf.slot he) (List.Subset.refl _) (.inl rfl)))

theorem groupBy (hf : f.Follows foreign f') {g : GroupBy} (h : f.groupBy = .ok g) :
    GivesUnless foreign [.groupBy g] f'.groupBy g := by
  obtain ⟨es, hes, having, hh, rfl⟩ := groupBy_eq_ok.mp h
  exact .bind_part (hf.exprs hes) (List.subset_append_left _ _)
    (.bind_part (hf.expr? hh) (List.subset_append_right _ _) (.inl rfl))

theorem limit (hf : f.Follows foreign f') : f'.limit = f.limit := by
  simp only [Fields.limit, hf.natural?, Fields.missing, hf.kind]

theorem query (hf : f.Follows foreign f') {q : Query} (h : f.query = .ok q) :
    GivesUnless foreign [q.node] f'.query q := by
  obtain ⟨distinct, hd, columns, hc, sources, hs, condition, hw, groupBy, hg, order, ho, limit, hl,
    rfl⟩ := query_eq_ok.mp h
  refine .bind_ok (hf.flag.trans hd) (.bind_part (hf.nodes hc Node.standsFor_toResultColumn) ?_
    (.bind_part (hf.nodes hs Node.standsFor_toFromTable) ?_ (.bind_part (hf.expr? hw) ?_
    (.bind_part (hf.node? hg Node.standsFor_toGroupBy) ?_
    (.bind_part (hf.nodes ho Node.standsFor_toOrderBy) ?_
    (.bind_part (hf.node? hl Node.standsFor_toLimit) ?_ (.inl rfl)))))))
  -- Every part of the query is one of the lists that its parts are put together from.
  all_goals
    intro p hp
    simp only [Query.node, Node.parts, Statement.parts, Query.parts, List.mem_append, hp, true_or,
      or_true]

/-! ### Changes of data -/

theorem row {x x' : Reading} (hx : x.Follows foreign x') {es : List Expr}
    (h : Fields.row x = .ok es) : GivesUnless foreign (es.map .expr) (Fields.row x') es := by
  obtain ⟨items, hsource, h⟩ := row_eq_ok.mp h
  simp only [Fields.row, hx.source, hsource]
  have hexpr : ∀ {x x' e}, Reading.Follows foreign x x' → x.expr = .ok e →
      GivesUnless foreign [.expr e] x'.expr e := fun hx he => hx.expr he
  obtain ⟨-, -, hitems, -⟩ := hx
  have hgives := GivesUnless.convert hexpr hitems h
  rwa [← List.map_eq_flatMap] at hgives

theorem insertionSource (hf : f.Follows foreign f') {source : InsertionSource}
    (h : f.insertionSource = .ok source) :
    GivesUnless foreign source.parts f'.insertionSource source := by
  rw [Fields.insertionSource]
  obtain ⟨x, hget, q, hq, rfl⟩ | ⟨hget, readings, hlist, rows, hrows, rfl⟩ :=
    insertionSource_eq_ok.mp h
  · obtain ⟨x', hget', hx⟩ := hf.get?_some hget
    rw [hget']
    exact .bind (hx.query hq) (.inl rfl)
  · rw [hf.get?_none hget]
    have hconverted := hf.converted (fun es : List Expr => es.map Node.expr)
      (fun hx h => row hx h) hlist hrows
    rw [List.flatMap_def, ← List.map_flatten] at hconverted
    rw [← bind_assoc]
    exact .bind hconverted (.inl rfl)

theorem insertion (hf : f.Follows foreign f') {i : Insertion} (h : f.insertion = .ok i) :
    GivesUnless foreign [.statement (.insertion i)] f'.insertion i := by
  obtain ⟨source, hs, schema, hschema, name, hname, columns, hc, harity,
    rfl⟩ := insertion_eq_ok.mp h
  exact .bind_part (hf.insertionSource hs) (List.Subset.refl _)
    (.bind_ok (hf.text?.trans hschema) (.bind_ok (hf.text.trans hname)
      (.bind_ok (hf.strings hc) (.bind_ok harity (.inl rfl)))))

theorem assignment {x x' : Reading} (hx : x.Follows foreign x') {a : String × Expr}
    (h : Fields.assignment x = .ok a) :
    GivesUnless foreign [.expr a.2] (Fields.assignment x') a := by
  obtain ⟨members, hsource, column, hc, e, he, rfl⟩ := assignment_eq_ok.mp h
  have hf := hx.fields .update
  simp only [Fields.assignment, hx.source, hsource]
  exact .bind_ok (hf.text.trans hc) (.bind (hf.slot he) (.inl rfl))

theorem update (hf : f.Follows foreign f') {u : Update} (h : f.update = .ok u) :
    GivesUnless foreign [.statement (.update u)] f'.update u := by
  obtain ⟨readings, hlist, assignments, ha, schema, hschema, name, hname, condition, hw,
    rfl⟩ := update_eq_ok.mp h
  have hconverted := hf.converted (fun a : String × Expr => [Node.expr a.2])
    (fun hx h => assignment hx h) hlist ha
  rw [← List.map_eq_flatMap] at hconverted
  rw [Fields.update, ← bind_assoc]
  exact .bind_part hconverted (List.subset_append_left _ _) (.bind_ok (hf.text?.trans hschema)
    (.bind_ok (hf.text.trans hname)
      (.bind_part (hf.expr? hw) (List.subset_append_right _ _) (.inl rfl))))

theorem deletion (hf : f.Follows foreign f') {x : Deletion} (h : f.deletion = .ok x) :
    GivesUnless foreign [.statement (.deletion x)] f'.deletion x := by
  obtain ⟨database, hd, name, hname, condition, hw, rfl⟩ := deletion_eq_ok.mp h
  exact .bind_ok (hf.text?.trans hd) (.bind_ok (hf.text.trans hname)
    (.bind_part (hf.expr? hw) (List.Subset.refl _) (.inl rfl)))

/-! ### Definitions -/

theorem columnDef (hf : f.Follows foreign f') {c : ColumnDef} (h : f.columnDef = .ok c) :
    f'.columnDef = .ok c := by
  obtain ⟨name, hn, typeName, ht, length, hl, notNull, hnull, autoIncrement, hauto, options, ho,
    primaryKey, hk, h⟩ := columnDef_eq_ok.mp h
  rw [← hf.raw] at h
  exact columnDef_eq_ok.mpr ⟨name, hf.text.trans hn, typeName, hf.text.trans ht, length,
    hf.natural?.trans hl, notNull, hf.flag.trans hnull, autoIncrement, hf.flag.trans hauto, options,
    hf.strings ho, primaryKey, hf.flag.trans hk, h⟩

theorem primaryKey (hf : f.Follows foreign f') {k : PrimaryKey} (h : f.primaryKey = .ok k) :
    f'.primaryKey = .ok k := by
  obtain ⟨name, hname, columns, hc, h⟩ := primaryKey_eq_ok.mp h
  exact primaryKey_eq_ok.mpr ⟨name, hf.text?.trans hname, columns, hf.strings hc, h⟩

theorem createTable (hf : f.Follows foreign f') {t : CreateTable} (h : f.createTable = .ok t) :
    GivesUnless foreign [.statement (.createTable t)] f'.createTable t := by
  obtain ⟨columns, hc, constraints, hk, query, hq, schema, hschema, name, hname, ifNotExists, hi,
    hcheck, rfl⟩ := createTable_eq_ok.mp h
  refine .bind_part (hf.nodes hc Node.standsFor_toColumnDef) ?_
    (.bind_part (hf.nodes hk Node.standsFor_toPrimaryKey) ?_
    (.bind_part (hf.node? hq Node.standsFor_toQuery) ?_ (.bind_ok (hf.text?.trans hschema)
    (.bind_ok (hf.text.trans hname) (.bind_ok (hf.flag.trans hi) (.bind_ok hcheck (.inl rfl)))))))
  all_goals
    intro p hp
    simp only [Node.parts, Statement.parts, List.mem_append, hp, true_or, or_true]

theorem createSchema (hf : f.Follows foreign f') : f'.createSchema = f.createSchema := by
  simp only [Fields.createSchema, hf.text, hf.flag]

theorem dropTable (hf : f.Follows foreign f') : f'.dropTable = f.dropTable := by
  simp only [Fields.dropTable, hf.text?, hf.text, hf.flag]

theorem dropSchema (hf : f.Follows foreign f') : f'.dropSchema = f.dropSchema := by
  simp only [Fields.dropSchema, hf.text, hf.flag]

/-! ### Nodes of any kind -/

/-- Nodes are put together from the fields that follow as they were. -/
theorem construct (hf : f.Follows foreign f') {d d' : Dialect} (hd : d.Within foreign d') {n : Node}
    (h : f.construct d = .ok n) : GivesUnless foreign [n] (f'.construct d') n := by
  have hkind := hf.kind
  cases hk : f.kind <;> rw [Fields.construct, hk] at h <;>
    obtain ⟨a, ha, rfl⟩ := map_eq_ok.mp h <;> rw [Fields.construct, hkind, hk]
  case value => exact .map (.inl (hf.value.trans ha)) _
  case column => exact .map (.inl (hf.column.trans ha)) _
  case userVariable => exact .map (.inl (hf.userVariable.trans ha)) _
  case binary => exact (hf.binary hd ha).map _
  case between => exact (hf.between ha).map _
  case oneOf => exact (hf.oneOf ha).map _
  case nullTest => exact (hf.nullTest ha).map _
  case existence => exact (hf.existence ha).map _
  case caseOf => exact (hf.caseOf ha).map _
  case function => exact (hf.function ha).map _
  case math => exact (hf.math ha).map _
  case group => exact (hf.group ha).map _
  case schemaTable => exact .map (.inl (hf.schemaTable.trans ha)) _
  case queryTable => exact (hf.queryTable ha).map _
  case remoteTable => exact (hf.remoteTable ha).map _
  case fromTable => exact (hf.fromTable ha).map _
  case joinClause => exact (hf.joinClause ha).map _
  case resultColumn => exact (hf.resultColumn ha).map _
  case orderBy => exact (hf.orderBy ha).map _
  case groupBy => exact (hf.groupBy ha).map _
  case limit => exact .map (.inl (hf.limit.trans ha)) _
  case query => exact (hf.query ha).map _
  case insertion => exact (hf.insertion ha).map _
  case update => exact (hf.update ha).map _
  case deletion => exact (hf.deletion ha).map _
  case columnDef => exact .map (.inl (hf.columnDef ha)) _
  case primaryKey => exact .map (.inl (hf.primaryKey ha)) _
  case createTable => exact (hf.createTable ha).map _
  case createSchema => exact .map (.inl (hf.createSchema.trans ha)) _
  case dropTable => exact .map (.inl (hf.dropTable.trans ha)) _
  case dropSchema => exact .map (.inl (hf.dropSchema.trans ha)) _

end Fields.Follows

/-! ### Documents -/

namespace Registry

/-- A registry has all constructors of another one, and its dialect accepts all operators that are
not foreign. -/
structure Extends (foreign : String → Prop) (r r' : Registry) : Prop where
  constructors : ∀ {tag c}, Keyed.find? tag r.constructors = some c →
    Keyed.find? tag r'.constructors = some c
  dialect : r.dialect.Within foreign r'.dialect

namespace Extends

variable {r r' : Registry}

/-- Whatever is put together from members is put together from those that follow them. -/
theorem construct (hr : r.Extends foreign r') {members members' : List (String × Reading)}
    (hm : ∀ key, Option.Rel (Reading.Follows foreign) (Keyed.find? key members)
      (Keyed.find? key members'))
    {n : Node} (h : r.construct members = .ok n) :
    GivesUnless foreign [n] (r'.construct members') n := by
  have htag : ((Keyed.find? DocumentFault.tagKey members').bind fun tag => tag.source.string?) =
      (Keyed.find? DocumentFault.tagKey members).bind fun tag => tag.source.string? := by
    have hrel := hm DocumentFault.tagKey
    generalize Keyed.find? DocumentFault.tagKey members = m,
      Keyed.find? DocumentFault.tagKey members' = m' at hrel ⊢
    cases hrel with
    | none => rfl
    | some h => rw [Option.bind_some, Option.bind_some, h.source]
  rw [Registry.construct] at h ⊢
  rw [htag]
  split at h
  · cases h
  · next tag _ =>
    split at h
    · cases h
    · next c hc =>
      simp only [hr.constructors hc]
      cases c with
      | kind k =>
        have hf : Fields.Follows foreign ⟨k, members⟩ ⟨k, members'⟩ := ⟨rfl, hm⟩
        exact hf.construct hr.dialect h
      | constant m => exact .inl h
      | field key =>
        rw [Constructor.apply] at h ⊢
        have hrel := hm key
        generalize Keyed.find? key members = m, Keyed.find? key members' = m' at hrel h ⊢
        cases hrel with
        | none => cases h
        | some hx =>
          obtain ⟨-, outcome, -, -⟩ := hx
          exact outcome n h
      | failure e => cases h

mutual

/-- The parts of a document are revived as they were. -/
theorem follows_reading (hr : r.Extends foreign r') :
    ∀ j : Json, (r.reading j).Follows foreign (r'.reading j)
  | .array items =>
    .intro rfl (fun _ h => by cases h) (follows_readings hr items) fun _ => .none
  | .object members =>
    .intro rfl (fun _ h => hr.construct (follows_memberReadings hr members) h) .nil
      (follows_memberReadings hr members)
  | .null => .intro rfl (fun _ h => by cases h) .nil fun _ => .none
  | .bool _ => .intro rfl (fun _ h => by cases h) .nil fun _ => .none
  | .number _ => .intro rfl (fun _ h => by cases h) .nil fun _ => .none
  | .string _ => .intro rfl (fun _ h => by cases h) .nil fun _ => .none

/-- Likewise for a list of documents. -/
theorem follows_readings (hr : r.Extends foreign r') :
    ∀ items : List Json,
      List.Forall₂ (Reading.Follows foreign) (r.readings items) (r'.readings items)
  | [] => .nil
  | item :: rest => .cons (follows_reading hr item) (follows_readings hr rest)

/-- Likewise for the members of an object. -/
theorem follows_memberReadings (hr : r.Extends foreign r') :
    ∀ (members : List (String × Json)) (key : String), Option.Rel (Reading.Follows foreign)
      (Keyed.find? key (r.memberReadings members)) (Keyed.find? key (r'.memberReadings members))
  | [], _ => .none
  | (k, value) :: rest, key => by
    rw [memberReadings, memberReadings, Keyed.find?_cons, Keyed.find?_cons]
    split
    · exact .some (follows_reading hr value)
    · exact follows_memberReadings hr rest key

end

/-- What a registry revives is revived by one that extends it, unless a foreign operator stands
in it. -/
theorem revive (hr : r.Extends foreign r') {j : Json} {n : Node} (h : r.revive j = .ok n) :
    GivesUnless foreign [n] (r'.revive j) n := by
  obtain ⟨-, outcome, -, -⟩ := hr.follows_reading j
  exact outcome n h

end Extends

end Registry

/-! ### The registry of all kinds -/

/-- What another dialect does not list is foreign to it. -/
theorem Dialect.within_foreign (d d' : Dialect) : d.Within (· ∉ d'.operators) d' := by
  intro text operator h
  obtain rfl := Fields.Reads.toUpper_of_normalizeOperator h
  by_cases hop : text.toUpper ∈ d'.operators
  · exact .inl (normalizeOperator_of_upper hop)
  · refine .inr ⟨hop, if_neg fun hsupports => hop ?_⟩
    exact mem_of_normalizeOperator (if_pos hsupports)

namespace Registry

theorem extends_builtin (d d' : Dialect) :
    (builtin d).Extends (· ∉ d'.operators) (builtin d') where
  constructors h := by rwa [find?_builtin] at h ⊢
  dialect := by
    rw [dialect_builtin, dialect_builtin]
    exact d.within_foreign d'

/-- Another dialect revives a node exactly if it has all operators that stand in it, and then it
revives the same node; otherwise it fails with the error that an operator is not supported. So two
dialects that both accept a document agree on the node, its document and its text. -/
theorem dialect_only_filters (d d' : Dialect) {j : Json} {n : Node}
    (h : (builtin d).revive j = .ok n) :
    ((∀ operator, n.HasOperator operator → operator ∈ d'.operators) →
      (builtin d').revive j = .ok n) ∧
    ((∃ operator, n.HasOperator operator ∧ operator ∉ d'.operators) →
      ∃ text, (builtin d').revive j = .error (.unsupportedOperator Kind.binary.tag text)) ∧
    ∀ m, (builtin d').revive j = .ok m →
      m = n ∧ m.toDocument = n.toDocument ∧ m.toSql = n.toSql := by
  have hgives := (extends_builtin d d').revive h
  refine ⟨fun hall => ?_, fun ⟨operator, hop, hforeign⟩ => ?_, fun m hm => ?_⟩
  · refine hgives.resolve_right fun ⟨⟨p, hp, operator, hop, hforeign⟩, _⟩ => ?_
    obtain rfl := List.mem_singleton.mp hp
    exact hforeign (hall operator hop)
  · refine (hgives.resolve_left fun hok => hforeign ?_).2
    obtain ⟨left, right, negated, hoccurs⟩ := hop
    exact ((settled_revive hok).canonical _ hoccurs).1
  · obtain rfl : n = m := by
      rcases hgives with hn | ⟨-, text, herror⟩
      · exact Except.ok.inj (hn.symm.trans hm)
      · cases herror.symm.trans hm
    exact ⟨rfl, rfl, rfl⟩

/-- A condition with `LIKE` is the same in both dialects, and one with `REGEXP` is refused. -/
theorem dialect_only_filters_patterns :
    let like : Expr := .binary "LIKE" (.ofColumn "name") (.value (.string "A%")) false
    let regexp : Expr := .binary "REGEXP" (.ofColumn "name") (.value (.string "A")) false
    let removal (condition : Expr) : Node :=
      .statement (.deletion ⟨none, "student", some (.group .and [condition])⟩)
    ((builtin .mySQL).revive (removal like).document = .ok (removal like) ∧
      (builtin .postgreSQL).revive (removal like).document = .ok (removal like)) ∧
    (builtin .mySQL).revive (removal regexp).document = .ok (removal regexp) ∧
      ∃ text, (builtin .postgreSQL).revive (removal regexp).document =
        .error (.unsupportedOperator Kind.binary.tag text) := by
  intro like regexp removal
  have hlike : (builtin .mySQL).revive (removal like).document = .ok (removal like) := by cbv
  have hregexp : (builtin .mySQL).revive (removal regexp).document = .ok (removal regexp) := by cbv
  refine ⟨⟨hlike, (dialect_only_filters .mySQL .postgreSQL hlike).1 ?_⟩, hregexp,
    (dialect_only_filters .mySQL .postgreSQL hregexp).2.1 ⟨"REGEXP", ?_, by decide⟩⟩
  · rintro operator ⟨left, right, negated, hoccurs⟩
    obtain _ | ⟨hp, hoccurs⟩ := hoccurs
    obtain rfl := List.mem_singleton.mp hp
    obtain _ | ⟨hp, hoccurs⟩ := hoccurs
    obtain rfl := List.mem_singleton.mp hp
    simp only [like] at hoccurs
    obtain _ | ⟨hp, hoccurs⟩ := hoccurs
    · decide
    -- Nothing stands in the name and in the pattern.
    · rcases List.mem_pair.mp hp with rfl | rfl <;> obtain _ | ⟨hp, -⟩ := hoccurs <;> cases hp
  · exact ⟨_, _, _, .part List.mem_cons_self (.part List.mem_cons_self (.self _))⟩

end Registry

end SqlTree
