import SqlTree.Node.Equality
import SqlTree.Proofs.Document.Construction
import SqlTree.Proofs.Document.Revival
import SqlTree.Registry.RoundTrip

/-!
# What documents are revived to

Whatever the document, a node that is revived from it is settled: it is in canonical form, it is
more than an unset expression, and a query is a statement and not an expression. Every constructor
keeps this, since it normalizes and checks what it puts together, and takes the parts from fields
that have been revived themselves. So reviving a document, writing the node and reviving it again
gives the node again, whatever the document looked like and whether or not the node is finished.

## Main definitions

* `Node.Settled`: the nodes that documents are revived to.
* `Reading.Settled`: a document, all of whose parts are revived to settled nodes.

## Main results

* `Fields.Settled.construct`: nodes put together from settled fields are settled.
* `Registry.settled_revive`: revived nodes are settled.
* `Registry.revive_document_of_revive`: what has been revived is revived again from its document.
-/

namespace SqlTree

variable {d : Dialect}

/-- A node as revival leaves it. -/
structure Node.Settled (d : Dialect) (n : Node) : Prop where
  canonical : n.Canonical d
  comesBack : n.comesBack = true

/-- A document, all of whose parts are revived to settled nodes, if they are revived. -/
inductive Reading.Settled (d : Dialect) : Reading → Prop
  | intro {r : Reading} (outcome : ∀ n, r.outcome = .ok n → n.Settled d)
      (items : ∀ i ∈ r.items, i.Settled d) (members : ∀ m ∈ r.members, m.2.Settled d) :
      r.Settled d

/-- Fields, all of whose parts are revived to settled nodes, if they are revived. -/
def Fields.Settled (d : Dialect) (f : Fields) : Prop := ∀ m ∈ f.members, m.2.Settled d

/-! ### Nodes as parts -/

namespace Node.Settled

variable {n : Node}

theorem toExpr (h : n.Settled d) {e : Expr} (he : n.toExpr = .ok e) :
    (expr e).Canonical d ∧ e ≠ .unknown := by
  rcases toExpr_eq_ok.mp he with rfl | ⟨q, rfl, rfl⟩
  · exact ⟨h.canonical, fun heq => ne_unknown_of_comesBack h.comesBack (congrArg expr heq)⟩
  · -- A query has the same form and the same parts as an expression and as a statement.
    exact ⟨throughout_of_parts h.canonical.here fun p hp => h.canonical.part hp, nofun⟩

theorem toTable (h : n.Settled d) {t : Table} (ht : n.toTable = .ok t) :
    (table t).Canonical d :=
  toTable_eq_ok.mp ht ▸ h.canonical

theorem toQuery (h : n.Settled d) {q : Query} (hq : n.toQuery = .ok q) : q.node.Canonical d := by
  rcases toQuery_eq_ok.mp hq with rfl | rfl
  · exact h.canonical
  · exact absurd h.comesBack Bool.false_ne_true

theorem toFromTable (h : n.Settled d) {t : FromTable} (ht : n.toFromTable = .ok t) :
    (fromTable t).Canonical d := by
  rcases toFromTable_eq_ok.mp ht with rfl | ⟨t, rfl, rfl⟩
  · exact h.canonical
  · refine throughout_of_parts trivial fun p hp => ?_
    obtain rfl := List.mem_singleton.mp hp
    exact h.canonical

theorem toJoinClause (h : n.Settled d) {j : JoinClause} (hj : n.toJoinClause = .ok j) :
    (joinClause j).Canonical d :=
  toJoinClause_eq_ok.mp hj ▸ h.canonical

theorem toColumnDef (h : n.Settled d) {c : ColumnDef} (hc : n.toColumnDef = .ok c) :
    (columnDef c).Canonical d :=
  toColumnDef_eq_ok.mp hc ▸ h.canonical

theorem toResultColumn (h : n.Settled d) {c : ResultColumn} (hc : n.toResultColumn = .ok c) :
    (resultColumn c).Canonical d := by
  rcases toResultColumn_eq_ok.mp hc with rfl | ⟨e, rfl, rfl⟩
  · exact h.canonical
  · refine throughout_of_parts trivial fun p hp => ?_
    obtain rfl := List.mem_singleton.mp hp
    exact h.canonical

theorem toOrderBy (h : n.Settled d) {o : OrderBy} (ho : n.toOrderBy = .ok o) :
    (orderBy o).Canonical d :=
  toOrderBy_eq_ok.mp ho ▸ h.canonical

theorem toGroupBy (h : n.Settled d) {g : GroupBy} (hg : n.toGroupBy = .ok g) :
    (groupBy g).Canonical d :=
  toGroupBy_eq_ok.mp hg ▸ h.canonical

end Node.Settled

/-! ### Readings of fields -/

namespace Reading.Settled

variable {r : Reading}

theorem expr (h : r.Settled d) {e : Expr} (he : r.expr = .ok e) :
    (Node.expr e).Canonical d ∧ e ≠ .unknown := by
  obtain ⟨outcome, -, -⟩ := h
  obtain ⟨n, hn, he⟩ := bind_eq_ok.mp he
  exact (outcome n hn).toExpr he

theorem query (h : r.Settled d) {q : Query} (hq : r.query = .ok q) : q.node.Canonical d := by
  obtain ⟨outcome, -, -⟩ := h
  obtain ⟨n, hn, hq⟩ := bind_eq_ok.mp hq
  exact (outcome n hn).toQuery hq

theorem table (h : r.Settled d) {t : Table} (ht : r.table = .ok t) :
    (Node.table t).Canonical d := by
  obtain ⟨outcome, -, -⟩ := h
  obtain ⟨n, hn, ht⟩ := bind_eq_ok.mp ht
  exact (outcome n hn).toTable ht

end Reading.Settled

/-- What has been converted has what every conversion gives. -/
theorem Fields.forall_of_convert {α β : Type} {one : α → Except Error β} {P : β → Prop}
    {items : List α} {results : List β} (h : convert one items = .ok results)
    (hone : ∀ a ∈ items, ∀ b, one a = .ok b → P b) : ∀ b ∈ results, P b := by
  rw [convert_eq_ok] at h
  induction h with
  | nil => exact fun b hb => absurd hb List.not_mem_nil
  | cons hb _ ih =>
    refine List.forall_mem_cons.mpr ⟨hone _ List.mem_cons_self _ hb, ?_⟩
    exact ih fun a ha => hone a (List.mem_cons_of_mem _ ha)

namespace Fields.Settled

variable {f : Fields} {key : String}

theorem get? (hf : f.Settled d) {r : Reading} (h : f.get? key = some r) : r.Settled d :=
  hf _ (Keyed.mem_of_find? (Option.filter_eq_some_iff.mp h).1)

theorem get (hf : f.Settled d) {r : Reading} (h : f.get key = .ok r) : r.Settled d :=
  hf.get? (get_eq_ok.mp h)

theorem isNull_of_get {r : Reading} (h : f.get key = .ok r) : r.source.isNull = false := by
  simpa using (Option.filter_eq_some_iff.mp (get_eq_ok.mp h)).2

theorem list (hf : f.Settled d) {items : List Reading} (h : f.list key = .ok items) :
    ∀ i ∈ items, i.Settled d := by
  obtain ⟨-, rfl⟩ | ⟨x, hget, -, rfl⟩ := list_eq_ok.mp h
  · exact fun i hi => absurd hi List.not_mem_nil
  · obtain ⟨-, hitems, -⟩ := hf.get? hget
    exact hitems

theorem nodes (hf : f.Settled d) {α : Type} {as : Node → Except Error α} {P : α → Prop}
    {items : List α} (h : f.nodes key as = .ok items)
    (has : ∀ {n}, n.Settled d → ∀ {a}, as n = .ok a → P a) : ∀ a ∈ items, P a := by
  obtain ⟨readings, hlist, hconvert⟩ := bind_eq_ok.mp h
  refine forall_of_convert hconvert fun r hr a ha => ?_
  obtain ⟨outcome, -, -⟩ := hf.list hlist r hr
  obtain ⟨n, hn, ha⟩ := bind_eq_ok.mp ha
  exact has (outcome n hn) ha

theorem node? (hf : f.Settled d) {α : Type} {as : Node → Except Error α} {P : α → Prop}
    {value : Option α} (h : f.node? key as = .ok value)
    (has : ∀ {n}, n.Settled d → ∀ {a}, as n = .ok a → P a) : ∀ a ∈ value, P a := by
  obtain ⟨-, rfl⟩ | ⟨x, hget, n, hn, a, ha, rfl⟩ := node?_eq_ok.mp h
  · rintro _ ⟨⟩
  · obtain ⟨outcome, -, -⟩ := hf.get? hget
    rintro _ ⟨⟩
    exact has (outcome n hn) ha

theorem exprs (hf : f.Settled d) {es : List Expr} (h : f.exprs key = .ok es) :
    (∀ p ∈ es.map Node.expr, p.Canonical d) ∧ .unknown ∉ es := by
  have hes := hf.nodes h Node.Settled.toExpr
  exact ⟨List.forall_mem_map.mpr fun e he => (hes e he).1, fun hu => (hes _ hu).2 rfl⟩

theorem expr? (hf : f.Settled d) {e? : Option Expr} (h : f.expr? key = .ok e?) :
    (∀ p ∈ slotParts e?, p.Canonical d) ∧ e? ≠ some .unknown := by
  have he := hf.node? h Node.Settled.toExpr
  cases e? with
  | none => exact ⟨fun p hp => absurd hp List.not_mem_nil, nofun⟩
  | some e =>
    refine ⟨fun p hp => ?_, fun hu => (he e rfl).2 (Option.some.inj hu)⟩
    obtain rfl := List.mem_singleton.mp hp
    exact (he e rfl).1

theorem slot (hf : f.Settled d) {e : Expr} (h : f.slot key = .ok e) :
    (Node.expr e).Canonical d := by
  obtain ⟨e?, he?, rfl⟩ := slot_eq_ok.mp h
  cases e? with
  | none => exact Node.throughout_of_no_parts trivial rfl
  | some e => exact (hf.expr? he?).1 _ (List.mem_singleton_self _)

/-! ### Expressions -/

theorem value {e : Expr} (h : f.value = .ok e) : (Node.expr e).Settled d := by
  obtain rfl := Except.ok.inj h
  exact ⟨Node.throughout_of_no_parts trivial rfl, rfl⟩

theorem column {e : Expr} (h : f.column = .ok e) : (Node.expr e).Settled d := by
  obtain ⟨name, -, table, -, rfl⟩ := column_eq_ok.mp h
  exact ⟨Node.throughout_of_no_parts trivial rfl, rfl⟩

theorem userVariable {e : Expr} (h : f.userVariable = .ok e) : (Node.expr e).Settled d := by
  obtain ⟨name, -, rfl⟩ := userVariable_eq_ok.mp h
  exact ⟨Node.throughout_of_no_parts trivial rfl, rfl⟩

theorem binary (hf : f.Settled d) {e : Expr} (h : f.binary d = .ok e) :
    (Node.expr e).Settled d := by
  obtain ⟨text, -, operator, hop, left, hl, hleft, right, hr, hright, negated, -, hneg, rfl⟩ :=
    binary_eq_ok.mp h
  have hkept := mem_of_normalizeOperator hop
  obtain ⟨-, rfl⟩ | ⟨his, hr⟩ := hr
  · refine ⟨Node.throughout_of_parts ⟨hkept, fun _ => rfl, hleft, hright, hneg⟩ ?_, rfl⟩
    exact Node.forall_mem_pair.mpr ⟨hf.slot hl, Node.throughout_of_no_parts trivial rfl⟩
  · refine ⟨Node.throughout_of_parts ⟨hkept, fun h => absurd h his, hleft, hright, hneg⟩ ?_, rfl⟩
    exact Node.forall_mem_pair.mpr ⟨hf.slot hl, hf.slot hr⟩

theorem between (hf : f.Settled d) {e : Expr} (h : f.between = .ok e) :
    (Node.expr e).Settled d := by
  obtain ⟨left, hl, start, hs, stop, he, negated, -, rfl⟩ := between_eq_ok.mp h
  refine ⟨Node.throughout_of_parts trivial ?_, rfl⟩
  exact List.forall_mem_cons.mpr
    ⟨hf.slot hl, Node.forall_mem_pair.mpr ⟨hf.slot hs, hf.slot he⟩⟩

theorem oneOf (hf : f.Settled d) {e : Expr} (h : f.oneOf = .ok e) : (Node.expr e).Settled d := by
  obtain ⟨left, hl, right, hr, hright, negated, -, rfl⟩ := oneOf_eq_ok.mp h
  refine ⟨Node.throughout_of_parts hright ?_, rfl⟩
  exact Node.forall_mem_pair.mpr ⟨hf.slot hl, hf.slot hr⟩

theorem nullTest (hf : f.Settled d) {e : Expr} (h : f.nullTest = .ok e) :
    (Node.expr e).Settled d := by
  obtain ⟨left, hl, negated, -, rfl⟩ := nullTest_eq_ok.mp h
  exact ⟨Node.throughout_of_parts trivial (List.forall_mem_singleton.mpr (hf.slot hl)), rfl⟩

theorem existence (hf : f.Settled d) {e : Expr} (h : f.existence = .ok e) :
    (Node.expr e).Settled d := by
  obtain ⟨r, hr, q, hq, negated, -, rfl⟩ := existence_eq_ok.mp h
  refine ⟨Node.throughout_of_parts trivial ?_, rfl⟩
  exact List.forall_mem_singleton.mpr ((hf.get hr).query hq)

/-- The members of an object without a tag are fields of their own. -/
theorem of_members {r : Reading} (h : r.Settled d) (kind : Kind) :
    Fields.Settled d ⟨kind, r.members⟩ := by
  obtain ⟨-, -, members⟩ := h
  exact members

theorem caseArm {r : Reading} (hr : r.Settled d) {arm : CaseArm} (h : Fields.caseArm r = .ok arm) :
    (Node.expr arm.condition).Canonical d ∧ (Node.expr arm.result).Canonical d := by
  obtain ⟨members, -, condition, hc, result, hres, rfl⟩ := caseArm_eq_ok.mp h
  exact ⟨(of_members hr .caseOf).slot hc, (of_members hr .caseOf).slot hres⟩

theorem caseOf (hf : f.Settled d) {e : Expr} (h : f.caseOf = .ok e) :
    (Node.expr e).Settled d := by
  obtain ⟨readings, hlist, arms, harms, subject, hs, otherwise, ho, rfl⟩ := caseOf_eq_ok.mp h
  have harms' := forall_of_convert harms fun r hr arm => caseArm (hf.list hlist r hr)
  obtain ⟨hs, hsu⟩ := hf.expr? hs
  obtain ⟨ho, hou⟩ := hf.expr? ho
  refine ⟨Node.throughout_of_parts ⟨hsu, hou⟩ ?_, rfl⟩
  simp only [Node.parts, Expr.parts, List.forall_mem_append, List.forall_mem_flatMap,
    Node.forall_mem_pair]
  exact ⟨⟨hs, harms'⟩, ho⟩

theorem function (hf : f.Settled d) {e : Expr} (h : f.function = .ok e) :
    (Node.expr e).Settled d := by
  obtain ⟨text, -, name, hn, parameters, hp, distinct, -, rfl⟩ := function_eq_ok.mp h
  obtain ⟨hp, hu⟩ := hf.exprs hp
  exact ⟨Node.throughout_of_parts ⟨normalizeFunctionName_idem hn, hu⟩ hp, rfl⟩

theorem math (hf : f.Settled d) {e : Expr} (h : f.math = .ok e) : (Node.expr e).Settled d := by
  obtain ⟨text, -, operator, hop, operands, ho, rfl⟩ := math_eq_ok.mp h
  obtain ⟨ho, hu⟩ := hf.exprs ho
  exact ⟨Node.throughout_of_parts ⟨mem_of_normalizeMathOperator hop, hu⟩ ho, rfl⟩

theorem group (hf : f.Settled d) {e : Expr} (h : f.group = .ok e) : (Node.expr e).Settled d := by
  obtain ⟨text, -, operator, -, items, hi, rfl⟩ := group_eq_ok.mp h
  obtain ⟨hi, hu⟩ := hf.exprs hi
  exact ⟨Node.throughout_of_parts hu hi, rfl⟩

/-! ### Tables and joins -/

theorem schemaTable {t : Table} (h : f.schemaTable = .ok t) : (Node.table t).Settled d := by
  obtain ⟨schema, -, table, -, function, -, label, -, hcheck, rfl⟩ := schemaTable_eq_ok.mp h
  exact ⟨Node.throughout_of_no_parts hcheck rfl, rfl⟩

theorem requireLabel_of_label {label : String} (h : f.label = .ok label) :
    requireLabel f.kind label = .ok () := by
  obtain ⟨label?, -, hlabel, rfl⟩ := label_eq_ok.mp h
  exact hlabel

theorem queryTable (hf : f.Settled d) (hk : f.kind = .queryTable) {t : Table}
    (h : f.queryTable = .ok t) : (Node.table t).Settled d := by
  obtain ⟨label, hlabel, r, hr, q, hq, rfl⟩ := queryTable_eq_ok.mp h
  have hcheck := requireLabel_of_label hlabel
  rw [hk] at hcheck
  refine ⟨Node.throughout_of_parts hcheck ?_, rfl⟩
  exact List.forall_mem_singleton.mpr ((hf.get hr).query hq)

theorem remoteTable (hf : f.Settled d) (hk : f.kind = .remoteTable) {t : Table}
    (h : f.remoteTable = .ok t) : (Node.table t).Settled d := by
  obtain ⟨label, hlabel, r, hr, columns, hc, rfl⟩ := remoteTable_eq_ok.mp h
  have hcheck := requireLabel_of_label hlabel
  rw [hk] at hcheck
  have hnull : r.source.isNull = false := isNull_of_get hr
  refine ⟨Node.throughout_of_parts ⟨hnull, hcheck⟩ ?_, rfl⟩
  exact List.forall_mem_map.mpr (hf.nodes hc Node.Settled.toColumnDef)

theorem conditions (hf : f.Settled d) {cs : List Expr} (h : f.conditions = .ok cs) :
    (∀ p ∈ cs.map Node.expr, p.Canonical d) ∧ .unknown ∉ cs := by
  rw [Fields.conditions] at h
  split at h
  · obtain rfl := Except.ok.inj h
    exact ⟨fun p hp => absurd hp List.not_mem_nil, List.not_mem_nil⟩
  · next r hr =>
    split at h
    · exact hf.exprs h
    · obtain ⟨e, he, h⟩ := bind_eq_ok.mp h
      obtain rfl := Except.ok.inj h
      obtain ⟨hc, hu⟩ := (hf.get? hr).expr he
      exact ⟨List.forall_mem_singleton.mpr hc, fun hmem => hu (List.mem_singleton.mp hmem).symm⟩

/-- Several conditions become one group, which is canonical if they are. -/
theorem ofConditions {operator : JoinOperator} {table : Table} {cs : List Expr} {j : JoinClause}
    (ht : (Node.table table).Canonical d) (hcs : ∀ p ∈ cs.map Node.expr, p.Canonical d)
    (hu : .unknown ∉ cs) (h : JoinClause.ofConditions operator table cs = .ok j) :
    (Node.joinClause j).Canonical d := by
  obtain ⟨hcheck, h⟩ := seq_eq_ok.mp h
  obtain rfl := Except.ok.inj h
  match cs with
  | [] => exact Node.throughout_of_parts ⟨hcheck, nofun⟩ (List.forall_mem_singleton.mpr ht)
  | [c] =>
    have hne : c ≠ .unknown := fun heq => hu (by rw [heq]; exact List.mem_singleton_self _)
    refine Node.throughout_of_parts ⟨hcheck, fun heq => hne (Option.some.inj heq)⟩ ?_
    exact List.forall_mem_cons.mpr ⟨ht, hcs⟩
  | c :: c' :: rest =>
    refine Node.throughout_of_parts ⟨hcheck, nofun⟩ (Node.forall_mem_pair.mpr ⟨ht, ?_⟩)
    exact Node.throughout_of_parts hu hcs

theorem joinClause (hf : f.Settled d) {j : JoinClause} (h : f.joinClause = .ok j) :
    (Node.joinClause j).Settled d := by
  obtain ⟨text?, -, operator, -, r, hr, cs, hcs, table, ht, h⟩ := joinClause_eq_ok.mp h
  obtain ⟨hcs, hu⟩ := hf.conditions hcs
  exact ⟨ofConditions ((hf.get hr).table ht) hcs hu h, rfl⟩

theorem fromTable (hf : f.Settled d) {t : FromTable} (h : f.fromTable = .ok t) :
    (Node.fromTable t).Settled d := by
  obtain ⟨r, hr, joins, hj, table, ht, rfl⟩ := fromTable_eq_ok.mp h
  refine ⟨Node.throughout_of_parts trivial ?_, rfl⟩
  exact List.forall_mem_cons.mpr ⟨(hf.get hr).table ht,
    List.forall_mem_map.mpr (hf.nodes hj Node.Settled.toJoinClause)⟩

/-! ### Parts of queries -/

theorem resultColumn (hf : f.Settled d) {c : ResultColumn} (h : f.resultColumn = .ok c) :
    (Node.resultColumn c).Settled d := by
  obtain ⟨e, he, label, -, rfl⟩ := resultColumn_eq_ok.mp h
  exact ⟨Node.throughout_of_parts trivial (List.forall_mem_singleton.mpr (hf.slot he)), rfl⟩

theorem orderBy (hf : f.Settled d) {o : OrderBy} (h : f.orderBy = .ok o) :
    (Node.orderBy o).Settled d := by
  obtain ⟨text?, -, direction, -, e, he, rfl⟩ := orderBy_eq_ok.mp h
  exact ⟨Node.throughout_of_parts trivial (List.forall_mem_singleton.mpr (hf.slot he)), rfl⟩

theorem groupBy (hf : f.Settled d) {g : GroupBy} (h : f.groupBy = .ok g) :
    (Node.groupBy g).Settled d := by
  obtain ⟨es, hes, having, hh, rfl⟩ := groupBy_eq_ok.mp h
  obtain ⟨hes, hu⟩ := hf.exprs hes
  obtain ⟨hh, hhu⟩ := hf.expr? hh
  exact ⟨Node.throughout_of_parts ⟨hu, hhu⟩ (List.forall_mem_append.mpr ⟨hes, hh⟩), rfl⟩

theorem query (hf : f.Settled d) {q : Query} (h : f.query = .ok q) : q.node.Settled d := by
  obtain ⟨distinct, -, columns, hc, sources, hs, condition, hw, groupBy, hg, order, ho, limit, -,
    rfl⟩ := query_eq_ok.mp h
  obtain ⟨hw, hu⟩ := hf.expr? hw
  have hc := hf.nodes hc Node.Settled.toResultColumn
  have hs := hf.nodes hs Node.Settled.toFromTable
  have hg := hf.node? hg Node.Settled.toGroupBy
  have ho := hf.nodes ho Node.Settled.toOrderBy
  refine ⟨Node.throughout_of_parts hu ?_, rfl⟩
  simp only [Query.node, Node.parts, Statement.parts, Query.parts, List.forall_mem_append,
    List.forall_mem_map, Node.forall_mem_option]
  exact ⟨⟨⟨⟨⟨hc, hs⟩, hw⟩, hg⟩, ho⟩, fun l _ => Node.throughout_of_no_parts trivial rfl⟩

/-! ### Changes of data -/

theorem row {r : Reading} (hr : r.Settled d) {es : List Expr} (h : Fields.row r = .ok es) :
    ∀ e ∈ es, (Node.expr e).Canonical d ∧ e ≠ .unknown := by
  obtain ⟨-, -, h⟩ := row_eq_ok.mp h
  obtain ⟨-, items, -⟩ := hr
  exact forall_of_convert h fun i hi e => (items i hi).expr

theorem insertionSource (hf : f.Settled d) {source : InsertionSource}
    (h : f.insertionSource = .ok source) :
    (∀ p ∈ source.parts, p.Canonical d) ∧ .expr .unknown ∉ source.parts := by
  obtain ⟨r, hr, q, hq, rfl⟩ | ⟨-, readings, hlist, rows, hrows, rfl⟩ := insertionSource_eq_ok.mp h
  · refine ⟨List.forall_mem_singleton.mpr ((hf.get? hr).query hq), fun hmem => ?_⟩
    cases List.mem_singleton.mp hmem
  · have hall := forall_of_convert hrows fun r hr es => row (hf.list hlist r hr)
    have hall' : ∀ e ∈ rows.flatten, (Node.expr e).Canonical d ∧ e ≠ .unknown := by
      intro e he
      obtain ⟨es, hes, he⟩ := List.mem_flatten.mp he
      exact hall es hes e he
    refine ⟨List.forall_mem_map.mpr fun e he => (hall' e he).1, fun hmem => ?_⟩
    obtain ⟨e, he, heq⟩ := List.mem_map.mp hmem
    exact (hall' e he).2 (Node.expr.inj heq)

theorem insertion (hf : f.Settled d) {i : Insertion} (h : f.insertion = .ok i) :
    (Node.statement (.insertion i)).Settled d := by
  obtain ⟨source, hs, schema, -, name, -, columns, -, hcheck, rfl⟩ := insertion_eq_ok.mp h
  obtain ⟨hs, hu⟩ := hf.insertionSource hs
  exact ⟨Node.throughout_of_parts ⟨hcheck, hu⟩ hs, rfl⟩

theorem assignment {r : Reading} (hr : r.Settled d) {a : String × Expr}
    (h : Fields.assignment r = .ok a) : (Node.expr a.2).Canonical d := by
  obtain ⟨members, -, column, -, e, he, rfl⟩ := assignment_eq_ok.mp h
  exact (of_members hr .update).slot he

theorem update (hf : f.Settled d) {u : Update} (h : f.update = .ok u) :
    (Node.statement (.update u)).Settled d := by
  obtain ⟨readings, hlist, assignments, ha, schema, -, name, -, condition, hw,
    rfl⟩ := update_eq_ok.mp h
  have ha := forall_of_convert ha fun r hr a => assignment (hf.list hlist r hr)
  obtain ⟨hw, hu⟩ := hf.expr? hw
  refine ⟨Node.throughout_of_parts hu ?_, rfl⟩
  exact List.forall_mem_append.mpr ⟨List.forall_mem_map.mpr ha, hw⟩

theorem deletion (hf : f.Settled d) {x : Deletion} (h : f.deletion = .ok x) :
    (Node.statement (.deletion x)).Settled d := by
  obtain ⟨database, -, name, -, condition, hw, rfl⟩ := deletion_eq_ok.mp h
  obtain ⟨hw, hu⟩ := hf.expr? hw
  exact ⟨Node.throughout_of_parts hu hw, rfl⟩

/-! ### Definitions -/

theorem columnDef {c : ColumnDef} (h : f.columnDef = .ok c) : (Node.columnDef c).Settled d := by
  obtain ⟨name, -, typeName, -, length, -, notNull, -, autoIncrement, -, options, -, primaryKey, -,
    rfl⟩ := columnDef_eq_ok.mp h
  refine ⟨Node.throughout_of_no_parts (fun hkey => ?_) rfl, rfl⟩
  obtain rfl : primaryKey = true := hkey
  exact ⟨rfl, rfl⟩

theorem createTable (hf : f.Settled d) {t : CreateTable} (h : f.createTable = .ok t) :
    (Node.statement (.createTable t)).Settled d := by
  obtain ⟨columns, hc, constraints, -, query, hq, schema, -, name, -, ifNotExists, -, hcheck,
    rfl⟩ := createTable_eq_ok.mp h
  have hc := hf.nodes hc Node.Settled.toColumnDef
  have hq := hf.node? hq Node.Settled.toQuery
  refine ⟨Node.throughout_of_parts hcheck ?_, rfl⟩
  simp only [Node.parts, Statement.parts, List.forall_mem_append, List.forall_mem_map,
    Node.forall_mem_option]
  exact ⟨⟨hc, fun k _ => Node.throughout_of_no_parts trivial rfl⟩, hq⟩

/-! ### Nodes of any kind -/

/-- Nodes put together from settled fields are settled. -/
theorem construct (hf : f.Settled d) {n : Node} (h : f.construct d = .ok n) : n.Settled d := by
  rw [Fields.construct] at h
  split at h <;> obtain ⟨_, hx, rfl⟩ := map_eq_ok.mp h
  · exact value hx
  · exact column hx
  · exact userVariable hx
  · exact hf.binary hx
  · exact hf.between hx
  · exact hf.oneOf hx
  · exact hf.nullTest hx
  · exact hf.existence hx
  · exact hf.caseOf hx
  · exact hf.function hx
  · exact hf.math hx
  · exact hf.group hx
  · exact schemaTable hx
  · exact hf.queryTable ‹_› hx
  · exact hf.remoteTable ‹_› hx
  · exact hf.fromTable hx
  · exact hf.joinClause hx
  · exact hf.resultColumn hx
  · exact hf.orderBy hx
  · exact hf.groupBy hx
  · exact ⟨Node.throughout_of_no_parts trivial rfl, rfl⟩
  · exact hf.query hx
  · exact hf.insertion hx
  · exact hf.update hx
  · exact hf.deletion hx
  · exact columnDef hx
  · exact ⟨Node.throughout_of_no_parts trivial rfl, rfl⟩
  · exact hf.createTable hx
  · exact ⟨Node.throughout_of_no_parts trivial rfl, rfl⟩
  · exact ⟨Node.throughout_of_no_parts trivial rfl, rfl⟩
  · exact ⟨Node.throughout_of_no_parts trivial rfl, rfl⟩

end Fields.Settled

/-! ### Documents -/

namespace Registry

variable {r : Registry}

/-- Whatever is put together from members that are revived to settled nodes is settled. -/
def KeepsSettled (d : Dialect) (r : Registry) : Prop :=
  ∀ members : List (String × Reading), (∀ m ∈ members, m.2.Settled d) →
    ∀ n, r.construct members = .ok n → n.Settled d

mutual

/-- All that the parts of a document are revived to is settled. -/
theorem settled_reading (hr : r.KeepsSettled d) : ∀ j : Json, (r.reading j).Settled d
  | .array items => .intro nofun (settled_readings hr items) nofun
  | .object members =>
    .intro (hr _ (settled_memberReadings hr members)) nofun (settled_memberReadings hr members)
  | .null => .intro nofun nofun nofun
  | .bool _ => .intro nofun nofun nofun
  | .number _ => .intro nofun nofun nofun
  | .string _ => .intro nofun nofun nofun

/-- Likewise for a list of documents. -/
theorem settled_readings (hr : r.KeepsSettled d) :
    ∀ items : List Json, ∀ i ∈ r.readings items, i.Settled d
  | [] => nofun
  | item :: rest => List.forall_mem_cons.mpr ⟨settled_reading hr item, settled_readings hr rest⟩

/-- Likewise for the members of an object. -/
theorem settled_memberReadings (hr : r.KeepsSettled d) :
    ∀ members : List (String × Json), ∀ m ∈ r.memberReadings members, m.2.Settled d
  | [] => nofun
  | (_, value) :: rest =>
    List.forall_mem_cons.mpr ⟨settled_reading hr value, settled_memberReadings hr rest⟩

end

theorem keepsSettled_builtin (d : Dialect) : (builtin d).KeepsSettled d := by
  intro members hm n hn
  obtain ⟨kind, hk⟩ := exists_kind hn
  have hf : Fields.Settled d ⟨kind, members⟩ := hm
  exact hf.construct hk

/-- Whatever the document, a node that is revived from it is settled. -/
theorem settled_revive {j : Json} {n : Node} (h : (builtin d).revive j = .ok n) : n.Settled d := by
  obtain ⟨outcome, -, -⟩ := settled_reading (keepsSettled_builtin d) j
  exact outcome n h

end Registry

/-- A settled node is revived from its document. -/
theorem Node.Settled.revive_document {n : Node} (h : n.Settled d) :
    (Registry.builtin d).revive n.document = .ok n := by
  rw [h.canonical.returns (Node.ne_unknown_of_comesBack h.comesBack),
    Node.revived_of_comesBack h.comesBack]

theorem Node.toDocument_of_check {n : Node} (h : n.check = .ok ()) :
    n.toDocument = .ok n.document := by
  rw [Node.toDocument, h]
  rfl

namespace Registry

/-- A finished node that is revived from its document keeps its document and its text. -/
theorem roundTrips_of_revive {r : Registry} {n : Node} (hc : n.check = .ok ())
    (h : r.revive n.document = .ok n) : r.roundTrips n = true := by
  have hd : n.toDocument = .ok n.document := Node.toDocument_of_check hc
  simp only [roundTrips, hd, h, ok_bind, beq_self_eq_true, Bool.and_true]
  rfl

/-- Whatever a document looks like and whether or not what it is revived to is finished, that node
is revived again from its own document. If it is finished, it survives the round trip. -/
theorem revive_document_of_revive {j : Json} {n : Node} (h : (builtin d).revive j = .ok n) :
    (builtin d).revive n.document = .ok n ∧
      (n.check = .ok () → (builtin d).roundTrips n = true) := by
  have hn : (builtin d).revive n.document = .ok n := (settled_revive h).revive_document
  exact ⟨hn, fun hc => roundTrips_of_revive hc hn⟩

/-- A comparison with an operator in lower case and without a right side. -/
theorem revive_document_of_lower_is :
    let left : Expr := .ofColumn "name"
    let j : Json := tagged .binary [field "left" left.document, field "operator" (.string "is")]
    let n : Node := .expr (.binary "IS" left (.value .null) false)
    (builtin .mySQL).revive j = .ok n ∧ (builtin .mySQL).revive n.document = .ok n ∧
      n.check = .ok () ∧ (builtin .mySQL).roundTrips n = true := by
  intro left j n
  have hj : (builtin .mySQL).revive j = .ok n := by
    refine revive_tagged (by simp) fun f hk hf => ?_
    have hupper : "is".toUpper = "IS" := by decide +kernel
    have hkept : normalizeOperator .mySQL "is" = .ok "IS" := by
      rw [← hupper]
      exact normalizeOperator_of_upper (by rw [hupper]; decide)
    -- The text is hidden, since normalizing it by computation takes long.
    obtain ⟨text, htext, hop⟩ : ∃ text, f.text "operator" = .ok text ∧
        normalizeOperator .mySQL text = .ok "IS" := ⟨"is", hf.text (by simp), hkept⟩
    have hl : f.slot "left" = .ok left := hf.slot (by simp) (returns_column none "name").expr
    have hnot : f.flag "not" = .ok false := hf.flag (by simp)
    simp only [Fields.construct, hk, Fields.binary, htext, hop, hl, hnot, ok_bind]
    rfl
  have hc : n.check = .ok () := by decide +kernel
  obtain ⟨hn, hround⟩ := revive_document_of_revive hj
  exact ⟨hj, hn, hc, hround hc⟩

end Registry

end SqlTree
