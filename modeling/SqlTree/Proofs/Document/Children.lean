import SqlTree.Proofs.Document.Image

/-!
# Revival keeps the children of a document

A document that is accepted with a part silently left out would stand for a different statement.
This file goes through the kinds and says for each key under which nodes are kept what the document
of the revived node has there: the canonical form of what was given, where a short form is written
out. An absent part is given by no member, by null or by an empty list.

Two members give way to others. The right side of `IS` is always null, whatever the document says,
and the rows of an insertion are not looked at if there is a query.

## Main definitions

* `Registry.Becomes`, `EachBecomes`, `Registry.ArmBecomes`, … : how a child of a document
  and the canonical form of what it is revived to are related.
* `Kind.children`: the keys under which a kind keeps children, each with its relation.
* `Kind.Supersedes`: the members that give way to others.

## Main results

* `Fields.Reads.construct`: a node keeps the children of the members it is put together from.
* `Registry.children_of_revive`: the document of a revived node has the children that were given.
-/

namespace SqlTree

/-- The member of an object under a key. -/
def Json.member? (key : String) : Json → Option Json
  | .object members => Keyed.find? key members
  | _ => none

/-- A member that is present and not null. -/
def given? (key : String) (members : List (String × Json)) : Option Json :=
  (Keyed.find? key members).filter fun v => !v.isNull

/-! ### Canonical forms of children -/

namespace Node

/-- The document of a node as a source of rows, where a bare table stands for one without joins. -/
def sourceDocument : Node → Json
  | table t => tagged .fromTable [field "table" t.document]
  | n => n.document

/-- The document of a node as a result column, where a bare expression stands for one without a
name. -/
def columnDocument : Node → Json
  | expr e => tagged .resultColumn [field "expression" e.document]
  | n => n.document

end Node

/-- A list of children becomes a list, item by item. -/
def EachBecomes (one : Json → Json → Prop) (v out : Json) : Prop :=
  ∃ items outs, v = .array items ∧ out = .array outs ∧ List.Forall₂ one items outs

namespace Registry

variable (r : Registry)

/-- What a child is revived to is written as `out`. -/
def Becomes (write : Node → Json) (v out : Json) : Prop :=
  ∃ n, r.revive v = .ok n ∧ out = write n

/-- What a child is revived to is written as its document. -/
abbrev NodeBecomes : Json → Json → Prop := r.Becomes Node.document

/-- The expression in a slot, which is null if it is absent. -/
def SlotBecomes (key : String) (members : List (String × Json)) (out : Json) : Prop :=
  match given? key members with
  | some v => r.NodeBecomes v out
  | none => out = .null

/-- A condition and its result. -/
def ArmBecomes (v out : Json) : Prop :=
  ∃ members condition result, v = .object members ∧
    r.SlotBecomes "when" members condition ∧ r.SlotBecomes "then" members result ∧
    out = .ofMembers [("when", condition), ("then", result)]

/-- An assignment to a column. -/
def AssignmentBecomes (v out : Json) : Prop :=
  ∃ members column value, v = .object members ∧
    Keyed.find? "column" members = some (.string column) ∧ r.SlotBecomes "value" members value ∧
    out = .ofMembers [("column", .string column), ("value", value)]

/-- The conditions of a join: one, a list of one, or a list that stands for their `AND` group. -/
def ConditionBecomes (v out : Json) : Prop :=
  r.NodeBecomes v out ∨ ∃ outs,
    EachBecomes r.NodeBecomes v (.array outs) ∧
    (outs = [out] ∨ 2 ≤ outs.length ∧ out = tagged .group [
      field "operator" (.string "AND"), field "expressions" (.array outs)])

end Registry

/-- The keys under which the nodes of a kind keep children, and how the children there and their
canonical forms are related. -/
def Kind.children (r : Registry) : Kind → List (String × (Json → Json → Prop))
  | .binary => [("left", r.NodeBecomes), ("right", r.NodeBecomes)]
  | .between => [
      ("left", r.NodeBecomes),
      ("start", r.NodeBecomes),
      ("end", r.NodeBecomes)]
  | .oneOf => [("left", r.NodeBecomes), ("right", r.NodeBecomes)]
  | .nullTest => [("left", r.NodeBecomes)]
  | .existence => [("query", r.NodeBecomes)]
  | .caseOf => [
      ("expression", r.NodeBecomes),
      ("cases", EachBecomes r.ArmBecomes),
      ("else", r.NodeBecomes)]
  | .function => [("parameters", EachBecomes r.NodeBecomes)]
  | .math => [("operands", EachBecomes r.NodeBecomes)]
  | .group => [("expressions", EachBecomes r.NodeBecomes)]
  | .queryTable => [("query", r.NodeBecomes)]
  | .remoteTable => [("columns", EachBecomes r.NodeBecomes)]
  | .fromTable => [
      ("table", r.NodeBecomes),
      ("joinClauses", EachBecomes r.NodeBecomes)]
  | .joinClause => [("table", r.NodeBecomes), ("$on", r.ConditionBecomes)]
  | .resultColumn => [("expression", r.NodeBecomes)]
  | .orderBy => [("expression", r.NodeBecomes)]
  | .groupBy => [
      ("expressions", EachBecomes r.NodeBecomes),
      ("having", r.NodeBecomes)]
  | .query => [
      ("select", EachBecomes (r.Becomes Node.columnDocument)),
      ("from", EachBecomes (r.Becomes Node.sourceDocument)),
      ("where", r.NodeBecomes),
      ("groupBy", r.NodeBecomes),
      ("order", EachBecomes r.NodeBecomes),
      ("limit", r.NodeBecomes)]
  | .insertion => [
      ("columns", Eq),
      ("query", r.NodeBecomes),
      ("values", EachBecomes (EachBecomes r.NodeBecomes))]
  | .update => [("set", EachBecomes r.AssignmentBecomes), ("where", r.NodeBecomes)]
  | .deletion => [("where", r.NodeBecomes)]
  | .primaryKey => [("columns", Eq)]
  | .createTable => [
      ("columns", EachBecomes r.NodeBecomes),
      ("constraints", EachBecomes r.NodeBecomes),
      ("query", r.NodeBecomes)]
  | .value | .column | .userVariable | .schemaTable | .limit | .columnDef | .createSchema
  | .dropTable | .dropSchema => []

/-- Another member of the object stands in place of the one under the key: null for the right side
of `IS`, and a query for the rows of an insertion. -/
def Kind.Supersedes (members : List (String × Json)) (key : String) : Kind → Prop
  | .binary => key = "right" ∧
      ∃ operator, Keyed.find? "operator" members = some (.string operator) ∧
        operator.toUpper = "IS"
  | .insertion => key = "values" ∧ (given? "query" members).isSome
  | _ => False

/-! ### Documents of converted nodes -/

namespace Node

variable {n : Node}

theorem document_toExpr {e : Expr} (h : n.toExpr = .ok e) : e.document = n.document := by
  rcases toExpr_eq_ok.mp h with rfl | ⟨q, rfl, rfl⟩ <;> rfl

theorem document_toTable {t : Table} (h : n.toTable = .ok t) : t.document = n.document := by
  obtain rfl := toTable_eq_ok.mp h
  rfl

theorem document_toQuery {q : Query} (h : n.toQuery = .ok q) : q.document = n.document := by
  rcases toQuery_eq_ok.mp h with rfl | rfl <;> rfl

theorem document_toFromTable {t : FromTable} (h : n.toFromTable = .ok t) :
    t.document = n.sourceDocument := by
  rcases toFromTable_eq_ok.mp h with rfl | ⟨t, rfl, rfl⟩ <;> rfl

theorem document_toJoinClause {j : JoinClause} (h : n.toJoinClause = .ok j) :
    j.document = n.document := by
  obtain rfl := toJoinClause_eq_ok.mp h
  rfl

theorem document_toColumnDef {c : ColumnDef} (h : n.toColumnDef = .ok c) :
    c.document = n.document := by
  obtain rfl := toColumnDef_eq_ok.mp h
  rfl

theorem document_toPrimaryKey {k : PrimaryKey} (h : n.toPrimaryKey = .ok k) :
    k.document = n.document := by
  obtain rfl := toPrimaryKey_eq_ok.mp h
  rfl

theorem document_toResultColumn {c : ResultColumn} (h : n.toResultColumn = .ok c) :
    c.document = n.columnDocument := by
  rcases toResultColumn_eq_ok.mp h with rfl | ⟨e, rfl, rfl⟩ <;> rfl

theorem document_toOrderBy {o : OrderBy} (h : n.toOrderBy = .ok o) : o.document = n.document := by
  obtain rfl := toOrderBy_eq_ok.mp h
  rfl

theorem document_toGroupBy {g : GroupBy} (h : n.toGroupBy = .ok g) : g.document = n.document := by
  obtain rfl := toGroupBy_eq_ok.mp h
  rfl

theorem document_toLimit {l : Limit} (h : n.toLimit = .ok l) : l.document = n.document := by
  obtain rfl := toLimit_eq_ok.mp h
  rfl

end Node

/-! ### Members that are read -/

/-- What a node has under a key is the last of its fields that has the key, or its tag. -/
theorem member?_tagged {key : String} {kind : Kind} {groups : List (List (String × Json))}
    {value : Option Json}
    (h : (Keyed.last? key groups.flatten).or
      (if "classname" = key then some (.string kind.tag) else none) = value) :
    (tagged kind groups).member? key = value := by
  rw [tagged, Json.ofMembers, Json.member?, Keyed.find?_ofList, Keyed.last?]
  exact h

/-- A list that is not empty becomes one that is not empty. -/
theorem EachBecomes.ne_nil {one : Json → Json → Prop} {v : Json} {outs : List Json}
    (h : EachBecomes one v (.array outs)) (hv : v ≠ .array []) : outs ≠ [] := by
  obtain ⟨items, outs', rfl, heq, hall⟩ := h
  obtain rfl := Json.array.inj heq
  rintro rfl
  cases hall
  exact hv rfl

/-- What a child is converted to is written as the node that it is revived to. -/
theorem Fields.becomes {r : Registry} {α : Type} {as : Node → Except Error α} {document : α → Json}
    {write : Node → Json} {v : Json} {a : α} (has : ∀ {n a}, as n = .ok a → document a = write n)
    (h : ((r.reading v).outcome >>= as) = .ok a) : r.Becomes write v (document a) := by
  obtain ⟨n, hn, ha⟩ := bind_eq_ok.mp h
  exact ⟨n, hn, has ha⟩

/-- The fields are those of an object with the given members, all of whose parts are revived. -/
def Fields.Reads (f : Fields) (r : Registry) (members : List (String × Json)) : Prop :=
  f.members = r.memberReadings members

/-- Under the key of a child, a document has what is given there. -/
def Registry.Keeps (members : List (String × Json)) (out : Json)
    (child : String × (Json → Json → Prop)) : Prop :=
  ∀ v, given? child.1 members = some v → v ≠ .array [] →
    ∃ w, out.member? child.1 = some w ∧ child.2 v w

/-- A document has all children of a kind that members give. -/
def Kind.KeepsChildren (r : Registry) (members : List (String × Json)) (out : Json)
    (k : Kind) : Prop :=
  ∀ child ∈ k.children r, Registry.Keeps members out child

namespace Fields.Reads

variable {f : Fields} {r : Registry} {members : List (String × Json)} {key : String} {out : Json}
  {α : Type}

theorem get? (hf : f.Reads r members) (key : String) :
    f.get? key = (given? key members).map r.reading := by
  rw [Fields.get?, hf, Registry.find?_memberReadings, given?]
  cases Keyed.find? key members with
  | none => rfl
  | some v => cases h : v.isNull <;> simp [Option.filter, h]

theorem text? (hf : f.Reads r members) {text : Option String} (h : f.text? key = .ok text) :
    given? key members = text.map .string := by
  rw [Fields.text?, hf.get?] at h
  cases hv : given? key members with
  | none =>
    rw [hv] at h
    obtain rfl := Except.ok.inj h
    rfl
  | some v =>
    simp only [hv, Option.map_some, Registry.source_reading] at h
    split at h <;> cases h
    rfl

theorem text (hf : f.Reads r members) {text : String} (h : f.text key = .ok text) :
    Keyed.find? key members = some (.string text) := by
  obtain ⟨text?, ht, h⟩ := bind_eq_ok.mp h
  have hgiven := hf.text? ht
  split at h <;> cases h
  exact (Option.filter_eq_some_iff.mp hgiven).1

theorem flag (hf : f.Reads r members) {b : Bool} (h : f.flag key = .ok b) :
    b = true ↔ Keyed.find? key members = some (.bool true) := by
  have hgiven : given? key members = some (.bool true) ↔
      Keyed.find? key members = some (.bool true) :=
    Option.filter_eq_some_iff.trans (and_iff_left rfl)
  rw [Fields.flag, hf.get?] at h
  rw [← hgiven]
  cases hv : given? key members with
  | none =>
    rw [hv] at h
    obtain rfl := Except.ok.inj h
    exact iff_of_false Bool.false_ne_true fun hsome => by cases hsome
  | some v =>
    simp only [hv, Option.map_some, Registry.source_reading] at h
    split at h <;> cases h
    rw [Option.some.injEq, Json.bool.injEq]

theorem raw (hf : f.Reads r members) (key : String) :
    f.raw key = (Keyed.find? key members).getD .null := by
  rw [Fields.raw, hf, Registry.find?_memberReadings]
  cases Keyed.find? key members with
  | none => rfl
  | some v => exact r.source_reading v

/-! ### One child -/

theorem get (hf : f.Reads r members) {x : Reading} (h : f.get key = .ok x) :
    ∃ v, given? key members = some v ∧ x = r.reading v := by
  rw [get_eq_ok, hf.get?, Option.map_eq_some_iff] at h
  obtain ⟨v, hv, rfl⟩ := h
  exact ⟨v, hv, rfl⟩

/-- A child that has to be present, converted by `as`. -/
theorem keeps_get (hf : f.Reads r members) {as : Node → Except Error α} {a : α} {x : Reading}
    {document : α → Json} (h : f.get key = .ok x) (hx : (x.outcome >>= as) = .ok a)
    (has : ∀ {n a}, as n = .ok a → document a = n.document)
    (hout : out.member? key = some (document a)) :
    Registry.Keeps members out (key, r.NodeBecomes) := by
  intro v hv _
  obtain ⟨v', hv', rfl⟩ := hf.get h
  obtain rfl := Option.some.inj (hv.symm.trans hv')
  exact ⟨document a, hout, becomes has hx⟩

theorem node? (hf : f.Reads r members) {as : Node → Except Error α} {a? : Option α}
    (h : f.node? key as = .ok a?) {v : Json} (hv : given? key members = some v) :
    ∃ a, a? = some a ∧ ((r.reading v).outcome >>= as) = .ok a := by
  rw [Fields.node?, hf.get?, hv] at h
  obtain ⟨n, hn, h⟩ := bind_eq_ok.mp h
  obtain ⟨a, ha, h⟩ := bind_eq_ok.mp h
  exact ⟨a, (Except.ok.inj h).symm, bind_eq_ok.mpr ⟨n, hn, ha⟩⟩

/-- A child that may be absent. -/
theorem keeps_node? (hf : f.Reads r members) {as : Node → Except Error α} {a? : Option α}
    {document : α → Json} (h : f.node? key as = .ok a?)
    (has : ∀ {n a}, as n = .ok a → document a = n.document)
    (hout : out.member? key = a?.map document) :
    Registry.Keeps members out (key, r.NodeBecomes) := by
  intro v hv _
  obtain ⟨a, rfl, ha⟩ := hf.node? h hv
  exact ⟨document a, hout, becomes has ha⟩

theorem keeps_expr? (hf : f.Reads r members) {e? : Option Expr} (h : f.expr? key = .ok e?)
    (hout : out.member? key = e?.map Expr.document) :
    Registry.Keeps members out (key, r.NodeBecomes) :=
  hf.keeps_node? h Node.document_toExpr hout

/-- The expression in a slot is null exactly if it is absent. -/
theorem slotBecomes (hf : f.Reads r members) {e : Expr} (h : f.slot key = .ok e) :
    r.SlotBecomes key members e.document := by
  obtain ⟨e?, he, rfl⟩ := slot_eq_ok.mp h
  rw [Registry.SlotBecomes]
  cases hv : given? key members with
  | none =>
    rw [Fields.expr?, Fields.node?, hf.get?, hv] at he
    obtain rfl := Except.ok.inj he
    rfl
  | some v =>
    obtain ⟨e, rfl, hexpr⟩ := hf.node? he hv
    exact becomes Node.document_toExpr hexpr

theorem keeps_slot (hf : f.Reads r members) {e : Expr} (h : f.slot key = .ok e)
    (hout : out.member? key = some e.document) :
    Registry.Keeps members out (key, r.NodeBecomes) := by
  intro v hv _
  have hslot := hf.slotBecomes h
  simp only [Registry.SlotBecomes, hv] at hslot
  exact ⟨e.document, hout, hslot⟩

/-! ### Lists of children -/

theorem list (hf : f.Reads r members) {items : List Reading} (h : f.list key = .ok items) {v : Json}
    (hv : given? key members = some v) : ∃ vs, v = .array vs ∧ items = vs.map r.reading := by
  rw [Fields.list, hf.get?, hv] at h
  simp only [Option.map_some, Registry.source_reading] at h
  split at h <;> cases h
  exact ⟨_, rfl, r.readings_eq_map _⟩

/-- The items of a list are converted one by one. -/
theorem eachBecomes (hf : f.Reads r members) {one : Reading → Except Error α}
    {items : List Reading} {results : List α} {document : α → Json} {rel : Json → Json → Prop}
    {v : Json} (h : f.list key = .ok items) (hresults : convert one items = .ok results)
    (hone : ∀ v a, one (r.reading v) = .ok a → rel v (document a))
    (hv : given? key members = some v) :
    EachBecomes rel v (.array (results.map document)) := by
  obtain ⟨vs, rfl, rfl⟩ := hf.list h hv
  have hall := convert_eq_ok.mp hresults
  rw [List.forall₂_map_left_iff] at hall
  exact ⟨vs, _, rfl, rfl, List.forall₂_map_right_iff.mpr (hall.imp hone)⟩

theorem keeps_list (hf : f.Reads r members) {one : Reading → Except Error α}
    {items : List Reading} {results : List α} {document : α → Json} {rel : Json → Json → Prop}
    (h : f.list key = .ok items) (hresults : convert one items = .ok results)
    (hone : ∀ v a, one (r.reading v) = .ok a → rel v (document a))
    (hout : out.member? key =
      if results.map document = [] then none else some (.array (results.map document))) :
    Registry.Keeps members out (key, EachBecomes rel) := by
  intro v hv hne
  have heach := hf.eachBecomes h hresults hone hv
  rw [if_neg (heach.ne_nil hne)] at hout
  exact ⟨_, hout, heach⟩

theorem keeps_nodes (hf : f.Reads r members) {as : Node → Except Error α} {items : List α}
    {document : α → Json} {write : Node → Json} (h : f.nodes key as = .ok items)
    (has : ∀ {n a}, as n = .ok a → document a = write n)
    (hout : out.member? key =
      if items.map document = [] then none else some (.array (items.map document))) :
    Registry.Keeps members out (key, EachBecomes (r.Becomes write)) := by
  obtain ⟨readings, hlist, hconvert⟩ := bind_eq_ok.mp h
  exact hf.keeps_list hlist hconvert (fun v a => becomes has) hout

theorem keeps_exprs (hf : f.Reads r members) {es : List Expr} (h : f.exprs key = .ok es)
    (hout : out.member? key =
      if es.map Expr.document = [] then none else some (.array (es.map Expr.document))) :
    Registry.Keeps members out (key, EachBecomes r.NodeBecomes) :=
  hf.keeps_nodes h Node.document_toExpr hout

theorem keeps_strings (hf : f.Reads r members) {texts : List String}
    (h : f.strings key = .ok texts)
    (hout : out.member? key =
      if texts.map Json.string = [] then none else some (.array (texts.map .string))) :
    Registry.Keeps members out (key, Eq) := by
  obtain ⟨readings, hlist, hconvert⟩ := bind_eq_ok.mp h
  have hkeeps : Registry.Keeps members out (key, EachBecomes Eq) := by
    refine hf.keeps_list hlist hconvert (fun v a ha => ?_) hout
    simp only [Registry.source_reading] at ha
    split at ha <;> cases ha
    rfl
  intro v hv hne
  obtain ⟨w, hw, items, outs, rfl, rfl, hall⟩ := hkeeps v hv hne
  exact ⟨_, hw, congrArg Json.array (List.forall₂_eq_eq_eq ▸ hall)⟩

/-! ### Expressions -/

theorem toUpper_of_normalizeOperator {d : Dialect} {operator kept : String}
    (h : normalizeOperator d operator = .ok kept) : operator.toUpper = kept := by
  rw [normalizeOperator] at h
  split at h <;> cases h
  rfl

/-- The right side is kept unless the operator is `IS`. -/
theorem binary (hf : f.Reads r members) {d : Dialect} {e : Expr} (h : f.binary d = .ok e) :
    ∀ child ∈ Kind.binary.children r, ¬Kind.binary.Supersedes members child.1 →
      Registry.Keeps members e.document child := by
  obtain ⟨text, htext, operator, hop, left, hl, -, right, hr, -, negated, -, -, rfl⟩ :=
    binary_eq_ok.mp h
  simp only [Kind.children, List.forall_mem_cons]
  refine ⟨fun _ => hf.keeps_slot hl (member?_tagged (by simp)), fun hkept => ?_,
    List.forall_mem_nil _⟩
  obtain ⟨his, -⟩ | ⟨-, hr⟩ := hr
  · exact absurd ⟨rfl, text, hf.text htext, his ▸ toUpper_of_normalizeOperator hop⟩ hkept
  · exact hf.keeps_slot hr (member?_tagged (by simp))

theorem between (hf : f.Reads r members) {e : Expr} (h : f.between = .ok e) :
    Kind.between.KeepsChildren r members e.document := by
  obtain ⟨left, hl, start, hs, stop, he, negated, -, rfl⟩ := between_eq_ok.mp h
  simp only [Kind.KeepsChildren, Kind.children, List.forall_mem_cons]
  refine ⟨hf.keeps_slot hl ?_, hf.keeps_slot hs ?_, hf.keeps_slot he ?_, List.forall_mem_nil _⟩ <;>
    exact member?_tagged (by simp)

theorem oneOf (hf : f.Reads r members) {e : Expr} (h : f.oneOf = .ok e) :
    Kind.oneOf.KeepsChildren r members e.document := by
  obtain ⟨left, hl, right, hr, -, negated, -, rfl⟩ := oneOf_eq_ok.mp h
  simp only [Kind.KeepsChildren, Kind.children, List.forall_mem_cons]
  refine ⟨hf.keeps_slot hl ?_, hf.keeps_slot hr ?_, List.forall_mem_nil _⟩ <;>
    exact member?_tagged (by simp)

theorem nullTest (hf : f.Reads r members) {e : Expr} (h : f.nullTest = .ok e) :
    Kind.nullTest.KeepsChildren r members e.document := by
  obtain ⟨left, hl, negated, -, rfl⟩ := nullTest_eq_ok.mp h
  exact List.forall_mem_singleton.mpr (hf.keeps_slot hl (member?_tagged (by simp)))

theorem existence (hf : f.Reads r members) {e : Expr} (h : f.existence = .ok e) :
    Kind.existence.KeepsChildren r members e.document := by
  obtain ⟨x, hx, q, hq, negated, -, rfl⟩ := existence_eq_ok.mp h
  refine List.forall_mem_singleton.mpr (hf.keeps_get hx hq Node.document_toQuery ?_)
  exact member?_tagged (by simp)

theorem armBecomes {v : Json} {arm : CaseArm} (h : caseArm (r.reading v) = .ok arm) :
    r.ArmBecomes v arm.document := by
  obtain ⟨items, hv, condition, hc, result, hr, rfl⟩ := caseArm_eq_ok.mp h
  obtain rfl : v = .object items := (r.source_reading v).symm.trans hv
  have hf : Reads ⟨.caseOf, (r.reading (.object items)).members⟩ r items := rfl
  exact ⟨items, _, _, rfl, hf.slotBecomes hc, hf.slotBecomes hr, rfl⟩

theorem caseOf (hf : f.Reads r members) {e : Expr} (h : f.caseOf = .ok e) :
    Kind.caseOf.KeepsChildren r members e.document := by
  obtain ⟨readings, hlist, arms, harms, subject, hs, otherwise, ho, rfl⟩ := caseOf_eq_ok.mp h
  simp only [Kind.KeepsChildren, Kind.children, List.forall_mem_cons]
  refine ⟨hf.keeps_expr? hs ?_, hf.keeps_list hlist harms (fun _ _ => armBecomes) ?_,
    hf.keeps_expr? ho ?_, List.forall_mem_nil _⟩ <;> exact member?_tagged (by simp)

theorem function (hf : f.Reads r members) {e : Expr} (h : f.function = .ok e) :
    Kind.function.KeepsChildren r members e.document := by
  obtain ⟨text, -, name, -, parameters, hp, distinct, -, rfl⟩ := function_eq_ok.mp h
  exact List.forall_mem_singleton.mpr (hf.keeps_exprs hp (member?_tagged (by simp)))

theorem math (hf : f.Reads r members) {e : Expr} (h : f.math = .ok e) :
    Kind.math.KeepsChildren r members e.document := by
  obtain ⟨text, -, operator, -, operands, ho, rfl⟩ := math_eq_ok.mp h
  exact List.forall_mem_singleton.mpr (hf.keeps_exprs ho (member?_tagged (by simp)))

theorem group (hf : f.Reads r members) {e : Expr} (h : f.group = .ok e) :
    Kind.group.KeepsChildren r members e.document := by
  obtain ⟨text, -, operator, -, items, hi, rfl⟩ := group_eq_ok.mp h
  exact List.forall_mem_singleton.mpr (hf.keeps_exprs hi (member?_tagged (by simp)))

/-! ### Tables and joins -/

theorem queryTable (hf : f.Reads r members) {t : Table} (h : f.queryTable = .ok t) :
    Kind.queryTable.KeepsChildren r members t.document := by
  obtain ⟨label, -, x, hx, q, hq, rfl⟩ := queryTable_eq_ok.mp h
  refine List.forall_mem_singleton.mpr (hf.keeps_get hx hq Node.document_toQuery ?_)
  exact member?_tagged (by simp)

theorem remoteTable (hf : f.Reads r members) {t : Table} (h : f.remoteTable = .ok t) :
    Kind.remoteTable.KeepsChildren r members t.document := by
  obtain ⟨label, -, x, -, columns, hc, rfl⟩ := remoteTable_eq_ok.mp h
  refine List.forall_mem_singleton.mpr (hf.keeps_nodes hc Node.document_toColumnDef ?_)
  exact member?_tagged (by simp)

/-- One condition stays as it is, and several become a group. -/
theorem keeps_conditions (hf : f.Reads r members) {operator : JoinOperator} {table : Table}
    {cs : List Expr} {j : JoinClause} (hcs : f.conditions = .ok cs)
    (h : JoinClause.ofConditions operator table cs = .ok j) :
    Registry.Keeps members j.document ("$on", r.ConditionBecomes) := by
  intro v hv hne
  obtain ⟨-, h⟩ := seq_eq_ok.mp h
  obtain rfl := Except.ok.inj h
  rw [Fields.conditions, hf.get?, hv] at hcs
  simp only [Option.map_some, Registry.source_reading] at hcs
  split at hcs
  · obtain ⟨readings, hlist, hconvert⟩ := bind_eq_ok.mp hcs
    have heach := hf.eachBecomes hlist hconvert
      (fun _ _ => becomes Node.document_toExpr) hv
    cases cs with
    | nil => exact absurd rfl (heach.ne_nil hne)
    | cons c others =>
      cases others with
      | nil => exact ⟨c.document, member?_tagged (by simp), .inr ⟨_, heach, .inl rfl⟩⟩
      | cons c' rest =>
        refine ⟨(Expr.group .and (c :: c' :: rest)).document, member?_tagged (by simp),
          .inr ⟨_, heach, .inr ⟨by simp, ?_⟩⟩⟩
        rw [Expr.document, documents_eq_map]
        rfl
  · obtain ⟨e, he, hcs⟩ := bind_eq_ok.mp hcs
    obtain rfl := Except.ok.inj hcs
    exact ⟨e.document, member?_tagged (by simp), .inl (becomes Node.document_toExpr he)⟩

theorem joinClause (hf : f.Reads r members) {j : JoinClause} (h : f.joinClause = .ok j) :
    Kind.joinClause.KeepsChildren r members j.document := by
  obtain ⟨text?, -, operator, -, x, hx, cs, hcs, table, ht, h⟩ := joinClause_eq_ok.mp h
  simp only [Kind.KeepsChildren, Kind.children, List.forall_mem_cons]
  refine ⟨hf.keeps_get hx ht Node.document_toTable ?_, hf.keeps_conditions hcs h,
    List.forall_mem_nil _⟩
  obtain ⟨-, h⟩ := seq_eq_ok.mp h
  obtain rfl := Except.ok.inj h
  exact member?_tagged (by simp)

theorem fromTable (hf : f.Reads r members) {t : FromTable} (h : f.fromTable = .ok t) :
    Kind.fromTable.KeepsChildren r members t.document := by
  obtain ⟨x, hx, joins, hj, table, ht, rfl⟩ := fromTable_eq_ok.mp h
  simp only [Kind.KeepsChildren, Kind.children, List.forall_mem_cons]
  refine ⟨hf.keeps_get hx ht Node.document_toTable ?_,
    hf.keeps_nodes hj Node.document_toJoinClause ?_, List.forall_mem_nil _⟩ <;>
    exact member?_tagged (by simp)

/-! ### Parts of queries -/

theorem resultColumn (hf : f.Reads r members) {c : ResultColumn} (h : f.resultColumn = .ok c) :
    Kind.resultColumn.KeepsChildren r members c.document := by
  obtain ⟨e, he, label, -, rfl⟩ := resultColumn_eq_ok.mp h
  exact List.forall_mem_singleton.mpr (hf.keeps_slot he (member?_tagged (by simp)))

theorem orderBy (hf : f.Reads r members) {o : OrderBy} (h : f.orderBy = .ok o) :
    Kind.orderBy.KeepsChildren r members o.document := by
  obtain ⟨text?, -, direction, -, e, he, rfl⟩ := orderBy_eq_ok.mp h
  exact List.forall_mem_singleton.mpr (hf.keeps_slot he (member?_tagged (by simp)))

theorem groupBy (hf : f.Reads r members) {g : GroupBy} (h : f.groupBy = .ok g) :
    Kind.groupBy.KeepsChildren r members g.document := by
  obtain ⟨es, hes, having, hh, rfl⟩ := groupBy_eq_ok.mp h
  simp only [Kind.KeepsChildren, Kind.children, List.forall_mem_cons]
  refine ⟨hf.keeps_exprs hes ?_, hf.keeps_expr? hh ?_, List.forall_mem_nil _⟩ <;>
    exact member?_tagged (by simp)

theorem query (hf : f.Reads r members) {q : Query} (h : f.query = .ok q) :
    Kind.query.KeepsChildren r members q.document := by
  obtain ⟨distinct, -, columns, hc, sources, hs, condition, hw, groupBy, hg, order, ho, limit, hl,
    rfl⟩ := query_eq_ok.mp h
  simp only [Kind.KeepsChildren, Kind.children, List.forall_mem_cons]
  refine ⟨hf.keeps_nodes hc Node.document_toResultColumn ?_,
    hf.keeps_nodes hs Node.document_toFromTable ?_, hf.keeps_expr? hw ?_,
    hf.keeps_node? hg Node.document_toGroupBy ?_, hf.keeps_nodes ho Node.document_toOrderBy ?_,
    hf.keeps_node? hl Node.document_toLimit ?_, List.forall_mem_nil _⟩ <;>
    exact member?_tagged (by simp)

/-! ### Changes of data -/

theorem rowBecomes {v : Json} {es : List Expr} (h : row (r.reading v) = .ok es) :
    EachBecomes r.NodeBecomes v (.array (documents es)) := by
  obtain ⟨items, hv, h⟩ := row_eq_ok.mp h
  obtain rfl : v = .array items := (r.source_reading v).symm.trans hv
  have hitems : (r.reading (.array items)).items = items.map r.reading := r.readings_eq_map items
  rw [hitems] at h
  have hall := convert_eq_ok.mp h
  rw [List.forall₂_map_left_iff] at hall
  refine ⟨items, _, rfl, rfl, ?_⟩
  rw [documents_eq_map, List.forall₂_map_right_iff]
  exact hall.imp fun v e => becomes Node.document_toExpr

/-- The rows are kept unless there is a query. -/
theorem insertion (hf : f.Reads r members) {i : Insertion} (h : f.insertion = .ok i) :
    ∀ child ∈ Kind.insertion.children r, ¬Kind.insertion.Supersedes members child.1 →
      Registry.Keeps members i.document child := by
  obtain ⟨source, hs, schema, -, name, -, columns, hc, -, rfl⟩ := insertion_eq_ok.mp h
  simp only [Kind.children, List.forall_mem_cons]
  obtain ⟨x, hx, q, hq, rfl⟩ | ⟨hnone, readings, hlist, rows, hrows, rfl⟩ :=
    insertionSource_eq_ok.mp hs
  · rw [hf.get?, Option.map_eq_some_iff] at hx
    obtain ⟨v, hquery, rfl⟩ := hx
    refine ⟨fun _ => hf.keeps_strings hc ?_, fun _ v' hv' _ => ⟨q.document, ?_, ?_⟩,
      fun hkept => ?_, List.forall_mem_nil _⟩
    · exact member?_tagged (by simp [InsertionSource.fields])
    · exact member?_tagged (by simp [InsertionSource.fields])
    · obtain rfl := Option.some.inj (hquery.symm.trans hv')
      exact becomes Node.document_toQuery hq
    · exact absurd ⟨rfl, by rw [hquery]; rfl⟩ hkept
  · rw [hf.get?, Option.map_eq_none_iff] at hnone
    refine ⟨fun _ => hf.keeps_strings hc ?_, fun _ v hv => ?_,
      fun _ => hf.keeps_list hlist hrows (fun _ _ => rowBecomes) ?_, List.forall_mem_nil _⟩
    · exact member?_tagged (by simp [InsertionSource.fields])
    · cases hnone.symm.trans hv
    · exact member?_tagged (by simp [InsertionSource.fields])

theorem assignmentBecomes {v : Json} {a : String × Expr}
    (h : assignment (r.reading v) = .ok a) : r.AssignmentBecomes v (assignmentDocument a) := by
  obtain ⟨items, hv, column, hc, e, he, rfl⟩ := assignment_eq_ok.mp h
  obtain rfl : v = .object items := (r.source_reading v).symm.trans hv
  have hf : Reads ⟨.update, (r.reading (.object items)).members⟩ r items := rfl
  exact ⟨items, column, _, rfl, hf.text hc, hf.slotBecomes he, rfl⟩

theorem update (hf : f.Reads r members) {u : Update} (h : f.update = .ok u) :
    Kind.update.KeepsChildren r members u.document := by
  obtain ⟨readings, hlist, assignments, ha, schema, -, name, -, condition, hw,
    rfl⟩ := update_eq_ok.mp h
  simp only [Kind.KeepsChildren, Kind.children, List.forall_mem_cons]
  refine ⟨hf.keeps_list hlist ha (fun _ _ => assignmentBecomes) ?_, hf.keeps_expr? hw ?_,
    List.forall_mem_nil _⟩ <;> exact member?_tagged (by simp)

theorem deletion (hf : f.Reads r members) {x : Deletion} (h : f.deletion = .ok x) :
    Kind.deletion.KeepsChildren r members x.document := by
  obtain ⟨database, -, name, -, condition, hw, rfl⟩ := deletion_eq_ok.mp h
  exact List.forall_mem_singleton.mpr (hf.keeps_expr? hw (member?_tagged (by simp)))

/-! ### Definitions -/

theorem primaryKey (hf : f.Reads r members) {k : PrimaryKey} (h : f.primaryKey = .ok k) :
    Kind.primaryKey.KeepsChildren r members k.document := by
  obtain ⟨name, -, columns, hc, rfl⟩ := primaryKey_eq_ok.mp h
  exact List.forall_mem_singleton.mpr (hf.keeps_strings hc (member?_tagged (by simp)))

theorem createTable (hf : f.Reads r members) {t : CreateTable} (h : f.createTable = .ok t) :
    Kind.createTable.KeepsChildren r members t.document := by
  obtain ⟨columns, hc, constraints, hk, query, hq, schema, -, name, -, ifNotExists, -, -,
    rfl⟩ := createTable_eq_ok.mp h
  simp only [Kind.KeepsChildren, Kind.children, List.forall_mem_cons]
  refine ⟨hf.keeps_nodes hc Node.document_toColumnDef ?_,
    hf.keeps_nodes hk Node.document_toPrimaryKey ?_,
    hf.keeps_node? hq Node.document_toQuery ?_, List.forall_mem_nil _⟩ <;>
    exact member?_tagged (by simp)

/-! ### Nodes of any kind -/

/-- A node keeps the children of the members that it is put together from. -/
theorem construct (hf : f.Reads r members) {d : Dialect} {n : Node} (h : f.construct d = .ok n) :
    ∀ child ∈ f.kind.children r, ¬f.kind.Supersedes members child.1 →
      Registry.Keeps members n.document child := by
  cases hk : f.kind <;> rw [Fields.construct, hk] at h <;> obtain ⟨_, hx, rfl⟩ := map_eq_ok.mp h
  case binary => exact hf.binary hx
  case insertion => exact hf.insertion hx
  case between => exact fun c hc _ => hf.between hx c hc
  case oneOf => exact fun c hc _ => hf.oneOf hx c hc
  case nullTest => exact fun c hc _ => hf.nullTest hx c hc
  case existence => exact fun c hc _ => hf.existence hx c hc
  case caseOf => exact fun c hc _ => hf.caseOf hx c hc
  case function => exact fun c hc _ => hf.function hx c hc
  case math => exact fun c hc _ => hf.math hx c hc
  case group => exact fun c hc _ => hf.group hx c hc
  case queryTable => exact fun c hc _ => hf.queryTable hx c hc
  case remoteTable => exact fun c hc _ => hf.remoteTable hx c hc
  case fromTable => exact fun c hc _ => hf.fromTable hx c hc
  case joinClause => exact fun c hc _ => hf.joinClause hx c hc
  case resultColumn => exact fun c hc _ => hf.resultColumn hx c hc
  case orderBy => exact fun c hc _ => hf.orderBy hx c hc
  case groupBy => exact fun c hc _ => hf.groupBy hx c hc
  case query => exact fun c hc _ => hf.query hx c hc
  case update => exact fun c hc _ => hf.update hx c hc
  case deletion => exact fun c hc _ => hf.deletion hx c hc
  case primaryKey => exact fun c hc _ => hf.primaryKey hx c hc
  case createTable => exact fun c hc _ => hf.createTable hx c hc
  -- The other kinds have no children.
  all_goals exact List.forall_mem_nil _

end Fields.Reads

namespace Registry

variable {d : Dialect}

/-- Revival does not drop or replace a child: whatever a document of some kind gives under a key
where that kind keeps children is found there again in the document of the revived node, unless
another member stands in its place. -/
theorem children_of_revive {j : Json} {n : Node} (h : (builtin d).revive j = .ok n) :
    ∃ members, ∃ kind : Kind, j = .object members ∧
      Keyed.find? "classname" members = some (.string kind.tag) ∧
      ∀ child ∈ kind.children (builtin d), ¬kind.Supersedes members child.1 →
        ∀ v, given? child.1 members = some v → v ≠ .array [] →
          ∃ w, n.document.member? child.1 = some w ∧ child.2 v w := by
  obtain ⟨members, rfl, hconstruct⟩ := exists_members h
  obtain ⟨kind, ⟨tag, hfind, htag⟩, hconstruct⟩ := exists_tagged_kind hconstruct
  refine ⟨members, kind, rfl, ?_, ?_⟩
  · rw [find?_memberReadings, Option.map_eq_some_iff] at hfind
    obtain ⟨v, hv, rfl⟩ := hfind
    rw [source_reading] at htag
    rw [← htag]
    exact hv
  · have hf : Fields.Reads ⟨kind, (builtin d).memberReadings members⟩ (builtin d) members := rfl
    exact hf.construct hconstruct

/-- A join with a list of conditions, whose table and conditions are kept. -/
theorem children_of_revive_join :
    let condition : Expr := .binary "=" (.ofColumn "id") (.ofColumn "class") false
    let j : Json := .object [
      ("$on", .array [condition.document, condition.document]),
      ("classname", .string "JoinClause"),
      ("table", (Table.named "student").document)]
    let n : Node := .joinClause
      ⟨.inner, .named "student", some (.group .and [condition, condition])⟩
    (builtin .mySQL).revive j = .ok n ∧ ∃ members, ∃ kind : Kind, j = .object members ∧
      Keyed.find? "classname" members = some (.string kind.tag) ∧
      ∀ child ∈ kind.children (builtin .mySQL), ¬kind.Supersedes members child.1 →
        ∀ v, given? child.1 members = some v → v ≠ .array [] →
          ∃ w, n.document.member? child.1 = some w ∧ child.2 v w := by
  intro condition j n
  have h : (builtin .mySQL).revive j = .ok n := by cbv
  exact ⟨h, children_of_revive h⟩

/-- A child is lost if its document is revived to a node with another document than the one found
under the key. -/
theorem not_nodeBecomes {r : Registry} {v w : Json} {n : Node} (h : r.revive v = .ok n)
    (hne : w ≠ n.document) : ¬r.NodeBecomes v w := by
  rintro ⟨n', hn', rfl⟩
  obtain rfl := Except.ok.inj (h.symm.trans hn')
  exact hne rfl

/-- Members that give way to others are lost: the right side of `IS`, which becomes null, and the
rows of an insertion that has a query as well. -/
theorem superseded_children_lost :
    let five : Expr := .value (.natural 5)
    let test : List (String × Json) := [
      ("classname", .string "BinaryExpression"),
      ("left", (Expr.ofColumn "age").document),
      ("operator", .string "IS"),
      ("right", five.document)]
    let q : Query :=
      ⟨false, [.ofExpr (.ofColumn "age")], [.ofTable (.named "student")], none, none, [], none⟩
    let copy : List (String × Json) := [
      ("classname", .string "Insert"),
      ("name", .string "pupil"),
      ("query", q.document),
      ("values", .array [.array [five.document]])]
    (∃ n, (builtin .mySQL).revive (.object test) = .ok n ∧
      ("right", (builtin .mySQL).NodeBecomes) ∈ Kind.binary.children (builtin .mySQL) ∧
      ¬Keeps test n.document ("right", (builtin .mySQL).NodeBecomes)) ∧
    ∃ n, (builtin .mySQL).revive (.object copy) = .ok n ∧
      ∃ rows, ("values", rows) ∈ Kind.insertion.children (builtin .mySQL) ∧
        ¬Keeps copy n.document ("values", rows) := by
  intro five test q copy
  have hfive : (builtin .mySQL).revive five.document = .ok (.expr five) := by cbv
  constructor
  · refine ⟨.expr (.binary "IS" (.ofColumn "age") (.value .null) false), by cbv,
      List.mem_cons_of_mem _ List.mem_cons_self, fun hkeeps => ?_⟩
    obtain ⟨w, hw, hbecomes⟩ := hkeeps five.document rfl (fun h => by cases h)
    refine not_nodeBecomes hfive (fun heq => ?_) hbecomes
    rw [heq] at hw
    exact absurd hw (by cbv; exact fun h => by cases h)
  · refine ⟨.statement (.insertion ⟨none, "pupil", [], .query q⟩), by cbv, _,
      List.mem_cons_of_mem _ (List.mem_cons_of_mem _ List.mem_cons_self), fun hkeeps => ?_⟩
    obtain ⟨w, hw, -⟩ := hkeeps _ rfl (fun h => by cases h)
    rw [show Json.member? "values" _ = none by cbv] at hw
    cases hw

end Registry

end SqlTree
