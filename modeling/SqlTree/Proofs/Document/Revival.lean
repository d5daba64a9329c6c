import SqlTree.Proofs.Document.Canonical
import SqlTree.Proofs.Document.Fields
import SqlTree.Proofs.Document.Spelling

/-!
# Canonical nodes are revived from their documents

For every kind of node, the fields that its document has are those that its constructor asks for,
with the same keys and the same omissions, and the checks that the constructor makes at once are
passed by a node in canonical form. So a node is revived from its document as soon as its parts are,
and by induction on the parts every canonical node is.

## Main definitions

* `Node.revived`: what a node comes back as, and `Node.comesBack`: whether it does as it is.
* `Node.Returns`: a node is revived from its document.

## Main results

* `Node.returns_of_parts`: a node in canonical form returns if its parts do.
* `Node.Canonical.returns`: canonical nodes return.
-/

namespace SqlTree

/-- What a node comes back as: a query used as an expression comes back as a statement. -/
def Node.revived : Node → Node
  | .expr (.query q) => q.node
  | n => n

/-- Whether a node can come back as it is: an unset expression does not come back, and a query used
as an expression does not come back as one. -/
def Node.comesBack : Node → Bool
  | .expr .unknown => false
  | .expr (.query _) => false
  | _ => true

theorem Node.ne_unknown_of_comesBack {n : Node} (h : n.comesBack = true) : n ≠ .expr .unknown := by
  rintro rfl
  exact Bool.false_ne_true h

theorem Node.revived_of_comesBack {n : Node} (h : n.comesBack = true) : n.revived = n := by
  cases n with
  | expr e =>
    cases e with
    | query q => exact absurd h Bool.false_ne_true
    | _ => rfl
  | _ => rfl

variable {d : Dialect}

/-- A node is revived from its document, if it is more than an unset expression. -/
def Node.Returns (d : Dialect) (n : Node) : Prop :=
  n ≠ .expr .unknown → (Registry.builtin d).revive n.document = .ok n.revived

/-! ### Documents of lists -/

@[simp] theorem documents_eq_map (es : List Expr) : documents es = es.map Expr.document := by
  induction es with
  | nil => rfl
  | cons e es ih => rw [documents, ih, List.map_cons]

@[simp] theorem document?_eq_map (e : Option Expr) : document? e = e.map Expr.document := by
  cases e <;> rfl

@[simp] theorem armDocuments_eq_map (arms : List CaseArm) :
    armDocuments arms = arms.map CaseArm.document := by
  induction arms with
  | nil => rfl
  | cons arm arms ih => rw [armDocuments, ih, List.map_cons]

@[simp] theorem joinDocuments_eq_map (joins : List JoinClause) :
    joinDocuments joins = joins.map JoinClause.document := by
  induction joins with
  | nil => rfl
  | cons join joins ih => rw [joinDocuments, ih, List.map_cons]

@[simp] theorem sourceDocuments_eq_map (sources : List FromTable) :
    sourceDocuments sources = sources.map FromTable.document := by
  induction sources with
  | nil => rfl
  | cons source sources ih => rw [sourceDocuments, ih, List.map_cons]

@[simp] theorem columnDocuments_eq_map (columns : List ResultColumn) :
    columnDocuments columns = columns.map ResultColumn.document := by
  induction columns with
  | nil => rfl
  | cons column columns ih => rw [columnDocuments, ih, List.map_cons]

@[simp] theorem orderDocuments_eq_map (order : List OrderBy) :
    orderDocuments order = order.map OrderBy.document := by
  induction order with
  | nil => rfl
  | cons term order ih => rw [orderDocuments, ih, List.map_cons]

@[simp] theorem groupDocument?_eq_map (g : Option GroupBy) :
    groupDocument? g = g.map GroupBy.document := by
  cases g <;> rfl

/-! ### Parts that return -/

namespace Node.Returns

/-- A part that returns is converted to what it has been made of. -/
theorem back {α : Type} {as : Node → Except Error α} {n : Node} {a : α} (h : n.Returns d)
    (hu : n ≠ .expr .unknown) (ha : as n.revived = .ok a) :
    ((Registry.builtin d).revive n.document >>= as) = .ok a := by
  rw [h hu, ok_bind, ha]

theorem isNull {n : Node} (h : n.Returns d) (hu : n ≠ .expr .unknown) :
    n.document.isNull = false := by
  obtain ⟨members, hm, -⟩ := Registry.exists_members (h hu)
  rw [hm]
  rfl

theorem expr {e : Expr} (h : (Node.expr e).Returns d) (hu : e ≠ .unknown) :
    ((Registry.builtin d).revive e.document >>= Node.toExpr) = .ok e :=
  h.back (fun heq => hu (Node.expr.inj heq)) (by cases e <;> rfl)

theorem exprs {es : List Expr} (h : ∀ p ∈ es.map Node.expr, p.Returns d) (hu : .unknown ∉ es) :
    ∀ e ∈ es, ((Registry.builtin d).revive e.document >>= Node.toExpr) = .ok e :=
  fun _ he => (h _ (List.mem_map_of_mem he)).expr fun heq => hu (heq ▸ he)

theorem expr? {e? : Option Expr} (h : ∀ p ∈ slotParts e?, p.Returns d)
    (hu : e? ≠ some .unknown) :
    ∀ e ∈ e?, ((Registry.builtin d).revive e.document >>= Node.toExpr) = .ok e := by
  rintro e ⟨⟩
  exact (h _ (List.mem_singleton_self _)).expr fun heq => hu (by rw [heq])

theorem query {q : Query} (h : q.node.Returns d) :
    ((Registry.builtin d).reading q.document).query = .ok q :=
  h.back nofun rfl

theorem table {t : Table} (h : (Node.table t).Returns d) :
    ((Registry.builtin d).reading t.document).table = .ok t :=
  h.back nofun rfl

end Node.Returns

/-! ### Expressions -/

theorem returns_value (v : Json) : (Node.expr (.value v)).Returns d := by
  intro _
  refine Registry.revive_tagged (by simp) fun f hk hf => ?_
  have hvalue : f.raw "value" = v := hf.raw (by simp)
  simp only [Fields.construct, hk, Fields.value, hvalue]
  rfl

theorem returns_column (table : Option String) (name : String) :
    (Node.expr (.column table name)).Returns d := by
  intro _
  refine Registry.revive_tagged (by simp) fun f hk hf => ?_
  have hname : f.text "column" = .ok name := hf.text (by simp)
  have htable : f.text? "table" = .ok table := hf.text? (by simp)
  simp only [Fields.construct, hk, Fields.column, hname, htable]
  rfl

theorem returns_userVariable (name : String) : (Node.expr (.userVariable name)).Returns d := by
  intro _
  refine Registry.revive_tagged (by simp) fun f hk hf => ?_
  have hname : f.text "name" = .ok name := hf.text (by simp)
  simp only [Fields.construct, hk, Fields.userVariable, hname]
  rfl

theorem returns_binary {operator : String} {left right : Expr} {negated : Bool}
    (hc : (Expr.binary operator left right negated).CanonicalAt d)
    (hl : (Node.expr left).Returns d) (hr : (Node.expr right).Returns d) :
    (Node.expr (.binary operator left right negated)).Returns d := by
  intro _
  obtain ⟨hop, his, hleft, hright, hneg⟩ := hc
  refine Registry.revive_tagged (by simp) fun f hk hf => ?_
  have htext : f.text "operator" = .ok operator := hf.text (by simp)
  have hkept := normalizeOperator_of_mem hop
  have hl' : f.slot "left" = .ok left := hf.slot (by simp) hl.expr
  have hr' : f.slot "right" = .ok right := hf.slot (by simp) hr.expr
  have hnot : f.flag "not" = .ok negated := hf.flag (by simp)
  simp only [Fields.construct, hk, Fields.binary, htext, hkept, hl', hleft, hnot, ok_bind]
  split
  · next h =>
    rw [his h] at hright ⊢
    rw [pure_bind, hright, ok_bind, hneg]
    rfl
  · rw [hr', ok_bind, hright, ok_bind, hneg]
    rfl

theorem returns_between {left start stop : Expr} {negated : Bool}
    (hl : (Node.expr left).Returns d) (hs : (Node.expr start).Returns d)
    (he : (Node.expr stop).Returns d) :
    (Node.expr (.between left start stop negated)).Returns d := by
  intro _
  refine Registry.revive_tagged (by simp) fun f hk hf => ?_
  have hl' : f.slot "left" = .ok left := hf.slot (by simp) hl.expr
  have hs' : f.slot "start" = .ok start := hf.slot (by simp) hs.expr
  have he' : f.slot "end" = .ok stop := hf.slot (by simp) he.expr
  have hnot : f.flag "not" = .ok negated := hf.flag (by simp)
  simp only [Fields.construct, hk, Fields.between, hl', hs', he', hnot]
  rfl

theorem returns_oneOf {left right : Expr} {negated : Bool} (hc : checkList right = .ok ())
    (hl : (Node.expr left).Returns d) (hr : (Node.expr right).Returns d) :
    (Node.expr (.oneOf left right negated)).Returns d := by
  intro _
  refine Registry.revive_tagged (by simp) fun f hk hf => ?_
  have hl' : f.slot "left" = .ok left := hf.slot (by simp) hl.expr
  have hr' : f.slot "right" = .ok right := hf.slot (by simp) hr.expr
  have hnot : f.flag "not" = .ok negated := hf.flag (by simp)
  simp only [Fields.construct, hk, Fields.oneOf, hl', hr', hc, hnot, ok_bind]
  rfl

theorem returns_nullTest {left : Expr} {negated : Bool} (hl : (Node.expr left).Returns d) :
    (Node.expr (.nullTest left negated)).Returns d := by
  intro _
  refine Registry.revive_tagged (by simp) fun f hk hf => ?_
  have hl' : f.slot "left" = .ok left := hf.slot (by simp) hl.expr
  have hnot : f.flag "not" = .ok negated := hf.flag (by simp)
  simp only [Fields.construct, hk, Fields.nullTest, hl', hnot]
  rfl

theorem returns_existence {q : Query} {negated : Bool} (hq : q.node.Returns d) :
    (Node.expr (.existence q negated)).Returns d := by
  intro _
  refine Registry.revive_tagged (by simp) fun f hk hf => ?_
  have hget : f.get "query" = .ok ((Registry.builtin d).reading q.document) :=
    hf.get (by simp) (hq.isNull nofun)
  have hnot : f.flag "not" = .ok negated := hf.flag (by simp)
  simp only [Fields.construct, hk, Fields.existence, hget, hq.query, hnot, ok_bind]
  rfl

/-- A condition and its result are read from an object without a tag. -/
theorem caseArm_eq {condition result : Expr} (hc : (Node.expr condition).Returns d)
    (hr : (Node.expr result).Returns d) :
    Fields.caseArm ((Registry.builtin d).reading (CaseArm.document ⟨condition, result⟩)) =
      .ok ⟨condition, result⟩ := by
  have hf := Fields.holds_ofList .caseOf (Registry.builtin d)
    [("when", condition.document), ("then", result.document)]
  have hwhen : Fields.slot _ "when" = .ok condition := hf.slot (by simp) hc.expr
  have hthen : Fields.slot _ "then" = .ok result := hf.slot (by simp) hr.expr
  have hsource : ((Registry.builtin d).reading (CaseArm.document ⟨condition, result⟩)).source =
      .object (Keyed.ofList [("when", condition.document), ("then", result.document)]) := rfl
  have hmembers : ((Registry.builtin d).reading (CaseArm.document ⟨condition, result⟩)).members =
      (Registry.builtin d).memberReadings
        (Keyed.ofList [("when", condition.document), ("then", result.document)]) := rfl
  rw [Fields.caseArm, hsource]
  simp only [hmembers, hwhen, hthen, ok_bind]
  rfl

theorem returns_caseOf {subject otherwise : Option Expr} {arms : List CaseArm}
    (hs : subject ≠ some .unknown) (ho : otherwise ≠ some .unknown)
    (hp : ∀ p ∈ (Expr.caseOf subject arms otherwise).parts, p.Returns d) :
    (Node.expr (.caseOf subject arms otherwise)).Returns d := by
  intro _
  simp only [Expr.parts, List.mem_append, List.mem_flatMap] at hp
  refine Registry.revive_tagged (by simp) fun f hk hf => ?_
  have hlist : f.list "cases" =
      .ok ((arms.map CaseArm.document).map (Registry.builtin d).reading) := hf.list (by simp)
  have hs' : f.expr? "expression" = .ok subject :=
    hf.expr? (by simp) (Node.Returns.expr? (fun p h => hp p (.inl (.inl h))) hs)
  have ho' : f.expr? "else" = .ok otherwise :=
    hf.expr? (by simp) (Node.Returns.expr? (fun p h => hp p (.inr h)) ho)
  have harms : Fields.convert Fields.caseArm
      ((arms.map CaseArm.document).map (Registry.builtin d).reading) = .ok arms := by
    rw [List.map_map]
    refine Fields.convert_map fun arm harm => ?_
    obtain ⟨condition, result⟩ := arm
    refine caseArm_eq ?_ ?_
    · exact hp _ (.inl (.inr ⟨_, harm, by simp⟩))
    · exact hp _ (.inl (.inr ⟨_, harm, by simp⟩))
  simp only [Fields.construct, hk, Fields.caseOf, hlist, hs', ho', harms, ok_bind]
  rfl

theorem returns_function {name : String} {parameters : List Expr} {distinct : Bool}
    (hn : normalizeFunctionName name = .ok name) (hu : .unknown ∉ parameters)
    (hp : ∀ p ∈ parameters.map Node.expr, p.Returns d) :
    (Node.expr (.function name parameters distinct)).Returns d := by
  intro _
  refine Registry.revive_tagged (by simp) fun f hk hf => ?_
  have hname : f.text "name" = .ok name := hf.text (by simp)
  have hparameters : f.exprs "parameters" = .ok parameters :=
    hf.exprs (by simp) (Node.Returns.exprs hp hu)
  have hdistinct : f.flag "distinct" = .ok distinct := hf.flag (by simp)
  simp only [Fields.construct, hk, Fields.function, hname, hn, hparameters, hdistinct, ok_bind]
  rfl

theorem returns_math {operator : String} {operands : List Expr} (ho : operator ∈ mathOperators)
    (hu : .unknown ∉ operands) (hp : ∀ p ∈ operands.map Node.expr, p.Returns d) :
    (Node.expr (.math operator operands)).Returns d := by
  intro _
  refine Registry.revive_tagged (by simp) fun f hk hf => ?_
  have htext : f.text "operator" = .ok operator := hf.text (by simp)
  have hkept := normalizeMathOperator_of_mem ho
  have hoperands : f.exprs "operands" = .ok operands :=
    hf.exprs (by simp) (Node.Returns.exprs hp hu)
  simp only [Fields.construct, hk, Fields.math, htext, hkept, hoperands, ok_bind]
  rfl

theorem returns_group {operator : GroupOperator} {items : List Expr} (hu : .unknown ∉ items)
    (hp : ∀ p ∈ items.map Node.expr, p.Returns d) :
    (Node.expr (.group operator items)).Returns d := by
  intro _
  refine Registry.revive_tagged (by simp) fun f hk hf => ?_
  have htext : f.text "operator" = .ok operator.text := hf.text (by simp)
  have hitems : f.exprs "expressions" = .ok items :=
    hf.exprs (by simp) (Node.Returns.exprs hp hu)
  simp only [Fields.construct, hk, Fields.group, htext, operator.parse_text, hitems, ok_bind]
  rfl

/-! ### Definitions, tables and joins -/

theorem returns_columnDef {c : ColumnDef}
    (hc : c.primaryKey = true → c.notNull = true ∧ c.defaultValue = .null) :
    (Node.columnDef c).Returns d := by
  intro _
  refine Registry.revive_tagged (by simp) fun f hk hf => ?_
  have hname : f.text "name" = .ok c.name := hf.text (by simp)
  have htype : f.text "type" = .ok c.typeName := hf.text (by simp)
  have hlength : f.natural? "length" = .ok c.length := hf.natural? (by simp)
  have hdefault : f.raw "defaultValue" = c.defaultValue := hf.raw_of_null (by simp)
  have hnotNull : f.flag "notNull" = .ok c.notNull := hf.flag (by simp)
  have hauto : f.flag "autoIncrement" = .ok c.autoIncrement := hf.flag (by simp)
  have hoptions : f.strings "options" = .ok c.options := hf.strings (by simp)
  have hprimary : f.flag "primaryKey" = .ok c.primaryKey := hf.flag (by simp)
  simp only [Fields.construct, hk, Fields.columnDef, hname, htype, hlength, hdefault, hnotNull,
    hauto, hoptions, hprimary, ok_bind]
  obtain ⟨name, typeName, length, primaryKey, defaultValue, notNull, autoIncrement, options⟩ := c
  cases primaryKey with
  | true =>
    obtain ⟨rfl, rfl⟩ := hc rfl
    rfl
  | false => rfl

theorem returns_primaryKey (k : PrimaryKey) : (Node.primaryKey k).Returns d := by
  intro _
  refine Registry.revive_tagged (by simp) fun f hk hf => ?_
  have hname : f.text? "name" = .ok k.name := hf.text? (by simp)
  have hcolumns : f.strings "columns" = .ok k.columns := hf.strings (by simp)
  simp only [Fields.construct, hk, Fields.primaryKey, hname, hcolumns]
  rfl

theorem returns_schemaTable {t : SchemaTable} (hc : t.check = .ok ()) :
    (Node.table (.schema t)).Returns d := by
  intro _
  refine Registry.revive_tagged (by simp) fun f hk hf => ?_
  have hschema : f.text? "schema" = .ok t.schema := hf.text? (by simp)
  have htable : f.text "table" = .ok t.table := hf.text (by simp)
  have hfunction : f.text? "function" = .ok t.function := hf.text? (by simp)
  have hlabel : f.text? "$as" = .ok t.label := hf.text? (by simp)
  simp only [Fields.construct, hk, Fields.schemaTable, hschema, htable, hfunction, hlabel, ok_bind,
    hc]
  rfl

theorem returns_queryTable {q : Query} {label : String}
    (hc : requireLabel .queryTable label = .ok ()) (hq : q.node.Returns d) :
    (Node.table (.query q label)).Returns d := by
  intro _
  refine Registry.revive_tagged (by simp) fun f hk hf => ?_
  have hlabel : f.text? "$as" = .ok (some label) := hf.text? (by simp)
  have hget : f.get "query" = .ok ((Registry.builtin d).reading q.document) :=
    hf.get (by simp) (hq.isNull nofun)
  simp only [Fields.construct, hk, Fields.queryTable, Fields.label, hlabel, ok_bind,
    Option.getD_some, hc, hget, hq.query]
  rfl

theorem returns_remoteTable {config : Json} {columns : List ColumnDef} {label : String}
    (hconfig : config.isNull = false) (hc : requireLabel .remoteTable label = .ok ())
    (hp : ∀ p ∈ columns.map Node.columnDef, p.Returns d) :
    (Node.table (.remote config columns label)).Returns d := by
  intro _
  refine Registry.revive_tagged (by simp) fun f hk hf => ?_
  have hlabel : f.text? "$as" = .ok (some label) := hf.text? (by simp)
  have hget : f.get "requestConfig" = .ok ((Registry.builtin d).reading config) :=
    hf.get (by simp) hconfig
  have hcolumns : f.nodes "columns" Node.toColumnDef = .ok columns :=
    hf.nodes ColumnDef.document (by simp) fun c h =>
      (hp _ (List.mem_map_of_mem h)).back nofun rfl
  simp only [Fields.construct, hk, Fields.remoteTable, Fields.label, hlabel, ok_bind,
    Option.getD_some, hc, hget, hcolumns, Registry.source_reading]
  rfl

/-- One condition is read as a list of itself. -/
theorem conditions_eq {f : Fields} {fields : List (String × Json)} {condition : Option Expr}
    (hf : f.Holds (Registry.builtin d) fields)
    (h : Gives fields "$on" (condition.map Expr.document)) (hu : condition ≠ some .unknown)
    (hp : ∀ p ∈ slotParts condition, p.Returns d) : f.conditions = .ok condition.toList := by
  have hget? := hf.get? h
  cases condition with
  | none =>
    rw [Fields.conditions, hget?]
    rfl
  | some e =>
    have he : (Node.expr e).Returns d := hp _ (List.mem_singleton_self _)
    have hne : e ≠ .unknown := fun heq => hu (by rw [heq])
    obtain ⟨members, hm, -⟩ := Registry.exists_members (he fun heq => hne (Node.expr.inj heq))
    have hread : ((Registry.builtin d).reading e.document).expr = .ok e := he.expr hne
    have hdoc : e.document = .object members := hm
    rw [hdoc] at hread
    rw [Fields.conditions, hget?, Option.map_some, hdoc]
    exact bind_eq_ok.mpr ⟨e, hread, rfl⟩

theorem ofConditions_toList {operator : JoinOperator} {table : Table} {condition : Option Expr}
    (hc : operator.check condition.isSome = .ok ()) :
    JoinClause.ofConditions operator table condition.toList = .ok ⟨operator, table, condition⟩ := by
  cases condition with
  | none => exact bind_eq_ok.mpr ⟨(), hc, rfl⟩
  | some e => exact bind_eq_ok.mpr ⟨(), hc, rfl⟩

theorem returns_joinClause {operator : JoinOperator} {table : Table} {condition : Option Expr}
    (hc : operator.check condition.isSome = .ok ()) (hu : condition ≠ some .unknown)
    (ht : (Node.table table).Returns d) (hp : ∀ p ∈ slotParts condition, p.Returns d) :
    (Node.joinClause ⟨operator, table, condition⟩).Returns d := by
  intro _
  refine Registry.revive_tagged (by simp) fun f hk hf => ?_
  have htext : f.text? "operator" = .ok (some operator.text) := hf.text? (by simp)
  have hget : f.get "table" = .ok ((Registry.builtin d).reading table.document) :=
    hf.get (by simp) (ht.isNull nofun)
  have hconditions : f.conditions = .ok condition.toList := conditions_eq hf (by simp) hu hp
  simp only [Fields.construct, hk, Fields.joinClause, htext, operator.parse_text, hget,
    hconditions, ht.table, ofConditions_toList hc, ok_bind]
  rfl

theorem returns_fromTable {table : Table} {joins : List JoinClause}
    (ht : (Node.table table).Returns d) (hp : ∀ p ∈ joins.map Node.joinClause, p.Returns d) :
    (Node.fromTable ⟨table, joins⟩).Returns d := by
  intro _
  refine Registry.revive_tagged (by simp) fun f hk hf => ?_
  have hget : f.get "table" = .ok ((Registry.builtin d).reading table.document) :=
    hf.get (by simp) (ht.isNull nofun)
  have hjoins : f.nodes "joinClauses" Node.toJoinClause = .ok joins :=
    hf.nodes JoinClause.document (by simp) fun j h =>
      (hp _ (List.mem_map_of_mem h)).back nofun rfl
  simp only [Fields.construct, hk, Fields.fromTable, hget, hjoins, ht.table, ok_bind]
  rfl

/-! ### Parts of queries -/

theorem returns_resultColumn {expression : Expr} {label : Option String}
    (he : (Node.expr expression).Returns d) :
    (Node.resultColumn ⟨expression, label⟩).Returns d := by
  intro _
  refine Registry.revive_tagged (by simp) fun f hk hf => ?_
  have he' : f.slot "expression" = .ok expression := hf.slot (by simp) he.expr
  have hlabel : f.text? "$as" = .ok label := hf.text? (by simp)
  simp only [Fields.construct, hk, Fields.resultColumn, he', hlabel]
  rfl

theorem returns_orderBy {expression : Expr} {direction : SortDirection}
    (he : (Node.expr expression).Returns d) :
    (Node.orderBy ⟨expression, direction⟩).Returns d := by
  intro _
  refine Registry.revive_tagged (by simp) fun f hk hf => ?_
  have he' : f.slot "expression" = .ok expression := hf.slot (by simp) he.expr
  have htext : f.text? "order" = .ok (some direction.text) := hf.text? (by simp)
  simp only [Fields.construct, hk, Fields.orderBy, htext, direction.parse_text, he', ok_bind]
  rfl

theorem returns_groupBy {expressions : List Expr} {having : Option Expr}
    (hu : .unknown ∉ expressions) (hh : having ≠ some .unknown)
    (hp : ∀ p ∈ expressions.map Node.expr ++ slotParts having, p.Returns d) :
    (Node.groupBy ⟨expressions, having⟩).Returns d := by
  intro _
  refine Registry.revive_tagged (by simp) fun f hk hf => ?_
  have hexpressions : f.exprs "expressions" = .ok expressions :=
    hf.exprs (by simp) (Node.Returns.exprs (fun p h => hp p (List.mem_append_left _ h)) hu)
  have hhaving : f.expr? "having" = .ok having :=
    hf.expr? (by simp) (Node.Returns.expr? (fun p h => hp p (List.mem_append_right _ h)) hh)
  simp only [Fields.construct, hk, Fields.groupBy, hexpressions, hhaving]
  rfl

theorem returns_limit (l : Limit) : (Node.limit l).Returns d := by
  intro _
  refine Registry.revive_tagged (by simp) fun f hk hf => ?_
  have hcount : f.natural? "limit" = .ok (some l.count) := hf.natural? (by simp)
  have hoffset : f.natural? "offset" = .ok l.offset := hf.natural? (by simp)
  simp only [Fields.construct, hk, Fields.limit, hcount, hoffset, ok_bind]
  rfl

theorem returns_query {q : Query} (hu : q.condition ≠ some .unknown)
    (hp : ∀ p ∈ q.parts, p.Returns d) :
    (Registry.builtin d).revive q.document = .ok q.node := by
  obtain ⟨distinct, columns, sources, condition, groupBy, order, limit⟩ := q
  refine Registry.revive_tagged (by simp) fun f hk hf => ?_
  have hdistinct : f.flag "distinct" = .ok distinct := hf.flag (by simp)
  have hcolumns : f.nodes "select" Node.toResultColumn = .ok columns :=
    hf.nodes ResultColumn.document (by simp) fun c h =>
      (hp (.resultColumn c) (by simp [Query.parts, h])).back (by simp) rfl
  have hsources : f.nodes "from" Node.toFromTable = .ok sources :=
    hf.nodes FromTable.document (by simp) fun t h =>
      (hp (.fromTable t) (by simp [Query.parts, h])).back (by simp) rfl
  have hcondition : f.expr? "where" = .ok condition :=
    hf.expr? (by simp) (Node.Returns.expr? (fun p h => hp p (by simp [Query.parts, h])) hu)
  have hgroupBy : f.node? "groupBy" Node.toGroupBy = .ok groupBy :=
    hf.node? GroupBy.document (by simp) fun g h =>
      (hp (.groupBy g) (by simp [Query.parts, Option.mem_def.mp h])).back (by simp) rfl
  have horder : f.nodes "order" Node.toOrderBy = .ok order :=
    hf.nodes OrderBy.document (by simp) fun o h =>
      (hp (.orderBy o) (by simp [Query.parts, h])).back (by simp) rfl
  have hlimit : f.node? "limit" Node.toLimit = .ok limit :=
    hf.node? Limit.document (by simp) fun l h =>
      (hp (.limit l) (by simp [Query.parts, Option.mem_def.mp h])).back (by simp) rfl
  simp only [Fields.construct, hk, Fields.query, hdistinct, hcolumns, hsources, hcondition,
    hgroupBy, horder, hlimit, ok_bind]
  rfl

/-! ### Statements -/

/-- A row is read item by item. -/
theorem row_eq {row : List Expr} (hu : .unknown ∉ row)
    (hp : ∀ p ∈ row.map Node.expr, p.Returns d) :
    Fields.row ((Registry.builtin d).reading (.array (documents row))) = .ok row := by
  have hitems : ((Registry.builtin d).reading (.array (documents row))).items =
      (row.map Expr.document).map (Registry.builtin d).reading := by
    rw [documents_eq_map, ← Registry.readings_eq_map]
    rfl
  rw [Fields.row, Registry.source_reading]
  simp only [hitems, List.map_map]
  exact Fields.convert_map (Node.Returns.exprs hp hu)

section

variable {f : Fields} {fields : List (String × Json)}

theorem insertionSource_rows {rs : List (List Expr)} (hf : f.Holds (Registry.builtin d) fields)
    (hquery : Gives fields "query" none)
    (hvalues : Gives fields "values" (if (rs.map fun row => Json.array (documents row)) = [] then none
      else some (.array (rs.map fun row => Json.array (documents row)))))
    (hu : .unknown ∉ rs.flatten) (hp : ∀ p ∈ rs.flatten.map Node.expr, p.Returns d) :
    f.insertionSource = .ok (.rows rs) := by
  have hget? : f.get? "query" = none := hf.get?_absent hquery
  have hlist : f.list "values" = .ok ((rs.map fun row => .array (documents row)).map
      (Registry.builtin d).reading) := hf.list hvalues
  have hrows : Fields.convert Fields.row ((rs.map fun row => .array (documents row)).map
      (Registry.builtin d).reading) = .ok rs := by
    rw [List.map_map]
    refine Fields.convert_map fun row hrow => row_eq (fun h => hu ?_) fun p hmem => hp p ?_
    · exact List.mem_flatten.mpr ⟨row, hrow, h⟩
    · obtain ⟨e, he, rfl⟩ := List.mem_map.mp hmem
      exact List.mem_map_of_mem (List.mem_flatten.mpr ⟨row, hrow, he⟩)
  simp only [Fields.insertionSource, hget?, hlist, hrows, ok_bind]
  rfl

theorem insertionSource_query {q : Query} (hf : f.Holds (Registry.builtin d) fields)
    (hquery : Gives fields "query" (some q.document)) (hq : q.node.Returns d) :
    f.insertionSource = .ok (.query q) := by
  have hget? : f.get? "query" = some ((Registry.builtin d).reading q.document) :=
    hf.get?_present hquery (hq.isNull nofun)
  simp only [Fields.insertionSource, hget?, hq.query, ok_bind]
  rfl

end

theorem returns_insertion {i : Insertion} (hc : i.checkArity = .ok ())
    (hu : .expr .unknown ∉ i.source.parts) (hp : ∀ p ∈ i.source.parts, p.Returns d) :
    (Node.statement (.insertion i)).Returns d := by
  intro _
  obtain ⟨schema, name, columns, source⟩ := i
  refine Registry.revive_tagged (by cases source <;> simp [InsertionSource.fields])
    fun f hk hf => ?_
  have hsource : f.insertionSource = .ok source := by
    cases source with
    | rows rs =>
      refine insertionSource_rows hf ?_ ?_ (fun h => hu (List.mem_map_of_mem h)) hp
      · simp [InsertionSource.fields]
      · simp [InsertionSource.fields]
    | query q =>
      refine insertionSource_query hf ?_ (hp _ (List.mem_singleton_self _))
      simp [InsertionSource.fields]
  have hschema : f.text? "schema" = .ok schema :=
    hf.text? (by cases source <;> simp [InsertionSource.fields])
  have hname : f.text "name" = .ok name :=
    hf.text (by cases source <;> simp [InsertionSource.fields])
  have hcolumns : f.strings "columns" = .ok columns :=
    hf.strings (by cases source <;> simp [InsertionSource.fields])
  simp only [Fields.construct, hk, Fields.insertion, hsource, hschema, hname, hcolumns, hc, ok_bind]
  rfl

/-- An assignment is read from an object without a tag. -/
theorem assignment_eq {a : String × Expr} (ha : (Node.expr a.2).Returns d) :
    Fields.assignment ((Registry.builtin d).reading (assignmentDocument a)) = .ok a := by
  obtain ⟨column, value⟩ := a
  have hf := Fields.holds_ofList .update (Registry.builtin d)
    [("column", .string column), ("value", value.document)]
  have hcolumn : Fields.text _ "column" = .ok column := hf.text (by simp)
  have hvalue : Fields.slot _ "value" = .ok value := hf.slot (by simp) ha.expr
  have hsource : ((Registry.builtin d).reading (assignmentDocument (column, value))).source =
      .object (Keyed.ofList [("column", .string column), ("value", value.document)]) := rfl
  have hmembers : ((Registry.builtin d).reading (assignmentDocument (column, value))).members =
      (Registry.builtin d).memberReadings
        (Keyed.ofList [("column", .string column), ("value", value.document)]) := rfl
  rw [Fields.assignment, hsource]
  simp only [hmembers, hcolumn, hvalue, ok_bind]
  rfl

theorem returns_update {u : Update} (hu : u.condition ≠ some .unknown)
    (hp : ∀ p ∈ (Statement.update u).parts, p.Returns d) :
    (Node.statement (.update u)).Returns d := by
  intro _
  refine Registry.revive_tagged (by simp) fun f hk hf => ?_
  have hlist : f.list "set" =
      .ok ((u.assignments.map assignmentDocument).map (Registry.builtin d).reading) :=
    hf.list (by simp)
  have hassignments : Fields.convert Fields.assignment
      ((u.assignments.map assignmentDocument).map (Registry.builtin d).reading) =
        .ok u.assignments := by
    rw [List.map_map]
    refine Fields.convert_map fun a ha => assignment_eq (hp _ (List.mem_append_left _ ?_))
    exact List.mem_map.mpr ⟨a, ha, rfl⟩
  have hschema : f.text? "schema" = .ok u.schema := hf.text? (by simp)
  have hname : f.text "name" = .ok u.name := hf.text (by simp)
  have hcondition : f.expr? "where" = .ok u.condition :=
    hf.expr? (by simp) (Node.Returns.expr? (fun p h => hp p (List.mem_append_right _ h)) hu)
  simp only [Fields.construct, hk, Fields.update, hlist, hassignments, hschema, hname, hcondition,
    ok_bind]
  rfl

theorem returns_deletion {x : Deletion} (hu : x.condition ≠ some .unknown)
    (hp : ∀ p ∈ slotParts x.condition, p.Returns d) :
    (Node.statement (.deletion x)).Returns d := by
  intro _
  refine Registry.revive_tagged (by simp) fun f hk hf => ?_
  have hdatabase : f.text? "database" = .ok x.database := hf.text? (by simp)
  have hname : f.text "name" = .ok x.name := hf.text (by simp)
  have hcondition : f.expr? "where" = .ok x.condition :=
    hf.expr? (by simp) (Node.Returns.expr? hp hu)
  simp only [Fields.construct, hk, Fields.deletion, hdatabase, hname, hcondition, ok_bind]
  rfl

theorem returns_createTable {t : CreateTable} (hc : t.checkDefinitions = .ok ())
    (hp : ∀ p ∈ (Statement.createTable t).parts, p.Returns d) :
    (Node.statement (.createTable t)).Returns d := by
  intro _
  refine Registry.revive_tagged (by simp) fun f hk hf => ?_
  have hcolumns : f.nodes "columns" Node.toColumnDef = .ok t.columns :=
    hf.nodes ColumnDef.document (by simp) fun c h =>
      (hp (.columnDef c) (by simp [Statement.parts, h])).back (by simp) rfl
  have hconstraints : f.nodes "constraints" Node.toPrimaryKey = .ok t.constraints :=
    hf.nodes PrimaryKey.document (by simp) fun k h =>
      (hp (.primaryKey k) (by simp [Statement.parts, h])).back (by simp) rfl
  have hquery : f.node? "query" Node.toQuery = .ok t.query :=
    hf.node? Query.document (by simp) fun q h =>
      (hp q.node (by simp [Statement.parts, Option.mem_def.mp h])).back (by simp [Query.node]) rfl
  have hschema : f.text? "schema" = .ok t.schema := hf.text? (by simp)
  have hname : f.text "name" = .ok t.name := hf.text (by simp)
  have hif : f.flag "ifNotExists" = .ok t.ifNotExists := hf.flag (by simp)
  simp only [Fields.construct, hk, Fields.createTable, hcolumns, hconstraints, hquery, hschema,
    hname, hif, hc, ok_bind]
  rfl

theorem returns_createSchema (s : CreateSchema) :
    (Node.statement (.createSchema s)).Returns d := by
  intro _
  refine Registry.revive_tagged (by simp) fun f hk hf => ?_
  have hname : f.text "name" = .ok s.name := hf.text (by simp)
  have hif : f.flag "ifNotExists" = .ok s.ifNotExists := hf.flag (by simp)
  simp only [Fields.construct, hk, Fields.createSchema, hname, hif]
  rfl

theorem returns_dropTable (t : DropTable) : (Node.statement (.dropTable t)).Returns d := by
  intro _
  refine Registry.revive_tagged (by simp) fun f hk hf => ?_
  have hschema : f.text? "schema" = .ok t.schema := hf.text? (by simp)
  have hname : f.text "name" = .ok t.name := hf.text (by simp)
  have hif : f.flag "ifExists" = .ok t.ifExists := hf.flag (by simp)
  simp only [Fields.construct, hk, Fields.dropTable, hschema, hname, hif, ok_bind]
  rfl

theorem returns_dropSchema (s : DropSchema) : (Node.statement (.dropSchema s)).Returns d := by
  intro _
  refine Registry.revive_tagged (by simp) fun f hk hf => ?_
  have hname : f.text "name" = .ok s.name := hf.text (by simp)
  have hif : f.flag "ifExists" = .ok s.ifExists := hf.flag (by simp)
  simp only [Fields.construct, hk, Fields.dropSchema, hname, hif]
  rfl

/-! ### Nodes -/

/-- An expression in canonical form returns if its parts do. -/
theorem returns_expr {e : Expr} (hc : e.CanonicalAt d) (hp : ∀ p ∈ e.parts, p.Returns d) :
    (Node.expr e).Returns d := by
  cases e with
  | unknown => exact fun h => absurd rfl h
  | value v => exact returns_value v
  | column table name => exact returns_column table name
  | userVariable name => exact returns_userVariable name
  | binary operator left right negated =>
    exact returns_binary hc (hp _ (by simp [Expr.parts])) (hp _ (by simp [Expr.parts]))
  | between left start stop negated =>
    exact returns_between (hp _ (by simp [Expr.parts])) (hp _ (by simp [Expr.parts]))
      (hp _ (by simp [Expr.parts]))
  | oneOf left right negated =>
    exact returns_oneOf hc (hp _ (by simp [Expr.parts])) (hp _ (by simp [Expr.parts]))
  | nullTest left negated => exact returns_nullTest (hp _ (by simp [Expr.parts]))
  | existence q negated => exact returns_existence (hp _ (by simp [Expr.parts]))
  | caseOf subject arms otherwise => exact returns_caseOf hc.1 hc.2 hp
  | function name parameters distinct => exact returns_function hc.1 hc.2 hp
  | math operator operands => exact returns_math hc.1 hc.2 hp
  | group operator items => exact returns_group hc hp
  | query q => exact fun _ => returns_query hc hp

/-- A table in canonical form returns if its parts do. -/
theorem returns_table {t : Table} (hc : t.CanonicalAt) (hp : ∀ p ∈ t.parts, p.Returns d) :
    (Node.table t).Returns d := by
  cases t with
  | schema t => exact returns_schemaTable hc
  | query q label => exact returns_queryTable hc (hp _ (List.mem_singleton_self _))
  | remote config columns label => exact returns_remoteTable hc.1 hc.2 hp

/-- A statement in canonical form returns if its parts do. -/
theorem returns_statement {s : Statement} (hc : s.CanonicalAt) (hp : ∀ p ∈ s.parts, p.Returns d) :
    (Node.statement s).Returns d := by
  cases s with
  | query q => exact fun _ => returns_query hc hp
  | insertion i => exact returns_insertion hc.1 hc.2 hp
  | update u => exact returns_update hc hp
  | deletion x => exact returns_deletion hc hp
  | createTable t => exact returns_createTable hc hp
  | createSchema s => exact returns_createSchema s
  | dropTable t => exact returns_dropTable t
  | dropSchema s => exact returns_dropSchema s

namespace Node

/-- A node in canonical form returns if its parts do. -/
theorem returns_of_parts {n : Node} (hc : n.CanonicalAt d) (hp : ∀ p ∈ n.parts, p.Returns d) :
    n.Returns d := by
  cases n with
  | expr e => exact returns_expr hc hp
  | table t => exact returns_table hc hp
  | fromTable t =>
    obtain ⟨table, joins⟩ := t
    exact returns_fromTable (hp _ List.mem_cons_self) fun p h => hp p (List.mem_cons_of_mem _ h)
  | joinClause j =>
    obtain ⟨operator, table, condition⟩ := j
    exact returns_joinClause hc.1 hc.2 (hp _ List.mem_cons_self) fun p h =>
      hp p (List.mem_cons_of_mem _ h)
  | columnDef c => exact returns_columnDef hc
  | primaryKey k => exact returns_primaryKey k
  | resultColumn c =>
    obtain ⟨expression, label⟩ := c
    exact returns_resultColumn (hp _ (List.mem_singleton_self _))
  | orderBy o =>
    obtain ⟨expression, direction⟩ := o
    exact returns_orderBy (hp _ (List.mem_singleton_self _))
  | groupBy g =>
    obtain ⟨expressions, having⟩ := g
    exact returns_groupBy hc.1 hc.2 hp
  | limit l => exact returns_limit l
  | statement s => exact returns_statement hc hp

/-- Every canonical node is revived from its document, if it is more than an unset expression. -/
theorem Canonical.returns {n : Node} (h : n.Canonical d) : n.Returns d := by
  induction n using parts_induction with
  | step n ih => exact returns_of_parts h.here fun p hp => ih p hp (h.part hp)

/-- What a node comes back as has the same document. -/
@[simp] theorem document_revived (n : Node) : n.revived.document = n.document := by
  rcases n with e | _
  · cases e <;> rfl
  all_goals rfl

end Node

end SqlTree
