import SqlTree.Proofs.Document.Tags

/-!
# Readings that are put together alike

A node is put together from its fields, and each kind looks up certain keys only. What stands under
them is taken as it stands, as a text or a flag is, or it is itself read as a node, as the condition
and result of a choice, or as an assignment, alone or in lists. So two readings of the same shape
that agree under these keys are put together to the same node. They may be readings of different
documents, and where both fail the errors may differ, since an error quotes the document.

## Main definitions

* `Role`: what an object in a document is read as.
* `Kind.fields`: the keys that a kind looks up.
* `BothGive`: two computations both fail or give values that are related.
* `Reading.Alike`, `Fields.Alike`: two readings agree as far as they are looked at.

## Main results

* `Fields.Alike.construct`: nodes are put together alike from fields that are alike.
-/

namespace SqlTree

/-- What an object in a document is read as. -/
inductive Role where
  | node
  /-- A condition and its result. -/
  | arm
  /-- An assignment to a column. -/
  | assignment

/-- The keys that are looked up in an object of a kind, each with the role of the objects that stand
under it, alone or in lists. There is no role where the value is taken as it stands. -/
def Kind.fields : Kind → List (String × Option Role)
  | .value => [("value", none)]
  | .column => [("column", none), ("table", none)]
  | .userVariable => [("name", none)]
  | .binary => [
      ("operator", none),
      ("left", some .node),
      ("right", some .node),
      ("not", none)]
  | .between => [
      ("left", some .node),
      ("start", some .node),
      ("end", some .node),
      ("not", none)]
  | .oneOf => [("left", some .node), ("right", some .node), ("not", none)]
  | .nullTest => [("left", some .node), ("not", none)]
  | .existence => [("query", some .node), ("not", none)]
  | .caseOf => [("cases", some .arm), ("expression", some .node), ("else", some .node)]
  | .function => [("name", none), ("parameters", some .node), ("distinct", none)]
  | .math => [("operator", none), ("operands", some .node)]
  | .group => [("operator", none), ("expressions", some .node)]
  | .schemaTable => [("schema", none), ("table", none), ("function", none), ("$as", none)]
  | .queryTable => [("$as", none), ("query", some .node)]
  | .remoteTable => [("$as", none), ("requestConfig", none), ("columns", some .node)]
  | .fromTable => [("table", some .node), ("joinClauses", some .node)]
  | .joinClause => [("operator", none), ("table", some .node), ("$on", some .node)]
  | .resultColumn => [("expression", some .node), ("$as", none)]
  | .orderBy => [("order", none), ("expression", some .node)]
  | .groupBy => [("expressions", some .node), ("having", some .node)]
  | .limit => [("limit", none), ("offset", none)]
  | .query => [
      ("distinct", none),
      ("select", some .node),
      ("from", some .node),
      ("where", some .node),
      ("groupBy", some .node),
      ("order", some .node),
      ("limit", some .node)]
  | .insertion => [
      ("query", some .node),
      ("values", some .node),
      ("schema", none),
      ("name", none),
      ("columns", none)]
  | .update => [
      ("set", some .assignment),
      ("schema", none),
      ("name", none),
      ("where", some .node)]
  | .deletion => [("database", none), ("name", none), ("where", some .node)]
  | .columnDef => [
      ("name", none),
      ("type", none),
      ("length", none),
      ("defaultValue", none),
      ("notNull", none),
      ("autoIncrement", none),
      ("options", none),
      ("primaryKey", none)]
  | .primaryKey => [("name", none), ("columns", none)]
  | .createTable => [
      ("columns", some .node),
      ("constraints", some .node),
      ("query", some .node),
      ("schema", none),
      ("name", none),
      ("ifNotExists", none)]
  | .createSchema => [("name", none), ("ifNotExists", none)]
  | .dropTable => [("schema", none), ("name", none), ("ifExists", none)]
  | .dropSchema => [("name", none), ("ifExists", none)]

/-- The keys that are looked up in a condition with its result. -/
def armFields : List (String × Option Role) := [("when", some .node), ("then", some .node)]

/-- The keys that are looked up in an assignment. -/
def assignmentFields : List (String × Option Role) := [("column", none), ("value", some .node)]

/-! ### Computations that give related values -/

/-- Two computations give related values, or both of them fail. -/
inductive BothGive {α β : Type} (rel : α → β → Prop) : Except Error α → Except Error β → Prop
  | ok {a : α} {b : β} (h : rel a b) : BothGive rel (.ok a) (.ok b)
  | error (e e' : Error) : BothGive rel (.error e) (.error e')

namespace BothGive

variable {α β γ δ : Type} {rel : α → β → Prop} {rel' : γ → δ → Prop}

theorem refl {rel : α → α → Prop} (h : ∀ a, rel a a) (x : Except Error α) : BothGive rel x x := by
  cases x with
  | ok a => exact .ok (h a)
  | error e => exact .error e e

theorem of_eq {x y : Except Error α} (h : y = x) : BothGive Eq x y := h ▸ refl Eq.refl y

theorem bind {x : Except Error α} {y : Except Error β} {f : α → Except Error γ}
    {g : β → Except Error δ} (h : BothGive rel x y)
    (hf : ∀ a b, rel a b → BothGive rel' (f a) (g b)) : BothGive rel' (x >>= f) (y >>= g) := by
  cases h with
  | ok h => exact hf _ _ h
  | error e e' => exact .error e e'

/-- The next step goes on with the same value. -/
theorem andThen {x y : Except Error α} {f : α → Except Error γ} {g : α → Except Error δ}
    (h : BothGive Eq x y) (hf : ∀ a, BothGive rel' (f a) (g a)) :
    BothGive rel' (x >>= f) (y >>= g) :=
  h.bind fun a _ hab => hab ▸ hf a

theorem map {x y : Except Error α} (h : BothGive Eq x y) (f : α → γ) :
    BothGive Eq (f <$> x) (f <$> y) :=
  h.andThen fun a => .of_eq (x := .ok (f a)) rfl

theorem eq_ok_iff {x y : Except Error α} (h : BothGive Eq x y) (a : α) : x = .ok a ↔ y = .ok a := by
  cases h with
  | ok h => rw [h]
  | error e e' => exact ⟨nofun, nofun⟩

/-- Items that are related are converted alike. -/
theorem convert {one : α → Except Error γ} {one' : β → Except Error γ} {as : List α} {bs : List β}
    (h : List.Forall₂ rel as bs) (hone : ∀ a b, rel a b → BothGive Eq (one a) (one' b)) :
    BothGive Eq (Fields.convert one as) (Fields.convert one' bs) := by
  induction h with
  | nil => exact .ok rfl
  | cons hab _ ih => exact (hone _ _ hab).andThen fun c => ih.andThen fun rest => .ok rfl

end BothGive

/-! ### Readings -/

/-- Two readings are read alike in a role. -/
def Role.ReadAlike : Role → Reading → Reading → Prop
  | .node, x, x' => BothGive Eq x.outcome x'.outcome
  | .arm, x, x' => BothGive Eq (Fields.caseArm x) (Fields.caseArm x')
  | .assignment, x, x' => BothGive Eq (Fields.assignment x) (Fields.assignment x')

/-- Two readings agree as far as they are looked at where they have a role: they are the same, or
they are lists whose items agree, or objects that are read alike. -/
inductive Reading.Alike (role : Role) : Reading → Reading → Prop
  | refl (x : Reading) : Alike role x x
  | list {x x' : Reading} {vs vs' : List Json} (source : x.source = .array vs)
      (source' : x'.source = .array vs') (read : role.ReadAlike x x')
      (items : List.Forall₂ (Alike role) x.items x'.items) : Alike role x x'
  | object {x x' : Reading} {ms ms' : List (String × Json)} (source : x.source = .object ms)
      (source' : x'.source = .object ms') (read : role.ReadAlike x x') : Alike role x x'

/-- Readings in a role agree, and those without a role are the same. -/
def Reading.AlikeIn : Option Role → Reading → Reading → Prop
  | none => Eq
  | some role => Reading.Alike role

theorem Role.readAlike_refl (role : Role) (x : Reading) : role.ReadAlike x x := by
  cases role <;> exact .of_eq rfl

theorem Reading.rel_alikeIn_refl (role? : Option Role) (x : Option Reading) :
    Option.Rel (Reading.AlikeIn role?) x x := by
  cases x with
  | none => exact .none
  | some x =>
    cases role? with
    | none => exact .some rfl
    | some role => exact .some (.refl x)

namespace Reading.Alike

variable {role : Role} {x x' : Reading}

theorem read (h : Reading.Alike role x x') : role.ReadAlike x x' := by
  cases h with
  | refl => exact role.readAlike_refl x
  | list _ _ read => exact read
  | object _ _ read => exact read

theorem outcome (h : Reading.Alike .node x x') : BothGive Eq x.outcome x'.outcome := h.read

theorem expr (h : Reading.Alike .node x x') : BothGive Eq x.expr x'.expr :=
  h.outcome.andThen fun _ => .of_eq rfl

theorem query (h : Reading.Alike .node x x') : BothGive Eq x.query x'.query :=
  h.outcome.andThen fun _ => .of_eq rfl

theorem table (h : Reading.Alike .node x x') : BothGive Eq x.table x'.table :=
  h.outcome.andThen fun _ => .of_eq rfl

end Reading.Alike

/-- A value that is null is no different from an absent one. -/
theorem Fields.raw_eq (f : Fields) (key : String) :
    f.raw key = (f.get? key).elim .null Reading.source := by
  rw [Fields.raw, Fields.get?]
  cases Keyed.find? key f.members with
  | none => rfl
  | some x =>
    rw [Option.filter_some]
    cases hx : x.source with
    | null => simp [Json.isNull, hx]
    | _ => simp [Json.isNull, hx]

/-- Fields of the same kind agree under the keys of a table. -/
structure Fields.Alike (keys : List (String × Option Role)) (f f' : Fields) : Prop where
  kind : f'.kind = f.kind
  get? : ∀ key role?, Keyed.find? key keys = some role? →
    Option.Rel (Reading.AlikeIn role?) (f.get? key) (f'.get? key)

namespace Fields.Alike

variable {keys : List (String × Option Role)} {f f' : Fields} {role : Role} {α : Type}

/-! ### Values that are taken as they stand -/

section

variable (hf : f.Alike keys f') (key : String) (hkey : Keyed.find? key keys = some none)

include hf hkey

theorem get?_eq : f'.get? key = f.get? key := by
  have hrel := hf.get? key none hkey
  generalize f.get? key = x, f'.get? key = x' at hrel ⊢
  cases hrel with
  | none => rfl
  | some h => exact congrArg some (Eq.symm h)

theorem raw : f'.raw key = f.raw key := by
  rw [raw_eq, raw_eq, hf.get?_eq key hkey]

theorem text? : f'.text? key = f.text? key :=
  text?_congr hf.kind (hf.get?_eq key hkey)

theorem text : f'.text key = f.text key :=
  text_congr hf.kind (hf.get?_eq key hkey)

theorem flag : f'.flag key = f.flag key :=
  flag_congr hf.kind (hf.get?_eq key hkey)

theorem natural? : f'.natural? key = f.natural? key :=
  natural?_congr hf.kind (hf.get?_eq key hkey)

theorem strings : f'.strings key = f.strings key :=
  strings_congr hf.kind (hf.get?_eq key hkey)

end

/-! ### Values with a role -/

section

variable (hf : f.Alike keys f') (key : String)

include hf

theorem get (hkey : Keyed.find? key keys = some (some role)) :
    BothGive (Reading.Alike role) (f.get key) (f'.get key) := by
  have hrel := hf.get? key (some role) hkey
  rw [Fields.get, Fields.get]
  generalize f.get? key = x, f'.get? key = x' at hrel ⊢
  cases hrel with
  | none => exact .error _ _
  | some h => exact .ok h

theorem list (hkey : Keyed.find? key keys = some (some role)) :
    BothGive (List.Forall₂ (Reading.Alike role)) (f.list key) (f'.list key) := by
  have hrel := hf.get? key (some role) hkey
  rw [Fields.list, Fields.list]
  generalize f.get? key = x, f'.get? key = x' at hrel ⊢
  cases hrel with
  | none => exact .ok .nil
  | @some x _ h =>
    cases h with
    | refl =>
      dsimp only
      cases x.source with
      | array vs => exact .ok (List.forall₂_same.mpr fun item _ => .refl item)
      | _ => exact .error _ _
    | list source source' _ items =>
      simp only [source, source']
      exact .ok items
    | object source source' =>
      simp only [source, source']
      exact .error _ _

variable (hkey : Keyed.find? key keys = some (some .node))

include hkey

theorem nodes (as : Node → Except Error α) : BothGive Eq (f.nodes key as) (f'.nodes key as) :=
  (hf.list key hkey).bind fun _ _ hitems =>
    .convert hitems fun _ _ hx => hx.outcome.andThen fun _ => .of_eq rfl

theorem exprs : BothGive Eq (f.exprs key) (f'.exprs key) := hf.nodes key hkey Node.toExpr

theorem node? (as : Node → Except Error α) : BothGive Eq (f.node? key as) (f'.node? key as) := by
  have hrel := hf.get? key (some .node) hkey
  rw [Fields.node?, Fields.node?]
  generalize f.get? key = x, f'.get? key = x' at hrel ⊢
  cases hrel with
  | none => exact .ok rfl
  | some h => exact (Reading.Alike.outcome h).andThen fun _ => .of_eq rfl

theorem expr? : BothGive Eq (f.expr? key) (f'.expr? key) := hf.node? key hkey Node.toExpr

theorem slot : BothGive Eq (f.slot key) (f'.slot key) :=
  (hf.expr? key hkey).andThen fun _ => .of_eq rfl

end

/-! ### Expressions -/

theorem value (hf : f.Alike Kind.value.fields f') : f'.value = f.value := by
  rw [Fields.value, Fields.value, hf.raw "value" rfl]

theorem column (hf : f.Alike Kind.column.fields f') : f'.column = f.column := by
  simp only [Fields.column, hf.text "column" rfl, hf.text? "table" rfl]

theorem userVariable (hf : f.Alike Kind.userVariable.fields f') :
    f'.userVariable = f.userVariable := by
  rw [Fields.userVariable, Fields.userVariable, hf.text "name" rfl]

theorem binary (hf : f.Alike Kind.binary.fields f') (d : Dialect) :
    BothGive Eq (f.binary d) (f'.binary d) := by
  rw [Fields.binary, Fields.binary, hf.text "operator" rfl, hf.flag "not" rfl]
  refine .andThen (.of_eq rfl) fun text => .andThen (.of_eq rfl) fun operator =>
    (hf.slot "left" rfl).andThen fun left => .andThen (.of_eq rfl) fun _ => ?_
  split
  · exact .of_eq rfl
  · exact (hf.slot "right" rfl).andThen fun right => .of_eq rfl

theorem between (hf : f.Alike Kind.between.fields f') : BothGive Eq f.between f'.between := by
  rw [Fields.between, Fields.between, hf.flag "not" rfl]
  exact (hf.slot "left" rfl).andThen fun left => (hf.slot "start" rfl).andThen fun start =>
    (hf.slot "end" rfl).andThen fun stop => .of_eq rfl

theorem oneOf (hf : f.Alike Kind.oneOf.fields f') : BothGive Eq f.oneOf f'.oneOf := by
  rw [Fields.oneOf, Fields.oneOf, hf.flag "not" rfl]
  exact (hf.slot "left" rfl).andThen fun left => (hf.slot "right" rfl).andThen fun right =>
    .of_eq rfl

theorem nullTest (hf : f.Alike Kind.nullTest.fields f') :
    BothGive Eq f.nullTest f'.nullTest := by
  rw [Fields.nullTest, Fields.nullTest, hf.flag "not" rfl]
  exact (hf.slot "left" rfl).andThen fun left => .of_eq rfl

theorem existence (hf : f.Alike Kind.existence.fields f') :
    BothGive Eq f.existence f'.existence := by
  rw [Fields.existence, Fields.existence, hf.flag "not" rfl]
  exact (hf.get "query" rfl).bind fun x x' hx => hx.query.andThen fun q => .of_eq rfl

/-- The members of a condition with its result are fields of their own. -/
theorem caseArm {x x' : Reading} {ms ms' : List (String × Json)} (source : x.source = .object ms)
    (source' : x'.source = .object ms')
    (hf : Fields.Alike armFields ⟨.caseOf, x.members⟩ ⟨.caseOf, x'.members⟩) :
    BothGive Eq (Fields.caseArm x) (Fields.caseArm x') := by
  simp only [Fields.caseArm, source, source']
  exact (hf.slot "when" rfl).andThen fun condition =>
    (hf.slot "then" rfl).andThen fun result => .of_eq rfl

theorem caseOf (hf : f.Alike Kind.caseOf.fields f') : BothGive Eq f.caseOf f'.caseOf := by
  rw [Fields.caseOf, Fields.caseOf]
  exact (hf.list "cases" rfl).bind fun _ _ hitems =>
    (BothGive.convert hitems fun _ _ hx => hx.read).andThen fun arms =>
    (hf.expr? "expression" rfl).andThen fun subject =>
    (hf.expr? "else" rfl).andThen fun otherwise => .of_eq rfl

theorem function (hf : f.Alike Kind.function.fields f') : BothGive Eq f.function f'.function := by
  rw [Fields.function, Fields.function, hf.text "name" rfl, hf.flag "distinct" rfl]
  exact .andThen (.of_eq rfl) fun text => .andThen (.of_eq rfl) fun name =>
    (hf.exprs "parameters" rfl).andThen fun parameters => .of_eq rfl

theorem math (hf : f.Alike Kind.math.fields f') : BothGive Eq f.math f'.math := by
  rw [Fields.math, Fields.math, hf.text "operator" rfl]
  exact .andThen (.of_eq rfl) fun text => .andThen (.of_eq rfl) fun operator =>
    (hf.exprs "operands" rfl).andThen fun operands => .of_eq rfl

theorem group (hf : f.Alike Kind.group.fields f') : BothGive Eq f.group f'.group := by
  rw [Fields.group, Fields.group, hf.text "operator" rfl]
  exact .andThen (.of_eq rfl) fun text => .andThen (.of_eq rfl) fun operator =>
    (hf.exprs "expressions" rfl).andThen fun items => .of_eq rfl

/-! ### Tables and joins -/

theorem schemaTable (hf : f.Alike Kind.schemaTable.fields f') :
    f'.schemaTable = f.schemaTable := by
  simp only [Fields.schemaTable, hf.text? "schema" rfl, hf.text "table" rfl,
    hf.text? "function" rfl, hf.text? "$as" rfl]

theorem label (hf : f.Alike keys f') (hkey : Keyed.find? "$as" keys = some none) :
    f'.label = f.label := by
  simp only [Fields.label, hf.text? "$as" hkey, hf.kind]

theorem queryTable (hf : f.Alike Kind.queryTable.fields f') :
    BothGive Eq f.queryTable f'.queryTable := by
  rw [Fields.queryTable, Fields.queryTable, hf.label rfl]
  exact .andThen (.of_eq rfl) fun label => (hf.get "query" rfl).bind fun x x' hx =>
    hx.query.andThen fun q => .of_eq rfl

theorem remoteTable (hf : f.Alike Kind.remoteTable.fields f') :
    BothGive Eq f.remoteTable f'.remoteTable := by
  have hconfig : f'.get "requestConfig" = f.get "requestConfig" := by
    simp only [Fields.get, hf.get?_eq "requestConfig" rfl, missing, hf.kind]
  rw [Fields.remoteTable, Fields.remoteTable, hf.label rfl, hconfig]
  exact .andThen (.of_eq rfl) fun label => .andThen (.of_eq rfl) fun config =>
    (hf.nodes "columns" rfl Node.toColumnDef).andThen fun columns => .of_eq rfl

theorem conditions (hf : f.Alike keys f') (hkey : Keyed.find? "$on" keys = some (some .node)) :
    BothGive Eq f.conditions f'.conditions := by
  have hrel := hf.get? "$on" (some .node) hkey
  rw [Fields.conditions, Fields.conditions]
  generalize f.get? "$on" = x, f'.get? "$on" = x' at hrel ⊢
  cases hrel with
  | none => exact .ok rfl
  | @some x _ h =>
    cases h with
    | refl =>
      dsimp only
      cases x.source with
      | array vs => exact hf.exprs "$on" hkey
      | _ => exact .of_eq rfl
    | list source source' =>
      simp only [source, source']
      exact hf.exprs "$on" hkey
    | object source source' read =>
      simp only [source, source']
      exact (Reading.Alike.object source source' read).expr.andThen fun e => .of_eq rfl

theorem joinClause (hf : f.Alike Kind.joinClause.fields f') :
    BothGive Eq f.joinClause f'.joinClause := by
  rw [joinClause_eq, joinClause_eq, hf.text? "operator" rfl]
  exact .andThen (.of_eq rfl) fun text? => .andThen (.of_eq rfl) fun operator =>
    (hf.get "table" rfl).bind fun x x' hx => (hf.conditions rfl).andThen fun conditions =>
    hx.table.andThen fun t => .of_eq rfl

theorem fromTable (hf : f.Alike Kind.fromTable.fields f') :
    BothGive Eq f.fromTable f'.fromTable := by
  rw [Fields.fromTable, Fields.fromTable]
  exact (hf.get "table" rfl).bind fun x x' hx =>
    (hf.nodes "joinClauses" rfl Node.toJoinClause).andThen fun joins =>
    hx.table.andThen fun t => .of_eq rfl

/-! ### Parts of queries -/

theorem resultColumn (hf : f.Alike Kind.resultColumn.fields f') :
    BothGive Eq f.resultColumn f'.resultColumn := by
  rw [Fields.resultColumn, Fields.resultColumn, hf.text? "$as" rfl]
  exact (hf.slot "expression" rfl).andThen fun e => .of_eq rfl

theorem orderBy (hf : f.Alike Kind.orderBy.fields f') : BothGive Eq f.orderBy f'.orderBy := by
  rw [orderBy_eq, orderBy_eq, hf.text? "order" rfl]
  exact .andThen (.of_eq rfl) fun text? => .andThen (.of_eq rfl) fun direction =>
    (hf.slot "expression" rfl).andThen fun e => .of_eq rfl

theorem groupBy (hf : f.Alike Kind.groupBy.fields f') : BothGive Eq f.groupBy f'.groupBy := by
  rw [Fields.groupBy, Fields.groupBy]
  exact (hf.exprs "expressions" rfl).andThen fun es =>
    (hf.expr? "having" rfl).andThen fun having => .of_eq rfl

theorem limit (hf : f.Alike Kind.limit.fields f') : f'.limit = f.limit := by
  simp only [Fields.limit, hf.natural? "limit" rfl, hf.natural? "offset" rfl, missing, hf.kind]

theorem query (hf : f.Alike Kind.query.fields f') : BothGive Eq f.query f'.query := by
  rw [Fields.query, Fields.query, hf.flag "distinct" rfl]
  exact .andThen (.of_eq rfl) fun distinct =>
    (hf.nodes "select" rfl Node.toResultColumn).andThen fun columns =>
    (hf.nodes "from" rfl Node.toFromTable).andThen fun sources =>
    (hf.expr? "where" rfl).andThen fun condition =>
    (hf.node? "groupBy" rfl Node.toGroupBy).andThen fun groupBy =>
    (hf.nodes "order" rfl Node.toOrderBy).andThen fun order =>
    (hf.node? "limit" rfl Node.toLimit).andThen fun limit => .of_eq rfl

/-! ### Changes of data -/

theorem row {x x' : Reading} (h : Reading.Alike .node x x') :
    BothGive Eq (Fields.row x) (Fields.row x') := by
  cases h with
  | refl => exact .of_eq rfl
  | list source source' _ items =>
    simp only [Fields.row, source, source']
    exact .convert items fun _ _ hx => hx.expr
  | object source source' =>
    simp only [Fields.row, source, source']
    exact .error _ _

theorem insertionSource (hf : f.Alike Kind.insertion.fields f') :
    BothGive Eq f.insertionSource f'.insertionSource := by
  have hrel := hf.get? "query" (some .node) rfl
  rw [Fields.insertionSource, Fields.insertionSource]
  generalize f.get? "query" = x, f'.get? "query" = x' at hrel ⊢
  cases hrel with
  | none =>
    exact (hf.list "values" rfl).bind fun _ _ hitems =>
      (BothGive.convert hitems fun _ _ hx => row hx).andThen fun rows => .of_eq rfl
  | some h => exact (Reading.Alike.query h).andThen fun q => .of_eq rfl

theorem insertion (hf : f.Alike Kind.insertion.fields f') :
    BothGive Eq f.insertion f'.insertion := by
  rw [Fields.insertion, Fields.insertion, hf.text? "schema" rfl, hf.text "name" rfl,
    hf.strings "columns" rfl]
  exact hf.insertionSource.andThen fun source => .of_eq rfl

/-- The members of an assignment are fields of their own. -/
theorem assignment {x x' : Reading} {ms ms' : List (String × Json)}
    (source : x.source = .object ms) (source' : x'.source = .object ms')
    (hf : Fields.Alike assignmentFields ⟨.update, x.members⟩ ⟨.update, x'.members⟩) :
    BothGive Eq (Fields.assignment x) (Fields.assignment x') := by
  simp only [Fields.assignment, source, source', hf.text "column" rfl]
  exact .andThen (.of_eq rfl) fun column => (hf.slot "value" rfl).andThen fun e => .of_eq rfl

theorem update (hf : f.Alike Kind.update.fields f') : BothGive Eq f.update f'.update := by
  rw [Fields.update, Fields.update, hf.text? "schema" rfl, hf.text "name" rfl]
  exact (hf.list "set" rfl).bind fun _ _ hitems =>
    (BothGive.convert hitems fun _ _ hx => hx.read).andThen fun assignments =>
      .andThen (.of_eq rfl) fun schema => .andThen (.of_eq rfl) fun name =>
        (hf.expr? "where" rfl).andThen fun condition => .of_eq rfl

theorem deletion (hf : f.Alike Kind.deletion.fields f') : BothGive Eq f.deletion f'.deletion := by
  rw [Fields.deletion, Fields.deletion, hf.text? "database" rfl, hf.text "name" rfl]
  exact .andThen (.of_eq rfl) fun database => .andThen (.of_eq rfl) fun name =>
    (hf.expr? "where" rfl).andThen fun condition => .of_eq rfl

/-! ### Definitions -/

theorem columnDef (hf : f.Alike Kind.columnDef.fields f') : f'.columnDef = f.columnDef := by
  simp only [Fields.columnDef, hf.text "name" rfl, hf.text "type" rfl, hf.natural? "length" rfl,
    hf.raw "defaultValue" rfl, hf.flag "notNull" rfl, hf.flag "autoIncrement" rfl,
    hf.strings "options" rfl, hf.flag "primaryKey" rfl]

theorem primaryKey (hf : f.Alike Kind.primaryKey.fields f') : f'.primaryKey = f.primaryKey := by
  simp only [Fields.primaryKey, hf.text? "name" rfl, hf.strings "columns" rfl]

theorem createTable (hf : f.Alike Kind.createTable.fields f') :
    BothGive Eq f.createTable f'.createTable := by
  rw [Fields.createTable, Fields.createTable, hf.text? "schema" rfl, hf.text "name" rfl,
    hf.flag "ifNotExists" rfl]
  exact (hf.nodes "columns" rfl Node.toColumnDef).andThen fun columns =>
    (hf.nodes "constraints" rfl Node.toPrimaryKey).andThen fun constraints =>
    (hf.node? "query" rfl Node.toQuery).andThen fun query => .of_eq rfl

theorem createSchema (hf : f.Alike Kind.createSchema.fields f') :
    f'.createSchema = f.createSchema := by
  simp only [Fields.createSchema, hf.text "name" rfl, hf.flag "ifNotExists" rfl]

theorem dropTable (hf : f.Alike Kind.dropTable.fields f') : f'.dropTable = f.dropTable := by
  simp only [Fields.dropTable, hf.text? "schema" rfl, hf.text "name" rfl, hf.flag "ifExists" rfl]

theorem dropSchema (hf : f.Alike Kind.dropSchema.fields f') : f'.dropSchema = f.dropSchema := by
  simp only [Fields.dropSchema, hf.text "name" rfl, hf.flag "ifExists" rfl]

/-! ### Nodes of any kind -/

/-- Nodes are put together alike from fields that agree under the keys that are looked up. -/
theorem construct {kind : Kind} (hf : f.Alike kind.fields f') (hkind : f.kind = kind)
    (d : Dialect) : BothGive Eq (f.construct d) (f'.construct d) := by
  rw [Fields.construct, Fields.construct, hf.kind, hkind]
  cases kind
  case value => exact .map (.of_eq hf.value) _
  case column => exact .map (.of_eq hf.column) _
  case userVariable => exact .map (.of_eq hf.userVariable) _
  case binary => exact (hf.binary d).map _
  case between => exact hf.between.map _
  case oneOf => exact hf.oneOf.map _
  case nullTest => exact hf.nullTest.map _
  case existence => exact hf.existence.map _
  case caseOf => exact hf.caseOf.map _
  case function => exact hf.function.map _
  case math => exact hf.math.map _
  case group => exact hf.group.map _
  case schemaTable => exact .map (.of_eq hf.schemaTable) _
  case queryTable => exact hf.queryTable.map _
  case remoteTable => exact hf.remoteTable.map _
  case fromTable => exact hf.fromTable.map _
  case joinClause => exact hf.joinClause.map _
  case resultColumn => exact hf.resultColumn.map _
  case orderBy => exact hf.orderBy.map _
  case groupBy => exact hf.groupBy.map _
  case limit => exact .map (.of_eq hf.limit) _
  case query => exact hf.query.map _
  case insertion => exact hf.insertion.map _
  case update => exact hf.update.map _
  case deletion => exact hf.deletion.map _
  case columnDef => exact .map (.of_eq hf.columnDef) _
  case primaryKey => exact .map (.of_eq hf.primaryKey) _
  case createTable => exact hf.createTable.map _
  case createSchema => exact .map (.of_eq hf.createSchema) _
  case dropTable => exact .map (.of_eq hf.dropTable) _
  case dropSchema => exact .map (.of_eq hf.dropSchema) _

end Fields.Alike

end SqlTree
