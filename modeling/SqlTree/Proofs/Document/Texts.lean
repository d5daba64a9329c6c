import SqlTree.Proofs.Document.Finished
import SqlTree.Proofs.Json.Reading

/-!
# Statements are read back from their texts

A finished statement is revived from its document, and the document is read back from its text as
long as arrays and objects nest at most 127 deep in it. Writing has no such bound, so the text of a
deeper statement is refused when it is read.

## Main definitions

* `Node.Sound`: the values in a node are documents that there are.

## Main results

* `Node.sound_document`: the document of a node is one that there is.
* `Statement.ofText_text`: what the text of a finished statement is read as.
-/

namespace SqlTree

/-! ### Documents of nodes -/

namespace Json

theorem sound_ofMembers {members : List (String × Json)} (h : ∀ m ∈ members, m.2.Sound) :
    (ofMembers members).Sound :=
  .object (Keyed.ascending_ofList members) fun m hm => h m (Keyed.mem_of_mem_ofList hm)

/-- The values of fields are documents that there are. -/
def SoundFields (fields : List (String × Json)) : Prop := ∀ m ∈ fields, m.2.Sound

theorem sound_tagged {kind : Kind} {groups : List (List (String × Json))}
    (h : ∀ g ∈ groups, SoundFields g) : (tagged kind groups).Sound := by
  refine sound_ofMembers (List.forall_mem_cons.mpr ⟨.string _, fun m hm => ?_⟩)
  obtain ⟨g, hg, hm⟩ := List.mem_flatten.mp hm
  exact h g hg m hm

@[simp] theorem sound_null : Sound .null := .null

@[simp] theorem sound_string (s : String) : Sound (.string s) := .string s

@[simp] theorem sound_natural (n : UInt64) : Sound (.natural n) := .number trivial

@[simp] theorem sound_array {items : List Json} : Sound (.array items) ↔ ∀ i ∈ items, i.Sound :=
  ⟨fun | .array h => h, .array⟩

@[simp] theorem soundFields_field {key : String} {value : Json} :
    SoundFields (field key value) ↔ value.Sound := by
  simp [SoundFields, field]

@[simp] theorem soundFields_field? {key : String} {value : Option Json} :
    SoundFields (field? key value) ↔ ∀ v ∈ value, v.Sound := by
  cases value <;> simp [SoundFields, field?]

@[simp] theorem soundFields_flagField (key : String) (value : Bool) :
    SoundFields (flagField key value) := by
  cases value <;> simp [SoundFields, flagField, Sound.bool]

@[simp] theorem soundFields_listField {key : String} {items : List Json} :
    SoundFields (listField key items) ↔ ∀ i ∈ items, i.Sound := by
  cases items <;> simp [SoundFields, listField]

end Json

namespace Node

/-- The value that a node holds itself is a document that there is. -/
def SoundAt : Node → Prop
  | expr (.value v) => v.Sound
  | table (.remote config _ _) => config.Sound
  | columnDef c => c.defaultValue.Sound
  | _ => True

/-- The values in a node are documents that there are. -/
def Sound (n : Node) : Prop := n.Throughout SoundAt

end Node

theorem Query.sound_document {q : Query} (hp : ∀ p ∈ q.parts, p.document.Sound) :
    q.document.Sound := by
  obtain ⟨distinct, columns, sources, condition, groupBy, order, limit⟩ := q
  simp only [Query.parts, List.forall_mem_append, List.forall_mem_map, Node.forall_slotParts,
    Node.forall_mem_option, Node.document] at hp
  refine Json.sound_tagged ?_
  simpa [and_assoc] using hp

theorem CaseArm.sound_document {arm : CaseArm} (hc : arm.condition.document.Sound)
    (hr : arm.result.document.Sound) : arm.document.Sound := by
  obtain ⟨condition, result⟩ := arm
  exact Json.sound_ofMembers (by simpa using ⟨hc, hr⟩)

/-- The document of an expression is one that there is if those of its parts are. -/
theorem Expr.sound_document {e : Expr} (he : (Node.expr e).SoundAt)
    (hp : ∀ p ∈ e.parts, p.document.Sound) : e.document.Sound := by
  cases e with
  | unknown => exact .null
  | value v =>
    have hv : v.Sound := he
    exact Json.sound_tagged (by simpa using hv)
  | column table name => exact Json.sound_tagged (by simp)
  | userVariable name => exact Json.sound_tagged (by simp)
  | binary operator left right negated =>
    refine Json.sound_tagged ?_
    simpa [Expr.parts, Node.document] using hp
  | between left start stop negated =>
    refine Json.sound_tagged ?_
    simpa [Expr.parts, Node.document] using hp
  | oneOf left right negated =>
    refine Json.sound_tagged ?_
    simpa [Expr.parts, Node.document] using hp
  | nullTest left negated =>
    refine Json.sound_tagged ?_
    simpa [Expr.parts, Node.document] using hp
  | existence q negated =>
    refine Json.sound_tagged ?_
    simpa [Expr.parts, Node.document, Query.node, Statement.document] using hp
  | caseOf subject arms otherwise =>
    simp only [Expr.parts, List.forall_mem_append, Node.forall_slotParts, List.forall_mem_flatMap,
      Node.forall_mem_pair, Node.document] at hp
    obtain ⟨⟨hs, harms⟩, ho⟩ := hp
    refine Json.sound_tagged ?_
    simpa using
      ⟨hs, fun arm harm => CaseArm.sound_document (harms arm harm).1 (harms arm harm).2, ho⟩
  | function name parameters distinct =>
    refine Json.sound_tagged ?_
    simpa [Expr.parts, Node.document] using hp
  | math operator operands =>
    refine Json.sound_tagged ?_
    simpa [Expr.parts, Node.document] using hp
  | group operator items =>
    refine Json.sound_tagged ?_
    simpa [Expr.parts, Node.document] using hp
  | query q => exact Query.sound_document hp

theorem ColumnDef.sound_document {c : ColumnDef} (hc : c.defaultValue.Sound) :
    c.document.Sound := by
  refine Json.sound_tagged ?_
  have hdefault : ∀ v ∈ (if c.defaultValue.isNull then none else some c.defaultValue),
      v.Sound := by
    intro v hv
    split at hv <;> cases hv
    exact hc
  simpa using hdefault

theorem Table.sound_document {t : Table} (ht : (Node.table t).SoundAt)
    (hp : ∀ p ∈ t.parts, p.document.Sound) : t.document.Sound := by
  cases t with
  | schema t => exact Json.sound_tagged (by simp)
  | query q label =>
    refine Json.sound_tagged ?_
    simpa [Table.parts, Node.document, Query.node, Statement.document] using hp
  | remote config columns label =>
    have hconfig : config.Sound := ht
    refine Json.sound_tagged ?_
    simpa [Table.parts, Node.document, hconfig] using hp

/-- The document of a statement is one that there is if those of its parts are. -/
theorem Statement.sound_document {s : Statement} (hp : ∀ p ∈ s.parts, p.document.Sound) :
    s.document.Sound := by
  cases s with
  | query q => exact Query.sound_document hp
  | insertion i =>
    obtain ⟨schema, name, columns, source⟩ := i
    refine Json.sound_tagged ?_
    cases source with
    | rows rows =>
      simp only [Statement.parts, InsertionSource.parts, List.forall_mem_map, Node.document] at hp
      have hrows : ∀ row ∈ rows, ∀ e ∈ row, e.document.Sound := fun row hrow e he =>
        hp e (List.mem_flatten.mpr ⟨row, hrow, he⟩)
      simpa [InsertionSource.fields] using hrows
    | query q =>
      simpa [InsertionSource.fields, Statement.parts, InsertionSource.parts, Node.document,
        Query.node, Statement.document] using hp
  | update u =>
    simp only [Statement.parts, List.forall_mem_append, List.forall_mem_map, Node.forall_slotParts,
      Node.document] at hp
    have hset : ∀ i ∈ u.assignments.map assignmentDocument, i.Sound :=
      List.forall_mem_map.mpr fun a ha => Json.sound_ofMembers (by simpa using hp.1 a ha)
    refine Json.sound_tagged ?_
    simpa [-List.mem_map] using ⟨hset, hp.2⟩
  | deletion d =>
    simp only [Statement.parts, Node.forall_slotParts, Node.document] at hp
    refine Json.sound_tagged ?_
    simpa using hp
  | createTable t =>
    simp only [Statement.parts, List.forall_mem_append, List.forall_mem_map, Node.forall_mem_option,
      Node.document, Query.node, Statement.document] at hp
    refine Json.sound_tagged ?_
    simpa [and_assoc] using hp
  | createSchema s => exact Json.sound_tagged (by simp)
  | dropTable t => exact Json.sound_tagged (by simp)
  | dropSchema s => exact Json.sound_tagged (by simp)

namespace Node

/-- The document of a node is one that there is if those of its parts are. -/
theorem sound_document_of_parts {n : Node} (hn : n.SoundAt)
    (hp : ∀ p ∈ n.parts, p.document.Sound) : n.document.Sound := by
  cases n with
  | expr e => exact e.sound_document hn hp
  | table t => exact t.sound_document hn hp
  | fromTable f =>
    obtain ⟨table, joins⟩ := f
    simp only [parts, List.forall_mem_cons, List.forall_mem_map, document] at hp
    refine Json.sound_tagged ?_
    simpa using hp
  | joinClause j =>
    obtain ⟨operator, table, condition⟩ := j
    simp only [parts, List.forall_mem_cons, forall_slotParts, document] at hp
    refine Json.sound_tagged ?_
    simpa using hp
  | columnDef c => exact c.sound_document hn
  | primaryKey k => exact Json.sound_tagged (by simp)
  | resultColumn c =>
    obtain ⟨expression, label⟩ := c
    refine Json.sound_tagged ?_
    simpa [parts, document] using hp
  | orderBy o =>
    obtain ⟨expression, direction⟩ := o
    refine Json.sound_tagged ?_
    simpa [parts, document] using hp
  | groupBy g =>
    obtain ⟨expressions, having⟩ := g
    simp only [parts, List.forall_mem_append, List.forall_mem_map, forall_slotParts, document] at hp
    refine Json.sound_tagged ?_
    simpa using hp
  | limit l => exact Json.sound_tagged (by simp)
  | statement s => exact s.sound_document hp

/-- The document of a node is one that there is if the values in it are. -/
theorem Sound.document {n : Node} (h : n.Sound) : n.document.Sound := by
  induction n using parts_induction with
  | step n ih => exact sound_document_of_parts h.here fun p hp => ih p hp (h.part hp)

end Node

/-! ### Texts of statements -/

namespace Statement

/-- The text of a finished statement is read as the statement if arrays and objects nest at most
127 deep in its document, and otherwise it is refused as unreadable. -/
theorem ofText_text {s : Statement} (hs : (Node.statement s).Spelled .mySQL)
    (hv : (Node.statement s).Sound) (hc : (Node.statement s).check = .ok ()) :
    ofText s.document.text = if s.document.depth ≤ 127 then .ok s else
      .error (.invalidDocument "document" .unreadable) := by
  obtain ⟨j, hj, hrevive, -⟩ := Registry.revive_toDocument hs hc
  obtain rfl : j = s.document := Except.ok.inj (hj.symm.trans (Node.toDocument_of_check hc))
  have hread : Json.read s.document.text =
      if s.document.depth ≤ 127 then some s.document else none := Json.read_text hv.document
  by_cases hdepth : s.document.depth ≤ 127
  · rw [if_pos hdepth] at hread ⊢
    simp only [ofText, Registry.reviveText, hread, hrevive, ok_bind]
    rfl
  · rw [if_neg hdepth] at hread ⊢
    simp only [ofText, Registry.reviveText, hread]
    rfl

/-- A finished statement is read back from the text of its document if arrays and objects nest at
most 127 deep there, and otherwise the text is refused as unreadable. -/
theorem read_back {s : Statement} (hs : (Node.statement s).Spelled .mySQL)
    (hv : (Node.statement s).Sound) (hc : (Node.statement s).check = .ok ()) :
    ∃ j, (Node.statement s).toDocument = .ok j ∧
      (j.depth ≤ 127 → ofText j.text = .ok s) ∧
      (127 < j.depth → ofText j.text = .error (.invalidDocument "document" .unreadable)) := by
  have htext := ofText_text hs hv hc
  refine ⟨s.document, Node.toDocument_of_check hc, fun hdepth => ?_, fun hdepth => ?_⟩
  · rw [htext, if_pos hdepth]
  · rw [htext, if_neg (Nat.not_le_of_lt hdepth)]

/-- An insertion of a value in which a negative number, a fraction and a text with a quotation mark
and a line break are nested. -/
theorem read_back_insertion :
    let v : Json := .object [
      ("counts", .array [.number (.negative 7), .number (.float 4602678819172646912)]),
      ("note", .string "say \"hi\"\n")]
    let s : Statement := .insertion ⟨none, "pupil", ["data"], .rows [[.value v]]⟩
    (Node.statement s).Spelled .mySQL ∧ (Node.statement s).Sound ∧
      (Node.statement s).check = .ok () ∧
      ∃ j, (Node.statement s).toDocument = .ok j ∧
        (j.depth ≤ 127 → ofText j.text = .ok s) ∧
        (127 < j.depth → ofText j.text = .error (.invalidDocument "document" .unreadable)) := by
  intro v s
  have hs : (Node.statement s).Spelled .mySQL :=
    Node.throughout_of_parts trivial
      (List.forall_mem_singleton.mpr (Node.throughout_of_no_parts trivial rfl))
  have hhalf : (Number.float 4602678819172646912).Valid := by
    unfold Number.Valid
    decide +kernel
  have hseven : (Number.negative 7).Valid := ⟨by decide, by decide⟩
  have hcounts : (Json.array [.number (.negative 7), .number (.float 4602678819172646912)]).Sound :=
    .array (by simpa using ⟨.number hseven, .number hhalf⟩)
  have hvalue : v.Sound := by
    refine .object (List.pairwise_pair.mpr (by decide)) ?_
    simpa using hcounts
  have hv : (Node.statement s).Sound :=
    Node.throughout_of_parts trivial
      (List.forall_mem_singleton.mpr (Node.throughout_of_no_parts hvalue rfl))
  have hc : (Node.statement s).check = .ok () := by cbv
  exact ⟨hs, hv, hc, read_back hs hv hc⟩

end Statement

/-! ### Statements that nest too deep -/

/-- An expression inside of a number of null tests. -/
def Expr.tested (e : Expr) : Nat → Expr
  | 0 => e
  | depth + 1 => .nullTest (e.tested depth) false

theorem Expr.throughout_tested {P : Node → Prop} {e : Expr} (he : (Node.expr e).Throughout P)
    (htest : ∀ e, P (.expr (.nullTest e false))) (depth : Nat) :
    (Node.expr (e.tested depth)).Throughout P := by
  induction depth with
  | zero => exact he
  | succ depth ih => exact Node.throughout_of_parts (htest _) (List.forall_mem_singleton.mpr ih)

/-- Each null test nests the document of the expression one level deeper. -/
theorem Expr.depth_tested (e : Expr) (depth : Nat) :
    (e.tested depth).document.depth = e.document.depth + depth := by
  induction depth with
  | zero => rfl
  | succ depth ih =>
    have hdocument : (e.tested (depth + 1)).document = .object
        [("classname", .string "IsNullExpression"), ("left", (e.tested depth).document)] := by cbv
    rw [hdocument]
    simp only [Json.depth, Json.depthMembers, ih, Nat.zero_max, Nat.max_zero, Nat.add_assoc]

theorem Statement.depth_deletion (name : String) (e : Expr) :
    (deletion ⟨none, name, some e⟩).document.depth = e.document.depth + 1 := by
  have hdocument : (deletion ⟨none, name, some e⟩).document = .object
      [("classname", .string "Delete"), ("name", .string name), ("where", e.document)] := by
    cbv
  rw [hdocument]
  simp only [Json.depth, Json.depthMembers, Nat.zero_max, Nat.max_zero]

/-- A deletion whose condition consists of 126 null tests around a column is finished and has a
text, but the text is not read back. -/
theorem Statement.deep_deletion_not_read_back :
    ∃ s : Statement, (Node.statement s).Spelled .mySQL ∧ (Node.statement s).Sound ∧
      (Node.statement s).check = .ok () ∧
      ∃ j, (Node.statement s).toDocument = .ok j ∧ ofText j.text ≠ .ok s := by
  have hcolumn : ∀ {P : Node → Prop}, P (.expr (.ofColumn "age")) →
      (Node.expr (.ofColumn "age")).Throughout P := fun h => Node.throughout_of_no_parts h rfl
  let condition : Expr := (Expr.ofColumn "age").tested 126
  let s : Statement := .deletion ⟨none, "student", some condition⟩
  have hs : (Node.statement s).Spelled .mySQL :=
    Node.throughout_of_parts trivial (List.forall_mem_singleton.mpr
      (Expr.throughout_tested (hcolumn trivial) (fun _ => trivial) 126))
  have hv : (Node.statement s).Sound :=
    Node.throughout_of_parts trivial (List.forall_mem_singleton.mpr
      (Expr.throughout_tested (hcolumn trivial) (fun _ => trivial) 126))
  have hc : (Node.statement s).check = .ok () := by cbv
  have hdepth : s.document.depth = 128 := by
    have hcondition : condition.document.depth = 1 + 126 := Expr.depth_tested _ 126
    exact (depth_deletion "student" condition).trans (congrArg (· + 1) hcondition)
  refine ⟨s, hs, hv, hc, s.document, Node.toDocument_of_check hc, ?_⟩
  rw [ofText_text hs hv hc, hdepth, if_neg (by omega)]
  exact fun h => by cases h

end SqlTree
