import SqlTree.Proofs.Document.Image
import SqlTree.Proofs.Node.Checks

/-!
# What can be missing after revival

A document may be revived to a node that is not finished: names may be empty, slots unset, lists
without the items that they need. Whatever else can be wrong with a node is found when it is put
together, so the check of a revived node, or of a node inside of it, tells of missing things only.

## Main definitions

* `Error.isGap`: the errors about missing things.
* `OnlyGaps`: a check finds nothing wrong except missing things.

## Main results

* `Node.onlyGaps_of_parts`: one step of the check of a node in canonical form.
* `Node.Canonical.onlyGaps`: the check of a canonical node finds missing things only.
* `Registry.check_of_revive`: so does the check of a node that is revived, at every depth.
-/

namespace SqlTree

/-- Whether an error says that a field or a part of a node is missing. -/
def Error.isGap : Error → Bool
  | .missingField .. => true
  | .incomplete .. => true
  | _ => false

/-- A check succeeds or says that something is missing. -/
def OnlyGaps (x : Except Error Unit) : Prop := ∀ e, x = .error e → e.isGap = true

namespace OnlyGaps

variable {x : Except Error Unit} {f : Unit → Except Error Unit} {kind : Kind} {field : String}

theorem of_ok (h : x = .ok ()) : OnlyGaps x := by
  intro e he
  rw [h] at he
  exact absurd he nofun

theorem error {e : Error} (h : e.isGap = true) : OnlyGaps (.error e) := by
  rintro _ ⟨⟩
  exact h

theorem seq (hx : OnlyGaps x) (hf : OnlyGaps (f ())) : OnlyGaps (x >>= f) := by
  cases x with
  | ok u => exact hf
  | error e => exact error (hx e rfl)

theorem guard {c : Prop} [Decidable c] {e : Error} (he : e.isGap = true) (hx : OnlyGaps x) :
    OnlyGaps (if c then (do throw e; x) else x) := by
  split
  · exact error he
  · exact hx

theorem list {α : Type} {one : α → Except Error Unit} {all : List α → Except Error Unit}
    (hnil : all [] = .ok ()) (hcons : ∀ a rest, all (a :: rest) = (do one a; all rest))
    {items : List α} (h : ∀ a ∈ items, OnlyGaps (one a)) : OnlyGaps (all items) := by
  induction items with
  | nil => exact of_ok hnil
  | cons a rest ih =>
    rw [List.forall_mem_cons] at h
    rw [hcons]
    exact seq h.1 (ih h.2)

theorem text {value : String} : OnlyGaps (requireText kind field value) := by
  rw [requireText]
  split
  · exact error rfl
  · exact of_ok rfl

theorem slot {e : Expr} (h : OnlyGaps e.check) : OnlyGaps (checkSlot kind field e e.check) := by
  rw [checkSlot]
  split
  · exact error rfl
  · exact h

theorem slot? {e? : Option Expr} (h : ∀ e ∈ e?, OnlyGaps e.check) :
    OnlyGaps (checkSlot? kind field e?) := by
  cases e? with
  | none => exact of_ok rfl
  | some e => exact .slot (h e rfl)

theorem slots {es : List Expr} (h : ∀ e ∈ es, OnlyGaps e.check) :
    OnlyGaps (checkSlots kind field es) :=
  .list rfl (fun _ _ => rfl) fun e he => .slot (h e he)

end OnlyGaps

/-! ### One step -/

/-- A query passes its check but for missing things, if its parts do. -/
theorem Query.onlyGaps_of_parts {q : Query} (h : ∀ p ∈ q.parts, OnlyGaps p.check) :
    OnlyGaps q.check := by
  obtain ⟨distinct, columns, sources, condition, groupBy, order, limit⟩ := q
  simp only [Query.parts, List.forall_mem_append, List.forall_mem_map, Node.forall_mem_option,
    Node.forall_slotParts] at h
  obtain ⟨⟨⟨⟨⟨hcolumns, hsources⟩, hcondition⟩, hgroup⟩, horder⟩, -⟩ := h
  have hgroupBy : OnlyGaps (checkGroupBy? groupBy) := by
    cases groupBy with
    | none => exact .of_ok rfl
    | some g => exact hgroup g rfl
  rw [Query.check]
  refine .guard rfl (.seq (.list rfl (fun _ _ => rfl) hcolumns) ?_)
  refine .seq (.list rfl (fun _ _ => rfl) hsources) (.seq (.slot? hcondition) ?_)
  exact .seq hgroupBy (.list rfl (fun _ _ => rfl) horder)

variable {d : Dialect}

/-- An expression in canonical form passes its check but for missing things, if its parts do. -/
theorem Expr.onlyGaps_of_parts {e : Expr} (hc : e.CanonicalAt d)
    (h : ∀ p ∈ e.parts, OnlyGaps p.check) : OnlyGaps e.check := by
  cases e with
  | unknown => exact .error rfl
  | value v => exact .of_ok rfl
  | column table name => exact .text
  | userVariable name => exact .text
  | binary operator left right negated =>
    obtain ⟨-, -, hleft, hright, hnegated⟩ := hc
    obtain ⟨hl, hr⟩ := Node.forall_mem_pair.mp h
    rw [Expr.check]
    refine .seq (.of_ok hleft) (.seq (.of_ok hright) (.seq (.of_ok hnegated) ?_))
    exact .seq (.slot hl) (.slot hr)
  | between left start stop negated =>
    obtain ⟨hl, h⟩ := List.forall_mem_cons.mp h
    obtain ⟨hstart, hstop⟩ := Node.forall_mem_pair.mp h
    rw [Expr.check]
    exact .seq (.slot hl) (.seq (.slot hstart) (.slot hstop))
  | oneOf left right negated =>
    obtain ⟨hl, hr⟩ := Node.forall_mem_pair.mp h
    rw [Expr.check]
    exact .seq (.of_ok hc) (.seq (.slot hl) (.slot hr))
  | nullTest left negated =>
    rw [Expr.parts, List.forall_mem_singleton] at h
    rw [Expr.check]
    exact .slot h
  | existence q negated =>
    rw [Expr.parts, List.forall_mem_singleton] at h
    exact h
  | caseOf subject arms otherwise =>
    simp only [Expr.parts, List.forall_mem_append, Node.forall_slotParts, List.forall_mem_flatMap,
      Node.forall_mem_pair] at h
    obtain ⟨⟨hsubject, harms⟩, hotherwise⟩ := h
    have harm : ∀ arm ∈ arms, OnlyGaps arm.check := by
      rintro ⟨condition, result⟩ hmem
      obtain ⟨hcondition, hresult⟩ := harms _ hmem
      rw [CaseArm.check]
      exact .seq (.slot hcondition) (.slot hresult)
    rw [Expr.check]
    refine .guard rfl (.seq (.slot? hsubject) (.seq ?_ (.slot? hotherwise)))
    exact .list rfl (fun _ _ => rfl) harm
  | function name parameters distinct =>
    rw [Expr.parts, List.forall_mem_map] at h
    rw [Expr.check]
    exact .seq .text (.slots h)
  | math operator operands =>
    -- The kept spelling of an operator is accepted again.
    rw [Expr.parts, List.forall_mem_map] at h
    rw [Expr.check, normalizeMathOperator_of_mem hc.1, ok_bind]
    exact .guard rfl (.slots h)
  | group operator items =>
    rw [Expr.parts, List.forall_mem_map] at h
    rw [Expr.check]
    exact .guard rfl (.slots h)
  | query q => exact Query.onlyGaps_of_parts h

/-- A table in canonical form passes its check but for missing things, if its parts do. -/
theorem Table.onlyGaps_of_parts {t : Table} (hc : t.CanonicalAt)
    (h : ∀ p ∈ t.parts, OnlyGaps p.check) : OnlyGaps t.check := by
  cases t with
  | schema t => exact .of_ok hc
  | query q label =>
    rw [Table.parts, List.forall_mem_singleton] at h
    rw [Table.check]
    exact .seq (.of_ok hc) h
  | remote config columns label =>
    rw [Table.parts, List.forall_mem_map] at h
    rw [Table.check]
    exact .guard rfl (.seq (.of_ok hc.2) (.list rfl (fun _ _ => rfl) h))

/-- A statement in canonical form passes its check but for missing things, if its parts do. -/
theorem Statement.onlyGaps_of_parts {s : Statement} (hc : s.CanonicalAt)
    (h : ∀ p ∈ s.parts, OnlyGaps p.check) : OnlyGaps s.check := by
  cases s with
  | query q => exact Query.onlyGaps_of_parts h
  | insertion i =>
    obtain ⟨schema, name, columns, rows | q⟩ := i
    · rw [Statement.parts, InsertionSource.parts, List.forall_mem_map] at h
      exact .seq .text (.guard rfl (.seq (.slots h) (.of_ok hc.1)))
    · rw [Statement.parts, InsertionSource.parts, List.forall_mem_singleton] at h
      exact .seq .text (.seq h (.of_ok hc.1))
  | update u =>
    rw [Statement.parts, List.forall_mem_append, List.forall_mem_map, Node.forall_slotParts] at h
    -- Names and values are checked in turn, so this is no check of one list.
    have hassign (assignments : List (String × Expr)) (h : ∀ a ∈ assignments, OnlyGaps a.2.check) :
        OnlyGaps (checkAssignments assignments) := by
      induction assignments with
      | nil => exact .of_ok rfl
      | cons a rest ih =>
        rw [List.forall_mem_cons] at h
        exact .seq .text (.seq (.slot h.1) (ih h.2))
    exact .seq .text (.guard rfl (.seq (hassign _ h.1) (.slot? h.2)))
  | deletion x =>
    rw [Statement.parts, Node.forall_slotParts] at h
    exact .seq .text (.slot? h)
  | createTable t =>
    simp only [Statement.parts, List.forall_mem_append, List.forall_mem_map,
      Node.forall_mem_option] at h
    obtain ⟨⟨hcolumns, hconstraints⟩, hquery⟩ := h
    have hq : OnlyGaps (checkQuery? t.query) := by
      cases hsome : t.query with
      | none => exact .of_ok rfl
      | some q => exact hquery q hsome
    refine .seq .text (.guard rfl (.seq (.list rfl (fun _ _ => rfl) hcolumns) ?_))
    exact .seq (.list rfl (fun _ _ => rfl) hconstraints) (.seq (.of_ok hc) hq)
  | createSchema s => exact .text
  | dropTable t => exact .text
  | dropSchema s => exact .text

namespace Node

/-- A node in canonical form passes its check but for missing things, if its parts do. -/
theorem onlyGaps_of_parts {n : Node} (hc : n.CanonicalAt d)
    (h : ∀ p ∈ n.parts, OnlyGaps p.check) : OnlyGaps n.check := by
  cases n with
  | expr e => exact Expr.onlyGaps_of_parts hc h
  | table t => exact Table.onlyGaps_of_parts hc h
  | fromTable f =>
    obtain ⟨table, joins⟩ := f
    rw [parts, List.forall_mem_cons, List.forall_mem_map] at h
    rw [check, FromTable.check]
    exact .seq h.1 (.list rfl (fun _ _ => rfl) h.2)
  | joinClause j =>
    obtain ⟨operator, table, condition⟩ := j
    rw [parts, List.forall_mem_cons, forall_slotParts] at h
    rw [check, JoinClause.check]
    exact .seq (.of_ok hc.1) (.seq h.1 (.slot? h.2))
  | columnDef c =>
    have hkey : (c.primaryKey && !c.notNull) = false := by
      cases hk : c.primaryKey with
      | false => rfl
      | true => rw [(hc hk).1]; rfl
    rw [check, ColumnDef.check, hkey]
    exact .seq .text (.seq .text (.of_ok rfl))
  | primaryKey k =>
    rw [check, PrimaryKey.check]
    split
    · exact .error rfl
    · exact .of_ok rfl
  | resultColumn c =>
    obtain ⟨e, label⟩ := c
    rw [parts, List.forall_mem_singleton] at h
    rw [check, ResultColumn.check]
    exact .slot h
  | orderBy o =>
    obtain ⟨e, direction⟩ := o
    rw [parts, List.forall_mem_singleton] at h
    rw [check, OrderBy.check]
    exact .slot h
  | groupBy g =>
    obtain ⟨es, having⟩ := g
    rw [parts, List.forall_mem_append, List.forall_mem_map, forall_slotParts] at h
    rw [check, GroupBy.check]
    exact .guard rfl (.seq (.slots h.1) (.slot? h.2))
  | limit l => exact .of_ok rfl
  | statement s => exact Statement.onlyGaps_of_parts hc h

/-- The check of a canonical node finds missing things only. -/
theorem Canonical.onlyGaps {n : Node} (h : n.Canonical d) : OnlyGaps n.check := by
  induction n using parts_induction with
  | step n ih => exact onlyGaps_of_parts h.here fun p hp => ih p hp (h.part hp)

end Node

namespace Registry

variable {j : Json} {n m : Node}

/-- Whatever the document, the check of a node that is revived from it, or of a node that stands in
this one, succeeds, or it says that a field is missing or that a node is incomplete. -/
theorem check_of_revive (h : (builtin d).revive j = .ok n) (hm : n.Occurs m) :
    m.check = .ok () ∨ (∃ node field, m.check = .error (.missingField node field)) ∨
      ∃ node gap, m.check = .error (.incomplete node gap) := by
  have hm : m.Canonical d := Node.Throughout.of_occurs (settled_revive h).canonical hm
  have hgaps : OnlyGaps m.check := hm.onlyGaps
  cases hcheck : m.check with
  | ok u => exact .inl rfl
  | error e =>
    have he : e.isGap = true := hgaps e hcheck
    cases e with
    | missingField node field => exact .inr (.inl ⟨node, field, rfl⟩)
    | incomplete node gap => exact .inr (.inr ⟨node, gap, rfl⟩)
    | _ => exact absurd he Bool.false_ne_true

/-- A deletion whose condition compares a column with something that is not set. -/
theorem check_of_revive_open_condition :
    let condition : Expr := .binary "=" (.ofColumn "name") .unknown false
    let n : Node := .statement (.deletion ⟨none, "student", some condition⟩)
    (builtin .mySQL).revive n.document = .ok n ∧ n.Occurs (.expr condition) ∧
      n.check = .error (.incomplete Kind.binary.tag (.slot "right")) ∧
      (n.check = .ok () ∨ (∃ node field, n.check = .error (.missingField node field)) ∨
        ∃ node gap, n.check = .error (.incomplete node gap)) := by
  intro condition n
  have hcondition : (Node.expr condition).Canonical .mySQL := by
    refine Node.throughout_of_parts ⟨by decide, by decide, rfl, rfl, rfl⟩ ?_
    refine Node.forall_mem_pair.mpr ⟨?_, ?_⟩
    · exact Node.throughout_of_no_parts trivial rfl
    · exact Node.throughout_of_no_parts trivial rfl
  have hset : some condition ≠ some .unknown := by simp [condition]
  have hn : n.Canonical .mySQL :=
    Node.throughout_of_parts hset (List.forall_mem_singleton.mpr hcondition)
  have hj : (builtin .mySQL).revive n.document = .ok n := hn.returns nofun
  exact ⟨hj, .of_mem_parts (List.mem_singleton_self _), by decide +kernel,
    check_of_revive hj (.self n)⟩

end Registry

end SqlTree
