import SqlTree.Proofs.Document.Image
import SqlTree.Proofs.Node.Completeness

/-!
# Finished nodes keep their documents

A finished node keeps the rules of its kind, no expression in it is unset, and its parts are
finished themselves. Together with the kept spelling of operators and names this is the canonical
form, and a finished node is revived from its document.

## Main definitions

* `Node.Spelled`: everything in a node is spelled as builders, constructors and revival do it.

## Main results

* `Node.canonicalAt_of_check`: a finished node that is spelled so is in canonical form.
* `Node.Spelled.canonical`: finished nodes are canonical.
* `Registry.revive_toDocument`: a finished node is revived from its document, and has the same
  document again.
-/

namespace SqlTree

/-- The kept spelling of an expression, apart from its parts. -/
def Expr.SpelledAt (d : Dialect) : Expr → Prop
  | .binary operator _ _ _ => operator ∈ d.operators
  | .function name _ _ => ∀ c ∈ name.toList, c.isLower = false
  | .math operator _ => operator ∈ mathOperators
  | _ => True

namespace Node

/-- The kept spelling of a node, apart from its parts. A column that is the primary key has null as
its default. -/
def SpelledAt (d : Dialect) : Node → Prop
  | expr e => e.SpelledAt d
  | columnDef c => c.primaryKey = true → c.defaultValue = .null
  | _ => True

/-- A node is spelled as builders, constructors and revival do it, and so is everything in it. -/
def Spelled (d : Dialect) (n : Node) : Prop := n.Throughout (SpelledAt d)

end Node

variable {d : Dialect}

/-! ### Canonical form -/

theorem unknown_notMem {es : List Expr} (h : ∀ e ∈ es, e.check = .ok ()) : .unknown ∉ es :=
  fun hu => Expr.ne_unknown_of_check (h _ hu) rfl

theorem ne_some_unknown {e? : Option Expr} (h : ∀ e ∈ e?, e.check = .ok ()) :
    e? ≠ some .unknown :=
  fun hu => Expr.ne_unknown_of_check (h _ hu) rfl

/-- The condition of a finished query is set if there is one. -/
theorem Query.condition_ne_unknown {q : Query} (h : ∀ p ∈ q.parts, p.check = .ok ()) :
    q.condition ≠ some .unknown := by
  simp only [Query.parts, List.forall_mem_append, Node.forall_slotParts] at h
  exact ne_some_unknown h.1.1.1.2

/-- A finished expression is in canonical form. -/
theorem Expr.canonicalAt_of_check {e : Expr} (hs : e.SpelledAt d) (h : e.check = .ok ()) :
    e.CanonicalAt d := by
  obtain ⟨-, hrules, hparts⟩ := Expr.check_step.mp h
  cases e with
  | binary operator left right negated =>
    obtain ⟨hl, hr⟩ := Node.forall_mem_pair.mp hparts
    obtain ⟨hleft, hright, hnegated⟩ :=
      (binaryRules_iff (ne_unknown_of_check hl) (ne_unknown_of_check hr)).mpr hrules
    exact ⟨hs, hrules.nullOnRight, hleft, hright, hnegated⟩
  | oneOf left right negated =>
    obtain ⟨-, hr⟩ := Node.forall_mem_pair.mp hparts
    exact (checkList_eq_ok (ne_unknown_of_check hr)).mpr hrules
  | caseOf subject arms otherwise =>
    simp only [Expr.parts, List.forall_mem_append, Node.forall_slotParts] at hparts
    exact ⟨ne_some_unknown hparts.1.1, ne_some_unknown hparts.2⟩
  | function name parameters distinct =>
    rw [Expr.parts, List.forall_mem_map] at hparts
    exact ⟨normalizeFunctionName_of_upper hrules (toUpper_eq_self hs), unknown_notMem hparts⟩
  | math operator operands =>
    rw [Expr.parts, List.forall_mem_map] at hparts
    exact ⟨hs, unknown_notMem hparts⟩
  | group operator items =>
    rw [Expr.parts, List.forall_mem_map] at hparts
    exact unknown_notMem hparts
  | query q => exact Query.condition_ne_unknown hparts
  | _ => trivial

/-- A finished table is in canonical form. -/
theorem Table.canonicalAt_of_check {t : Table} (h : t.check = .ok ()) : t.CanonicalAt := by
  cases t with
  | schema t => exact h
  | query q label => exact (seq_eq_ok.mp h).1
  | remote config columns label =>
    simp only [Table.check, guard_eq_ok, seq_eq_ok] at h
    exact ⟨eq_false_of_ne_true h.1, h.2.1⟩

/-- A finished statement is in canonical form. -/
theorem Statement.canonicalAt_of_check {s : Statement} (h : s.check = .ok ()) :
    s.CanonicalAt := by
  obtain ⟨hrules, hparts⟩ := Statement.check_step.mp h
  cases s with
  | query q => exact Query.condition_ne_unknown hparts
  | insertion i =>
    exact ⟨checkArity_eq_ok.mpr hrules.2.2,
      fun hu => Expr.ne_unknown_of_check (hparts _ hu) rfl⟩
  | update u =>
    rw [Statement.parts, List.forall_mem_append, Node.forall_slotParts] at hparts
    exact ne_some_unknown hparts.2
  | deletion x => exact ne_some_unknown (Node.forall_slotParts.mp hparts)
  | createTable t => exact checkDefinitions_eq_ok.mpr hrules.2.2
  | _ => trivial

namespace Node

/-- A finished node is in canonical form. -/
theorem canonicalAt_of_check {n : Node} (hs : n.SpelledAt d) (h : n.check = .ok ()) :
    n.CanonicalAt d := by
  obtain ⟨-, hrules, hparts⟩ := check_step.mp h
  cases n with
  | expr e => exact e.canonicalAt_of_check hs h
  | table t => exact t.canonicalAt_of_check h
  | joinClause j =>
    rw [parts, List.forall_mem_cons, forall_slotParts] at hparts
    exact ⟨JoinOperator.check_eq_ok.mpr hrules, ne_some_unknown hparts.2⟩
  | columnDef c => exact fun hkey => ⟨hrules.2.2 hkey, hs hkey⟩
  | groupBy g =>
    rw [parts, List.forall_mem_append, List.forall_mem_map, forall_slotParts] at hparts
    exact ⟨unknown_notMem hparts.1, ne_some_unknown hparts.2⟩
  | statement s => exact s.canonicalAt_of_check h
  | _ => trivial

variable {n : Node}

/-- Finished nodes are canonical. -/
theorem Spelled.canonical (hs : n.Spelled d) (h : n.check = .ok ()) : n.Canonical d := by
  induction n using parts_induction with
  | step n ih =>
    refine throughout_of_parts (canonicalAt_of_check hs.here h) fun p hp => ?_
    exact ih p hp (hs.part hp) ((check_step.mp h).2.2 p hp)

/-- What a node comes back as has the same faults. -/
@[simp] theorem check_revived (n : Node) : n.revived.check = n.check := by
  cases n with
  | expr e => cases e <;> rfl
  | _ => rfl

end Node

namespace Registry

/-- A finished node is revived from its document, except that a query used as an expression comes
back as a statement. What it comes back as has the same document. -/
theorem revive_toDocument {n : Node} (hs : n.Spelled d) (h : n.check = .ok ()) :
    ∃ j, n.toDocument = .ok j ∧ (builtin d).revive j = .ok n.revived ∧
      n.revived.toDocument = .ok j := by
  have hu : n ≠ .expr .unknown := by
    rintro rfl
    exact absurd h nofun
  have hr : n.revived.check = .ok () := n.check_revived.trans h
  refine ⟨n.document, Node.toDocument_of_check h, (hs.canonical h).returns hu, ?_⟩
  rw [Node.toDocument_of_check hr, Node.document_revived]

/-- A query used as an expression, which counts the names of students. -/
theorem revive_toDocument_count :
    let count : Expr := .function "COUNT" [.ofColumn "name"] false
    let n : Node := .expr
      (.query ⟨false, [.ofExpr count], [.ofTable (.named "student")], none, none, [], none⟩)
    n.Spelled .mySQL ∧ n.check = .ok () ∧
      ∃ j, n.toDocument = .ok j ∧ (builtin .mySQL).revive j = .ok n.revived ∧
        n.revived.toDocument = .ok j := by
  intro count n
  have hname : ∀ c ∈ "COUNT".toList, c.isLower = false := by simp
  have hcount : (Node.expr count).Spelled .mySQL := by
    refine Node.throughout_of_parts hname (List.forall_mem_singleton.mpr ?_)
    exact Node.throughout_of_no_parts trivial rfl
  have hs : n.Spelled .mySQL := by
    refine Node.throughout_of_parts trivial (Node.forall_mem_pair.mpr ⟨?_, ?_⟩)
    · exact Node.throughout_of_parts trivial (List.forall_mem_singleton.mpr hcount)
    · refine Node.throughout_of_parts trivial (List.forall_mem_singleton.mpr ?_)
      exact Node.throughout_of_no_parts trivial rfl
  have h : n.check = .ok () := by decide +kernel
  exact ⟨hs, h, revive_toDocument hs h⟩

end Registry

end SqlTree
