import SqlTree.Draft.Binary
import SqlTree.Proofs.Document.Spelling
import SqlTree.Proofs.Draft.Steps
import SqlTree.Proofs.Node.LocalRules

/-!
# Building binary expressions

A binary expression is started from an operator that the dialect lists, in whatever case, and keeps
it in upper case. From then on the operator alone decides which steps are refused: an operand must
be one that it accepts or be unset again, only some operators are negated, and the right side of
`IS` is null and never set. So the rules of the operator hold of all operands that are set, and a
check can only find operands that are unset or unfinished themselves.

## Main definitions

* `BinaryDraft.Step.Allowed`: the steps that an operator allows.
* `BinaryDraft.Step.change`: what a step changes if it is not refused.
* `BinaryDraft.Fits`: the rules of an operator, for the operands that are set.

## Main results

* `BinaryDraft.steady`: a step that is refused leaves the expression as it was.
* `BinaryDraft.step_eq_ok`: a step is refused just if the operator does not allow it.
* `BinaryDraft.Fits.check_error`: the check of what has been built fails only as that of an operand.
* `BinaryDraft.rules_enforced`: the expressions that can be built are those that fit.
-/

namespace SqlTree

variable {operator : String} {left right : Expr}

/-! ### Operands that may be unset -/

/-- A left operand passes its check if it is unset or a variable on the left of an assignment. -/
theorem checkLeftOperand_iff :
    checkLeftOperand operator left = .ok () ↔
      (operator = ":=" → left = .unknown ∨ ∃ name, left = .userVariable name) := by
  by_cases h : left = .unknown
  · subst h
    simp [checkLeftOperand, Expr.isUnknown]
  · rw [checkLeftOperand_eq_ok h]
    simp only [h, false_or]

/-- A right operand passes its check if it is unset or one that the operator accepts. -/
theorem checkRightOperand_iff :
    checkRightOperand operator right = .ok () ↔ right = .unknown ∨
      (operator = "IS" → right = .value .null) ∧ (operator = "IN" → right.ListOrQuery) ∧
        (operator ∈ ["LIKE", "ILIKE", "REGEXP"] → ∃ s, right = .value (.string s)) := by
  by_cases h : right = .unknown
  · subst h
    exact iff_of_true rfl (.inl rfl)
  · rw [checkRightOperand_eq_ok h, or_iff_right h]

namespace BinaryDraft

variable {b b' : BinaryDraft}

/-- The steps that an operator allows. -/
def Step.Allowed (operator : String) : Step → Prop
  | .left e => operator = ":=" → e = .unknown ∨ ∃ name, e = .userVariable name
  | .right e => operator ≠ "IS" ∧ (operator = "IN" → e = .unknown ∨ e.ListOrQuery) ∧
      (operator ∈ ["LIKE", "ILIKE", "REGEXP"] → e = .unknown ∨ ∃ s, e = .value (.string s))
  | .negated n => n = true → operator ∈ negatableOperators

/-- What a step changes. -/
def Step.change : Step → BinaryDraft → BinaryDraft
  | .left e, b => { b with left := e }
  | .right e, b => { b with right := e }
  | .negated n, b => { b with negated := n }

/-- An expression under construction has the operator, and this accepts the operands that are set.
The right side of `IS` is set from the start. -/
structure Fits (operator : String) (b : BinaryDraft) : Prop where
  operator_eq : b.operator = operator
  variableOnLeft : operator = ":=" → b.left = .unknown ∨ ∃ name, b.left = .userVariable name
  nullOnRight : operator = "IS" → b.right = .value .null
  listOrQueryOnRight : operator = "IN" → b.right = .unknown ∨ b.right.ListOrQuery
  stringOnRight : operator ∈ ["LIKE", "ILIKE", "REGEXP"] →
    b.right = .unknown ∨ ∃ s, b.right = .value (.string s)
  negatable : b.negated = true → operator ∈ negatableOperators

/-! ### Starting -/

/-- The operators that an expression is started from, and the expression without operands. -/
theorem start_eq_ok {d : Dialect} :
    start d operator = .ok b ↔ d.supports operator = true ∧
      b = ⟨operator.toUpper, .unknown, if operator.toUpper = "IS" then .value .null else .unknown,
        false⟩ := by
  rw [start, normalizeOperator]
  split
  · next h =>
    rw [ok_bind, and_iff_right h]
    exact ⟨fun hb => (Except.ok.inj hb).symm, fun hb => hb ▸ rfl⟩
  · next h =>
    refine iff_of_false (fun hb => ?_) fun hb => h hb.1
    cases hb

theorem fits_start {d : Dialect} (h : start d operator = .ok b) : b.Fits operator.toUpper := by
  obtain ⟨-, rfl⟩ := start_eq_ok.mp h
  refine ⟨rfl, fun _ => .inl rfl, fun hnull => if_pos hnull, fun hlist => .inl (if_neg ?_),
    fun hstring => .inl (if_neg ?_), fun hnot => absurd hnot Bool.false_ne_true⟩
  · rw [hlist]
    decide
  · intro hnull
    rw [hnull] at hstring
    exact absurd hstring (by decide)

/-! ### Single steps -/

/-- A step looks at what it is given before it changes anything. -/
theorem steady (s : Step) : (perform s).Steady := by
  cases s with
  | left e => exact .get fun b => .check (.set _)
  | right e => exact .get fun b => .guard (.check (.set _))
  | negated n => exact .get fun b => .check (.set _)

/-- A step is refused just if the operator does not allow it. -/
theorem step_eq_ok {s : Step} :
    step s b = .ok b' ↔ b' = s.change b ∧ s.Allowed b.operator := by
  cases s with
  | left e =>
    rw [step, perform, setLeft, Edit.result_get, Edit.result_check_set_eq_ok, checkLeftOperand_iff]
    rfl
  | right e =>
    rw [step, perform, setRight, Edit.result_get, Edit.result_guard, guard_eq_ok,
      Edit.result_check_set_eq_ok, checkRightOperand_iff, and_left_comm]
    refine and_congr_right fun _ => and_congr_right fun hnull => ?_
    by_cases hunset : e = .unknown
    · simp only [hunset, true_or, implies_true, and_self]
    · simp only [hunset, hnull, false_or, false_implies, true_and]
  | negated n =>
    rw [step, perform, setNegated, Edit.result_get, Edit.result_check_set_eq_ok,
      checkNegation_eq_ok]
    rfl

/-- A step that is not refused leaves an expression that fits. -/
theorem Fits.of_step {s : Step} (h : b.Fits operator) (hs : step s b = .ok b') :
    b'.Fits operator := by
  obtain ⟨rfl, hallowed⟩ := step_eq_ok.mp hs
  rw [h.operator_eq] at hallowed
  cases s with
  | left e => exact { h with variableOnLeft := hallowed }
  | right e =>
    obtain ⟨hnull, hlist, hstring⟩ := hallowed
    exact { h with
      nullOnRight := fun ho => absurd ho hnull
      listOrQueryOnRight := hlist
      stringOnRight := hstring }
  | negated n => exact { h with negatable := hallowed }

/-! ### What is checked -/

/-- The rules of the operator hold, so the check of an expression fails only as that of one of its
operands. -/
theorem Fits.check_error (h : b.Fits operator) {e : Error} (he : b.toExpr.check = .error e) :
    checkSlot .binary "left" b.left b.left.check = .error e ∨
      checkSlot .binary "right" b.right b.right.check = .error e := by
  obtain ⟨rfl, hvariable, hnull, hlist, hstring, hnegatable⟩ := h
  have hleft : checkLeftOperand b.operator b.left = .ok () := checkLeftOperand_iff.mpr hvariable
  have hright : checkRightOperand b.operator b.right = .ok () := by
    rw [checkRightOperand_iff, or_iff_not_imp_left]
    exact fun hset => ⟨hnull, fun ho => (hlist ho).resolve_left hset,
      fun ho => (hstring ho).resolve_left hset⟩
  have hnegation : checkNegation b.operator b.negated = .ok () := checkNegation_eq_ok.mpr hnegatable
  rw [toExpr, Expr.check, hleft, ok_bind, hright, ok_bind, hnegation, ok_bind] at he
  cases hslot : checkSlot .binary "left" b.left b.left.check with
  | ok _ =>
    rw [hslot, ok_bind] at he
    exact .inr he
  | error e' =>
    rw [hslot] at he
    exact .inl he

/-! ### Whole expressions -/

/-- The steps that build an expression. -/
def steps (b : BinaryDraft) : List Step :=
  .left b.left :: (if b.operator = "IS" then [] else [.right b.right]) ++ [.negated b.negated]

/-- An expression that fits is built by steps that all succeed. -/
theorem Fits.performAll_steps {d : Dialect} {empty : BinaryDraft} (h : b.Fits operator.toUpper)
    (hstart : start d operator = .ok empty) : performAll step b.steps empty = .ok b := by
  obtain ⟨-, rfl⟩ := start_eq_ok.mp hstart
  obtain ⟨operator', left, right, negated⟩ := b
  obtain ⟨rfl, hvariable, hnull, hlist, hstring, hnegatable⟩ := h
  have hleft (right : Expr) : step (.left left) ⟨operator.toUpper, .unknown, right, false⟩ =
      .ok ⟨operator.toUpper, left, right, false⟩ :=
    step_eq_ok.mpr ⟨rfl, hvariable⟩
  have hright (ho : operator.toUpper ≠ "IS") :
      step (.right right) ⟨operator.toUpper, left, .unknown, false⟩ =
        .ok ⟨operator.toUpper, left, right, false⟩ :=
    step_eq_ok.mpr ⟨rfl, ho, hlist, hstring⟩
  have hnegated : step (.negated negated) ⟨operator.toUpper, left, right, false⟩ =
      .ok ⟨operator.toUpper, left, right, negated⟩ :=
    step_eq_ok.mpr ⟨rfl, hnegatable⟩
  rw [steps, List.cons_append, performAll_cons, hleft, ok_bind]
  by_cases ho : operator.toUpper = "IS"
  · rw [if_pos ho, if_pos ho, List.nil_append, performAll_singleton, ← hnull ho, hnegated]
  · rw [if_neg ho, if_neg ho, List.singleton_append, performAll_cons, hright ho, ok_bind,
      performAll_singleton, hnegated]

/-- An expression can be started just from the operators of the dialect, in whatever case. A step
that fails leaves the expression as it was, so that what any steps build is what the successful ones
among them build, and a step fails just if the operator does not allow it. What has been built has
the operator in upper case and fits it: a variable or nothing on the left of an assignment, null on
the right of `IS`, a list with values, a query or nothing on the right of `IN`, a text or nothing on
the right of `LIKE`, `ILIKE` and `REGEXP`, and no negation of another operator. So its check fails
only as that of an operand. Conversely whatever fits is built by steps that all succeed. -/
theorem rules_enforced (d : Dialect) (operator : String) :
    ((∃ b, start d operator = .ok b) ↔
      ∃ listed ∈ d.operators, List.Forall₂ SameLetter listed.toList operator.toList) ∧
    ∀ empty, start d operator = .ok empty →
      (∀ steps, let b := runSteps perform steps empty
        (∀ s left e, perform s b = .error e left → left = b) ∧
        (∃ kept, kept.Sublist steps ∧ performAll step kept empty = .ok b) ∧
        (∀ s b', step s b = .ok b' ↔ b' = s.change b ∧ s.Allowed operator.toUpper) ∧
        b.Fits operator.toUpper ∧
        ∀ e, b.toExpr.check = .error e →
          checkSlot .binary "left" b.left b.left.check = .error e ∨
          checkSlot .binary "right" b.right b.right.check = .error e) ∧
      ∀ b, b.Fits operator.toUpper → performAll step b.steps empty = .ok b := by
  refine ⟨?_, fun empty hempty => ⟨fun steps => ?_, ?_⟩⟩
  · simp only [← sameLetters_iff, ← List.any_eq_true]
    exact ⟨fun ⟨b, hb⟩ => (start_eq_ok.mp hb).1, fun h => ⟨_, start_eq_ok.mpr ⟨h, rfl⟩⟩⟩
  · obtain ⟨kept, hsub, hkept⟩ := exists_performAll_eq_runSteps steady steps empty
    have hfits : (runSteps perform steps empty).Fits operator.toUpper :=
      performAll_induction (fun _ _ _ h hs => h.of_step hs) hkept (fits_start hempty)
    refine ⟨?_, ?_, ?_, ?_, ?_⟩
    · exact fun s left e => steady s _ left e
    · exact ⟨kept, hsub, hkept⟩
    · intro s b'
      rw [step_eq_ok, hfits.operator_eq]
    · exact hfits
    · exact fun e => hfits.check_error
  · exact fun b h => h.performAll_steps hempty

/-- The operator `ILIKE`, started in another case, with a number and a column that are refused as
its pattern. Without its left side it does not pass its check. -/
theorem rules_enforced_ilike :
    let empty : BinaryDraft := ⟨"ILIKE", .unknown, .unknown, false⟩
    let steps : List Step := [
      .right (.ofNatural 1), .right (.ofString "K%"), .negated true, .right (.ofColumn "pattern")]
    let b := runSteps perform steps empty
    let missing : Error := .incomplete Kind.binary.tag (.slot "left")
    start .postgreSQL "iLike" = .ok empty ∧
      (∃ listed ∈ Dialect.postgreSQL.operators,
        List.Forall₂ SameLetter listed.toList "iLike".toList) ∧
      b = ⟨"ILIKE", .unknown, .ofString "K%", true⟩ ∧ b.Fits "ILIKE" ∧
      perform (.right (.ofNatural 1)) b = .error (.invalidOperand "ILIKE" .stringOnRight) b ∧
      b.toExpr.check = .error missing ∧
      (checkSlot .binary "left" b.left b.left.check = .error missing ∨
        checkSlot .binary "right" b.right b.right.check = .error missing) ∧
      performAll step b.steps empty = .ok b := by
  have hupper : "iLike".toUpper = "ILIKE" := by
    rw [← String.toList_inj, String.toUpper, String.toList_map]
    decide
  intro empty steps b missing
  have hstart : start .postgreSQL "iLike" = .ok empty := by
    rw [start, normalizeOperator_of_upper (by rw [hupper]; decide), hupper]
    rfl
  obtain ⟨hlisted, hbuilt⟩ := rules_enforced .postgreSQL "iLike"
  obtain ⟨hsteps, hfits⟩ := hbuilt empty hstart
  obtain ⟨hfailed, -, -, hrules, hcheck⟩ := hsteps steps
  have hperform : performAll step b.steps empty = .ok b := hfits b hrules
  rw [hupper] at hrules
  have hopen : b.toExpr.check = .error missing := rfl
  have hrefused : ∃ left, perform (.right (.ofNatural 1)) b =
      .error (.invalidOperand "ILIKE" .stringOnRight) left := ⟨_, rfl⟩
  obtain ⟨left, hleft⟩ := hrefused
  rw [hfailed _ _ _ hleft] at hleft
  exact ⟨hstart, hlisted.mp ⟨empty, hstart⟩, rfl, hrules, hleft, hopen, hcheck _ hopen, hperform⟩

end BinaryDraft

end SqlTree
