import SqlTree.Proofs.Sql.Elementary

/-!
# Which operands the text of a condition shows

The text tells two elementary expressions apart exactly if they differ once their operators are
taken from left to right. Expressions in which only a name, arithmetic or a group stands on the
right of a comparison or as the upper bound of a range are in that order already, so that their
text tells them apart. A group of one item does not show its operator.

## Main definitions

* `Expr.regrouped`: an expression with its operators taken from left to right.
* `Expr.Grouped`: nothing in an expression would be regrouped.

## Main results

* `Expr.same_text_iff`: the texts of two finished elementary expressions are equal if and only if
  the expressions are regrouped alike.
* `Expr.different_with_same_text`: different expressions with the same text.
-/

namespace SqlTree

/-! ### Operators from left to right -/

/-- An expression with something else in place of its first operand. -/
def Expr.mapFirst (f : Expr → Expr) : Expr → Expr
  | .binary operator left right negated => .binary operator (left.mapFirst f) right negated
  | .nullTest left negated => .nullTest (left.mapFirst f) negated
  | .between left start stop negated => .between (left.mapFirst f) start stop negated
  | e => f e

mutual

/-- An expression with its operators taken from left to right: a comparison and a range have just
the first operand of what stands on their right, and what follows it applies to all that stands
before. A group of one item is taken for one with `AND`. -/
def Expr.regrouped : Expr → Expr
  | .binary operator left right negated =>
    right.regrouped.mapFirst fun first => .binary operator left.regrouped first negated
  | .nullTest left negated => .nullTest left.regrouped negated
  | .between left start stop negated =>
    stop.regrouped.mapFirst fun first => .between left.regrouped start.regrouped first negated
  | .math operator operands => .math operator (regroupedAll operands)
  | .group operator items =>
    .group (if items.length = 1 then .and else operator) (regroupedAll items)
  | e => e

/-- A list of expressions, each with its operators taken from left to right. -/
def regroupedAll : List Expr → List Expr
  | [] => []
  | e :: rest => e.regrouped :: regroupedAll rest

end

theorem regroupedAll_eq_map (es : List Expr) : regroupedAll es = es.map Expr.regrouped := by
  induction es with
  | nil => rfl
  | cons e rest ih => rw [regroupedAll, ih, List.map_cons]

/-- An expression that stands by itself in a text: a column, arithmetic or a group. -/
def Expr.StandsAlone : Expr → Prop
  | .column .. => True
  | .math .. => True
  | .group .. => True
  | _ => False

/-- Nothing in the expression is regrouped: what stands on the right of a comparison and as the
upper bound of a range stands alone, and no group of one item has the operator `OR`. -/
inductive Expr.Grouped : Expr → Prop
  | column (table : Option String) (name : String) : Grouped (.column table name)
  | binary (operator : String) {left right : Expr} (negated : Bool) (hl : left.Grouped)
      (hr : right.Grouped) (halone : right.StandsAlone) :
      Grouped (.binary operator left right negated)
  | nullTest {left : Expr} (negated : Bool) (hl : left.Grouped) : Grouped (.nullTest left negated)
  | range {left start stop : Expr} (negated : Bool) (hl : left.Grouped) (hstart : start.Grouped)
      (hstop : stop.Grouped) (halone : stop.StandsAlone) :
      Grouped (.between left start stop negated)
  | math (operator : String) {operands : List Expr} (h : ∀ e ∈ operands, e.Grouped) :
      Grouped (.math operator operands)
  | group {operator : GroupOperator} {items : List Expr} (hone : operator = .or → items.length ≠ 1)
      (h : ∀ e ∈ items, e.Grouped) : Grouped (.group operator items)

theorem Expr.StandsAlone.mapFirst_eq {e : Expr} (h : e.StandsAlone) (f : Expr → Expr) :
    e.mapFirst f = f e := by
  cases e with
  | column => rfl
  | math => rfl
  | group => rfl
  | _ => exact h.elim

theorem Expr.Grouped.regrouped_eq {e : Expr} (h : e.Grouped) : e.regrouped = e := by
  have hall {es : List Expr} (ih : ∀ e ∈ es, e.regrouped = e) : regroupedAll es = es := by
    rw [regroupedAll_eq_map]
    exact (List.map_congr_left ih).trans (List.map_id' es)
  induction h with
  | column => rfl
  | binary operator negated _ _ halone ihl ihr =>
    rw [Expr.regrouped, ihr, halone.mapFirst_eq, ihl]
  | nullTest negated _ ihl => rw [Expr.regrouped, ihl]
  | range negated _ _ _ halone ihl ihstart ihstop =>
    rw [Expr.regrouped, ihstop, halone.mapFirst_eq, ihl, ihstart]
  | math operator _ ih => rw [Expr.regrouped, hall ih]
  | @group operator items hone _ ih =>
    rw [Expr.regrouped, hall ih]
    split
    · next hlength =>
      cases operator with
      | and => rfl
      | or => exact absurd hlength (hone rfl)
    · rfl

/-! ### Phrases as expressions -/

/-- The list of expressions with a separator between its items. -/
def Separator.enclose (separator : Separator) (items : List Expr) : Expr :=
  if separator.text = "AND" then .group .and items
  else if separator.text = "OR" then .group .or items
  else .math separator.text items

mutual

/-- The expression that an operand is read as. -/
def Operand.expr : Operand → Expr
  | .name name => .column none name
  | .list first .none => .group .and [first.expr]
  | .list first (.cons separator second rest) =>
    separator.enclose (first.expr :: second.expr :: rest.exprs)

/-- The expression that a phrase is read as, its operators taken from left to right. -/
def Phrase.expr : Phrase → Expr
  | ⟨operand, tests⟩ => tests.onto operand.expr

/-- Comparisons and tests of an expression that stands before them. -/
def Tests.onto : Tests → Expr → Expr
  | .none, e => e
  | .comparison operator right rest, e => rest.onto (.binary operator.text e right.expr false)
  | .nullTest negated rest, e => rest.onto (.nullTest e negated)
  | .range negated start stop rest, e => rest.onto (.between e start.expr stop.expr negated)

/-- The expressions that items are read as. -/
def Items.exprs : Items → List Expr
  | .none => []
  | .cons _ item rest => item.expr :: rest.exprs

end

theorem Tests.then_onto : ∀ (t further : Tests) (e : Expr),
    (t.then further).onto e = further.onto (t.onto e)
  | .none, _, _ => rfl
  | .comparison operator right rest, further, e => by
    rw [Tests.then, Tests.onto, Tests.onto, then_onto rest]
  | .nullTest negated rest, further, e => by
    rw [Tests.then, Tests.onto, Tests.onto, then_onto rest]
  | .range negated start stop rest, further, e => by
    rw [Tests.then, Tests.onto, Tests.onto, then_onto rest]

theorem Phrase.expr_eq (p : Phrase) : p.expr = p.tests.onto p.operand.expr := by
  obtain ⟨operand, tests⟩ := p
  rw [Phrase.expr]

theorem Phrase.then_expr (p : Phrase) (further : Tests) :
    (p.then further).expr = further.onto p.expr := by
  rw [Phrase.expr_eq, Phrase.then, Tests.then_onto, ← Phrase.expr_eq]

theorem Operand.standsAlone (o : Operand) : o.expr.StandsAlone := by
  cases o with
  | name name => trivial
  | list first others =>
    cases others with
    | none => trivial
    | cons separator second rest =>
      rw [Operand.expr, Separator.enclose]
      split
      · trivial
      · split <;> trivial

/-- Comparisons and tests leave the first operand where it is. -/
theorem Tests.mapFirst_onto (f : Expr → Expr) : ∀ (t : Tests) (e : Expr),
    (t.onto e).mapFirst f = t.onto (e.mapFirst f)
  | .none, _ => rfl
  | .comparison operator right rest, e => by
    rw [Tests.onto, Tests.onto, mapFirst_onto f rest, Expr.mapFirst]
  | .nullTest negated rest, e => by
    rw [Tests.onto, Tests.onto, mapFirst_onto f rest, Expr.mapFirst]
  | .range negated start stop rest, e => by
    rw [Tests.onto, Tests.onto, mapFirst_onto f rest, Expr.mapFirst]

theorem Phrase.mapFirst_expr (f : Expr → Expr) (p : Phrase) :
    p.expr.mapFirst f = p.tests.onto (f p.operand.expr) := by
  rw [Phrase.expr_eq, Tests.mapFirst_onto, p.operand.standsAlone.mapFirst_eq]

theorem Items.exprs_of (separator : Separator) (ps : List Phrase) :
    (Items.of separator ps).exprs = ps.map Phrase.expr := by
  induction ps with
  | nil => rfl
  | cons p rest ih => rw [Items.of, Items.exprs, ih, List.map_cons]

/-- A list of at least two items is read as what its separator encloses. -/
theorem Phrase.list_expr (separator : Separator) (first second : Phrase) (others : List Phrase) :
    (Phrase.list separator (first :: second :: others)).expr =
      separator.enclose ((first :: second :: others).map Phrase.expr) := by
  rw [Phrase.list, Items.of, Phrase.expr, Tests.onto, Operand.expr, Items.exprs_of]
  rfl

/-- The operators of arithmetic are neither of the connectives. -/
theorem ne_connective {operator : String}
    (h : ∃ op ∈ mathOperators, sameLetters op operator = true) :
    operator ≠ "AND" ∧ operator ≠ "OR" := by
  obtain ⟨op, hmem, hsame⟩ := h
  have hword : ∀ word ∈ upperSeparators, op.toUpper = word.toUpper → op = word := by
    intro word hword heq
    rwa [toUpper_of_mem_words (List.mem_append_left _ hword), toUpper_of_mem_words
      (List.mem_append_left _ (List.mem_cons_of_mem _ (List.mem_cons_of_mem _ hmem)))] at heq
  have hno : "AND" ∉ mathOperators ∧ "OR" ∉ mathOperators := by decide
  constructor <;> rintro rfl
  · exact hno.1 (hword "AND" (by decide) (beq_iff_eq.mp hsame) ▸ hmem)
  · exact hno.2 (hword "OR" (by decide) (beq_iff_eq.mp hsame) ▸ hmem)

/-- A finished elementary expression is read with its operators taken from left to right. -/
theorem Expr.Legible.expr_phrase {e : Expr} (h : e.Legible) : e.phrase.expr = e.regrouped := by
  have hall {es : List Expr} (ih : ∀ e ∈ es, e.phrase.expr = e.regrouped) :
      (es.map Expr.phrase).map Phrase.expr = regroupedAll es := by
    rw [List.map_map, regroupedAll_eq_map]
    exact List.map_congr_left ih
  induction h with
  | column => rfl
  | @comparison operator left right _ _ ihl ihr =>
    rw [Expr.phrase_comparison, Phrase.then_expr, Tests.onto, Expr.regrouped, ← ihr,
      Phrase.mapFirst_expr, ihl]
  | nullTest negated _ ihl =>
    rw [Expr.phrase, Phrase.then_expr, Tests.onto, Tests.onto, Expr.regrouped, ihl]
  | range negated _ _ _ ihl ihstart ihstop =>
    rw [Expr.phrase, Phrase.then_expr, Tests.onto, Expr.regrouped, ← ihstop,
      Phrase.mapFirst_expr, ihl, ihstart]
  | @math operator first second others hop _ ih =>
    obtain ⟨hand, hor⟩ := ne_connective hop
    have hseparates : Separates operator := .inr (.inr hop)
    rw [Expr.phrase_math hseparates, List.map_cons, List.map_cons, Phrase.list_expr,
      ← List.map_cons, ← List.map_cons, hall ih, Separator.enclose, if_neg hand, if_neg hor,
      Expr.regrouped]
  | @group operator first others _ ih =>
    rw [Expr.phrase_group, Expr.regrouped]
    cases others with
    | nil =>
      rw [← hall ih]
      rfl
    | cons second others =>
      have hlength : ¬(first :: second :: others).length = 1 := by simp
      rw [List.map_cons, List.map_cons, Phrase.list_expr, ← List.map_cons, ← List.map_cons,
        hall ih, if_neg hlength]
      cases operator <;> rfl

/-- Replacing the first operand of an expression replaces that of its phrase. -/
theorem Expr.phrase_mapFirst {f : Expr → Expr} {g : Phrase → Phrase}
    (hf : ∀ e, (f e).phrase = g e.phrase) (hg : ∀ p t, g (p.then t) = (g p).then t) :
    ∀ e : Expr, (e.mapFirst f).phrase = g e.phrase
  | .binary operator left right negated => by
    rw [Expr.mapFirst, Expr.phrase, Expr.phrase, phrase_mapFirst hf hg left]
    split
    · exact (hg _ _).symm
    · rfl
  | .nullTest left negated => by
    rw [Expr.mapFirst, Expr.phrase, Expr.phrase, phrase_mapFirst hf hg left, hg]
  | .between left start stop negated => by
    rw [Expr.mapFirst, Expr.phrase, Expr.phrase, phrase_mapFirst hf hg left, hg]
  | .unknown => hf _
  | .value _ => hf _
  | .column .. => hf _
  | .userVariable _ => hf _
  | .oneOf .. => hf _
  | .existence .. => hf _
  | .caseOf .. => hf _
  | .function .. => hf _
  | .math .. => hf _
  | .group .. => hf _
  | .query _ => hf _

theorem Tests.then_assoc : ∀ (t u v : Tests), (t.then u).then v = t.then (u.then v)
  | .none, _, _ => rfl
  | .comparison operator right rest, u, v => by
    rw [Tests.then, Tests.then, Tests.then, then_assoc rest]
  | .nullTest negated rest, u, v => by
    rw [Tests.then, Tests.then, Tests.then, then_assoc rest]
  | .range negated start stop rest, u, v => by
    rw [Tests.then, Tests.then, Tests.then, then_assoc rest]

theorem Phrase.then_assoc (p : Phrase) (t u : Tests) : (p.then t).then u = p.then (t.then u) := by
  rw [Phrase.then, Phrase.then, Phrase.then, Tests.then_assoc]

/-- Regrouping keeps the phrase of a finished elementary expression. -/
theorem Expr.Legible.phrase_regrouped {e : Expr} (h : e.Legible) :
    e.regrouped.phrase = e.phrase := by
  have hall {es : List Expr} (ih : ∀ e ∈ es, e.regrouped.phrase = e.phrase) :
      (regroupedAll es).map Expr.phrase = es.map Expr.phrase := by
    rw [regroupedAll_eq_map, List.map_map]
    exact List.map_congr_left ih
  induction h with
  | column => rfl
  | @comparison operator left right _ _ ihl ihr =>
    rw [Expr.regrouped, Expr.phrase_comparison, ← ihl, ← ihr]
    refine Expr.phrase_mapFirst (g := fun p =>
      left.regrouped.phrase.then (.comparison operator p.operand p.tests))
      (fun e => Expr.phrase_comparison ..) (fun p t => ?_) _
    rw [Phrase.then_assoc]
    rfl
  | nullTest negated _ ihl => rw [Expr.regrouped, Expr.phrase, Expr.phrase, ihl]
  | @range left start stop negated _ _ _ ihl ihstart ihstop =>
    rw [Expr.regrouped, Expr.phrase, ← ihl, ← ihstart, ← ihstop]
    refine Expr.phrase_mapFirst (g := fun p =>
      left.regrouped.phrase.then (.range negated start.regrouped.phrase p.operand p.tests))
      (fun e => by rw [Expr.phrase]) (fun p t => ?_) _
    rw [Phrase.then_assoc]
    rfl
  | @math operator first second others hop _ ih =>
    have hseparates : Separates operator := .inr (.inr hop)
    rw [Expr.regrouped, Expr.phrase_math hseparates, Expr.phrase_math hseparates, hall ih]
  | @group operator first others _ ih =>
    rw [Expr.regrouped, Expr.phrase_group, Expr.phrase_group, hall ih]
    cases others with
    | nil => rfl
    | cons second others =>
      have hlength : ¬(first :: second :: others).length = 1 := by simp
      rw [if_neg hlength]

/-! ### What the texts tell apart -/

/-- Two finished elementary expressions have texts, and these are equal if and only if the
expressions are alike with their operators taken from left to right. In particular the texts differ
if the expressions do and in both just columns, arithmetic and groups stand on the right of
comparisons and as upper bounds of ranges, no group of one item having the operator `OR`. -/
theorem Expr.same_text_iff {e₁ e₂ : Expr} (h₁ : e₁.Elementary) (h₂ : e₂.Elementary)
    (hc₁ : (Node.expr e₁).check = .ok ()) (hc₂ : (Node.expr e₂).check = .ok ()) :
    ∃ text₁ text₂, (Node.expr e₁).toSql = .ok text₁ ∧ (Node.expr e₂).toSql = .ok text₂ ∧
      (text₁ = text₂ ↔ e₁.regrouped = e₂.regrouped) ∧
      (text₁ = text₂ → e₁.Grouped → e₂.Grouped → e₁ = e₂) := by
  have hl₁ := h₁.legible hc₁
  have hl₂ := h₂.legible hc₂
  have hiff : e₁.sql = e₂.sql ↔ e₁.regrouped = e₂.regrouped := by
    rw [hl₁.sql_eq_iff hl₂]
    constructor
    · intro h
      rw [← hl₁.expr_phrase, h, hl₂.expr_phrase]
    · intro h
      rw [← hl₁.phrase_regrouped, h, hl₂.phrase_regrouped]
  refine ⟨e₁.sql, e₂.sql, Node.toSql_eq hc₁, Node.toSql_eq hc₂, hiff, fun h hg₁ hg₂ => ?_⟩
  rw [← hg₁.regrouped_eq, ← hg₂.regrouped_eq]
  exact hiff.mp h

/-- The texts of `a = b` compared with `c`, and of `a` compared with `b = c`, are equal, and both
expressions are regrouped to the first one. -/
theorem Expr.same_text_of_comparisons :
    let left := Expr.binary "=" (.binary "=" (.ofColumn "a") (.ofColumn "b") false) (.ofColumn "c")
      false
    let right := Expr.binary "=" (.ofColumn "a") (.binary "=" (.ofColumn "b") (.ofColumn "c") false)
      false
    right.regrouped = left ∧ ∃ text, (Node.expr left).toSql = .ok text ∧
      (Node.expr right).toSql = .ok text := by
  intro left right
  have ha : (Expr.ofColumn "a").Elementary := .column (by decide)
  have hb : (Expr.ofColumn "b").Elementary := .column (by decide)
  have hc : (Expr.ofColumn "c").Elementary := .column (by decide)
  have heq : "=" ∈ comparisons := by decide
  obtain ⟨text, text', htext, htext', hiff, -⟩ :=
    Expr.same_text_iff (.comparison false heq (.comparison false heq ha hb) hc)
      (.comparison false heq ha (.comparison false heq hb hc)) rfl rfl
  obtain rfl := hiff.mpr rfl
  exact ⟨rfl, text, htext, htext'⟩

/-- Two different expressions that are finished and elementary and have the same text. -/
structure Expr.LookAlike (e₁ e₂ : Expr) : Prop where
  elementary₁ : e₁.Elementary
  elementary₂ : e₂.Elementary
  finished₁ : (Node.expr e₁).check = .ok ()
  finished₂ : (Node.expr e₂).check = .ok ()
  sameText : (Node.expr e₁).toSql = (Node.expr e₂).toSql
  different : e₁ ≠ e₂

/-- Expressions whose phrases are the same look alike. -/
theorem Expr.LookAlike.of_phrase {e₁ e₂ : Expr} (h₁ : e₁.Elementary) (h₂ : e₂.Elementary)
    (hc₁ : (Node.expr e₁).check = .ok ()) (hc₂ : (Node.expr e₂).check = .ok ())
    (h : e₁.phrase = e₂.phrase) (hne : e₁ ≠ e₂) : LookAlike e₁ e₂ := by
  refine ⟨h₁, h₂, hc₁, hc₂, ?_, hne⟩
  rw [Node.toSql_eq hc₁, Node.toSql_eq hc₂]
  exact congrArg Except.ok (((h₁.legible hc₁).sql_eq_iff (h₂.legible hc₂)).mpr h)

/-- A text does not show whether a comparison stands on the left or on the right of another one, nor
whether it compares a range or stands at the upper bound of the range, nor the operator of a group
of one item. -/
theorem Expr.different_with_same_text :
    LookAlike
      (.binary "=" (.binary "=" (.ofColumn "a") (.ofColumn "b") false) (.ofColumn "c") false)
      (.binary "=" (.ofColumn "a") (.binary "=" (.ofColumn "b") (.ofColumn "c") false) false) ∧
    LookAlike
      (.binary "=" (.between (.ofColumn "a") (.ofColumn "b") (.ofColumn "c") false) (.ofColumn "d")
        false)
      (.between (.ofColumn "a") (.ofColumn "b") (.binary "=" (.ofColumn "c") (.ofColumn "d") false)
        false) ∧
    LookAlike (.group .and [.ofColumn "a"]) (.group .or [.ofColumn "a"]) := by
  have ha : (Expr.ofColumn "a").Elementary := .column (by decide)
  have hb : (Expr.ofColumn "b").Elementary := .column (by decide)
  have hc : (Expr.ofColumn "c").Elementary := .column (by decide)
  have hd : (Expr.ofColumn "d").Elementary := .column (by decide)
  have heq : "=" ∈ comparisons := by decide
  refine ⟨?_, ?_, ?_⟩
  · exact .of_phrase (.comparison false heq (.comparison false heq ha hb) hc)
      (.comparison false heq ha (.comparison false heq hb hc)) rfl rfl rfl nofun
  · exact .of_phrase (.comparison false heq (.range false ha hb hc) hd)
      (.range false ha hb (.comparison false heq hc hd)) rfl rfl rfl nofun
  · have hall : ∀ e ∈ [Expr.ofColumn "a"], e.Elementary := List.forall_mem_singleton.mpr ha
    exact .of_phrase (.group .and hall) (.group .or hall) rfl rfl rfl nofun

end SqlTree
