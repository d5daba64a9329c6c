import SqlTree.Node.Sql
import SqlTree.Proofs.Node.Completeness
import SqlTree.Proofs.Sql.Phrases

/-!
# The text of elementary expressions

Expressions made of columns, comparisons, null tests, ranges, arithmetic and groups are called
elementary. Arithmetic and groups stand in parentheses, while comparisons, null tests and ranges do
not, so the text of such an expression is that of a phrase in which what stands on the right of a
comparison ends with its first operand, and everything behind it is read as a further comparison or
test of all that stands before.

## Main definitions

* `Expr.Elementary`: elementary expressions.
* `Expr.phrase`: what the text of an elementary expression is read as.

## Main results

* `Expr.Legible.sql_eq_spell`: the text of a finished elementary expression is that of its phrase.
* `Expr.Legible.sql_eq_iff`: the texts of two of them are equal if and only if their phrases are.
-/

namespace SqlTree

/-! ### Elementary expressions -/

/-- Expressions made of unqualified columns by comparisons, null tests, ranges, arithmetic and
groups. -/
inductive Expr.Elementary : Expr → Prop
  | column {name : String} (h : name ≠ "") : Elementary (.column none name)
  | comparison {operator : String} {left right : Expr} (negated : Bool)
      (hop : operator ∈ comparisons) (hl : left.Elementary) (hr : right.Elementary) :
      Elementary (.binary operator left right negated)
  | nullTest {left : Expr} (negated : Bool) (hl : left.Elementary) :
      Elementary (.nullTest left negated)
  | range {left start stop : Expr} (negated : Bool) (hl : left.Elementary)
      (hstart : start.Elementary) (hstop : stop.Elementary) :
      Elementary (.between left start stop negated)
  | math (operator : String) {operands : List Expr} (h : ∀ e ∈ operands, e.Elementary) :
      Elementary (.math operator operands)
  | group (operator : GroupOperator) {items : List Expr} (h : ∀ e ∈ items, e.Elementary) :
      Elementary (.group operator items)

/-- Elementary expressions that are finished. -/
inductive Expr.Legible : Expr → Prop
  | column (name : String) : Legible (.column none name)
  | comparison (operator : Comparison) {left right : Expr} (hl : left.Legible)
      (hr : right.Legible) : Legible (.binary operator.text left right false)
  | nullTest {left : Expr} (negated : Bool) (hl : left.Legible) : Legible (.nullTest left negated)
  | range {left start stop : Expr} (negated : Bool) (hl : left.Legible) (hstart : start.Legible)
      (hstop : stop.Legible) : Legible (.between left start stop negated)
  | math {operator : String} {first second : Expr} {others : List Expr}
      (hop : ∃ op ∈ mathOperators, sameLetters op operator = true)
      (h : ∀ e ∈ first :: second :: others, e.Legible) :
      Legible (.math operator (first :: second :: others))
  | group (operator : GroupOperator) {first : Expr} {others : List Expr}
      (h : ∀ e ∈ first :: others, e.Legible) : Legible (.group operator (first :: others))

/-- Finished elementary expressions are legible. -/
theorem Expr.Elementary.legible {e : Expr} (h : e.Elementary) (hc : e.check = .ok ()) :
    e.Legible := by
  induction h with
  | column => exact .column _
  | @comparison operator left right negated hop _ _ ihl ihr =>
    obtain ⟨-, hrules, hparts⟩ := Expr.check_step.mp hc
    obtain ⟨hleft, hright⟩ := Node.forall_mem_pair.mp hparts
    have hno : ∀ op ∈ comparisons, op ∉ negatableOperators := by decide
    obtain rfl : negated = false := by
      cases negated with
      | false => rfl
      | true => exact absurd (hrules.negatable rfl) (hno operator hop)
    exact .comparison ⟨operator, hop⟩ (ihl hleft) (ihr hright)
  | nullTest negated _ ihl =>
    rw [Expr.check, checkSlot_eq_ok] at hc
    exact .nullTest negated (ihl hc)
  | range negated _ _ _ ihl ihstart ihstop =>
    simp only [Expr.check, seq_eq_ok, checkSlot_eq_ok] at hc
    obtain ⟨hleft, hstart, hstop⟩ := hc
    exact .range negated (ihl hleft) (ihstart hstart) (ihstop hstop)
  | @math operator operands _ ih =>
    obtain ⟨-, ⟨hop, hlength⟩, hparts⟩ := Expr.check_step.mp hc
    have hall : ∀ e ∈ operands, e.Legible := fun e he =>
      ih e he (hparts (.expr e) (List.mem_map_of_mem he))
    obtain ⟨first, rest, rfl⟩ := List.exists_cons_of_length_pos (Nat.zero_lt_of_lt hlength)
    obtain ⟨second, others, rfl⟩ := List.exists_cons_of_length_pos (Nat.lt_of_succ_lt_succ hlength)
    exact .math hop hall
  | @group operator items _ ih =>
    obtain ⟨-, hne, hparts⟩ := Expr.check_step.mp hc
    obtain ⟨first, others, rfl⟩ := List.exists_cons_of_ne_nil hne
    exact .group operator fun e he => ih e he (hparts (.expr e) (List.mem_map_of_mem he))

/-! ### The phrase of an expression -/

/-- Comparisons and tests after others. -/
def Tests.then : Tests → Tests → Tests
  | .none, further => further
  | .comparison operator right rest, further => .comparison operator right (rest.then further)
  | .nullTest negated rest, further => .nullTest negated (rest.then further)
  | .range negated start stop rest, further => .range negated start stop (rest.then further)

/-- A phrase with further comparisons and tests behind it. -/
def Phrase.then (p : Phrase) (further : Tests) : Phrase := ⟨p.operand, p.tests.then further⟩

/-- Items of a list, each behind the same separator. -/
def Items.of (separator : Separator) : List Phrase → Items
  | [] => .none
  | item :: rest => .cons separator item (Items.of separator rest)

/-- A list in parentheses; one without items is not written. -/
def Phrase.list (separator : Separator) : List Phrase → Phrase
  | [] => ⟨.name "", .none⟩
  | first :: others => ⟨.list first (Items.of separator others), .none⟩

/-- The operator of a group as the separator of its items. -/
def GroupOperator.separator (operator : GroupOperator) : Separator :=
  ⟨operator.text, by cases operator with
    | and => exact .inl rfl
    | or => exact .inr (.inl rfl)⟩

mutual

/-- What the text of an elementary expression is read as. The first operand on the right of a
comparison is its right side, and what stands behind this operand follows the comparison. -/
def Expr.phrase : Expr → Phrase
  | .column _ name => ⟨.name name, .none⟩
  | .binary operator left right _ =>
    if h : operator ∈ comparisons then
      left.phrase.then (.comparison ⟨operator, h⟩ right.phrase.operand right.phrase.tests)
    else left.phrase
  | .nullTest left negated => left.phrase.then (.nullTest negated .none)
  | .between left start stop negated =>
    left.phrase.then (.range negated start.phrase stop.phrase.operand stop.phrase.tests)
  | .math operator operands =>
    if h : Separates operator then .list ⟨operator, h⟩ (phrases operands) else .list .and []
  | .group operator items => .list operator.separator (phrases items)
  | _ => .list .and []

/-- The phrases of a list of expressions. -/
def phrases : List Expr → List Phrase
  | [] => []
  | e :: rest => e.phrase :: phrases rest

end

theorem phrases_eq_map (es : List Expr) : phrases es = es.map Expr.phrase := by
  induction es with
  | nil => rfl
  | cons e rest ih => rw [phrases, ih, List.map_cons]

theorem Expr.phrase_comparison (operator : Comparison) (left right : Expr) (negated : Bool) :
    (Expr.binary operator.text left right negated).phrase =
      left.phrase.then (.comparison operator right.phrase.operand right.phrase.tests) := by
  rw [Expr.phrase, dif_pos operator.listed]

theorem Expr.phrase_math {operator : String} (h : Separates operator) (operands : List Expr) :
    (Expr.math operator operands).phrase = .list ⟨operator, h⟩ (operands.map Expr.phrase) := by
  rw [Expr.phrase, dif_pos h, phrases_eq_map]

theorem Expr.phrase_group (operator : GroupOperator) (items : List Expr) :
    (Expr.group operator items).phrase = .list operator.separator (items.map Expr.phrase) := by
  rw [Expr.phrase, phrases_eq_map]

/-! ### The text of an expression is that of its phrase -/

theorem Tests.then_before : ∀ (t further : Tests) (tokens : List Token),
    (t.then further).before tokens = t.before (further.before tokens)
  | .none, _, _ => rfl
  | .comparison operator right rest, further, tokens => by
    rw [Tests.then, Tests.before, Tests.before, then_before rest]
  | .nullTest negated rest, further, tokens => by
    rw [Tests.then, Tests.before, Tests.before, then_before rest]
  | .range negated start stop rest, further, tokens => by
    rw [Tests.then, Tests.before, Tests.before, then_before rest]

theorem Phrase.then_before (p : Phrase) (further : Tests) (tokens : List Token) :
    (p.then further).before tokens = p.before (further.before tokens) := by
  obtain ⟨operand, tests⟩ := p
  rw [Phrase.then, Phrase.before, Phrase.before, Tests.then_before]

theorem Phrase.before_eq (p : Phrase) (tokens : List Token) :
    p.operand.before (p.tests.before tokens) = p.before tokens := by
  obtain ⟨operand, tests⟩ := p
  rw [Phrase.before]

/-- A word is written between spaces. -/
theorem spell_word (w : Word) (tokens : List Token) :
    spell false (.word w :: tokens) = ' ' :: w.text.toList ++ spell false tokens := rfl

/-- A negation is written before a word and a space behind it. -/
theorem spell_negationBefore (negated : Bool) (w : Word) (tokens : List Token) :
    spell false (negationBefore negated (.word w :: tokens)) =
      ' ' :: (negation negated).toList ++ w.text.toList ++ spell false tokens := by
  have hnot : "NOT ".toList = Word.not.text.toList ++ [' '] := by decide
  have hempty : "".toList = [] := by decide
  cases negated with
  | false => simp [negationBefore, spell_word, negation, hempty]
  | true => simp [negationBefore, spell_word, negation, hnot]

/-- The tokens of the phrase are written as the expression, with a space before them unless they
stand at the beginning of a text or of a list in parentheses. -/
def Expr.Spelled (e : Expr) : Prop :=
  ∀ tight tokens, spell tight (e.phrase.before tokens) =
    gap tight ++ e.sql.toList ++ spell false tokens

/-- The items of a list are written one after another, their separator between them. -/
theorem spell_items (separator : Separator) {first : Expr} {others : List Expr}
    (h : ∀ e ∈ first :: others, e.Spelled) (tight : Bool) (tokens : List Token) :
    spell tight (first.phrase.before
        ((Items.of separator (others.map Expr.phrase)).before (.closing :: tokens))) =
      gap tight ++ (joined (" " ++ separator.text ++ " ") (sqls (first :: others))).toList ++
        ')' :: spell false tokens := by
  induction others generalizing first tight with
  | nil =>
    obtain ⟨hfirst, -⟩ := List.forall_mem_cons.mp h
    rw [List.map_nil, Items.of, Items.before, hfirst]
    rfl
  | cons second others ih =>
    have hspace : " ".toList = [' '] := by decide
    obtain ⟨hfirst, hothers⟩ := List.forall_mem_cons.mp h
    rw [List.map_cons, Items.of, Items.before, hfirst, spell_word, ih hothers]
    simp [sqls, joined, hspace, Word.text, gap]

/-- A list is written in parentheses. -/
theorem spell_list (separator : Separator) {first : Expr} {others : List Expr}
    (h : ∀ e ∈ first :: others, e.Spelled) (tight : Bool) (tokens : List Token) :
    spell tight ((Phrase.list separator ((first :: others).map Expr.phrase)).before tokens) =
      gap tight ++ ("(" ++ joined (" " ++ separator.text ++ " ") (sqls (first :: others)) ++
        ")").toList ++ spell false tokens := by
  have hopening : "(".toList = ['('] := by decide
  have hclosing : ")".toList = [')'] := by decide
  have hspell (rest : List Token) :
      spell tight (.opening :: rest) = gap tight ++ '(' :: spell true rest := by
    simp [spell, Token.joins, Token.tightens, Token.text, hopening]
  rw [List.map_cons, Phrase.list, Phrase.before, Tests.before, Operand.before, hspell,
    spell_items separator h]
  simp [gap, hopening, hclosing]

/-- The tokens of a finished elementary expression are written as the expression. -/
theorem Expr.Legible.spelled {e : Expr} (h : e.Legible) : e.Spelled := by
  have hspace : " ".toList = [' '] := by decide
  induction h with
  | column name => exact fun tight tokens => rfl
  | @comparison operator left right _ _ ihl ihr =>
    intro tight tokens
    have hno : ∀ op ∈ comparisons, op ≠ "IS" := by decide
    rw [Expr.phrase_comparison, Phrase.then_before, ihl, Tests.before, Phrase.before_eq,
      spell_word, ihr, Expr.sql, if_neg (hno _ operator.listed)]
    simp [negation, hspace, Word.text, gap]
  | nullTest negated _ ihl =>
    intro tight tokens
    have his : " IS ".toList = ' ' :: Word.is.text.toList ++ [' '] := by decide
    have hnull : "NULL".toList = Word.null.text.toList := rfl
    rw [Expr.phrase, Phrase.then_before, ihl, Tests.before, spell_word, spell_negationBefore,
      Tests.before, Expr.sql]
    simp [his, hnull]
  | range negated _ _ _ ihl ihstart ihstop =>
    intro tight tokens
    have hbetween : "BETWEEN ".toList = Word.between.text.toList ++ [' '] := by decide
    have hand : " AND ".toList = ' ' :: (Word.separator .and).text.toList ++ [' '] := by decide
    rw [Expr.phrase, Phrase.then_before, ihl, Tests.before, Phrase.before_eq,
      spell_negationBefore, ihstart, spell_word, ihstop, Expr.sql]
    simp [hspace, hbetween, hand, gap]
  | @math operator first second others hop _ ih =>
    intro tight tokens
    have hseparates : Separates operator := .inr (.inr hop)
    rw [Expr.phrase_math hseparates, spell_list _ ih]
    rfl
  | @group operator first others _ ih =>
    intro tight tokens
    rw [Expr.phrase_group, spell_list _ ih]
    rfl

/-- The text of a finished elementary expression is that of its phrase. -/
theorem Expr.Legible.sql_eq_spell {e : Expr} (h : e.Legible) :
    e.sql.toList = spell true (e.phrase.before []) := by
  rw [h.spelled true []]
  simp [gap, spell]

/-- The texts of finished elementary expressions are equal if and only if their phrases are. -/
theorem Expr.Legible.sql_eq_iff {e₁ e₂ : Expr} (h₁ : e₁.Legible) (h₂ : e₂.Legible) :
    e₁.sql = e₂.sql ↔ e₁.phrase = e₂.phrase := by
  constructor
  · intro h
    have htokens : e₁.phrase.before [] = e₂.phrase.before [] := by
      rw [← lex_spell true (e₁.phrase.before []), ← h₁.sql_eq_spell, h, h₂.sql_eq_spell, lex_spell]
    exact (e₁.phrase.before_inj ends_nil ends_nil htokens).1
  · intro h
    rw [← String.toList_inj, h₁.sql_eq_spell, h₂.sql_eq_spell, h]

end SqlTree
