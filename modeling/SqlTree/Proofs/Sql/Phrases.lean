import SqlTree.Proofs.Document.Spelling
import SqlTree.Proofs.Sql.Identifiers

/-!
# Phrases

The text of a condition is a sequence of tokens: names, operators, the words of tests and
parentheses. Only names and parentheses are operands of their own; comparisons and tests follow
their left operand and stand behind one another without parentheses. The tokens are written with a
space between them, but not behind an opening and before a closing parenthesis.

A phrase is what a reader from left to right makes of the tokens: an operand, and behind it the
comparisons and tests in their order. Each comparison has just one operand on its right, since what
comes after this operand is read as the next comparison.

## Main definitions

* `Word`, `Token`, `spell`, `lex`: tokens, their text and the reading of texts as tokens.
* `Phrase`, with `Operand`, `Tests` and `Items`: what the tokens are read as.
* `Phrase.before`: the tokens of a phrase, before further tokens.

## Main results

* `lex_spell`: tokens are read back from their text.
* `Phrase.before_inj`: a phrase is read back from its tokens, if the tokens behind it do not go on
  with a comparison or a test.
-/

namespace SqlTree

/-! ### Words -/

/-- The operators of comparisons. -/
def comparisons : List String := ["=", "<>", "<", "<=", ">", ">="]

/-- An operator between the items of a list in parentheses, that of arithmetic in whatever case. -/
def Separates (operator : String) : Prop :=
  operator = "AND" ∨ operator = "OR" ∨ ∃ op ∈ mathOperators, sameLetters op operator = true

instance (operator : String) : Decidable (Separates operator) :=
  inferInstanceAs (Decidable (_ ∨ _))

/-- The operator of a comparison. -/
structure Comparison where
  text : String
  listed : text ∈ comparisons

/-- The operator between two items of a list in parentheses. -/
structure Separator where
  text : String
  separates : Separates text

/-- The separators in upper case. -/
def upperSeparators : List String := "AND" :: "OR" :: mathOperators

/-- The words other than separators. -/
def plainWords : List String := comparisons ++ ["IS", "NOT", "NULL", "BETWEEN"]

theorem toUpper_of_mem_words {word : String} (h : word ∈ upperSeparators ++ plainWords) :
    word.toUpper = word := by
  have hlower : ∀ word ∈ upperSeparators ++ plainWords, ∀ c ∈ word.toList, c.isLower = false := by
    simp [upperSeparators, mathOperators, plainWords, comparisons, Char.isLower]
  exact toUpper_eq_self (hlower word h)

theorem Separates.toUpper_mem {operator : String} (h : Separates operator) :
    operator.toUpper ∈ upperSeparators := by
  have hlisted : ∀ op ∈ upperSeparators, op.toUpper ∈ upperSeparators := fun op hop =>
    (toUpper_of_mem_words (List.mem_append_left _ hop)).symm ▸ hop
  rcases h with rfl | rfl | ⟨op, hop, hsame⟩
  · exact hlisted "AND" (by decide)
  · exact hlisted "OR" (by decide)
  · have heq : op.toUpper = operator.toUpper := beq_iff_eq.mp hsame
    exact heq ▸ hlisted op (List.mem_cons_of_mem _ (List.mem_cons_of_mem _ hop))

/-! ### Tokens -/

/-- A word or an operator. -/
inductive Word where
  | comparison (operator : Comparison)
  | separator (operator : Separator)
  | is
  | not
  | null
  | between

namespace Word

/-- The text of a word. -/
def text : Word → String
  | comparison operator => operator.text
  | separator operator => operator.text
  | is => "IS"
  | not => "NOT"
  | null => "NULL"
  | between => "BETWEEN"

/-- The word with a given text. -/
def ofText? (text : String) : Option Word :=
  if h : text ∈ comparisons then some (comparison ⟨text, h⟩)
  else if text = "IS" then some is
  else if text = "NOT" then some not
  else if text = "NULL" then some null
  else if text = "BETWEEN" then some between
  else if h : Separates text then some (separator ⟨text, h⟩)
  else none

end Word

/-- A smallest unit of the text of a condition. -/
inductive Token where
  | name (name : String)
  | word (word : Word)
  | opening
  | closing

namespace Token

/-- The text of a token. -/
def text : Token → String
  | name s => quoted s
  | word w => w.text
  | opening => "("
  | closing => ")"

/-- Whether a token follows a complete operand and goes on with it. -/
def continues : Token → Bool
  | word (.comparison _) => true
  | word .is => true
  | word .not => true
  | word .between => true
  | _ => false

/-- Whether a token is written without a space before it, `tight` telling that it is the first one
or follows an opening parenthesis. -/
def joins (tight : Bool) : Token → Bool
  | closing => true
  | _ => tight

/-- Whether the token after this one is written without a space before it. -/
def tightens : Token → Bool
  | opening => true
  | _ => false

end Token

/-- What is written between two tokens, if anything. -/
def gap (joined : Bool) : List Char := if joined then [] else [' ']

/-- The characters of tokens with a space between them, but not where parentheses join them. -/
def spell (tight : Bool) : List Token → List Char
  | [] => []
  | t :: rest => gap (t.joins tight) ++ t.text.toList ++ spell t.tightens rest

/-- Whether a character can stand in a word or an operator. -/
def inWord (c : Char) : Bool := !(c = ' ' || c = '(' || c = ')' || c = '\x60')

/-- The tokens of a text. Words that are no tokens are passed over. -/
def lex : List Char → List Token
  | [] => []
  | c :: rest =>
    if c = ' ' then lex rest
    else if c = '(' then .opening :: lex rest
    else if c = ')' then .closing :: lex rest
    else if c = '\x60' then
      .name (String.ofList (readTicked rest).1) :: lex (readTicked rest).2
    else
      ((Word.ofText? (String.ofList (c :: rest.takeWhile inWord))).map .word).toList ++
        lex (rest.dropWhile inWord)
termination_by text => text.length
decreasing_by
  · exact Nat.lt_succ_self _
  · exact Nat.lt_succ_self _
  · exact Nat.lt_succ_self _
  · exact Nat.lt_succ_of_le (length_readTicked rest)
  · exact Nat.lt_succ_of_le (List.dropWhile_sublist inWord).length_le

/-! ### Tokens are read back -/

theorem inWord_of_toUpper {c : Char} (h : inWord c.toUpper = true) : inWord c = true := by
  have hfixed : ∀ d ∈ [' ', '(', ')', '\x60'], inWord d.toUpper = false := by simp [inWord]
  cases hc : inWord c with
  | true => rfl
  | false =>
    simp only [inWord, Bool.not_eq_false', Bool.or_eq_true, decide_eq_true_eq] at hc
    have hmem : c ∈ [' ', '(', ')', '\x60'] := by simpa [or_assoc] using hc
    exact (hfixed c hmem).symm.trans h

/-- Separators are not empty and made of characters of words. -/
theorem Separates.inWord {operator : String} (h : Separates operator) :
    operator.toList ≠ [] ∧ ∀ c ∈ operator.toList, inWord c = true := by
  have hwords : ∀ op ∈ upperSeparators, op ≠ "" ∧ ∀ c ∈ op.toList, SqlTree.inWord c = true := by
    simp [upperSeparators, mathOperators, SqlTree.inWord]
  have hupper : operator.toUpper.toList = operator.toList.map Char.toUpper := String.toList_map
  obtain ⟨hne, hall⟩ := hwords _ h.toUpper_mem
  constructor
  · intro hnil
    rw [hnil] at hupper
    exact hne (String.toList_inj.mp hupper)
  · intro c hc
    refine inWord_of_toUpper (hall _ ?_)
    rw [hupper]
    exact List.mem_map_of_mem hc

/-- A separator is none of the other words. -/
theorem Separates.notMem {operator : String} (h : Separates operator) :
    operator ∉ plainWords := by
  have hno : ∀ word ∈ plainWords, word ∉ upperSeparators := by decide
  intro hmem
  have hlisted := h.toUpper_mem
  rw [toUpper_of_mem_words (List.mem_append_right _ hmem)] at hlisted
  exact hno _ hmem hlisted

theorem Word.ofText?_text (w : Word) : ofText? w.text = some w := by
  cases w with
  | comparison operator => exact dif_pos operator.listed
  | separator operator =>
    have hno := operator.separates.notMem
    simp only [plainWords, List.mem_append, List.mem_cons, List.not_mem_nil, or_false,
      not_or] at hno
    obtain ⟨hcomparison, his, hnot, hnull, hbetween⟩ := hno
    rw [ofText?, text, dif_neg hcomparison, if_neg his, if_neg hnot, if_neg hnull,
      if_neg hbetween, dif_pos operator.separates]
  | is => rfl
  | not => rfl
  | null => rfl
  | between => rfl

theorem Word.inWord_text (w : Word) :
    w.text.toList ≠ [] ∧ ∀ c ∈ w.text.toList, inWord c = true := by
  cases w with
  | comparison operator =>
    have hall : ∀ op ∈ comparisons, op.toList ≠ [] ∧ ∀ c ∈ op.toList, inWord c = true := by
      simp [comparisons, inWord]
    exact hall _ operator.listed
  | separator operator => exact operator.separates.inWord
  | is => simp [text, inWord]
  | not => simp [text, inWord]
  | null => simp [text, inWord]
  | between => simp [text, inWord]

/-- A word is read up to the first character that cannot stand in it. -/
theorem lex_word {word : List Char} (hne : word ≠ []) (hall : ∀ c ∈ word, inWord c = true)
    {text : List Char} (h : ∀ c ∈ text.head?, inWord c = false) :
    lex (word ++ text) = ((Word.ofText? (String.ofList word)).map .word).toList ++ lex text := by
  obtain ⟨c, word, rfl⟩ := List.exists_cons_of_ne_nil hne
  obtain ⟨hc, hall⟩ := List.forall_mem_cons.mp hall
  simp only [inWord, Bool.not_eq_true', Bool.or_eq_false_iff, decide_eq_false_iff_not] at hc
  obtain ⟨⟨⟨hspace, hopening⟩, hclosing⟩, htick⟩ := hc
  rw [List.cons_append, lex, if_neg hspace, if_neg hopening, if_neg hclosing, if_neg htick,
    List.takeWhile_append_of_pos hall, List.dropWhile_append_of_pos hall, takeWhile_eq_nil h,
    dropWhile_eq_self h, List.append_nil]

/-- What is written after a token other than an opening parenthesis does not go on with it. -/
theorem head_spell {tokens : List Token} {c : Char} (h : c ∈ (spell false tokens).head?) :
    c = ' ' ∨ c = ')' := by
  cases tokens with
  | nil => exact absurd h nofun
  | cons t rest =>
    cases t with
    | closing =>
      right
      simpa [spell, Token.joins, gap, Token.text] using h.symm
    | _ =>
      left
      simpa [spell, Token.joins, gap] using h.symm

theorem lex_gap (joined : Bool) (text : List Char) : lex (gap joined ++ text) = lex text := by
  cases joined with
  | false => rw [gap, if_neg Bool.false_ne_true, List.singleton_append, lex, if_pos rfl]
  | true => rfl

/-- Tokens are read back from their text. -/
theorem lex_spell (tight : Bool) (tokens : List Token) : lex (spell tight tokens) = tokens := by
  induction tokens generalizing tight with
  | nil => rw [spell, lex]
  | cons t rest ih =>
    rw [spell, List.append_assoc, lex_gap]
    cases t with
    | name name =>
      have hends : (spell false rest).head? ≠ some '\x60' := by
        intro h
        rcases head_spell h with h | h <;> exact absurd h (by decide)
      obtain ⟨ticked, htext, hread⟩ := readTicked_quoted name hends
      have htight : (Token.name name).tightens = false := rfl
      rw [htight, Token.text, htext, lex, if_neg (by decide), if_neg (by decide),
        if_neg (by decide), if_pos rfl, hread, ih, String.ofList_toList]
    | word w =>
      have hends : ∀ c ∈ (spell false rest).head?, inWord c = false := by
        intro c hc
        rcases head_spell hc with rfl | rfl <;> rfl
      have htight : (Token.word w).tightens = false := rfl
      obtain ⟨hne, hall⟩ := w.inWord_text
      rw [htight, Token.text, lex_word hne hall hends, String.ofList_toList, w.ofText?_text, ih]
      rfl
    | opening =>
      have hchars : Token.opening.text.toList = ['('] := by decide
      rw [hchars, List.singleton_append, lex, if_neg (by decide), if_pos rfl, ih]
    | closing =>
      have hchars : Token.closing.text.toList = [')'] := by decide
      rw [hchars, List.singleton_append, lex, if_neg (by decide), if_neg (by decide), if_pos rfl,
        ih]

/-! ### Phrases -/

mutual

/-- An operand that stands by itself: a name or a list in parentheses. -/
inductive Operand where
  | name (name : String)
  | list (first : Phrase) (others : Items)

/-- An operand with the comparisons and tests behind it. -/
structure Phrase where
  operand : Operand
  tests : Tests

/-- Comparisons and tests, each on everything before it. -/
inductive Tests where
  | none
  | comparison (operator : Comparison) (right : Operand) (rest : Tests)
  | nullTest (negated : Bool) (rest : Tests)
  | range (negated : Bool) (start : Phrase) (stop : Operand) (rest : Tests)

/-- The items after the first of a list, each behind its separator. -/
inductive Items where
  | none
  | cons (separator : Separator) (item : Phrase) (rest : Items)

end

/-- The word between the two bounds of a range. -/
def Separator.and : Separator := ⟨"AND", .inl rfl⟩

/-- A negation before further tokens. -/
def negationBefore (negated : Bool) (tokens : List Token) : List Token :=
  if negated then .word .not :: tokens else tokens

mutual

/-- The tokens of an operand before further tokens. -/
def Operand.before : Operand → List Token → List Token
  | .name name, tokens => .name name :: tokens
  | .list first others, tokens => .opening :: first.before (others.before (.closing :: tokens))

/-- The tokens of a phrase before further tokens. -/
def Phrase.before : Phrase → List Token → List Token
  | ⟨operand, tests⟩, tokens => operand.before (tests.before tokens)

/-- The tokens of comparisons and tests before further tokens. -/
def Tests.before : Tests → List Token → List Token
  | .none, tokens => tokens
  | .comparison operator right rest, tokens =>
    .word (.comparison operator) :: right.before (rest.before tokens)
  | .nullTest negated rest, tokens =>
    .word .is :: negationBefore negated (.word .null :: rest.before tokens)
  | .range negated start stop rest, tokens =>
    negationBefore negated (.word .between ::
      start.before (.word (.separator .and) :: stop.before (rest.before tokens)))

/-- The tokens of the items after the first of a list before further tokens. -/
def Items.before : Items → List Token → List Token
  | .none, tokens => tokens
  | .cons separator item rest, tokens =>
    .word (.separator separator) :: item.before (rest.before tokens)

end

/-! ### Phrases are read back -/

/-- Further tokens that do not go on with the phrase before them. -/
def Ends (tokens : List Token) : Prop := ∀ t ∈ tokens.head?, t.continues = false

theorem ends_nil : Ends [] := fun t ht => absurd ht (Option.not_mem_none t)

theorem ends_cons {t : Token} (h : t.continues = false) (rest : List Token) : Ends (t :: rest) := by
  rintro t' ⟨⟩
  exact h

/-- After the items of a list in parentheses comes the closing one. -/
theorem Items.ends_before (items : Items) (tokens : List Token) :
    Ends (items.before (.closing :: tokens)) := by
  cases items with
  | none => exact ends_cons rfl _
  | cons separator item rest => exact ends_cons rfl _

/-- Comparisons and tests are none, or begin with a token that goes on with a phrase. -/
theorem Tests.eq_none_of_before {tests : Tests} {tokens rest : List Token} (hends : Ends rest)
    (h : tests.before tokens = rest) : tests = .none := by
  subst h
  cases tests with
  | none => rfl
  | comparison operator right rest => exact absurd (hends _ rfl) nofun
  | nullTest negated rest => exact absurd (hends _ rfl) nofun
  | range negated start stop rest => cases negated <;> exact absurd (hends _ rfl) nofun

/-- A negation is read back from its tokens before a token that is no negation. -/
theorem negationBefore_inj {negated negated' : Bool} {t t' : Token} {r s : List Token}
    (h : negationBefore negated (t :: r) = negationBefore negated' (t' :: s))
    (ht : t ≠ .word .not) (ht' : t' ≠ .word .not) : negated = negated' ∧ t :: r = t' :: s := by
  cases negated with
  | false =>
    cases negated' with
    | false => exact ⟨rfl, h⟩
    | true => exact absurd (List.cons.inj h).1 ht
  | true =>
    cases negated' with
    | false => exact absurd (List.cons.inj h).1.symm ht'
    | true => exact ⟨rfl, (List.cons.inj h).2⟩

mutual

/-- An operand is read back from its tokens, whatever tokens follow. -/
theorem Operand.before_inj : ∀ (p : Operand) {q : Operand} {r s : List Token},
    p.before r = q.before s → p = q ∧ r = s
  | .name name, q, r, s, h => by
    cases q with
    | name name' =>
      obtain ⟨hname, hrest⟩ := List.cons.inj h
      exact ⟨congrArg Operand.name (Token.name.inj hname), hrest⟩
    | list first others => exact absurd (List.cons.inj h).1 nofun
  | .list first others, q, r, s, h => by
    cases q with
    | name name => exact absurd (List.cons.inj h).1 nofun
    | list first' others' =>
      obtain ⟨rfl, hothers⟩ :=
        first.before_inj (others.ends_before r) (others'.ends_before s) (List.cons.inj h).2
      obtain ⟨rfl, hrest⟩ := others.before_inj hothers
      exact ⟨rfl, hrest⟩

/-- A phrase is read back from its tokens if the tokens behind it do not go on with it. -/
theorem Phrase.before_inj : ∀ (p : Phrase) {q : Phrase} {r s : List Token}, Ends r → Ends s →
    p.before r = q.before s → p = q ∧ r = s
  | ⟨operand, tests⟩, ⟨operand', tests'⟩, r, s, hr, hs, h => by
    obtain ⟨rfl, htests⟩ := operand.before_inj h
    obtain ⟨rfl, hrest⟩ := tests.before_inj hr hs htests
    exact ⟨rfl, hrest⟩

/-- Comparisons and tests are read back from their tokens if the tokens behind them do not go on
with them. -/
theorem Tests.before_inj : ∀ (p : Tests) {q : Tests} {r s : List Token}, Ends r → Ends s →
    p.before r = q.before s → p = q ∧ r = s
  | .none, q, r, s, hr, hs, h => by
    obtain rfl := Tests.eq_none_of_before hr h.symm
    exact ⟨rfl, h⟩
  | .comparison operator right rest, q, r, s, hr, hs, h => by
    cases q with
    | none => exact absurd (Tests.eq_none_of_before hs h) nofun
    | comparison operator' right' rest' =>
      obtain ⟨hop, hright⟩ := List.cons.inj h
      obtain rfl := Word.comparison.inj (Token.word.inj hop)
      obtain ⟨rfl, htests⟩ := right.before_inj hright
      obtain ⟨rfl, hrest⟩ := rest.before_inj hr hs htests
      exact ⟨rfl, hrest⟩
    | nullTest negated' rest' => exact absurd (List.cons.inj h).1 nofun
    | range negated' start' stop' rest' =>
      cases negated' <;> exact absurd (List.cons.inj h).1 nofun
  | .nullTest negated rest, q, r, s, hr, hs, h => by
    cases q with
    | none => exact absurd (Tests.eq_none_of_before hs h) nofun
    | comparison operator' right' rest' => exact absurd (List.cons.inj h).1 nofun
    | nullTest negated' rest' =>
      obtain ⟨rfl, htests⟩ := negationBefore_inj (List.cons.inj h).2 nofun nofun
      obtain ⟨rfl, hrest⟩ := rest.before_inj hr hs (List.cons.inj htests).2
      exact ⟨rfl, hrest⟩
    | range negated' start' stop' rest' =>
      cases negated' <;> exact absurd (List.cons.inj h).1 nofun
  | .range negated start stop rest, q, r, s, hr, hs, h => by
    cases q with
    | none => exact absurd (Tests.eq_none_of_before hs h) nofun
    | comparison operator' right' rest' =>
      cases negated <;> exact absurd (List.cons.inj h).1 nofun
    | nullTest negated' rest' => cases negated <;> exact absurd (List.cons.inj h).1 nofun
    | range negated' start' stop' rest' =>
      obtain ⟨rfl, hstart⟩ := negationBefore_inj h nofun nofun
      obtain ⟨rfl, hstop⟩ :=
        start.before_inj (ends_cons rfl _) (ends_cons rfl _) (List.cons.inj hstart).2
      obtain ⟨rfl, htests⟩ := stop.before_inj (List.cons.inj hstop).2
      obtain ⟨rfl, hrest⟩ := rest.before_inj hr hs htests
      exact ⟨rfl, hrest⟩

/-- The items of a list are read back from their tokens before the closing parenthesis. -/
theorem Items.before_inj : ∀ (p : Items) {q : Items} {r s : List Token},
    p.before (.closing :: r) = q.before (.closing :: s) → p = q ∧ r = s
  | .none, q, r, s, h => by
    cases q with
    | none => exact ⟨rfl, (List.cons.inj h).2⟩
    | cons separator item rest => exact absurd (List.cons.inj h).1 nofun
  | .cons separator item rest, q, r, s, h => by
    cases q with
    | none => exact absurd (List.cons.inj h).1 nofun
    | cons separator' item' rest' =>
      obtain ⟨hsep, hitem⟩ := List.cons.inj h
      obtain rfl := Word.separator.inj (Token.word.inj hsep)
      obtain ⟨rfl, hothers⟩ := item.before_inj (rest.ends_before r) (rest'.ends_before s) hitem
      obtain ⟨rfl, hrest⟩ := rest.before_inj hothers
      exact ⟨rfl, hrest⟩

end

end SqlTree
