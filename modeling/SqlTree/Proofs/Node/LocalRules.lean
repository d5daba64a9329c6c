import SqlTree.Proofs.Node.Checks
import SqlTree.Proofs.Node.Parts

/-!
# The rules of every kind of node

Each kind of node has rules of its own, about its names, its lists and how its fields fit together.
They are stated here without regard to the order in which they are checked and to the error that
tells of the first one broken. Nothing is said of the slots of a node: that they are set, and that
what stands in them keeps its own rules, concerns the nodes in the slots.

## Main definitions

* `Expr.KeepsRules`, `Table.KeepsRules`, `Statement.KeepsRules` and the rules of the other kinds.
* `Node.KeepsRules`: the rules of a node.

## Main results

* `binaryRules_iff`, `checkArity_eq_ok`, `checkDefinitions_eq_ok`: the rules that concern several
  fields are those that are checked.
-/

namespace SqlTree

/-! ### Rules about several fields -/

/-- An expression that can stand on the right of `IN`: a list of at least one value, or a query. -/
def Expr.ListOrQuery : Expr → Prop
  | .value (.array items) => items ≠ []
  | .query _ => True
  | _ => False

/-- What a binary operator asks of its sides, and of being negated. -/
structure BinaryRules (operator : String) (left right : Expr) (negated : Bool) : Prop where
  variableOnLeft : operator = ":=" → ∃ name, left = .userVariable name
  nullOnRight : operator = "IS" → right = .value .null
  listOrQueryOnRight : operator = "IN" → right.ListOrQuery
  stringOnRight : operator ∈ ["LIKE", "ILIKE", "REGEXP"] → ∃ s, right = .value (.string s)
  negatable : negated = true → operator ∈ negatableOperators

/-- As many values are inserted into every row, namely as many as there are columns if these are
named. A query gives as many, unless it gives all columns. -/
def InsertionSource.Fits (columns : List String) : InsertionSource → Prop
  | .rows rs =>
    (columns ≠ [] → ∀ row ∈ rs, row.length = columns.length) ∧
      (columns = [] → ∀ row ∈ rs, ∀ row' ∈ rs, row.length = row'.length)
  | .query q => columns ≠ [] → q.columns ≠ [] → q.columns.length = columns.length

/-- The columns of a created table have different names, and there is at most one primary key. Its
columns are known if the table is not filled by a query, which may give further columns. -/
structure DefinitionRules (t : CreateTable) : Prop where
  unique : t.columnNames.Nodup
  onePrimaryKey : t.primaryKeyCount ≤ 1
  known : t.query = none → ∀ k ∈ t.constraints, ∀ c ∈ k.columns, c ∈ t.columnNames

/-! ### Rules of the kinds -/

/-- A query gives columns or reads tables. -/
def Query.KeepsRules (q : Query) : Prop := q.columns ≠ [] ∨ q.sources ≠ []

/-- The rules of an expression. -/
def Expr.KeepsRules : Expr → Prop
  | .unknown => True
  | .value _ => True
  | .column _ name => name ≠ ""
  | .userVariable name => name ≠ ""
  | .binary operator left right negated => BinaryRules operator left right negated
  | .between .. => True
  | .oneOf _ right _ => right.ListOrQuery
  | .nullTest .. => True
  | .existence .. => True
  | .caseOf _ arms _ => arms ≠ []
  | .function name _ _ => name ≠ ""
  | .math operator operands =>
    (∃ op ∈ mathOperators, sameLetters op operator = true) ∧ 2 ≤ operands.length
  | .group _ items => items ≠ []
  | .query q => q.KeepsRules

/-- The rules of a table: it has a name, and a label where it has no name of its own. -/
def Table.KeepsRules : Table → Prop
  | .schema t => t.table ≠ "" ∧ (t.function.isSome = true → ∃ label ≠ "", t.label = some label)
  | .query _ label => label ≠ ""
  | .remote config _ label => config ≠ .null ∧ label ≠ ""

/-- Just a cross join has no condition. -/
def JoinClause.KeepsRules (j : JoinClause) : Prop := j.condition.isSome = true ↔ j.operator ≠ .cross

/-- The rules of the definition of a column. -/
def ColumnDef.KeepsRules (c : ColumnDef) : Prop :=
  c.name ≠ "" ∧ c.typeName ≠ "" ∧ (c.primaryKey = true → c.notNull = true)

/-- The rules of an insertion. -/
def Insertion.KeepsRules (i : Insertion) : Prop :=
  i.name ≠ "" ∧ i.source ≠ .rows [] ∧ i.source.Fits i.columns

/-- The rules of an update. -/
def Update.KeepsRules (u : Update) : Prop :=
  u.name ≠ "" ∧ u.assignments ≠ [] ∧ ∀ a ∈ u.assignments, a.1 ≠ ""

/-- The rules of the creation of a table. -/
def CreateTable.KeepsRules (t : CreateTable) : Prop :=
  t.name ≠ "" ∧ (t.columns ≠ [] ∨ t.query.isSome = true) ∧ DefinitionRules t

/-- The rules of a statement. -/
def Statement.KeepsRules : Statement → Prop
  | .query q => q.KeepsRules
  | .insertion i => i.KeepsRules
  | .update u => u.KeepsRules
  | .deletion d => d.name ≠ ""
  | .createTable t => t.KeepsRules
  | .createSchema s => s.name ≠ ""
  | .dropTable t => t.name ≠ ""
  | .dropSchema s => s.name ≠ ""

/-- The rules of a node. -/
def Node.KeepsRules : Node → Prop
  | .expr e => e.KeepsRules
  | .table t => t.KeepsRules
  | .fromTable _ => True
  | .joinClause j => j.KeepsRules
  | .columnDef c => c.KeepsRules
  | .primaryKey k => k.columns ≠ []
  | .resultColumn _ => True
  | .orderBy _ => True
  | .groupBy g => g.expressions ≠ []
  | .limit _ => True
  | .statement s => s.KeepsRules

/-! ### Binary operators -/

variable {operator : String} {left right : Expr} {negated : Bool}

theorem isUnknown_eq_false {e : Expr} (h : e ≠ .unknown) : e.isUnknown = false := by
  cases e with
  | unknown => exact absurd rfl h
  | _ => rfl

theorem isList_iff {e : Expr} : e.isList = true ↔ e.ListOrQuery := by
  cases e with
  | value v =>
    cases v with
    | array items => cases items <;> simp [Expr.isList, Json.isNonemptyArray, Expr.ListOrQuery]
    | _ => exact iff_of_false nofun nofun
  | query q => exact iff_of_true rfl trivial
  | _ => exact iff_of_false nofun nofun

theorem isNull_iff {e : Expr} : e.isNull = true ↔ e = .value .null := by
  cases e with
  | value v => cases v <;> simp [Expr.isNull, Json.isNull]
  | _ => exact iff_of_false nofun nofun

theorem isString_iff {e : Expr} : e.isString = true ↔ ∃ s, e = .value (.string s) := by
  cases e with
  | value v => cases v <;> simp [Expr.isString, Json.isString]
  | _ => exact iff_of_false nofun nofun

theorem isUserVariable_iff {e : Expr} :
    e.isUserVariable = true ↔ ∃ name, e = .userVariable name := by
  cases e <;> simp [Expr.isUserVariable]

theorem checkLeftOperand_eq_ok (h : left ≠ .unknown) :
    checkLeftOperand operator left = .ok () ↔
      (operator = ":=" → ∃ name, left = .userVariable name) := by
  rw [checkLeftOperand, isUnknown_eq_false h, Bool.or_false, ← isUserVariable_iff]
  split
  · next hc => exact iff_of_false nofun fun hv => by simp [hv hc.1] at hc
  · next hc => exact iff_of_true rfl fun ho => by simpa [ho] using hc

theorem checkRightOperand_eq_ok (h : right ≠ .unknown) :
    checkRightOperand operator right = .ok () ↔
      (operator = "IS" → right = .value .null) ∧ (operator = "IN" → right.ListOrQuery) ∧
        (operator ∈ ["LIKE", "ILIKE", "REGEXP"] → ∃ s, right = .value (.string s)) := by
  rw [checkRightOperand, isUnknown_eq_false h, if_neg Bool.false_ne_true, ← isNull_iff,
    ← isList_iff, ← isString_iff]
  by_cases hnull : operator = "IS"
  · subst hnull
    simp
  by_cases hlist : operator = "IN"
  · subst hlist
    simp
  by_cases hs : operator = "LIKE" ∨ operator = "ILIKE" ∨ operator = "REGEXP"
  · simp [hnull, hlist, hs]
  · simp [hnull, hlist, hs]

theorem checkNegation_eq_ok :
    checkNegation operator negated = .ok () ↔
      (negated = true → operator ∈ negatableOperators) := by
  rw [checkNegation]
  split
  · next hc => exact iff_of_false nofun fun h => hc.2 (h hc.1)
  · next hc => exact iff_of_true rfl fun hn => Decidable.not_not.mp fun ho => hc ⟨hn, ho⟩

/-- A binary operator whose sides are set keeps its rules if it passes its checks. -/
theorem binaryRules_iff (hl : left ≠ .unknown) (hr : right ≠ .unknown) :
    checkLeftOperand operator left = .ok () ∧ checkRightOperand operator right = .ok () ∧
      checkNegation operator negated = .ok () ↔ BinaryRules operator left right negated := by
  rw [checkLeftOperand_eq_ok hl, checkRightOperand_eq_ok hr, checkNegation_eq_ok]
  constructor
  · rintro ⟨hv, ⟨hnull, hlist, hs⟩, hn⟩
    exact ⟨hv, hnull, hlist, hs, hn⟩
  · rintro ⟨hv, hnull, hlist, hs, hn⟩
    exact ⟨hv, ⟨hnull, hlist, hs⟩, hn⟩

theorem checkList_eq_ok (h : right ≠ .unknown) :
    checkList right = .ok () ↔ right.ListOrQuery := by
  rw [checkList, isUnknown_eq_false h, Bool.false_or, ← isList_iff]
  split
  · next hc => exact iff_of_true rfl hc
  · next hc => exact iff_of_false nofun hc

/-! ### Arithmetic -/

/-- An operator of arithmetic is accepted if it is listed, in whatever case. -/
theorem exists_normalizeMathOperator :
    (∃ kept, normalizeMathOperator operator = .ok kept) ↔
      ∃ op ∈ mathOperators, sameLetters op operator = true := by
  rw [normalizeMathOperator, ← List.find?_isSome]
  cases mathOperators.find? fun op => sameLetters op operator with
  | none => exact iff_of_false (fun ⟨_, h⟩ => nomatch h) nofun
  | some op => exact iff_of_true ⟨op, rfl⟩ rfl

/-! ### Joins, tables and columns -/

theorem JoinOperator.check_eq_ok {operator : JoinOperator} {hasCondition : Bool} :
    operator.check hasCondition = .ok () ↔ (hasCondition = true ↔ operator ≠ .cross) := by
  cases operator <;> cases hasCondition <;> simp [check]

theorem requireLabel_eq_ok {kind : Kind} {label : String} :
    requireLabel kind label = .ok () ↔ label ≠ "" := by
  rw [requireLabel]
  split
  · next h => simpa using h
  · next h => simpa using h

theorem SchemaTable.check_eq_ok {t : SchemaTable} :
    t.check = .ok () ↔ (Table.schema t).KeepsRules := by
  rw [SchemaTable.check, seq_eq_ok, requireText_eq_ok]
  refine and_congr_right fun _ => ?_
  split
  · next hf =>
    rw [requireLabel_eq_ok]
    cases t.label with
    | none => exact iff_of_false (fun h => h rfl) fun h => nomatch h hf
    | some label => exact ⟨fun h _ => ⟨label, h, rfl⟩, fun h => by
        obtain ⟨_, hne, ⟨⟩⟩ := h hf
        exact hne⟩
  · next hf => exact iff_of_true rfl fun h => absurd h hf

theorem ColumnDef.check_eq_ok {c : ColumnDef} : c.check = .ok () ↔ c.KeepsRules := by
  rw [ColumnDef.check, seq_eq_ok, seq_eq_ok, requireText_eq_ok, requireText_eq_ok]
  refine and_congr_right fun _ => and_congr_right fun _ => ?_
  split
  · next h =>
    rw [Bool.and_eq_true, Bool.not_eq_true'] at h
    exact iff_of_false nofun fun hn => absurd (hn h.1) (Bool.not_eq_true _ ▸ h.2)
  · next h => exact iff_of_true rfl (by simpa using h)

/-! ### Insertions -/

theorem checkArity_rows {i : Insertion} {rows : List (List Expr)} {expected : Nat}
    (hs : i.source = .rows rows) (h : i.expectedArity? = some expected) :
    i.checkArity = .ok () ↔ ∀ row ∈ rows, row.length = expected := by
  have hfind : (rows.find? fun row => row.length != expected) = none ↔
      ∀ row ∈ rows, row.length = expected := by
    simp [List.find?_eq_none]
  simp only [Insertion.checkArity, h, hs, ← hfind]
  cases rows.find? fun row => row.length != expected with
  | none => exact iff_of_true rfl rfl
  | some row => exact iff_of_false nofun nofun

/-- The values of an insertion fit its columns if their numbers pass the check. -/
theorem checkArity_eq_ok {i : Insertion} : i.checkArity = .ok () ↔ i.source.Fits i.columns := by
  obtain ⟨schema, name, columns, rows | q⟩ := i
  · cases columns with
    | cons column columns =>
      refine (checkArity_rows rfl rfl).trans ⟨fun h => ⟨fun _ => h, nofun⟩, fun h => ?_⟩
      exact h.1 (List.cons_ne_nil _ _)
    | nil =>
      cases rows with
      | nil => exact iff_of_true rfl ⟨nofun, fun _ row hrow => absurd hrow List.not_mem_nil⟩
      | cons first rest =>
        refine (checkArity_rows rfl rfl).trans ⟨fun h => ⟨nofun, fun _ row hrow row' hrow' => ?_⟩,
          fun h row hrow => h.2 rfl row hrow first List.mem_cons_self⟩
        rw [h row hrow, h row' hrow']
  · cases columns with
    | nil => exact iff_of_true rfl fun h => absurd rfl h
    | cons column columns =>
      rw [Insertion.checkArity, Insertion.expectedArity?]
      simp [InsertionSource.Fits]

/-! ### Creations of tables -/

theorem firstRepeated?_eq_none {seen names : List String} :
    firstRepeated? seen names = none ↔ names.Nodup ∧ ∀ name ∈ names, name ∉ seen := by
  induction names generalizing seen with
  | nil => simp [firstRepeated?]
  | cons name rest ih =>
    rw [firstRepeated?]
    by_cases h : name ∈ seen
    · rw [if_pos h]
      exact iff_of_false nofun fun h' => h'.2 name List.mem_cons_self h
    · rw [if_neg h, ih]
      simp only [List.nodup_cons, List.mem_cons]
      grind

/-- The creation of a table keeps the rules about its definitions if it passes their check. -/
theorem checkDefinitions_eq_ok {t : CreateTable} :
    t.checkDefinitions = .ok () ↔ DefinitionRules t := by
  have hfind : ((t.constraints.flatMap PrimaryKey.columns).find? fun c => c ∉ t.columnNames) =
      none ↔ ∀ k ∈ t.constraints, ∀ c ∈ k.columns, c ∈ t.columnNames := by
    simp [List.find?_eq_none]
  have hunique : firstRepeated? [] t.columnNames = none ↔ t.columnNames.Nodup := by
    simp [firstRepeated?_eq_none]
  rw [CreateTable.checkDefinitions]
  split
  · next name hrepeated =>
    refine iff_of_false nofun fun h => ?_
    rw [hunique.mpr h.unique] at hrepeated
    exact absurd hrepeated nofun
  · next hrepeated =>
    have hnodup := hunique.mp hrepeated
    split
    · next hkeys => exact iff_of_false nofun fun h => absurd h.onePrimaryKey (by omega)
    · next hkeys =>
      have hone : t.primaryKeyCount ≤ 1 := Nat.le_of_not_lt hkeys
      split
      · next hquery =>
        exact iff_of_true rfl ⟨hnodup, hone, fun hnone => by simp [hnone] at hquery⟩
      · next hquery =>
        have hnone : t.query = none := by simpa using hquery
        split
        · next name hunknown =>
          refine iff_of_false nofun fun h => ?_
          rw [hfind.mpr (h.known hnone)] at hunknown
          exact absurd hunknown nofun
        · next hknown => exact iff_of_true rfl ⟨hnodup, hone, fun _ => hfind.mp hknown⟩

end SqlTree
