import SqlTree.Draft.Definition
import SqlTree.Proofs.Draft.Steps
import SqlTree.Proofs.Node.LocalRules

/-!
# Building definitions of tables

The definition of a table under construction takes a column or a primary key only if it stays sound,
so that it is sound after any steps. What a check may still find wrong with it is not the fault of
its columns and keys.

Conversely a sound definition is built by setting everything else and then adding its columns and
its keys, since all that has been built on the way is a beginning of it and so is sound, too. But a
definition that passes its check need not be sound. Where a table is filled by a query, its columns
may be listed in part only, and so the check then lets a key be over any columns, while the step
that adds a key asks for columns that are defined even then.

## Main definitions

* `CreateTable.Sound`: the rules for the columns and the keys of a definition.
* `CreateTable.Step.change`: what a step changes if it is not refused.
* `CreateTable.steps`: the steps that build a definition.

## Main results

* `CreateTable.steady`: a step that is refused leaves the definition as it was.
* `CreateTable.guarded`: a step is refused just if the definition would not be sound.
* `CreateTable.sound_of_steps`: what any steps build is sound.
* `CreateTable.rebuilt_iff_known`: the definitions that pass their check and can be built.
-/

namespace SqlTree

namespace CreateTable

variable {t t' : CreateTable} {c : ColumnDef} {k : PrimaryKey}

/-- The columns have different names, there is at most one primary key, it is over columns that are
defined, and all columns and keys pass their own checks. -/
structure Sound (t : CreateTable) : Prop where
  unique : t.columnNames.Nodup
  onePrimaryKey : t.primaryKeyCount ≤ 1
  known : ∀ k ∈ t.constraints, ∀ name ∈ k.columns, name ∈ t.columnNames
  columns : ∀ c ∈ t.columns, c.check = .ok ()
  constraints : ∀ k ∈ t.constraints, k.check = .ok ()

/-- What a step changes. -/
def Step.change : Step → CreateTable → CreateTable
  | .schema s, t => { t with schema := some s }
  | .ifNotExists b, t => { t with ifNotExists := b }
  | .column c, t => { t with columns := t.columns ++ [c] }
  | .primaryKey k, t => { t with constraints := t.constraints ++ [k] }
  | .query q, t => { t with query := some q }

/-! ### Single steps -/

/-- A step looks at what it is given before it changes anything. -/
theorem steady (s : Step) : (perform s).Steady := by
  cases s with
  | schema s => exact .modify _
  | ifNotExists b => exact .modify _
  | column c => exact .check (.get fun t => .guard (.guard (.set _)))
  | primaryKey k =>
    refine .check (.get fun t => .guard ?_)
    split
    · exact .throw _
    · exact .set _
  | query q => exact .modify _

/-- A column is appended if it passes its check, its name is new and it is not a second key. -/
theorem addColumn_eq_ok :
    (addColumn c).result t = .ok t' ↔ t' = (Step.column c).change t ∧ c.check = .ok () ∧
      c.name ∉ t.columnNames ∧ (c.primaryKey = true → t.primaryKeyCount = 0) := by
  have hkey : ¬(c.primaryKey && decide (0 < t.primaryKeyCount)) = true ↔
      (c.primaryKey = true → t.primaryKeyCount = 0) := by
    simp
  rw [addColumn, Edit.result_check, seq_eq_ok, Edit.result_get, Edit.result_guard, guard_eq_ok,
    Edit.result_guard, guard_eq_ok, hkey, Edit.result_set_eq_ok, Step.change]
  grind

/-- A primary key is appended if it passes its check, it is the only one and its columns are
defined. -/
theorem addPrimaryKey_eq_ok :
    (addPrimaryKey k).result t = .ok t' ↔ t' = (Step.primaryKey k).change t ∧ k.check = .ok () ∧
      t.primaryKeyCount = 0 ∧ ∀ name ∈ k.columns, name ∈ t.columnNames := by
  have hfind : (k.columns.find? fun name => name ∉ t.columnNames) = none ↔
      ∀ name ∈ k.columns, name ∈ t.columnNames := by
    simp [List.find?_eq_none]
  rw [addPrimaryKey, Edit.result_check, seq_eq_ok, Edit.result_get, Edit.result_guard, guard_eq_ok,
    Nat.not_lt, Nat.le_zero, ← hfind]
  cases k.columns.find? fun name => name ∉ t.columnNames with
  | none =>
    rw [Edit.result_set_eq_ok, Step.change]
    grind
  | some name => simp [Edit.result_throw]

theorem columnNames_change (t : CreateTable) (c : ColumnDef) :
    ((Step.column c).change t).columnNames = t.columnNames ++ [c.name] :=
  List.map_append

theorem primaryKeyCount_column (t : CreateTable) (c : ColumnDef) :
    ((Step.column c).change t).primaryKeyCount =
      t.primaryKeyCount + if c.primaryKey then 1 else 0 := by
  cases hc : c.primaryKey <;>
    simp [Step.change, primaryKeyCount, List.filter_append, hc, Nat.add_right_comm]

theorem primaryKeyCount_primaryKey (t : CreateTable) (k : PrimaryKey) :
    ((Step.primaryKey k).change t).primaryKeyCount = t.primaryKeyCount + 1 := by
  simp [Step.change, primaryKeyCount, Nat.add_assoc]

/-- A definition stays sound with one more column of a new name that is not a second key. -/
theorem Sound.column (h : t.Sound) (hcheck : c.check = .ok ()) (hname : c.name ∉ t.columnNames)
    (hkey : c.primaryKey = true → t.primaryKeyCount = 0) : ((Step.column c).change t).Sound where
  unique := by
    rw [columnNames_change]
    exact List.nodup_append.mpr ⟨h.unique, List.pairwise_singleton _ _, by grind⟩
  onePrimaryKey := by
    rw [primaryKeyCount_column]
    split
    · next hc => exact Nat.le_of_eq (congrArg (· + 1) (hkey hc))
    · exact h.onePrimaryKey
  known := by
    intro k hk name hknown
    rw [columnNames_change]
    exact List.mem_append_left _ (h.known k hk name hknown)
  columns := List.forall_mem_append.mpr ⟨h.columns, List.forall_mem_singleton.mpr hcheck⟩
  constraints := h.constraints

/-- A definition stays sound with a primary key over its columns if it is the first. -/
theorem Sound.primaryKey (h : t.Sound) (hcheck : k.check = .ok ()) (hcount : t.primaryKeyCount = 0)
    (hknown : ∀ name ∈ k.columns, name ∈ t.columnNames) : ((Step.primaryKey k).change t).Sound where
  unique := h.unique
  onePrimaryKey := by
    rw [primaryKeyCount_primaryKey]
    exact Nat.le_of_eq (congrArg (· + 1) hcount)
  known := List.forall_mem_append.mpr ⟨h.known, List.forall_mem_singleton.mpr hknown⟩
  columns := h.columns
  constraints := List.forall_mem_append.mpr ⟨h.constraints, List.forall_mem_singleton.mpr hcheck⟩

/-- A definition is sound with one more column just if the column may be appended. -/
theorem sound_column_iff (h : t.Sound) :
    ((Step.column c).change t).Sound ↔ c.check = .ok () ∧
      c.name ∉ t.columnNames ∧ (c.primaryKey = true → t.primaryKeyCount = 0) := by
  refine ⟨fun hnext => ?_, fun ⟨hcheck, hname, hkey⟩ => h.column hcheck hname hkey⟩
  have hunique := hnext.unique
  have hone := hnext.onePrimaryKey
  rw [columnNames_change, List.nodup_append] at hunique
  rw [primaryKeyCount_column] at hone
  refine ⟨hnext.columns c (List.mem_append_right _ (List.mem_singleton_self _)), ?_, ?_⟩
  · intro hname
    exact hunique.2.2 _ hname _ (List.mem_singleton_self _) rfl
  · intro hkey
    rw [if_pos hkey] at hone
    omega

/-- A definition is sound with one more primary key just if the key may be appended. -/
theorem sound_primaryKey_iff (h : t.Sound) :
    ((Step.primaryKey k).change t).Sound ↔ k.check = .ok () ∧ t.primaryKeyCount = 0 ∧
      ∀ name ∈ k.columns, name ∈ t.columnNames := by
  refine ⟨fun hnext => ?_, fun ⟨hcheck, hcount, hknown⟩ => h.primaryKey hcheck hcount hknown⟩
  have hlast : k ∈ t.constraints ++ [k] := List.mem_append_right _ (List.mem_singleton_self _)
  have hone := hnext.onePrimaryKey
  rw [primaryKeyCount_primaryKey] at hone
  exact ⟨hnext.constraints k hlast, by omega, hnext.known k hlast⟩

/-- A step is refused just if the definition would not be sound after it. -/
theorem guarded : Guarded CreateTable.step Step.change Sound := by
  intro s t t' h
  have hrest (schema : Option String) (ifNotExists : Bool) (query : Option Query) :
      ({ t with schema, ifNotExists, query } : CreateTable).Sound :=
    ⟨h.unique, h.onePrimaryKey, h.known, h.columns, h.constraints⟩
  cases s with
  | schema s => exact accepted_iff (hrest _ _ _)
  | ifNotExists b => exact accepted_iff (hrest _ _ _)
  | query q => exact accepted_iff (hrest _ _ _)
  | column c =>
    refine addColumn_eq_ok.trans (and_congr_right fun ht => ?_)
    rw [ht]
    exact (sound_column_iff h).symm
  | primaryKey k =>
    refine addPrimaryKey_eq_ok.trans (and_congr_right fun ht => ?_)
    rw [ht]
    exact (sound_primaryKey_iff h).symm

theorem sound_of (name : String) : (CreateTable.of name).Sound :=
  ⟨List.nodup_nil, Nat.zero_le _, nofun, nofun, nofun⟩

/-! ### What is checked -/

/-- The check of a sound definition leaves nothing to its columns and keys. -/
theorem Sound.check_eq (h : t.Sound) :
    t.check = (do
      requireText .createTable "name" t.name
      if t.columns.isEmpty && t.query.isNone then
        throw (.incomplete Kind.createTable.tag .definitions)
      checkQuery? t.query) := by
  have hcolumns : checkColumnDefs t.columns = .ok () := checkColumnDefs_eq_ok.mpr h.columns
  have hconstraints : checkPrimaryKeys t.constraints = .ok () :=
    checkPrimaryKeys_eq_ok.mpr h.constraints
  have hdefinitions : t.checkDefinitions = .ok () :=
    checkDefinitions_eq_ok.mpr ⟨h.unique, h.onePrimaryKey, fun _ => h.known⟩
  rw [check, hcolumns, hconstraints, hdefinitions]
  rfl

/-- A sound definition fails its check without a name, without columns and a query, or with the
query. -/
theorem Sound.check_error (h : t.Sound) {e : Error} (he : t.check = .error e) :
    (t.name = "" ∧ e = .missingField Kind.createTable.tag "name") ∨
      (t.columns = [] ∧ t.query = none ∧ e = .incomplete Kind.createTable.tag .definitions) ∨
      ∃ q, t.query = some q ∧ q.check = .error e := by
  rw [h.check_eq] at he
  by_cases hname : t.name = ""
  · rw [requireText, if_pos (by rw [hname]; rfl)] at he
    exact .inl ⟨hname, (Except.error.inj he).symm⟩
  rw [requireText_eq_ok.mpr hname, ok_bind] at he
  split at he
  · next hempty =>
    rw [Bool.and_eq_true, List.isEmpty_iff, Option.isNone_iff_eq_none] at hempty
    exact .inr (.inl ⟨hempty.1, hempty.2, (Except.error.inj he).symm⟩)
  · cases hquery : t.query with
    | none =>
      rw [hquery] at he
      cases he
    | some q =>
      rw [hquery] at he
      exact .inr (.inr ⟨q, rfl, he⟩)

/-- A step that fails leaves the definition as it was, and so what any steps build is what the
successful ones among them build. It is always sound: its columns have different names, it has one
primary key at most, this is over columns that are defined, and every column and key passes its
check. So its check fails only if the name is empty, if there are neither columns nor a query, or as
that of the query. -/
theorem sound_of_steps :
    (∀ s (t left : CreateTable) e, perform s t = .error e left → left = t) ∧
    ∀ name steps, let t := runSteps perform steps (.of name)
      (∃ kept, kept.Sublist steps ∧ performAll CreateTable.step kept (.of name) = .ok t) ∧
      t.Sound ∧
      ∀ e, t.check = .error e →
        (t.name = "" ∧ e = .missingField Kind.createTable.tag "name") ∨
        (t.columns = [] ∧ t.query = none ∧ e = .incomplete Kind.createTable.tag .definitions) ∨
        ∃ q, t.query = some q ∧ q.check = .error e := by
  refine ⟨steady, fun name steps => ?_⟩
  have hsound : (runSteps perform steps (.of name)).Sound :=
    guarded.runSteps steady steps (sound_of name)
  exact ⟨exists_performAll_eq_runSteps steady steps _, hsound, fun e => hsound.check_error⟩

/-- A table of students that does not take a second column `id`, a key over an unknown column or a
second key, and a table without columns that fails its check. -/
theorem sound_of_steps_student :
    let steps : List Step := [
      .column (.of "id" "INTEGER"), .column (.of "id" "TEXT"), .primaryKey ⟨none, ["code"]⟩,
      .primaryKey ⟨none, ["id"]⟩, .primaryKey ⟨some "again", ["id"]⟩]
    let built := runSteps perform steps (.of "student")
    built = ⟨none, "student", false, [.of "id" "INTEGER"], [⟨none, ["id"]⟩], none⟩ ∧ built.Sound ∧
      (∃ kept, kept.Sublist steps ∧ performAll CreateTable.step kept (.of "student") = .ok built) ∧
      perform (.column (.of "id" "TEXT")) built = .error (.duplicateColumn "id") built ∧
      (CreateTable.of "student").check = .error (.incomplete Kind.createTable.tag .definitions) ∧
      (CreateTable.of "student").columns = [] ∧ (CreateTable.of "student").query = none := by
  intro steps built
  obtain ⟨hfailed, hbuilt⟩ := sound_of_steps
  obtain ⟨hkept, hsound, -⟩ := hbuilt "student" steps
  have hcheck : (CreateTable.of "student").check =
      .error (.incomplete Kind.createTable.tag .definitions) := rfl
  have hrefused : ∃ left, perform (.column (.of "id" "TEXT")) built =
      .error (.duplicateColumn "id") left := ⟨_, rfl⟩
  obtain ⟨left, hleft⟩ := hrefused
  rw [hfailed _ _ _ _ hleft] at hleft
  obtain ⟨-, -, herror⟩ := hbuilt "student" []
  refine ⟨rfl, hsound, hkept, hleft, hcheck, ?_⟩
  obtain ⟨-, he⟩ | ⟨hcolumns, hquery, -⟩ | ⟨q, hquery, -⟩ := herror _ hcheck
  · exact absurd he nofun
  · exact ⟨hcolumns, hquery⟩
  · exact absurd hquery nofun

/-! ### Definitions that pass their check -/

/-- The steps that build a definition: everything else is set before columns and then keys are
added. -/
def steps (t : CreateTable) : List Step :=
  (t.schema.map .schema).toList ++ .ifNotExists t.ifNotExists :: (t.query.map .query).toList ++
    t.columns.map .column ++ t.constraints.map .primaryKey

/-- What a check finds right about the columns and keys of a definition. -/
theorem rules_of_check (h : t.check = .ok ()) :
    DefinitionRules t ∧ (∀ c ∈ t.columns, c.check = .ok ()) ∧
      ∀ k ∈ t.constraints, k.check = .ok () := by
  simp only [check, seq_eq_ok, guard_eq_ok, checkColumnDefs_eq_ok, checkPrimaryKeys_eq_ok,
    checkDefinitions_eq_ok] at h
  obtain ⟨-, -, hcolumns, hconstraints, hrules, -⟩ := h
  exact ⟨hrules, hcolumns, hconstraints⟩

/-- The first columns of a definition that passes its check are sound without the keys. -/
theorem sound_columns (h : t.check = .ok ()) {done : List ColumnDef} (hdone : done <+: t.columns) :
    ({ t with columns := done, constraints := [] } : CreateTable).Sound where
  unique := (rules_of_check h).1.unique.sublist (hdone.sublist.map _)
  onePrimaryKey := by
    have hone : (t.columns.filter ColumnDef.primaryKey).length + t.constraints.length ≤ 1 :=
      (rules_of_check h).1.onePrimaryKey
    have hfewer : (done.filter ColumnDef.primaryKey).length ≤
        (t.columns.filter ColumnDef.primaryKey).length :=
      (hdone.sublist.filter _).length_le
    exact Nat.le_trans hfewer (Nat.le_trans (Nat.le_add_right _ _) hone)
  known := nofun
  columns c hc := (rules_of_check h).2.1 c (hdone.subset hc)
  constraints := nofun

/-- The first keys of a definition that passes its check are sound if their columns are defined. -/
theorem sound_keys (h : t.check = .ok ())
    (hknown : ∀ k ∈ t.constraints, ∀ name ∈ k.columns, name ∈ t.columnNames)
    {done : List PrimaryKey} (hdone : done <+: t.constraints) :
    ({ t with constraints := done } : CreateTable).Sound where
  unique := (rules_of_check h).1.unique
  onePrimaryKey :=
    Nat.le_trans (Nat.add_le_add_left hdone.length_le _) (rules_of_check h).1.onePrimaryKey
  known k hk := hknown k (hdone.subset hk)
  columns := (rules_of_check h).2.1
  constraints k hk := (rules_of_check h).2.2 k (hdone.subset hk)

/-- Everything but the keys of a definition that passes its check is built. -/
theorem performAll_columns (h : t.check = .ok ()) :
    performAll CreateTable.step t.steps (.of t.name) =
      performAll CreateTable.step (t.constraints.map .primaryKey) { t with constraints := [] } := by
  have hframe : performAll CreateTable.step
      ((t.schema.map .schema).toList ++ .ifNotExists t.ifNotExists :: (t.query.map .query).toList)
      (.of t.name) = .ok { t with columns := [], constraints := [] } := by
    obtain ⟨schema, name, ifNotExists, columns, constraints, query⟩ := t
    cases schema <;> cases query <;> rfl
  have hcolumns : performAll CreateTable.step (t.columns.map .column)
      { t with columns := [], constraints := [] } = .ok { t with constraints := [] } :=
    guarded.performAll_map (fun cs => { t with columns := cs, constraints := [] })
      (fun _ _ => rfl) fun done hdone => sound_columns h hdone
  rw [steps, performAll_append, performAll_append, hframe, ok_bind, hcolumns, ok_bind]

/-- A definition that passes its check is built if its keys are over columns that are defined. -/
theorem performAll_steps (h : t.check = .ok ())
    (hknown : ∀ k ∈ t.constraints, ∀ name ∈ k.columns, name ∈ t.columnNames) :
    performAll CreateTable.step t.steps (.of t.name) = .ok t := by
  rw [performAll_columns h]
  exact guarded.performAll_map (fun ks => { t with constraints := ks })
    (fun _ _ => rfl) fun done hdone => sound_keys h hknown hdone

/-- A primary key is refused for a column that is not defined if it has one. -/
theorem addPrimaryKey_unknown (hk : k.check = .ok ()) (hcount : t.primaryKeyCount = 0)
    {name : String} (hname : name ∈ k.columns) (hnot : name ∉ t.columnNames) :
    ∃ first ∈ k.columns, first ∉ t.columnNames ∧
      (addPrimaryKey k).result t = .error (.unknownColumn first) := by
  have hsome : (k.columns.find? fun c => c ∉ t.columnNames).isSome = true :=
    List.find?_isSome.mpr ⟨name, hname, decide_eq_true hnot⟩
  obtain ⟨first, hfirst⟩ := Option.isSome_iff_exists.mp hsome
  refine ⟨first, List.mem_of_find?_eq_some hfirst, by simpa using List.find?_some hfirst, ?_⟩
  rw [addPrimaryKey, Edit.result_check, hk, ok_bind, Edit.result_get, hcount, hfirst]
  rfl

/-- A key of a definition that passes its check is the only one. -/
theorem only_primaryKey (h : t.check = .ok ()) (hk : k ∈ t.constraints) :
    t.constraints = [k] ∧ ({ t with constraints := [] } : CreateTable).primaryKeyCount = 0 := by
  have hone : (t.columns.filter ColumnDef.primaryKey).length + t.constraints.length ≤ 1 :=
    (rules_of_check h).1.onePrimaryKey
  have hpos : 0 < t.constraints.length := List.length_pos_of_mem hk
  have hlength : t.constraints.length = 1 := by omega
  have hnone : (t.columns.filter ColumnDef.primaryKey).length = 0 := by omega
  obtain ⟨k', hk'⟩ := List.length_eq_one_iff.mp hlength
  rw [hk', List.mem_singleton] at hk
  exact ⟨by rw [hk', hk], hnone⟩

/-- The steps to a definition that passes its check fail if its key is over a column that is not
defined. -/
theorem performAll_unknown (h : t.check = .ok ()) (hk : k ∈ t.constraints) {name : String}
    (hname : name ∈ k.columns) (hnot : name ∉ t.columnNames) :
    ∃ first ∈ k.columns, first ∉ t.columnNames ∧
      performAll CreateTable.step t.steps (.of t.name) = .error (.unknownColumn first) := by
  obtain ⟨honly, hcount⟩ := only_primaryKey h hk
  have hcheck : k.check = .ok () := (rules_of_check h).2.2 k hk
  rw [performAll_columns h, honly, List.map_singleton, performAll_singleton]
  exact addPrimaryKey_unknown hcheck hcount hname hnot

/-- A definition that passes its check is built by setting its schema, whether the table may exist
already, and its query, and adding first its columns and then its keys, if and only if the keys are
over columns that are defined, as they are if there is no query. With a query a definition may also
pass its check with a key over other columns. Then the steps fail at this key for a column that is
not defined, and no other steps build the definition either. -/
theorem rebuilt_iff_known (h : t.check = .ok ()) :
    (performAll CreateTable.step t.steps (.of t.name) = .ok t ↔
      ∀ k ∈ t.constraints, ∀ name ∈ k.columns, name ∈ t.columnNames) ∧
    (t.query = none → performAll CreateTable.step t.steps (.of t.name) = .ok t) ∧
    ∀ k ∈ t.constraints, ∀ name ∈ k.columns, name ∉ t.columnNames →
      (∃ first ∈ k.columns, first ∉ t.columnNames ∧
        performAll CreateTable.step t.steps (.of t.name) = .error (.unknownColumn first)) ∧
      ∀ start steps, runSteps perform steps (.of start) ≠ t := by
  refine ⟨⟨fun hbuilt => ?_, performAll_steps h⟩, fun hquery => ?_, fun k hk name hname hnot =>
    ⟨performAll_unknown h hk hname hnot, fun start steps hbuilt => ?_⟩⟩
  · exact (guarded.of_performAll hbuilt (sound_of t.name)).known
  · exact performAll_steps h ((rules_of_check h).1.known hquery)
  · have hsound : t.Sound := hbuilt ▸ guarded.runSteps steady steps (sound_of start)
    exact hnot (hsound.known k hk name hname)

/-- A table of students that is built again, and a table that is filled with their numbers and has a
key over these, which passes its check and cannot be built. -/
theorem rebuilt_iff_known_pupil :
    let ids : Query :=
      ⟨false, [.ofExpr (.ofColumn "id")], [.ofTable (.named "student")], none, none, [], none⟩
    let student : CreateTable :=
      ⟨some "school", "student", true, [.of "id" "INTEGER"], [⟨none, ["id"]⟩], none⟩
    let pupil : CreateTable := ⟨none, "pupil", false, [], [⟨none, ["id"]⟩], some ids⟩
    student.check = .ok () ∧
      performAll CreateTable.step student.steps (.of "student") = .ok student ∧
      pupil.check = .ok () ∧
      performAll CreateTable.step pupil.steps (.of "pupil") = .error (.unknownColumn "id") ∧
      ∀ start steps, runSteps perform steps (.of start) ≠ pupil := by
  intro ids student pupil
  have hstudent : student.check = .ok () := rfl
  have hpupil : pupil.check = .ok () := rfl
  obtain ⟨-, hrebuilt, -⟩ := rebuilt_iff_known hstudent
  obtain ⟨-, -, hunknown⟩ := rebuilt_iff_known hpupil
  obtain ⟨-, hnever⟩ := hunknown ⟨none, ["id"]⟩ (.head _) "id" (.head _) nofun
  exact ⟨hstudent, hrebuilt rfl, hpupil, rfl, hnever⟩

end CreateTable

end SqlTree
