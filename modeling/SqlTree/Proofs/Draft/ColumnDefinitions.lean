import SqlTree.Draft.Definition
import SqlTree.Proofs.Document.Children
import SqlTree.Proofs.Draft.Steps
import SqlTree.Proofs.Node.LocalRules

/-!
# Building definitions of columns

The definition of a column is started new or taken from a document, and then completed step by step.
Whether it is a primary key, whether it may be null and its default depend on one another. A primary
key is never null and has no default: steps and documents that make a column a primary key see to
this, and the one step that would undo it is refused. Since a refused step gives no column, what has
been built has kept the rule at any time.

A column that must not be null should have no default either, because its text says `NOT NULL` where
that of another column says `DEFAULT`. Steps see to this as well, but documents do not. A document
may forbid null and give a default, and then the column keeps both and its text is silent about the
default, until a step sets one of them anew.

## Main definitions

* `ColumnDef.Started`: the columns that steps start from.
* `ColumnDef.KeyRequired`: a primary key is not null and has no default.
* `ColumnDef.HidesDefault`: a column that must not be null has a default nevertheless.

## Main results

* `ColumnDef.guarded`: a step is refused just if a primary key would be nullable.
* `ColumnDef.key_never_nullable`: primary keys that any steps build are not nullable.
* `ColumnDef.hidesDefault_of_revive`: the documents that hide a default.
* `ColumnDef.default_shown_unless_hidden`: the defaults that the text of a column shows.
-/

namespace SqlTree.ColumnDef

variable {c c' start : ColumnDef} {s : Step} {steps : List Step} {d : Dialect} {j : Json}

/-- The columns that steps start from: new ones, and those anywhere in what documents are revived
to. -/
inductive Started : ColumnDef → Prop
  | new (name typeName : String) : Started (.of name typeName)
  | revived {d : Dialect} {j : Json} {n : Node} {c : ColumnDef}
      (hn : (Registry.builtin d).revive j = .ok n) (hc : n.Occurs (.columnDef c)) : Started c

/-- A primary key is not null and has no default. -/
def KeyRequired (c : ColumnDef) : Prop :=
  c.primaryKey = true → c.notNull = true ∧ c.defaultValue = .null

/-- What a step changes. -/
def Step.change : Step → ColumnDef → ColumnDef
  | .length n, c => { c with length := some n }
  | .primaryKey, c => { c.required with primaryKey := true }
  | .notNull, c => c.required
  | .nullable v, c => { c with notNull := false, defaultValue := v }
  | .autoIncrement, c => { c with autoIncrement := true }
  | .option o, c => { c with options := c.options ++ [o] }

/-! ### Primary keys -/

theorem Started.keyRequired (h : Started c) : c.KeyRequired := by
  cases h with
  | new name typeName => exact fun hkey => absurd hkey Bool.false_ne_true
  | revived hn hc => exact (Registry.settled_revive hn).canonical _ hc

/-- A step is refused just if a primary key would be nullable after it. -/
theorem guarded : Guarded ColumnDef.step Step.change KeyRequired := by
  intro s c c' h
  cases s with
  | length n => exact accepted_iff h
  | primaryKey => exact accepted_iff fun _ => ⟨rfl, rfl⟩
  | notNull => exact accepted_iff fun _ => ⟨rfl, rfl⟩
  | autoIncrement => exact accepted_iff h
  | option o => exact accepted_iff h
  | nullable v =>
    rw [step]
    split
    · next hkey =>
      refine iff_of_false nofun ?_
      rintro ⟨rfl, hnext⟩
      exact absurd (hnext hkey).1 Bool.false_ne_true
    · next hkey => exact accepted_iff fun hkey' => absurd hkey' hkey

/-- The only step that is refused is to make a primary key nullable. -/
theorem step_eq_error {e : Error} :
    step s c = .error e ↔
      (∃ v, s = .nullable v) ∧ c.primaryKey = true ∧ e = .nullablePrimaryKey c.name := by
  cases s with
  | nullable v =>
    rw [step]
    split
    · next hkey => simp [hkey, eq_comm]
    · next hkey => simp [hkey]
  | _ => exact iff_of_false nofun fun h => absurd h.1 nofun

/-- A step that is not refused makes its change. -/
theorem change_of_step (h : step s c = .ok c') : c' = s.change c := by
  cases s with
  | nullable v =>
    rw [step] at h
    split at h
    · cases h
    · exact (Except.ok.inj h).symm
  | _ => exact (Except.ok.inj h).symm

theorem name_change (s : Step) (c : ColumnDef) : (s.change c).name = c.name := by
  cases s <;> rfl

/-- A column becomes a primary key by one step only, and stays one. -/
theorem primaryKey_change (s : Step) (c : ColumnDef) :
    (s.change c).primaryKey = true ↔ c.primaryKey = true ∨ s = .primaryKey := by
  cases s with
  | primaryKey => exact iff_of_true rfl (.inr rfl)
  | _ => exact (or_iff_left nofun).symm

theorem primaryKey_of_performAll (h : performAll step steps start = .ok c) :
    c.primaryKey = true ↔ start.primaryKey = true ∨ .primaryKey ∈ steps := by
  have hkept : ¬c.primaryKey = true ↔
      ¬start.primaryKey = true ∧ ∀ s ∈ steps, ¬Step.primaryKey = s := by
    refine kept_iff_of_performAll (P := fun c => ¬c.primaryKey = true) (fun s c next hs => ?_) h
    rw [change_of_step hs, primaryKey_change, not_or, eq_comm (a := s)]
  rw [← not_iff_not, hkept, not_or, List.forall_mem_ne]

/-- Steps fail just if one of them makes a primary key nullable. -/
theorem performAll_eq_error {e : Error} :
    performAll step steps start = .error e ↔ e = .nullablePrimaryKey start.name ∧
      ∃ before v after, steps = before ++ .nullable v :: after ∧
        (start.primaryKey = true ∨ .primaryKey ∈ before) := by
  induction steps generalizing start with
  | nil =>
    refine iff_of_false nofun ?_
    rintro ⟨-, before, v, after, hnil, -⟩
    exact List.append_ne_nil_of_right_ne_nil before (List.cons_ne_nil _ _) hnil.symm
  | cons s steps ih =>
    rw [performAll_cons]
    cases hs : step s start with
    | error e' =>
      obtain ⟨⟨v, rfl⟩, hkey, rfl⟩ := step_eq_error.mp hs
      have hsplit : ∃ before w after, Step.nullable v :: steps = before ++ .nullable w :: after ∧
          (start.primaryKey = true ∨ .primaryKey ∈ before) :=
        ⟨[], v, steps, rfl, .inl hkey⟩
      exact ⟨fun h => ⟨(Except.error.inj h).symm, hsplit⟩, fun h => congrArg Except.error h.1.symm⟩
    | ok next =>
      rw [ok_bind, ih, change_of_step hs, name_change, primaryKey_change]
      refine and_congr_right fun _ => ⟨?_, ?_⟩
      · rintro ⟨before, v, after, rfl, hkey⟩
        refine ⟨s :: before, v, after, rfl, ?_⟩
        rwa [List.mem_cons, eq_comm (b := s), ← or_assoc]
      · rintro ⟨before, v, after, heq, hkey⟩
        cases before with
        | nil =>
          -- This step has just succeeded, so the column has not been a primary key before it.
          obtain ⟨rfl, rfl⟩ := List.cons.inj heq
          have hkey : start.primaryKey = true := hkey.resolve_right List.not_mem_nil
          have hrefused := step_eq_error.mpr ⟨⟨v, rfl⟩, hkey, rfl⟩
          rw [hs] at hrefused
          cases hrefused
        | cons first before =>
          obtain ⟨rfl, rfl⟩ := List.cons.inj heq
          refine ⟨before, v, after, rfl, ?_⟩
          rwa [List.mem_cons, eq_comm (b := s), ← or_assoc] at hkey

theorem KeyRequired.check_ne (h : c.KeyRequired) (name : String) :
    c.check ≠ .error (.nullablePrimaryKey name) := by
  have hguard : (c.primaryKey && !c.notNull) = false := by
    cases hkey : c.primaryKey with
    | false => rfl
    | true => rw [(h hkey).1]; rfl
  rw [check, requireText, requireText, hguard]
  intro he
  split at he
  · cases he
  · split at he <;> cases he

/-- A column that is started new or taken from a document is completed by steps unless one of them
makes it nullable when it is a primary key, whether it was one at the start or became one by an
earlier step. If the column is a primary key after the steps, then it must not be null and has no
default, and no other column refuses to be made nullable. So its check never finds a primary key
that may be null. -/
theorem key_never_nullable (hstart : Started start) (steps : List Step) :
    (∀ c, performAll step steps start = .ok c →
      (c.primaryKey = true → c.notNull = true ∧ c.defaultValue = .null) ∧
      (c.primaryKey = true ↔ start.primaryKey = true ∨ .primaryKey ∈ steps) ∧
      (∀ v, (∃ e, step (.nullable v) c = .error e) ↔ c.primaryKey = true) ∧
      ∀ name, c.check ≠ .error (.nullablePrimaryKey name)) ∧
    ∀ e, performAll step steps start = .error e ↔ e = .nullablePrimaryKey start.name ∧
      ∃ before v after, steps = before ++ .nullable v :: after ∧
        (start.primaryKey = true ∨ .primaryKey ∈ before) := by
  refine ⟨fun c hc => ?_, fun e => performAll_eq_error⟩
  have hkey : c.KeyRequired := guarded.of_performAll hc hstart.keyRequired
  refine ⟨hkey, primaryKey_of_performAll hc, fun v => ?_, hkey.check_ne⟩
  simp [step_eq_error]

/-- The number of a student as a primary key, revived from a document that allows null and gives a
default. It can be completed, but not be made nullable, even after a step that forbids null. -/
theorem key_never_nullable_student :
    let j : Json := .object [("classname", .string "ColumnDef"), ("defaultValue", .natural 5),
      ("name", .string "id"), ("notNull", .bool false), ("primaryKey", .bool true),
      ("type", .string "INTEGER")]
    let start : ColumnDef := { of "id" "INTEGER" with primaryKey := true, notNull := true }
    let c : ColumnDef := { start with length := some 11, autoIncrement := true }
    (Registry.builtin .mySQL).revive j = .ok (.columnDef start) ∧
      performAll step [.length 11, .autoIncrement] start = .ok c ∧
      c.notNull = true ∧ c.defaultValue = .null ∧
      (∃ e, step (.nullable (.natural 5)) c = .error e) ∧
      c.check ≠ .error (.nullablePrimaryKey "id") ∧
      performAll step [.notNull, .nullable .null, .autoIncrement] start =
        .error (.nullablePrimaryKey "id") := by
  intro j start c
  have hj : (Registry.builtin .mySQL).revive j = .ok (.columnDef start) := by cbv
  have hc : performAll step [.length 11, .autoIncrement] start = .ok c := rfl
  obtain ⟨hsteps, -⟩ := key_never_nullable (.revived hj (.self _)) [.length 11, .autoIncrement]
  obtain ⟨hrequired, -, hnullable, hcheck⟩ := hsteps c hc
  obtain ⟨-, hfailed⟩ :=
    key_never_nullable (.revived hj (.self _)) [.notNull, .nullable .null, .autoIncrement]
  have hrefused := (hfailed _).mpr ⟨rfl, [.notNull], .null, [.autoIncrement], rfl, .inl rfl⟩
  exact ⟨hj, hc, (hrequired rfl).1, (hrequired rfl).2, (hnullable _).mpr rfl, hcheck _, hrefused⟩

/-! ### Defaults that are not shown -/

/-- A column must not be null and has a default nevertheless. -/
def HidesDefault (c : ColumnDef) : Prop := c.notNull = true ∧ c.defaultValue ≠ .null

/-- The steps that set neither the default of a column nor whether it may be null. -/
def Step.KeepsDefault : Step → Prop
  | .length _ => True
  | .autoIncrement => True
  | .option _ => True
  | _ => False

/-- A document forbids null and gives a default, and does not ask for a primary key. -/
def ForbidsNullWithDefault (j : Json) : Prop :=
  j.member? "notNull" = some (.bool true) ∧ (j.member? "defaultValue").getD .null ≠ .null ∧
    j.member? "primaryKey" ≠ some (.bool true)

theorem not_hidesDefault_of (name typeName : String) : ¬(of name typeName).HidesDefault :=
  fun h => absurd h.1 Bool.false_ne_true

/-- A column hides its default after a step just if it did so before and the step does not set
anew what may be null. -/
theorem hidesDefault_change (s : Step) (c : ColumnDef) :
    (s.change c).HidesDefault ↔ c.HidesDefault ∧ s.KeepsDefault := by
  cases s with
  | primaryKey => exact iff_of_false (fun h => h.2 rfl) And.right
  | notNull => exact iff_of_false (fun h => h.2 rfl) And.right
  | nullable v => exact iff_of_false (fun h => absurd h.1 Bool.false_ne_true) And.right
  | _ => exact (and_iff_left trivial).symm

theorem hidesDefault_of_performAll (h : performAll step steps start = .ok c) :
    c.HidesDefault ↔ start.HidesDefault ∧ ∀ s ∈ steps, s.KeepsDefault :=
  kept_iff_of_performAll (fun s c next hs => by rw [change_of_step hs, hidesDefault_change]) h

/-- Only the fields of the definition of a column are put together to one. -/
theorem columnDef_of_construct {f : Fields} (h : f.construct d = .ok (.columnDef c)) :
    f.columnDef = .ok c := by
  rw [Fields.construct] at h
  split at h <;> obtain ⟨_, hx, heq⟩ := map_eq_ok.mp h <;> cases heq
  exact hx

/-- A column that is revived hides its default just if its document forbids null, gives a default
and does not make the column a primary key. -/
theorem hidesDefault_of_revive (h : (Registry.builtin d).revive j = .ok (.columnDef c)) :
    c.HidesDefault ↔ ForbidsNullWithDefault j := by
  obtain ⟨members, rfl, hconstruct⟩ := Registry.exists_members h
  obtain ⟨kind, hconstruct⟩ := Registry.exists_kind hconstruct
  have hreads : Fields.Reads ⟨kind, (Registry.builtin d).memberReadings members⟩
      (Registry.builtin d) members := rfl
  obtain ⟨name, -, typeName, -, length, -, notNull, hnull, autoIncrement, -, options, -, primaryKey,
    hkey, rfl⟩ := Fields.columnDef_eq_ok.mp (columnDef_of_construct hconstruct)
  have hnull := hreads.flag hnull
  have hkey := hreads.flag hkey
  rw [ForbidsNullWithDefault, Json.member?, Json.member?, Json.member?, ← hnull, ne_eq, ne_eq,
    ← hkey, ← hreads.raw]
  cases primaryKey with
  | true => exact iff_of_false (fun h => h.2 rfl) fun h => h.2.2 rfl
  | false => exact and_congr_right fun _ => (and_iff_left Bool.false_ne_true).symm

/-- A column that hides its default is not new, but has a document that makes it do so. -/
theorem Started.exists_document (h : Started c) (hhides : c.HidesDefault) :
    ∃ d j, (Registry.builtin d).revive j = .ok (.columnDef c) ∧ ForbidsNullWithDefault j := by
  cases h with
  | new name typeName => exact absurd hhides (not_hidesDefault_of name typeName)
  | revived hn hc =>
    have hcanonical : (Node.columnDef c).Canonical _ :=
      (Registry.settled_revive hn).canonical.of_occurs hc
    have hback := hcanonical.returns nofun
    exact ⟨_, _, hback, (hidesDefault_of_revive hback).mp hhides⟩

/-- The text of a column that may be null has its default in it. -/
theorem sql_of_nullable (h : c.notNull = false) :
    ∃ front back, c.sql = front ++ " DEFAULT " ++ c.defaultValue.text ++ back := by
  rw [sql, h, if_neg Bool.false_ne_true, @String.append_assoc _ _ (String.join _),
    ← @String.append_assoc _ " DEFAULT "]
  exact ⟨_, _, rfl⟩

/-- The text of a column that must not be null is the same with any default. -/
theorem sql_of_required (h : c.notNull = true) (v : Json) :
    ({ c with defaultValue := v } : ColumnDef).sql = c.sql := by
  simp only [sql, h, if_true]

/-- Let a column be started new or taken from a document and completed by steps, and let it pass its
check and have a default. Then its text shows the default unless the column must not be null, in
which case the text is the same as with any other default or none. This happens just if the column
has been revived from a document that forbids null, gives a default and does not ask for a primary
key, and no step has set the default or whether the column may be null. So the text of a column that
is started new always shows its default. -/
theorem default_shown_unless_hidden (hstart : Started start)
    (hsteps : performAll step steps start = .ok c) (hcheck : c.check = .ok ())
    (hdefault : c.defaultValue ≠ .null) :
    (Node.columnDef c).toSql = .ok c.sql ∧
    (c.notNull = false →
      ∃ front back, c.sql = front ++ " DEFAULT " ++ c.defaultValue.text ++ back) ∧
    (c.notNull = true → ∀ v, ({ c with defaultValue := v } : ColumnDef).sql = c.sql) ∧
    (c.notNull = true ↔
      (∃ d j, (Registry.builtin d).revive j = .ok (.columnDef start) ∧
        ForbidsNullWithDefault j) ∧ ∀ s ∈ steps, s.KeepsDefault) := by
  have hsql : (Node.columnDef c).toSql = .ok c.sql := by
    rw [Node.toSql, Node.check, hcheck]
    rfl
  have hhides : c.notNull = true ↔ c.HidesDefault := (and_iff_left hdefault).symm
  refine ⟨hsql, sql_of_nullable, sql_of_required, ?_⟩
  rw [hhides, hidesDefault_of_performAll hsteps]
  refine and_congr_left fun _ => ⟨hstart.exists_document, ?_⟩
  rintro ⟨d, j, hj, hforbids⟩
  exact (hidesDefault_of_revive hj).mpr hforbids

/-- The age of a student. If it is revived from a document that forbids null and gives a default,
then the text does not show the default even after another step, but it does as soon as the column
is made nullable with this default, and so does the text of a new column. -/
theorem default_shown_unless_hidden_age :
    let j : Json := .object [("classname", .string "ColumnDef"), ("defaultValue", .natural 5),
      ("name", .string "age"), ("notNull", .bool true), ("type", .string "INTEGER")]
    let start : ColumnDef := { of "age" "INTEGER" with notNull := true, defaultValue := .natural 5 }
    let hidden : ColumnDef := { start with options := ["UNIQUE"] }
    let shown : ColumnDef := { of "age" "INTEGER" with defaultValue := .natural 5 }
    (Registry.builtin .mySQL).revive j = .ok (.columnDef start) ∧ ForbidsNullWithDefault j ∧
      performAll step [.option "UNIQUE"] start = .ok hidden ∧ hidden.check = .ok () ∧
      (Node.columnDef hidden).toSql = .ok "`age` INTEGER NOT NULL UNIQUE" ∧
      (∀ v, ({ hidden with defaultValue := v } : ColumnDef).sql = hidden.sql) ∧
      performAll step [.nullable (.natural 5)] start = .ok shown ∧
      performAll step [.nullable (.natural 5)] (of "age" "INTEGER") = .ok shown ∧
      (Node.columnDef shown).toSql = .ok "`age` INTEGER DEFAULT 5" ∧
      ∃ front back, shown.sql = front ++ " DEFAULT " ++ "5" ++ back := by
  intro j start hidden shown
  have hj : (Registry.builtin .mySQL).revive j = .ok (.columnDef start) := by cbv
  have hfive : Json.natural 5 ≠ .null := fun h => by cases h
  have hforbids : ForbidsNullWithDefault j := ⟨rfl, hfive, fun h => by cases h⟩
  have hhidden : performAll step [.option "UNIQUE"] start = .ok hidden := rfl
  have hshown : performAll step [.nullable (.natural 5)] (of "age" "INTEGER") = .ok shown := rfl
  obtain ⟨hhiddenSql, -, hsame, -⟩ :=
    default_shown_unless_hidden (.revived hj (.self _)) hhidden rfl hfive
  obtain ⟨hshownSql, hdefault, -, -⟩ :=
    default_shown_unless_hidden (.new "age" "INTEGER") hshown rfl hfive
  have hhiddenText : hidden.sql = "`age` INTEGER NOT NULL UNIQUE" := by cbv
  have hshownText : shown.sql = "`age` INTEGER DEFAULT 5" := by cbv
  rw [hhiddenText] at hhiddenSql
  rw [hshownText] at hshownSql
  exact ⟨hj, hforbids, hhidden, rfl, hhiddenSql, hsame rfl, rfl, hshown, hshownSql, hdefault rfl⟩

end SqlTree.ColumnDef
