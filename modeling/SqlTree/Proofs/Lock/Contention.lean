import SqlTree.Proofs.Lock.Routes
import SqlTree.Proofs.Node.Reads

/-!
# Statements that contend for a lock

Two statements contend if their plans have a lock in common which one of them takes to write. This
should be so exactly if one of them writes a table that the other reads or writes as well, a table
being given by its schema, if there is one, and its name.

One half of it always holds: statements that share a table in this way contend. The other half
does not, since a lock is named by a text in which a dot stands between the schema and the name,
and schemas and names may have dots in them too. The table `a.b` without a schema and the table `b`
of the schema `a` have the same lock. So two statements contend exactly if they share a table or
if they have tables whose texts are the same because a dot is read in two ways. If no name of a
table without a schema has a dot in it, and no schema has one, every text is read in one way only,
and different tables have different locks.

## Main definitions

* `Misread`: two tables whose texts are the same because a dot is read in two ways.
* `Statement.Reads`, `Statement.Writes`, `Statement.Touches`: the tables of a statement.
* `Statement.SharesTable`, `Statement.ContendsWith`: a table or a lock that two statements have in
  common, and that one of them writes.

## Main results

* `qualifiedName_eq_iff`: which tables have the same text.
* `Statement.contendsWith_iff`: which statements contend.
-/

namespace SqlTree

/-! ### Texts of tables -/

/-- The two tables have the same text, and a dot in the name of the first is read as the one behind
the schema of the second. -/
inductive Misread : Option String × String → Option String × String → Prop
  /-- The beginning of a name is read as a schema. -/
  | schemaless (schema name : String) :
      Misread (none, schema ++ "." ++ name) (some schema, name)
  /-- The beginning of a name is read as the end of the schema. -/
  | shifted (schema middle name : String) :
      Misread (some schema, middle ++ "." ++ name) (some (schema ++ "." ++ middle), name)

/-- A table for whose text there is no doubt which dot stands behind the schema: the text in front
has no dot in it, be it the schema or the name. -/
def Plain (t : Option String × String) : Prop := '.' ∉ (t.1.getD t.2).toList

theorem Misread.qualifiedName_eq {t u : Option String × String} (h : Misread t u) :
    qualifiedName t.1 t.2 = qualifiedName u.1 u.2 := by
  cases h with
  | schemaless schema name => rfl
  | shifted schema middle name => simp only [qualifiedName, String.append_assoc]

/-- One of two tables that are taken for each other is not plain. -/
theorem Misread.not_plain {t u : Option String × String} (h : Misread t u) :
    ¬ (Plain t ∧ Plain u) := by
  rintro ⟨ht, hu⟩
  cases h with
  | schemaless schema name => simp [Plain] at ht
  | shifted schema middle name => simp [Plain] at hu

/-- If a text is cut at two dots, the cuts are the same, or the schema of the second table reaches
beyond the first dot. -/
theorem eq_or_misread_of_cut {schema name schema' name' : String} {before : List Char}
    (hfront : schema'.toList = schema.toList ++ before)
    (hback : '.' :: name.toList = before ++ '.' :: name'.toList) :
    (some schema, name) = (some schema', name') ∨
      Misread (some schema, name) (some schema', name') := by
  cases before with
  | nil =>
    rw [List.append_nil] at hfront
    obtain ⟨-, hname⟩ := List.cons.inj hback
    rw [String.toList_inj.mp hfront, String.toList_inj.mp hname]
    exact .inl rfl
  | cons c middle =>
    obtain ⟨rfl, hname⟩ := List.cons.inj hback
    have hs : schema' = schema ++ "." ++ String.ofList middle := by
      simp [← String.toList_inj, hfront]
    have hn : name = String.ofList middle ++ "." ++ name' := by
      simp [← String.toList_inj, hname]
    rw [hs, hn]
    exact .inr (.shifted schema (String.ofList middle) name')

/-- Two tables of schemas have the same text if they are the same or one is misread as the other. -/
theorem eq_or_misread {schema name schema' name' : String}
    (h : schema ++ "." ++ name = schema' ++ "." ++ name') :
    (some schema, name) = (some schema', name') ∨
      Misread (some schema, name) (some schema', name') ∨
      Misread (some schema', name') (some schema, name) := by
  have htexts : schema.toList ++ '.' :: name.toList = schema'.toList ++ '.' :: name'.toList := by
    simpa [← String.toList_inj] using h
  rcases List.append_eq_append_iff.mp htexts with ⟨before, hfront, hback⟩ | ⟨before, hfront, hback⟩
  · exact (eq_or_misread_of_cut hfront hback).imp_right .inl
  · exact (eq_or_misread_of_cut hfront hback).imp Eq.symm .inr

/-- Two tables have the same text if they are the same or one is misread as the other. -/
theorem qualifiedName_eq_iff {t u : Option String × String} :
    qualifiedName t.1 t.2 = qualifiedName u.1 u.2 ↔ t = u ∨ Misread t u ∨ Misread u t := by
  constructor
  · intro h
    obtain ⟨_ | schema, name⟩ := t <;> obtain ⟨_ | schema', name'⟩ := u
    · exact .inl (congrArg (Prod.mk none) h)
    · obtain rfl : name = schema' ++ "." ++ name' := h
      exact .inr (.inl (.schemaless schema' name'))
    · obtain rfl : schema ++ "." ++ name = name' := h
      exact .inr (.inr (.schemaless schema name))
    · exact eq_or_misread h
  · rintro (rfl | h | h)
    · rfl
    · exact h.qualifiedName_eq
    · exact h.qualifiedName_eq.symm

/-! ### Tables and locks of statements -/

namespace Statement

variable {s s₁ s₂ : Statement} {t : Option String × String} {name : String}

/-- A query somewhere in the statement takes rows from the table. -/
def Reads (s : Statement) (t : Option String × String) : Prop :=
  ∃ q, (Node.statement s).HasQuery q ∧
    ∃ st : SchemaTable, .schema st ∈ q.tables ∧ (st.schema, st.table) = t

/-- The table is the one that the statement changes. -/
def Writes (s : Statement) (t : Option String × String) : Prop := t ∈ s.target?

/-- The statement reads or writes the table. -/
def Touches (s : Statement) (t : Option String × String) : Prop := s.Reads t ∨ s.Writes t

/-- A table is touched by both statements and written by one of them. -/
def SharesTable (s₁ s₂ : Statement) : Prop :=
  ∃ t, s₁.Touches t ∧ s₂.Touches t ∧ (s₁.Writes t ∨ s₂.Writes t)

/-- The plans of both statements have a lock in common that one of them takes to write. -/
def ContendsWith (s₁ s₂ : Statement) : Prop :=
  ∃ name kind₁ kind₂, (name, kind₁) ∈ lockPlan s₁.access ∧ (name, kind₂) ∈ lockPlan s₂.access ∧
    (kind₁ = .write ∨ kind₂ = .write)

theorem mem_access_reads :
    name ∈ s.access.reads ↔ ∃ t, s.Reads t ∧ qualifiedName t.1 t.2 = name := by
  have hterms : name ∈ s.access.reads ↔
      ∃ q, (Node.statement s).HasTerm (.query q) ∧ q.Names name := by
    rw [access, Access.ofLists, Names.mem_ofList, reads_eq, List.mem_flatMap]
    simp only [Term.mem_reads, Node.HasTerm, Node.terms]
    grind
  simp only [hterms, Node.hasTerm_iff, Node.Stands, Query.Names, Reads]
  grind

theorem mem_access_writes :
    name ∈ s.access.writes ↔ ∃ t, s.Writes t ∧ qualifiedName t.1 t.2 = name := by
  rw [access_writes, Option.mem_toList, Option.map_eq_some_iff]
  rfl

/-- The plan of a statement has the texts of its tables, to write if one with the text is
written. -/
theorem mem_plan {kind : LockKind} :
    (name, kind) ∈ lockPlan s.access ↔
      (∃ t, s.Touches t ∧ qualifiedName t.1 t.2 = name) ∧
        (kind = .write ↔ ∃ t, s.Writes t ∧ qualifiedName t.1 t.2 = name) := by
  rw [mem_lockPlan, mem_access_reads, mem_access_writes, ← exists_or]
  simp only [Touches, or_and_right]

/-- The lock of a touched table is in the plan, and to write if the table is written. -/
theorem Touches.exists_mem_plan (h : s.Touches t) :
    ∃ kind, (qualifiedName t.1 t.2, kind) ∈ lockPlan s.access ∧ (s.Writes t → kind = .write) := by
  by_cases hw : ∃ u, s.Writes u ∧ qualifiedName u.1 u.2 = qualifiedName t.1 t.2
  · exact ⟨.write, mem_plan.mpr ⟨⟨t, h, rfl⟩, by simp [hw]⟩, fun _ => rfl⟩
  · exact ⟨.read, mem_plan.mpr ⟨⟨t, h, rfl⟩, by simp [hw]⟩, fun hwrites =>
      absurd ⟨t, hwrites, rfl⟩ hw⟩

/-- Statements contend if they touch tables with the same text and one of them writes its table. -/
theorem contendsWith_iff_text :
    s₁.ContendsWith s₂ ↔ ∃ t₁ t₂, s₁.Touches t₁ ∧ s₂.Touches t₂ ∧ (s₁.Writes t₁ ∨ s₂.Writes t₂) ∧
      qualifiedName t₁.1 t₁.2 = qualifiedName t₂.1 t₂.2 := by
  constructor
  · rintro ⟨name, kind₁, kind₂, h₁, h₂, hkind⟩
    obtain ⟨⟨t₁, ht₁, rfl⟩, hwrite₁⟩ := mem_plan.mp h₁
    obtain ⟨⟨t₂, ht₂, htext⟩, hwrite₂⟩ := mem_plan.mp h₂
    rcases hkind with hkind | hkind
    · obtain ⟨u, hu, hutext⟩ := hwrite₁.mp hkind
      exact ⟨u, t₂, .inr hu, ht₂, .inl hu, hutext.trans htext.symm⟩
    · obtain ⟨u, hu, hutext⟩ := hwrite₂.mp hkind
      exact ⟨t₁, u, ht₁, .inr hu, .inr hu, hutext.symm⟩
  · rintro ⟨t₁, t₂, ht₁, ht₂, hwrites, htext⟩
    obtain ⟨kind₁, hmem₁, hkind₁⟩ := ht₁.exists_mem_plan
    obtain ⟨kind₂, hmem₂, hkind₂⟩ := ht₂.exists_mem_plan
    exact ⟨_, kind₁, kind₂, hmem₁, htext ▸ hmem₂, hwrites.imp hkind₁ hkind₂⟩

/-- Two statements contend exactly if they share a table that one of them writes or touch two
tables, one of which is written, whose texts are the same because a dot is read in two ways. If all
tables that they touch are plain, they contend exactly if they share a table that one of them
writes. -/
theorem contendsWith_iff (s₁ s₂ : Statement) :
    (s₁.ContendsWith s₂ ↔ s₁.SharesTable s₂ ∨
      ∃ t₁ t₂, s₁.Touches t₁ ∧ s₂.Touches t₂ ∧ (s₁.Writes t₁ ∨ s₂.Writes t₂) ∧
        (Misread t₁ t₂ ∨ Misread t₂ t₁)) ∧
      ((∀ t, s₁.Touches t ∨ s₂.Touches t → Plain t) →
        (s₁.ContendsWith s₂ ↔ s₁.SharesTable s₂)) := by
  have hiff : s₁.ContendsWith s₂ ↔ s₁.SharesTable s₂ ∨
      ∃ t₁ t₂, s₁.Touches t₁ ∧ s₂.Touches t₂ ∧ (s₁.Writes t₁ ∨ s₂.Writes t₂) ∧
        (Misread t₁ t₂ ∨ Misread t₂ t₁) := by
    rw [contendsWith_iff_text]
    simp only [qualifiedName_eq_iff]
    constructor
    · rintro ⟨t₁, t₂, h₁, h₂, hwrites, rfl | hmisread⟩
      · exact .inl ⟨t₁, h₁, h₂, hwrites⟩
      · exact .inr ⟨t₁, t₂, h₁, h₂, hwrites, hmisread⟩
    · rintro (⟨t, h₁, h₂, hwrites⟩ | ⟨t₁, t₂, h₁, h₂, hwrites, hmisread⟩)
      · exact ⟨t, t, h₁, h₂, hwrites, .inl rfl⟩
      · exact ⟨t₁, t₂, h₁, h₂, hwrites, .inr hmisread⟩
  refine ⟨hiff, fun hplain => hiff.trans (or_iff_left ?_)⟩
  rintro ⟨t₁, t₂, h₁, h₂, -, hmisread | hmisread⟩
  · exact hmisread.not_plain ⟨hplain t₁ (.inl h₁), hplain t₂ (.inr h₂)⟩
  · exact hmisread.not_plain ⟨hplain t₂ (.inr h₂), hplain t₁ (.inl h₁)⟩

/-- A statement without terms reads nothing. -/
theorem not_reads (h : s.terms = []) : ¬ s.Reads t := by
  rintro ⟨q, hq, -⟩
  obtain ⟨t₀, ht₀, -⟩ := (Node.hasTerm_iff (t := .query q)).mpr hq
  exact absurd (h ▸ ht₀ : t₀ ∈ []) List.not_mem_nil

/-- A query without terms inside reads just the tables of its FROM clause. -/
theorem reads_query_iff {q : Query} (h : q.terms = []) :
    (query q).Reads t ↔ ∃ st : SchemaTable, .schema st ∈ q.tables ∧ (st.schema, st.table) = t := by
  have honly (q' : Query) : (Node.statement (query q)).HasQuery q' ↔ q' = q := by
    refine Iff.trans (Node.hasTerm_iff (t := .query q')).symm ⟨?_, ?_⟩
    · rintro ⟨t₀, ht₀, hhas⟩
      obtain rfl := List.mem_singleton.mp ht₀
      rcases hhas.cases_head with heq | ⟨t₁, ht₁, -⟩
      · exact (Term.query.inj heq).symm
      · exact absurd (h ▸ ht₁ : t₁ ∈ []) List.not_mem_nil
    · rintro rfl
      exact Node.hasTerm_of_mem (List.mem_singleton_self _)
  simp only [Reads, honly, exists_eq_left]

/-- The query that takes the rows from one table. -/
def scan (t : Option String × String) : Statement :=
  query ⟨false, [], [⟨.schema ⟨t.1, t.2, none, none⟩, []⟩], none, none, [], none⟩

/-- The deletion of all rows of one table. -/
def clear (t : Option String × String) : Statement := deletion ⟨t.1, t.2, none⟩

variable {u : Option String × String}

theorem scan_touches : (scan t).Touches u ↔ u = t := by
  have hwrites : ¬ (scan t).Writes u := nofun
  rw [Touches, or_iff_left hwrites, scan, reads_query_iff rfl]
  simp [Query.tables, Query.joined, FromTable.joined, eq_comm]

theorem clear_touches : (clear t).Touches u ↔ u = t := by
  rw [Touches, or_iff_right (not_reads rfl)]
  exact Option.some_inj.trans eq_comm

theorem clear_sharesTable_scan : (clear t).SharesTable (scan u) ↔ t = u := by
  simp only [SharesTable, clear_touches, scan_touches]
  constructor
  · rintro ⟨_, rfl, rfl, -⟩
    rfl
  · rintro rfl
    exact ⟨t, rfl, rfl, .inl rfl⟩

/-- The theorem at a deletion and a query: on the table `a.b` without a schema and on the table `b`
of the schema `a` they contend without sharing a table; on the tables `c` and `b` of the schema `a`
they do not contend, and on the same table they do. -/
theorem contendsWith_iff_dotted :
    (clear (none, "a.b")).ContendsWith (scan (some "a", "b")) ∧
      ¬ (clear (none, "a.b")).SharesTable (scan (some "a", "b")) ∧
      ¬ (clear (some "a", "c")).ContendsWith (scan (some "a", "b")) ∧
      (clear (some "a", "b")).ContendsWith (scan (some "a", "b")) := by
  have hplain (name : String) : ∀ t, (clear (some "a", name)).Touches t ∨
      (scan (some "a", "b")).Touches t → Plain t := by
    simp only [clear_touches, scan_touches]
    rintro t (rfl | rfl) <;> exact (by decide : '.' ∉ "a".toList)
  obtain ⟨hdotted, -⟩ := contendsWith_iff (clear (none, "a.b")) (scan (some "a", "b"))
  obtain ⟨-, hother⟩ := contendsWith_iff (clear (some "a", "c")) (scan (some "a", "b"))
  obtain ⟨-, hsame⟩ := contendsWith_iff (clear (some "a", "b")) (scan (some "a", "b"))
  refine ⟨hdotted.mpr (.inr ⟨_, _, clear_touches.mpr rfl, scan_touches.mpr rfl, .inl rfl, .inl ?_⟩),
    ?_, ?_, (hsame (hplain "b")).mpr (clear_sharesTable_scan.mpr rfl)⟩
  · exact .schemaless "a" "b"
  · rw [clear_sharesTable_scan]
    decide
  · rw [hother (hplain "c"), clear_sharesTable_scan]
    decide

end Statement

end SqlTree
