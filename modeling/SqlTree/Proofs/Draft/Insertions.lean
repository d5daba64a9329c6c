import SqlTree.Draft.Change
import SqlTree.Proofs.Document.Image
import SqlTree.Proofs.Draft.Steps
import SqlTree.Proofs.Node.LocalRules

/-!
# Building insertions

While an insertion is built, its columns, its rows and its query may come in any order, and each of
them may be given up for another. A step is refused just if after it the numbers of values would not
fit, so that they fit at any time. Conversely an insertion whose numbers of values fit is built by
naming its columns first and then adding its rows or setting its query, and none of these steps is
refused.

## Main definitions

* `Insertion.Fits`: the rows or the query of an insertion fit its columns.
* `Insertion.Step.change`: what a step changes if it is not refused.
* `Insertion.steps`: the steps that build an insertion.

## Main results

* `Insertion.steady`: a step that is refused leaves the insertion as it was.
* `Insertion.guarded`: a step is refused just if the values would not fit.
* `Insertion.performAll_steps`: an insertion whose values fit is built.
* `Insertion.buildable_iff_fits`: the insertions that can be built.
-/

namespace SqlTree

variable {i i' : Insertion} {row : List Expr} {columns : List String}

namespace InsertionSource

/-- Some of the rows fit if all do. -/
theorem Fits.of_subset {rs done : List (List Expr)} (h : (rows rs).Fits columns)
    (hdone : done ⊆ rs) : (rows done).Fits columns :=
  ⟨fun hc row hrow => h.1 hc row (hdone hrow),
    fun hc row hrow row' hrow' => h.2 hc row (hdone hrow) row' (hdone hrow')⟩

end InsertionSource

namespace Insertion

/-- There are as many values in each row, and in the query unless it gives all columns, as there are
columns. Without columns all rows have equally many. -/
def Fits (i : Insertion) : Prop := i.source.Fits i.columns

/-- What a step changes. -/
def Step.change : Step → Insertion → Insertion
  | .schema s, i => { i with schema := some s }
  | .columns cs, i => { i with columns := cs }
  | .row r, i => { i with source := i.source.add r }
  | .query q, i => { i with source := .query q }

/-! ### Single steps -/

/-- A step looks at what it is given before it changes anything. -/
theorem steady (s : Step) : (perform s).Steady := by
  cases s with
  | schema s => exact .modify _
  | columns cs => exact .get fun i => .check (.set _)
  | row r =>
    refine .get fun i => ?_
    cases i.expectedArity? with
    | none => exact .modify _
    | some expected => exact .guard (.modify _)
  | query q => exact .get fun i => .check (.set _)

/-- A row is appended if it has as many values as expected. -/
theorem addRow_eq_ok :
    (addRow row).result i = .ok i' ↔
      i' = { i with source := i.source.add row } ∧
        ∀ expected, i.expectedArity? = some expected → row.length = expected := by
  rw [addRow, Edit.result_get]
  cases i.expectedArity? with
  | none =>
    rw [Edit.result_modify_eq_ok]
    exact (and_iff_left nofun).symm
  | some expected =>
    have hlength : ¬row.length ≠ expected ↔ ∀ n, some expected = some n → row.length = n := by simp
    rw [Edit.result_guard, guard_eq_ok, Edit.result_modify_eq_ok, and_comm, hlength]

/-- Rows fit if they have as many values as expected. -/
theorem fits_rows_iff {rs : List (List Expr)} {expected : Nat} (hs : i.source = .rows rs)
    (he : i.expectedArity? = some expected) : i.Fits ↔ ∀ r ∈ rs, r.length = expected :=
  checkArity_eq_ok.symm.trans (checkArity_rows hs he)

/-- A row after others fits if it has as many values as they have. -/
theorem fits_append_iff {rs : List (List Expr)} {n : Nat} (h : i.Fits) (hs : i.source = .rows rs)
    (hn : i.expectedArity? = some n)
    (hnext : ({ i with source := .rows (rs ++ [row]) } : Insertion).expectedArity? = some n) :
    ({ i with source := .rows (rs ++ [row]) } : Insertion).Fits ↔ row.length = n := by
  rw [fits_rows_iff rfl hnext, List.forall_mem_append, List.forall_mem_singleton]
  exact and_iff_right ((fits_rows_iff hs hn).mp h)

/-- A single row fits if there are no columns. -/
theorem fits_single (schema : Option String) (name : String) (row : List Expr) :
    (⟨schema, name, [], .rows [row]⟩ : Insertion).Fits :=
  (fits_rows_iff rfl rfl).mpr fun r hr => by rw [List.mem_singleton.mp hr]

/-- A further row fits if it has as many values as expected. -/
theorem fits_add_iff (h : i.Fits) :
    ({ i with source := i.source.add row } : Insertion).Fits ↔
      ∀ expected, i.expectedArity? = some expected → row.length = expected := by
  have hexpected {n : Nat} (hn : i.expectedArity? = some n) :
      (∀ expected, i.expectedArity? = some expected → row.length = expected) ↔ row.length = n := by
    simp [hn]
  obtain ⟨schema, name, columns, rs | q⟩ := i
  · cases columns with
    | cons column columns => exact (fits_append_iff h rfl rfl rfl).trans (hexpected rfl).symm
    | nil =>
      cases rs with
      | cons first rest => exact (fits_append_iff h rfl rfl rfl).trans (hexpected rfl).symm
      | nil => exact iff_of_true (fits_single schema name row) nofun
  · cases columns with
    | cons column columns => rw [hexpected rfl, fits_rows_iff rfl rfl, List.forall_mem_singleton]
    | nil => exact iff_of_true (fits_single schema name row) nofun

theorem step_columns (columns : List String) (i : Insertion) :
    i.step (.columns columns) = (do
      ({ i with columns } : Insertion).checkArity
      return { i with columns }) :=
  Edit.result_check _ _ i

theorem step_query (q : Query) (i : Insertion) :
    i.step (.query q) = (do
      ({ i with source := .query q } : Insertion).checkArity
      return { i with source := .query q }) :=
  Edit.result_check _ _ i

/-- What is set is kept if the values fit after it. -/
theorem set_eq_ok {next : Insertion} :
    (do next.checkArity; return next) = Except.ok i' ↔ i' = next ∧ i'.Fits := by
  rw [seq_eq_ok, checkArity_eq_ok]
  constructor
  · rintro ⟨hfits, ⟨⟩⟩
    exact ⟨rfl, hfits⟩
  · rintro ⟨rfl, hfits⟩
    exact ⟨hfits, rfl⟩

/-- A step is refused just if the values would not fit after it. -/
theorem guarded : Guarded Insertion.step Step.change Fits := by
  intro s i i' h
  cases s with
  | schema s => exact accepted_iff h
  | columns cs =>
    rw [step_columns]
    exact set_eq_ok
  | row r =>
    refine addRow_eq_ok.trans (and_congr_right fun hi => ?_)
    rw [hi]
    exact (fits_add_iff h).symm
  | query q =>
    rw [step_query]
    exact set_eq_ok

/-! ### Whole insertions -/

/-- The steps that build an insertion: its columns are named before there are rows or a query. -/
def steps (i : Insertion) : List Step :=
  (i.schema.map .schema).toList ++ .columns i.columns ::
    match i.source with
    | .rows rs => rs.map .row
    | .query q => [.query q]

/-- An insertion whose values fit is built by steps that all succeed. -/
theorem performAll_steps (h : i.Fits) :
    performAll Insertion.step i.steps (.into i.name) = .ok i := by
  obtain ⟨schema, name, columns, source⟩ := i
  have hschema : performAll Insertion.step (schema.map Step.schema).toList (.into name) =
      .ok ⟨schema, name, [], .rows []⟩ := by
    cases schema <;> rfl
  have hempty (cs : List String) : (⟨schema, name, cs, .rows []⟩ : Insertion).Fits :=
    ⟨fun _ => nofun, fun _ => nofun⟩
  have hcolumns : Insertion.step (.columns columns) ⟨schema, name, [], .rows []⟩ =
      .ok ⟨schema, name, columns, .rows []⟩ :=
    guarded.step_eq (hempty []) (hempty columns)
  rw [steps, performAll_append, hschema, ok_bind, performAll_cons, hcolumns, ok_bind]
  cases source with
  | rows rs =>
    refine guarded.performAll_map (fun rs => ⟨schema, name, columns, .rows rs⟩)
      (fun _ _ => rfl) fun done hdone => ?_
    exact InsertionSource.Fits.of_subset h hdone.subset
  | query q =>
    rw [performAll_singleton]
    exact guarded.step_eq (hempty columns) h

/-- A step that fails leaves the insertion as it was, and so what any steps build is what the
successful ones among them build. It is always an insertion whose values fit. Conversely each
insertion whose values fit is built by steps that all succeed, and so is each one that is revived
from a document. -/
theorem buildable_iff_fits :
    (∀ s (i left : Insertion) e, perform s i = .error e left → left = i) ∧
    (∀ name steps, (runSteps perform steps (.into name)).Fits ∧
      ∃ kept, kept.Sublist steps ∧ performAll Insertion.step kept (.into name) =
        .ok (runSteps perform steps (.into name))) ∧
    (∀ i : Insertion, (∃ steps, performAll Insertion.step steps (.into i.name) = .ok i) ↔ i.Fits) ∧
    ∀ d j i, (Registry.builtin d).revive j = .ok (.statement (.insertion i)) →
      ∃ steps, performAll Insertion.step steps (.into i.name) = .ok i := by
  have hinto (name : String) : (Insertion.into name).Fits := ⟨fun _ => nofun, fun _ => nofun⟩
  refine ⟨steady, fun name steps => ⟨?_, exists_performAll_eq_runSteps steady steps _⟩,
    fun i => ⟨?_, fun h => ⟨i.steps, performAll_steps h⟩⟩, fun d j i h => ⟨i.steps, ?_⟩⟩
  · exact guarded.runSteps steady steps (hinto name)
  · rintro ⟨steps, h⟩
    exact guarded.of_performAll h (hinto i.name)
  · have hcanonical : (Node.statement (.insertion i)).Canonical d :=
      (Registry.settled_revive h).canonical
    exact performAll_steps (checkArity_eq_ok.mp hcanonical.here.1)

/-- Steps of which some fail: a row with too few values, and columns and a query that do not fit the
rows which are there. What they build can be built without failures and revived from a document. A
row without values is not inserted into one column. -/
theorem buildable_iff_fits_student :
    let built := runSteps perform [
      .columns ["id", "name"], .row [.ofNatural 1], .row [.ofNatural 1, .ofString "Mary"],
      .columns ["id"], .query ⟨false, [.ofExpr (.ofColumn "id")], [], none, none, [], none⟩,
      .schema "school"] (.into "student")
    let i : Insertion :=
      ⟨some "school", "student", ["id", "name"], .rows [[.ofNatural 1, .ofString "Mary"]]⟩
    built = i ∧ built.Fits ∧
      perform (.columns ["id"]) built = .error (.arityMismatch 1 2) built ∧
      (Registry.builtin .mySQL).revive (Node.statement (.insertion i)).document =
        .ok (.statement (.insertion i)) ∧
      (∃ steps, performAll Insertion.step steps (.into "student") = .ok i) ∧
      ¬∃ steps, performAll Insertion.step steps (.into "student") =
        .ok ⟨none, "student", ["id"], .rows [[]]⟩ := by
  intro built i
  obtain ⟨hfailed, hrun, hbuildable, hrevived⟩ := buildable_iff_fits
  have hcanonical : (Node.statement (.insertion i)).Canonical .mySQL := by
    have hset : Node.expr .unknown ∉ i.source.parts := by
      simp [i, InsertionSource.parts, Expr.ofNatural, Expr.ofString]
    refine Node.throughout_of_parts ⟨rfl, hset⟩ ?_
    exact Node.forall_mem_pair.mpr
      ⟨Node.throughout_of_no_parts trivial rfl, Node.throughout_of_no_parts trivial rfl⟩
  have hdocument := hcanonical.returns nofun
  have hrefused : ∃ left, perform (.columns ["id"]) built = .error (.arityMismatch 1 2) left :=
    ⟨_, rfl⟩
  obtain ⟨left, hleft⟩ := hrefused
  rw [hfailed _ _ _ _ hleft] at hleft
  refine ⟨rfl, (hrun _ _).1, hleft, hdocument, hrevived _ _ _ hdocument, ?_⟩
  intro hbuilt
  have hfits := (hbuildable ⟨none, "student", ["id"], .rows [[]]⟩).mp hbuilt
  exact absurd (hfits.1 (List.cons_ne_nil _ _) [] (List.mem_singleton_self _)) nofun

end Insertion

end SqlTree
