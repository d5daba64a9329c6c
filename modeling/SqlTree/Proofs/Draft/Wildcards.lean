import SqlTree.Proofs.Document.ShortForms
import SqlTree.Proofs.Draft.Insertions

/-!
# Insertions from queries of all columns

A query without result columns gives all columns of its sources, and their number is not known. So
an insertion takes such a query for any columns. The wildcard as the only result column gives all
columns as well, but it is counted as one column. So an insertion that names several columns refuses
the query with it, whichever way the insertion is built, revived or checked, and any other insertion
takes the one query where it takes the other.

## Main definitions

* `Query.withWildcard`: a query with the wildcard as its only result column.
* `Insertion.checkOneValue`: what is said of one value for the columns that are named.
* `Insertion.takeWildcard`: an insertion with the wildcard in place of a query of all columns.

## Main results

* `Insertion.wildcard_counted_as_one`: the wildcard is counted as one column wherever the numbers of
  values are compared.
-/

namespace SqlTree

/-- The query with the wildcard, of one table or of all, as its only result column. -/
def Query.withWildcard (table : Option String) (q : Query) : Query :=
  { q with columns := [.ofExpr (.column table "*")] }

/-- What is said of one value for the columns that are named, which may also be none. -/
def Insertion.checkOneValue (columns : List String) : Except Error Unit :=
  if columns.length ≤ 1 then .ok () else .error (.arityMismatch columns.length 1)

/-- The insertion with the wildcard as the only result column of its query `q`, unless it names
several columns. -/
def Insertion.takeWildcard (table : Option String) (q : Query) (i : Insertion) :
    Except Error Insertion := do
  checkOneValue i.columns
  return { i with source := .query (q.withWildcard table) }

variable {q : Query}

namespace Insertion

/-- A query of all columns fits any columns. -/
theorem checkArity_of_no_columns (hq : q.columns = []) (i : Insertion) :
    ({ i with source := .query q } : Insertion).checkArity = .ok () :=
  checkArity_eq_ok.mpr fun _ hne => absurd hq hne

/-- The wildcard fits where one column is named, or none. -/
theorem checkArity_withWildcard (table : Option String) (q : Query) (i : Insertion) :
    ({ i with source := .query (q.withWildcard table) } : Insertion).checkArity =
      checkOneValue i.columns := by
  obtain ⟨schema, name, columns, source⟩ := i
  match columns with
  | [] => rfl
  | [_] => rfl
  | _ :: _ :: _ => rfl

end Insertion

/-! ### Documents -/

namespace Fields

variable {f f' : Fields} {members : List (String × Json)} {d : Dialect} {j : Json}

/-- The rows of an insertion come from the query that is given. -/
theorem insertionSource_of_query (kind : Kind) (hj : Keyed.find? "query" members = some j)
    (hq : (Registry.builtin d).reviveQuery j = .ok q) :
    insertionSource ⟨kind, (Registry.builtin d).memberReadings members⟩ = .ok (.query q) := by
  obtain ⟨n, hn, -⟩ := bind_eq_ok.mp hq
  obtain ⟨inner, rfl, -⟩ := Registry.exists_members hn
  have hf : Reads ⟨kind, (Registry.builtin d).memberReadings members⟩ (.builtin d) members := rfl
  have hget : Fields.get? ⟨kind, (Registry.builtin d).memberReadings members⟩ "query" =
      some ((Registry.builtin d).reading (.object inner)) := by
    rw [hf.get?, given?, hj]
    rfl
  have hquery : ((Registry.builtin d).reading (.object inner)).query = .ok q := hq
  rw [insertionSource, hget]
  simp only [hquery]
  rfl

theorem source_of_insertion {i : Insertion} (hf : f.insertionSource = .ok (.query q))
    (hi : f.insertion = .ok i) : i.source = .query q := by
  rw [Fields.insertion, hf, ok_bind] at hi
  simp only [bind_eq_ok] at hi
  obtain ⟨schema, -, name, -, columns, -, -, -, hi⟩ := hi
  obtain rfl := Except.ok.inj hi
  rfl

/-- If the fields give the wildcard instead of a query of all columns, then it is taken in its place
by what is put together, and the other fields fail as before. -/
theorem AgreeBut.insertion (h : f.AgreeBut f' "query") {table : Option String}
    (hq : q.columns = []) (hf : f.insertionSource = .ok (.query q))
    (hf' : f'.insertionSource = .ok (.query (q.withWildcard table))) :
    f'.insertion = f.insertion >>= Insertion.takeWildcard table q := by
  rw [Fields.insertion, Fields.insertion, hf, hf', ok_bind, ok_bind, h.text? (by decide),
    h.text (by decide), h.strings (by decide)]
  simp only [bind_assoc]
  refine bind_congr fun schema => bind_congr fun name => bind_congr fun columns => ?_
  have hplain := Insertion.checkArity_of_no_columns hq ⟨schema, name, columns, .rows []⟩
  have hwild := Insertion.checkArity_withWildcard table q ⟨schema, name, columns, .rows []⟩
  simp only [hplain, hwild, ok_bind]
  rfl

end Fields

namespace Registry

variable {d : Dialect} {j : Json}

/-- If a query is revived from some document, then so is the query with the wildcard in place of its
result columns, namely from its own document. -/
theorem reviveQuery_withWildcard (h : (builtin d).reviveQuery j = .ok q) (table : Option String) :
    (builtin d).reviveQuery (q.withWildcard table).document = .ok (q.withWildcard table) := by
  obtain ⟨n, hn, hq⟩ := bind_eq_ok.mp h
  have hcanonical : q.node.Canonical d := (settled_revive hn).toQuery hq
  have hwild : (Node.resultColumn (.ofExpr (.column table "*"))).Canonical d :=
    Node.throughout_of_parts trivial
      (List.forall_mem_singleton.mpr (Node.throughout_of_no_parts trivial rfl))
  have hsettled : (q.withWildcard table).node.Settled d := by
    refine ⟨Node.throughout_of_parts hcanonical.here ?_, rfl⟩
    have hparts : ∀ p ∈ q.parts, p.Canonical d := fun p hp => hcanonical.part hp
    simp only [Query.parts, List.forall_mem_append] at hparts
    obtain ⟨⟨⟨⟨⟨-, hsources⟩, hcondition⟩, hgroupBy⟩, horder⟩, hlimit⟩ := hparts
    simp only [Query.node, Node.parts, Statement.parts, Query.parts, List.forall_mem_append]
    exact ⟨⟨⟨⟨⟨List.forall_mem_singleton.mpr hwild, hsources⟩, hcondition⟩, hgroupBy⟩, horder⟩,
      hlimit⟩
  exact bind_eq_ok.mpr ⟨_, hsettled.revive_document, rfl⟩

variable {members : List (String × Json)}

theorem revive_insertion (h : Keyed.find? "classname" members = some (.string Kind.insertion.tag)) :
    (builtin d).revive (.object members) =
      (fun i => .statement (.insertion i)) <$>
        Fields.insertion ⟨.insertion, (builtin d).memberReadings members⟩ :=
  revive_of_tag h

/-- If the query of a document gives all columns, the document may give the wildcard instead, unless
it names several columns. -/
theorem revive_withWildcard {j' : Json} {table : Option String} (hq : q.columns = [])
    (hclass : Keyed.find? "classname" members = some (.string Kind.insertion.tag))
    (hquery : Keyed.find? "query" members = some j) (hj : (builtin d).reviveQuery j = .ok q)
    (hj' : (builtin d).reviveQuery j' = .ok (q.withWildcard table)) :
    let plain := (builtin d).revive (.object members)
    let wild := (builtin d).revive (.object (Keyed.insert "query" j' members))
    (∀ e, plain = .error e → wild = .error e) ∧
    ∀ n, plain = .ok n → ∃ i : Insertion, n = .statement (.insertion i) ∧ i.source = .query q ∧
      wild = (fun i => .statement (.insertion i)) <$> i.takeWildcard table q := by
  have hagree := Fields.agreeBut_insert .insertion (builtin d) members "query" j'
  have hsource := Fields.insertionSource_of_query .insertion hquery hj
  have hwild := hagree.insertion hq hsource
    (Fields.insertionSource_of_query .insertion (Keyed.find?_insert_self ..) hj')
  rw [revive_insertion hclass, revive_insertion (by rwa [Keyed.find?_insert_of_ne (by decide)]),
    hwild]
  cases hf : Fields.insertion ⟨.insertion, (builtin d).memberReadings members⟩ with
  | error e => exact ⟨fun _ he => he, fun _ hn => by cases hn⟩
  | ok i =>
    refine ⟨fun _ he => (by cases he), fun n hn => ?_⟩
    exact ⟨i, (Except.ok.inj hn).symm, Fields.source_of_insertion hsource hf, rfl⟩

end Registry

/-! ### All ways to an insertion -/

namespace Insertion

/-- A query of all columns is taken for any columns of an insertion, whether by the check, by either
step that builds the insertion or by revival. With the wildcard as its only result column the same
query is counted as one column. So it is taken just if no more than one column is named, and
otherwise it is refused as having too few values. Nothing else changes with the wildcard, not even
the error that a document has for another field. -/
theorem wildcard_counted_as_one (table : Option String) (hq : q.columns = []) :
    (∀ i : Insertion,
      ({ i with source := .query q } : Insertion).checkArity = .ok () ∧
      ({ i with source := .query (q.withWildcard table) } : Insertion).checkArity =
        checkOneValue i.columns) ∧
    (∀ i : Insertion,
      i.step (.query q) = .ok { i with source := .query q } ∧
      i.step (.query (q.withWildcard table)) = i.takeWildcard table q) ∧
    (∀ (i : Insertion) (columns : List String),
      ({ i with source := .query q } : Insertion).step (.columns columns) =
        .ok { i with columns, source := .query q } ∧
      ({ i with source := .query (q.withWildcard table) } : Insertion).step (.columns columns) =
        ({ i with columns } : Insertion).takeWildcard table q) ∧
    ∀ (d : Dialect) (j : Json), (Registry.builtin d).reviveQuery j = .ok q →
      (∃ j', (Registry.builtin d).reviveQuery j' = .ok (q.withWildcard table)) ∧
      ∀ j', (Registry.builtin d).reviveQuery j' = .ok (q.withWildcard table) → ∀ members,
        Keyed.find? "classname" members = some (.string Kind.insertion.tag) →
        Keyed.find? "query" members = some j →
        let plain := (Registry.builtin d).revive (.object members)
        let wild := (Registry.builtin d).revive (.object (Keyed.insert "query" j' members))
        (∀ e, plain = .error e → wild = .error e) ∧
        ∀ n, plain = .ok n → ∃ i : Insertion, n = .statement (.insertion i) ∧
          i.source = .query q ∧
          wild = (fun i => .statement (.insertion i)) <$> i.takeWildcard table q := by
  have hplain := checkArity_of_no_columns hq
  have hwild := checkArity_withWildcard table q
  refine ⟨fun i => ⟨hplain i, hwild i⟩, fun i => ⟨?_, ?_⟩, fun i columns => ⟨?_, ?_⟩,
    fun d j hj => ⟨⟨_, Registry.reviveQuery_withWildcard hj table⟩, ?_⟩⟩
  · rw [step_query, hplain]
    rfl
  · rw [step_query, hwild]
    rfl
  · rw [step_columns, hplain { i with columns }]
    rfl
  · rw [step_columns, hwild { i with columns }]
    rfl
  · exact fun j' hj' members hclass hquery =>
      Registry.revive_withWildcard hq hclass hquery hj hj'

/-- Applicants become students: all columns of them are taken for the two that are named, but their
wildcard is not, in whatever order columns and query are given. -/
theorem wildcard_counted_as_one_applicant :
    let q : Query := ⟨false, [], [.ofTable (.named "applicant")], none, none, [], none⟩
    let w := q.withWildcard (some "applicant")
    let named := ["id", "name"]
    let members (query : Json) : List (String × Json) := [
      ("classname", .string "Insert"),
      ("columns", .array (named.map .string)),
      ("name", .string "student"),
      ("query", query)]
    let i : Insertion := ⟨none, "student", named, .query q⟩
    q.columns = [] ∧ i.checkArity = .ok () ∧
      ({ i with source := .query w } : Insertion).checkArity = .error (.arityMismatch 2 1) ∧
      i.step (.query w) = .error (.arityMismatch 2 1) ∧
      ({ i with columns := ["id"], source := .query w } : Insertion).step (.columns named) =
        .error (.arityMismatch 2 1) ∧
      (Registry.builtin .mySQL).revive (.object (members q.document)) =
        .ok (.statement (.insertion i)) ∧
      (Registry.builtin .mySQL).reviveQuery w.document = .ok w ∧
      (Registry.builtin .mySQL).revive (.object (members w.document)) =
        .error (.arityMismatch 2 1) := by
  intro q w named members i
  obtain ⟨hcheck, hquery, hcolumns, hrevive⟩ :=
    wildcard_counted_as_one (some "applicant") (q := q) rfl
  have hq : (Registry.builtin .mySQL).reviveQuery q.document = .ok q := by cbv
  have hw : (Registry.builtin .mySQL).reviveQuery w.document = .ok w := by cbv
  have hplain : (Registry.builtin .mySQL).revive (.object (members q.document)) =
      .ok (.statement (.insertion i)) := by cbv
  have hinsert (query query' : Json) :
      Keyed.insert "query" query' (members query) = members query' := by cbv
  obtain ⟨-, hwild⟩ := (hrevive .mySQL q.document hq).2 w.document hw (members q.document) rfl rfl
  obtain ⟨i', hi, -, hwild⟩ := hwild _ hplain
  obtain rfl : i = i' := Statement.insertion.inj (Node.statement.inj hi)
  rw [hinsert] at hwild
  exact ⟨rfl, (hcheck i).1, (hcheck i).2, (hquery i).2,
    (hcolumns { i with columns := ["id"] } named).2, hplain, hw, hwild⟩

end Insertion

end SqlTree
