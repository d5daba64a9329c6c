import SqlTree.Proofs.Document.Children

/-!
# Short forms in the documents of queries

Among the sources of a query a bare table stands for a table without joins, and among its result
columns a bare expression stands for a column without a name. This file compares the document of a
query with the one in which such an item is written out.

A bare table always means the same as the table written out. So does a bare expression, with the
exception of queries. Where an expression is asked for, a query counts as one, and this is how it is
found inside a result column. But by itself it is revived as a statement, which does not stand for a
result column, so that the document with the bare query is refused.

## Main definitions

* `Json.asColumn`, `Json.asSource`: a document as a result column and as a source of rows.

## Main results

* `Registry.revive_bare_table`: a bare table means the same as the table written out.
* `Registry.revive_bare_column`: so does a bare expression, except for queries, which are refused.
-/

namespace SqlTree

/-- The document of an expression as that of a result column without a name. -/
def Json.asColumn (j : Json) : Json := tagged .resultColumn [field "expression" j]

/-- The document of a table as that of a table without joins. -/
def Json.asSource (j : Json) : Json := tagged .fromTable [field "table" j]

/-! ### Errors that come first -/

namespace Error

variable {α β : Type} {e : Error} {x y : Except Error α}

/-- The outcome `x` is this error, unless it is an earlier one that `y` is as well. -/
def Refuses (e : Error) (x y : Except Error α) : Prop :=
  x = .error e ∨ ∃ e', x = .error e' ∧ y = .error e'

theorem Refuses.bind (h : e.Refuses x y) (f g : α → Except Error β) :
    e.Refuses (x >>= f) (y >>= g) := by
  obtain rfl | ⟨e', rfl, rfl⟩ := h
  · exact .inl rfl
  · exact .inr ⟨e', rfl, rfl⟩

theorem Refuses.map (h : e.Refuses x y) (f : α → β) : e.Refuses (f <$> x) (f <$> y) :=
  h.bind (fun a => .ok (f a)) fun a => .ok (f a)

/-- What is done before gives the earlier errors. -/
theorem Refuses.after {f g : α → Except Error β} (h : ∀ a, e.Refuses (f a) (g a))
    (x : Except Error α) : e.Refuses (x >>= f) (x >>= g) := by
  cases x with
  | ok a => exact h a
  | error e' => exact .inr ⟨e', rfl, rfl⟩

end Error

namespace Fields

/-! ### Lists with one item replaced -/

section Convert

variable {α β : Type} {one : α → Except Error β} {before after : List α} {a b : α}

theorem convert_map_eq {γ : Type} (one : β → Except Error γ) (make : α → β) (items : List α) :
    convert one (items.map make) = convert (fun a => one (make a)) items := by
  induction items with
  | nil => rfl
  | cons a items ih => rw [List.map_cons, convert, convert, ih]

theorem convert_append (one : α → Except Error β) (before after : List α) :
    convert one (before ++ after) = do
      let first ← convert one before
      let last ← convert one after
      return first ++ last := by
  induction before with
  | nil =>
    rw [List.nil_append, convert, ok_bind]
    cases convert one after <;> rfl
  | cons a before ih =>
    rw [List.cons_append, convert, convert, ih]
    cases one a with
    | error e => rfl
    | ok b =>
      cases convert one before with
      | error e => rfl
      | ok first => cases convert one after <;> rfl

/-- An item may be replaced by one that is converted to the same. -/
theorem convert_replace (h : one a = one b) :
    convert one (before ++ a :: after) = convert one (before ++ b :: after) := by
  rw [convert_append, convert_append, convert, convert, h]

/-- A list is refused for an item that is refused, unless it is for an earlier one, which refuses
the list with any other item as well. -/
theorem convert_refused {e : Error} (h : one a = .error e) (b : α) :
    e.Refuses (convert one (before ++ a :: after)) (convert one (before ++ b :: after)) := by
  rw [convert_append, convert_append, convert, h]
  exact .after (fun _ => .inl rfl) _

end Convert

/-! ### Queries from their fields -/

variable {f f' : Fields} {members : List (String × Json)} {key : String}

/-- A list in a document is converted item by item. -/
theorem nodes_of_array {α : Type} (kind : Kind) (r : Registry) {items : List Json}
    (h : Keyed.find? key members = some (.array items)) (as : Node → Except Error α) :
    nodes ⟨kind, r.memberReadings members⟩ key as = convert (fun j => r.revive j >>= as) items := by
  have hreads : Reads ⟨kind, r.memberReadings members⟩ r members := rfl
  have hget : get? ⟨kind, r.memberReadings members⟩ key = some (r.reading (.array items)) := by
    rw [hreads.get?, given?, h]
    rfl
  have hlist : list ⟨kind, r.memberReadings members⟩ key = .ok (items.map r.reading) := by
    rw [list, hget, ← r.readings_eq_map]
    rfl
  rw [nodes, hlist, ok_bind, convert_map_eq]
  rfl

/-- Fields of the same kind agree apart from the one under a key. -/
structure AgreeBut (f f' : Fields) (key : String) : Prop where
  kind : f'.kind = f.kind
  get? : ∀ other, other ≠ key → f'.get? other = f.get? other

theorem agreeBut_insert (kind : Kind) (r : Registry) (members : List (String × Json)) (key : String)
    (value : Json) :
    AgreeBut ⟨kind, r.memberReadings members⟩
      ⟨kind, r.memberReadings (Keyed.insert key value members)⟩ key where
  kind := rfl
  get? other hother := by
    rw [Fields.get?, Fields.get?, r.find?_memberReadings, r.find?_memberReadings,
      Keyed.find?_insert_of_ne hother.symm value members]

theorem AgreeBut.nodes {α : Type} (h : f.AgreeBut f' key) {other : String} (hother : other ≠ key)
    (as : Node → Except Error α) : f'.nodes other as = f.nodes other as := by
  rw [Fields.nodes, Fields.nodes, list_congr h.kind (h.get? other hother)]

theorem AgreeBut.flag (h : f.AgreeBut f' key) {other : String} (hother : other ≠ key) :
    f'.flag other = f.flag other :=
  flag_congr h.kind (h.get? other hother)

theorem AgreeBut.node? {α : Type} (h : f.AgreeBut f' key) {other : String} (hother : other ≠ key)
    (as : Node → Except Error α) : f'.node? other as = f.node? other as := by
  rw [Fields.node?, Fields.node?, h.get? other hother]

theorem AgreeBut.text? (h : f.AgreeBut f' key) {other : String} (hother : other ≠ key) :
    f'.text? other = f.text? other :=
  text?_congr h.kind (h.get? other hother)

theorem AgreeBut.text (h : f.AgreeBut f' key) {other : String} (hother : other ≠ key) :
    f'.text other = f.text other :=
  text_congr h.kind (h.get? other hother)

theorem AgreeBut.strings (h : f.AgreeBut f' key) {other : String} (hother : other ≠ key) :
    f'.strings other = f.strings other :=
  strings_congr h.kind (h.get? other hother)

/-- Queries with the same columns and sources are the same if all other fields are. -/
theorem AgreeBut.query (h : f.AgreeBut f' key) (hkey : key = "select" ∨ key = "from")
    (hcolumns : f'.nodes "select" Node.toResultColumn = f.nodes "select" Node.toResultColumn)
    (hsources : f'.nodes "from" Node.toFromTable = f.nodes "from" Node.toFromTable) :
    f'.query = f.query := by
  have hother : ∀ other ∈ ["distinct", "where", "groupBy", "order", "limit"], other ≠ key := by
    obtain rfl | rfl := hkey <;> decide
  simp only [List.forall_mem_cons] at hother
  obtain ⟨hdistinct, hwhere, hgroupBy, horder, hlimit, -⟩ := hother
  rw [Fields.query, Fields.query, hcolumns, hsources, expr?, expr?, h.flag hdistinct,
    h.node? hwhere, h.node? hgroupBy, h.nodes horder, h.node? hlimit]

/-- A query is refused for its columns, unless it is for a field that is read before them. -/
theorem AgreeBut.query_refused {e : Error} (h : f.AgreeBut f' "select")
    (hcolumns : e.Refuses (f.nodes "select" Node.toResultColumn)
      (f'.nodes "select" Node.toResultColumn)) : e.Refuses f.query f'.query := by
  rw [Fields.query, Fields.query, h.flag (by decide)]
  exact .after (fun _ => hcolumns.bind _ _) _

end Fields

/-! ### Documents -/

namespace Registry

variable {d : Dialect} {members : List (String × Json)} {before after : List Json} {j : Json}

/-- Only the fields of a query are put together to one. -/
theorem kind_of_query {f : Fields} {q : Query}
    (h : f.construct d = .ok (.statement (.query q))) : f.kind = .query := by
  rw [Fields.construct] at h
  split at h <;> first | assumption | simp [map_eq_ok] at h

/-- The document of a query is revived to a statement wherever it stands for an expression. -/
theorem revive_of_query {e : Expr} (h : (builtin d).reviveExpr j = .ok e)
    (hj : j.member? "classname" = some (.string Kind.query.tag)) :
    ∃ q, (builtin d).revive j = .ok (.statement (.query q)) := by
  obtain ⟨n, hn, -⟩ := bind_eq_ok.mp h
  obtain ⟨members, rfl, -⟩ := exists_members hn
  obtain ⟨q, -, rfl⟩ := map_eq_ok.mp ((revive_of_tag hj).symm.trans hn)
  exact ⟨q, hn⟩

/-- Any other document is revived to the expression for which it stands. -/
theorem revive_of_not_query {e : Expr} (h : (builtin d).reviveExpr j = .ok e)
    (hj : j.member? "classname" ≠ some (.string Kind.query.tag)) :
    (builtin d).revive j = .ok (.expr e) := by
  obtain ⟨n, hn, he⟩ := bind_eq_ok.mp h
  obtain rfl | ⟨q, rfl, -⟩ := Node.toExpr_eq_ok.mp he
  · exact hn
  · obtain ⟨members, rfl, hconstruct⟩ := exists_members hn
    obtain ⟨kind, ⟨tag, hfind, htag⟩, hconstruct⟩ := exists_tagged_kind hconstruct
    obtain rfl : kind = .query := kind_of_query hconstruct
    rw [find?_memberReadings, Option.map_eq_some_iff] at hfind
    obtain ⟨text, htext, rfl⟩ := hfind
    rw [source_reading] at htag
    exact absurd (htag ▸ htext) hj

/-- An expression is kept as a result column without a name. -/
theorem revive_asColumn {e : Expr} (h : (builtin d).reviveExpr j = .ok e) :
    (builtin d).revive j.asColumn = .ok (.resultColumn (.ofExpr e)) := by
  obtain ⟨n, hn, he⟩ := bind_eq_ok.mp h
  obtain ⟨inner, rfl, -⟩ := exists_members hn
  refine revive_tagged (by simp) fun f hk hf => ?_
  have hget : f.get? "expression" = some ((builtin d).reading (.object inner)) :=
    hf.get?_present (by simp) rfl
  have hslot : f.slot "expression" = .ok e := by
    rw [Fields.slot, Fields.expr?, Fields.node?, hget]
    have hout : ((builtin d).reading (.object inner)).outcome = .ok n := hn
    simp only [hout, ok_bind, he]
    rfl
  have hlabel : f.text? "$as" = .ok none := hf.text? (by simp)
  simp only [Fields.construct, hk, Fields.resultColumn, hslot, hlabel]
  rfl

/-- A table is kept as a table without joins. -/
theorem revive_asSource {t : Table} (h : (builtin d).reviveTable j = .ok t) :
    (builtin d).revive j.asSource = .ok (.fromTable (.ofTable t)) := by
  have htable : ((builtin d).reading j).table = .ok t := h
  obtain ⟨n, hn, -⟩ := bind_eq_ok.mp h
  obtain ⟨inner, rfl, -⟩ := exists_members hn
  refine revive_tagged (by simp) fun f hk hf => ?_
  have hget : f.get "table" = .ok ((builtin d).reading (.object inner)) := hf.get (by simp) rfl
  have hjoins : f.nodes "joinClauses" Node.toJoinClause = .ok [] :=
    hf.nodes JoinClause.document (by simp) (by simp)
  simp only [Fields.construct, hk, Fields.fromTable, hget, hjoins, htable, ok_bind]
  rfl

/-! ### Queries with short forms -/

theorem revive_query (h : Keyed.find? "classname" members = some (.string Kind.query.tag)) :
    (builtin d).revive (.object members) =
      (fun q => .statement (.query q)) <$>
        Fields.query ⟨.query, (builtin d).memberReadings members⟩ :=
  revive_of_tag h

/-- In the document of a query, a bare table means the same as the table written out. -/
theorem revive_bare_table {t : Table}
    (hquery : Keyed.find? "classname" members = some (.string Kind.query.tag))
    (hsources : Keyed.find? "from" members = some (.array (before ++ j :: after)))
    (hj : (builtin d).reviveTable j = .ok t) :
    (builtin d).revive (.object members) =
      (builtin d).revive (.object
        (Keyed.insert "from" (.array (before ++ j.asSource :: after)) members)) := by
  have hagree := Fields.agreeBut_insert .query (builtin d) members "from"
    (.array (before ++ j.asSource :: after))
  rw [revive_query hquery, revive_query (by rwa [Keyed.find?_insert_of_ne (by decide)])]
  refine congrArg _ (hagree.query (.inr rfl) (hagree.nodes (by decide) _) ?_).symm
  rw [Fields.nodes_of_array _ _ hsources, Fields.nodes_of_array _ _ (Keyed.find?_insert_self ..)]
  refine Fields.convert_replace ?_
  obtain ⟨n, hn, ht⟩ := bind_eq_ok.mp hj
  rw [revive_asSource hj, hn, Node.toTable_eq_ok.mp ht]
  rfl

/-- In the document of a query, a bare expression means the same as a result column with it and
without a name, whether both are accepted or refused. Queries are the exception, though they are
expressions inside a result column: a document with a bare query is refused since this is no result
column, unless it is refused for an earlier field or column, as the other document is then. -/
theorem revive_bare_column {e : Expr}
    (hquery : Keyed.find? "classname" members = some (.string Kind.query.tag))
    (hcolumns : Keyed.find? "select" members = some (.array (before ++ j :: after)))
    (hj : (builtin d).reviveExpr j = .ok e) :
    let short := (builtin d).revive (.object members)
    let long := (builtin d).revive (.object
      (Keyed.insert "select" (.array (before ++ j.asColumn :: after)) members))
    (j.member? "classname" ≠ some (.string Kind.query.tag) → short = long) ∧
    (j.member? "classname" = some (.string Kind.query.tag) →
      short = .error (.unexpectedKind "ResultColumn" Kind.query.tag) ∨
        ∃ e', short = .error e' ∧ long = .error e') := by
  have hagree := Fields.agreeBut_insert .query (builtin d) members "select"
    (.array (before ++ j.asColumn :: after))
  have hlong := Fields.nodes_of_array .query (builtin d)
    (Keyed.find?_insert_self "select" (.array (before ++ j.asColumn :: after)) members)
    Node.toResultColumn
  have hshort := Fields.nodes_of_array .query (builtin d) hcolumns Node.toResultColumn
  rw [revive_query hquery, revive_query (by rwa [Keyed.find?_insert_of_ne (by decide)])]
  refine ⟨fun hexpr => ?_, fun hsub => ?_⟩
  · refine congrArg _ (hagree.query (.inl rfl) ?_ (hagree.nodes (by decide) _)).symm
    rw [hshort, hlong]
    refine Fields.convert_replace ?_
    rw [revive_asColumn hj, revive_of_not_query hj hexpr]
    rfl
  · obtain ⟨q, hq⟩ := revive_of_query hj hsub
    refine (hagree.query_refused ?_).map _
    rw [hshort, hlong]
    refine Fields.convert_refused ?_ _
    rw [hq]
    rfl

/-- A number and a query of this number as the only column of a query, bare and written out. -/
theorem revive_bare_column_subquery :
    let one : Json := (Expr.ofNatural 1).document
    let members (column : Json) : List (String × Json) :=
      [("classname", .string "Query"), ("select", .array [column])]
    let inner : Json := .object (members one)
    let q (e : Expr) : Query := ⟨false, [.ofExpr e], [], none, none, [], none⟩
    let sub : Expr := .query (q (.ofNatural 1))
    (builtin .mySQL).reviveExpr one = .ok (.ofNatural 1) ∧
      (builtin .mySQL).revive (.object (members one)) =
        (builtin .mySQL).revive (.object (members one.asColumn)) ∧
      (builtin .mySQL).reviveExpr inner = .ok sub ∧
      (builtin .mySQL).revive (.object (members inner)) =
        .error (.unexpectedKind "ResultColumn" "Query") ∧
      (builtin .mySQL).revive (.object (members inner.asColumn)) =
        .ok (.statement (.query (q sub))) := by
  intro one members inner q sub
  have hone : (builtin .mySQL).reviveExpr one = .ok (.ofNatural 1) := by cbv
  have hinner : (builtin .mySQL).reviveExpr inner = .ok sub := by cbv
  have hlong : (builtin .mySQL).revive (.object (members inner.asColumn)) =
      .ok (.statement (.query (q sub))) := by cbv
  have hinsert (column column' : Json) :
      Keyed.insert "select" (.array [column']) (members column) = members column' := by
    cbv
  have hcolumns (column : Json) :
      Keyed.find? "select" (members column) = some (.array ([] ++ column :: [])) := rfl
  obtain ⟨hexpr, -⟩ := revive_bare_column rfl (hcolumns one) hone
  obtain ⟨-, hquery⟩ := revive_bare_column rfl (hcolumns inner) hinner
  rw [List.nil_append, hinsert] at hexpr hquery
  refine ⟨hone, hexpr (by cbv; decide), hinner, (hquery (by cbv)).resolve_right ?_, hlong⟩
  rintro ⟨e, -, he⟩
  rw [hlong] at he
  cases he

end Registry

end SqlTree
