import SqlTree.Proofs.Sql.Layout

/-!
# What comes after a name

After a name or a part of a node comes the end of the layout, or a text that begins with a space, a
comma or a parenthesis; after the owner of a name also a point. Whatever the name is, it ends there.

## Main definitions

* `Layout.Delimits`: whatever comes after a name or a part of a layout shows where it ends.
* `Layout.Follows`, `Layout.Closed`: layouts that can stand after a name, and layouts after which
  anything can stand.

## Main results

* `Node.delimits_layout`: the layout of a node that keeps its rules delimits its names and parts.
-/

namespace SqlTree

open Layout

/-- The characters that come after the text of a part. -/
def stops : List Char := [' ', ',', '(', ')']

/-- Whether a text begins with one of some characters. -/
def beginsWith (chars : List Char) (text : String) : Bool :=
  text.toList.head?.any fun c => c ∈ chars

theorem beginsWith_append {chars : List Char} {s : String} (h : beginsWith chars s = true)
    (t : String) : beginsWith chars (s ++ t) = true := by
  rw [beginsWith, String.toList_append]
  rw [beginsWith] at h
  cases hs : s.toList with
  | nil => simp [hs] at h
  | cons c rest => simpa [hs] using h

theorem beginsWith_mono {chars : List Char} {s : String} (c : Char)
    (h : beginsWith chars s = true) : beginsWith (c :: chars) s = true := by
  rw [beginsWith] at h ⊢
  cases hs : s.toList with
  | nil => simp [hs] at h
  | cons d rest => simp_all

namespace Layout

/-- The layout is empty or begins with a text that begins with one of some characters. -/
def StopsAt (chars : List Char) : Layout → Prop
  | [] => True
  | .inl (.text s) :: _ => beginsWith chars s = true
  | _ => False

/-- What comes after a name or a part of the layout shows where it ends. -/
def Delimits : Layout → Prop
  | [] => True
  | .inl (.text _) :: rest => Delimits rest
  | .inl (.identifier _) :: rest => StopsAt ('.' :: stops) rest ∧ Delimits rest
  | _ :: rest => StopsAt stops rest ∧ Delimits rest

variable {chars : List Char} {l m : Layout}

theorem StopsAt.append (hl : l.StopsAt chars) (hm : m.StopsAt chars) : (l ++ m).StopsAt chars := by
  match l, hl with
  | [], _ => exact hm
  | .inl (.text _) :: _, hl => exact hl

theorem StopsAt.mono (c : Char) (h : l.StopsAt chars) : l.StopsAt (c :: chars) := by
  match l, h with
  | [], _ => trivial
  | .inl (.text _) :: _, h => exact beginsWith_mono c h

/-- A layout that can stand after a name. -/
structure Follows (l : Layout) : Prop where
  stopsAt : l.StopsAt stops
  delimits : l.Delimits

theorem Delimits.append (hl : l.Delimits) (hm : m.Follows) : (l ++ m).Delimits := by
  induction l with
  | nil => exact hm.delimits
  | cons c rest ih =>
    match c, hl with
    | .inl (.text _), hl => exact ih hl
    | .inl (.identifier _), hl => exact ⟨hl.1.append (hm.stopsAt.mono _), ih hl.2⟩
    | .inl (.word _), hl => exact ⟨hl.1.append hm.stopsAt, ih hl.2⟩
    | .inr _, hl => exact ⟨hl.1.append hm.stopsAt, ih hl.2⟩

theorem Follows.append (hl : l.Follows) (hm : m.Follows) : (l ++ m).Follows :=
  ⟨hl.stopsAt.append hm.stopsAt, hl.delimits.append hm⟩

theorem delimits_fixed {s : String} : (fixed s).Delimits := trivial

theorem delimits_identifier (s : String) : (identifier s).Delimits := ⟨trivial, trivial⟩

theorem delimits_word (s : String) : (word s).Delimits := ⟨trivial, trivial⟩

theorem delimits_part (n : Node) : (part n).Delimits := ⟨trivial, trivial⟩

theorem Delimits.after_fixed {s : String} (h : m.Delimits) : (fixed s ++ m).Delimits := h

theorem Delimits.follows {s : String} (h : m.Delimits) (hs : beginsWith stops s = true) :
    (fixed s ++ m).Follows :=
  ⟨hs, h⟩

theorem follows_nil : Follows [] := ⟨trivial, trivial⟩

theorem follows_fixed {s : String} (hs : beginsWith stops s = true) : (fixed s).Follows :=
  ⟨hs, trivial⟩

theorem delimits_owned (owner : Option String) (name : String) : (owned owner name).Delimits := by
  cases owner with
  | none => exact delimits_identifier name
  | some owner =>
    have hdot : beginsWith ('.' :: stops) "." = true := by decide
    exact ⟨hdot, delimits_identifier name⟩

theorem Delimits.enclosed (h : l.Delimits) (opening : String) :
    (enclosed opening l).Delimits :=
  h.append (follows_fixed (by decide))

theorem Delimits.follows_enclosed (h : l.Delimits) {opening : String}
    (hs : beginsWith stops opening = true) : (Layout.enclosed opening l).Follows :=
  ⟨hs, h.enclosed opening⟩

theorem delimits_separated {separator : String} (hs : beginsWith stops separator = true)
    {ls : List Layout} (h : ∀ l ∈ ls, l.Delimits) : (separated separator ls).Delimits := by
  induction ls with
  | nil => trivial
  | cons l rest ih =>
    obtain ⟨hl, hrest⟩ := List.forall_mem_cons.mp h
    cases rest with
    | nil => exact hl
    | cons l' rest => exact hl.append ((ih hrest).follows hs)

theorem delimits_separated_map {α : Type} {separator : String}
    (hs : beginsWith stops separator = true) {items : List α} {f : α → Layout}
    (h : ∀ a, (f a).Delimits) : (separated separator (items.map f)).Delimits :=
  delimits_separated hs (List.forall_mem_map.mpr fun a _ => h a)

theorem follows_listed_map {α : Type} {lead : String} (hs : beginsWith stops lead = true)
    {items : List α} {f : α → Layout} (h : ∀ a, (f a).Delimits) :
    (listed lead (items.map f)).Follows := by
  cases items with
  | nil => exact follows_nil
  | cons a rest =>
    have hitems : (separated ", " ((a :: rest).map f)).Delimits :=
      delimits_separated_map (by decide) h
    exact hitems.follows hs

theorem follows_optional_map {α : Type} {lead : String} (hs : beginsWith stops lead = true)
    {o : Option α} {f : α → Layout} (h : ∀ a, (f a).Delimits) :
    (optional lead (o.map f)).Follows := by
  cases o with
  | none => exact follows_nil
  | some a => exact (h a).follows hs

/-- A layout that ends with a text, so that anything can stand after it. -/
def Closed (l : Layout) : Prop := ∀ m : Layout, m.Delimits → (l ++ m).Delimits

theorem Delimits.closed (h : l.Delimits) {s : String} (hs : beginsWith stops s = true) :
    (l ++ fixed s).Closed := by
  intro m hm
  rw [List.append_assoc]
  exact h.append (hm.follows hs)

theorem Closed.after_fixed (h : l.Closed) (s : String) : (fixed s ++ l).Closed := h

theorem closed_elim {α : Type} {o : Option α} {f : α → Layout} (h : ∀ a, (f a).Closed) :
    Closed (o.elim [] f) := by
  cases o with
  | none => exact fun m hm => hm
  | some a => exact h a

theorem closed_flatMap {α : Type} {items : List α} {f : α → Layout} (h : ∀ a, (f a).Closed) :
    Closed (items.flatMap f) := by
  intro m hm
  induction items with
  | nil => exact hm
  | cons a rest ih =>
    rw [List.flatMap_cons, List.append_assoc]
    exact h a _ ih

end Layout

/-! ### Layouts of nodes -/

theorem Query.delimits_layout (q : Query) : q.layout.Delimits := by
  have hcolumns : (if q.columns.isEmpty = true then fixed "*"
      else separated ", " (q.columns.map fun c => part (.resultColumn c))).Delimits := by
    split
    · exact delimits_fixed
    · exact delimits_separated_map (by decide) fun c => delimits_part _
  refine Delimits.after_fixed (hcolumns.append ?_)
  refine (follows_listed_map (by decide) fun s => delimits_part _).append ?_
  refine (follows_optional_map (by decide) fun e => delimits_part _).append ?_
  refine (follows_optional_map (by decide) fun g => delimits_part _).append ?_
  refine (follows_listed_map (by decide) fun o => delimits_part _).append ?_
  exact follows_optional_map (by decide) fun l => delimits_part _

theorem delimits_exprParts {separator : String} (hs : beginsWith stops separator = true)
    (es : List Expr) : (separated separator (exprParts es)).Delimits :=
  delimits_separated_map hs fun _ => delimits_part _

/-- A text after a space, negated or not. -/
theorem beginsWith_negation (negated : Bool) (s : String) :
    beginsWith stops (" " ++ negation negated ++ s) = true :=
  beginsWith_append (beginsWith_append (by decide) _) _

theorem Expr.delimits_layout (e : Expr) : e.layout.Delimits := by
  cases e with
  | unknown => exact delimits_fixed
  | value v => exact delimits_fixed
  | column table name => exact delimits_owned table name
  | userVariable name => exact delimits_word name
  | binary operator left right negated =>
    refine (delimits_part _).append ((delimits_part _).follows ?_)
    split
    · exact beginsWith_append (by decide) _
    · exact beginsWith_append (beginsWith_append (beginsWith_append (by decide) _) _) _
  | between left start stop negated =>
    refine (delimits_part _).append (Delimits.follows ?_ (beginsWith_negation negated _))
    exact (delimits_part _).append ((delimits_part _).follows (by decide))
  | oneOf left right negated =>
    exact (delimits_part _).append ((delimits_part _).follows (beginsWith_negation negated _))
  | nullTest left negated =>
    exact (delimits_part _).append
      (follows_fixed (beginsWith_append (beginsWith_append (by decide) _) _))
  | existence q negated =>
    exact Delimits.after_fixed ((delimits_part _).append (follows_fixed (by decide)))
  | caseOf subject arms otherwise =>
    have hpart (e : Expr) : Closed (part (.expr e) ++ fixed " ") :=
      (delimits_part _).closed (by decide)
    have harm (arm : CaseArm) : Closed (fixed "WHEN " ++ (part (.expr arm.condition) ++
        (fixed " THEN " ++ (part (.expr arm.result) ++ fixed " ")))) :=
      fun m hm => (delimits_part (.expr arm.condition)).append
        ((hpart arm.result m hm).follows (by decide))
    have hotherwise : Closed (otherwise.elim [] fun e => fixed "ELSE " ++ (part (.expr e) ++
        fixed " ")) :=
      closed_elim fun e => (hpart e).after_fixed _
    exact Delimits.after_fixed (closed_elim hpart _ (closed_flatMap harm _
      (hotherwise _ delimits_fixed)))
  | function name parameters distinct =>
    have hparameters : (separated ", " (exprParts parameters)).Delimits :=
      delimits_exprParts (by decide) parameters
    exact (delimits_word name).append
      ((hparameters.append (follows_fixed (by decide))).follows (beginsWith_append (by decide) _))
  | math operator operands =>
    have hspace : beginsWith stops (" " ++ operator ++ " ") = true :=
      beginsWith_append (beginsWith_append (by decide) _) _
    exact (delimits_exprParts hspace operands).enclosed _
  | group operator items =>
    have hspace : beginsWith stops (" " ++ operator.text ++ " ") = true :=
      beginsWith_append (beginsWith_append (by decide) _) _
    exact (delimits_exprParts hspace items).enclosed _
  | query q => exact q.delimits_layout.enclosed _

theorem Table.delimits_layout (t : Table) : t.layout.Delimits := by
  cases t with
  | schema t =>
    obtain ⟨schema, table, function, label⟩ := t
    have hlabel : (optional " " (label.map identifier)).Follows :=
      follows_optional_map (by decide) delimits_identifier
    cases function with
    | none => exact (delimits_owned schema table).append hlabel
    | some function =>
      have henclosed : (enclosed "(" (owned schema table)).Follows :=
        (delimits_owned schema table).follows_enclosed (by decide)
      exact ((delimits_word function).append henclosed).append hlabel
  | query q label =>
    refine Delimits.after_fixed ((delimits_part _).append ?_)
    exact (delimits_identifier label).follows (by decide)
  | remote config columns label => exact (delimits_identifier label).after_fixed

theorem JoinClause.delimits_layout (j : JoinClause) : j.layout.Delimits := by
  refine Delimits.after_fixed ((delimits_part _).append ?_)
  split
  · exact follows_nil
  · exact (delimits_part _).follows (by decide)
  · exact Delimits.follows ((delimits_part _).append (follows_fixed (by decide))) (by decide)

theorem PrimaryKey.delimits_layout (k : PrimaryKey) : k.layout.Delimits := by
  have hcolumns : (separated ", " (k.columns.map identifier)).Delimits :=
    delimits_separated_map (by decide) delimits_identifier
  rw [PrimaryKey.layout]
  split
  · next name _ =>
    exact Delimits.after_fixed ((delimits_identifier name).append
      (hcolumns.follows_enclosed (by decide)))
  · exact hcolumns.enclosed _

theorem ColumnDef.delimits_layout (c : ColumnDef) : c.layout.Delimits := by
  refine (delimits_identifier c.name).append (follows_fixed ?_)
  exact beginsWith_append (beginsWith_append (beginsWith_append (beginsWith_append
    (beginsWith_append (beginsWith_append (by decide) _) _) _) _) _) _

/-- With at most one primary key no two of them stand side by side. -/
theorem CreateTable.delimits_layout {t : CreateTable} (h : t.KeepsRules) : t.layout.Delimits := by
  obtain ⟨schema, name, ifNotExists, columns, constraints, query⟩ := t
  have hquery : (optional " AS " (query.map fun q => part q.node)).Follows :=
    follows_optional_map (by decide) fun q => delimits_part _
  have hone : constraints.length ≤ 1 := by
    have := h.2.2.onePrimaryKey
    simp only [CreateTable.primaryKeyCount] at this
    omega
  have hdefinitions : (separated ", " (columns.map fun c => part (.columnDef c)) ++
      constraints.flatMap fun k =>
        (if columns.isEmpty = true then [] else fixed ", ") ++ part (.primaryKey k)).Delimits := by
    have hcolumns : (separated ", " (columns.map fun c => part (.columnDef c))).Delimits :=
      delimits_separated_map (by decide) fun c => delimits_part _
    match constraints, hone with
    | [], _ => exact hcolumns.append follows_nil
    | [k], _ =>
      cases columns with
      | nil => exact delimits_part _
      | cons c rest => exact hcolumns.append ((delimits_part _).follows (by decide))
  refine Delimits.after_fixed ((delimits_owned schema name).append (Follows.append ?_ hquery))
  split
  · exact follows_nil
  · exact hdefinitions.follows_enclosed (by decide)

theorem InsertionSource.follows_layout (s : InsertionSource) : s.layout.Follows := by
  cases s with
  | rows rs =>
    refine Delimits.follows (delimits_separated_map (by decide) fun row => ?_) (by decide)
    exact (delimits_exprParts (by decide) row).enclosed _
  | query q => exact (delimits_part _).follows (by decide)

theorem Statement.delimits_layout {s : Statement} (h : s.KeepsRules) : s.layout.Delimits := by
  have hcondition (condition : Option Expr) :
      (optional " WHERE " (condition.map fun e => part (.expr e))).Follows :=
    follows_optional_map (by decide) fun e => delimits_part _
  cases s with
  | query q => exact q.delimits_layout
  | insertion i =>
    refine Delimits.after_fixed ((delimits_owned _ _).append (Follows.append ?_
      i.source.follows_layout))
    split
    · exact follows_nil
    · exact (delimits_separated_map (by decide) delimits_identifier).follows_enclosed (by decide)
  | update u =>
    refine Delimits.after_fixed ((delimits_owned _ _).append (Delimits.follows ?_ (by decide)))
    refine (delimits_separated_map (by decide) fun a => ?_).append (hcondition u.condition)
    exact (delimits_identifier _).append ((delimits_part _).follows (by decide))
  | deletion d => exact Delimits.after_fixed ((delimits_owned _ _).append (hcondition d.condition))
  | createTable t => exact CreateTable.delimits_layout h
  | createSchema s => exact (delimits_identifier s.name).after_fixed
  | dropTable t => exact (delimits_owned t.schema t.name).after_fixed
  | dropSchema s => exact (delimits_identifier s.name).after_fixed

/-- What is written after a name or a part of a node that keeps its rules shows where it ends. -/
theorem Node.delimits_layout {n : Node} (h : n.KeepsRules) : n.layout.Delimits := by
  cases n with
  | expr e => exact e.delimits_layout
  | table t => exact t.delimits_layout
  | fromTable f =>
    refine delimits_separated (by decide) (List.forall_mem_cons.mpr ⟨delimits_part _, ?_⟩)
    exact List.forall_mem_map.mpr fun j _ => delimits_part _
  | joinClause j => exact j.delimits_layout
  | columnDef c => exact c.delimits_layout
  | primaryKey k => exact k.delimits_layout
  | resultColumn c =>
    exact (delimits_part _).append (follows_optional_map (by decide) delimits_identifier)
  | orderBy o => exact (delimits_part _).append (follows_fixed (beginsWith_append (by decide) _))
  | groupBy g =>
    refine Delimits.after_fixed ((delimits_exprParts (by decide) g.expressions).append ?_)
    exact follows_optional_map (by decide) fun e => delimits_part _
  | limit l => exact delimits_fixed
  | statement s => exact Statement.delimits_layout h

end SqlTree
