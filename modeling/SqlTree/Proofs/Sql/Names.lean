import SqlTree.Proofs.Sql.Delimiters
import SqlTree.Proofs.Sql.Identifiers

/-!
# Names in the text of a node

The text of a finished node is made of fixed texts, identifiers and words, and the identifiers and
words are the names of the nodes that are written in it. Since what comes after a name never goes on
with it, an identifier is read back from the text whatever characters it is made of, while the name
of a variable or of a function is read back only if it is a word. Names that a node must have are
not empty; those that may be left out can be empty, and then an empty pair of back-ticks is written.

## Main definitions

* `Node.Writes`: a node stands somewhere in another and is written there.
* `Node.pieces`: the pieces of the text of a node.
* `Piece.Confined`: a name that is confined to one token.

## Main results

* `Node.written_pieces`: the text of a finished node is that of its pieces.
* `Node.names_confined_iff`: when all names in the text of a finished node are confined.
-/

namespace SqlTree

open Layout

/-! ### The pieces of a text -/

/-- A node stands somewhere in another and is written there. -/
inductive Node.Writes : Node → Node → Prop
  | self (n : Node) : Writes n n
  | part {n p m : Node} (hp : p ∈ n.writtenParts) (hm : p.Writes m) : Writes n m

theorem Node.writtenParts_subset (n : Node) : n.writtenParts ⊆ n.parts := by
  unfold Node.writtenParts
  split
  · exact List.nil_subset _
  · exact List.Subset.refl _

theorem Node.part_mem_layout {n p : Node} : .inr p ∈ n.layout ↔ p ∈ n.writtenParts := by
  rw [n.mem_layout (by simp)]
  simp [Node.contents]

theorem Node.name_mem_layout {n : Node} {name : String} :
    .inl (.identifier name) ∈ n.layout ↔ name ∈ n.requiredNames ∨ name ∈ n.optionalNames := by
  rw [n.mem_layout (by simp)]
  simp [Node.contents]

theorem Node.word_mem_layout {n : Node} {name : String} :
    .inl (.word name) ∈ n.layout ↔ name ∈ n.words := by
  rw [n.mem_layout (by simp)]
  simp [Node.contents]

theorem Node.sizeOf_lt_of_mem_layout {n p : Node} (h : .inr p ∈ n.layout) : sizeOf p < sizeOf n :=
  sizeOf_lt_of_mem_parts (n.writtenParts_subset (part_mem_layout.mp h))

/-- The pieces of the text of a node, its parts resolved into theirs. -/
def Node.pieces (n : Node) : List Piece :=
  n.layout.attach.flatMap fun
    | ⟨.inl piece, _⟩ => [piece]
    | ⟨.inr p, _⟩ => p.pieces
termination_by n
decreasing_by exact sizeOf_lt_of_mem_layout ‹_›

/-- The pieces of a layout. -/
def Layout.pieces : Layout → List Piece
  | [] => []
  | .inl piece :: rest => piece :: pieces rest
  | .inr p :: rest => p.pieces ++ pieces rest

theorem Node.pieces_eq (n : Node) : n.pieces = n.layout.pieces := by
  have h (l : Layout) : l.pieces = l.flatMap (Sum.elim (fun piece => [piece]) Node.pieces) := by
    induction l with
    | nil => rfl
    | cons c rest ih => cases c <;> simp [Layout.pieces, ih]
  rw [Node.pieces, List.flatMap_subtype (g := Sum.elim (fun piece => [piece]) Node.pieces),
    List.unattach_attach, h]
  rintro (piece | p) hp <;> rfl

/-- The text of pieces. -/
def written : List Piece → String
  | [] => ""
  | piece :: rest => piece.sql ++ written rest

theorem written_append (ps qs : List Piece) : written (ps ++ qs) = written ps ++ written qs := by
  induction ps with
  | nil => simp [written]
  | cons piece rest ih => simp [written, ih, String.append_assoc]

/-- What is said about the parts of a finished node by induction, for which the parts of its layout
are finished. -/
theorem Node.layout_induction {P : Node → Prop}
    (step : ∀ n : Node, n.KeepsRules → (∀ p, .inr p ∈ n.layout → P p) → P n) {n : Node}
    (h : n.check = .ok ()) : P n := by
  induction n using parts_induction with
  | step n ih =>
    obtain ⟨-, hrules, hparts⟩ := check_step.mp h
    refine step n hrules fun p hp => ?_
    have hmem : p ∈ n.parts := n.writtenParts_subset (part_mem_layout.mp hp)
    exact ih p hmem (hparts p hmem)

/-- The text of a finished node is that of its pieces. -/
theorem Node.written_pieces {n : Node} (h : n.check = .ok ()) : written n.pieces = n.sql := by
  refine layout_induction (P := fun n => written n.pieces = n.sql) (fun n hrules ih => ?_) h
  have hlayout (l : Layout) (hl : ∀ p, .inr p ∈ l → written p.pieces = p.sql) :
      written l.pieces = l.sql := by
    induction l with
    | nil => rfl
    | cons c rest ihl =>
      have hrest := ihl fun p hp => hl p (List.mem_cons_of_mem _ hp)
      cases c with
      | inl piece => rw [Layout.pieces, written, hrest, Layout.sql]
      | inr p => rw [Layout.pieces, written_append, hrest, hl p List.mem_cons_self, Layout.sql]
  rw [pieces_eq, hlayout _ ih, sql_layout hrules]

/-- What comes after a name does not go on with it. -/
def Piece.EndedBy : Piece → List Char → Prop
  | .text _, _ => True
  | .identifier _, rest => ∀ c ∈ rest.head?, c ∈ '.' :: stops
  | .word _, rest => ∀ c ∈ rest.head?, c ∈ stops

/-- Every name among the pieces is ended by the text after it. -/
def Delimited : List Piece → Prop
  | [] => True
  | piece :: rest => piece.EndedBy (written rest).toList ∧ Delimited rest

theorem Piece.EndedBy.append {piece : Piece} {s t : List Char} (hs : piece.EndedBy s)
    (ht : ∀ c ∈ t.head?, c ∈ stops) : piece.EndedBy (s ++ t) := by
  cases piece with
  | text => trivial
  | identifier name =>
    cases s with
    | nil => exact fun c hc => List.mem_cons_of_mem _ (ht c hc)
    | cons => exact hs
  | word name =>
    cases s with
    | nil => exact ht
    | cons => exact hs

theorem Delimited.append {ps qs : List Piece} (hps : Delimited ps) (hqs : Delimited qs)
    (h : ∀ c ∈ (written qs).toList.head?, c ∈ stops) : Delimited (ps ++ qs) := by
  induction ps with
  | nil => exact hqs
  | cons piece rest ih =>
    refine ⟨?_, ih hps.2⟩
    change piece.EndedBy (written (rest ++ qs)).toList
    rw [written_append, String.toList_append]
    exact hps.1.append h

/-- What is written for a layout that stops at some characters begins with one of them. -/
theorem Layout.StopsAt.head {chars : List Char} {l : Layout} (h : l.StopsAt chars) :
    ∀ c ∈ (written l.pieces).toList.head?, c ∈ chars := by
  match l, h with
  | [], _ => exact fun c hc => absurd hc nofun
  | .inl (.text s) :: rest, h =>
    intro c hc
    rw [Layout.pieces, written, String.toList_append] at hc
    have hbegins : beginsWith chars s = true := h
    rw [beginsWith] at hbegins
    cases hs : s.toList with
    | nil => simp [hs] at hbegins
    | cons d t =>
      simp_all [Piece.sql]

/-- Every name in the text of a finished node is ended by the text after it. -/
theorem Node.delimited_pieces {n : Node} (h : n.check = .ok ()) : Delimited n.pieces := by
  refine layout_induction (P := fun n => Delimited n.pieces) (fun n hrules ih => ?_) h
  have hlayout (l : Layout) (hd : l.Delimits) (hl : ∀ p, .inr p ∈ l → Delimited p.pieces) :
      Delimited l.pieces := by
    induction l with
    | nil => trivial
    | cons c rest ihl =>
      have hparts : ∀ p, .inr p ∈ rest → Delimited p.pieces :=
        fun p hp => hl p (List.mem_cons_of_mem _ hp)
      match c, hd with
      | .inl (.text s), hd => exact ⟨trivial, ihl hd hparts⟩
      | .inl (.identifier name), hd => exact ⟨hd.1.head, ihl hd.2 hparts⟩
      | .inl (.word name), hd => exact ⟨hd.1.head, ihl hd.2 hparts⟩
      | .inr p, hd => exact (hl p List.mem_cons_self).append (ihl hd.2 hparts) hd.1.head
  rw [pieces_eq]
  exact hlayout _ (delimits_layout hrules) ih

/-- A name among the pieces stands in the layout of a node that is written. -/
theorem Node.mem_pieces {n : Node} {piece : Piece} :
    piece ∈ n.pieces ↔ ∃ m, n.Writes m ∧ .inl piece ∈ m.layout := by
  have hlayout (l : Layout) : piece ∈ l.pieces ↔
      .inl piece ∈ l ∨ ∃ p, .inr p ∈ l ∧ piece ∈ p.pieces := by
    induction l with
    | nil => simp [Layout.pieces]
    | cons c rest ih =>
      cases c <;> simp [Layout.pieces, ih, or_and_right, exists_or, or_assoc, or_left_comm]
  induction n using parts_induction with
  | step n ih =>
    rw [pieces_eq, hlayout]
    constructor
    · rintro (hp | ⟨p, hp, hpiece⟩)
      · exact ⟨n, .self n, hp⟩
      · have hw : p ∈ n.writtenParts := part_mem_layout.mp hp
        obtain ⟨m, hm, hpiece⟩ := (ih p (n.writtenParts_subset hw)).mp hpiece
        exact ⟨m, .part hw hm, hpiece⟩
    · rintro ⟨m, hm, hpiece⟩
      cases hm with
      | self => exact .inl hpiece
      | part hp hm =>
        have hw := n.writtenParts_subset hp
        exact .inr ⟨_, part_mem_layout.mpr hp, (ih _ hw).mpr ⟨m, hm, hpiece⟩⟩

/-! ### Confined names -/

/-- The first and the last code point of every range of white space. -/
def spaceRanges : List (Nat × Nat) :=
  [(0x9, 0xD), (0x20, 0x20), (0x85, 0x85), (0xA0, 0xA0), (0x1680, 0x1680), (0x2000, 0x200A),
    (0x2028, 0x2029), (0x202F, 0x202F), (0x205F, 0x205F), (0x3000, 0x3000)]

/-- Whether a character ends a word: white space, quotes, parentheses, commas and semicolons. -/
def endsWord (c : Char) : Bool :=
  c ∈ ['\'', '"', '\x60', '(', ')', ',', ';'] ||
    spaceRanges.any fun (first, last) => first ≤ c.toNat && c.toNat ≤ last

/-- A text that can stand as a word: it is not empty and nothing in it ends it. -/
def IsWord (s : String) : Prop := s ≠ "" ∧ ∀ c ∈ s.toList, endsWord c = false

/-- A name that is confined to one token. -/
def Piece.Confined : Piece → Prop
  | .text _ => True
  | .identifier name => name ≠ ""
  | .word name => IsWord name

theorem Delimited.endedBy {before after : List Piece} {piece : Piece}
    (h : Delimited (before ++ piece :: after)) : piece.EndedBy (written after).toList := by
  induction before with
  | nil => exact h.1
  | cons _ rest ih => exact ih h.2

/-- Names that the check of a node asks not to be empty are not. -/
theorem Node.requiredNames_ne_empty {n : Node} (h : n.KeepsRules) :
    ∀ name ∈ n.requiredNames, name ≠ "" := by
  cases n with
  | expr e =>
    cases e with
    | column owner name => exact List.forall_mem_singleton.mpr h
    | _ => exact fun _ hname => absurd hname List.not_mem_nil
  | table t =>
    cases t with
    | schema t => exact List.forall_mem_singleton.mpr h.1
    | query q label => exact List.forall_mem_singleton.mpr h
    | remote config columns label => exact List.forall_mem_singleton.mpr h.2
  | columnDef c => exact List.forall_mem_singleton.mpr h.1
  | statement s =>
    cases s with
    | query q => exact fun _ hname => absurd hname List.not_mem_nil
    | insertion i => exact List.forall_mem_singleton.mpr h.1
    | update u => exact List.forall_mem_cons.mpr ⟨h.1, List.forall_mem_map.mpr h.2.2⟩
    | createTable t => exact List.forall_mem_singleton.mpr h.1
    | _ => exact List.forall_mem_singleton.mpr h
  | _ => exact fun _ hname => absurd hname List.not_mem_nil

/-- Whatever is written in a node stands in it. -/
theorem Node.Writes.occurs {n m : Node} (h : n.Writes m) : n.Occurs m := by
  induction h with
  | self n => exact .self n
  | @part n p m hp _ ih => exact .part (n.writtenParts_subset hp) ih

/-- The text of a finished node is made of pieces, and the identifiers and words among them are the
names of the nodes that are written in it. Every identifier is read back from its place in the text,
whatever characters it is made of, and a word exactly if nothing in it ends a word. So all names are
confined to one token if and only if no name that may be left out is empty and the names of
variables and functions can stand as words; the names that a check asks for are never empty. -/
theorem Node.names_confined_iff {n : Node} (h : n.check = .ok ()) :
    n.toSql = .ok (written n.pieces) ∧
    (∀ name, .identifier name ∈ n.pieces ↔
      ∃ m, n.Writes m ∧ (name ∈ m.requiredNames ∨ name ∈ m.optionalNames)) ∧
    (∀ name, .word name ∈ n.pieces ↔ ∃ m, n.Writes m ∧ name ∈ m.words) ∧
    (∀ before name after, n.pieces = before ++ .identifier name :: after →
      ∃ ticked, (quoted name ++ written after).toList = '\x60' :: ticked ∧
        readTicked ticked = (name.toList, (written after).toList)) ∧
    (∀ before name after, n.pieces = before ++ .word name :: after →
      ((name ++ written after).toList.takeWhile (!endsWord ·) = name.toList ↔
        ∀ c ∈ name.toList, endsWord c = false)) ∧
    ((∀ piece ∈ n.pieces, piece.Confined) ↔
      ∀ m, n.Writes m → (∀ name ∈ m.optionalNames, name ≠ "") ∧ ∀ name ∈ m.words, IsWord name) := by
  have hnames (name : String) : .identifier name ∈ n.pieces ↔
      ∃ m, n.Writes m ∧ (name ∈ m.requiredNames ∨ name ∈ m.optionalNames) := by
    simp only [mem_pieces, name_mem_layout]
  have hwords (name : String) : .word name ∈ n.pieces ↔ ∃ m, n.Writes m ∧ name ∈ m.words := by
    simp only [mem_pieces, word_mem_layout]
  refine ⟨?_, hnames, hwords, ?_, ?_, ?_⟩
  · rw [toSql_eq h, written_pieces h]
  · intro before name after hsplit
    have hended : Piece.EndedBy (.identifier name) (written after).toList :=
      (hsplit ▸ delimited_pieces h).endedBy
    rw [String.toList_append]
    refine readTicked_quoted name fun htick => ?_
    have hno : '\x60' ∉ '.' :: stops := by decide
    exact hno (hended _ htick)
  · intro before name after hsplit
    have hended : Piece.EndedBy (.word name) (written after).toList :=
      (hsplit ▸ delimited_pieces h).endedBy
    have hstops : ∀ c ∈ stops, endsWord c = true := List.all_eq_true.mp rfl
    rw [String.toList_append, takeWhile_append_eq_left fun c hc => by simp [hstops c (hended c hc)]]
    simp only [Bool.not_eq_true']
  · constructor
    · intro hconfined m hm
      refine ⟨fun name hname => ?_, fun name hname => ?_⟩
      · exact hconfined (.identifier name) ((hnames name).mpr ⟨m, hm, .inr hname⟩)
      · exact hconfined (.word name) ((hwords name).mpr ⟨m, hm, hname⟩)
    · intro hall piece hpiece
      cases piece with
      | text s => trivial
      | identifier name =>
        obtain ⟨m, hm, hname | hname⟩ := (hnames name).mp hpiece
        · have hrules := (check_step.mp (check_of_occurs h hm.occurs)).2.1
          exact requiredNames_ne_empty hrules name hname
        · exact (hall m hm).1 name hname
      | word name =>
        obtain ⟨m, hm, hname⟩ := (hwords name).mp hpiece
        exact (hall m hm).2 name hname

/-- The insertion of a variable `a b` into a column without a name is finished. Neither the name of
the column nor that of the variable is confined. -/
theorem Node.loose_names_of_insertion :
    let insertion := Node.statement (.insertion ⟨none, "pupil", [""], .rows [[.userVariable "a b"]]⟩)
    insertion.check = .ok () ∧ ¬∀ piece ∈ insertion.pieces, piece.Confined := by
  intro insertion
  have hcheck : insertion.check = .ok () := rfl
  obtain ⟨-, -, -, -, -, hiff⟩ := names_confined_iff hcheck
  refine ⟨hcheck, fun hconfined => ?_⟩
  have hempty : "" ∈ insertion.optionalNames := List.mem_singleton_self _
  exact (hiff.mp hconfined insertion (.self _)).1 "" hempty rfl

example : (Node.statement (.insertion ⟨none, "pupil", [""], .rows [[.userVariable "a b"]]⟩)).toSql =
    .ok "INSERT INTO `pupil` (``) VALUES (@a b)" := by
  rfl

end SqlTree
