import SqlTree.Proofs.Json.Numerals
import SqlTree.Proofs.Keyed

/-!
# Documents are read back

The compact text of a document is read up to its end, whatever follows, and gives a spelling whose
value is the document, as long as there is room for its depth. By induction on the document every
text is read back as far as arrays and objects nest at most 127 deep, and no deeper one is.

## Main definitions

* `Json.Sound`: the documents that there are, with ascending keys and valid numbers.
* `Json.ReadAs`: the text of a document is read as a spelling of it.

## Main results

* `Json.Sound.exists_readAs`: the text of every document is read as some spelling of it.
* `Json.read_text`: a document is read back from its text if it nests at most 127 deep, and not
  otherwise.
-/

namespace SqlTree

open Spelling

/-! ### Characters of texts -/

namespace Json

theorem hexUnit?_hexDigit : ∀ n < 32,
    hexUnit? '0' '0' (hexDigit (n / 16)) (hexDigit (n % 16)) = some n := by
  decide

/-- A letter after a backslash stands for a character, unless it announces a number. -/
theorem readGlyphs_escaped {e c : Char} {s : List Char} {gs : List Glyph} {r : List Char}
    (he : escaped? e = some c) (hu : e ≠ 'u') (h : readGlyphs s = some (gs, r)) :
    readGlyphs ('\\' :: e :: s) = some (.char c :: gs, r) := by
  rw [readGlyphs.eq_4 _ _ (by simp [hu]), he, h]

/-- A character is read back from its escape, by a letter, by its number or as it stands. -/
theorem exists_glyph (c : Char) : ∃ g,
    (∀ gs, Glyph.decode (g :: gs) = (Glyph.decode gs).map (c :: ·)) ∧
    ∀ {s gs r}, readGlyphs s = some (gs, r) → readGlyphs (escape c ++ s) = some (g :: gs, r) := by
  have letter : ∀ e, escaped? e = some c → e ≠ 'u' → ∃ g,
      (∀ gs, Glyph.decode (g :: gs) = (Glyph.decode gs).map (c :: ·)) ∧
      ∀ {s gs r}, readGlyphs s = some (gs, r) →
        readGlyphs (['\\', e] ++ s) = some (g :: gs, r) :=
    fun e he hu => ⟨.char c, fun _ => rfl, readGlyphs_escaped he hu⟩
  rw [escape]
  split
  · next h => exact letter '"' (by rw [h]; rfl) (by decide)
  split
  · next h => exact letter '\\' (by rw [h]; rfl) (by decide)
  split
  · next h => exact letter 'n' (by rw [h]; rfl) (by decide)
  split
  · next h => exact letter 't' (by rw [h]; rfl) (by decide)
  split
  · next h => exact letter 'r' (by rw [h]; rfl) (by decide)
  split
  · next h => exact letter 'b' (by rw [← c.ofNat_toNat, h]; rfl) (by decide)
  split
  · next h => exact letter 'f' (by rw [← c.ofNat_toNat, h]; rfl) (by decide)
  split
  · next h =>
    refine ⟨.unit c.toNat, fun gs => ?_, fun h' => ?_⟩
    · have hlow : c.toNat < 0xD800 ∨ 0xE000 ≤ c.toNat := by omega
      cases gs with
      | nil => simp [Glyph.decode, hlow, Char.ofNat_toNat]
      | cons g gs => cases g <;> simp [Glyph.decode, hlow, Char.ofNat_toNat]
    · simp [readGlyphs, hexUnit?_hexDigit _ h, h']
  · next hquote hslash _ _ _ _ _ h =>
    refine ⟨.char c, fun _ => rfl, fun {s gs r} h' => ?_⟩
    rw [List.singleton_append, readGlyphs.eq_5, if_neg h, h']
    · rfl
    all_goals simp_all

/-- A text between quotation marks is read back. -/
theorem exists_glyphs (cs : List Char) : ∃ gs, Glyph.decode gs = some cs ∧
    ∀ t, readGlyphs (cs.flatMap escape ++ '"' :: t) = some (gs, t) := by
  induction cs with
  | nil => exact ⟨[], rfl, fun t => by rw [List.flatMap_nil, List.nil_append, readGlyphs]⟩
  | cons c cs ih =>
    obtain ⟨gs, hdecode, hread⟩ := ih
    obtain ⟨g, hg, hgread⟩ := exists_glyph c
    refine ⟨g :: gs, by rw [hg, hdecode]; rfl, fun t => ?_⟩
    rw [List.flatMap_cons, List.append_assoc]
    exact hgread (hread t)

theorem toList_quote (s : String) : (quote s).toList = '"' :: (s.toList.flatMap escape ++ ['"']) :=
  String.toList_ofList

/-- A text with its quotation marks is read as a spelling that stands for it. -/
theorem exists_text (s : String) : ∃ gs, Glyph.text? gs = some s ∧
    ∀ t, readGlyphs (s.toList.flatMap escape ++ '"' :: t) = some (gs, t) := by
  obtain ⟨gs, hdecode, hread⟩ := exists_glyphs s.toList
  exact ⟨gs, by rw [Glyph.text?, hdecode, Option.map_some, String.ofList_toList], hread⟩

/-! ### Documents that there are -/

/-- A document in which the members of objects stand in ascending order and numbers are valid. -/
inductive Sound : Json → Prop
  | null : Sound .null
  | bool (b : Bool) : Sound (.bool b)
  | number {n : Number} (h : n.Valid) : Sound (.number n)
  | string (s : String) : Sound (.string s)
  | array {items : List Json} (h : ∀ i ∈ items, i.Sound) : Sound (.array items)
  | object {members : List (String × Json)} (hkeys : Keyed.Ascending members)
      (h : ∀ m ∈ members, m.2.Sound) : Sound (.object members)

/-! ### Values up to their end -/

/-- The text of a document begins with neither a blank nor a closing bracket, and it is read as a
spelling that has the document as its value if there is room for its depth. -/
structure ReadAs (j : Json) (spelling : Spelling) : Prop where
  head : ∃ c s, j.text.toList = c :: s ∧ isBlank c = false ∧ c ≠ ']'
  read : ∀ fuel t, 2 * j.text.toList.length ≤ fuel + 1 → Stops t →
    readValue (fuel + 1) (j.text.toList ++ t) = some (spelling, t)
  value : ∀ room, spelling.value? room = if j.depth ≤ room then some j else none

/-- The characters of the items of a list, separated by commas. -/
def itemsChars (item : Json) (rest : List Json) : List Char :=
  item.text.toList ++ (itemsText rest).toList

/-- The items of a list are read up to the closing bracket. -/
structure ItemsReadAs (item : Json) (rest : List Json) (spellings : List Spelling) : Prop where
  read : ∀ fuel t, 2 * (itemsChars item rest).length ≤ fuel →
    readItems (fuel + 1) (itemsChars item rest ++ ']' :: t) = some (spellings, t)
  value : ∀ room, values? room spellings =
    if depthItems (item :: rest) ≤ room then some (item :: rest) else none

/-- The characters of the members of an object, separated by commas. -/
def membersChars (member : String × Json) (rest : List (String × Json)) : List Char :=
  (quote member.1).toList ++ ':' :: (member.2.text.toList ++ (membersText rest).toList)

/-- The members of an object are read up to the closing brace. -/
structure MembersReadAs (member : String × Json) (rest : List (String × Json))
    (spellings : List (List Glyph × Spelling)) : Prop where
  read : ∀ fuel t, 2 * (membersChars member rest).length ≤ fuel →
    readMembers (fuel + 1) (membersChars member rest ++ '\x7d' :: t) = some (spellings, t)
  value : ∀ room, memberValues? room spellings =
    if depthMembers (member :: rest) ≤ room then some (member :: rest) else none

theorem skipBlanks_of_not_isBlank {c : Char} {s : List Char} (h : isBlank c = false) :
    skipBlanks (c :: s) = c :: s :=
  List.dropWhile_cons_of_neg (by simp [h])

theorem stops_cons {c : Char} {t : List Char} (h : c = ',' ∨ c = ']' ∨ c = '\x7d') :
    Stops (c :: t) := by
  rintro _ ⟨⟩
  rcases h with rfl | rfl | rfl <;> decide

theorem ReadAs.skipBlanks {j : Json} {spelling : Spelling} (h : ReadAs j spelling)
    (t : List Char) : skipBlanks (j.text.toList ++ t) = j.text.toList ++ t := by
  obtain ⟨c, s, hc, hblank, -⟩ := h.head
  rw [hc]
  exact skipBlanks_of_not_isBlank hblank

theorem ReadAs.length_pos {j : Json} {spelling : Spelling} (h : ReadAs j spelling) :
    0 < j.text.toList.length := by
  obtain ⟨c, s, hc, -, -⟩ := h.head
  rw [hc]
  exact Nat.succ_pos _

/-- Two parts have room if the deeper one has. -/
theorem bind_room {α β γ : Type} {a b room : Nat} {x : α} {y : β} (f : α → β → γ) :
    ((if a ≤ room then some x else none).bind fun x =>
      (if b ≤ room then some y else none).bind fun y => some (f x y)) =
      if max a b ≤ room then some (f x y) else none := by
  by_cases ha : a ≤ room
  · by_cases hb : b ≤ room
    · rw [if_pos ha, if_pos hb, if_pos (Nat.max_le.mpr ⟨ha, hb⟩)]
      rfl
    · rw [if_pos ha, if_neg hb, if_neg fun h => hb (Nat.max_le.mp h).2]
      rfl
  · rw [if_neg ha, if_neg fun h => ha (Nat.max_le.mp h).1]
    rfl

/-- What is nested once more needs room for one more. -/
theorem map_room {α β : Type} {depth room : Nat} {x : α} {read : Nat → Option α} (f : α → β)
    (h : ∀ room, read room = if depth ≤ room then some x else none) :
    (if room = 0 then none else (read (room - 1)).map f) =
      if depth + 1 ≤ room then some (f x) else none := by
  cases room with
  | zero => rfl
  | succ room =>
    rw [if_neg (Nat.succ_ne_zero room), Nat.add_sub_cancel, h]
    simp only [Nat.succ_le_succ_iff]
    split <;> rfl

/-! ### Scalars -/

theorem readAs_null : ReadAs .null .null where
  head := ⟨'n', _, rfl, rfl, by decide⟩
  read _ _ _ _ := rfl
  value room := by simp [value?, depth]

theorem readAs_bool (b : Bool) : ReadAs (.bool b) (.bool b) where
  head := by
    cases b with
    | false => exact ⟨'f', _, rfl, rfl, by decide⟩
    | true => exact ⟨'t', _, rfl, rfl, by decide⟩
  read fuel t _ _ := by cases b <;> rfl
  value room := by simp [value?, depth]

theorem readAs_number {n : Number} {numeral : Numeral} (h : n.SpelledBy numeral) :
    ReadAs (.number n) (.numeral numeral) := by
  have hall := n.isNumeral_text
  obtain ⟨hread, hnumber⟩ := h
  obtain ⟨-, happend⟩ := readsUpTo_numeral hread
  cases hs : n.text.toList with
  | nil =>
    rw [hs] at hread
    exact absurd hread nofun
  | cons c s =>
    rw [hs] at hall happend
    have hc := hall c List.mem_cons_self
    constructor
    · exact ⟨c, s, hs, Bool.eq_false_iff.mpr hc.not_isBlank, hc.ne_bracket⟩
    · intro fuel t _ ht
      rw [text, hs, List.cons_append, Number.readValue_of_isNumeral hc, ← List.cons_append,
        happend t ht]
      rfl
    · intro room
      simp [value?, depth, hnumber]

theorem readAs_string {s : String} {gs : List Glyph} (hvalue : Glyph.text? gs = some s)
    (hread : ∀ t, readGlyphs (s.toList.flatMap escape ++ '"' :: t) = some (gs, t)) :
    ReadAs (.string s) (.string gs) where
  head := ⟨'"', _, toList_quote s, rfl, by decide⟩
  read fuel t _ _ := by
    rw [text, toList_quote, List.cons_append, List.append_assoc, List.singleton_append, readValue,
      hread]
    rfl
  value room := by simp [value?, depth, hvalue]

/-! ### Lists -/

theorem readAs_nil : ReadAs (.array []) (.array []) where
  head := ⟨'[', _, rfl, rfl, by decide⟩
  read _ _ _ _ := rfl
  value room := by
    rw [value?, depth, depthItems, values?]
    cases room <;> rfl

theorem readAs_array {item : Json} {rest : List Json} {first : Spelling} {spellings : List Spelling}
    (hitem : ReadAs item first) (h : ItemsReadAs item rest spellings) :
    ReadAs (.array (item :: rest)) (.array spellings) := by
  have htext : (text (.array (item :: rest))).toList = '[' :: (itemsChars item rest ++ [']']) := by
    simp [text, itemsChars]
  constructor
  · exact ⟨'[', _, htext, rfl, by decide⟩
  · intro fuel t hfuel ht
    obtain ⟨c, s, hc, hblank, hclose⟩ := hitem.head
    have hchars : itemsChars item rest ++ ']' :: t =
        c :: (s ++ (itemsText rest).toList ++ ']' :: t) := by
      rw [itemsChars, hc]
      rfl
    rw [htext] at hfuel ⊢
    simp only [List.length_cons, List.length_append] at hfuel
    obtain ⟨fuel, rfl⟩ : ∃ f, fuel = f + 1 := ⟨fuel - 1, by omega⟩
    have hitems := h.read fuel t (by omega)
    rw [hchars] at hitems
    rw [List.cons_append, List.append_assoc, List.singleton_append, readValue, hchars,
      skipBlanks_of_not_isBlank hblank]
    split
    · next heq => exact absurd (List.cons.inj heq).1 hclose
    · rw [hitems]
      rfl
  · intro room
    rw [value?, depth]
    exact map_room Json.array h.value

theorem itemsReadAs_singleton {item : Json} {first : Spelling} (h : ReadAs item first) :
    ItemsReadAs item [] [first] := by
  have hchars : itemsChars item [] = item.text.toList := by simp [itemsChars, itemsText]
  constructor
  · intro fuel t hfuel
    rw [hchars] at hfuel ⊢
    have hlength := h.length_pos
    obtain ⟨fuel, rfl⟩ : ∃ f, fuel = f + 1 := ⟨fuel - 1, by omega⟩
    rw [readItems, h.read fuel _ hfuel (stops_cons (by simp))]
    rfl
  · intro room
    rw [values?, h.value, depthItems, depthItems, Nat.max_zero]
    split <;> rfl

theorem itemsReadAs_cons {item next : Json} {rest : List Json} {first second : Spelling}
    {spellings : List Spelling} (h : ReadAs item first) (hnext : ReadAs next second)
    (hrest : ItemsReadAs next rest spellings) :
    ItemsReadAs item (next :: rest) (first :: spellings) := by
  have hchars : itemsChars item (next :: rest) =
      item.text.toList ++ ',' :: itemsChars next rest := by
    simp [itemsChars, itemsText]
  constructor
  · intro fuel t hfuel
    rw [hchars] at hfuel ⊢
    simp only [List.length_cons, List.length_append] at hfuel
    obtain ⟨fuel, rfl⟩ : ∃ f, fuel = f + 1 := ⟨fuel - 1, by omega⟩
    have hskip : Spelling.skipBlanks (itemsChars next rest ++ ']' :: t) =
        itemsChars next rest ++ ']' :: t := by
      rw [itemsChars, List.append_assoc]
      exact hnext.skipBlanks _
    rw [List.append_assoc, List.cons_append, readItems,
      h.read fuel _ (by omega) (stops_cons (by simp))]
    simp only [Option.bind_eq_bind, Option.bind_some]
    rw [skipBlanks_of_not_isBlank rfl]
    simp only [hskip, hrest.read fuel t (by omega)]
    rfl
  · intro room
    rw [values?, h.value, hrest.value, depthItems.eq_2 item]
    exact bind_room List.cons

/-! ### Objects -/

theorem readKey_quote {key : String} {gs : List Glyph}
    (hread : ∀ t, readGlyphs (key.toList.flatMap escape ++ '"' :: t) = some (gs, t))
    (t : List Char) : readKey ((quote key).toList ++ ':' :: t) = some (gs, t) := by
  rw [toList_quote, List.cons_append, List.append_assoc, List.singleton_append, readKey, hread]
  rfl

theorem readAs_empty : ReadAs (.object []) (.object []) where
  head := ⟨'\x7b', _, rfl, rfl, by decide⟩
  read _ _ _ _ := rfl
  value room := by
    rw [value?, depth, depthMembers, memberValues?]
    cases room <;> rfl

theorem membersReadAs_singleton {member : String × Json} {gs : List Glyph} {first : Spelling}
    (hvalue : Glyph.text? gs = some member.1)
    (hkey : ∀ t, readGlyphs (member.1.toList.flatMap escape ++ '"' :: t) = some (gs, t))
    (h : ReadAs member.2 first) : MembersReadAs member [] [(gs, first)] := by
  have hchars :
      membersChars member [] = (quote member.1).toList ++ ':' :: member.2.text.toList := by
    simp [membersChars, membersText]
  constructor
  · intro fuel t hfuel
    rw [hchars] at hfuel ⊢
    simp only [List.length_cons, List.length_append] at hfuel
    obtain ⟨fuel, rfl⟩ : ∃ f, fuel = f + 1 := ⟨fuel - 1, by omega⟩
    rw [List.append_assoc, List.cons_append, readMembers, readKey_quote hkey]
    simp only [Option.bind_eq_bind, Option.bind_some]
    rw [h.skipBlanks, h.read fuel _ (by omega) (stops_cons (by simp))]
    rfl
  · intro room
    obtain ⟨key, value⟩ := member
    rw [memberValues?, hvalue, h.value, depthMembers, depthMembers, Nat.max_zero]
    split <;> rfl

theorem membersReadAs_cons {member next : String × Json} {rest : List (String × Json)}
    {gs : List Glyph} {first : Spelling} {spellings : List (List Glyph × Spelling)}
    (hvalue : Glyph.text? gs = some member.1)
    (hkey : ∀ t, readGlyphs (member.1.toList.flatMap escape ++ '"' :: t) = some (gs, t))
    (h : ReadAs member.2 first) (hrest : MembersReadAs next rest spellings) :
    MembersReadAs member (next :: rest) ((gs, first) :: spellings) := by
  have hchars : membersChars member (next :: rest) = (quote member.1).toList ++
      ':' :: (member.2.text.toList ++ ',' :: membersChars next rest) := by
    simp [membersChars, membersText]
  constructor
  · intro fuel t hfuel
    rw [hchars] at hfuel ⊢
    simp only [List.length_cons, List.length_append] at hfuel
    obtain ⟨fuel, rfl⟩ : ∃ f, fuel = f + 1 := ⟨fuel - 1, by omega⟩
    have hnext : skipBlanks (membersChars next rest ++ '\x7d' :: t) =
        membersChars next rest ++ '\x7d' :: t := by
      rw [membersChars, toList_quote]
      exact skipBlanks_of_not_isBlank rfl
    rw [List.append_assoc, List.cons_append, readMembers, readKey_quote hkey]
    simp only [Option.bind_eq_bind, Option.bind_some]
    rw [List.append_assoc, h.skipBlanks, List.cons_append,
      h.read fuel _ (by omega) (stops_cons (by simp))]
    simp only [Option.bind_some]
    rw [skipBlanks_of_not_isBlank rfl]
    simp only [hnext, hrest.read fuel t (by omega)]
    rfl
  · intro room
    obtain ⟨key, value⟩ := member
    rw [memberValues?, hvalue, h.value, hrest.value, depthMembers.eq_2]
    exact bind_room fun value rest => (key, value) :: rest

theorem readAs_object {member : String × Json} {rest : List (String × Json)}
    {spellings : List (List Glyph × Spelling)} (hkeys : Keyed.Ascending (member :: rest))
    (h : MembersReadAs member rest spellings) :
    ReadAs (.object (member :: rest)) (.object spellings) := by
  have htext : (text (.object (member :: rest))).toList =
      '\x7b' :: (membersChars member rest ++ ['\x7d']) := by
    simp [text, membersChars]
  constructor
  · exact ⟨'\x7b', _, htext, rfl, by decide⟩
  · intro fuel t hfuel ht
    have hskip : skipBlanks (membersChars member rest ++ '\x7d' :: t) =
        membersChars member rest ++ '\x7d' :: t := by
      rw [membersChars, toList_quote]
      exact skipBlanks_of_not_isBlank rfl
    rw [htext] at hfuel ⊢
    simp only [List.length_cons, List.length_append] at hfuel
    obtain ⟨fuel, rfl⟩ : ∃ f, fuel = f + 1 := ⟨fuel - 1, by omega⟩
    have hmembers := h.read fuel t (by omega)
    rw [List.cons_append, List.append_assoc, List.singleton_append, readValue, hskip]
    split
    · next heq =>
      rw [membersChars, toList_quote] at heq
      exact absurd (List.cons.inj heq).1 (by decide)
    · rw [hmembers]
      rfl
  · intro room
    rw [value?, depth, map_room ofMembers h.value, ofMembers, hkeys.ofList_eq]

/-! ### All documents -/

theorem exists_itemsReadAs {item : Json} {rest : List Json}
    (h : ∀ i ∈ item :: rest, ∃ spelling, i.ReadAs spelling) :
    ∃ first spellings, item.ReadAs first ∧ item.ItemsReadAs rest spellings := by
  obtain ⟨⟨first, hitem⟩, hrest⟩ := List.forall_mem_cons.mp h
  induction rest generalizing item first with
  | nil => exact ⟨first, _, hitem, itemsReadAs_singleton hitem⟩
  | cons next rest ih =>
    obtain ⟨⟨second, hnext⟩, hothers⟩ := List.forall_mem_cons.mp hrest
    obtain ⟨second, spellings, hnext, hspellings⟩ := ih hrest hothers second hnext
    exact ⟨first, _, hitem, itemsReadAs_cons hitem hnext hspellings⟩

theorem exists_membersReadAs {member : String × Json} {rest : List (String × Json)}
    (h : ∀ m ∈ member :: rest, ∃ spelling, m.2.ReadAs spelling) :
    ∃ spellings, MembersReadAs member rest spellings := by
  obtain ⟨⟨first, hmember⟩, hrest⟩ := List.forall_mem_cons.mp h
  obtain ⟨gs, hvalue, hread⟩ := exists_text member.1
  induction rest generalizing member first gs with
  | nil => exact ⟨_, membersReadAs_singleton hvalue hread hmember⟩
  | cons next rest ih =>
    obtain ⟨⟨second, hnext⟩, hothers⟩ := List.forall_mem_cons.mp hrest
    obtain ⟨gs', hvalue', hread'⟩ := exists_text next.1
    obtain ⟨spellings, hspellings⟩ := ih hrest hothers second hnext gs' hvalue' hread'
    exact ⟨_, membersReadAs_cons hvalue hread hmember hspellings⟩

/-- The text of every document is read as some spelling of it. -/
theorem Sound.exists_readAs {j : Json} (h : j.Sound) : ∃ spelling, j.ReadAs spelling := by
  induction h with
  | null => exact ⟨_, readAs_null⟩
  | bool b => exact ⟨_, readAs_bool b⟩
  | number h =>
    obtain ⟨numeral, hnumeral⟩ := h.exists_numeral
    exact ⟨_, readAs_number hnumeral⟩
  | string s =>
    obtain ⟨gs, hvalue, hread⟩ := exists_text s
    exact ⟨_, readAs_string hvalue hread⟩
  | @array items _ ih =>
    cases items with
    | nil => exact ⟨_, readAs_nil⟩
    | cons item rest =>
      obtain ⟨first, spellings, hitem, hitems⟩ := exists_itemsReadAs ih
      exact ⟨_, readAs_array hitem hitems⟩
  | @object members hkeys _ ih =>
    cases members with
    | nil => exact ⟨_, readAs_empty⟩
    | cons member rest =>
      obtain ⟨spellings, hmembers⟩ := exists_membersReadAs ih
      exact ⟨_, readAs_object hkeys hmembers⟩

/-- A document is read back from its text if arrays and objects nest at most 127 deep in it, and
otherwise it is not read. -/
theorem read_text {j : Json} (h : j.Sound) :
    Json.read j.text = if j.depth ≤ 127 then some j else none := by
  obtain ⟨spelling, hread⟩ := h.exists_readAs
  have hvalue := hread.read (2 * j.text.toList.length + 1) [] (by omega) stops_nil
  have hskip := hread.skipBlanks []
  rw [List.append_nil] at hvalue hskip
  rw [Json.read, Spelling.read]
  simp only [hskip, hvalue]
  exact hread.value 127

end Json

end SqlTree
