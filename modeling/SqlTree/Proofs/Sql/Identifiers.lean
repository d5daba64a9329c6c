import Mathlib.Data.List.Basic
import SqlTree.Quoted

/-!
# Reading identifiers and words

An identifier stands between back-ticks and a back-tick inside of it is doubled, so a reader who
takes a doubled back-tick for one that is meant, and a single one for the end, finds the identifier
again, whatever characters it is made of. Only a back-tick right after the identifier would mislead
this reader. A word is not set off, so it is read back only if nothing in it ends it.

Several identifiers stand with a comma and a space between them in a list, and with a point between
an owner and a name. Neither begins with a back-tick, so the reader finds the end of each identifier
there as well, and texts of different names are different.

## Main definitions

* `readTicked`: what stands before the closing back-tick, and the text after it.

## Main results

* `readTicked_quoted`: an identifier is read back from its text.
* `joined_quoted_inj`, `qualified_inj`: lists of names and qualified names are told by their texts.
* `identifiers_told_apart`: both together, for the separator of lists.
* `takeWhile_append_eq_left`: which words are read back.
-/

namespace SqlTree

/-- The characters up to the closing back-tick, of a text that follows an opening one, and the text
after it. A doubled back-tick stands for one. -/
def readTicked : List Char → List Char × List Char
  | [] => ([], [])
  | [c] => if c = '\x60' then ([], []) else ([c], [])
  | c :: d :: rest =>
    if c = '\x60' then
      if d = '\x60' then ('\x60' :: (readTicked rest).1, (readTicked rest).2) else ([], d :: rest)
    else (c :: (readTicked (d :: rest)).1, (readTicked (d :: rest)).2)

theorem readTicked_ordinary {c : Char} (h : c ≠ '\x60') (text : List Char) :
    readTicked (c :: text) = (c :: (readTicked text).1, (readTicked text).2) := by
  cases text with
  | nil => simp only [readTicked, if_neg h]
  | cons d rest => rw [readTicked, if_neg h]

theorem readTicked_doubled (text : List Char) :
    readTicked ('\x60' :: '\x60' :: text) =
      ('\x60' :: (readTicked text).1, (readTicked text).2) := by
  rw [readTicked, if_pos rfl, if_pos rfl]

theorem readTicked_closing {text : List Char} (h : text.head? ≠ some '\x60') :
    readTicked ('\x60' :: text) = ([], text) := by
  cases text with
  | nil => rw [readTicked, if_pos rfl]
  | cons d rest =>
    have hd : d ≠ '\x60' := fun he => h (congrArg some he)
    rw [readTicked, if_pos rfl, if_neg hd]

/-- The characters of an identifier are read back, and reading stops behind its closing
back-tick. -/
theorem readTicked_doubleTicks (name : List Char) {text : List Char}
    (h : text.head? ≠ some '\x60') :
    readTicked (doubleTicks name ++ '\x60' :: text) = (name, text) := by
  induction name with
  | nil => exact readTicked_closing h
  | cons c name ih =>
    rw [doubleTicks]
    split
    · next hc =>
      rw [List.cons_append, List.cons_append, readTicked_doubled, ih, hc]
    · next hc => rw [List.cons_append, readTicked_ordinary hc, ih]

/-- An identifier is read back from its text, whatever text follows that does not begin with a
back-tick. -/
theorem readTicked_quoted (name : String) {text : List Char} (h : text.head? ≠ some '\x60') :
    ∃ ticked, (quoted name).toList ++ text = '\x60' :: ticked ∧
      readTicked ticked = (name.toList, text) := by
  refine ⟨doubleTicks name.toList ++ '\x60' :: text, ?_, readTicked_doubleTicks name.toList h⟩
  rw [quoted, String.toList_ofList, List.cons_append, List.append_assoc]
  rfl

/-- Reading takes nothing in addition to the text. -/
theorem length_readTicked (text : List Char) : (readTicked text).2.length ≤ text.length := by
  fun_induction readTicked text with
  | case1 => exact Nat.le_refl _
  | case2 => exact Nat.zero_le _
  | case3 => exact Nat.zero_le _
  | case4 rest ih =>
    simp only [List.length_cons]
    omega
  | case5 d rest hd => exact Nat.le_succ _
  | case6 c d rest hc ih => exact Nat.le_succ_of_le ih

/-! ### Several identifiers -/

/-- Two texts that begin with an identifier and do not go on with a back-tick are the same only if
the identifiers are, and what follows them. -/
theorem quoted_append_inj {name name' : String} {text text' : List Char}
    (h : text.head? ≠ some '\x60') (h' : text'.head? ≠ some '\x60') :
    (quoted name).toList ++ text = (quoted name').toList ++ text' ↔
      name = name' ∧ text = text' := by
  refine ⟨fun heq => ?_, fun ⟨hname, htext⟩ => hname ▸ htext ▸ rfl⟩
  obtain ⟨ticked, hticked, hread⟩ := readTicked_quoted name h
  obtain ⟨ticked', hticked', hread'⟩ := readTicked_quoted name' h'
  obtain rfl : ticked = ticked' :=
    (List.cons.inj (hticked.symm.trans (heq.trans hticked'))).2
  obtain ⟨hname, htext⟩ := Prod.mk.inj (hread.symm.trans hread')
  exact ⟨String.toList_inj.mp hname, htext⟩

/-- What stands after the first text of a list: nothing, or a separator and the other texts. -/
def following (separator : String) : List String → List Char
  | [] => []
  | text :: rest => separator.toList ++ (joined separator (text :: rest)).toList

theorem toList_joined_cons (separator text : String) (rest : List String) :
    (joined separator (text :: rest)).toList = text.toList ++ following separator rest := by
  cases rest with
  | nil => exact (List.append_nil _).symm
  | cons other rest =>
    rw [joined, String.toList_append, String.toList_append, List.append_assoc, following]
    exact List.cons_ne_nil other rest

theorem joined_quoted_cons_ne_nil (separator name : String) (names : List String) :
    joined separator ((name :: names).map quoted) ≠ joined separator [] := by
  rw [ne_eq, ← String.toList_inj, List.map_cons, toList_joined_cons, quoted, String.toList_ofList]
  exact List.cons_ne_nil _ _

section

variable {separator : String} (hne : separator.toList ≠ [])

include hne

/-- If the same stands after the first text in two lists, the other texts are joined to the same. -/
theorem joined_eq_of_following_eq {texts texts' : List String}
    (h : following separator texts = following separator texts') :
    joined separator texts = joined separator texts' := by
  have hcons (text : String) (rest : List String) : following separator (text :: rest) ≠ [] :=
    List.append_ne_nil_of_left_ne_nil hne _
  cases texts with
  | nil =>
    cases texts' with
    | nil => rfl
    | cons text' rest' => exact absurd h.symm (hcons text' rest')
  | cons text rest =>
    cases texts' with
    | nil => exact absurd h (hcons text rest)
    | cons text' rest' => exact String.toList_inj.mp (List.append_cancel_left h)

variable (htick : separator.toList.head? ≠ some '\x60')

include htick

theorem head?_following (texts : List String) :
    (following separator texts).head? ≠ some '\x60' := by
  cases texts with
  | nil => nofun
  | cons text rest => rwa [following, List.head?_append_of_ne_nil _ hne]

/-- Names are told from the text of their list if the separator is not empty and does not begin with
a back-tick. -/
theorem joined_quoted_inj {names names' : List String} :
    joined separator (names.map quoted) = joined separator (names'.map quoted) ↔
      names = names' := by
  refine ⟨fun h => ?_, fun h => h ▸ rfl⟩
  induction names generalizing names' with
  | nil =>
    cases names' with
    | nil => rfl
    | cons name' names' => exact absurd h.symm (joined_quoted_cons_ne_nil separator name' names')
  | cons name names ih =>
    cases names' with
    | nil => exact absurd h (joined_quoted_cons_ne_nil separator name names)
    | cons name' names' =>
      rw [List.map_cons, List.map_cons, ← String.toList_inj, toList_joined_cons,
        toList_joined_cons,
        quoted_append_inj (head?_following hne htick _) (head?_following hne htick _)] at h
      obtain ⟨rfl, hfollowing⟩ := h
      rw [ih (joined_eq_of_following_eq hne hfollowing)]

end

theorem qualified_eq_joined (owner : Option String) (name : String) :
    qualified owner name = joined "." ((owner.toList ++ [name]).map quoted) := by
  cases owner <;> rfl

/-- An owner and a name are told from their text, and so is whether there is an owner. -/
theorem qualified_inj {owner owner' : Option String} {name name' : String} :
    qualified owner name = qualified owner' name' ↔ owner = owner' ∧ name = name' := by
  have howner : owner.toList = owner'.toList ↔ owner = owner' := by
    cases owner <;> cases owner' <;> simp
  rw [qualified_eq_joined, qualified_eq_joined, joined_quoted_inj (by decide) (by decide),
    List.append_singleton_inj, howner]

/-- Two lists of names whose texts are the same are the same, whatever characters the names are made
of, and so are two names with or without an owner. No name can stand for a separator, an owner or a
closing back-tick. -/
theorem identifiers_told_apart :
    (∀ names names' : List String,
      joined ", " (names.map quoted) = joined ", " (names'.map quoted) ↔ names = names') ∧
    ∀ (owner owner' : Option String) (name name' : String),
      qualified owner name = qualified owner' name' ↔ owner = owner' ∧ name = name' :=
  ⟨fun _ _ => joined_quoted_inj (by decide) (by decide), fun _ _ _ _ => qualified_inj⟩

/-- A name with a separator between back-ticks is not taken for two names. -/
example : joined ", " (["a`, `b"].map quoted) = "`a``, ``b`" ∧
    joined ", " (["a", "b"].map quoted) = "`a`, `b`" := by
  decide

/-! ### Words -/

section

variable {p : Char → Bool} {word text : List Char} (h : ∀ c ∈ text.head?, p c = false)

include h

theorem takeWhile_eq_nil : text.takeWhile p = [] := by
  cases text with
  | nil => rfl
  | cons c rest => exact List.takeWhile_cons_of_neg (by simp [h c rfl])

theorem dropWhile_eq_self : text.dropWhile p = text := by
  cases text with
  | nil => rfl
  | cons c rest => exact List.dropWhile_cons_of_neg (by simp [h c rfl])

/-- Reading up to the first character that ends a word, before a text that begins with such a
character, gives the word exactly if none of its own characters ends it. -/
theorem takeWhile_append_eq_left :
    (word ++ text).takeWhile p = word ↔ ∀ c ∈ word, p c = true := by
  constructor
  · intro heq c hc
    rw [← heq] at hc
    exact List.all_eq_true.mp List.all_takeWhile c hc
  · intro hall
    rw [List.takeWhile_append_of_pos hall, takeWhile_eq_nil h, List.append_nil]

end

end SqlTree
