import Mathlib.Logic.Relation
import SqlTree.Proofs.Document.Alike

/-!
# Members that do not matter

A document may have members that nobody looks up, and members that are null where they could as well
be left out. This file puts such members into a document or takes them out of it, anywhere in its
tree, and shows that the document is revived as before. Only what is taken as it stands, as the
value of a literal is, has to stay as it is, and so have the tags.

## Main definitions

* `Role.fields?`: the keys that are looked up in an object.
* `Json.SpareChange`: one spare member is put into a document or taken out of it.

## Main results

* `Json.SpareChange.alike`: a document is read alike after one such change.
* `Registry.revive_iff_of_spareChanges`: after any number of them it is revived to the same node.
-/

namespace SqlTree

/-- The keys that are looked up in an object with the given members, if it can be read in a role. A
node has to have the tag of a kind. -/
def Role.fields? (members : List (String × Json)) : Role → Option (List (String × Option Role))
  | .node => ((tag? members).bind Kind.ofTag?).map Kind.fields
  | .arm => some armFields
  | .assignment => some assignmentFields

namespace Json

/-- One document becomes another one by a change of one spare member, of an object that is read in
some role: a member under a key that is not looked up there, or one that is null instead of absent.
The tag stays as it is. -/
inductive SpareChange : Role → Json → Json → Prop
  | insert {role : Role} {members : List (String × Json)} {keys : List (String × Option Role)}
      {key : String} {value : Json} (hkeys : role.fields? members = some keys)
      (htag : key ≠ "classname")
      (hspare : Keyed.find? key keys = none ∨ value = .null ∧ Keyed.find? key members = none) :
      SpareChange role (.object members) (.object (Keyed.insert key value members))
  | erase {role : Role} {members : List (String × Json)} {keys : List (String × Option Role)}
      {key : String} (hkeys : role.fields? members = some keys) (htag : key ≠ "classname")
      (hspare : Keyed.find? key keys = none ∨ Keyed.find? key members = some .null) :
      SpareChange role (.object members) (.object (Keyed.erase key members))
  /-- The change is made inside of a member. -/
  | member {role inner : Role} {members : List (String × Json)}
      {keys : List (String × Option Role)} {key : String} {value value' : Json}
      (hkeys : role.fields? members = some keys) (hkey : Keyed.find? key keys = some (some inner))
      (hvalue : Keyed.find? key members = some value) (h : SpareChange inner value value') :
      SpareChange role (.object members) (.object (Keyed.insert key value' members))
  /-- The change is made inside of an item of a list. -/
  | item {role : Role} {before after : List Json} {value value' : Json}
      (h : SpareChange role value value') :
      SpareChange role (.array (before ++ value :: after)) (.array (before ++ value' :: after))

variable {role : Role} {j j' : Json}

/-- Documents without members and items are not changed. -/
theorem SpareChange.isNull (h : SpareChange role j j') : j.isNull = false ∧ j'.isNull = false := by
  cases h <;> exact ⟨rfl, rfl⟩

end Json

/-! ### Members that are given -/

section

variable {members : List (String × Json)} {key other : String}

theorem given?_of_find? {value : Json} (h : Keyed.find? key members = some value)
    (hnull : value.isNull = false) : given? key members = some value := by
  rw [given?, h, Option.filter_some, hnull]
  rfl

theorem given?_insert_of_ne (h : key ≠ other) (value : Json) :
    given? other (Keyed.insert key value members) = given? other members := by
  rw [given?, given?, Keyed.find?_insert_of_ne h]

/-- A member that is null counts as absent. -/
theorem given?_insert_null (h : Keyed.find? key members = none) :
    given? other (Keyed.insert key .null members) = given? other members := by
  by_cases hother : key = other
  · subst hother
    rw [given?, given?, Keyed.find?_insert_self, h]
    rfl
  · exact given?_insert_of_ne hother _

theorem given?_erase_of_ne (h : key ≠ other) :
    given? other (Keyed.erase key members) = given? other members := by
  rw [given?, given?, Keyed.find?_erase, if_neg h]

theorem given?_erase_null (h : Keyed.find? key members = some .null) :
    given? other (Keyed.erase key members) = given? other members := by
  by_cases hother : key = other
  · subst hother
    rw [given?, given?, Keyed.find?_erase, if_pos rfl, h]
    rfl
  · exact given?_erase_of_ne hother

end

/-! ### Documents that are read alike -/

/-- A tag is not looked up as a field. -/
theorem Kind.find?_tagKey_fields (k : Kind) : Keyed.find? "classname" k.fields = none := by
  cases k <;> rfl

theorem Role.find?_tagKey {role : Role} {members : List (String × Json)}
    {keys : List (String × Option Role)} (h : role.fields? members = some keys) :
    Keyed.find? "classname" keys = none := by
  cases role with
  | node =>
    obtain ⟨k, -, rfl⟩ := Option.map_eq_some_iff.mp h
    exact k.find?_tagKey_fields
  | arm | assignment =>
    obtain rfl := Option.some.inj h
    rfl

/-- An object that can be read as a node has the tag of a kind. -/
theorem Role.exists_kind {members : List (String × Json)} {keys : List (String × Option Role)}
    (h : Role.node.fields? members = some keys) :
    ∃ k : Kind, Keyed.find? "classname" members = some (.string k.tag) ∧ keys = k.fields := by
  obtain ⟨k, hk, rfl⟩ := Option.map_eq_some_iff.mp h
  obtain ⟨tag, htag, hkind⟩ := Option.bind_eq_some_iff.mp hk
  obtain ⟨value, hvalue, hstring⟩ := Option.bind_eq_some_iff.mp htag
  have hvalue' : value = .string k.tag := by
    have : k.tag = tag := by simpa using List.find?_some hkind
    cases value <;> cases hstring
    rw [this]
  exact ⟨k, hvalue' ▸ hvalue, rfl⟩

namespace Registry

variable {role : Role} {members members' : List (String × Json)}
  {keys : List (String × Option Role)} {j j' : Json}

/-- Objects with the same tag whose members agree under the keys that are looked up are read
alike. -/
theorem alike_object {d : Dialect} (hkeys : role.fields? members = some keys)
    (htag : Keyed.find? "classname" members' = Keyed.find? "classname" members)
    (h : ∀ key role?, Keyed.find? key keys = some role? →
      Option.Rel (Reading.AlikeIn role?) ((given? key members).map (builtin d).reading)
        ((given? key members').map (builtin d).reading)) :
    Reading.Alike role ((builtin d).reading (.object members))
      ((builtin d).reading (.object members')) := by
  have hf (kind : Kind) : Fields.Alike keys ⟨kind, (builtin d).memberReadings members⟩
      ⟨kind, (builtin d).memberReadings members'⟩ := by
    have hreads (members : List (String × Json)) :
        Fields.Reads ⟨kind, (builtin d).memberReadings members⟩ (builtin d) members := rfl
    refine ⟨rfl, fun key role? hkey => ?_⟩
    rw [(hreads members).get?, (hreads members').get?]
    exact h key role? hkey
  cases role with
  | node =>
    obtain ⟨k, hk, rfl⟩ := Role.exists_kind hkeys
    have hread := (hf k).construct rfl d
    rw [← revive_of_tag hk, ← revive_of_tag (htag.trans hk)] at hread
    exact .object rfl rfl hread
  | arm =>
    obtain rfl := Option.some.inj hkeys
    exact .object rfl rfl (Fields.Alike.caseArm rfl rfl (hf .caseOf))
  | assignment =>
    obtain rfl := Option.some.inj hkeys
    exact .object rfl rfl (Fields.Alike.assignment rfl rfl (hf .update))

theorem alike_of_given_eq {d : Dialect} (hkeys : role.fields? members = some keys)
    (htag : Keyed.find? "classname" members' = Keyed.find? "classname" members)
    (h : ∀ key role?, Keyed.find? key keys = some role? →
      given? key members' = given? key members) :
    Reading.Alike role ((builtin d).reading (.object members))
      ((builtin d).reading (.object members')) := by
  refine alike_object hkeys htag fun key role? hkey => ?_
  rw [h key role? hkey]
  exact Reading.rel_alikeIn_refl role? _

end Registry

open Registry in
/-- A document is read alike after one change of a spare member. -/
theorem Json.SpareChange.alike {role : Role} {j j' : Json} (h : SpareChange role j j')
    (d : Dialect) : Reading.Alike role ((builtin d).reading j) ((builtin d).reading j') := by
  induction h with
  | @insert role members keys key value hkeys htag hspare =>
    refine alike_of_given_eq hkeys (Keyed.find?_insert_of_ne htag value members)
      fun other role? hother => ?_
    rcases hspare with hunknown | ⟨rfl, habsent⟩
    · exact given?_insert_of_ne (Keyed.ne_of_find? hunknown hother) value
    · exact given?_insert_null habsent
  | @erase role members keys key hkeys htag hspare =>
    refine alike_of_given_eq hkeys (by rw [Keyed.find?_erase, if_neg htag])
      fun other role? hother => ?_
    rcases hspare with hunknown | hnull
    · exact given?_erase_of_ne (Keyed.ne_of_find? hunknown hother)
    · exact given?_erase_null hnull
  | @member role inner members keys key value value' hkeys hkey hvalue h ih =>
    have htag : key ≠ "classname" := (Keyed.ne_of_find? (Role.find?_tagKey hkeys) hkey).symm
    refine alike_object hkeys (Keyed.find?_insert_of_ne htag value' members)
      fun other role? hother => ?_
    by_cases heq : key = other
    · subst heq
      obtain rfl : role? = some inner := Option.some.inj (hother.symm.trans hkey)
      rw [given?_of_find? hvalue h.isNull.1,
        given?_of_find? (Keyed.find?_insert_self key value' members) h.isNull.2]
      exact .some ih
    · rw [given?_insert_of_ne heq]
      exact Reading.rel_alikeIn_refl role? _
  | @item role before after value value' h ih =>
    have hsame (items : List Json) : List.Forall₂ (Reading.Alike role)
        (items.map (builtin d).reading) (items.map (builtin d).reading) :=
      List.forall₂_same.mpr fun x _ => .refl x
    refine .list rfl rfl ?_ ?_
    -- A list is neither a node nor an object.
    · cases role <;> exact .error _ _
    · simp only [reading, readings_eq_map, List.map_append, List.map_cons]
      exact List.rel_append (hsame before) (.cons ih (hsame after))

namespace Registry

/-- A document in which any number of spare members are put in or taken out, one after another and
in any of its objects, is revived to the same node as before, and it is refused if it was before. -/
theorem revive_iff_of_spareChanges (d : Dialect) {j j' : Json}
    (h : Relation.ReflTransGen (Json.SpareChange .node) j j') (n : Node) :
    (builtin d).revive j = .ok n ↔ (builtin d).revive j' = .ok n := by
  induction h with
  | refl => exact Iff.rfl
  | tail _ hstep ih => exact ih.trans ((hstep.alike d).outcome.eq_ok_iff n)

open Json in
/-- The update of a column to a choice. A condition of the update that is null is taken out, and a
note that is not looked up is put to the case of the choice. -/
theorem revive_iff_of_spareChanges_update :
    let best : Json :=
      .object [("classname", .string "ColumnExpression"), ("column", .string "best")]
    let grade : Json := .object [("classname", .string "Value"), ("value", .string "A")]
    let arm : List (String × Json) := [("then", grade), ("when", best)]
    let choice (arm : List (String × Json)) : List (String × Json) :=
      [("cases", .array [.object arm]), ("classname", .string "CaseExpression")]
    let assignment (arm : List (String × Json)) : List (String × Json) :=
      [("column", .string "grade"), ("value", .object (choice arm))]
    let update (arm : List (String × Json)) : List (String × Json) :=
      [("classname", .string "Update"), ("name", .string "pupil"),
        ("set", .array [.object (assignment arm)])]
    let j : Json := .object (update arm ++ [("where", .null)])
    let j' : Json := .object (update (("note", .array [best]) :: arm))
    let n : Node := .statement (.update ⟨none, "pupil",
      [("grade", .caseOf none [⟨.ofColumn "best", .value (.string "A")⟩] none)], none⟩)
    Relation.ReflTransGen (SpareChange .node) j j' ∧
      (builtin .mySQL).revive j = .ok n ∧ (builtin .mySQL).revive j' = .ok n := by
  intro best grade arm choice assignment update j j' n
  have hwhere : SpareChange .node j (.object (update arm)) :=
    @SpareChange.erase .node (update arm ++ [("where", .null)]) _ "where" rfl (by decide) (.inr rfl)
  have harm : SpareChange .arm (.object arm) (.object (("note", .array [best]) :: arm)) :=
    @SpareChange.insert .arm arm _ "note" (.array [best]) rfl (by decide) (.inl rfl)
  have hchoice : SpareChange .node (.object (choice arm)) (.object (choice _)) :=
    @SpareChange.member .node .arm (choice arm) _ "cases" _ _ rfl rfl rfl
      (@SpareChange.item .arm [] [] _ _ harm)
  have hassignment : SpareChange .assignment (.object (assignment arm)) (.object (assignment _)) :=
    @SpareChange.member .assignment .node (assignment arm) _ "value" _ _ rfl rfl rfl hchoice
  have hset : SpareChange .node (.object (update arm)) j' :=
    @SpareChange.member .node .assignment (update arm) _ "set" _ _ rfl rfl rfl
      (@SpareChange.item .assignment [] [] _ _ hassignment)
  have hchanges : Relation.ReflTransGen (SpareChange .node) j j' := .head hwhere (.single hset)
  have hj : (builtin .mySQL).revive j = .ok n := by cbv
  exact ⟨hchanges, hj, (revive_iff_of_spareChanges .mySQL hchanges n).mp hj⟩

end Registry

end SqlTree
