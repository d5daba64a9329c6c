import SqlTree.Node.Document
import SqlTree.Proofs.Keyed
import SqlTree.Proofs.Outcome
import SqlTree.Registry.Basic

/-!
# Fields that have been written

A document is written field by field, and reading a field gives back what has been written. This
file says so for each way of writing a field and for the way of reading that belongs to it.

## Main definitions

* `Fields.Holds`: fields that are read hold those of a document.

## Main results

* `Registry.revive_of_tag`: an object is revived from its fields, as its tag says.
* `Registry.revive_tagged`: the document of a node is revived from its fields.
* `Registry.exists_kind`: whatever is revived is put together from the fields of some kind.
* `Fields.text?_congr`, `Fields.list_congr`, … : a field depends on its key and on the kind only.
* `Fields.Holds.text`, `Fields.Holds.slot`, `Fields.Holds.nodes`, … : fields are read as they are
  written.
-/

namespace SqlTree

/-! ### Fields of a document -/

/-- The fields of a document give a key a value, if any. -/
def Gives (fields : List (String × Json)) (key : String) (value : Option Json) : Prop :=
  key ≠ "classname" ∧ Keyed.last? key fields = value

@[simp] theorem gives_iff {fields : List (String × Json)} {key : String} {value : Option Json} :
    Gives fields key value ↔ key ≠ "classname" ∧ Keyed.last? key fields = value := .rfl

@[simp] theorem last?_field (key k : String) (value : Json) :
    Keyed.last? key (field k value) = if k = key then some value else none := rfl

@[simp] theorem last?_field? (key k : String) (value : Option Json) :
    Keyed.last? key (field? k value) = if k = key then value else none := by
  cases value <;> simp [field?, Keyed.last?]

@[simp] theorem last?_flagField (key k : String) (value : Bool) :
    Keyed.last? key (flagField k value) =
      if k = key then (if value then some (.bool true) else none) else none := by
  cases value <;> simp [flagField, Keyed.last?]

@[simp] theorem last?_listField (key k : String) (items : List Json) :
    Keyed.last? key (listField k items) =
      if k = key then (if items = [] then none else some (.array items)) else none := by
  cases items <;> simp [listField, Keyed.last?]

/-- Fields that are read hold the fields of a document, all of whose parts have been revived. -/
def Fields.Holds (f : Fields) (r : Registry) (fields : List (String × Json)) : Prop :=
  ∀ key value, Gives fields key value → Keyed.find? key f.members = value.map r.reading

namespace Registry

variable (r : Registry)

theorem find?_memberReadings (key : String) (members : List (String × Json)) :
    Keyed.find? key (r.memberReadings members) = (Keyed.find? key members).map r.reading := by
  induction members with
  | nil => rfl
  | cons member members ih =>
    obtain ⟨k, value⟩ := member
    rw [memberReadings, Keyed.find?_cons, Keyed.find?_cons, ih]
    split <;> rfl

@[simp] theorem source_reading (j : Json) : (r.reading j).source = j := by
  cases j <;> rfl

theorem readings_eq_map (items : List Json) : r.readings items = items.map r.reading := by
  induction items with
  | nil => rfl
  | cons item items ih => rw [readings, ih, List.map_cons]

theorem revive_object (members : List (String × Json)) :
    r.revive (.object members) = r.construct (r.memberReadings members) := rfl

/-! ### Constructors -/

/-- Every kind, and nothing else, has a constructor in the registry of all kinds. -/
theorem find?_builtin (d : Dialect) (tag : String) :
    Keyed.find? tag (builtin d).constructors =
      Keyed.last? tag (Kind.all.map fun k => (k.tag, Constructor.kind k)) := by
  have hfold : ∀ (kinds : List Kind) (r : Registry),
      (kinds.foldl (fun r k => r.register k.tag (.kind k)) r).constructors =
        (kinds.map fun k => (k.tag, Constructor.kind k)).foldl
          (fun acc pair => Keyed.insert pair.1 pair.2 acc) r.constructors := by
    intro kinds
    induction kinds with
    | nil => exact fun _ => rfl
    | cons k kinds ih => exact fun r => ih (r.register k.tag (.kind k))
  rw [builtin, hfold, ← Keyed.find?_ofList]
  rfl

theorem dialect_builtin (d : Dialect) : (builtin d).dialect = d := by
  have hfold : ∀ (kinds : List Kind) (r : Registry),
      (kinds.foldl (fun r k => r.register k.tag (.kind k)) r).dialect = r.dialect := by
    intro kinds
    induction kinds with
    | nil => exact fun _ => rfl
    | cons k kinds ih => exact fun r => ih (r.register k.tag (.kind k))
  exact hfold Kind.all (empty d)

theorem of_last?_kinds {kinds : List Kind} {tag : String} {c : Constructor}
    (h : Keyed.last? tag (kinds.map fun k => (k.tag, Constructor.kind k)) = some c) :
    ∃ k, k.tag = tag ∧ c = .kind k := by
  induction kinds with
  | nil => exact absurd h (Option.some_ne_none c).symm
  | cons k kinds ih =>
    rw [List.map_cons, Keyed.last?, Option.or_eq_some_iff] at h
    rcases h with h | ⟨-, h⟩
    · exact ih h
    · split at h
      · next hk => exact ⟨k, hk, (Option.some.inj h).symm⟩
      · exact absurd h (Option.some_ne_none c).symm

theorem last?_kinds {kinds : List Kind} {k : Kind} (h : k ∈ kinds) :
    Keyed.last? k.tag (kinds.map fun k => (k.tag, Constructor.kind k)) = some (.kind k) := by
  induction kinds with
  | nil => exact absurd h List.not_mem_nil
  | cons l kinds ih =>
    rw [List.map_cons, Keyed.last?]
    rcases List.mem_cons.mp h with rfl | h
    · cases hrest : Keyed.last? k.tag (kinds.map fun k => (k.tag, Constructor.kind k)) with
      | none => rw [Option.none_or, if_pos rfl]
      | some c =>
        obtain ⟨l, hl, rfl⟩ := of_last?_kinds hrest
        rw [Kind.tag_injective hl, Option.some_or]
    · rw [ih h, Option.some_or]

/-- An object is put together from its fields as a node of the kind that its tag names. -/
theorem revive_of_tag {d : Dialect} {kind : Kind} {members : List (String × Json)}
    (h : Keyed.find? "classname" members = some (.string kind.tag)) :
    (builtin d).revive (.object members) =
      Fields.construct ⟨kind, (builtin d).memberReadings members⟩ d := by
  have htag : Keyed.find? DocumentFault.tagKey members = some (.string kind.tag) := h
  have hkind : Keyed.find? kind.tag (builtin d).constructors = some (.kind kind) := by
    rw [find?_builtin, last?_kinds kind.mem_all]
  rw [revive_object, construct, find?_memberReadings, htag]
  simp only [Option.map_some, Option.bind_some, source_reading, Json.string?, hkind,
    Constructor.apply, dialect_builtin]

/-- An object with the given fields is revived to what any fields that hold them are put together
to. -/
theorem revive_tagged {d : Dialect} {kind : Kind} {groups : List (List (String × Json))} {n : Node}
    (htag : Keyed.last? "classname" groups.flatten = none)
    (h : ∀ f : Fields, f.kind = kind → f.Holds (builtin d) groups.flatten →
      f.construct d = .ok n) :
    (builtin d).revive (tagged kind groups) = .ok n := by
  have hfind : ∀ key, Keyed.find? key (Keyed.ofList
      ((DocumentFault.tagKey, .string kind.tag) :: groups.flatten)) =
        (Keyed.last? key groups.flatten).or
          (if DocumentFault.tagKey = key then some (.string kind.tag) else none) := by
    intro key
    rw [Keyed.find?_ofList, Keyed.last?]
  have hkind : Keyed.find? "classname" (Keyed.ofList
      ((DocumentFault.tagKey, .string kind.tag) :: groups.flatten)) = some (.string kind.tag) := by
    rw [hfind, htag]
    rfl
  rw [tagged, Json.ofMembers, revive_of_tag hkind]
  refine h _ rfl ?_
  rintro key value ⟨hkey, hv⟩
  have hne : DocumentFault.tagKey ≠ key := Ne.symm hkey
  rw [find?_memberReadings, hfind, hv, if_neg hne, Option.or_none]

/-- Only objects are revived. -/
theorem exists_members {r : Registry} {j : Json} {n : Node} (h : r.revive j = .ok n) :
    ∃ members, j = .object members ∧ r.construct (r.memberReadings members) = .ok n := by
  cases j with
  | object members => exact ⟨members, rfl, h⟩
  | null => exact absurd h nofun
  | bool b => exact absurd h nofun
  | number n => exact absurd h nofun
  | string s => exact absurd h nofun
  | array items => exact absurd h nofun

/-- Whatever is revived is put together from the fields of the kind that its tag names. -/
theorem exists_tagged_kind {d : Dialect} {members : List (String × Reading)} {n : Node}
    (h : (builtin d).construct members = .ok n) :
    ∃ kind : Kind, (∃ tag, Keyed.find? DocumentFault.tagKey members = some tag ∧
      tag.source = .string kind.tag) ∧ Fields.construct ⟨kind, members⟩ d = .ok n := by
  rw [construct] at h
  split at h
  · exact absurd h nofun
  · next text htext =>
    obtain ⟨tag, hfind, hsource⟩ := Option.bind_eq_some_iff.mp htext
    have hstring : tag.source = .string text := by
      cases hs : tag.source <;> rw [hs] at hsource <;> cases hsource
      rfl
    split at h
    · exact absurd h nofun
    · next c hc =>
      rw [find?_builtin] at hc
      obtain ⟨kind, rfl, rfl⟩ := of_last?_kinds hc
      rw [Constructor.apply, dialect_builtin] at h
      exact ⟨kind, ⟨tag, hfind, hstring⟩, h⟩

/-- Whatever is revived is put together from the fields of some kind. -/
theorem exists_kind {d : Dialect} {members : List (String × Reading)} {n : Node}
    (h : (builtin d).construct members = .ok n) :
    ∃ kind, Fields.construct ⟨kind, members⟩ d = .ok n := by
  obtain ⟨kind, -, h⟩ := exists_tagged_kind h
  exact ⟨kind, h⟩

end Registry

namespace Fields

/-! ### What a field depends on -/

section

variable {f f' : Fields} {key : String} (hkind : f'.kind = f.kind)
  (hget : f'.get? key = f.get? key)

include hkind hget

theorem text?_congr : f'.text? key = f.text? key := by
  simp only [text?, hget, mistyped, hkind]

theorem text_congr : f'.text key = f.text key := by
  simp only [text, text?_congr hkind hget, missing, hkind]

theorem flag_congr : f'.flag key = f.flag key := by
  simp only [flag, hget, mistyped, hkind]

theorem natural?_congr : f'.natural? key = f.natural? key := by
  simp only [natural?, hget, mistyped, hkind]

theorem list_congr : f'.list key = f.list key := by
  simp only [list, hget, mistyped, hkind]

theorem strings_congr : f'.strings key = f.strings key := by
  simp only [strings, list_congr hkind hget, mistyped, hkind]

end

/-! ### Reading what has been written -/

variable {r : Registry} {f : Fields} {fields : List (String × Json)} {key : String}

/-- An object without a tag holds the fields that it has been made of. -/
theorem holds_ofList (kind : Kind) (r : Registry) (fields : List (String × Json)) :
    Holds ⟨kind, r.memberReadings (Keyed.ofList fields)⟩ r fields := by
  rintro key value ⟨-, hv⟩
  rw [Registry.find?_memberReadings, Keyed.find?_ofList, hv]

theorem Holds.get? (hf : f.Holds r fields) {value : Option Json} (h : Gives fields key value) :
    f.get? key = (value.filter fun v => !v.isNull).map r.reading := by
  rw [Fields.get?, hf key value h]
  cases value with
  | none => rfl
  | some v => cases hv : v.isNull <;> simp [Option.filter, hv]

theorem Holds.get?_absent (hf : f.Holds r fields) (h : Gives fields key none) :
    f.get? key = none :=
  hf.get? h

theorem Holds.get?_present (hf : f.Holds r fields) {value : Json}
    (h : Gives fields key (some value)) (hv : value.isNull = false) :
    f.get? key = some (r.reading value) := by
  rw [hf.get? h]
  simp [Option.filter, hv]

theorem Holds.text? (hf : f.Holds r fields) {value : Option String}
    (h : Gives fields key (value.map .string)) : f.text? key = .ok value := by
  rw [Fields.text?, hf.get? h]
  cases value <;> rfl

theorem Holds.text (hf : f.Holds r fields) {value : String}
    (h : Gives fields key (some (.string value))) : f.text key = .ok value := by
  have h' : f.text? key = .ok (some value) := hf.text? h
  rw [Fields.text, h']
  rfl

theorem Holds.flag (hf : f.Holds r fields) {value : Bool}
    (h : Gives fields key (if value then some (.bool true) else none)) :
    f.flag key = .ok value := by
  rw [Fields.flag, hf.get? h]
  cases value <;> rfl

theorem Holds.natural? (hf : f.Holds r fields) {value : Option UInt64}
    (h : Gives fields key (value.map .natural)) : f.natural? key = .ok value := by
  rw [Fields.natural?, hf.get? h]
  cases value <;> rfl

theorem Holds.raw (hf : f.Holds r fields) {value : Json} (h : Gives fields key (some value)) :
    f.raw key = value := by
  rw [Fields.raw, hf key _ h]
  exact r.source_reading value

/-- A value that is left out if it is null. -/
theorem Holds.raw_of_null (hf : f.Holds r fields) {value : Json}
    (h : Gives fields key (if value.isNull then none else some value)) : f.raw key = value := by
  cases hv : value.isNull with
  | true =>
    rw [hv, if_pos rfl] at h
    rw [Fields.raw, hf key _ h]
    cases value <;> first | rfl | exact absurd hv nofun
  | false =>
    rw [hv] at h
    exact hf.raw h

theorem Holds.get (hf : f.Holds r fields) {value : Json} (h : Gives fields key (some value))
    (hv : value.isNull = false) : f.get key = .ok (r.reading value) := by
  rw [Fields.get, hf.get?_present h hv]

theorem Holds.list (hf : f.Holds r fields) {items : List Json}
    (h : Gives fields key (if items = [] then none else some (.array items))) :
    f.list key = .ok (items.map r.reading) := by
  rw [Fields.list, hf.get? h]
  cases items with
  | nil => rfl
  | cons item items => exact congrArg Except.ok (r.readings_eq_map (item :: items))

/-- Items that are converted one by one to what they have been made of. -/
theorem convert_map {α β : Type} {one : β → Except Error α} {make : α → β} {items : List α}
    (h : ∀ a ∈ items, one (make a) = .ok a) : convert one (items.map make) = .ok items := by
  induction items with
  | nil => rfl
  | cons a items ih =>
    rw [List.map_cons, convert, h a List.mem_cons_self, ok_bind,
      ih fun b hb => h b (List.mem_cons_of_mem _ hb)]
    rfl

theorem Holds.strings (hf : f.Holds r fields) {values : List String}
    (h : Gives fields key
      (if values.map Json.string = [] then none else some (.array (values.map .string)))) :
    f.strings key = .ok values := by
  rw [Fields.strings, hf.list h, ok_bind, List.map_map]
  exact convert_map fun s _ => rfl

/-- A node that is converted to what its document has been made of. -/
theorem Holds.node? (hf : f.Holds r fields) {α : Type} {as : Node → Except Error α}
    (document : α → Json) {value : Option α} (h : Gives fields key (value.map document))
    (back : ∀ a ∈ value, (r.revive (document a) >>= as) = .ok a) : f.node? key as = .ok value := by
  rw [Fields.node?, hf.get? h]
  cases value with
  | none => rfl
  | some a =>
    obtain ⟨n, hn, has⟩ := bind_eq_ok.mp (back a rfl)
    obtain ⟨members, hmembers, -⟩ := Registry.exists_members hn
    have hnull : (document a).isNull = false := by rw [hmembers]; rfl
    have hout : (r.reading (document a)).outcome = .ok n := hn
    simp only [Option.map_some, Option.filter, hnull, Bool.not_false, if_true, hout, ok_bind, has]
    rfl

theorem Holds.nodes (hf : f.Holds r fields) {α : Type} {as : Node → Except Error α}
    (document : α → Json) {items : List α}
    (h : Gives fields key
      (if items.map document = [] then none else some (.array (items.map document))))
    (back : ∀ a ∈ items, (r.revive (document a) >>= as) = .ok a) : f.nodes key as = .ok items := by
  rw [Fields.nodes, hf.list h, ok_bind, List.map_map]
  exact convert_map fun a ha => back a ha

theorem Holds.expr? (hf : f.Holds r fields) {value : Option Expr}
    (h : Gives fields key (value.map Expr.document))
    (back : ∀ e ∈ value, (r.revive e.document >>= Node.toExpr) = .ok e) :
    f.expr? key = .ok value :=
  hf.node? Expr.document h back

theorem Holds.exprs (hf : f.Holds r fields) {items : List Expr}
    (h : Gives fields key
      (if items.map Expr.document = [] then none else some (.array (items.map Expr.document))))
    (back : ∀ e ∈ items, (r.revive e.document >>= Node.toExpr) = .ok e) :
    f.exprs key = .ok items :=
  hf.nodes Expr.document h back

/-- An expression in a slot, which may be unset. -/
theorem Holds.slot (hf : f.Holds r fields) {e : Expr} (h : Gives fields key (some e.document))
    (back : e ≠ .unknown → (r.revive e.document >>= Node.toExpr) = .ok e) :
    f.slot key = .ok e := by
  by_cases hu : e = .unknown
  · have hnone : f.expr? key = .ok none := by
      rw [Fields.expr?, Fields.node?, hf.get? h, hu]
      rfl
    rw [Fields.slot, hnone, hu]
    rfl
  · have h' : Gives fields key ((some e).map Expr.document) := h
    have hsome : f.expr? key = .ok (some e) := by
      refine hf.expr? h' ?_
      rintro a ⟨⟩
      exact back hu
    rw [Fields.slot, hsome]
    rfl

end Fields

end SqlTree
