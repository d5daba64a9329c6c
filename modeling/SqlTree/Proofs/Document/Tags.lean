import SqlTree.Proofs.Document.Dialects

/-!
# The tags of a document

An object is revived by the constructor of its tag, and so is every object nested in it. No other
constructors are looked up, so what a document is revived to, or the error with which it fails,
depends on a registry only through the constructors of the tags that stand in the document. What
else is registered, and in which order, does not matter.

## Main definitions

* `Json.tags`: the tags of the objects that are nested in a document.
* `Registry.AgreesOn`: two registries have the same constructor for a tag, or both have none.

## Main results

* `Registry.reading_congr`: registries that agree on the tags of a document read it in the same way.
* `Registry.revive_depends_on_tags`: they revive it to the same node or fail with the same error,
  and a further constructor changes neither a document without its tag nor one that is revived.
-/

namespace SqlTree

/-- The tag of an object with the given members, if it has one. -/
def tag? (members : List (String × Json)) : Option String :=
  (Keyed.find? DocumentFault.tagKey members).bind Json.string?

namespace Json

mutual

/-- The tags of the objects that are nested in a document. -/
def tags : Json → List String
  | array items => itemTags items
  | object members => (tag? members).toList ++ memberTags members
  | _ => []

/-- The tags of the objects that are nested in some document of a list. -/
def itemTags : List Json → List String
  | [] => []
  | item :: rest => tags item ++ itemTags rest

/-- The tags of the objects that are nested in some member of an object. -/
def memberTags : List (String × Json) → List String
  | [] => []
  | (_, value) :: rest => tags value ++ memberTags rest

end

end Json

namespace Registry

variable {r r' : Registry}

/-- Two registries have the same constructor for a tag, or both have none. -/
def AgreesOn (r r' : Registry) (tag : String) : Prop :=
  Keyed.find? tag r'.constructors = Keyed.find? tag r.constructors

/-- An object is revived by the constructor of its tag. -/
theorem construct_congr (hd : r'.dialect = r.dialect) {members : List (String × Json)}
    {parts : List (String × Reading)} (hparts : r.memberReadings members = parts)
    (ht : ∀ tag ∈ tag? members, r.AgreesOn r' tag) : r'.construct parts = r.construct parts := by
  have htag : ((Keyed.find? DocumentFault.tagKey parts).bind fun tag => tag.source.string?) =
      tag? members := by
    rw [← hparts, find?_memberReadings, tag?]
    cases Keyed.find? DocumentFault.tagKey members with
    | none => rfl
    | some v => rw [Option.map_some, Option.bind_some, Option.bind_some, source_reading]
  rw [construct, construct, htag]
  cases h : tag? members with
  | none => rfl
  | some tag =>
    have hagrees : Keyed.find? tag r'.constructors = Keyed.find? tag r.constructors := ht tag h
    simp only [hagrees, hd]

mutual

/-- Registries that agree on the tags of a document read it in the same way. -/
theorem reading_congr (hd : r'.dialect = r.dialect) :
    ∀ j : Json, (∀ tag ∈ j.tags, r.AgreesOn r' tag) → r'.reading j = r.reading j
  | .array items, ht => by rw [reading, reading, readings_congr hd items ht]
  | .object members, ht => by
    obtain ⟨here, inside⟩ := List.forall_mem_append.mp ht
    have hparts := memberReadings_congr hd members inside
    simp only [reading, hparts]
    rw [construct_congr hd rfl fun tag htag => here tag (Option.mem_toList.mpr htag)]
  | .null, _ => rfl
  | .bool _, _ => rfl
  | .number _, _ => rfl
  | .string _, _ => rfl

/-- Likewise for a list of documents. -/
theorem readings_congr (hd : r'.dialect = r.dialect) :
    ∀ items : List Json, (∀ tag ∈ Json.itemTags items, r.AgreesOn r' tag) →
      r'.readings items = r.readings items
  | [], _ => rfl
  | item :: rest, ht => by
    obtain ⟨hitem, hrest⟩ := List.forall_mem_append.mp ht
    rw [readings, readings, reading_congr hd item hitem, readings_congr hd rest hrest]

/-- Likewise for the members of an object. -/
theorem memberReadings_congr (hd : r'.dialect = r.dialect) :
    ∀ members : List (String × Json), (∀ tag ∈ Json.memberTags members, r.AgreesOn r' tag) →
      r'.memberReadings members = r.memberReadings members
  | [], _ => rfl
  | (_, value) :: rest, ht => by
    obtain ⟨hvalue, hrest⟩ := List.forall_mem_append.mp ht
    rw [memberReadings, memberReadings, reading_congr hd value hvalue,
      memberReadings_congr hd rest hrest]

end

/-- A registry is extended by a constructor for a tag that has none yet. -/
theorem extends_register {tag : String} (htag : r.contains tag = false) (c : Constructor) :
    r.Extends (fun _ => False) (r.register tag c) where
  constructors := by
    intro other c' h
    rw [register, Keyed.find?_insert, if_neg, h]
    rintro rfl
    rw [contains, Keyed.contains, h] at htag
    cases htag
  dialect := fun _ _ h => .inl h

/-- What a document is revived to, or the error with which it fails, depends on the constructors of
its tags only. A further constructor does not change how a document without its tag is revived,
and it does not change what has been revived before, even where its tag stands in a part of the
document that is not looked at. -/
theorem revive_depends_on_tags (r : Registry) (j : Json) :
    (∀ r' : Registry, r'.dialect = r.dialect → (∀ tag ∈ j.tags, r.AgreesOn r' tag) →
      r'.revive j = r.revive j) ∧
    (∀ tag c, tag ∉ j.tags → (r.register tag c).revive j = r.revive j) ∧
    ∀ tag c n, r.contains tag = false → r.revive j = .ok n →
      (r.register tag c).revive j = .ok n := by
  have hagree : ∀ r' : Registry, r'.dialect = r.dialect → (∀ tag ∈ j.tags, r.AgreesOn r' tag) →
      r'.revive j = r.revive j :=
    fun r' hd ht => congrArg Reading.outcome (reading_congr hd j ht)
  refine ⟨hagree, fun tag c htag => hagree _ rfl fun other hother => ?_, fun tag c n hnew h => ?_⟩
  · refine Keyed.find?_insert_of_ne ?_ c r.constructors
    rintro rfl
    exact htag hother
  · exact ((extends_register hnew c).revive h).resolve_right
      fun ⟨⟨_, _, _, _, hforeign⟩, _⟩ => hforeign

/-- Two constructors under other tags than their own, registered in either order. -/
theorem revive_depends_on_tags_swapped :
    let r := ((empty .mySQL).register "Column" (.kind .nullTest)).register "Test" (.kind .column)
    let r' := (((empty .mySQL).register "Test" (.kind .column)).register "Limit" (.kind .limit))
      |>.register "Column" (.kind .nullTest)
    let j : Json := .object [("classname", .string "Column"), ("left", .object [
      ("classname", .string "Test"), ("column", .string "age")])]
    let n : Node := .expr (.nullTest (.ofColumn "age") false)
    j.tags = ["Column", "Test"] ∧ r.revive j = .ok n ∧ r'.revive j = .ok n ∧
      (r.register "Limit" (.kind .limit)).revive j = .ok n ∧
      (r.register "Query" (.kind .query)).revive j = .ok n := by
  intro r r' j n
  have htags : j.tags = ["Column", "Test"] := by cbv
  have h : r.revive j = .ok n := by cbv
  obtain ⟨hagree, hunused, hnew⟩ := revive_depends_on_tags r j
  refine ⟨htags, h, (hagree r' rfl ?_).trans h, (hunused "Limit" _ ?_).trans h,
    hnew "Query" _ n (by cbv) h⟩
  · rw [htags]
    exact List.forall_mem_cons.mpr ⟨by cbv, List.forall_mem_singleton.mpr (by cbv)⟩
  · rw [htags]
    decide

end Registry

end SqlTree
