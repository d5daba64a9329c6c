import SqlTree.Json.Spelling

/-!
# Configuration of locking

The configuration is read from a JSON text: an object whose field `acquire_timeout_ms` is absent,
null or a natural number of milliseconds below `2 ^ 64`. Other fields are passed over, whatever they
hold; the known one must not come twice. A list may stand for the object, with the fields in their
order.
-/

namespace SqlTree

/-- How locks are acquired. -/
structure LockConfig where
  /-- How many milliseconds each single lock is waited for, if not forever. -/
  timeout : Option UInt64
deriving DecidableEq, Inhabited

namespace LockConfig

/-- Locks are waited for without bound. -/
def default : LockConfig := ⟨none⟩

/-- The key of the field. -/
def timeoutKey : String := "acquire_timeout_ms"

/-- The value of the field. -/
def readTimeout : Spelling → Option (Option UInt64)
  | .null => some none
  | .numeral n => (n.number?.bind Number.natural?).map some
  | _ => none

/-- The configuration of the members of an object; `seen` is the value of the field if it has come
before. -/
def readMembers (seen : Option (Option UInt64)) :
    List (List Glyph × Spelling) → Option LockConfig
  | [] => some ⟨seen.getD none⟩
  | (glyphs, value) :: rest =>
    match Glyph.text? glyphs with
    | none => none
    | some key =>
      if key = timeoutKey then
        match seen, readTimeout value with
        | none, some timeout => readMembers (some timeout) rest
        | _, _ => none
      else readMembers seen rest

/-- The configuration that a text spells. -/
def read (text : String) : Option LockConfig :=
  match Spelling.read text with
  | some (.object members) => readMembers none members
  | some (.array []) => some default
  | some (.array [value]) => (readTimeout value).map LockConfig.mk
  | _ => none

end LockConfig

end SqlTree
