import EntityMapping.Json.Basic

/-!
Records as JSON values. A record is written as an object; it may also be read from a list of its
fields in order, from which a tail may be missing. Keys that are no fields do not count.
-/

set_option autoImplicit false
set_option relaxedAutoImplicit false

namespace EntityMapping

/-- The values of a record's fields, as far as they are there. -/
abbrev Record := String → Option Json

namespace Record

/-- Read a record with some fields. A list must have a value for at least the first `least`. -/
def ofJson? (names : List String) (least : Nat) : Json → Option Record
  | .obj fields => some (Keyed.get? fields)
  | .arr items =>
      if items.length < least || names.length < items.length then none
      else some (Keyed.get? (names.zip items))
  | _ => none

/-- A field that must be there. -/
def need {α : Type} (record : Record) (name : String) (read : Json → Option α) : Option α :=
  (record name).bind read

/-- A field that may be absent or null. -/
def maybe {α : Type} (record : Record) (name : String) (read : Json → Option α) :
    Option (Option α) :=
  match record name with
  | none => some none
  | some .null => some none
  | some value => (read value).map some

/-- A field that has a usual value where it is absent. -/
def orUsual {α : Type} (record : Record) (name : String) (usual : α) (read : Json → Option α) :
    Option α :=
  match record name with
  | none => some usual
  | some value => read value

/-- A list whose items all can be read. -/
def listOf? {α : Type} (read : Json → Option α) (value : Json) : Option (List α) :=
  value.items?.bind fun items => items.mapM read

/-- A field that is always written. -/
def always (name : String) (value : Json) : Keyed Json := [(name, value)]

/-- A field that is written where it has a value. -/
def sometimes (name : String) (value : Option Json) : Keyed Json :=
  match value with
  | some value => [(name, value)]
  | none => []

/-- A value, or null. -/
def orNull (value : Option Json) : Json := value.getD .null

/-- One of some alternatives: its name, or an object with nothing under its name. Nothing is null,
and inside a value that says its own kind also an empty object. -/
def alternative? (kinded : Bool) : Json → Option String
  | .str name => some name
  | .obj [(name, .null)] => some name
  | .obj [(name, .obj [])] => if kinded then some name else none
  | _ => none

end Record

end EntityMapping
