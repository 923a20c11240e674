import EntityMapping.Artifacts.Record
import EntityMapping.Relationship.Basic

/-!
Relationships and cardinalities as JSON values.
-/

set_option autoImplicit false
set_option relaxedAutoImplicit false

namespace EntityMapping

namespace Cardinality

/-- A cardinality is written as its name, with the association table under it if there is one. -/
def toJson : Cardinality → Json
  | .oneToOne => .str "one_to_one"
  | .oneToMany => .str "one_to_many"
  | .manyToOne => .str "many_to_one"
  | .manyToMany secondary => .obj [("many_to_many", .obj [("secondary", .str secondary)])]

def ofName? (name : String) : Option Cardinality :=
  if name = "one_to_one" then some .oneToOne
  else if name = "one_to_many" then some .oneToMany
  else if name = "many_to_one" then some .manyToOne
  else none

def ofJson? (value : Json) : Option Cardinality :=
  match value with
  | .obj [("many_to_many", fields)] => do
      let record ← Record.ofJson? ["secondary"] 1 fields
      return .manyToMany (← record.need "secondary" Json.string?)
  | _ => (Record.alternative? false value).bind ofName?

end Cardinality

namespace RelationshipType

def spelling : RelationshipType → String
  | .object => "object"
  | .array => "array"

def ofSpelling? (text : String) : Option RelationshipType :=
  if text = "object" then some .object else if text = "array" then some .array else none

theorem ofSpelling?_spelling (type : RelationshipType) : ofSpelling? type.spelling = some type := by
  cases type <;> decide

end RelationshipType

namespace Backref

def toJson (backref : Backref) : Json :=
  .obj [("name", .str backref.name), ("uselist", Record.orNull (backref.uselist.map .bool))]

def ofJson? (value : Json) : Option Backref := do
  let record ← Record.ofJson? ["name", "uselist"] 2 value
  return ⟨← record.need "name" Json.string?, ← record.maybe "uselist" Json.bool?⟩

end Backref

namespace Relationship

/-- The fields of a relationship in order. -/
def fieldNames : List String :=
  ["type", "model_name", "foreign_key_column", "nullable", "description", "write_only", "backref",
    "secondary", "kwargs"]

/-- The fields of a written relationship. -/
def toFields (relationship : Relationship) : Keyed Json :=
  Record.always "type" (.str relationship.type.spelling) ++
  Record.always "model_name" (.str relationship.modelName) ++
  Record.always "foreign_key_column" (.str relationship.foreignKeyColumn) ++
  Record.sometimes "nullable" (relationship.nullable.map .bool) ++
  Record.sometimes "description" (relationship.description.map .str) ++
  Record.sometimes "write_only" (relationship.writeOnly.map .bool) ++
  Record.sometimes "backref" (relationship.backref.map Backref.toJson) ++
  Record.sometimes "secondary" (relationship.secondary.map .str) ++
  Record.sometimes "kwargs" (relationship.arguments.map .obj)

def toJson (relationship : Relationship) : Json := .obj relationship.toFields

/-- Read a relationship from its fields, beside which its kind may be written. -/
def ofRecord? (kinded : Bool) (record : Record) : Option Relationship := do
  let typeName ← record.need "type" (Record.alternative? kinded)
  return {
    type := ← RelationshipType.ofSpelling? typeName
    modelName := ← record.need "model_name" Json.string?
    foreignKeyColumn := ← record.need "foreign_key_column" Json.string?
    nullable := ← record.maybe "nullable" Json.bool?
    description := ← record.maybe "description" Json.string?
    writeOnly := ← record.maybe "write_only" Json.bool?
    backref := ← record.maybe "backref" Backref.ofJson?
    secondary := ← record.maybe "secondary" Json.string?
    arguments := ← record.maybe "kwargs" Json.fields? }

/-- Read a relationship. -/
def ofJson? (value : Json) : Option Relationship := do
  ofRecord? false (← Record.ofJson? fieldNames 0 value)

end Relationship

end EntityMapping
