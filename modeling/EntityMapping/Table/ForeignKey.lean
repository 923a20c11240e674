import EntityMapping.Model.Store
import EntityMapping.Schema.Inheritance

/-!
Foreign keys. A relationship needs a column on one of its entities that points at a column of the
other. The column is added where it is missing: to the model if that has been built already, and
otherwise to the schema in the registry.
-/

set_option autoImplicit false
set_option relaxedAutoImplicit false

namespace EntityMapping

namespace ForeignKey

/-- The name of the property that references a column of a table. -/
def propertyName (tablename column : String) : String := tablename ++ "_" ++ column

/-- What such a property points at. -/
def target (tablename column : String) : String := tablename ++ "." ++ column

/-- Whether a foreign key column has to be added. -/
inductive Requirement where
  /-- The entity has the column already. -/
  | satisfied (property : String)
  | missing (property : String) (schema : Json) (column : Column)

namespace Requirement

def property : Requirement → String
  | .satisfied property => property
  | .missing property _ _ => property

end Requirement

/-- The schema of a column that references a column with the given keywords. -/
def columnSchema (type : String) (format : Option String) (maxLength : Option Nat)
    (nullable : Option Bool) (pointsAt : String) : Keyed Json :=
  let typed : Keyed Json := [("type", .str type)]
  let formatted := Keyed.setSome typed "format" (format.map .str)
  let sized := Keyed.setSome formatted "maxLength"
    (maxLength.map fun length => .int length)
  let stated := Keyed.setSome sized "nullable" (nullable.map .bool)
  Keyed.set stated "x-foreign-key" (.str pointsAt)

end ForeignKey

namespace Registry

/-- An entity that a relationship needs. -/
def registered (registry : Registry) (name : String) : Except SchemaError Json :=
  match registry.get? name with
  | some schema => .ok schema
  | none => .error (.malformedRelationship (.unregistered name))

/-- A property of a flat entity, flattened. -/
def flatProperty? (registry : Registry) (entity : Keyed Json) (property : String) :
    Except SchemaError (Option FlatSchema) :=
  match (Keyed.get? entity "properties").bind (·.get? property) with
  | none => .ok none
  | some schema => do return some (← registry.flatten property schema)

/-- A column that is there already must be the one that would be added. -/
def checkExistingKey (target property : String) (existing : FlatSchema) (type : PrimitiveType)
    (pointsAt : String) : Except SchemaError ForeignKey.Requirement := do
  let existingType ← existing.keywords.typeText
  if existingType ≠ type.spelling then
    .error (.malformedRelationship (.keyTypeDiffers target property existingType type))
  match ← existing.keywords.foreignKey? with
  | none => .error (.malformedRelationship (.keyTargetMissing target property pointsAt))
  | some found =>
      if found = pointsAt then return .satisfied property
      else .error (.malformedRelationship (.keyTargetDiffers target property found pointsAt))

/-- Whether an entity needs a column that points at a column of the owning entity. Only the
entity's own table counts: a child needs the column even where its parent has one. -/
def foreignKey (registry : Registry) (target owning column : String) (nullable : Option Bool) :
    Except SchemaError ForeignKey.Requirement := do
  let targetOwn ← registry.ownSchema target (← registry.registered target)
  let owner ← registry.flatten owning (← registry.registered owning)
  let tablename ← match ← owner.keywords.tablename? with
    | some tablename => pure tablename
    | none => .error (.malformedRelationship (.noTablename owning))
  let referenced ← match ← registry.flatProperty? owner.fields column with
    | some referenced => pure referenced
    | none => .error (.malformedRelationship (.noReferencedProperty owning column))
  let type ← referenced.keywords.primitiveType
  if !type.isScalar then
    .error (.malformedRelationship (.notReferenceable owning column))
  let property := ForeignKey.propertyName tablename column
  let pointsAt := ForeignKey.target tablename column
  match ← registry.flatProperty? targetOwn.fields property with
  | some existing => checkExistingKey target property existing type pointsAt
  | none =>
      let format ← referenced.keywords.format?
      let maxLength ← referenced.keywords.maxLength?
      let schema : Json := .obj (Keyed.set
        (ForeignKey.columnSchema type.spelling format maxLength nullable pointsAt)
        "x-dict-ignore" (.bool true))
      return .missing property schema (← Column.ofSchema schema none)

/-- A schema with a fragment laid over it. -/
def wrap (schema : Json) (fragment : Keyed Json) : Json :=
  .obj [("allOf", .arr [schema, .obj fragment])]

/-- The fragment that adds one property. -/
def propertyFragment (property : String) (schema : Json) : Keyed Json :=
  [("type", .str "object"), ("properties", .obj [(property, schema)])]

/-- Add the foreign key column that an entity needs, unless it has the column. -/
def ensureForeignKey (registry : Registry) (store : ModelStore) (target owning column : String)
    (nullable : Option Bool) : Except SchemaError (Registry × ModelStore) := do
  match ← registry.foreignKey target owning column nullable with
  | .satisfied _ => return (registry, store)
  | .missing property schema key =>
      if ModelStore.isBuilt store target then
        if ModelStore.hasProperty store target property then return (registry, store)
        else return (registry, ← ModelStore.attachColumn store target property schema key)
      else
        let previous := (registry.get? target).getD (.obj [])
        return (← registry.replace target (wrap previous (propertyFragment property schema)), store)

end Registry

end EntityMapping
