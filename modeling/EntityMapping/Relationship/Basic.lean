import EntityMapping.Json.Basic
import EntityMapping.Vocabulary.Cardinality

/-!
Relationships: properties that hold one instance of another entity, or a list of them.
-/

set_option autoImplicit false
set_option relaxedAutoImplicit false

namespace EntityMapping

/-- What a relationship property holds. -/
inductive RelationshipType where
  /-- One instance. -/
  | object
  /-- A list of instances. -/
  | array
  deriving DecidableEq, Repr

/-- The property on the other side of a relationship. -/
structure Backref where
  name : String
  /-- Whether the property is a list, where that is said. -/
  uselist : Option Bool
  deriving DecidableEq, Repr

/-- All that is needed to build a relationship. -/
structure Relationship where
  type : RelationshipType
  /-- The entity that is referenced. -/
  modelName : String
  /-- The column that the foreign key points at. -/
  foreignKeyColumn : String
  /-- Whether an object relationship may be empty. -/
  nullable : Option Bool
  description : Option String
  writeOnly : Option Bool
  backref : Option Backref
  /-- The association table of a many to many relationship. -/
  secondary : Option String
  /-- Additional arguments. -/
  arguments : Option (Keyed Json)

namespace Relationship

/-- The column that foreign keys point at unless another one is named. -/
def defaultForeignKeyColumn : String := "id"

/-- A relationship to an entity of which nothing more is said. -/
def toEntity (type : RelationshipType) (modelName : String) : Relationship where
  type := type
  modelName := modelName
  foreignKeyColumn := defaultForeignKeyColumn
  nullable := none
  description := none
  writeOnly := none
  backref := none
  secondary := none
  arguments := none

def withBackref (relationship : Relationship) (name : String) (uselist : Option Bool) :
    Relationship :=
  { relationship with backref := some ⟨name, uselist⟩ }

def withSecondary (relationship : Relationship) (secondary : String) : Relationship :=
  { relationship with secondary := some secondary }

def withNullable (relationship : Relationship) (nullable : Bool) : Relationship :=
  { relationship with nullable := some nullable }

/-- Whether the back reference is said not to be a list. -/
def hasSingleBackref (relationship : Relationship) : Bool :=
  relationship.backref.any fun backref => backref.uselist = some false

/-- An object relationship is many to one unless its back reference is not a list; a list is one
to many unless it goes through an association table. -/
def cardinality (relationship : Relationship) : Cardinality :=
  match relationship.type, relationship.secondary with
  | .array, some secondary => .manyToMany secondary
  | .array, none => .oneToMany
  | .object, _ => if relationship.hasSingleBackref then .oneToOne else .manyToOne

/-- The schema that stands for a reference to an entity. -/
def referenceSchema (modelName : String) : Keyed Json :=
  [("type", .str "object"), ("x-de-$ref", .str modelName)]

/-- The schema of a list of references to an entity. -/
def listSchema (modelName : String) : Keyed Json :=
  [("type", .str "array"), ("items", .obj (referenceSchema modelName))]

/-- The schema that a model records for the property in place of the reference. -/
def propertySchema (relationship : Relationship) : Json :=
  let reference := match relationship.type with
    | .object => referenceSchema relationship.modelName
    | .array => listSchema relationship.modelName
  let nullable := Keyed.setSome reference "nullable" (relationship.nullable.map .bool)
  let described := Keyed.setSome nullable "description" (relationship.description.map .str)
  .obj (Keyed.setSome described "writeOnly" (relationship.writeOnly.map .bool))

/-- The schema of the property on the other side. It is a list unless the relationship says
otherwise, or comes from a list that has no association table. -/
def reverseSchema (owner : String) (relationship : Relationship) : Json :=
  let isList := match relationship.type with
    | .object => !relationship.hasSingleBackref
    | .array => relationship.cardinality.needsAssociationTable
  .obj (if isList then listSchema owner else referenceSchema owner)

end Relationship

end EntityMapping
