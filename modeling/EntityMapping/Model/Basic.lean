import EntityMapping.Extension.Composite
import EntityMapping.Relationship.Basic
import EntityMapping.Table.Column

/-!
Models: entities that have a table, with their properties as columns and relationships.
-/

set_option autoImplicit false
set_option relaxedAutoImplicit false

namespace EntityMapping

/-- What a property of a model is. -/
inductive PropertyArtifacts where
  | column (column : Column)
  | relationship (relationship : Relationship)

/-- A property of a model, with the schema that the model records for it. -/
structure ModelProperty where
  name : String
  artifacts : PropertyArtifacts
  schema : Json

/-- All that is needed to build a model. -/
structure Model where
  name : String
  tablename : String
  /-- The entity that the model inherits from. -/
  parent : Option String
  description : Option String
  properties : List ModelProperty
  required : List String
  /-- The properties that relationships of other models imply. -/
  backrefs : Keyed Json
  compositeIndexes : List CompositeIndex
  compositeUniques : List CompositeUnique
  mixins : List String
  /-- Additional arguments. -/
  arguments : Option (Keyed Json)

namespace PropertyArtifacts

def column? : PropertyArtifacts → Option Column
  | .column found => some found
  | .relationship _ => none

def relationship? : PropertyArtifacts → Option Relationship
  | .relationship found => some found
  | .column _ => none

end PropertyArtifacts

namespace Model

/-- A model without properties. -/
def named (name tablename : String) : Model where
  name := name
  tablename := tablename
  parent := none
  description := none
  properties := []
  required := []
  backrefs := []
  compositeIndexes := []
  compositeUniques := []
  mixins := []
  arguments := none

/-- The first property of a name. -/
def property? (model : Model) (name : String) : Option ModelProperty :=
  model.properties.find? fun property => property.name = name

def hasProperty (model : Model) (name : String) : Bool := (model.property? name).isSome

def column? (model : Model) (name : String) : Option Column :=
  (model.property? name).bind fun property => property.artifacts.column?

def relationship? (model : Model) (name : String) : Option Relationship :=
  (model.property? name).bind fun property => property.artifacts.relationship?

/-- The columns with the names of their properties. -/
def columns (model : Model) : Keyed Column :=
  model.properties.filterMap fun property =>
    property.artifacts.column?.map fun column => (property.name, column)

/-- The relationships with the names of their properties. -/
def relationships (model : Model) : Keyed Relationship :=
  model.properties.filterMap fun property =>
    property.artifacts.relationship?.map fun relationship => (property.name, relationship)

/-- The names of the primary key columns. -/
def primaryKeys (model : Model) : List String :=
  (model.columns.filter fun (_, column) => column.primaryKey).map Prod.fst

/-- The schema by which instances are written as dictionaries. -/
def schema (model : Model) : Json :=
  let properties : Keyed Json :=
    Keyed.setAll [] (model.properties.map fun property => (property.name, property.schema))
  let base : Keyed Json :=
    [("type", .str "object"), ("x-tablename", .str model.tablename),
      ("properties", .obj properties)]
  let required := if model.required.isEmpty then none else some (Json.texts model.required)
  let backrefs := if model.backrefs.isEmpty then none else some (Json.obj model.backrefs)
  let withRequired := Keyed.setSome base "required" required
  let withBackrefs := Keyed.setSome withRequired "x-backrefs" backrefs
  .obj (Keyed.setSome withBackrefs "description" (model.description.map .str))

/-- Add a column at the end of the properties. -/
def addColumn (model : Model) (name : String) (schema : Json) (column : Column) : Model :=
  { model with properties := model.properties ++ [⟨name, .column column, schema⟩] }

end Model

end EntityMapping
