import EntityMapping.Artifacts.Column
import EntityMapping.Artifacts.Relationship

/-!
Models and what they consist of as JSON values. The artifacts of a property say which kind they
are of.
-/

set_option autoImplicit false
set_option relaxedAutoImplicit false

namespace EntityMapping

namespace CompositeIndex

def toJson (index : CompositeIndex) : Json :=
  .obj [("name", Record.orNull (index.name.map .str)),
    ("expressions", Json.texts index.expressions), ("unique", .bool index.unique)]

def ofJson? (value : Json) : Option CompositeIndex := do
  let record ← Record.ofJson? ["name", "expressions", "unique"] 0 value
  return ⟨← record.maybe "name" Json.string?,
    ← record.need "expressions" (Record.listOf? Json.string?),
    ← record.need "unique" Json.bool?⟩

end CompositeIndex

namespace CompositeUnique

def toJson (constraint : CompositeUnique) : Json :=
  .obj [("name", Record.orNull (constraint.name.map .str)),
    ("columns", Json.texts constraint.columns)]

def ofJson? (value : Json) : Option CompositeUnique := do
  let record ← Record.ofJson? ["name", "columns"] 0 value
  return ⟨← record.maybe "name" Json.string?,
    ← record.need "columns" (Record.listOf? Json.string?)⟩

end CompositeUnique

namespace PropertyArtifacts

def toJson : PropertyArtifacts → Json
  | .column found => .obj (("kind", .str "column") :: found.toFields)
  | .relationship found => .obj (("kind", .str "relationship") :: found.toFields)

/-- Read artifacts whose kind is known. -/
def ofKind? (kind : Json) (value : Json) : Option PropertyArtifacts :=
  match kind with
  | .str "column" => do
      return .column (← Column.ofRecord? true (← Record.ofJson? Column.fieldNames 0 value))
  | .str "relationship" => do
      let record ← Record.ofJson? Relationship.fieldNames 0 value
      return .relationship (← Relationship.ofRecord? true record)
  | _ => none

/-- Read artifacts. A list begins with the kind. -/
def ofJson? (value : Json) : Option PropertyArtifacts :=
  match value with
  | .obj fields => (Keyed.get? fields "kind").bind fun kind => ofKind? kind value
  | .arr (kind :: items) => ofKind? kind (.arr items)
  | _ => none

end PropertyArtifacts

namespace ModelProperty

def toJson (property : ModelProperty) : Json :=
  .obj [("name", .str property.name), ("artifacts", property.artifacts.toJson),
    ("schema", property.schema)]

def ofJson? (value : Json) : Option ModelProperty := do
  let record ← Record.ofJson? ["name", "artifacts", "schema"] 0 value
  return ⟨← record.need "name" Json.string?, ← record.need "artifacts" PropertyArtifacts.ofJson?,
    ← record.need "schema" some⟩

end ModelProperty

namespace Model

/-- The fields of a model in order. -/
def fieldNames : List String :=
  ["name", "tablename", "parent", "description", "properties", "required", "backrefs",
    "composite_indexes", "composite_uniques", "mixins", "kwargs"]

/-- The fields of a written model. -/
def toFields (model : Model) : Keyed Json :=
  Record.always "name" (.str model.name) ++
  Record.always "tablename" (.str model.tablename) ++
  Record.sometimes "parent" (model.parent.map .str) ++
  Record.sometimes "description" (model.description.map .str) ++
  Record.always "properties" (.arr (model.properties.map ModelProperty.toJson)) ++
  Record.always "required" (Json.texts model.required) ++
  Record.always "backrefs" (.obj model.backrefs) ++
  Record.always "composite_indexes" (.arr (model.compositeIndexes.map CompositeIndex.toJson)) ++
  Record.always "composite_uniques" (.arr (model.compositeUniques.map CompositeUnique.toJson)) ++
  Record.always "mixins" (Json.texts model.mixins) ++
  Record.sometimes "kwargs" (model.arguments.map .obj)

def toJson (model : Model) : Json := .obj model.toFields

/-- Read a model. -/
def ofJson? (value : Json) : Option Model := do
  let record ← Record.ofJson? fieldNames 0 value
  return {
    name := ← record.need "name" Json.string?
    tablename := ← record.need "tablename" Json.string?
    parent := ← record.maybe "parent" Json.string?
    description := ← record.maybe "description" Json.string?
    properties := ← record.need "properties" (Record.listOf? ModelProperty.ofJson?)
    required := ← record.orUsual "required" [] (Record.listOf? Json.string?)
    backrefs := ← record.orUsual "backrefs" [] Json.fields?
    compositeIndexes :=
      ← record.orUsual "composite_indexes" [] (Record.listOf? CompositeIndex.ofJson?)
    compositeUniques :=
      ← record.orUsual "composite_uniques" [] (Record.listOf? CompositeUnique.ofJson?)
    mixins := ← record.orUsual "mixins" [] (Record.listOf? Json.string?)
    arguments := ← record.maybe "kwargs" Json.fields? }

end Model

end EntityMapping
