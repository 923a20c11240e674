import EntityMapping.Artifacts.Model
import EntityMapping.Compilation.Run

/-!
Configurations and compiled schemas as JSON values.
-/

set_option autoImplicit false
set_option relaxedAutoImplicit false

namespace EntityMapping

namespace Config

def toJson (config : Config) : Json :=
  .obj [("spec_path", Record.orNull (config.specPath.map .str)),
    ("validate_extensions", .bool config.validateExtensions),
    ("process_backrefs", .bool config.processBackrefs)]

/-- Read a configuration. Settings that are absent have their usual values. -/
def ofJson? (value : Json) : Option Config := do
  let record ← Record.ofJson? ["spec_path", "validate_extensions", "process_backrefs"] 0 value
  return {
    specPath := ← record.maybe "spec_path" Json.string?
    validateExtensions :=
      ← record.orUsual "validate_extensions" usual.validateExtensions Json.bool?
    processBackrefs := ← record.orUsual "process_backrefs" usual.processBackrefs Json.bool? }

end Config

namespace CompiledSchema

def toJson (compiled : CompiledSchema) : Json :=
  .obj [("models", .arr (compiled.models.map Model.toJson)),
    ("association_tables", .arr (compiled.associationTables.map AssociationTable.toJson))]

end CompiledSchema

end EntityMapping
