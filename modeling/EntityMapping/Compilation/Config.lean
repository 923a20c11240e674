import EntityMapping.Documents
import EntityMapping.Toml.Reader

/-!
The configuration of a compilation, and reading it from TOML text. Settings that are absent have
their usual values; entries that are no settings do not count.
-/

set_option autoImplicit false
set_option relaxedAutoImplicit false

namespace EntityMapping

/-- The settings of a compilation. -/
structure Config where
  /-- The place of the document that references are taken from. -/
  specPath : Option String
  validateExtensions : Bool
  processBackrefs : Bool
  deriving DecidableEq, Repr

namespace Config

/-- The usual settings. -/
def usual : Config := ⟨none, true, true⟩

def withSpecPath (config : Config) (path : String) : Config := { config with specPath := some path }

def withoutValidation (config : Config) : Config := { config with validateExtensions := false }

def withoutBackrefs (config : Config) : Config := { config with processBackrefs := false }

def refuse {α : Type} (cause : InvalidConfigCause) : Except SchemaError α :=
  .error (.invalidConfig cause)

/-- A setting that is a text. -/
def textSetting (entries : Keyed Toml.Value) (key : String) : Except SchemaError (Option String) :=
  match Keyed.get? entries key with
  | none => .ok none
  | some (.text value) => .ok (some value)
  | some _ => refuse .malformed

/-- A setting that is a boolean. -/
def flagSetting (entries : Keyed Toml.Value) (key : String) (usual : Bool) :
    Except SchemaError Bool :=
  match Keyed.get? entries key with
  | none => .ok usual
  | some (.boolean value) => .ok value
  | some _ => refuse .malformed

/-- The configuration that a TOML text holds. -/
def ofToml (text : String) : Except SchemaError Config :=
  match Toml.read? text with
  | none => refuse .malformed
  | some entries => do
      let specPath ← textSetting entries "spec_path"
      let validate ← flagSetting entries "validate_extensions" usual.validateExtensions
      let backrefs ← flagSetting entries "process_backrefs" usual.processBackrefs
      return ⟨specPath, validate, backrefs⟩

/-- The configuration that a TOML file holds. -/
def ofTomlFile (documents : Documents) (path : String) : Except SchemaError Config :=
  match documents.tree.text? path with
  | some text => ofToml text
  | none => refuse (.unreadable path)

end Config

end EntityMapping
