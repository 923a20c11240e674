import EntityMapping.Extension.Arguments
import EntityMapping.Extension.Composite
import EntityMapping.Schema.Effective

/-!
The validation of extension keywords: every keyword that this library knows must have a value of
its form, wherever it is written on an entity or its properties. What a property refers to is
validated as an entity of its own.
-/

set_option autoImplicit false
set_option relaxedAutoImplicit false

namespace EntityMapping

namespace Extension

/-- The form of a keyword's value. -/
inductive Form where
  | string
  | boolean
  | booleanOrString
  | foreignKey
  | mixins
  | arguments
  | backrefs
  | compositeIndex
  | compositeUnique
  deriving DecidableEq, Repr

/-- The extension keywords with the forms of their values. -/
def forms : List (String × Form) :=
  [("x-tablename", .string),
    ("x-backref", .string),
    ("x-secondary", .string),
    ("x-foreign-key-column", .string),
    ("x-de-$ref", .string),
    ("x-primary-key", .boolean),
    ("x-autoincrement", .boolean),
    ("x-index", .boolean),
    ("x-unique", .boolean),
    ("x-uselist", .boolean),
    ("x-json", .boolean),
    ("x-dict-ignore", .boolean),
    ("x-inherits", .booleanOrString),
    ("x-foreign-key", .foreignKey),
    ("x-mixins", .mixins),
    ("x-kwargs", .arguments),
    ("x-backrefs", .backrefs),
    ("x-composite-index", .compositeIndex),
    ("x-composite-unique", .compositeUnique)]

/-- Back references map names to schemas. -/
def checkBackrefs : Json → Except SchemaError Unit
  | .obj backrefs =>
      match backrefs.find? fun (_, schema) => !schema.isObject with
      | some (name, _) => refuse "x-backrefs" (.backrefNotSchema name)
      | none => .ok ()
  | _ => refuse "x-backrefs" .notObject

/-- Check a value against a form. -/
def Form.check (form : Form) (keyword : String) (value : Json) (level : Level) :
    Except SchemaError Unit :=
  match form with
  | .string => if value.isString then .ok () else refuse keyword .notString
  | .boolean => if value.isBool then .ok () else refuse keyword .notBoolean
  | .booleanOrString =>
      if value.isBool || value.isString then .ok () else refuse keyword .notBooleanOrString
  | .foreignKey => do let _ ← Extension.foreignKey value
  | .mixins => do let _ ← Extension.mixins value
  | .arguments => do let _ ← Extension.arguments level value
  | .backrefs => checkBackrefs value
  | .compositeIndex => do let _ ← compositeIndexes value
  | .compositeUnique => do let _ ← compositeUniques value

/-- Check the value of a keyword. Keywords that are no extensions are not checked. -/
def checkKeyword (keyword : String) (value : Json) (level : Level) : Except SchemaError Unit :=
  match Keyed.get? forms keyword with
  | some form => form.check keyword value level
  | none => .ok ()

mutual

/-- Check the keywords written on a property, on its fragments and on its items. -/
def checkWritten (level : Level) : Json → Except SchemaError Unit
  | .obj fields => checkWrittenFields level fields
  | _ => .ok ()

def checkWrittenFields (level : Level) : List (String × Json) → Except SchemaError Unit
  | [] => .ok ()
  | (key, value) :: rest => do
      checkWrittenField level key value
      checkWrittenFields level rest

def checkWrittenField (level : Level) (key : String) : Json → Except SchemaError Unit
  | .arr items =>
      if key = "allOf" then checkWrittenItems level items
      else if key = "items" then .ok ()
      else checkKeyword key (.arr items) level
  | .obj fields =>
      if key = "allOf" then .ok ()
      else if key = "items" then checkWrittenFields level fields
      else checkKeyword key (.obj fields) level
  | value => if key = "allOf" || key = "items" then .ok () else checkKeyword key value level

def checkWrittenItems (level : Level) : List Json → Except SchemaError Unit
  | [] => .ok ()
  | item :: rest => do
      checkWritten level item
      checkWrittenItems level rest

end

/-- Whether a flat property is a relationship: an object or a list that is not stored as JSON. A
property whose type cannot be told is none. -/
def isRelationship (flat : FlatSchema) : Except SchemaError Bool :=
  match flat.keywords.primitiveType with
  | .ok .object => do return (← flat.keywords.json?) ≠ some true
  | .ok .array => do return (← flat.keywords.json?) ≠ some true
  | _ => .ok false

end Extension

namespace Registry

/-- Validate the extension keywords of a property. -/
def validateProperty (registry : Registry) (name : String) (schema : Json) :
    Except SchemaError Unit := do
  let flat ← registry.flatten name schema
  let level :=
    if ← Extension.isRelationship flat then Extension.Level.relationship
    else Extension.Level.column
  Extension.checkWritten level schema

/-- Validate the extension keywords of an entity and of its properties. -/
def validateEntity (registry : Registry) (name : String) (schema : Json) :
    Except SchemaError Unit := do
  let flat ← registry.flatten name schema
  flat.fields.forM fun (key, value) =>
    inContext name (Extension.checkKeyword key value .entity)
  match Keyed.get? flat.fields "properties" with
  | none => return
  | some (.obj properties) =>
      properties.forM fun (property, propertySchema) =>
        inContext (name ++ "." ++ property) (registry.validateProperty property propertySchema)
  | some _ => .error (.malformedSchema (.entityPropertiesNotObject name))

end Registry

end EntityMapping
