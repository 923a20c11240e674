import EntityMapping.Json.Printer
import EntityMapping.Vocabulary.ColumnType

/-!
What can be wrong with schemas. An error has one of seven kinds and a cause within that kind, and
may carry the entities and properties it was found in as context. `SchemaError.message` holds all
of the wording.
-/

set_option autoImplicit false
set_option relaxedAutoImplicit false

namespace EntityMapping

/-- Why a referenced schema or a document could not be found. -/
inductive NotFoundCause where
  /-- A document without entity schemas. -/
  | noSchemas
  /-- An entity to be replaced that is not registered. -/
  | unregistered (name : String)
  | unreadable (path : String)
  | invalidJson (path : String)
  | invalidYaml (path : String)
  | unknownFormat (path : String)
  | rootNotObject (path : String)
  /-- A local reference to something else than an entity. -/
  | notLocal (reference : String)
  /-- A reference without the mark between document and pointer. -/
  | noFragment (reference : String)
  | noDocument (reference : String)
  | noPointer (reference : String)
  | emptySegment (reference : String)
  | missingEntity (reference : String)
  | missingSegment (reference segment document : String)
  /-- A reference into another document while the place of this one is not known. -/
  | unknownPlace (reference : String)
  /-- A chain of references that climbs above the root directory without end. -/
  | endless (reference : String)
  | described (text : String)

/-- Why a required type is missing. -/
inductive TypeMissingCause where
  | absent
  | described (text : String)

/-- The form that a keyword's value must have. -/
inductive ExpectedForm where
  | boolean
  | string
  | nonNegativeInteger
  | object
  | booleanOrString
  deriving DecidableEq

/-- Why a schema is malformed. -/
inductive MalformedSchemaCause where
  /-- Entity schemas that are not given as an object. -/
  | schemasNotObject (found : Json)
  /-- A schema, reached under a name, that is not an object. -/
  | namedNotObject (name : String)
  | notObject
  | referenceNotString
  | allOfNotList
  /-- A reference to a schema that is already being followed, with the way there. -/
  | circular (way : List String)
  | wrongForm (keyword : String) (expected : ExpectedForm)
  | defaultMismatch (value : Json) (type : PrimitiveType)
  | columnNotFlat
  | notStored (type : PrimitiveType)
  | maxLengthUnsupported (type : ColumnType)
  /-- A named parent that the child does not reference. -/
  | parentNotReferenced (name parent : String)
  /-- A child that references no entity with a table. -/
  | noParent (name : String)
  | entityPropertiesNotObject (name : String)
  | propertiesNotObject
  | described (text : String)

/-- Why a relationship is malformed. -/
inductive MalformedRelationshipCause where
  | notObject (property : String)
  | allOfNotList (property : String)
  /-- Neither or both of a reference and a composition. -/
  | notReferenceOrAllOf (property : String)
  | fragmentNotObject (property : String)
  | repeatedKeyword (property keyword : String)
  | missingKeyword (property keyword : String)
  | secondaryOnObject (property secondary : String)
  | noItems (property : String)
  | targetNotObject (property target : String)
  | uselistWithoutBackref (property : String)
  | unregistered (name : String)
  | noTablename (owning : String)
  | noReferencedProperty (owning column : String)
  | notReferenceable (owning column : String)
  | keyTypeDiffers (target property : String) (found : String) (required : PrimitiveType)
  | keyTargetDiffers (target property found required : String)
  | keyTargetMissing (target property required : String)
  /-- A column for a model that has not been built. -/
  | modelNotBuilt (property model : String)
  | conflictingBackrefs (model property : String)
  | backrefTargetUnregistered (model : String)
  | backrefDiffers (model property : String)
  | associatedUnregistered (secondary name : String)
  | associatedNoTablename (secondary name : String)
  | associatedNoPrimaryKey (secondary name : String)
  | associatedManyPrimaryKeys (secondary name : String)
  | associationColumnsClash (secondary column : String)
  | associationConflict (secondary : String)
  | described (text : String)

/-- Why the value of an extension keyword is malformed. -/
inductive MalformedExtensionCause where
  | notString
  | notBoolean
  | notBooleanOrString
  | notObject
  | notTableColumn (text : String)
  | mixinNotString
  | mixinsNotList
  | notImportPath (text : String)
  | repeatedMixin (text : String)
  | reservedArgument (key : String)
  | modelArgument (key : String)
  | backrefNotSchema (name : String)
  | noExpressions
  | noColumns
  | uniqueNotBoolean
  | nameNotString
  | empty
  | notListOrObject
  | columnsNotList
  | columnNotString
  | described (text : String)

/-- What is valid but not supported. -/
inductive UnsupportedCause where
  | type (text : String)
  | format (format : String) (type : PrimitiveType)
  | columnType (type : PrimitiveType)
  | remoteAddress (reference : String)
  | described (text : String)

/-- Why a configuration could not be read. -/
inductive InvalidConfigCause where
  | unreadable (path : String)
  /-- A text that does not hold a configuration. -/
  | malformed
  | described (text : String)

/-- An error in schemas or their configuration. -/
inductive SchemaError where
  | notFound (cause : NotFoundCause)
  | typeMissing (cause : TypeMissingCause)
  | malformedSchema (cause : MalformedSchemaCause)
  | malformedRelationship (cause : MalformedRelationshipCause)
  | malformedExtension (keyword : String) (cause : MalformedExtensionCause)
  | notImplemented (cause : UnsupportedCause)
  | invalidConfig (cause : InvalidConfigCause)
  /-- An error with the entity or property it was found in. -/
  | inContext (context : String) (source : SchemaError)

/-- The kind of an error, whatever its context. -/
inductive ErrorKind where
  | notFound
  | typeMissing
  | malformedSchema
  | malformedRelationship
  | malformedExtension
  | notImplemented
  | invalidConfig
  deriving DecidableEq, Repr

namespace NotFoundCause

def message : NotFoundCause → String
  | .noSchemas => "document has no components.schemas"
  | .unregistered name => name ++ " is not a registered schema"
  | .unreadable path => "failed to read '" ++ path ++ "'"
  | .invalidJson path => "'" ++ path ++ "' is not valid JSON"
  | .invalidYaml path => "'" ++ path ++ "' is not valid YAML"
  | .unknownFormat path => "'" ++ path ++ "' is neither a JSON nor a YAML document"
  | .rootNotObject path => "'" ++ path ++ "' does not contain an object at its root"
  | .notLocal reference => reference ++ " is not a valid local reference"
  | .noFragment reference =>
      reference ++ " is missing the '#' separating document and pointer"
  | .noDocument reference => reference ++ " does not name a document"
  | .noPointer reference => reference ++ " does not contain a JSON pointer"
  | .emptySegment reference => reference ++ " contains an empty pointer segment"
  | .missingEntity reference => reference ++ " was not found"
  | .missingSegment reference segment document =>
      reference ++ ": '" ++ segment ++ "' was not found in " ++ document
  | .unknownPlace reference =>
      reference ++ ": remote references need the spec path to be known"
  | .endless reference => reference ++ " starts a chain of references without end"
  | .described text => text

end NotFoundCause

namespace TypeMissingCause

def message : TypeMissingCause → String
  | .absent => "Every property requires a type"
  | .described text => text

end TypeMissingCause

namespace ExpectedForm

def message : ExpectedForm → String
  | .boolean => "boolean"
  | .string => "string"
  | .nonNegativeInteger => "non-negative integer"
  | .object => "object"
  | .booleanOrString => "boolean or string"

end ExpectedForm

namespace MalformedSchemaCause

def message : MalformedSchemaCause → String
  | .schemasNotObject found => "schemas must be an object, found " ++ found.compact
  | .namedNotObject name => name ++ ": schemas must be objects"
  | .notObject => "schemas must be objects"
  | .referenceNotString => "A $ref value must be of type string"
  | .allOfNotList => "An allOf value must be a list"
  | .circular way => "circular reference detected: " ++ String.intercalate " -> " way
  | .wrongForm keyword expected => "A " ++ keyword ++ " value must be of type " ++ expected.message
  | .defaultMismatch value type =>
      "The default value " ++ value.compact ++ " does not match the type " ++ type.spelling
  | .columnNotFlat => "columns are compiled from resolved schemas"
  | .notStored type =>
      type.spelling ++ " properties are relationships unless they set x-json"
  | .maxLengthUnsupported type =>
      "maxLength is not supported for " ++ type.displayName ++ " columns"
  | .parentNotReferenced name parent =>
      name ++ " inherits from " ++ parent ++ ", which it does not reference"
  | .noParent name => name ++ " inherits but references no entity with a x-tablename"
  | .entityPropertiesNotObject name => name ++ ": properties must be an object"
  | .propertiesNotObject => "properties must be an object"
  | .described text => text

end MalformedSchemaCause

namespace MalformedRelationshipCause

def message : MalformedRelationshipCause → String
  | .notObject property => property ++ ": the schema must be an object"
  | .allOfNotList property => property ++ ": allOf must be a list"
  | .notReferenceOrAllOf property =>
      property ++ ": a relationship requires exactly one of $ref or allOf"
  | .fragmentNotObject property => property ++ ": allOf fragments must be objects"
  | .repeatedKeyword property keyword =>
      property ++ ": " ++ keyword ++ " is defined more than once"
  | .missingKeyword property keyword => property ++ ": a relationship requires a " ++ keyword
  | .secondaryOnObject property secondary =>
      property ++ ": object relationships cannot use the secondary table " ++ secondary
  | .noItems property => property ++ ": array relationships require items"
  | .targetNotObject property target =>
      property ++ ": the referenced schema " ++ target ++ " must be of type object"
  | .uselistWithoutBackref property => property ++ ": x-uselist requires x-backref"
  | .unregistered name => name ++ " is not a registered schema"
  | .noTablename owning => owning ++ " has no x-tablename to reference"
  | .noReferencedProperty owning column =>
      owning ++ " has no " ++ column ++ " property for the foreign key to reference"
  | .notReferenceable owning column =>
      owning ++ "." ++ column ++ " cannot be referenced by a foreign key"
  | .keyTypeDiffers target property found required =>
      target ++ "." ++ property ++ " has the type " ++ found ++ ", the foreign key requires " ++
        required.spelling
  | .keyTargetDiffers target property found required =>
      target ++ "." ++ property ++ " references " ++ found ++ ", the foreign key requires " ++
        required
  | .keyTargetMissing target property required =>
      target ++ "." ++ property ++ " must set x-foreign-key to " ++ required
  | .modelNotBuilt property model =>
      "cannot add " ++ property ++ " to " ++ model ++ ", which has not been built"
  | .conflictingBackrefs model property =>
      model ++ "." ++ property ++ " is defined as a back reference twice with different schemas"
  | .backrefTargetUnregistered model =>
      "back references can only be added to registered schemas, " ++ model ++ " is not one"
  | .backrefDiffers model property =>
      model ++ "." ++ property ++ " already has a different back reference"
  | .associatedUnregistered secondary name =>
      secondary ++ ": " ++ name ++ " is not a registered schema"
  | .associatedNoTablename secondary name => secondary ++ ": " ++ name ++ " has no x-tablename"
  | .associatedNoPrimaryKey secondary name => secondary ++ ": " ++ name ++ " has no primary key"
  | .associatedManyPrimaryKeys secondary name =>
      secondary ++ ": " ++ name ++
        " must have exactly one primary key for a many-to-many relationship"
  | .associationColumnsClash secondary column =>
      secondary ++ ": both columns of the association table would be called " ++ column
  | .associationConflict secondary =>
      "the association table " ++ secondary ++ " is defined twice with different columns"
  | .described text => text

end MalformedRelationshipCause

namespace MalformedExtensionCause

def message : MalformedExtensionCause → String
  | .notString => "must be a string"
  | .notBoolean => "must be a boolean"
  | .notBooleanOrString => "must be a boolean or a string"
  | .notObject => "must be an object"
  | .notTableColumn text => "'" ++ text ++ "' is not of the form <table>.<column>"
  | .mixinNotString => "every mixin must be a string"
  | .mixinsNotList => "must be a string or a non-empty list of strings"
  | .notImportPath text => "'" ++ text ++ "' is not a dotted import path"
  | .repeatedMixin text => "'" ++ text ++ "' is listed more than once"
  | .reservedArgument key => "the '" ++ key ++ "' key is not allowed here"
  | .modelArgument key => "model keys must be of the form __<name>__, found '" ++ key ++ "'"
  | .backrefNotSchema name => "'" ++ name ++ "' must map to a schema"
  | .noExpressions => "an index object requires expressions"
  | .noColumns => "a unique constraint object requires columns"
  | .uniqueNotBoolean => "unique must be a boolean"
  | .nameNotString => "name must be a string"
  | .empty => "must not be empty"
  | .notListOrObject => "must be a list or an object"
  | .columnsNotList => "columns must be a non-empty list"
  | .columnNotString => "columns must be strings"
  | .described text => text

end MalformedExtensionCause

namespace UnsupportedCause

def message : UnsupportedCause → String
  | .type text => text ++ " type is not supported"
  | .format name primitive =>
      name ++ " format for " ++ primitive.spelling ++ " is not supported"
  | .columnType primitive => primitive.spelling ++ " is not supported as a column type"
  | .remoteAddress reference => reference ++ ": references to remote URLs are not supported"
  | .described text => text

end UnsupportedCause

namespace InvalidConfigCause

def message : InvalidConfigCause → String
  | .unreadable path => "failed to read '" ++ path ++ "'"
  | .malformed => "the text does not hold a configuration"
  | .described text => text

end InvalidConfigCause

namespace SchemaError

/-- The whole text of an error, context included. -/
def message : SchemaError → String
  | .notFound cause => "Schema not found: " ++ cause.message
  | .typeMissing cause => "Type missing: " ++ cause.message
  | .malformedSchema cause => "Malformed schema: " ++ cause.message
  | .malformedRelationship cause => "Malformed relationship: " ++ cause.message
  | .malformedExtension keyword cause =>
      "Malformed extension property '" ++ keyword ++ "': " ++ cause.message
  | .notImplemented cause => "Feature not implemented: " ++ cause.message
  | .invalidConfig cause => "Invalid configuration: " ++ cause.message
  | .inContext context source => context ++ ": " ++ source.message

/-- The kind of an error, looking through its context. -/
def kind : SchemaError → ErrorKind
  | .notFound _ => .notFound
  | .typeMissing _ => .typeMissing
  | .malformedSchema _ => .malformedSchema
  | .malformedRelationship _ => .malformedRelationship
  | .malformedExtension _ _ => .malformedExtension
  | .notImplemented _ => .notImplemented
  | .invalidConfig _ => .invalidConfig
  | .inContext _ source => source.kind

/-- The error without its context. -/
def root : SchemaError → SchemaError
  | .inContext _ source => source.root
  | error => error

/-- Whether a schema, a relationship or an extension keyword is malformed. -/
def isMalformed (error : SchemaError) : Bool :=
  error.kind = .malformedSchema || error.kind = .malformedRelationship ||
    error.kind = .malformedExtension

/-- Whether something referenced was not found. -/
def isNotFound (error : SchemaError) : Bool := error.kind = .notFound

@[simp] theorem kind_root (error : SchemaError) : error.root.kind = error.kind := by
  induction error with
  | inContext context source ih => simpa [root, kind] using ih
  | _ => rfl

end SchemaError

/-- Add the entity or property that a computation is about to its error. -/
def inContext {α : Type} (context : String) (result : Except SchemaError α) :
    Except SchemaError α :=
  result.mapError (SchemaError.inContext context)

end EntityMapping
