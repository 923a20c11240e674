import EntityMapping.Extension.Arguments
import EntityMapping.Schema.Effective
import EntityMapping.Vocabulary.ColumnType

/-!
Columns: what a flat property that is stored in one column amounts to. Whether a column accepts
null is always decided.
-/

set_option autoImplicit false
set_option relaxedAutoImplicit false

namespace EntityMapping

/-- All that is needed to build a column. -/
structure Column where
  type : PrimitiveType
  columnType : ColumnType
  format : Option String
  maxLength : Option Nat
  nullable : Bool
  primaryKey : Bool
  autoincrement : Bool
  index : Bool
  unique : Bool
  /-- The column that is referenced, as table and column with a dot between them. -/
  foreignKey : Option String
  /-- The default value, of the column's type. -/
  default : Option Json
  description : Option String
  /-- Additional arguments. -/
  arguments : Option (Keyed Json)
  /-- Whether the column is left out where instances are written as dictionaries. -/
  dictIgnore : Bool
  readOnly : Bool
  writeOnly : Bool

namespace Column

/-- Equality of columns, whatever the order of keys in their values. -/
def sameValue (a b : Column) : Bool :=
  a.type == b.type && a.columnType == b.columnType && a.format == b.format &&
    a.maxLength == b.maxLength && a.nullable == b.nullable && a.primaryKey == b.primaryKey &&
    a.autoincrement == b.autoincrement && a.index == b.index && a.unique == b.unique &&
    a.foreignKey == b.foreignKey && a.default == b.default && a.description == b.description &&
    a.arguments.map Json.obj == b.arguments.map Json.obj && a.dictIgnore == b.dictIgnore &&
    a.readOnly == b.readOnly && a.writeOnly == b.writeOnly

/-- Whether a column accepts null: as the schema says, and if it says nothing, unless the property
is required, generated or defaulted. -/
def decideNullable (stated required : Option Bool) (generated defaulted : Bool) : Bool :=
  match stated with
  | some nullable => nullable
  | none => !(required = some true || generated || defaulted)

/-- The storage type of a scalar type with a format. -/
def scalarType (type : PrimitiveType) (format : Option String) : Except SchemaError ColumnType :=
  match ColumnType.ofFormat? type format, format with
  | some columnType, _ => .ok columnType
  | none, some name => .error (.notImplemented (.format name type))
  | none, none => .error (.notImplemented (.columnType type))

/-- The storage type of a column. Objects and lists are stored only as JSON. -/
def storageType (type : PrimitiveType) (json : Bool) (format : Option String) :
    Except SchemaError ColumnType :=
  if json then .ok .json
  else if type.isScalar then scalarType type format
  else .error (.malformedSchema (.notStored type))

/-- The column of a property with the given keywords. `required` says whether the entity requires
the property, where that is known. -/
def ofKeywords (read : KeywordReader) (required : Option Bool) : Except SchemaError Column := do
  let type ← read.primitiveType
  let json ← read.flag "x-json"
  let format ← read.format?
  let columnType ← storageType type json format
  let maxLength ← read.maxLength?
  if maxLength.isSome && !columnType.supportsMaxLength then
    .error (.malformedSchema (.maxLengthUnsupported columnType))
  let foreignKey ← (← read.foreignKey?).mapM Extension.foreignKeyTarget
  let arguments ← read.arguments?
  arguments.forM (Extension.checkArguments .column)
  let autoincrement ← read.flag "x-autoincrement"
  let default ← read.default?
  let stated ← read.nullable?
  let primaryKey ← read.flag "x-primary-key"
  let index ← read.flag "x-index"
  let unique ← read.flag "x-unique"
  let description ← read.description?
  let dictIgnore ← read.flag "x-dict-ignore"
  let readOnly ← read.flag "readOnly"
  let writeOnly ← read.flag "writeOnly"
  return {
    type := type
    columnType := columnType
    format := format
    maxLength := maxLength
    nullable := decideNullable stated required autoincrement default.isSome
    primaryKey := primaryKey
    autoincrement := autoincrement
    index := index
    unique := unique
    foreignKey := foreignKey
    default := default
    description := description
    arguments := arguments
    dictIgnore := dictIgnore
    readOnly := readOnly
    writeOnly := writeOnly }

/-- The column of a flat schema. -/
def ofSchema (schema : Json) (required : Option Bool) : Except SchemaError Column :=
  match schema with
  | .obj fields =>
      if schema.isFlat then ofKeywords (KeywordReader.ofFields fields) required
      else .error (.malformedSchema .columnNotFlat)
  | _ => .error (.malformedSchema .columnNotFlat)

end Column

end EntityMapping
