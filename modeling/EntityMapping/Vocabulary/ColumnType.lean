import EntityMapping.Vocabulary.PrimitiveType

/-!
The storage types of columns, and the storage type that a primitive type with a format maps to.
-/

set_option autoImplicit false
set_option relaxedAutoImplicit false

namespace EntityMapping

/-- A storage type of a column. -/
inductive ColumnType where
  /-- A signed integer of 32 bits. -/
  | integer
  /-- A signed integer of 64 bits. -/
  | bigInteger
  | float
  /-- Text, with a greatest length if one is set. -/
  | string
  /-- Bytes, with a greatest length if one is set. -/
  | binary
  | date
  | dateTime
  | boolean
  /-- Any JSON value. -/
  | json
  deriving DecidableEq, Repr

namespace ColumnType

/-- The storage type of a scalar type with a format. Objects and lists have none: they are stored
as JSON only where a schema asks for it. -/
def ofFormat? : PrimitiveType → Option String → Option ColumnType
  | .integer, none => some .integer
  | .integer, some format =>
      if format = "int32" then some .integer
      else if format = "int64" then some .bigInteger
      else none
  | .number, none => some .float
  | .number, some format => if format = "float" then some .float else none
  | .string, none => some .string
  | .string, some format =>
      if format = "byte" || format = "password" then some .string
      else if format = "binary" then some .binary
      else if format = "date" then some .date
      else if format = "date-time" then some .dateTime
      else none
  | .boolean, none => some .boolean
  | _, _ => none

/-- Whether columns of the type honour a greatest length. -/
def supportsMaxLength : ColumnType → Bool
  | .string => true
  | .binary => true
  | _ => false

/-- The name that messages use. -/
def displayName : ColumnType → String
  | .integer => "Integer"
  | .bigInteger => "BigInteger"
  | .float => "Float"
  | .string => "String"
  | .binary => "LargeBinary"
  | .date => "Date"
  | .dateTime => "DateTime"
  | .boolean => "Boolean"
  | .json => "JSON"

/-- The spelling in stored artifacts. -/
def spelling : ColumnType → String
  | .integer => "integer"
  | .bigInteger => "big_integer"
  | .float => "float"
  | .string => "string"
  | .binary => "binary"
  | .date => "date"
  | .dateTime => "date_time"
  | .boolean => "boolean"
  | .json => "json"

/-- The storage type with a spelling. -/
def ofSpelling? (text : String) : Option ColumnType :=
  [.integer, .bigInteger, .float, .string, .binary, .date, .dateTime, .boolean, .json].find?
    fun type => type.spelling == text

theorem ofSpelling?_spelling (type : ColumnType) : ofSpelling? type.spelling = some type := by
  cases type <;> decide

end ColumnType

end EntityMapping
