import EntityMapping.Json.Basic
import EntityMapping.SchemaError

/-!
The keywords of schemas as values of their types. Where a keyword's value is looked up, on a flat
schema or through references, is left to a reader; what form the value must have is decided here.
-/

set_option autoImplicit false
set_option relaxedAutoImplicit false

namespace EntityMapping

/-- The value of a keyword on an object; null counts as absent. -/
def presentValue? (fields : Keyed Json) (keyword : String) : Option Json :=
  (Keyed.get? fields keyword).filter fun value => !value.isNull

/-- What an entity inherits from. -/
inductive Inherits where
  /-- From the closest entity with a table, or from none. -/
  | enabled (value : Bool)
  /-- From the entity of a name. -/
  | parent (name : String)
  deriving DecidableEq, Repr

/-- The check of a keyword's value. -/
abbrev KeywordForm (α : Type) := String → Json → Except SchemaError α

namespace KeywordForm

def refuse {α : Type} (keyword : String) (expected : ExpectedForm) : Except SchemaError α :=
  .error (.malformedSchema (.wrongForm keyword expected))

def boolean : KeywordForm Bool
  | _, .bool value => .ok value
  | keyword, _ => refuse keyword .boolean

def string : KeywordForm String
  | _, .str value => .ok value
  | keyword, _ => refuse keyword .string

def natural : KeywordForm Nat := fun keyword value =>
  match value.nat? with
  | some number => .ok number
  | none => refuse keyword .nonNegativeInteger

def object : KeywordForm (Keyed Json)
  | _, .obj fields => .ok fields
  | keyword, _ => refuse keyword .object

/-- A schema, which must be an object. -/
def schema : KeywordForm Json
  | _, .obj fields => .ok (.obj fields)
  | keyword, _ => refuse keyword .object

def inherits : KeywordForm Inherits
  | _, .bool value => .ok (.enabled value)
  | _, .str name => .ok (.parent name)
  | keyword, _ => refuse keyword .booleanOrString

end KeywordForm

/-- Whether a value is one of a primitive type. -/
def PrimitiveType.admits : PrimitiveType → Json → Bool
  | .integer, value => value.isInteger
  | .number, value => value.isNumber
  | .string, value => value.isString
  | .boolean, value => value.isBool
  | .object, value => value.isObject
  | .array, value => value.isList

/-- The primitive type with a spelling; others are not supported. -/
def PrimitiveType.parse (text : String) : Except SchemaError PrimitiveType :=
  match PrimitiveType.ofSpelling? text with
  | some type => .ok type
  | none => .error (.notImplemented (.type text))

/-- Where the values of keywords are looked up. -/
abbrev KeywordReader := String → Except SchemaError (Option Json)

namespace KeywordReader

/-- The keywords on an object itself. -/
def ofFields (fields : Keyed Json) : KeywordReader := fun keyword =>
  .ok (presentValue? fields keyword)

/-- The value of a keyword in its form, if it is there. -/
def as {α : Type} (read : KeywordReader) (form : KeywordForm α) (keyword : String) :
    Except SchemaError (Option α) := do
  match ← read keyword with
  | none => return none
  | some value => return some (← form keyword value)

/-- A boolean keyword. -/
def flag? (read : KeywordReader) (keyword : String) : Except SchemaError (Option Bool) :=
  as read .boolean keyword

/-- A boolean keyword that is false where it is absent. -/
def flag (read : KeywordReader) (keyword : String) : Except SchemaError Bool := do
  return (← flag? read keyword).getD false

/-- A keyword with a text. -/
def text? (read : KeywordReader) (keyword : String) : Except SchemaError (Option String) :=
  as read .string keyword

/-- The type as it is written; it must be there. -/
def typeText (read : KeywordReader) : Except SchemaError String := do
  match ← text? read "type" with
  | some text => return text
  | none => .error (.typeMissing .absent)

/-- The primitive type. -/
def primitiveType (read : KeywordReader) : Except SchemaError PrimitiveType := do
  PrimitiveType.parse (← typeText read)

def nullable? (read : KeywordReader) : Except SchemaError (Option Bool) := flag? read "nullable"

def format? (read : KeywordReader) : Except SchemaError (Option String) := text? read "format"

def maxLength? (read : KeywordReader) : Except SchemaError (Option Nat) :=
  as read .natural "maxLength"

def readOnly? (read : KeywordReader) : Except SchemaError (Option Bool) := flag? read "readOnly"

def writeOnly? (read : KeywordReader) : Except SchemaError (Option Bool) := flag? read "writeOnly"

def description? (read : KeywordReader) : Except SchemaError (Option String) :=
  text? read "description"

/-- The schema of the items of a list. -/
def items? (read : KeywordReader) : Except SchemaError (Option Json) := as read .schema "items"

/-- The default value, which must be one of the type. -/
def default? (read : KeywordReader) : Except SchemaError (Option Json) := do
  match ← read "default" with
  | none => return none
  | some value =>
      let type ← primitiveType read
      if type.admits value then return some value
      else .error (.malformedSchema (.defaultMismatch value type))

def tablename? (read : KeywordReader) : Except SchemaError (Option String) :=
  text? read "x-tablename"

def primaryKey? (read : KeywordReader) : Except SchemaError (Option Bool) :=
  flag? read "x-primary-key"

def foreignKey? (read : KeywordReader) : Except SchemaError (Option String) :=
  text? read "x-foreign-key"

def arguments? (read : KeywordReader) : Except SchemaError (Option (Keyed Json)) :=
  as read .object "x-kwargs"

/-- Whether values are stored as JSON. -/
def json? (read : KeywordReader) : Except SchemaError (Option Bool) := flag? read "x-json"

def inherits? (read : KeywordReader) : Except SchemaError (Option Inherits) :=
  as read .inherits "x-inherits"

end KeywordReader

end EntityMapping
