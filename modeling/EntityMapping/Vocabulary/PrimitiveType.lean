/-!
The primitive types that a schema may declare with its `type` keyword.
-/

set_option autoImplicit false
set_option relaxedAutoImplicit false

namespace EntityMapping

/-- A primitive type of a schema. -/
inductive PrimitiveType where
  | integer
  | number
  | string
  | boolean
  | object
  | array
  deriving DecidableEq, Repr

namespace PrimitiveType

/-- The spelling of a type in a schema. -/
def spelling : PrimitiveType → String
  | .integer => "integer"
  | .number => "number"
  | .string => "string"
  | .boolean => "boolean"
  | .object => "object"
  | .array => "array"

/-- The type with a spelling. -/
def ofSpelling? (text : String) : Option PrimitiveType :=
  if text = "integer" then some .integer
  else if text = "number" then some .number
  else if text = "string" then some .string
  else if text = "boolean" then some .boolean
  else if text = "object" then some .object
  else if text = "array" then some .array
  else none

/-- Whether values of the type fill a single scalar column. -/
def isScalar : PrimitiveType → Bool
  | .object => false
  | .array => false
  | _ => true

theorem ofSpelling?_spelling (type : PrimitiveType) : ofSpelling? type.spelling = some type := by
  cases type <;> decide

end PrimitiveType

end EntityMapping
