import EntityMapping.Extension.Names

/-!
Additional arguments, given with `x-kwargs`, for what an entity, a column or a relationship is
built from. Arguments that are set otherwise may not be given; those of an entity are names
between double low lines.
-/

set_option autoImplicit false
set_option relaxedAutoImplicit false

namespace EntityMapping

namespace Extension

/-- What the arguments are for. -/
inductive Level where
  | entity
  | column
  | relationship
  deriving DecidableEq, Repr

/-- The arguments that are set otherwise. -/
def Level.reserved : Level → List String
  | .entity => ["__tablename__", "__table_args__"]
  | .column =>
      ["nullable", "default", "primary_key", "autoincrement", "index", "unique", "type_"]
  | .relationship => ["backref", "secondary"]

/-- Check the name of an argument. -/
def checkArgument (level : Level) (key : String) : Except SchemaError Unit :=
  if level.reserved.contains key then refuse "x-kwargs" (.reservedArgument key)
  else if level = .entity && !Text.isDunder key then refuse "x-kwargs" (.modelArgument key)
  else .ok ()

/-- Check the names of all arguments. -/
def checkArguments (level : Level) (given : Keyed Json) : Except SchemaError Unit :=
  given.forM fun (key, _) => checkArgument level key

/-- The value of `x-kwargs`. -/
def arguments (level : Level) : Json → Except SchemaError (Keyed Json)
  | .obj given => do
      checkArguments level given
      return given
  | _ => refuse "x-kwargs" .notObject

end Extension

end EntityMapping
