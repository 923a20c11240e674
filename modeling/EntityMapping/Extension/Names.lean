import EntityMapping.SchemaError
import EntityMapping.Text.Dotted

/-!
Extension keywords whose values are names: the column that a foreign key points at, and the import
paths of mixins.
-/

set_option autoImplicit false
set_option relaxedAutoImplicit false

namespace EntityMapping

namespace Extension

/-- An error in the value of a keyword. -/
def refuse {α : Type} (keyword : String) (cause : MalformedExtensionCause) :
    Except SchemaError α :=
  .error (.malformedExtension keyword cause)

/-- The table and column that a foreign key points at, with a dot between them. -/
def foreignKeyTarget (text : String) : Except SchemaError String :=
  if Text.isTableColumn text then .ok text else refuse "x-foreign-key" (.notTableColumn text)

/-- The value of `x-foreign-key`. -/
def foreignKey : Json → Except SchemaError String
  | .str text => foreignKeyTarget text
  | _ => refuse "x-foreign-key" .notString

/-- The texts of the mixins that are listed. -/
def mixinTexts (items : List Json) : Except SchemaError (List String) :=
  items.mapM fun item =>
    match item with
    | .str text => .ok text
    | _ => refuse "x-mixins" .mixinNotString

/-- Check one import path after those before it. -/
def addMixin (known : List String) (path : String) : Except SchemaError (List String) :=
  if !Text.isImportPath path then refuse "x-mixins" (.notImportPath path)
  else if known.contains path then refuse "x-mixins" (.repeatedMixin path)
  else .ok (known ++ [path])

/-- The value of `x-mixins`: one import path, or a list of different ones. -/
def mixins : Json → Except SchemaError (List String)
  | .str path => [path].foldlM addMixin []
  | .arr items =>
      if items.isEmpty then refuse "x-mixins" .mixinsNotList
      else do (← mixinTexts items).foldlM addMixin []
  | _ => refuse "x-mixins" .mixinsNotList

end Extension

end EntityMapping
