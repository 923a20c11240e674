import EntityMapping.Extension.Names

/-!
Indexes and unique constraints over several columns. Each keyword takes one of four notations: a
list of columns, a list of such lists, an object, or a list of objects and lists.
-/

set_option autoImplicit false
set_option relaxedAutoImplicit false

namespace EntityMapping

/-- An index over columns or expressions. -/
structure CompositeIndex where
  name : Option String
  expressions : List String
  unique : Bool
  deriving DecidableEq, Repr

/-- A unique constraint over columns. -/
structure CompositeUnique where
  name : Option String
  columns : List String
  deriving DecidableEq, Repr

namespace Extension

/-- The entries of a composite keyword: one for every index or constraint. -/
def compositeEntries (keyword : String) : Json → Except SchemaError (List Json)
  | .obj fields => .ok [.obj fields]
  | .arr items =>
      if items.isEmpty then refuse keyword .empty
      else if items.all Json.isString then .ok [.arr items]
      else .ok items
  | _ => refuse keyword .notListOrObject

/-- The text of a column. -/
def columnText (keyword : String) : Json → Except SchemaError String
  | .str text => .ok text
  | _ => refuse keyword .columnNotString

/-- A list of at least one column. -/
def columnList (keyword : String) : Json → Except SchemaError (List String)
  | .arr items =>
      if items.isEmpty then refuse keyword .columnsNotList else items.mapM (columnText keyword)
  | _ => refuse keyword .columnsNotList

/-- The name of an index or a constraint, which may be left out or null. -/
def compositeName (keyword : String) : Option Json → Except SchemaError (Option String)
  | none => .ok none
  | some .null => .ok none
  | some (.str name) => .ok (some name)
  | some _ => refuse keyword .nameNotString

/-- Whether an index is unique; it is not if nothing is said. -/
def indexUnique : Option Json → Except SchemaError Bool
  | none => .ok false
  | some (.bool unique) => .ok unique
  | some _ => refuse "x-composite-index" .uniqueNotBoolean

/-- One index. -/
def compositeIndex : Json → Except SchemaError CompositeIndex
  | .obj fields =>
      match Keyed.get? fields "expressions" with
      | none => refuse "x-composite-index" .noExpressions
      | some expressions => do
          let name ← compositeName "x-composite-index" (Keyed.get? fields "name")
          let columns ← columnList "x-composite-index" expressions
          let unique ← indexUnique (Keyed.get? fields "unique")
          return ⟨name, columns, unique⟩
  | columns => do return ⟨none, ← columnList "x-composite-index" columns, false⟩

/-- One unique constraint. -/
def compositeUnique : Json → Except SchemaError CompositeUnique
  | .obj fields =>
      match Keyed.get? fields "columns" with
      | none => refuse "x-composite-unique" .noColumns
      | some columns => do
          let name ← compositeName "x-composite-unique" (Keyed.get? fields "name")
          return ⟨name, ← columnList "x-composite-unique" columns⟩
  | columns => do return ⟨none, ← columnList "x-composite-unique" columns⟩

/-- The value of `x-composite-index`. -/
def compositeIndexes (value : Json) : Except SchemaError (List CompositeIndex) := do
  (← compositeEntries "x-composite-index" value).mapM compositeIndex

/-- The value of `x-composite-unique`. -/
def compositeUniques (value : Json) : Except SchemaError (List CompositeUnique) := do
  (← compositeEntries "x-composite-unique" value).mapM compositeUnique

end Extension

end EntityMapping
