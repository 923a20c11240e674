import EntityMapping.Artifacts.Record
import EntityMapping.Table.Association

/-!
Columns and association tables as JSON values.
-/

set_option autoImplicit false
set_option relaxedAutoImplicit false

namespace EntityMapping

namespace Column

/-- The fields of a column in order. -/
def fieldNames : List String :=
  ["type", "column_type", "format", "max_length", "nullable", "primary_key", "autoincrement",
    "index", "unique", "foreign_key", "default", "description", "kwargs", "dict_ignore",
    "read_only", "write_only"]

/-- The fields of a written column. -/
def toFields (column : Column) : Keyed Json :=
  Record.always "type" (.str column.type.spelling) ++
  Record.always "column_type" (.str column.columnType.spelling) ++
  Record.sometimes "format" (column.format.map .str) ++
  Record.sometimes "max_length" (column.maxLength.map fun length => .int length) ++
  Record.always "nullable" (.bool column.nullable) ++
  Record.always "primary_key" (.bool column.primaryKey) ++
  Record.always "autoincrement" (.bool column.autoincrement) ++
  Record.always "index" (.bool column.index) ++
  Record.always "unique" (.bool column.unique) ++
  Record.sometimes "foreign_key" (column.foreignKey.map .str) ++
  Record.sometimes "default" column.default ++
  Record.sometimes "description" (column.description.map .str) ++
  Record.sometimes "kwargs" (column.arguments.map .obj) ++
  Record.always "dict_ignore" (.bool column.dictIgnore) ++
  Record.always "read_only" (.bool column.readOnly) ++
  Record.always "write_only" (.bool column.writeOnly)

def toJson (column : Column) : Json := .obj column.toFields

/-- Read a column from its fields, beside which its kind may be written. -/
def ofRecord? (kinded : Bool) (record : Record) : Option Column := do
  let typeName ← record.need "type" (Record.alternative? kinded)
  let columnTypeName ← record.need "column_type" (Record.alternative? kinded)
  return {
    type := ← PrimitiveType.ofSpelling? typeName
    columnType := ← ColumnType.ofSpelling? columnTypeName
    format := ← record.maybe "format" Json.string?
    maxLength := ← record.maybe "max_length" Json.nat?
    nullable := ← record.need "nullable" Json.bool?
    primaryKey := ← record.orUsual "primary_key" false Json.bool?
    autoincrement := ← record.orUsual "autoincrement" false Json.bool?
    index := ← record.orUsual "index" false Json.bool?
    unique := ← record.orUsual "unique" false Json.bool?
    foreignKey := ← record.maybe "foreign_key" Json.string?
    default := ← record.maybe "default" some
    description := ← record.maybe "description" Json.string?
    arguments := ← record.maybe "kwargs" Json.fields?
    dictIgnore := ← record.orUsual "dict_ignore" false Json.bool?
    readOnly := ← record.orUsual "read_only" false Json.bool?
    writeOnly := ← record.orUsual "write_only" false Json.bool? }

/-- Read a column. -/
def ofJson? (value : Json) : Option Column := do
  ofRecord? false (← Record.ofJson? fieldNames 0 value)

end Column

namespace AssociationColumn

def toJson (column : AssociationColumn) : Json :=
  .obj [("name", .str column.name), ("artifacts", column.column.toJson)]

def ofJson? (value : Json) : Option AssociationColumn := do
  let record ← Record.ofJson? ["name", "artifacts"] 0 value
  return ⟨← record.need "name" Json.string?, ← record.need "artifacts" Column.ofJson?⟩

end AssociationColumn

namespace AssociationTable

def toJson (table : AssociationTable) : Json :=
  .obj [("name", .str table.name), ("columns", .arr (table.columns.map AssociationColumn.toJson))]

/-- Exactly two columns. -/
def columnPair? (value : Json) : Option (AssociationColumn × AssociationColumn) := do
  match ← Record.listOf? AssociationColumn.ofJson? value with
  | [first, second] => return (first, second)
  | _ => none

def ofJson? (value : Json) : Option AssociationTable := do
  let record ← Record.ofJson? ["name", "columns"] 0 value
  let name ← record.need "name" Json.string?
  let (first, second) ← record.need "columns" columnPair?
  return ⟨name, first, second⟩

end AssociationTable

end EntityMapping
