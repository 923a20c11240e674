import EntityMapping.Table.ForeignKey

/-!
Association tables of many to many relationships. A table has one column for either side, which
points at the only primary key of that side's entity.
-/

set_option autoImplicit false
set_option relaxedAutoImplicit false

namespace EntityMapping

/-- A column of an association table. -/
structure AssociationColumn where
  name : String
  column : Column

/-- An association table with the column of the side that declares it first. -/
structure AssociationTable where
  name : String
  first : AssociationColumn
  second : AssociationColumn

namespace AssociationColumn

def sameValue (a b : AssociationColumn) : Bool := a.name == b.name && a.column.sameValue b.column

end AssociationColumn

namespace AssociationTable

/-- Whether two tables are the same, whichever side declares them. -/
def isEquivalent (a b : AssociationTable) : Bool :=
  a.name == b.name &&
    ((b.first.sameValue a.first && b.second.sameValue a.second) ||
      (b.first.sameValue a.second && b.second.sameValue a.first))

/-- The columns in order. -/
def columns (table : AssociationTable) : List AssociationColumn := [table.first, table.second]

/-- The column of a name. -/
def column? (table : AssociationTable) (name : String) : Option AssociationColumn :=
  table.columns.find? fun column => column.name = name

end AssociationTable

namespace Registry

/-- The properties of a flat entity; none where they are not an object. -/
def propertiesOf (entity : Keyed Json) : Keyed Json :=
  ((Keyed.get? entity "properties").bind Json.fields?).getD []

/-- The flat primary keys among some properties. -/
def primaryKeysOf (registry : Registry) : Keyed Json → Except SchemaError (Keyed FlatSchema)
  | [] => .ok []
  | (property, schema) :: rest => do
      let flat ← registry.flatten property schema
      let isKey := (← flat.keywords.primaryKey?) = some true
      let keys ← registry.primaryKeysOf rest
      return if isKey then (property, flat) :: keys else keys

/-- The column of one side. -/
def associationSide (registry : Registry) (secondary name : String) :
    Except SchemaError AssociationColumn := do
  let schema ← match registry.get? name with
    | some schema => pure schema
    | none => .error (.malformedRelationship (.associatedUnregistered secondary name))
  let flat ← registry.flatten name schema
  let tablename ← match ← flat.keywords.tablename? with
    | some tablename => pure tablename
    | none => .error (.malformedRelationship (.associatedNoTablename secondary name))
  match ← registry.primaryKeysOf (propertiesOf flat.fields) with
  | [] => .error (.malformedRelationship (.associatedNoPrimaryKey secondary name))
  | [(property, key)] =>
      let type ← key.keywords.typeText
      let format ← key.keywords.format?
      let maxLength ← key.keywords.maxLength?
      let schema := ForeignKey.columnSchema type format maxLength none
        (ForeignKey.target tablename property)
      return ⟨ForeignKey.propertyName tablename property, ← Column.ofSchema (.obj schema) none⟩
  | _ => .error (.malformedRelationship (.associatedManyPrimaryKeys secondary name))

/-- The association table that joins two entities. -/
def association (registry : Registry) (secondary left right : String) :
    Except SchemaError AssociationTable := do
  let first ← registry.associationSide secondary left
  let second ← registry.associationSide secondary right
  if first.name = second.name then
    .error (.malformedRelationship (.associationColumnsClash secondary first.name))
  return ⟨secondary, first, second⟩

end Registry

end EntityMapping
