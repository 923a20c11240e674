import EntityMapping.Relationship.Gathering
import EntityMapping.Schema.Inheritance
import EntityMapping.Table.ForeignKey

/-!
Back references: the properties that relationships imply on the entities they refer to. All of
them are found in the registry as it is given, then every entity gets those that it does not have
yet, in one fragment.
-/

set_option autoImplicit false
set_option relaxedAutoImplicit false

namespace EntityMapping

/-- A property that a relationship implies on another entity. -/
structure ReverseProperty where
  /-- The entity that gets the property. -/
  model : String
  property : String
  schema : Json

/-- The implied properties of every entity. -/
abbrev BackrefGroups := Keyed (Keyed Json)

namespace BackrefGroups

/-- Add an implied property. The same property may be implied twice only with the same schema. -/
def add (groups : BackrefGroups) (entry : ReverseProperty) : Except SchemaError BackrefGroups :=
  let group := (Keyed.get? groups entry.model).getD []
  match Keyed.get? group entry.property with
  | none => .ok (Keyed.set groups entry.model (Keyed.set group entry.property entry.schema))
  | some existing =>
      if existing == entry.schema then .ok groups
      else .error (.malformedRelationship (.conflictingBackrefs entry.model entry.property))

end BackrefGroups

namespace Registry

/-- The property that one property of an entity implies, if it does. -/
def reverseOf? (registry : Registry) (owner property : String) (schema : Json) :
    Except SchemaError (Option ReverseProperty) := do
  match ← inContext (owner ++ "." ++ property) (registry.gather? property schema) with
  | none => return none
  | some relationship =>
      return relationship.backref.map fun backref =>
        ⟨relationship.modelName, backref.name, relationship.reverseSchema owner⟩

/-- The properties that some properties of an entity imply. -/
def reversesOf (registry : Registry) (owner : String) :
    Keyed Json → Except SchemaError (List ReverseProperty)
  | [] => .ok []
  | (property, schema) :: rest => do
      let entry ← registry.reverseOf? owner property schema
      let entries ← registry.reversesOf owner rest
      return entry.toList ++ entries

/-- The properties that an entity implies. A child implies only those of its own properties. -/
def entityBackrefs (registry : Registry) (name : String) (schema : Json) :
    Except SchemaError (List ReverseProperty) := do
  let own ← registry.ownSchema name schema
  if (← own.keywords.tablename?).isNone then return []
  match Keyed.get? own.fields "properties" with
  | some (.obj properties) => registry.reversesOf name properties
  | _ => return []

/-- Add what an entity implies. -/
def groupEntity (registry : Registry) (groups : BackrefGroups) (entry : String × Json) :
    Except SchemaError BackrefGroups := do
  (← registry.entityBackrefs entry.1 entry.2).foldlM BackrefGroups.add groups

/-- All implied properties of a registry. -/
def backrefGroups (registry : Registry) : Except SchemaError BackrefGroups :=
  registry.entries.foldlM registry.groupEntity []

/-- The back references of a group that an entity does not have. Those that it has must agree. -/
def missingBackrefs (model : String) (existing : Keyed Json) :
    Keyed Json → Except SchemaError (Keyed Json)
  | [] => .ok []
  | (property, reverse) :: rest =>
      match Keyed.get? existing property with
      | some current =>
          if current == reverse then missingBackrefs model existing rest
          else .error (.malformedRelationship (.backrefDiffers model property))
      | none => do return (property, reverse) :: (← missingBackrefs model existing rest)

/-- The fragment that adds back references. -/
def backrefFragment (missing : Keyed Json) : Keyed Json :=
  [("type", .str "object"), ("x-backrefs", .obj missing)]

/-- Add the back references of a group that an entity does not have. -/
def addBackrefs (registry : Registry) (group : String × Keyed Json) :
    Except SchemaError Registry := do
  let (model, backrefs) := group
  let schema ← match registry.get? model with
    | some schema => pure schema
    | none => .error (.malformedRelationship (.backrefTargetUnregistered model))
  let flat ← registry.flatten model schema
  let existing := ((Keyed.get? flat.fields "x-backrefs").bind Json.fields?).getD []
  let missing ← missingBackrefs model existing backrefs
  if missing.isEmpty then return registry
  else registry.replace model (wrap schema (backrefFragment missing))

/-- The registry while groups are added to it, with the error that ended it if one did. What was
added before an error stays. -/
def addGroups : Registry → List (String × Keyed Json) → Registry × Except SchemaError Unit
  | registry, [] => (registry, .ok ())
  | registry, group :: rest =>
      match registry.addBackrefs group with
      | .ok next => addGroups next rest
      | .error error => (registry, .error error)

/-- Add the back references of all relationships to a registry. -/
def addAllBackrefs (registry : Registry) : Registry × Except SchemaError Unit :=
  match registry.backrefGroups with
  | .ok groups => registry.addGroups groups
  | .error error => (registry, .error error)

end Registry

end EntityMapping
