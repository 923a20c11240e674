import EntityMapping.Model.Basic
import EntityMapping.SchemaError

/-!
The models that have been built so far, in the order in which they were built.
-/

set_option autoImplicit false
set_option relaxedAutoImplicit false

namespace EntityMapping

/-- Models in the order in which they were built, one for a name. -/
abbrev ModelStore := List Model

namespace ModelStore

/-- The model of a name. -/
def get? (store : ModelStore) (name : String) : Option Model :=
  List.find? (fun model => model.name = name) store

/-- Whether a model has been built. -/
def isBuilt (store : ModelStore) (name : String) : Bool := (get? store name).isSome

/-- Whether a model that has been built has a property. -/
def hasProperty (store : ModelStore) (name property : String) : Bool :=
  (get? store name).any fun model => model.hasProperty property

/-- Change the model of a name. -/
def update (change : Model → Model) (name : String) : ModelStore → ModelStore
  | [] => []
  | model :: rest =>
      if model.name = name then change model :: rest else model :: update change name rest

/-- Add a model that has been built; one of its name is replaced in its place. -/
def add (store : ModelStore) (model : Model) : ModelStore :=
  if isBuilt store model.name then update (fun _ => model) model.name store
  else List.append store [model]

/-- Add a column to a model that has been built. -/
def attachColumn (store : ModelStore) (name property : String) (schema : Json) (column : Column) :
    Except SchemaError ModelStore :=
  if isBuilt store name then
    .ok (update (fun model => model.addColumn property schema column) name store)
  else .error (.malformedRelationship (.modelNotBuilt property name))

end ModelStore

end EntityMapping
