import EntityMapping.Schema.Composition
import EntityMapping.Schema.Reference

/-!
Flattening: the schema that a composed schema amounts to. References are followed, fragments are
flattened and laid over each other, and the keywords beside them are laid over the result. A chain
of references that comes back to a target is an error.
-/

set_option autoImplicit false
set_option relaxedAutoImplicit false

namespace EntityMapping

/-- A schema that is not composed, with its name: that of the last reference followed, or the one
it was asked for under. -/
structure FlatSchema where
  name : String
  fields : Keyed Json

namespace FlatSchema

/-- The schema as a value. -/
def schema (flat : FlatSchema) : Json := .obj flat.fields

end FlatSchema

/-- The target of a reference, which must be a text. -/
def referenceText : Json → Except SchemaError String
  | .str text => .ok text
  | _ => .error (.malformedSchema .referenceNotString)

namespace Composition

mutual

/-- Flatten a composition, given how references are followed. -/
def flattenWith (follow : Json → Except SchemaError FlatSchema) (name : String) :
    Composition → Except SchemaError FlatSchema
  | .notObject => .error (.malformedSchema (.namedNotObject name))
  | .plain own => .ok ⟨name, own⟩
  | .reference target _ => follow target
  | .malformed _ => .error (.malformedSchema .allOfNotList)
  | .all fragments own => do
      let flats ← flattenAllWith follow name fragments
      let beside := Keyed.without own "allOf"
      return ⟨name, mergeFragments (flats ++ [beside])⟩

/-- Flatten every fragment. -/
def flattenAllWith (follow : Json → Except SchemaError FlatSchema) (name : String) :
    List Composition → Except SchemaError (List (Keyed Json))
  | [] => .ok []
  | fragment :: rest => do
      let flat ← flattenWith follow name fragment
      let flats ← flattenAllWith follow name rest
      return flat.fields :: flats

end

end Composition

namespace Registry

/-- Where a reference leads, unless it is to an entity that is skipped. -/
def step (registry : Registry) (skip : Option String) (visited : List String) (target : Json) :
    Except SchemaError (Option (String × Arrival)) := do
  let reference ← referenceText target
  let parsed ← Reference.parse reference
  if skip = some parsed.name then return none
  else return some (reference, ← registry.arrive visited reference parsed)

/-- Flatten a schema after the references on a chain, of which some more may be followed. -/
def flattenFrom (registry : Registry) (skip : Option String) :
    (hops : Nat) → (visited : List String) → (name : String) → Json →
      Except SchemaError FlatSchema
  | hops, visited, name, schema =>
      schema.composition.flattenWith (fun target => do
        match ← registry.step skip visited target with
        | none => return ⟨name, []⟩
        | some (reference, arrival) =>
            match hops with
            | 0 => .error (.notFound (.endless reference))
            | hops + 1 =>
                flattenFrom registry skip hops arrival.visited arrival.name arrival.schema)
        name

/-- Flatten a schema as if the entity to skip, if one is given, were empty. -/
def flattenWithout (registry : Registry) (skip : Option String) (name : String) (schema : Json) :
    Except SchemaError FlatSchema :=
  registry.flattenFrom skip registry.chainLimit [] name schema

/-- Flatten a schema. -/
def flatten (registry : Registry) (name : String) (schema : Json) :
    Except SchemaError FlatSchema :=
  registry.flattenWithout none name schema

end Registry

end EntityMapping
