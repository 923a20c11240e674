import EntityMapping.Schema.Flattening
import EntityMapping.Schema.Keyword

/-!
The effective value of one keyword of a composed schema, found without flattening the schema: on
the schema itself, then behind its reference, then in its fragments in order.
-/

set_option autoImplicit false
set_option relaxedAutoImplicit false

namespace EntityMapping

namespace Composition

mutual

/-- The effective value of a keyword, given how references are followed. -/
def effectiveWith (follow : Json → Except SchemaError (Option Json)) (keyword : String) :
    Composition → Except SchemaError (Option Json)
  | .notObject => .error (.malformedSchema .notObject)
  | .plain own => .ok (presentValue? own keyword)
  | .reference target own =>
      match presentValue? own keyword with
      | some value => .ok (some value)
      | none => follow target
  | .malformed own =>
      match presentValue? own keyword with
      | some value => .ok (some value)
      | none => .error (.malformedSchema .allOfNotList)
  | .all fragments own =>
      match presentValue? own keyword with
      | some value => .ok (some value)
      | none => firstEffectiveWith follow keyword fragments

/-- The effective value in the first fragment that has one. -/
def firstEffectiveWith (follow : Json → Except SchemaError (Option Json)) (keyword : String) :
    List Composition → Except SchemaError (Option Json)
  | [] => .ok none
  | fragment :: rest => do
      match ← effectiveWith follow keyword fragment with
      | some value => return some value
      | none => firstEffectiveWith follow keyword rest

end

end Composition

namespace Registry

/-- The effective value of a keyword after the references on a chain, of which some more may be
followed. -/
def effectiveFrom (registry : Registry) (skip : Option String) (keyword : String) :
    (hops : Nat) → (visited : List String) → Json → Except SchemaError (Option Json)
  | hops, visited, schema =>
      schema.composition.effectiveWith (fun target => do
        match ← registry.step skip visited target with
        | none => return none
        | some (reference, arrival) =>
            match hops with
            | 0 => .error (.notFound (.endless reference))
            | hops + 1 => effectiveFrom registry skip keyword hops arrival.visited arrival.schema)
        keyword

/-- The effective value of a keyword, without entering the entity to skip, if one is given. -/
def effectiveWithout? (registry : Registry) (skip : Option String) (schema : Json)
    (keyword : String) : Except SchemaError (Option Json) :=
  registry.effectiveFrom skip keyword registry.chainLimit [] schema

/-- The effective value of a keyword. -/
def effective? (registry : Registry) (schema : Json) (keyword : String) :
    Except SchemaError (Option Json) :=
  registry.effectiveWithout? none schema keyword

/-- The effective keywords of a schema. -/
def keywords (registry : Registry) (schema : Json) : KeywordReader := registry.effective? schema

end Registry

namespace FlatSchema

/-- The keywords of a flat schema. -/
def keywords (flat : FlatSchema) : KeywordReader := KeywordReader.ofFields flat.fields

end FlatSchema

end EntityMapping
