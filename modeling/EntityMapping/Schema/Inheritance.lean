import EntityMapping.Schema.Effective

/-!
Inheritance between entities. A child is composed of its parent: of the closest entity with a
table, or of the entity it names. What belongs to the child itself is its schema with the parent
skipped.
-/

set_option autoImplicit false
set_option relaxedAutoImplicit false

namespace EntityMapping

namespace Composition

mutual

/-- The references that a schema is composed of, in order. -/
def references : Composition → List String
  | .reference (.str target) _ => [target]
  | .all fragments _ => allReferences fragments
  | _ => []

def allReferences : List Composition → List String
  | [] => []
  | fragment :: rest => references fragment ++ allReferences rest

end

end Composition

namespace Registry

/-- Whether an entity on the way is the parent: the one wanted, or without a name any entity with
a table. -/
def isParent (registry : Registry) (wanted : Option String) (arrival : Arrival) :
    Except SchemaError Bool :=
  match wanted with
  | some name => .ok (arrival.name = name)
  | none => do return (← (registry.keywords arrival.schema).tablename?).isSome

/-- The first parent among the entities that a schema is composed of, depth first. -/
def searchParent (registry : Registry) (wanted : Option String) :
    (hops : Nat) → (visited : List String) → Json → Except SchemaError (Option String)
  | hops, visited, schema =>
      schema.composition.references.findSomeM? fun reference => do
        let arrival ← registry.arrive visited reference (← Reference.parse reference)
        if ← registry.isParent wanted arrival then return some arrival.name
        else match hops with
          | 0 => .error (.notFound (.endless reference))
          | hops + 1 => searchParent registry wanted hops arrival.visited arrival.schema

/-- The name of the entity that a schema inherits from, if it inherits. What the schema says about
inheritance counts over what it is composed of. -/
def parent? (registry : Registry) (name : String) (schema : Json) :
    Except SchemaError (Option String) := do
  let flat ← registry.flatten name schema
  let search (wanted : Option String) (missing : MalformedSchemaCause) :
      Except SchemaError (Option String) := do
    match ← registry.searchParent wanted registry.chainLimit [] schema with
    | some parent => return some parent
    | none => .error (.malformedSchema missing)
  match ← flat.keywords.inherits? with
  | none => return none
  | some (.enabled false) => return none
  | some (.enabled true) => search none (.noParent name)
  | some (.parent parent) => search (some parent) (.parentNotReferenced name parent)

/-- An entity without what it inherits. -/
structure OwnSchema where
  parent : Option String
  fields : Keyed Json

/-- The keywords of an entity without what it inherits. -/
def OwnSchema.keywords (own : OwnSchema) : KeywordReader := KeywordReader.ofFields own.fields

/-- The parent of an entity, and its schema with the parent skipped. -/
def ownSchema (registry : Registry) (name : String) (schema : Json) :
    Except SchemaError OwnSchema := do
  let parent ← registry.parent? name schema
  let own ← registry.flattenWithout parent name schema
  return ⟨parent, own.fields⟩

end Registry

end EntityMapping
