import EntityMapping.Proofs.GrownEntities

/-!
What is written into entities passes validation. A key column and back references are valid
themselves, and so every entity stays valid, unless something that is not valid comes to light.
-/

set_option autoImplicit false
set_option relaxedAutoImplicit false

namespace EntityMapping

namespace Registry

variable {registry next : Registry} {keyword name : String} {after : Json}

/-- A call that writes properties or back references into entities, and succeeds: a key is ensured on
an entity that amounts to an object, or the back references of all relationships are added. -/
inductive Writes (registry : Registry) : String → Registry → Prop
  | key {next : Registry} {store after : ModelStore} {target owning column : String}
      {nullable : Option Bool} {schema : Json} {flat : FlatSchema} :
      registry.get? target = some schema → registry.flatten target schema = .ok flat →
      flat.keywords.primitiveType = .ok .object →
      registry.ensureForeignKey store target owning column nullable = .ok (next, after) →
      Writes registry "properties" next
  | backrefs {next : Registry} : registry.addAllBackrefs = (next, .ok ()) →
      Writes registry "x-backrefs" next

end Registry

end EntityMapping
