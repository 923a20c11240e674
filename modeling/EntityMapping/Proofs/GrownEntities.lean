import EntityMapping.Proofs.KeyChanges
import EntityMapping.Proofs.LinkedRegistries
import EntityMapping.Proofs.SettledValidity

/-!
Entities that grow. When a key column or back references are written into entities, every entity
keeps its keywords but for its properties, or its back references. Values that are no objects forget
what is below them when fragments are laid over each other; where an object takes their place, what
was forgotten comes to light. Where nothing comes to light, an entity has what it had and what has
been added.
-/

set_option autoImplicit false
set_option relaxedAutoImplicit false

namespace EntityMapping

open Keyed (Distinct)
open Registry (wrap propertyFragment)

variable {keyword : String} {value : Option Json}

/-- A flat schema that says the same as another one, but for a keyword whose value stays or is an
object now. -/
structure FlatSchema.GrowsAt (keyword : String) (flat other : FlatSchema) : Prop where
  distinct : Distinct flat.fields
  distinctToo : Distinct other.fields
  same : ∀ word, word ∉ [keyword, "allOf"] →
    Keyed.get? flat.fields word = Keyed.get? other.fields word
  grown : StaysOrIsObject (Keyed.get? flat.fields keyword) (Keyed.get? other.fields keyword)

namespace Registry

variable {registry next base : Registry} {name : String} {schema after : Json}
  {flat other : FlatSchema}

/-- What validation asks of each property and of each back reference. -/
def AcceptsField (registry : Registry) (keyword : String) (field : String × Json) : Prop :=
  (keyword = "properties" → registry.validateProperty field.1 field.2 = .ok ()) ∧
    (keyword = "x-backrefs" → field.2.isObject = true)

/-- Nothing comes to light under a keyword of a schema when entities are written into. The entities
that it is composed of have an object there already, or wherever the keyword is written in what the
schema is composed of, its value is an object. -/
def CoversNothing (registry next : Registry) (keyword : String) (schema : Json) : Prop :=
  (∀ entity entry flat, registry.ReachesEntity schema entity →
      next.get? entity ≠ registry.get? entity → registry.get? entity = some entry →
      registry.flatten entity entry = .ok flat →
      ∃ fields, Keyed.get? flat.fields keyword = some (.obj fields)) ∨
    ∀ own value, registry.Composes schema (.obj own) → Keyed.get? own keyword = some value →
      value.isObject = true

/-- A registry whose entities grow at a keyword. -/
structure OnlyGrows (registry next : Registry) (keyword : String) : Prop where
  /-- Properties stay as valid as they were. -/
  properties : ∀ property value, value.isWellKeyed = true →
    next.validateProperty property value = registry.validateProperty property value
  /-- Where nothing comes to light, all that is found was there before or is valid. -/
  entities : ∀ name after, next.get? name = some after → ∃ schema, registry.get? name = some schema ∧
    ∀ flat, registry.flatten name schema = .ok flat → ∃ other, next.flatten name after = .ok other ∧
      flat.GrowsAt keyword other ∧
      (registry.CoversNothing next keyword schema → IsFields (Keyed.get? flat.fields keyword) →
        Joined (fun property value => next.AcceptsField keyword (property, value))
          (Keyed.get? flat.fields keyword) (Keyed.get? other.fields keyword))

theorem OnlyGrows.refl (keyed : registry.WellKeyed) (keyword : String) :
    registry.OnlyGrows registry keyword where
  properties _ _ _ := rfl
  entities name schema registered := by
    refine ⟨schema, registered, fun flat flattened => ⟨flat, flattened, ?_, fun _ => .refl⟩⟩
    have distinct :=
      keyed.distinct_of_derives (derives_of_flattenFrom flattened) (keyed.of_get? registered)
    exact ⟨distinct, distinct, fun _ _ => rfl, .inl rfl⟩

end Registry

namespace Rewriting

variable {rewriting : Rewriting} {property name : String} {added schema after top : Json}
  {flat other : FlatSchema} {strict : Prop}

end Rewriting

/-- What is implied is a schema. -/
theorem IsReverse.isObject {schema : Json} (isReverse : IsReverse schema) :
    schema.isObject = true := by
  obtain ⟨owner, relationship, rfl⟩ := isReverse
  rfl

namespace Registry

variable {registry next base : Registry} {keyword name : String} {schema after : Json}
  {groups : BackrefGroups} {additions : String → Additions}

namespace BackrefPass

variable (pass : base.BackrefPass groups additions next)

include pass

end BackrefPass

end Registry

end EntityMapping
