import EntityMapping.Proofs.Additions
import EntityMapping.Proofs.BuiltModels
import EntityMapping.Proofs.CompiledProperties

/-!
Key columns between the moment at which they are written into the registry and the moment at which
their entity is compiled. The column stays in the entity's own schema whatever else is written, so
the model of the entity has it.
-/

set_option autoImplicit false
set_option relaxedAutoImplicit false

namespace EntityMapping

open Keyed (Distinct)
open ForeignKey (IsKeySchema)

theorem HasProperty.propertiesIn {flat : Keyed Json} {property : String} {schema : Json}
    (has : HasProperty flat property schema) :
    Keyed.get? (propertiesIn flat) property = some schema := by
  obtain ⟨properties, written, found⟩ := has
  rw [get?_propertiesIn, written]
  exact found

namespace Registry

/-- A key column is among those that are laid over the schema of an entity. -/
def CarriesKey (registry : Registry) (name property : String) (fields : Keyed Json) : Prop :=
  ∃ base keys, registry.get? name = some (keys.foldl Additions.withKey base) ∧ Distinct keys ∧
    (property, fields) ∈ keys

variable {registry : Registry} {name property : String} {fields : Keyed Json} {schema : Json}

/-- A key column that is written is carried from then on. -/
theorem carriesKey_insert (schema : Json) :
    (registry.insert name (wrap schema (propertyFragment property (.obj fields)))).CarriesKey name
      property fields := by
  refine ⟨schema, [(property, fields)], ?_, by simp [Distinct], List.mem_singleton_self _⟩
  exact Keyed.get?_set_self _ _ _

/-- An entity that carries a key column has it in its schema, with or without its parent. -/
theorem CarriesKey.hasProperty (carries : registry.CarriesKey name property fields)
    (entry : registry.get? name = some schema) {skip : Option String} {flat : FlatSchema}
    (flattened : registry.flattenWithout skip name schema = .ok flat) :
    HasProperty flat.fields property (.obj fields) := by
  obtain ⟨base, keys, carried, distinct, member⟩ := carries
  obtain rfl := Option.some.inj (entry.symm.trans carried)
  exact (hasProperty_of_flattenFrom distinct flattened).2 _ member

end Registry

namespace Compilation

variable {names : List String} {before after : Compilation} {name property : String}
  {fields : Keyed Json}

/-- A key column that is carried stays whatever else is written. -/
theorem Step.carriesKey (step : Step names before after)
    (carries : before.registry.CarriesKey name property fields) :
    after.registry.CarriesKey name property fields := by
  cases step with
  | table => exact carries
  | model => exact carries
  | @key target _ _ _ _ _ ensured =>
    obtain ⟨schema, own, source, entry, ownFound, -, change⟩ :=
      Registry.ensuresKey_of_ensureForeignKey ensured
    cases change with
    | satisfied => exact carries
    | taken => exact carries
    | attached => exact carries
    | @written added missing =>
      obtain ⟨base, keys, carried, distinct, member⟩ := carries
      by_cases same : name = target
      · subst same
        obtain rfl := Option.some.inj (entry.symm.trans carried)
        obtain ⟨-, flat, flattened, sameFields⟩ := Registry.ownSchema_eq_ok.mp ownFound
        have fresh := Registry.fresh_of_flatProperty? distinct flattened (sameFields ▸ missing)
        refine ⟨base, keys ++ [(_, added)], ?_, (Keyed.distinct_append_singleton _ _).mpr
          ⟨distinct, fresh⟩, List.mem_append_left _ member⟩
        rw [List.foldl_append]
        exact Keyed.get?_set_self _ _ _
      · exact ⟨base, keys, (Keyed.get?_set_of_ne _ _ same).trans carried, distinct, member⟩

theorem Steps.carriesKey (steps : Steps names before after)
    (carries : before.registry.CarriesKey name property fields) :
    after.registry.CarriesKey name property fields := by
  induction steps with
  | refl => exact carries
  | tail _ step ih => exact step.carriesKey ih

end Compilation

end EntityMapping
