import EntityMapping.Proofs.AddedKeys
import EntityMapping.Proofs.ReorderedBackrefs

/-!
Registries whose entities are not composed of anything. Nothing that is added to an entity reaches
another one there, so the keys that relationships add are settled as soon as none of them points at a
column of the name of a key.
-/

set_option autoImplicit false
set_option relaxedAutoImplicit false

namespace EntityMapping

namespace Registry

variable {registry : Registry} {own : Keyed Json} {part : Json} {entity : String}

/-- Every entity is an object that is not composed of anything. -/
def IsPlain (registry : Registry) : Prop :=
  ∀ name schema, registry.get? name = some schema → ∃ own, schema = .obj own ∧
    Keyed.get? own "$ref" = none ∧ Keyed.get? own "allOf" = none ∧
    Keyed.get? own "type" = some (.str "object") ∧
    ∀ keyword ∈ ["properties", "x-backrefs"], ∀ value, Keyed.get? own keyword = some value →
      value.isObject = true

namespace IsPlain

variable (plain : registry.IsPlain)

include plain

theorem not_reachesEntity {name : String} {schema : Json} (registered : registry.get? name = some schema) :
    ¬ registry.ReachesEntity schema entity := by
  obtain ⟨own, rfl, noReference, noFragments, -⟩ := plain name schema registered
  exact not_reachesEntity_of_plain noReference noFragments

theorem isObject_of_composes {name keyword : String} {schema value : Json}
    (registered : registry.get? name = some schema) (parts : registry.Composes schema (.obj own))
    (isJoined : keyword ∈ ["properties", "x-backrefs"]) (written : Keyed.get? own keyword = some value) :
    value.isObject = true := by
  obtain ⟨top, rfl, noReference, noFragments, -, objects⟩ := plain name schema registered
  obtain rfl := Json.obj.inj (parts.eq_of_plain noReference noFragments)
  exact objects keyword isJoined value written

theorem keysSettled (pointing : ∀ holder property fields entity relationship,
    registry.AddsKey holder property fields → registry.Relates entity relationship →
    relationship.foreignKeyColumn ≠ property) : registry.KeysSettled where
  objects name schema registered own value parts written :=
    plain.isObject_of_composes registered parts (by simp) written
  entities holder property fields adds := by
    obtain ⟨schema, -, registered, -⟩ := adds.isMissing.own
    obtain ⟨own, rfl, noReference, noFragments, isObject, -⟩ := plain holder schema registered
    exact ⟨.obj own, own, registered, noReference, .plain noReference noFragments, isObject⟩
  apart holder property fields name schema parent adds registered _ meets :=
    plain.not_reachesEntity registered meets.reachesEntity
  fresh holder property fields name schema flat adds registered flattened reaches := by
    obtain rfl := reaches.resolve_right (plain.not_reachesEntity registered)
    obtain ⟨_, own, registeredToo, ownFound⟩ := adds.isMissing.own
    obtain rfl := Option.some.inj (registered.symm.trans registeredToo)
    obtain ⟨fields, rfl, noReference, noFragments, -⟩ := plain holder schema registered
    -- the entity amounts to what is written, with and without a parent
    have flat_eq : ∀ {skip : Option String} {other : FlatSchema},
        registry.flattenWithout skip holder (.obj fields) = .ok other → other.fields = fields := by
      intro skip other found
      rw [flattenWithout, flattenFrom_plain noReference noFragments] at found
      exact congrArg FlatSchema.fields (Except.ok.inj found).symm
    obtain ⟨-, other, flattenedOwn, sameFields⟩ := ownSchema_eq_ok.mp ownFound
    have notDeclared := adds.isMissing.notDeclared
    rw [declared_eq registered ownFound, ← sameFields, flat_eq flattenedOwn] at notDeclared
    rw [flat_eq flattened]
    exact notDeclared
  pointing := pointing

theorem backrefsApart : registry.BackrefsApart where
  objects model property reverse schema own value _ registered parts written :=
    plain.isObject_of_composes registered parts (by simp) written
  apart model schema part property reverse other registered reaches _ _ :=
    plain.not_reachesEntity registered reaches

end IsPlain

end Registry

end EntityMapping
