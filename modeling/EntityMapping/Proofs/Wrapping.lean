import EntityMapping.Proofs.Composing
import EntityMapping.Proofs.Merging
import EntityMapping.Relationship.BackReferences

/-!
Schemas with a fragment laid over them, as entities get them that need a foreign key column or back
references. Such a schema is flattened as the schema below, with the fragment on top: what the
fragment does not say stays as it was, and its properties are there whatever lies below.
-/

set_option autoImplicit false
set_option relaxedAutoImplicit false

namespace EntityMapping

open Keyed (Distinct)
open Registry (wrap propertyFragment backrefFragment)

/-- Keywords that stand for themselves and are pairwise different. -/
structure IsFragment (fragment : Keyed Json) : Prop where
  noReference : Keyed.get? fragment "$ref" = none
  noFragments : Keyed.get? fragment "allOf" = none
  distinct : Distinct fragment

theorem isFragment_propertyFragment (property : String) (schema : Json) :
    IsFragment (propertyFragment property schema) :=
  ⟨rfl, rfl, by simp [propertyFragment, Distinct]⟩

theorem isFragment_backrefFragment (backrefs : Keyed Json) :
    IsFragment (backrefFragment backrefs) :=
  ⟨rfl, rfl, by simp [backrefFragment, Distinct]⟩

/-- The flat schema with a fragment laid over it. -/
def overlaid (flat fragment : Keyed Json) : Keyed Json := layOver (layOver [] flat) fragment

theorem distinct_overlaid (flat fragment : Keyed Json) : Distinct (overlaid flat fragment) :=
  distinct_layOver (distinct_layOver Keyed.distinct_nil flat) fragment

theorem get?_layOver_empty {flat : Keyed Json} (distinct : Distinct flat) (keyword : String) :
    Keyed.get? (layOver [] flat) keyword = Keyed.get? flat keyword := by
  rw [get?_layOver [] distinct]
  cases Keyed.get? flat keyword <;> simp [laidValue, joinValues]

/-- The value of a keyword on a flat schema with a fragment laid over it. -/
theorem get?_overlaid {flat fragment : Keyed Json} (distinct : Distinct flat)
    (isFragment : IsFragment fragment) (keyword : String) :
    Keyed.get? (overlaid flat fragment) keyword =
      laidValue keyword (Keyed.get? flat keyword) (Keyed.get? fragment keyword) := by
  rw [overlaid, get?_layOver _ isFragment.distinct, get?_layOver_empty distinct]

/-- The properties of an entity are an object that has a property with a schema. -/
def HasProperty (flat : Keyed Json) (property : String) (schema : Json) : Prop :=
  ∃ properties, Keyed.get? flat "properties" = some (.obj properties) ∧
    Keyed.get? properties property = some schema

theorem hasProperty_overlaid (flat : Keyed Json) (property : String) (schema : Json) :
    HasProperty (overlaid flat (propertyFragment property schema)) property schema := by
  have written : Keyed.get? (propertyFragment property schema) "properties" =
      some (.obj [(property, schema)]) := rfl
  refine ⟨_, by rw [overlaid, get?_layOver _ (isFragment_propertyFragment ..).distinct, written,
    laidValue_properties_obj], ?_⟩
  unfold propertiesOver
  split
  · simp [Keyed.get?_set_self]
  · simp [Keyed.get?_cons]

/-- A property stays when another one is laid over it. -/
theorem HasProperty.overlaid {flat : Keyed Json} {property other : String} {schema added : Json}
    (has : HasProperty flat property schema) (distinct : Distinct flat)
    (different : property ≠ other) :
    HasProperty (overlaid flat (propertyFragment other added)) property schema := by
  obtain ⟨properties, written, found⟩ := has
  have writtenToo : Keyed.get? (propertyFragment other added) "properties" =
      some (.obj [(other, added)]) := rfl
  refine ⟨Keyed.set properties other added, ?_, ?_⟩
  · rw [get?_overlaid distinct (isFragment_propertyFragment ..), written, writtenToo,
      laidValue_properties_obj]
    rfl
  · rw [Keyed.get?_set_of_ne _ _ different, found]

namespace Registry

variable {registry : Registry} {skip : Option String} {hops : Nat} {visited : List String}
  {name : String} {schema : Json} {fragment : Keyed Json}

/-- A schema with a fragment laid over it is flattened as the schema, with the fragment on top. -/
theorem flattenFrom_wrap (isFragment : IsFragment fragment) :
    registry.flattenFrom skip hops visited name (wrap schema fragment) =
      registry.flattenFrom skip hops visited name schema >>= fun flat =>
        .ok ⟨name, overlaid flat.fields fragment⟩ := by
  have written : Keyed.get? [("allOf", Json.arr [schema, .obj fragment])] "allOf" =
      some (.arr [schema, .obj fragment]) := rfl
  rw [wrap, flattenFrom_fragments rfl written, List.mapM_cons, List.mapM_cons, List.mapM_nil,
    flattenFrom_plain isFragment.noReference isFragment.noFragments]
  cases registry.flattenFrom skip hops visited name schema with
  | error e => rfl
  | ok flat =>
    simp [Except.map, overlaid, mergeFragments, Keyed.without]

end Registry

end EntityMapping
